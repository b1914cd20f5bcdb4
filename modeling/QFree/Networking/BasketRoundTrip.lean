/-
  Networking/BasketRoundTrip.lean --- a posted basket is read back unchanged.

  `getBasketResponse_stored` computes what `getBasket` makes of the stored form
  of any list of entries: the dictionary of the entries if every product has a
  category, a trap otherwise.  The round trip is the case of a list that
  enumerates a basket.
-/
import QFree.Networking.FirebaseHandler

set_option autoImplicit false

namespace QFree.FirebaseHandler

open QFree.Foundation QFree.Foundation.Json

/-- One turn of the loop of `getBasket` on a stored item. -/
theorem getBasketStep_stored (basket : Basket) (product : ProductInfo) (amount : Int64) :
    getBasketStep basket (storedFields product amount) =
      if product.category = [] then none else some (basket.insert product amount) := by
  have hamount := amountField_stored product amount
  unfold intField at hamount
  obtain ⟨text, htext, hparse⟩ := Option.bind_eq_some_iff.mp hamount
  unfold getBasketStep
  rw [decodeProduct_stored, htext]
  split
  · rfl
  · simp [hparse, Dictionary.assign]

/-- The loop of `getBasket` over stored items inserts them one by one. -/
theorem foldlM_getBasketStep_stored {entries : List (ProductInfo × Int64)} :
    ∀ {basket result : Basket},
      (entries.map fun entry => storedFields entry.1 entry.2).foldlM getBasketStep basket =
          some result ↔
        (∀ entry ∈ entries, entry.1.category ≠ []) ∧
          result = entries.foldl (fun b entry => b.insert entry.1 entry.2) basket := by
  induction entries with
  | nil =>
      intro basket result
      simp [eq_comm]
  | cons entry rest ih =>
      intro basket result
      rw [List.map_cons, List.foldlM_cons, getBasketStep_stored]
      by_cases hcategory : entry.1.category = []
      · simp [hcategory]
      · simp [hcategory, ih]

/-- What `getBasket` makes of the stored form of a list of entries. -/
theorem getBasketResponse_stored {entries : List (ProductInfo × Int64)} {result : Basket} :
    getBasketResponse (encodeItems entries).pruned = some result ↔
      (∀ entry ∈ entries, entry.1.category ≠ []) ∧ result = Dictionary.ofEntries entries := by
  cases entries with
  | nil =>
      simp [getBasketResponse, asDictionaries, Dictionary.ofEntries, eq_comm]
  | cons entry rest =>
      rw [getBasketResponse, asDictionaries_stored (List.cons_ne_nil entry rest)]
      exact foldlM_getBasketStep_stored

/-- The stored form of a basket, whatever order it was written in, reads back
as that basket or not at all. -/
theorem getBasketResponse_enumerated {basket result : Basket}
    {entries : List (ProductInfo × Int64)} (h : basket.Enumerates entries)
    (hread : getBasketResponse (encodeItems entries).pruned = some result) :
    result = basket := by
  rw [(getBasketResponse_stored.mp hread).2, h.ofEntries_eq]

/-- If every product has a category it does read back. -/
theorem getBasketResponse_categorized {basket : Basket} {entries : List (ProductInfo × Int64)}
    (h : basket.Enumerates entries) (hcategorized : basket.Categorized) :
    getBasketResponse (encodeItems entries).pruned = some basket := by
  rw [getBasketResponse_stored, h.ofEntries_eq]
  exact ⟨fun entry hmem => hcategorized entry.1 (h.key_mem hmem), rfl⟩

/-! ## Categories -/

/-- A product that is read from a stored record has a category: an empty list of
categories is not stored. -/
theorem category_ne_nil_of_decodeProduct {value : Json} {i : Fields} {product : ProductInfo}
    (hstored : value.pruned = .object i) (h : decodeProduct i = some product) :
    product.category ≠ [] := by
  simp only [decodeProduct, Option.bind_eq_bind, Option.bind_eq_some_iff, Option.pure_def,
    Option.some.injEq] at h
  obtain ⟨categories, hcategories, -, -, -, -, -, -, -, -, rfl⟩ := h
  obtain ⟨rawValues, hraw, hcategory⟩ := Option.bind_eq_some_iff.mp hcategories
  obtain ⟨before, hbefore⟩ := pruned_eq_object hstored "category"
  rw [hbefore] at hraw
  unfold asStrings at hraw
  split at hraw
  · rename_i elements harray
    have hlength := (mapM_eq_some_iff_forall₂.mp hraw).length_eq
    have hlength' := (mapM_eq_some_iff_forall₂.mp hcategory).length_eq
    have hnonempty := List.length_pos_of_ne_nil (pruned_eq_array harray).1
    change categories ≠ []
    exact List.ne_nil_of_length_pos (by omega)
  · cases hraw

/-- The loop of `getBasket` over stored records. -/
theorem categorized_foldlM [TextLibrary] {data : List Fields}
    (hstored : ∀ i ∈ data, ∃ value : Json, value.pruned = .object i) :
    ∀ {basket result : Basket}, basket.Categorized →
      data.foldlM getBasketStep basket = some result → result.Categorized := by
  induction data with
  | nil =>
      intro basket result hbasket h
      exact Option.some.inj h ▸ hbasket
  | cons i rest ih =>
      intro basket result hbasket h
      rw [List.foldlM_cons] at h
      obtain ⟨next, hnext, hrest⟩ := Option.bind_eq_some_iff.mp h
      obtain ⟨value, hvalue⟩ := hstored i List.mem_cons_self
      refine ih (fun other hother => hstored other (List.mem_cons_of_mem i hother)) ?_ hrest
      obtain ⟨product, hproduct, hassigned⟩ := Option.bind_eq_some_iff.mp hnext
      obtain ⟨amount, -, hbasket'⟩ := Option.bind_eq_some_iff.mp hassigned
      obtain rfl := Option.some.inj hbasket'
      intro other hother
      cases hamount : parseInt amount with
      | none =>
          rw [hamount] at hother
          exact hbasket other (Finmap.mem_erase.mp hother).2
      | some n =>
          rw [hamount] at hother
          rcases Finmap.mem_insert.mp hother with rfl | hold
          · rw [ProductInfo.canonical_category]
            exact category_ne_nil_of_decodeProduct hvalue hproduct
          · exact hbasket other hold

/-- A basket that is read from the server has a category for each product. -/
theorem categorized_of_getBasketResponse [TextLibrary] {value : Json} {basket : Basket}
    (h : getBasketResponse value.pruned = some basket) : basket.Categorized := by
  unfold getBasketResponse at h
  split at h
  · exact Option.some.inj h ▸ Basket.categorized_empty
  · rename_i data hdata
    refine categorized_foldlM (fun i hi => ?_) Basket.categorized_empty h
    unfold asDictionaries at hdata
    split at hdata
    · rename_i elements harray
      obtain ⟨element, helement, hi⟩ := exists_of_mem_of_mapM hdata hi
      obtain ⟨before, rfl⟩ := (pruned_eq_array harray).2 element helement
      refine ⟨before, ?_⟩
      unfold asDictionary at hi
      split at hi
      · rename_i fields hfields
        rw [hfields, Option.some.inj hi]
      · cases hi
    · cases hdata

/-! ## The stored basket -/

/-- The value is the stored form of the basket, written in some order. -/
def HoldsBasket (value : Json) (basket : Basket) : Prop :=
  ∃ entries, basket.Enumerates entries ∧ value = (encodeItems entries).pruned

/-- The database holds the basket of the user. -/
def StoresBasket (database : Json) (user : String) (basket : Basket) : Prop :=
  HoldsBasket (database.get (basketPath user)) basket

theorem holdsBasket_null : HoldsBasket .null ∅ :=
  ⟨[], Dictionary.Enumerates.empty_iff.mpr rfl, rfl⟩

/-- What `getBasket` reads is the stored basket. -/
theorem eq_of_holdsBasket {value : Json} {basket result : Basket} (h : HoldsBasket value basket)
    (hread : getBasketResponse value = some result) : result = basket := by
  obtain ⟨entries, hentries, rfl⟩ := h
  exact getBasketResponse_enumerated hentries hread

/-- A posted basket is stored. -/
theorem storesBasket_of_postBasket {database : Json} {user : String} {basket : Basket}
    {entries : List (ProductInfo × Int64)} {isConnected : Bool} {write : Write}
    (hentries : basket.Enumerates entries)
    (hpost : postBasket ⟨some user⟩ isConnected entries = .ok write) :
    StoresBasket (write.apply database) user basket := by
  cases isConnected with
  | false => cases hpost
  | true =>
      rw [← Except.ok.inj hpost]
      exact ⟨entries, hentries, get_set_same database (basketPath user) _⟩

/-- A stored basket with categories is the only one stored. -/
theorem storesBasket_unique {database : Json} {user : String} {basket other : Basket}
    (h : StoresBasket database user basket) (hcategorized : basket.Categorized)
    (hother : StoresBasket database user other) : other = basket := by
  obtain ⟨entries, hentries, hstored⟩ := h
  have hread := getBasketResponse_categorized hentries hcategorized
  rw [← hstored] at hread
  exact (eq_of_holdsBasket hother hread).symm

/-! ## The round trip -/

/-- `postBasket` followed by `getBasket` returns the basket, for every order in
which `postBasket` iterates it. -/
theorem getBasket_postBasket (user : String) (database : Json) {basket : Basket}
    {entries : List (ProductInfo × Int64)} (hentries : basket.Enumerates entries)
    (hcategorized : basket.Categorized) :
    ∃ write, postBasket ⟨some user⟩ true entries = .ok write ∧
      getBasket ⟨some user⟩ true (write.apply database) = some (.ok basket) := by
  refine ⟨_, rfl, ?_⟩
  have hread : ((Write.apply database ⟨basketPath user, encodeItems entries⟩).get
      (basketPath user)) = (encodeItems entries).pruned := get_set_same _ _ _
  simp only [getBasket, getBasketRequest, guardUser, Except.map, answerNow, if_true]
  rw [hread, getBasketResponse_categorized hentries hcategorized]
  rfl

/-- Two coffees and a pizza, one of them out of stock and one with a negative
price. -/
def sampleBasket : List (ProductInfo × Int64) :=
  [ (⟨"Latte", 199, "l.png", [.coffee], "0"⟩, 2),
    (⟨"Latte", -1, "l.png", [.coffee], "0"⟩, 0),
    (⟨"Margherita", 450, "m.png", [.pizza, .vegan], "0"⟩, 1)]

theorem sampleBasket_enumerated :
    Dictionary.Enumerates (Dictionary.ofEntries sampleBasket) sampleBasket :=
  Dictionary.enumerates_ofEntries (by decide)

theorem sampleBasket_categorized : Basket.Categorized (Dictionary.ofEntries sampleBasket) := by
  intro product hmem
  rw [← sampleBasket_enumerated.mem_keys_iff] at hmem
  revert product
  decide

/-- The database of a user who has stored the sample basket and ordered nothing. -/
def sampleDatabase : Json :=
  Write.apply .null ⟨basketPath "user@mail", encodeItems sampleBasket⟩

theorem sampleDatabase_stores :
    StoresBasket sampleDatabase "user@mail" (Dictionary.ofEntries sampleBasket) := by
  have hpost : postBasket ⟨some "user@mail"⟩ true sampleBasket =
      .ok ⟨basketPath "user@mail", encodeItems sampleBasket⟩ := rfl
  exact storesBasket_of_postBasket sampleBasket_enumerated hpost

/-- The restaurant whose menu has these products. -/
def sampleRestaurant : Restaurant := ⟨"Groot", "g.png", "55.75", "37.64", [.coffee, .pizza]⟩

theorem getBasket_postBasket_sample :
    ∃ write, postBasket ⟨some "user@mail"⟩ true sampleBasket = .ok write ∧
      getBasket ⟨some "user@mail"⟩ true (write.apply .null) =
        some (.ok (Dictionary.ofEntries sampleBasket)) :=
  getBasket_postBasket "user@mail" .null sampleBasket_enumerated sampleBasket_categorized

end QFree.FirebaseHandler
