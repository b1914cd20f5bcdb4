/-
  Networking/ReaderContract.lean --- what the readers owe the database.

  A reader should be total and lose nothing: its completion gets either one result
  for each record that is there, or `invalidResponse` because some record is
  malformed.  `Meets` says this of one answer.  The readers have no branch that
  completes with `invalidResponse`: they skip a node whose type they do not
  expect and trap on a malformed record.  So each of them meets the contract on
  the values on which it neither skips nor traps, and on those where there is
  nothing to lose; the theorems `…_meets_iff` say which these are.
-/
import QFree.Networking.OrderReaders

set_option autoImplicit false

namespace QFree

open QFree.Foundation QFree.Foundation.Json

namespace FirebaseHandler

/-! ## The contract -/

/-- The records below a node: its children, of which an absent one is none. -/
def present (value : Json) : List Json :=
  (value.fields.map Prod.snd).filter fun record => !record.isNull

/-- There is one result for each record, in some order. -/
def OneEach {α : Type} (Describes : Json → α → Prop) (records : List Json) (results : List α) :
    Prop :=
  ∃ matched : List α, matched.Perm results ∧ List.Forall₂ Describes records matched

/-- The completion gets a result that is complete, or `invalidResponse` because of
a malformed record; an outcome that is missing is a trap. -/
def Meets {ρ : Type} (Complete : ρ → Prop) (Malformed : Prop)
    (outcome : Option (Except NetworkingError ρ)) : Prop :=
  match outcome with
  | none => False
  | some (.ok result) => Complete result
  | some (.error error) => error = .invalidResponse ∧ Malformed

/-- The record is a dictionary of the kind. -/
def IsRecord {α : Type} (Describes : Fields → α → Prop) (record : Json) (result : α) : Prop :=
  ∃ i : Fields, record = .object i ∧ Describes i result

/-- Some record is not of the kind. -/
def SomeMalformed {α : Type} (Describes : Json → α → Prop) (records : List Json) : Prop :=
  ∃ record ∈ records, ∀ result, ¬Describes record result

/-- The value is an array of records of the kind. -/
def ListsRecords {α : Type} (Describes : Fields → α → Prop) (value : Json) : Prop :=
  ∃ elements, value = .array elements ∧ ∀ record ∈ elements, ∃ result,
    IsRecord Describes record result

/-- A reader without a failing branch meets the contract when it does not trap and
its result is complete. -/
theorem meets_map_ok {ρ : Type} {Complete : ρ → Prop} {Malformed : Prop} {response : Option ρ} :
    Meets Complete Malformed (response.map .ok) ↔
      ∃ result, response = some result ∧ Complete result := by
  cases response <;> simp [Meets]

theorem oneEach_nil {α : Type} {Describes : Json → α → Prop} {records : List Json} :
    OneEach Describes records [] ↔ records = [] := by
  constructor
  · rintro ⟨matched, hperm, hmatched⟩
    rw [List.perm_nil.mp hperm, List.forall₂_nil_right_iff] at hmatched
    exact hmatched
  · rintro rfl
    exact ⟨[], List.Perm.refl _, .nil⟩

theorem oneEach_of_forall₂ {α : Type} {Describes : Json → α → Prop} {records : List Json}
    {results : List α} (h : List.Forall₂ Describes records results) :
    OneEach Describes records results :=
  ⟨results, List.Perm.refl _, h⟩

/-! ## Arrays of dictionaries -/

/-- A node that is an array of dictionaries has these as its children. -/
theorem present_objects (data : List Fields) :
    present (.array (data.map .object)) = data.map .object := by
  have hchildren : (Json.array (data.map .object)).fields.map Prod.snd = data.map .object := by
    rw [fields, List.map_map]
    exact (List.zipIdx_map_fst 0 _)
  rw [present, hchildren, List.filter_eq_self]
  intro record hrecord
  obtain ⟨i, -, rfl⟩ := List.mem_map.mp hrecord
  rfl

theorem forall₂_isRecord {α : Type} {Describes : Fields → α → Prop} {data : List Fields}
    {results : List α} :
    List.Forall₂ (IsRecord Describes) (data.map .object) results ↔
      List.Forall₂ Describes data results := by
  rw [List.forall₂_map_left_iff]
  constructor
  · refine List.Forall₂.imp fun i result h => ?_
    obtain ⟨other, heq, hdescribes⟩ := h
    exact Json.object.inj heq ▸ hdescribes
  · exact List.Forall₂.imp fun i result h => ⟨i, rfl, h⟩

theorem listsRecords_objects {α : Type} {Describes : Fields → α → Prop} {data : List Fields} :
    ListsRecords Describes (.array (data.map .object)) ↔
      ∀ i ∈ data, ∃ result, Describes i result := by
  constructor
  · rintro ⟨elements, heq, hall⟩ i hi
    rw [← Json.array.inj heq] at hall
    obtain ⟨result, other, hother, hdescribes⟩ := hall _ (List.mem_map_of_mem hi)
    exact ⟨result, Json.object.inj hother ▸ hdescribes⟩
  · intro hall
    refine ⟨_, rfl, fun record hrecord => ?_⟩
    obtain ⟨i, hi, rfl⟩ := List.mem_map.mp hrecord
    obtain ⟨result, hdescribes⟩ := hall i hi
    exact ⟨result, i, rfl, hdescribes⟩

/-- An array of records is an array of dictionaries. -/
theorem asDictionaries_of_listsRecords {α : Type} {Describes : Fields → α → Prop} {value : Json}
    (h : ListsRecords Describes value) : asDictionaries value ≠ none := by
  obtain ⟨elements, rfl, hall⟩ := h
  refine mapM_ne_none fun record hrecord => ?_
  obtain ⟨result, i, rfl, -⟩ := hall record hrecord
  nofun

/-- A loop that decodes every record, exactly when all are of the kind. -/
theorem exists_mapM_iff {α : Type} {decode : Fields → Option α} {Describes : Fields → α → Prop}
    (hdecode : ∀ i result, decode i = some result ↔ Describes i result) (data : List Fields) :
    (∃ results, data.mapM decode = some results ∧ List.Forall₂ Describes data results) ↔
      ∀ i ∈ data, ∃ result, Describes i result := by
  constructor
  · rintro ⟨results, hloop, -⟩ i hi
    obtain ⟨result, -, hresult⟩ := exists_of_mapM_of_mem hloop hi
    exact ⟨result, (hdecode i result).mp hresult⟩
  · intro hall
    obtain ⟨results, hloop⟩ := Option.ne_none_iff_exists'.mp
      (mapM_ne_none (f := decode) fun i hi => by
        obtain ⟨result, hresult⟩ := hall i hi
        rw [(hdecode i result).mpr hresult]
        nofun)
    refine ⟨results, hloop, ?_⟩
    simpa only [hdecode] using mapM_eq_some_iff_forall₂.mp hloop

/-! ## getRestaurantsInfo -/

/-- The contract of `getRestaurantsInfo`. -/
def RestaurantsMeet (value : Json) : Prop :=
  Meets (OneEach (IsRecord RestaurantRecord) (present value))
    (SomeMalformed (IsRecord RestaurantRecord) (present value))
    ((getRestaurantsInfoResponse value).map .ok)

theorem restaurantsMeet_iff (value : Json) :
    RestaurantsMeet value ↔ present value = [] ∨ ListsRecords RestaurantRecord value := by
  rw [RestaurantsMeet, meets_map_ok]
  cases hcast : asDictionaries value with
  | none =>
      have hlists : ¬ListsRecords RestaurantRecord value :=
        fun h => asDictionaries_of_listsRecords h hcast
      simp only [getRestaurantsInfoResponse, hcast, Option.some.injEq, exists_eq_left',
        oneEach_nil, hlists, or_false]
  | some data =>
      obtain rfl := asDictionaries_eq_some.mp hcast
      have hloop := exists_mapM_iff (fun i _ => decodeRestaurant_eq_some (i := i)) data
      simp only [getRestaurantsInfoResponse, hcast, present_objects, List.map_eq_nil_iff,
        listsRecords_objects, ← hloop]
      constructor
      · rintro ⟨results, hresults, -⟩
        refine .inr ⟨results, hresults, ?_⟩
        simpa only [decodeRestaurant_eq_some] using mapM_eq_some_iff_forall₂.mp hresults
      · rintro (rfl | ⟨results, hresults, hall⟩)
        · exact ⟨[], rfl, oneEach_nil.mpr rfl⟩
        · exact ⟨results, hresults, oneEach_of_forall₂ (forall₂_isRecord.mpr hall)⟩

/-! ## getProductsByIDRestaurant -/

/-- The record is of the restaurant. -/
def isOfRestaurant [TextLibrary] (id : String) : Json → Bool
  | .object i =>
      match lookupField "restaurantID" i with
      | .string text => SameText text id
      | _ => false
  | _ => false

/-- The contract of `getProductsByIDRestaurant`. -/
def ProductsMeet [TextLibrary] (id : String) (value : Json) : Prop :=
  Meets (OneEach (IsRecord ProductRecord) ((present value).filter (isOfRestaurant id)))
    (SomeMalformed (IsRecord ProductRecord) (present value))
    ((getProductsByIDRestaurantResponse id value).map .ok)

theorem isOfRestaurant_of_record [TextLibrary] {id : String} {record : Json}
    {product : ProductInfo} (h : IsRecord ProductRecord record product) :
    isOfRestaurant id record = decide (SameText product.restaurantID id) := by
  obtain ⟨i, rfl, hrecord⟩ := h
  rw [isOfRestaurant, hrecord.restaurantID]

theorem productsMeet_iff [TextLibrary] (id : String) (value : Json) :
    ProductsMeet id value ↔
      ListsRecords ProductRecord value ∨
        ((¬∃ data : List Fields, value = .array (data.map .object)) ∧
          ∀ record ∈ present value, isOfRestaurant id record = false) := by
  rw [ProductsMeet, meets_map_ok]
  cases hcast : asDictionaries value with
  | none =>
      have hlists : ¬ListsRecords ProductRecord value :=
        fun h => asDictionaries_of_listsRecords h hcast
      have harray := asDictionaries_eq_none.mp hcast
      simp only [getProductsByIDRestaurantResponse, hcast, Option.some.injEq, exists_eq_left',
        oneEach_nil, hlists, false_or, harray, not_false_eq_true, true_and,
        List.filter_eq_nil_iff, Bool.not_eq_true]
  | some data =>
      obtain rfl := asDictionaries_eq_some.mp hcast
      have hloop := exists_mapM_iff (fun i _ => decodeProduct_eq_some (i := i)) data
      have harray : ∃ records : List Fields,
          Json.array (data.map .object) = .array (records.map .object) := ⟨data, rfl⟩
      simp only [getProductsByIDRestaurantResponse, hcast, present_objects,
        listsRecords_objects, ← hloop, harray, not_true_eq_false, false_and, or_false,
        Option.bind_eq_bind, Option.bind_eq_some_iff, Option.pure_def, Option.some.injEq]
      constructor
      · rintro ⟨_, ⟨products, hproducts, rfl⟩, -⟩
        refine ⟨products, hproducts, ?_⟩
        simpa only [decodeProduct_eq_some] using mapM_eq_some_iff_forall₂.mp hproducts
      · rintro ⟨products, hproducts, hall⟩
        refine ⟨_, ⟨products, hproducts, rfl⟩, oneEach_of_forall₂ ?_⟩
        -- the filters of the two lists agree record by record
        refine List.rel_filter ?_ (forall₂_isRecord.mpr hall)
        intro record product hrecord
        exact iff_of_eq (congrArg (· = true) (isOfRestaurant_of_record hrecord))

/-! ## getBasket -/

/-- The entry under which the dictionary keeps an item: its key stands for all
products that are `==` to it. -/
def keyed [TextLibrary] (item : ProductInfo × Int64) : ProductInfo × Int64 :=
  (item.1.canonical, item.2)

/-- The record describes an item that is kept under the entry. -/
def KeyedRecord [TextLibrary] (i : Fields) (entry : ProductInfo × Int64) : Prop :=
  ∃ item, ItemRecord i item ∧ keyed item = entry

/-- The contract of `getBasket`: the entries of the basket are the records. -/
def BasketMeets [TextLibrary] (value : Json) : Prop :=
  Meets
    (fun basket : Basket => ∃ entries, basket.Enumerates entries ∧
      OneEach (IsRecord KeyedRecord) (present value) entries)
    (SomeMalformed (IsRecord ItemRecord) (present value))
    ((getBasketResponse value).map .ok)

/-- The array lists items no two of which have products that are `==`. -/
def ListsDistinctItems [TextLibrary] (value : Json) : Prop :=
  ∃ (data : List Fields) (items : List (ProductInfo × Int64)),
    value = .array (data.map .object) ∧ List.Forall₂ ItemRecord data items ∧
      (items.map fun item => item.1.canonical).Nodup

section Basket

variable [TextLibrary]

theorem keys_keyed (items : List (ProductInfo × Int64)) :
    (items.map keyed).map Prod.fst = items.map fun item => item.1.canonical := by
  rw [List.map_map]
  rfl

/-- Records of entries are records of items, and the entries are those of the items. -/
theorem forall₂_keyedRecord {data : List Fields} {entries : List (ProductInfo × Int64)} :
    List.Forall₂ KeyedRecord data entries ↔
      ∃ items, List.Forall₂ ItemRecord data items ∧ items.map keyed = entries := by
  constructor
  · intro h
    induction h with
    | nil => exact ⟨[], .nil, rfl⟩
    | cons hrecord _ ih =>
        obtain ⟨item, hitem, rfl⟩ := hrecord
        obtain ⟨items, hitems, rfl⟩ := ih
        exact ⟨item :: items, .cons hitem hitems, rfl⟩
  · rintro ⟨items, hitems, rfl⟩
    rw [List.forall₂_map_right_iff]
    exact hitems.imp fun i item hitem => ⟨item, hitem, rfl⟩

theorem getBasketStep_of_record (basket : Basket) {i : Fields} {item : ProductInfo × Int64}
    (h : ItemRecord i item) :
    getBasketStep basket i = some (basket.insert (keyed item).1 (keyed item).2) := by
  obtain ⟨text, htext, hparse⟩ := h.amount
  rw [getBasketStep, decodeProduct_eq_some.mpr h.product, stringField_eq_some.mpr htext]
  simp only [Option.bind_eq_bind, Option.bind_some, hparse, Option.pure_def, Dictionary.assign,
    keyed]

/-- Items are inserted one by one. -/
theorem foldlM_getBasketStep_of_records {data : List Fields}
    {items : List (ProductInfo × Int64)} (h : List.Forall₂ ItemRecord data items) :
    ∀ basket : Basket, data.foldlM getBasketStep basket =
      some ((items.map keyed).foldl (fun b entry => b.insert entry.1 entry.2) basket) := by
  induction h with
  | nil =>
      intro basket
      rfl
  | cons hrecord _ ih =>
      intro basket
      rw [List.foldlM_cons, getBasketStep_of_record basket hrecord, Option.bind_eq_bind,
        Option.bind_some, ih, List.map_cons, List.foldl_cons]

theorem basketMeets_iff (value : Json) :
    BasketMeets value ↔ present value = [] ∨ ListsDistinctItems value := by
  rw [BasketMeets, meets_map_ok]
  cases hcast : asDictionaries value with
  | none =>
      have hlists : ¬ListsDistinctItems value :=
        fun ⟨data, _, hdata, _⟩ => asDictionaries_eq_none.mp hcast ⟨data, hdata⟩
      simp only [getBasketResponse, hcast, Option.some.injEq, exists_eq_left',
        Dictionary.Enumerates.empty_iff, exists_eq_left, oneEach_nil, hlists, or_false]
  | some data =>
      obtain rfl := asDictionaries_eq_some.mp hcast
      simp only [getBasketResponse, hcast, present_objects, List.map_eq_nil_iff]
      constructor
      · rintro ⟨basket, -, entries, hentries, matched, hperm, hmatched⟩
        obtain ⟨items, hitems, rfl⟩ := forall₂_keyedRecord.mp (forall₂_isRecord.mp hmatched)
        refine .inr ⟨data, items, rfl, hitems, ?_⟩
        rw [← keys_keyed]
        exact ((hperm.map Prod.fst).nodup_iff).mpr hentries.nodup_keys
      · rintro (rfl | ⟨records, items, hrecords, hall, hnodup⟩)
        · exact ⟨∅, rfl, [], Dictionary.Enumerates.empty_iff.mpr rfl, oneEach_nil.mpr rfl⟩
        · obtain rfl : data = records :=
            List.map_injective_iff.mpr (fun _ _ => Json.object.inj) (Json.array.inj hrecords)
          rw [← keys_keyed] at hnodup
          exact ⟨Dictionary.ofEntries (items.map keyed), foldlM_getBasketStep_of_records hall ∅,
            items.map keyed, Dictionary.enumerates_ofEntries hnodup,
            oneEach_of_forall₂ (forall₂_isRecord.mpr (forall₂_keyedRecord.mpr ⟨items, hall, rfl⟩))⟩

end Basket

/-! ## getOrders -/

section Dates

variable {Date : Type} (dates : DateLibrary Date)

/-- The record is an order that is shown so. -/
def ShownRecord (record : Json) (shown : OrderInfo) : Prop :=
  ∃ order, OrderRecord record order ∧ ShownAs dates order shown

/-- The contract of `getOrders`. -/
def OrdersMeet (value : Json) : Prop :=
  Meets (OneEach (ShownRecord dates) (present value))
    (SomeMalformed (ShownRecord dates) (present value))
    ((getOrdersResponse dates value).map .ok)

theorem ordersMeet_iff (value : Json) :
    OrdersMeet dates value ↔
      (¬value.IsObject ∧ present value = []) ∨
        ∃ orders, value = .object orders ∧ ∀ order ∈ orders, CompleteOrder dates order.2 := by
  rw [OrdersMeet, meets_map_ok]
  cases hcast : asDictionary value with
  | none =>
      have hobject := asDictionary_eq_none.mp hcast
      have hnone : ¬∃ orders, value = .object orders ∧
          ∀ order ∈ orders, CompleteOrder dates order.2 := fun ⟨orders, h, _⟩ => hobject ⟨orders, h⟩
      have hresponse : getOrdersResponse dates value = some [] := by
        simp [getOrdersResponse, getOrdersEntries, hcast, sortOrdersInfo]
      simp only [hresponse, Option.some.injEq, exists_eq_left', oneEach_nil, hobject,
        not_false_eq_true, true_and, hnone, or_false]
  | some orders =>
      obtain rfl := asDictionary_eq_some.mp hcast
      have hobject : (Json.object orders).IsObject := ⟨orders, rfl⟩
      simp only [hobject, not_true_eq_false, false_and, false_or, Json.object.injEq,
        exists_eq_left']
      constructor
      · rintro ⟨shown, hshown, -⟩ order horder
        simp only [getOrdersResponse, getOrdersEntries, asDictionary, Option.bind_eq_bind,
          Option.bind_eq_some_iff] at hshown
        obtain ⟨ordersInfo, hread, sorted, hsorted, hformatted⟩ := hshown
        obtain ⟨info, hinfo, hentry⟩ := exists_of_mapM_of_mem hread horder
        obtain ⟨shownInfo, -, hshownInfo⟩ := exists_of_mapM_of_mem hformatted
          ((sortOrdersInfo_perm hsorted).mem_iff.mpr hinfo)
        exact ⟨info, getOrdersEntry_eq_some.mp hentry, readableDates_of_format hshownInfo⟩
      · intro hall
        obtain ⟨ordersInfo, hread, hrecords⟩ := exists_orders_of_records (.inr hobject)
          fun order horder => (hall order horder).imp fun _ => And.left
        obtain ⟨sorted, shown, hshown, hperm, hforall⟩ := getOrdersResponse_of_entries hread
          (readableDates_of_complete (.object orders) hall hrecords)
        obtain ⟨matched, hmatched, hshownPerm⟩ := List.perm_comp_forall₂ hperm.symm hforall
        refine ⟨shown, hshown, matched, hshownPerm, ?_⟩
        have hpresent : present (.object orders) = orders.map Prod.snd := by
          refine List.filter_eq_self.mpr fun record hrecord => ?_
          obtain ⟨order, horder, rfl⟩ := List.mem_map.mp hrecord
          obtain ⟨info, ⟨fields, -, hfields, -⟩, -⟩ := hall order horder
          rw [hfields]
          rfl
        rw [hpresent, List.forall₂_map_left_iff]
        exact forall₂_comp hrecords hmatched

end Dates

/-! ## loadAllOrders -/

/-- The record is an order of the restaurant. -/
def isOrderFor [TextLibrary] (restaurantName : String) : Json → Bool
  | .object order =>
      match lookupField "info" order with
      | .object info =>
          match lookupField "name" info with
          | .string name => SameText name restaurantName
          | _ => false
      | _ => false
  | _ => false

/-- The records below the orders of a user. -/
def userOrders : Json → List Json
  | .object user => present (lookupField "orders" user)
  | _ => []

/-- The orders of the restaurant that a user has. -/
def wantedOrders [TextLibrary] (restaurantName : String) (subtree : Json) : List Json :=
  (userOrders subtree).filter (isOrderFor restaurantName)

/-- The contract of `loadAllOrders`. -/
def AllOrdersMeet [TextLibrary] (restaurantName : String) (tree : Json) : Prop :=
  Meets (OneEach OrderRecord ((present tree).flatMap (wantedOrders restaurantName)))
    (SomeMalformed OrderRecord ((present tree).flatMap userOrders))
    ((loadAllOrdersResponse restaurantName tree).map .ok)

/-- An entry with an `info` names its restaurant, and is complete if that is the
requested one. -/
def EntryReads [TextLibrary] (restaurantName : String) (entry : Json) : Prop :=
  ∀ order info, entry = .object order → lookupField "info" order = .object info →
    ∃ name, lookupField "name" info = .string name ∧
      (SameText name restaurantName → ∃ result, OrderRecord entry result)

/-- All orders of the user are dictionaries that can be read, or none is wanted. -/
def UserReads [TextLibrary] (restaurantName : String) (subtree : Json) : Prop :=
  ∀ user, subtree = .object user →
    (∀ orders, lookupField "orders" user = .object orders →
      ∀ order ∈ orders, EntryReads restaurantName order.2) ∧
    (¬(lookupField "orders" user).IsObject → wantedOrders restaurantName subtree = [])

/-- All users are dictionaries whose orders can be read, or no order is wanted. -/
def TreeReads [TextLibrary] (restaurantName : String) (tree : Json) : Prop :=
  (∀ users, tree = .object users → ∀ user ∈ users, UserReads restaurantName user.2) ∧
    (¬tree.IsObject → (present tree).flatMap (wantedOrders restaurantName) = [])

section AllOrders

variable [TextLibrary] {restaurantName : String}

/-- What a step of the inner loop yields. -/
theorem entryReads_of_loadAllOrdersEntry {entry : Json} {found : Option OrderInfo}
    (h : loadAllOrdersEntry restaurantName entry = some found) :
    EntryReads restaurantName entry ∧
      ((found = none ∧ isOrderFor restaurantName entry = false) ∨
        ∃ order, found = some order ∧ isOrderFor restaurantName entry = true ∧
          OrderRecord entry order) := by
  unfold loadAllOrdersEntry at h
  split at h
  · rename_i hcast
    refine ⟨fun order info hentry => ?_, .inl ⟨(Option.some.inj h).symm, ?_⟩⟩
    · rw [hentry] at hcast
      cases hcast
    · cases entry <;> first | rfl | cases hcast
  · rename_i order hcast
    obtain rfl := asDictionary_eq_some.mp hcast
    split at h
    · rename_i hinfo
      refine ⟨fun other info hother hfield => ?_, .inl ⟨(Option.some.inj h).symm, ?_⟩⟩
      · rw [← Json.object.inj hother] at hfield
        rw [hfield] at hinfo
        cases hinfo
      · rw [isOrderFor]
        cases hfield : lookupField "info" order <;>
          first | rfl | (rw [hfield] at hinfo; cases hinfo)
    · rename_i info hinfo
      have hfield := asDictionary_eq_some.mp hinfo
      obtain ⟨name, hname, h⟩ := Option.bind_eq_some_iff.mp h
      have hnameField := stringField_eq_some.mp hname
      have hwanted : isOrderFor restaurantName (.object order) =
          decide (SameText name restaurantName) := by
        rw [isOrderFor, hfield]
        simp only [hnameField]
      split at h
      · rename_i heq
        simp only [Option.bind_eq_bind, Option.bind_eq_some_iff, Option.pure_def,
          Option.some.injEq] at h
        obtain ⟨products, hproducts, result, hresult, rfl⟩ := h
        obtain ⟨hrecord, hitems⟩ := decodeOrderInfo_eq_some.mp hresult
        have horder : OrderRecord (.object order) result :=
          ⟨order, info, rfl, hitems ▸ decodeOrderProducts_eq_some.mp hproducts, hfield, hrecord⟩
        refine ⟨fun other otherInfo hother hotherInfo => ⟨name, ?_, fun _ => ⟨result, horder⟩⟩,
          .inr ⟨result, rfl, hwanted.trans (decide_eq_true heq), horder⟩⟩
        rw [← Json.object.inj hother, hfield] at hotherInfo
        exact Json.object.inj hotherInfo ▸ hnameField
      · rename_i hne
        refine ⟨fun other otherInfo hother hotherInfo => ⟨name, ?_, fun heq => absurd heq hne⟩,
          .inl ⟨(Option.some.inj h).symm, hwanted.trans (decide_eq_false hne)⟩⟩
        rw [← Json.object.inj hother, hfield] at hotherInfo
        exact Json.object.inj hotherInfo ▸ hnameField

theorem loadAllOrdersEntry_ne_none {entry : Json} (h : EntryReads restaurantName entry) :
    loadAllOrdersEntry restaurantName entry ≠ none := by
  unfold loadAllOrdersEntry
  split
  · nofun
  · rename_i order hcast
    split
    · nofun
    · rename_i info hinfo
      obtain ⟨name, hname, hcomplete⟩ := h order info (asDictionary_eq_some.mp hcast)
        (asDictionary_eq_some.mp hinfo)
      rw [stringField_eq_some.mpr hname, Option.bind_eq_bind, Option.bind_some]
      split
      · rename_i heq
        obtain ⟨result, fields, otherInfo, hfields, hproducts, hotherInfo, hrecord⟩ :=
          hcomplete heq
        rw [asDictionary_eq_some.mp hcast, Json.object.injEq] at hfields
        rw [hfields, asDictionary_eq_some.mpr hotherInfo, Option.some.injEq] at hinfo
        rw [hfields, decodeOrderProducts_eq_some.mpr hproducts, ← hinfo]
        simp [decodeOrderInfo_eq_some.mpr ⟨hrecord, rfl⟩]
      · nofun

/-- No absent record is wanted. -/
theorem filter_present (fields : Fields) :
    (present (.object fields)).filter (isOrderFor restaurantName) =
      (fields.map Prod.snd).filter (isOrderFor restaurantName) := by
  rw [present, List.filter_filter]
  refine List.filter_congr fun record _ => ?_
  cases record <;> simp [isNull, isOrderFor]

theorem records_of_loop {orders : Fields} :
    ∀ {found : List (Option OrderInfo)},
      orders.mapM (fun order => loadAllOrdersEntry restaurantName order.2) = some found →
        List.Forall₂ OrderRecord ((orders.map Prod.snd).filter (isOrderFor restaurantName))
          (found.filterMap id) := by
  induction orders with
  | nil =>
      intro found h
      rw [List.mapM_nil] at h
      rw [← Option.some.inj h]
      exact .nil
  | cons order rest ih =>
      intro found h
      obtain ⟨first, others, hfirst, hothers, rfl⟩ := mapM_cons_eq_some.mp h
      rw [List.map_cons]
      rcases (entryReads_of_loadAllOrdersEntry hfirst).2 with
        ⟨rfl, hnot⟩ | ⟨result, rfl, hwanted, hrecord⟩
      · rw [List.filter_cons_of_neg (by simp [hnot]), List.filterMap_cons_none rfl]
        exact ih hothers
      · rw [List.filter_cons_of_pos hwanted, List.filterMap_cons_some (f := id) rfl]
        exact .cons hrecord (ih hothers)

/-- Of one user all wanted orders are found, or some are lost. -/
theorem userReads_of_loadAllOrdersUser {subtree : Json} {found : List OrderInfo}
    (h : loadAllOrdersUser restaurantName subtree = some found) :
    (UserReads restaurantName subtree ∧
        List.Forall₂ OrderRecord (wantedOrders restaurantName subtree) found) ∨
      (¬UserReads restaurantName subtree ∧
        found.length < (wantedOrders restaurantName subtree).length) := by
  unfold loadAllOrdersUser at h
  split at h
  · rename_i hcast
    have hwanted : wantedOrders restaurantName subtree = [] := by
      cases subtree <;> first | rfl | cases hcast
    rw [← Option.some.inj h, hwanted]
    refine .inl ⟨fun user huser => ?_, .nil⟩
    rw [huser] at hcast
    cases hcast
  · rename_i user hcast
    obtain rfl := asDictionary_eq_some.mp hcast
    split at h
    · rename_i horders
      have hobject := asDictionary_eq_none.mp horders
      rw [← Option.some.inj h]
      by_cases hwanted : wantedOrders restaurantName (.object user) = []
      · rw [hwanted]
        refine .inl ⟨fun other hother => ⟨fun orders hfield => ?_, fun _ => hwanted⟩, .nil⟩
        rw [← Json.object.inj hother] at hfield
        exact absurd ⟨orders, hfield⟩ hobject
      · refine .inr ⟨fun hreads => hwanted ((hreads user rfl).2 hobject), ?_⟩
        exact List.length_pos_iff.mpr hwanted
    · rename_i orders horders
      have hfield := asDictionary_eq_some.mp horders
      obtain ⟨results, hresults, hfound⟩ := Option.bind_eq_some_iff.mp h
      have hwanted : wantedOrders restaurantName (.object user) =
          (orders.map Prod.snd).filter (isOrderFor restaurantName) := by
        rw [wantedOrders, userOrders, hfield, filter_present]
      rw [hwanted, ← Option.some.inj hfound]
      refine .inl ⟨fun other hother => ⟨fun otherOrders hother' order hmem => ?_, ?_⟩,
        records_of_loop hresults⟩
      · rw [← Json.object.inj hother, hfield] at hother'
        rw [← Json.object.inj hother'] at hmem
        obtain ⟨result, -, hresult⟩ := exists_of_mapM_of_mem hresults hmem
        exact (entryReads_of_loadAllOrdersEntry hresult).1
      · rw [← Json.object.inj hother, hfield]
        exact fun hnot => absurd ⟨orders, rfl⟩ hnot

theorem loadAllOrdersUser_ne_none {subtree : Json} (h : UserReads restaurantName subtree) :
    loadAllOrdersUser restaurantName subtree ≠ none := by
  unfold loadAllOrdersUser
  split
  · nofun
  · rename_i user hcast
    split
    · nofun
    · rename_i orders horders
      have hloop : orders.mapM (fun order => loadAllOrdersEntry restaurantName order.2) ≠ none :=
        mapM_ne_none fun order hmem => loadAllOrdersEntry_ne_none
          ((h user (asDictionary_eq_some.mp hcast)).1 orders (asDictionary_eq_some.mp horders)
            order hmem)
      obtain ⟨results, hresults⟩ := Option.ne_none_iff_exists'.mp hloop
      simp [hresults]

/-- Over all users no more is found than is wanted, as much only if every user can
be read, and if every user can be read one order for each wanted record. -/
theorem userReads_of_loop {users : Fields} :
    ∀ {found : List (List OrderInfo)},
      users.mapM (fun user => loadAllOrdersUser restaurantName user.2) = some found →
        let wanted := users.flatMap fun user => wantedOrders restaurantName user.2
        found.flatten.length ≤ wanted.length ∧
          (found.flatten.length = wanted.length →
            ∀ user ∈ users, UserReads restaurantName user.2) ∧
          ((∀ user ∈ users, UserReads restaurantName user.2) →
            List.Forall₂ OrderRecord wanted found.flatten) := by
  induction users with
  | nil =>
      intro found h
      rw [List.mapM_nil] at h
      rw [← Option.some.inj h]
      exact ⟨le_rfl, fun _ => nofun, fun _ => .nil⟩
  | cons user rest ih =>
      intro found h
      obtain ⟨first, others, hfirst, hothers, rfl⟩ := mapM_cons_eq_some.mp h
      obtain ⟨hle, hequal, hall⟩ := ih hothers
      simp only [List.flatMap_cons, List.flatten_cons, List.length_append, List.forall_mem_cons]
      rcases userReads_of_loadAllOrdersUser hfirst with ⟨hreads, hrecords⟩ | ⟨hnot, hlost⟩
      · have hlength := hrecords.length_eq
        exact ⟨by omega, fun htotal => ⟨hreads, hequal (by omega)⟩,
          fun hreads => List.rel_append hrecords (hall hreads.2)⟩
      · exact ⟨by omega, fun htotal => by omega, fun hreads => absurd hreads.1 hnot⟩

/-- Absent users have no orders. -/
theorem flatMap_present (fields : Fields) :
    (present (.object fields)).flatMap (wantedOrders restaurantName) =
      fields.flatMap fun field => wantedOrders restaurantName field.2 := by
  have hnull : wantedOrders restaurantName .null = [] := rfl
  have hchildren : present (.object fields) =
      (fields.map Prod.snd).filter fun record => !record.isNull := rfl
  rw [hchildren]
  clear hchildren
  induction fields with
  | nil => rfl
  | cons field rest ih =>
      rw [List.map_cons, List.flatMap_cons, ← ih]
      cases hfield : field.2 with
      | null => rw [hnull, List.filter_cons_of_neg (by simp [isNull]), List.nil_append]
      | _ => rw [List.filter_cons_of_pos (by simp [isNull]), List.flatMap_cons]

theorem allOrdersMeet_iff (tree : Json) :
    AllOrdersMeet restaurantName tree ↔ TreeReads restaurantName tree := by
  rw [AllOrdersMeet, meets_map_ok]
  cases hcast : asDictionary tree with
  | none =>
      have hobject := asDictionary_eq_none.mp hcast
      simp only [loadAllOrdersResponse, hcast, Option.some.injEq, exists_eq_left', oneEach_nil]
      constructor
      · exact fun hnone => ⟨fun users htree => absurd ⟨users, htree⟩ hobject, fun _ => hnone⟩
      · exact fun h => h.2 hobject
  | some users =>
      obtain rfl := asDictionary_eq_some.mp hcast
      rw [flatMap_present]
      have hresponse : loadAllOrdersResponse restaurantName (.object users) =
          (users.mapM fun user => loadAllOrdersUser restaurantName user.2).map List.flatten := by
        simp only [loadAllOrdersResponse, asDictionary]
        cases users.mapM fun user => loadAllOrdersUser restaurantName user.2 <;> rfl
      rw [hresponse]
      constructor
      · rintro ⟨results, hresults, matched, hperm, hmatched⟩
        obtain ⟨found, hfound, rfl⟩ := Option.map_eq_some_iff.mp hresults
        have hlength := hmatched.length_eq.trans hperm.length_eq
        have hall := (userReads_of_loop hfound).2.1 hlength.symm
        exact ⟨fun others htree => Json.object.inj htree ▸ hall,
          fun hnot => absurd ⟨users, rfl⟩ hnot⟩
      · rintro ⟨hall, -⟩
        have hloop : users.mapM (fun user => loadAllOrdersUser restaurantName user.2) ≠ none :=
          mapM_ne_none fun user hmem => loadAllOrdersUser_ne_none (hall users rfl user hmem)
        obtain ⟨found, hfound⟩ := Option.ne_none_iff_exists'.mp hloop
        exact ⟨found.flatten, Option.map_eq_some_iff.mpr ⟨found, hfound, rfl⟩,
          oneEach_of_forall₂ ((userReads_of_loop hfound).2.2 (hall users rfl))⟩

end AllOrders

/-! ## The five readers -/

/-- For every value, and whatever texts are `==`, each reader meets the contract
exactly when there is nothing to lose or the value has the shape the reader expects,
with no record malformed. -/
theorem readers_meet_iff [TextLibrary] {Date : Type} (dates : DateLibrary Date)
    (id restaurantName : String) (value : Json) :
    (RestaurantsMeet value ↔ present value = [] ∨ ListsRecords RestaurantRecord value) ∧
    (ProductsMeet id value ↔
      ListsRecords ProductRecord value ∨
        ((¬∃ data : List Fields, value = .array (data.map .object)) ∧
          ∀ record ∈ present value, isOfRestaurant id record = false)) ∧
    (BasketMeets value ↔ present value = [] ∨ ListsDistinctItems value) ∧
    (OrdersMeet dates value ↔
      (¬value.IsObject ∧ present value = []) ∨
        ∃ orders, value = .object orders ∧ ∀ order ∈ orders, CompleteOrder dates order.2) ∧
    (AllOrdersMeet restaurantName value ↔ TreeReads restaurantName value) :=
  ⟨restaurantsMeet_iff value, productsMeet_iff id value, basketMeets_iff value,
    ordersMeet_iff dates value, allOrdersMeet_iff value⟩

/-- After the first of two restaurants was deleted the other one is read as none. -/
theorem deleted_restaurant_hides_list :
    ¬RestaurantsMeet (.array [.null, .object [
      ("category", .array [.string "Кофе"]), ("name", .string "Groot"),
      ("image", .string "g.png"), ("lat", .string "55.75"), ("long", .string "37.64")]]) := by
  rw [RestaurantsMeet, meets_map_ok]
  rintro ⟨results, hresults, hcomplete⟩
  obtain rfl : [] = results := Option.some.inj hresults
  have hlost := oneEach_nil.mp hcomplete
  cases hlost

end FirebaseHandler

end QFree
