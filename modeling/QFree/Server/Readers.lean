/-
  Server/Readers.lean --- what the readers show of a ledger.

  A database that stands for a ledger is met by the readers one place after another,
  in an order of its own, each place once.  So what they return is determined by the
  ledger up to this order:

      getBasket_of_represents       the basket of the account
      loadAllOrders_of_represents   the orders of one name whose slip has arrived
      getOrders_of_represents       all orders of one account; it traps if one of
                                    them is torn
-/
import QFree.Networking.OrderAtomicity
import QFree.Networking.OrderReaders
import QFree.Server.Ledger
import QFree.Staff.StoredOrders

set_option autoImplicit false

namespace QFree

open QFree.Foundation QFree.Foundation.Json QFree.FirebaseHandler

section Readers

variable {Date : Type} {dates : DateLibrary Date}

/-! ## One entry -/

section Entry

variable {entry : Json} {order : LedgerOrder Date}

/-- An order has an entry as soon as a part of it has arrived. -/
theorem HoldsOrder.ne_null_iff (h : HoldsOrder dates entry order) :
    entry ≠ .null ↔ order.products ≠ [] ∨ order.slip ≠ none := by
  constructor
  · intro hne
    by_contra hnone
    push Not at hnone
    exact hne (h.absent hnone.1 hnone.2)
  · intro hpart hnull
    obtain ⟨fields, hfields⟩ := h.present hpart
    rw [hnull] at hfields
    cases hfields

theorem LedgerOrder.Sound.ne_absent_iff (h : order.Sound) :
    order.products ≠ [] ∨ order.slip ≠ none ↔ order.products ≠ [] :=
  or_iff_left_of_imp h.products_first

/-- What `getOrders` makes of the entry: the order, once both parts have arrived. -/
theorem HoldsOrder.getOrdersEntry (h : HoldsOrder dates entry order) (hsound : order.Sound)
    (hproducts : order.products ≠ []) :
    FirebaseHandler.getOrdersEntry entry = order.info dates := by
  obtain ⟨products, slip⟩ := order
  cases slip with
  | none => exact getOrdersEntry_without_info h.slip
  | some slip =>
      have hobject := h.present (.inl hproducts)
      have hlines : lookupField "products" entry.fields = (encodeItems products).pruned :=
        h.products
      have hinfo : lookupField "info" entry.fields = .object (slip.fields dates) := h.slip
      unfold FirebaseHandler.getOrdersEntry
      rw [asDictionary_of_isObject hobject]
      simp only [Option.bind_eq_bind, Option.bind_some, hlines, hinfo,
        decodeOrderProducts_stored hproducts hsound.categorized, asDictionary, OrderSlip.fields,
        decodeOrderInfo_stored]
      rfl

/-- What `loadAllOrders` makes of the entry: the order, if it is complete and of the
name. -/
theorem HoldsOrder.loadAllOrdersEntry (h : HoldsOrder dates entry order) (hsound : order.Sound)
    (restaurantName : String) :
    FirebaseHandler.loadAllOrdersEntry restaurantName entry =
      some ((order.info dates).filter fun info => info.restaurantName = restaurantName) := by
  cases hslip : order.slip with
  | none =>
      have hchild : entry.child "info" = .null := by rw [h.slip, hslip, slipValue]
      rw [loadAllOrdersEntry_without_info restaurantName hchild, LedgerOrder.info, hslip]
      rfl
  | some slip =>
      have hproducts := hsound.products_first (hslip ▸ Option.some_ne_none slip)
      have hentry := h.getOrdersEntry hsound hproducts
      rw [LedgerOrder.info, hslip, Option.map_some] at hentry ⊢
      rw [loadAllOrdersEntry_of_record restaurantName (getOrdersEntry_eq_some.mp hentry),
        Option.filter_some]
      simp only [sameText_plain, decide_eq_true_eq]

end Entry

/-! ## The places of a database -/

/-- The places of the orders, in the order in which `loadAllOrders` meets them. -/
def places (database : Json) : List (String × String) :=
  (database.get ["Users"]).keys.flatMap fun user =>
    (database.get (ordersPath user)).keys.map fun hash => (user, hash)

section Represented

variable {database : Json} {ledger : Ledger Date}

theorem Represents.mem_hashes_iff (h : Represents dates database ledger)
    (hsound : ledger.Sound) {user hash : String} :
    hash ∈ (database.get (ordersPath user)).keys ↔ (ledger.orders (user, hash)).products ≠ [] := by
  have hentry : (database.get (ordersPath user)).child hash = database.get (orderPath user hash) :=
    (get_append database (ordersPath user) [hash]).symm
  rw [(h.orders user).mem_keys_iff, hentry, (h.entries user hash).ne_null_iff,
    (hsound (user, hash)).ne_absent_iff]

theorem Represents.mem_places_iff (h : Represents dates database ledger) (hsound : ledger.Sound)
    {place : String × String} :
    place ∈ places database ↔ (ledger.orders place).products ≠ [] := by
  obtain ⟨user, hash⟩ := place
  rw [places, List.mem_flatMap, ← h.mem_hashes_iff hsound]
  constructor
  · rintro ⟨other, -, hplace⟩
    obtain ⟨otherHash, hmem, heq⟩ := List.mem_map.mp hplace
    obtain ⟨rfl, rfl⟩ := Prod.mk.inj heq
    exact hmem
  · intro hmem
    refine ⟨user, h.users.mem_keys_iff.mpr fun hnull => ?_, List.mem_map_of_mem hmem⟩
    have horders : database.get (ordersPath user) =
        ((database.get ["Users"]).child user).child "orders" :=
      get_append database ["Users"] [user, "orders"]
    rw [horders, hnull] at hmem
    cases hmem

theorem Represents.nodup_places (h : Represents dates database ledger) :
    (places database).Nodup := by
  refine List.nodup_flatMap.mpr ⟨fun user _ => ?_, ?_⟩
  · exact (h.orders user).distinct.map fun hash other heq => (Prod.mk.inj heq).2
  · refine List.Pairwise.imp (fun {user other} hne => ?_) h.users.distinct
    intro place hplace hother
    obtain ⟨hash, -, rfl⟩ := List.mem_map.mp hplace
    obtain ⟨otherHash, -, heq⟩ := List.mem_map.mp hother
    exact hne (Prod.mk.inj heq).1.symm

/-! ## The readers -/

/-- `getBasket` succeeds with the basket of the account, or traps because one of its
products has no category. -/
theorem getBasket_of_represents (h : Represents dates database ledger) (user : String)
    (basket : Basket) :
    getBasket ⟨some user⟩ true database = some (.ok basket) ↔
      basket = ledger.baskets user ∧ basket.Categorized := by
  obtain ⟨entries, hentries, hstored⟩ := h.baskets user
  rw [getBasket_eq, Option.map_eq_some_iff, hstored]
  constructor
  · rintro ⟨result, hresult, hok⟩
    obtain rfl := Except.ok.inj hok
    exact ⟨getBasketResponse_enumerated hentries hresult, categorized_of_getBasketResponse hresult⟩
  · rintro ⟨rfl, hcategorized⟩
    exact ⟨_, getBasketResponse_categorized hentries hcategorized, rfl⟩

/-- `loadAllOrders` never traps: it skips what has not arrived completely. -/
theorem loadAllOrders_of_represents (h : Represents dates database ledger) (hsound : ledger.Sound)
    (restaurantName : String) :
    loadAllOrders restaurantName database =
      some ((places database).filterMap fun place =>
        ((ledger.orders place).info dates).filter fun info =>
          info.restaurantName = restaurantName) := by
  have huser : ∀ user ∈ (database.get ["Users"]).keys,
      loadAllOrdersUser restaurantName ((database.get ["Users"]).child user) =
        some ((database.get (ordersPath user)).keys.filterMap fun hash =>
          ((ledger.orders (user, hash)).info dates).filter fun info =>
            info.restaurantName = restaurantName) := by
    intro user huser
    have horders : lookupField "orders" ((database.get ["Users"]).child user).fields =
        database.get (ordersPath user) := (get_append database ["Users"] [user, "orders"]).symm
    have hobject : ((database.get ["Users"]).child user).IsObject :=
      (h.subtrees user).isObject (h.users.mem_keys_iff.mp huser)
    rw [loadAllOrdersUser, asDictionary_of_isObject hobject]
    dsimp only
    rw [horders]
    rcases (h.orders user).shape with hnull | hpresent
    · rw [hnull]
      rfl
    · rw [asDictionary_of_isObject hpresent]
      dsimp only
      have hloop : (database.get (ordersPath user)).fields.mapM
          (fun order => FirebaseHandler.loadAllOrdersEntry restaurantName order.2) =
            some ((database.get (ordersPath user)).keys.map fun hash =>
              ((ledger.orders (user, hash)).info dates).filter fun info =>
                info.restaurantName = restaurantName) := by
        rw [(h.orders user).fields_eq_map, mapM_map]
        refine mapM_eq_some_map fun hash _ => ?_
        have hentry : (database.get (ordersPath user)).child hash =
            database.get (orderPath user hash) :=
          (get_append database (ordersPath user) [hash]).symm
        rw [hentry]
        exact (h.entries user hash).loadAllOrdersEntry (hsound (user, hash)) restaurantName
      rw [hloop]
      simp only [Option.bind_eq_bind, Option.bind_some, Option.pure_def, List.filterMap_map]
      rfl
  have hplaces : ((places database).filterMap fun place =>
      ((ledger.orders place).info dates).filter fun info =>
        info.restaurantName = restaurantName) =
      ((database.get ["Users"]).keys.map fun user =>
        (database.get (ordersPath user)).keys.filterMap fun hash =>
          ((ledger.orders (user, hash)).info dates).filter fun info =>
            info.restaurantName = restaurantName).flatten := by
    rw [places, List.filterMap_flatMap, List.flatMap_def]
    simp only [List.filterMap_map]
    rfl
  rw [hplaces, loadAllOrders, loadAllOrdersResponse]
  rcases h.users.shape with hnull | hobject
  · rw [hnull]
    rfl
  · rw [asDictionary_of_isObject hobject]
    dsimp only
    rw [h.users.fields_eq_map, mapM_map, mapM_eq_some_map huser]
    rfl

/-- The stored orders are those that have arrived completely. -/
theorem storedOrders_of_represents (h : Represents dates database ledger)
    (hsound : ledger.Sound) :
    storedOrders database = (places database).filterMap fun place =>
      ((ledger.orders place).info dates).map (StoredOrder.mk place.1 place.2) := by
  have huser : ∀ user ∈ (database.get ["Users"]).keys,
      ordersBelow user (((database.get ["Users"]).child user).child "orders") =
        (database.get (ordersPath user)).keys.filterMap fun hash =>
          ((ledger.orders (user, hash)).info dates).map (StoredOrder.mk user hash) := by
    intro user _
    have horders : ((database.get ["Users"]).child user).child "orders" =
        database.get (ordersPath user) := (get_append database ["Users"] [user, "orders"]).symm
    rw [horders, ordersBelow, (h.orders user).fields_eq_map, List.flatMap_map,
      ← List.filterMap_eq_flatMap_toList]
    refine List.filterMap_congr fun hash hmem => ?_
    have hentry : (database.get (ordersPath user)).child hash =
        database.get (orderPath user hash) := (get_append database (ordersPath user) [hash]).symm
    dsimp only
    rw [hentry, (h.entries user hash).getOrdersEntry (hsound (user, hash))
      ((h.mem_hashes_iff hsound).mp hmem)]
  rw [storedOrders, treeOrders, h.users.fields_eq_map, List.flatMap_map, places,
    List.filterMap_flatMap]
  refine List.flatMap_congr fun user hmem => ?_
  rw [List.filterMap_map]
  exact huser user hmem

/-- The entries `getOrders` decodes. -/
theorem getOrdersEntries_of_represents (h : Represents dates database ledger)
    (hsound : ledger.Sound) (user : String) :
    getOrdersEntries (database.get (ordersPath user)) =
      (database.get (ordersPath user)).keys.mapM fun hash =>
        (ledger.orders (user, hash)).info dates := by
  rw [getOrdersEntries]
  rcases (h.orders user).shape with hnull | hobject
  · rw [hnull]
    rfl
  · rw [asDictionary_of_isObject hobject]
    dsimp only
    rw [(h.orders user).fields_eq_map, mapM_map]
    refine mapM_congr_of_mem fun hash hmem => ?_
    have hentry : (database.get (ordersPath user)).child hash =
        database.get (orderPath user hash) := (get_append database (ordersPath user) [hash]).symm
    rw [hentry]
    exact (h.entries user hash).getOrdersEntry (hsound (user, hash))
      ((h.mem_hashes_iff hsound).mp hmem)

/-- `getOrders` traps on a torn order of the account. -/
theorem getOrders_of_torn (h : Represents dates database ledger) (hsound : ledger.Sound)
    {user hash : String} (htorn : (ledger.orders (user, hash)).Torn) :
    getOrders dates ⟨some user⟩ true database = none := by
  have hmem := (h.mem_hashes_iff hsound).mpr htorn.1
  have hnone : getOrdersEntries (database.get (ordersPath user)) = none := by
    rw [getOrdersEntries_of_represents h hsound, Option.eq_none_iff_forall_ne_some]
    intro ordersInfo hsome
    obtain ⟨info, -, hinfo⟩ := exists_of_mapM_of_mem hsome hmem
    rw [LedgerOrder.info, htorn.2] at hinfo
    cases hinfo
  rw [getOrders_eq, getOrdersResponse, hnone]
  rfl

/-- Without torn orders every order of the account is decoded, each once. -/
theorem getOrdersEntries_whole (h : Represents dates database ledger) (hsound : ledger.Sound)
    {user : String} (hwhole : ∀ hash, ¬(ledger.orders (user, hash)).Torn) :
    getOrdersEntries (database.get (ordersPath user)) =
      some ((database.get (ordersPath user)).keys.filterMap fun hash =>
        (ledger.orders (user, hash)).info dates) := by
  have hsome : ∀ hash ∈ (database.get (ordersPath user)).keys,
      (ledger.orders (user, hash)).info dates ≠ none := by
    intro hash hmem hnone
    have hslip := Option.map_eq_none_iff.mp hnone
    exact hwhole hash ⟨(h.mem_hashes_iff hsound).mp hmem, hslip⟩
  obtain ⟨ordersInfo, hordersInfo⟩ := Option.ne_none_iff_exists'.mp (mapM_ne_none hsome)
  rw [getOrdersEntries_of_represents h hsound, hordersInfo, filterMap_of_mapM hordersInfo]

/-- So `getOrders` does not trap: the dates of a slip can be read back. -/
theorem getOrders_of_represents (hlawful : dates.Lawful) (h : Represents dates database ledger)
    (hsound : ledger.Sound) {user : String}
    (hwhole : ∀ hash, ¬(ledger.orders (user, hash)).Torn) :
    ∃ shown, getOrders dates ⟨some user⟩ true database = some (.ok shown) := by
  have hread := getOrdersEntries_whole h hsound hwhole
  have hdates : ∀ info ∈ (database.get (ordersPath user)).keys.filterMap fun hash =>
      (ledger.orders (user, hash)).info dates, ReadableDates dates info := by
    intro info hmem
    obtain ⟨hash, -, hinfo⟩ := List.mem_filterMap.mp hmem
    obtain ⟨slip, -, rfl⟩ := Option.map_eq_some_iff.mp hinfo
    exact readableDates_placedOrder hlawful _ _ _ _ _
  obtain ⟨sorted, shown, hshown, -⟩ := getOrdersResponse_of_entries hread hdates
  exact ⟨shown, by rw [getOrders_eq, hshown, Option.map_some]⟩

end Represented

end Readers

end QFree
