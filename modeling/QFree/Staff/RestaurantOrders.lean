/-
  Staff/RestaurantOrders.lean --- the orders the staff app shows for a restaurant.

  An order names its restaurant twice.  Its products have the identifier, which is
  the position in the list of restaurants; `makeOrder` looks up the name at this
  position and stores it in the info.  The staff app selects a restaurant by its
  position, too, but asks `loadAllOrders` for the name.

  So a row shows the stored orders of every restaurant whose name is `==` to the
  name of the row, and these are the row's own exactly when no other one of them has
  a stored order and none of the row's orders was replaced
  (`row_shows_own_orders_iff`).
-/
import QFree.Foundation.Run
import QFree.Restaurants.OrderTarget
import QFree.Networking.OrderRoundTrip
import QFree.Staff.StoredOrders

set_option autoImplicit false

namespace QFree

open QFree.Foundation QFree.FirebaseHandler

/-! ## The staff app -/

/-- `didSelectItemAt` of `RestaurantsListViewController`: the name the screens of
the restaurant are built with. -/
def didSelectItemAt (restaurants : List Restaurant) (row : Nat) : Option String :=
  restaurants[row]?.map Restaurant.name

/-- `loadOrders` of the screens a row opens. -/
def ordersOfRow [TextLibrary] (restaurants : List Restaurant) (row : Nat) (database : Json) :
    Option (List OrderInfo) := do
  let restaurantName ← didSelectItemAt restaurants row
  loadAllOrders restaurantName database

/-! ## Histories -/

/-- What accounts do, each of them known by the key of its subtree. -/
inductive AccountOperation (Date : Type) where
  /-- `postBasket`, and the entries in the order in which the loop met them -/
  | postBasket (user : String) (basket : Basket) (entries : List (ProductInfo × Int64))
  /-- `makeOrder`, with success, the entries met and the two readings of the clock -/
  | makeOrder (user : String) (number : Int64) (entries : List (ProductInfo × Int64))
      (now later : Date)

section History

variable {Date : Type} (dates : DateLibrary Date) (restaurants : List Restaurant)

/-- The database after the operation. -/
def AccountOperation.apply [TextLibrary] (database : Json) : AccountOperation Date → Option Json
  | .postBasket user basket entries =>
      if basket.Enumerates entries then
        match FirebaseHandler.postBasket ⟨some user⟩ true entries with
        | .ok write => some (write.apply database)
        | .error _ => none
      else none
  | .makeOrder user number entries now later => do
      let basket ← getBasketResponse (database.get (basketPath user))
      if basket.Enumerates entries then
        let writes ← makeOrderResponse dates user number restaurants entries now later
        return Write.applyAll database writes
      else none

/-- The order the operation places. -/
def orderPlaced : AccountOperation Date → Option StoredOrder
  | .postBasket .. => none
  | .makeOrder user number entries now later => do
      let restaurant ← orderRestaurant restaurants entries
      let readyDate ← dates.addingMinutes 30 now
      return ⟨user, getTimestamp dates later, placedOrder number restaurant entries
        (getTimestamp dates later) (getTimestamp dates readyDate)⟩

/-- The orders a history places. -/
def ordersPlaced (history : List (AccountOperation Date)) : List StoredOrder :=
  history.filterMap (orderPlaced dates restaurants)

end History

/-- The products of the order have the identifier of the row. -/
def StoredOrder.OfRow (row : Nat) (order : StoredOrder) : Prop :=
  ∀ entry ∈ order.info.products, entry.1.restaurantID = row.repr

instance (row : Nat) : DecidablePred (StoredOrder.OfRow row) := fun order =>
  inferInstanceAs (Decidable (∀ entry ∈ order.info.products, entry.1.restaurantID = row.repr))

/-! ## What a history leaves -/

/-- The database holds these orders, all of them readable, and baskets. -/
structure Keeps (database : Json) (kept : List StoredOrder) : Prop where
  tree : OrdersTree (database.get ["Users"])
  stored : (storedOrders database).Perm kept
  baskets : ∀ user, ∃ basket, StoresBasket database user basket

theorem keeps_nil {database : Json} (hempty : database.get ["Users"] = .null) :
    Keeps database [] := by
  refine ⟨?_, ?_, fun user => ⟨∅, ?_⟩⟩
  · rw [hempty]
    exact ⟨.inl rfl, List.nodup_nil, nofun, nofun⟩
  · rw [storedOrders, hempty]
    exact List.Perm.refl []
  · have hbasket : database.get (basketPath user) = .null := by
      have hpath := Json.get_append database ["Users"] [user, "basket"]
      rw [hempty] at hpath
      exact hpath
    rw [StoresBasket, hbasket]
    exact holdsBasket_null

/-- A new subtree of one user. -/
theorem keeps_setUser {database : Json} {kept left : List StoredOrder} (h : Keeps database kept)
    {user : String} {subtree : Json} (basket : Basket)
    (hobject : subtree ≠ .null → subtree.IsObject)
    (horders : ReadableOrders (subtree.child "orders"))
    (hbasket : HoldsBasket (subtree.child "basket") basket)
    (hleft : (treeOrders ((database.get ["Users"]).setChild user subtree)).Perm left) :
    Keeps (database.set ["Users", user] subtree) left := by
  have htree : (database.set ["Users", user] subtree).get ["Users"] =
      (database.get ["Users"]).setChild user subtree :=
    Json.get_set_below database ["Users"] [user] subtree
  refine ⟨?_, ?_, fun other => ?_⟩
  · rw [htree]
    exact ordersTree_setChild h.tree user hobject horders
  · rw [storedOrders, htree]
    exact hleft
  · by_cases hother : other = user
    · subst hother
      refine ⟨basket, ?_⟩
      have hown : (database.set ["Users", other] subtree).get (basketPath other) =
          subtree.child "basket" :=
        Json.get_set_append database ["Users", other] ["basket"] subtree
      rwa [StoresBasket, hown]
    · obtain ⟨stored, hstored⟩ := h.baskets other
      refine ⟨stored, ?_⟩
      have hsame : (database.set ["Users", user] subtree).get (basketPath other) =
          database.get (basketPath other) :=
        Json.get_set_of_ne database ["Users"] hother [] ["basket"] subtree
      rwa [StoresBasket, hsame]

section Runs

variable {Date : Type} {dates : DateLibrary Date} {restaurants : List Restaurant}

theorem keeps_postBasket {database : Json} {kept : List StoredOrder} (h : Keeps database kept)
    (user : String) {basket : Basket} {entries : List (ProductInfo × Int64)}
    (hentries : basket.Enumerates entries) :
    Keeps (Write.apply database ⟨basketPath user, encodeItems entries⟩) kept := by
  have hset : Write.apply database ⟨basketPath user, encodeItems entries⟩ =
      database.set ["Users", user]
        (((database.get ["Users"]).child user).setChild "basket" (encodeItems entries).pruned) :=
    Json.set_append database ["Users", user] ["basket"] _
  have horders : (((database.get ["Users"]).child user).setChild "basket"
      (encodeItems entries).pruned).child "orders" =
        ((database.get ["Users"]).child user).child "orders" :=
    Json.child_setChild_of_ne _ (by decide) _
  rw [hset]
  refine keeps_setUser h basket ?_ (horders ▸ h.tree.ordersOf user) ?_ ?_
  · exact fun hne => (Json.shape_setChild (h.tree.shapeOf user) _ _).resolve_left hne
  · rw [Json.child_setChild_same]
    exact ⟨entries, hentries, rfl⟩
  · exact (treeOrders_setChild_of_orders user h.tree.distinct horders).trans h.stored

theorem keeps_makeOrder {database : Json} {kept : List StoredOrder} (h : Keeps database kept)
    (user : String) {number : Int64} {restaurant : Restaurant}
    {entries : List (ProductInfo × Int64)} (hnonempty : entries ≠ [])
    (hcategories : ∀ entry ∈ entries, entry.1.category ≠ []) (hash readyDate : String) :
    Keeps (Write.applyAll database (orderWrites user number restaurant entries hash readyDate))
      (put StoredOrder.place kept
        ⟨user, hash, placedOrder number restaurant entries hash readyDate⟩) := by
  have hread := getOrdersEntry_orderEntry (database.get (orderPath user hash)) number restaurant
    entries hash readyDate hnonempty hcategories
  have hne := orderEntry_ne_null (database.get (orderPath user hash)) number restaurant entries
    hash readyDate
  rw [applyAll_orderWrites _ _ _ _ _ _ _ hnonempty]
  generalize orderEntry (database.get (orderPath user hash)) number restaurant entries hash
    readyDate = entry at hread hne ⊢
  have horders : (subtreeAfterOrder (database.get ["Users", user]) hash entry).child "orders" =
      (((database.get ["Users"]).child user).child "orders").setChild hash entry :=
    subtreeAfterOrder_orders _ hash entry
  refine keeps_setUser h ∅ (fun _ => subtreeAfterOrder_isObject _ hash hne) ?_ ?_ ?_
  · rw [horders]
    exact readableOrders_setChild (h.tree.ordersOf user) hash (getOrdersEntry_eq_some.mp hread)
  · rw [subtreeAfterOrder_basket]
    exact holdsBasket_null
  · refine (treeOrders_setChild_of_order user h.tree.distinct (h.tree.ordersOf user).distinct
      horders hread).trans ?_
    exact (h.stored.filter _).append_right _

theorem keeps_apply [TextLibrary] {database next : Json} {kept : List StoredOrder}
    {operation : AccountOperation Date} (h : Keeps database kept)
    (hnext : operation.apply dates restaurants database = some next) :
    Keeps next ((orderPlaced dates restaurants operation).toList.foldl (put StoredOrder.place)
      kept) := by
  cases operation with
  | postBasket user basket entries =>
      obtain ⟨hentries, hwrite⟩ := Option.ite_none_right_eq_some.mp hnext
      obtain rfl := Option.some.inj hwrite
      exact keeps_postBasket h user hentries
  | makeOrder user number entries now later =>
      obtain ⟨basket, hread, hmake⟩ := Option.bind_eq_some_iff.mp hnext
      obtain ⟨hentries, hwritten⟩ := Option.ite_none_right_eq_some.mp hmake
      obtain ⟨writes, hwrites, hafter⟩ := Option.bind_eq_some_iff.mp hwritten
      obtain rfl := Option.some.inj hafter
      obtain ⟨restaurant, readyDate, hrestaurant, hready, rfl⟩ :=
        orderWrites_of_makeOrderResponse hwrites
      obtain ⟨stored, written, -, hstored⟩ := h.baskets user
      rw [hstored] at hread
      have hcategories : ∀ entry ∈ entries, entry.1.category ≠ [] := fun entry hmem =>
        categorized_of_getBasketResponse hread entry.1 (hentries.key_mem hmem)
      have hplaced : orderPlaced dates restaurants (.makeOrder user number entries now later) =
          some ⟨user, getTimestamp dates later, placedOrder number restaurant entries
            (getTimestamp dates later) (getTimestamp dates readyDate)⟩ := by
        simp [orderPlaced, hrestaurant, hready]
      rw [hplaced]
      exact keeps_makeOrder h user (ne_nil_of_orderRestaurant hrestaurant) hcategories _ _

/-- The database after a history keeps the latest order of each place. -/
theorem keeps_of_run [TextLibrary] (history : List (AccountOperation Date)) :
    ∀ {database final : Json} {kept : List StoredOrder}, Keeps database kept →
      run (AccountOperation.apply dates restaurants) database history = some final →
      Keeps final
        ((ordersPlaced dates restaurants history).foldl (put StoredOrder.place) kept) := by
  induction history with
  | nil =>
      intro database final kept h hrun
      exact Option.some.inj hrun ▸ h
  | cons operation rest ih =>
      intro database final kept h hrun
      obtain ⟨next, hnext, hrest⟩ := run_cons_eq_some.mp hrun
      have hfinal := ih (keeps_apply h hnext) hrest
      rw [← List.foldl_append] at hfinal
      have hplaced : ordersPlaced dates restaurants (operation :: rest) =
          (orderPlaced dates restaurants operation).toList ++
            ordersPlaced dates restaurants rest :=
        filterMap_log (orderPlaced dates restaurants) operation rest
      rwa [hplaced]

end Runs

/-! ## The orders of a row -/

section Rows

variable {Date : Type} {dates : DateLibrary Date} {list : RestaurantList} {row : Nat}
  {restaurant : Restaurant} {history : List (AccountOperation Date)}

/-- An order of the row has the name of the row. -/
theorem name_of_ofRow (hrow : list.elements[row]? = some restaurant) {order : StoredOrder}
    (hplaced : order ∈ ordersPlaced dates list.elements history) (h : order.OfRow row) :
    order.info.restaurantName = restaurant.name := by
  obtain ⟨operation, -, hoperation⟩ := List.mem_filterMap.mp hplaced
  cases operation with
  | postBasket user basket entries => cases hoperation
  | makeOrder user number entries now later =>
      obtain ⟨chosen, hchosen, hready⟩ := Option.bind_eq_some_iff.mp hoperation
      obtain ⟨readyDate, -, horder⟩ := Option.bind_eq_some_iff.mp hready
      obtain rfl := Option.some.inj horder
      obtain ⟨first, rest, rfl⟩ := List.exists_cons_of_ne_nil (ne_nil_of_orderRestaurant hchosen)
      have hfirst := orderRestaurant_of_first list hrow (h first List.mem_cons_self) rest
      rw [hchosen, Option.some.injEq] at hfirst
      exact congrArg Restaurant.name hfirst

/-- Of the orders that are left, those of the name are the placed orders of the row. -/
theorem shown_perm_iff [TextLibrary] {placed stored : List StoredOrder} {restaurantName : String}
    (hstored : stored.Perm (latest StoredOrder.place placed))
    (hname : ∀ order ∈ placed, order.OfRow row →
      SameText order.info.restaurantName restaurantName) :
    ((stored.filter fun order => SameText order.info.restaurantName restaurantName).map
        StoredOrder.info).Perm
          ((placed.filter fun order => order.OfRow row).map StoredOrder.info) ↔
      (∀ order ∈ latest StoredOrder.place placed,
        SameText order.info.restaurantName restaurantName → order.OfRow row) ∧
      placed.Pairwise fun order later => order.OfRow row → order.place ≠ later.place := by
  have hsublist := latest_sublist StoredOrder.place placed
  have hleft := (hstored.filter fun order =>
    SameText order.info.restaurantName restaurantName).map StoredOrder.info
  have hsame : (∀ order ∈ latest StoredOrder.place placed,
      SameText order.info.restaurantName restaurantName → order.OfRow row) →
        (latest StoredOrder.place placed).filter
            (fun order => SameText order.info.restaurantName restaurantName) =
          (latest StoredOrder.place placed).filter fun order => order.OfRow row := by
    intro hown
    refine List.filter_congr fun order hmem => decide_eq_decide.mpr ⟨hown order hmem, ?_⟩
    exact hname order (hsublist.subset hmem)
  rw [← filter_latest_eq_iff]
  constructor
  · intro hperm
    have hown : ∀ order ∈ latest StoredOrder.place placed,
        SameText order.info.restaurantName restaurantName → order.OfRow row := by
      intro order hmem hof
      have hinfo : order.info ∈ (stored.filter fun order =>
          SameText order.info.restaurantName restaurantName).map StoredOrder.info :=
        List.mem_map_of_mem
          (List.mem_filter.mpr ⟨hstored.mem_iff.mpr hmem, decide_eq_true hof⟩)
      obtain ⟨other, hother, heq⟩ := List.mem_map.mp (hperm.mem_iff.mp hinfo)
      have hrow : other.OfRow row := of_decide_eq_true (List.mem_filter.mp hother).2
      rwa [StoredOrder.OfRow, heq] at hrow
    refine ⟨hown, (hsublist.filter _).eq_of_length ?_⟩
    have hlength := (hleft.symm.trans hperm).length_eq
    rwa [hsame hown, List.length_map, List.length_map] at hlength
  · rintro ⟨hown, hall⟩
    rw [hsame hown, hall] at hleft
    exact hleft

/-- After a history that starts without accounts, a row of the staff app shows
exactly the orders placed for the restaurant in this row, if and only if every
order that is still stored under a name `==` to its name is one of them and none of
them was replaced. -/
theorem row_shows_own_orders_iff [TextLibrary] {database final : Json}
    (hempty : database.get ["Users"] = .null)
    (hrun : run (AccountOperation.apply dates list.elements) database history = some final)
    (hrow : list.elements[row]? = some restaurant) :
    (∃ shown, ordersOfRow list.elements row final = some shown ∧
      shown.Perm (((ordersPlaced dates list.elements history).filter
        fun order => order.OfRow row).map StoredOrder.info)) ↔
      (∀ order ∈ latest StoredOrder.place (ordersPlaced dates list.elements history),
        SameText order.info.restaurantName restaurant.name → order.OfRow row) ∧
      (ordersPlaced dates list.elements history).Pairwise fun order later =>
        order.OfRow row → order.place ≠ later.place := by
  have hkeeps := keeps_of_run history (keeps_nil hempty) hrun
  have hshown : ordersOfRow list.elements row final =
      some (((storedOrders final).filter fun order =>
        SameText order.info.restaurantName restaurant.name).map StoredOrder.info) := by
    simp only [ordersOfRow, didSelectItemAt, hrow, Option.map_some, Option.bind_eq_bind,
      Option.bind_some, loadAllOrders_eq_stored hkeeps.tree]
  simp only [hshown, Option.some.injEq, exists_eq_left']
  exact shown_perm_iff hkeeps.stored fun order hplaced hof =>
    congrArg TextLibrary.canonical (name_of_ofRow hrow hplaced hof)

end Rows

/-- Two branches of one chain. -/
def branches : RestaurantList :=
  ⟨[sampleRestaurant, ⟨"Groot", "g.png", "55.70", "37.60", [.coffee, .pizza]⟩], by decide⟩

/-- An account orders a latte from the first branch. -/
def latteFromFirst : List (AccountOperation Nat) :=
  [ .postBasket "user@mail" (Dictionary.ofEntries [(⟨"Latte", 199, "l.png", [.coffee], "0"⟩, 1)])
      [(⟨"Latte", 199, "l.png", [.coffee], "0"⟩, 1)],
    .makeOrder "user@mail" 17 [(⟨"Latte", 199, "l.png", [.coffee], "0"⟩, 1)] 6294876000 6294876005]

/-- The first branch sees its order. -/
theorem row_shows_own_orders_iff_sample :
    ∃ final, run (AccountOperation.apply utcDates branches.elements) .null latteFromFirst =
        some final ∧
      ∃ shown, ordersOfRow branches.elements 0 final = some shown ∧
        shown.Perm (((ordersPlaced utcDates branches.elements latteFromFirst).filter
          fun order => order.OfRow 0).map StoredOrder.info) := by
  have hsome : (run (AccountOperation.apply utcDates branches.elements) .null
      latteFromFirst).isSome = true := by decide
  obtain ⟨final, hrun⟩ := Option.isSome_iff_exists.mp hsome
  exact ⟨final, hrun, (row_shows_own_orders_iff rfl hrun rfl).mpr (by decide)⟩

/-- The second branch sees it, too. -/
theorem branch_shows_other_order :
    branches.elements.Nodup ∧
      ∃ final, run (AccountOperation.apply utcDates branches.elements) .null latteFromFirst =
          some final ∧
        ¬∃ shown, ordersOfRow branches.elements 1 final = some shown ∧
          shown.Perm (((ordersPlaced utcDates branches.elements latteFromFirst).filter
            fun order => order.OfRow 1).map StoredOrder.info) := by
  have hany : (run (AccountOperation.apply utcDates branches.elements) .null latteFromFirst).any
      (fun final => (ordersOfRow branches.elements 1 final).any fun shown => shown ≠ []) =
        true := by decide
  obtain ⟨final, hrun, hfinal⟩ := (Option.any_eq_true _ _).mp hany
  obtain ⟨orders, horders, hne⟩ := (Option.any_eq_true _ _).mp hfinal
  have hnone : (ordersPlaced utcDates branches.elements latteFromFirst).filter
      (fun order => order.OfRow 1) = [] := by decide
  refine ⟨by decide, final, hrun, ?_⟩
  rintro ⟨shown, hshown, hperm⟩
  obtain rfl : orders = shown := Option.some.inj (horders.symm.trans hshown)
  rw [hnone] at hperm
  exact of_decide_eq_true hne hperm.eq_nil

end QFree
