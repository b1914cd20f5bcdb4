/-
  Staff/StoredOrders.lean --- the orders of the database, each with its place.

  An `OrderInfo` does not say where it is stored, and two orders may agree in
  all of its fields.  What tells them apart is the place, the user and the
  timestamp.  `storedOrders` lists the orders with their places; both readers
  return the orders of this list:

      loadAllOrders_eq_stored   those of one restaurant
      getOrders_shows_stored    those of one user, formatted
-/
import QFree.Foundation.Latest
import QFree.Networking.OrderReaders

set_option autoImplicit false

namespace QFree

open QFree.Foundation QFree.Foundation.Json

/-- An order and the place it is stored at, `Users/<user>/orders/<timestamp>`. -/
@[ext]
structure StoredOrder where
  user : String
  timestamp : String
  info : OrderInfo
  deriving DecidableEq, Repr

/-- The place of the order. -/
def StoredOrder.place (order : StoredOrder) : String × String := (order.user, order.timestamp)

namespace FirebaseHandler

/-- A value of `orders` all of whose entries can be read. -/
structure ReadableOrders (orders : Json) : Prop where
  shape : orders = .null ∨ orders.IsObject
  distinct : (orders.fields.map Prod.fst).Nodup
  records : ∀ order ∈ orders.fields, ∃ info, OrderRecord order.2 info

/-- A value of `Users` all of whose orders can be read. -/
structure OrdersTree (tree : Json) : Prop where
  shape : tree = .null ∨ tree.IsObject
  distinct : (tree.fields.map Prod.fst).Nodup
  users : ∀ user ∈ tree.fields, user.2.IsObject
  orders : ∀ user ∈ tree.fields, ReadableOrders (user.2.child "orders")

theorem readableOrders_null : ReadableOrders .null := ⟨.inl rfl, List.nodup_nil, nofun⟩

/-- A user who is not in the tree has no orders. -/
theorem OrdersTree.ordersOf {tree : Json} (h : OrdersTree tree) (user : String) :
    ReadableOrders ((tree.child user).child "orders") := by
  by_cases huser : tree.child user = .null
  · rw [huser]
    exact readableOrders_null
  · exact h.orders _ (mem_fields_of_child_ne_null huser)

theorem OrdersTree.shapeOf {tree : Json} (h : OrdersTree tree) (user : String) :
    tree.child user = .null ∨ (tree.child user).IsObject := by
  by_cases huser : tree.child user = .null
  · exact .inl huser
  · exact .inr (h.users _ (mem_fields_of_child_ne_null huser))

/-- The orders below the `orders` of a user. -/
def ordersBelow (user : String) (orders : Json) : List StoredOrder :=
  orders.fields.flatMap fun order =>
    ((getOrdersEntry order.2).map (StoredOrder.mk user order.1)).toList

/-- The orders of all users of the tree. -/
def treeOrders (tree : Json) : List StoredOrder :=
  tree.fields.flatMap fun user => ordersBelow user.1 (user.2.child "orders")

/-- The orders of the database. -/
def storedOrders (database : Json) : List StoredOrder := treeOrders (database.get ["Users"])

theorem mem_ordersBelow {user : String} {orders : Json} {order : StoredOrder} :
    order ∈ ordersBelow user orders ↔
      order.user = user ∧
        ∃ entry, (order.timestamp, entry) ∈ orders.fields ∧
          getOrdersEntry entry = some order.info := by
  rw [ordersBelow, List.mem_flatMap]
  constructor
  · rintro ⟨⟨timestamp, entry⟩, hmem, horder⟩
    obtain ⟨info, hinfo, rfl⟩ := Option.map_eq_some_iff.mp (Option.mem_toList.mp horder)
    exact ⟨rfl, entry, hmem, hinfo⟩
  · rintro ⟨rfl, entry, hmem, hinfo⟩
    refine ⟨(order.timestamp, entry), hmem, Option.mem_toList.mpr ?_⟩
    exact Option.map_eq_some_iff.mpr ⟨order.info, hinfo, rfl⟩

/-- An order is listed when its place holds it. -/
theorem mem_storedOrders {database : Json} (htree : OrdersTree (database.get ["Users"]))
    {order : StoredOrder} :
    order ∈ storedOrders database ↔
      getOrdersEntry (database.get (orderPath order.user order.timestamp)) = some order.info := by
  have hpath : database.get (orderPath order.user order.timestamp) =
      (((database.get ["Users"]).child order.user).child "orders").child order.timestamp :=
    get_append database ["Users"] [order.user, "orders", order.timestamp]
  rw [storedOrders, treeOrders, List.mem_flatMap, hpath]
  constructor
  · rintro ⟨⟨user, subtree⟩, hsubtree, horder⟩
    obtain ⟨rfl, entry, hentry, hinfo⟩ := mem_ordersBelow.mp horder
    have huser : (database.get ["Users"]).child order.user = subtree :=
      lookupField_of_mem htree.distinct hsubtree
    have hplace : (subtree.child "orders").child order.timestamp = entry :=
      lookupField_of_mem (htree.orders _ hsubtree).distinct hentry
    rw [huser, hplace, hinfo]
  · intro hinfo
    have hentry : (((database.get ["Users"]).child order.user).child "orders").child
        order.timestamp ≠ .null := by
      intro hnull
      rw [hnull] at hinfo
      cases hinfo
    have horders := ne_null_of_child_ne_null _ hentry
    have huser := ne_null_of_child_ne_null _ horders
    refine ⟨_, mem_fields_of_child_ne_null huser, mem_ordersBelow.mpr ⟨rfl, _, ?_, hinfo⟩⟩
    exact mem_fields_of_child_ne_null hentry

/-- A place holds one order. -/
theorem eq_of_place_eq {database : Json} (htree : OrdersTree (database.get ["Users"]))
    {order other : StoredOrder} (horder : order ∈ storedOrders database)
    (hother : other ∈ storedOrders database) (hplace : order.place = other.place) :
    order = other := by
  obtain ⟨huser, htimestamp⟩ := Prod.mk.inj hplace
  rw [mem_storedOrders htree] at horder hother
  rw [huser, htimestamp, hother, Option.some.injEq] at horder
  exact StoredOrder.ext huser htimestamp horder.symm

/-- The orders of a user are what its records describe. -/
theorem ordersBelow_info {user : String} {orders : Json} {ordersInfo : List OrderInfo}
    (hrecords : List.Forall₂ (fun order info => OrderRecord order.2 info)
      orders.fields ordersInfo) :
    (ordersBelow user orders).map StoredOrder.info = ordersInfo := by
  unfold ordersBelow
  generalize orders.fields = entries at hrecords
  induction hrecords with
  | nil => rfl
  | @cons entry info rest others hrecord _ ih =>
      rw [List.flatMap_cons, getOrdersEntry_eq_some.mpr hrecord, List.map_append, ih]
      rfl

/-! ## One user among the others -/

section Users

variable {tree : Json} (user : String)

/-- The orders of the other users do not depend on the user's subtree. -/
theorem filter_treeOrders_ne (tree : Json) :
    (treeOrders tree).filter (fun order => order.user ≠ user) =
      (removeField user tree.fields).flatMap fun field =>
        ordersBelow field.1 (field.2.child "orders") := by
  refine filter_flatMap_of_key _ user _ _ fun field _ order horder => ?_
  rw [decide_eq_true_iff, (mem_ordersBelow.mp horder).1]

/-- The orders of the other users, and those below the user's `orders`. -/
theorem treeOrders_split (h : (tree.fields.map Prod.fst).Nodup) :
    (treeOrders tree).Perm ((treeOrders tree).filter (fun order => order.user ≠ user) ++
      ordersBelow user ((tree.child user).child "orders")) := by
  rw [filter_treeOrders_ne]
  exact flatMap_fields_split _ user rfl h

theorem filter_treeOrders_eq (h : (tree.fields.map Prod.fst).Nodup) :
    ((treeOrders tree).filter fun order => order.user = user).Perm
      (ordersBelow user ((tree.child user).child "orders")) := by
  have hsplit := treeOrders_split user h
  have hboth := List.filter_append_perm (fun order : StoredOrder => decide (order.user ≠ user))
    (treeOrders tree)
  have heq := (List.perm_append_left_iff _).mp (hboth.trans hsplit)
  simpa only [ne_eq, decide_not, Bool.not_not] using heq

/-- The orders after the user's subtree was replaced. -/
theorem treeOrders_setChild (h : (tree.fields.map Prod.fst).Nodup) (subtree : Json) :
    (treeOrders (tree.setChild user subtree)).Perm
      ((treeOrders tree).filter (fun order => order.user ≠ user) ++
        ordersBelow user (subtree.child "orders")) := by
  rw [filter_treeOrders_ne]
  exact flatMap_fields_setChild _ user rfl h subtree

/-- A new subtree with the old orders changes nothing. -/
theorem treeOrders_setChild_of_orders (h : (tree.fields.map Prod.fst).Nodup) {subtree : Json}
    (horders : subtree.child "orders" = (tree.child user).child "orders") :
    (treeOrders (tree.setChild user subtree)).Perm (treeOrders tree) := by
  have hnew := treeOrders_setChild user h subtree
  rw [horders] at hnew
  exact hnew.trans (treeOrders_split user h).symm

/-- A written order takes the place of what was stored under its key. -/
theorem ordersBelow_setChild {orders : Json} (h : (orders.fields.map Prod.fst).Nodup)
    {timestamp : String} {entry : Json} {info : OrderInfo}
    (hentry : getOrdersEntry entry = some info) :
    (ordersBelow user (orders.setChild timestamp entry)).Perm
      ((ordersBelow user orders).filter (fun order => order.timestamp ≠ timestamp) ++
        [⟨user, timestamp, info⟩]) := by
  have hnew := flatMap_fields_setChild (fun order : String × Json =>
    ((getOrdersEntry order.2).map (StoredOrder.mk user order.1)).toList) timestamp rfl h entry
  have hold : (ordersBelow user orders).filter (fun order => order.timestamp ≠ timestamp) =
      (removeField timestamp orders.fields).flatMap fun order =>
        ((getOrdersEntry order.2).map (StoredOrder.mk user order.1)).toList := by
    refine filter_flatMap_of_key _ timestamp _ _ fun order _ stored hstored => ?_
    obtain ⟨info, -, rfl⟩ := Option.map_eq_some_iff.mp (Option.mem_toList.mp hstored)
    exact decide_eq_true_iff
  rw [hold]
  rwa [hentry] at hnew

/-- A new subtree with one more order. -/
theorem treeOrders_setChild_of_order (h : (tree.fields.map Prod.fst).Nodup)
    (horders : (((tree.child user).child "orders").fields.map Prod.fst).Nodup) {subtree : Json}
    {timestamp : String} {entry : Json} {info : OrderInfo}
    (hsubtree : subtree.child "orders" =
      ((tree.child user).child "orders").setChild timestamp entry)
    (hentry : getOrdersEntry entry = some info) :
    (treeOrders (tree.setChild user subtree)).Perm
      (put StoredOrder.place (treeOrders tree) ⟨user, timestamp, info⟩) := by
  have hnew := treeOrders_setChild user h subtree
  rw [hsubtree] at hnew
  have hsplit := (treeOrders_split user h).filter fun order => order.place ≠ (user, timestamp)
  rw [List.filter_append] at hsplit
  have hothers : ((treeOrders tree).filter fun order => order.user ≠ user).filter
      (fun order => order.place ≠ (user, timestamp)) =
        (treeOrders tree).filter fun order => order.user ≠ user := by
    refine List.filter_eq_self.mpr fun order hmem => decide_eq_true fun hplace => ?_
    exact of_decide_eq_true (List.mem_filter.mp hmem).2 (Prod.mk.inj hplace).1
  have hown : (ordersBelow user ((tree.child user).child "orders")).filter
      (fun order => order.place ≠ (user, timestamp)) =
        (ordersBelow user ((tree.child user).child "orders")).filter
          fun order => order.timestamp ≠ timestamp := by
    refine List.filter_congr fun order hmem => ?_
    rw [StoredOrder.place, (mem_ordersBelow.mp hmem).1]
    simp
  rw [hothers, hown] at hsplit
  refine (hnew.trans ((ordersBelow_setChild user horders hentry).append_left _)).trans ?_
  rw [← List.append_assoc]
  exact hsplit.symm.append_right _

end Users

/-! ## Changes -/

/-- An entry that can be read leaves the orders readable. -/
theorem readableOrders_setChild {orders : Json} (h : ReadableOrders orders) (timestamp : String)
    {entry : Json} {info : OrderInfo} (hentry : OrderRecord entry info) :
    ReadableOrders (orders.setChild timestamp entry) := by
  refine ⟨shape_setChild h.shape _ _, nodup_keys_setChild h.distinct _ _, fun order hmem => ?_⟩
  rcases mem_fields_of_setChild hmem with ⟨-, rfl⟩ | hold
  · exact ⟨info, hentry⟩
  · exact h.records order hold

/-- So does a new subtree with readable orders. -/
theorem ordersTree_setChild {tree : Json} (h : OrdersTree tree) (user : String) {subtree : Json}
    (hobject : subtree ≠ .null → subtree.IsObject)
    (horders : ReadableOrders (subtree.child "orders")) :
    OrdersTree (tree.setChild user subtree) := by
  refine ⟨shape_setChild h.shape _ _, nodup_keys_setChild h.distinct _ _, ?_, ?_⟩
  · intro field hmem
    rcases mem_fields_of_setChild hmem with ⟨hne, rfl⟩ | hold
    · exact hobject hne
    · exact h.users field hold
  · intro field hmem
    rcases mem_fields_of_setChild hmem with ⟨-, rfl⟩ | hold
    · exact horders
    · exact h.orders field hold

/-! ## The readers -/

section Readers

variable {database : Json}

/-- `loadAllOrders` returns the orders of the list that have the name. -/
theorem loadAllOrders_eq_stored [TextLibrary] (htree : OrdersTree (database.get ["Users"]))
    (restaurantName : String) :
    loadAllOrders restaurantName database =
      some (((storedOrders database).filter fun order =>
        SameText order.info.restaurantName restaurantName).map StoredOrder.info) := by
  have huser : ∀ user ∈ (database.get ["Users"]).fields,
      loadAllOrdersUser restaurantName user.2 =
        some (((ordersBelow user.1 (user.2.child "orders")).map StoredOrder.info).filter
          fun info => SameText info.restaurantName restaurantName) := by
    intro user hmem
    have horders := htree.orders user hmem
    obtain ⟨ordersInfo, -, hrecords⟩ := exists_orders_of_records horders.shape horders.records
    rw [loadAllOrdersUser_of_records restaurantName (htree.users user hmem) horders.shape hrecords,
      ordersBelow_info hrecords]
  have hstored : ((storedOrders database).filter fun order =>
      SameText order.info.restaurantName restaurantName).map StoredOrder.info =
        ((database.get ["Users"]).fields.map fun user =>
          ((ordersBelow user.1 (user.2.child "orders")).map StoredOrder.info).filter
            fun info => SameText info.restaurantName restaurantName).flatten := by
    rw [storedOrders, treeOrders, ← List.flatMap_def, List.filter_flatMap, List.map_flatMap]
    simp only [List.filter_map]
    rfl
  rw [loadAllOrders, loadAllOrdersResponse, hstored]
  rcases htree.shape with hnull | hobject
  · rw [hnull]
    rfl
  · rw [asDictionary_of_isObject hobject]
    simp only [mapM_eq_some_map huser, Option.bind_eq_bind, Option.bind_some, Option.pure_def]

/-- `getOrders` shows the orders of the list that are the user's. -/
theorem getOrders_shows_stored {Date : Type} (dates : DateLibrary Date)
    (htree : OrdersTree (database.get ["Users"])) {user : String}
    (hdates : ∀ order ∈ storedOrders database, order.user = user →
      ReadableDates dates order.info) :
    ∃ sorted shown, getOrders dates ⟨some user⟩ true database = some (.ok shown) ∧
      sorted.Perm (((storedOrders database).filter fun order => order.user = user).map
        StoredOrder.info) ∧
      List.Forall₂ (ShownAs dates) sorted shown := by
  have hpath : database.get (ordersPath user) =
      ((database.get ["Users"]).child user).child "orders" :=
    get_append database ["Users"] [user, "orders"]
  have horders := htree.ordersOf user
  have hperm := (filter_treeOrders_eq user htree.distinct).map StoredOrder.info
  rw [← hpath] at horders hperm
  obtain ⟨ordersInfo, hentries, hrecords⟩ :=
    exists_orders_of_records horders.shape horders.records
  rw [ordersBelow_info hrecords] at hperm
  have hreadable : ∀ info ∈ ordersInfo, ReadableDates dates info := by
    intro info hmem
    obtain ⟨order, horder, rfl⟩ := List.mem_map.mp (hperm.mem_iff.mpr hmem)
    exact hdates order (List.mem_filter.mp horder).1
      (of_decide_eq_true (List.mem_filter.mp horder).2)
  obtain ⟨sorted, shown, hshown, hsorted, hforall⟩ :=
    getOrdersResponse_of_entries hentries hreadable
  exact ⟨sorted, shown, Option.map_eq_some_iff.mpr ⟨shown, hshown, rfl⟩,
    hsorted.trans hperm.symm, hforall⟩

end Readers

end FirebaseHandler

end QFree
