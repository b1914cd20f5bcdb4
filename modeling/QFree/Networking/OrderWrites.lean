/-
  Networking/OrderWrites.lean --- the database after the writes of an order.

  `makeOrder` writes the products, then the info, then removes the basket.  Each
  prefix of these writes is one change of the user's subtree:

      applyAll_productsWrite   after the first write
      applyAll_infoWrite       after the first two
      applyAll_orderWrites     after all three

  `orderEntry` is the entry the first two writes leave under the order's key.
  Readers meet it as a dictionary with two halves, whatever was stored under the
  key before.
-/
import QFree.Networking.BasketRoundTrip

set_option autoImplicit false

namespace QFree.FirebaseHandler

open QFree.Foundation QFree.Foundation.Json

/-! ## The writes -/

theorem orderWrites_of_makeOrderResponse {Date : Type} {dates : DateLibrary Date} {user : String}
    {number : Int64} {restaurants : List Restaurant} {basket : List (ProductInfo × Int64)}
    {now later : Date} {writes : List Write}
    (h : makeOrderResponse dates user number restaurants basket now later = some writes) :
    ∃ restaurant readyDate, orderRestaurant restaurants basket = some restaurant ∧
      dates.addingMinutes 30 now = some readyDate ∧
      writes = orderWrites user number restaurant basket (getTimestamp dates later)
        (getTimestamp dates readyDate) := by
  unfold makeOrderResponse at h
  simp only [Option.bind_eq_bind, Option.bind_eq_some_iff, Option.pure_def,
    Option.some.injEq] at h
  obtain ⟨restaurant, hrestaurant, readyDate, hready, rfl⟩ := h
  exact ⟨restaurant, readyDate, hrestaurant, hready, rfl⟩

theorem ne_nil_of_orderRestaurant {restaurants : List Restaurant}
    {basket : List (ProductInfo × Int64)} {restaurant : Restaurant}
    (h : orderRestaurant restaurants basket = some restaurant) : basket ≠ [] := by
  rintro rfl
  cases h

/-! ## The entry -/

/-- The entry after its products were written. -/
def productsEntry (before : Json) (basket : List (ProductInfo × Int64)) : Json :=
  before.setChild "products" (encodeItems basket).pruned

/-- The entry after its products and its info were written. -/
def orderEntry (before : Json) (number : Int64) (restaurant : Restaurant)
    (basket : List (ProductInfo × Int64)) (hash readyDate : String) : Json :=
  (productsEntry before basket).setChild "info"
    (.object (orderInfoFields restaurant hash readyDate number))

theorem pruned_orderInfoFields (restaurant : Restaurant) (hash readyDate : String)
    (number : Int64) :
    pruned (.object (orderInfoFields restaurant hash readyDate number)) =
      .object (orderInfoFields restaurant hash readyDate number) := rfl

section Entry

variable (before : Json) (number : Int64) (restaurant : Restaurant)
  (basket : List (ProductInfo × Int64)) (hash readyDate : String)

theorem productsEntry_products :
    (productsEntry before basket).child "products" = (encodeItems basket).pruned :=
  child_setChild_same before "products" _

theorem productsEntry_info :
    (productsEntry before basket).child "info" = before.child "info" :=
  child_setChild_of_ne before (by decide) _

theorem orderEntry_products :
    (orderEntry before number restaurant basket hash readyDate).child "products" =
      (encodeItems basket).pruned := by
  rw [orderEntry, child_setChild_of_ne _ (by decide), productsEntry_products]

theorem orderEntry_info :
    (orderEntry before number restaurant basket hash readyDate).child "info" =
      .object (orderInfoFields restaurant hash readyDate number) :=
  child_setChild_same _ "info" _

theorem orderEntry_isObject :
    IsObject (orderEntry before number restaurant basket hash readyDate) :=
  isObject_setChild_of_ne_null _ "info" nofun

theorem orderEntry_ne_null : orderEntry before number restaurant basket hash readyDate ≠ .null := by
  obtain ⟨fields, hfields⟩ := orderEntry_isObject before number restaurant basket hash
    readyDate
  rw [hfields]
  nofun

end Entry

/-! ## The database -/

section Database

variable (database : Json) (user : String) (number : Int64) (restaurant : Restaurant)
  (basket : List (ProductInfo × Int64)) (hash readyDate : String)

/-- The database after the first write. -/
theorem applyAll_productsWrite :
    Write.applyAll database ((orderWrites user number restaurant basket hash readyDate).take 1) =
      database.set (orderPath user hash)
        (productsEntry (database.get (orderPath user hash)) basket) :=
  set_append database (orderPath user hash) ["products"] _

/-- The database after the first two writes. -/
theorem applyAll_infoWrite (hbasket : basket ≠ []) :
    Write.applyAll database ((orderWrites user number restaurant basket hash readyDate).take 2) =
      database.set (orderPath user hash)
        (orderEntry (database.get (orderPath user hash)) number restaurant basket hash
          readyDate) := by
  have hproducts : (encodeItems basket).pruned ≠ .null :=
    fun h => hbasket (pruned_encodeItems_eq_null.mp h)
  have hinfo : ∀ json : Json, json.setChild "info"
      (.object (orderInfoFields restaurant hash readyDate number)) ≠ .null :=
    fun json => set_ne_null json ["info"] nofun
  have hentry : productsEntry (database.get (orderPath user hash)) basket ≠ .null :=
    set_ne_null _ ["products"] hproducts
  have hfirst := applyAll_productsWrite database user number restaurant basket hash
    readyDate
  change Write.apply (Write.applyAll database
    ((orderWrites user number restaurant basket hash readyDate).take 1)) _ = _
  rw [hfirst, Write.apply, set_append, get_set_same, pruned_orderInfoFields,
    set_singleton, set_set _ _ hentry (hinfo _)]
  rfl

/-- The user's subtree after all three writes. -/
def subtreeAfterOrder (subtree : Json) (hash : String) (entry : Json) : Json :=
  (subtree.set ["orders", hash] entry).setChild "basket" .null

theorem subtreeAfterOrder_order (subtree : Json) (hash : String) (entry : Json) :
    (subtreeAfterOrder subtree hash entry).get ["orders", hash] = entry := by
  rw [subtreeAfterOrder, get_cons, child_setChild_of_ne _ (by decide), ← get_cons, get_set_same]

theorem subtreeAfterOrder_basket (subtree : Json) (hash : String) (entry : Json) :
    (subtreeAfterOrder subtree hash entry).child "basket" = .null :=
  child_setChild_same _ "basket" .null

theorem subtreeAfterOrder_orders (subtree : Json) (hash : String) (entry : Json) :
    (subtreeAfterOrder subtree hash entry).child "orders" =
      (subtree.child "orders").setChild hash entry := by
  rw [subtreeAfterOrder, child_setChild_of_ne _ (by decide), set_cons, child_setChild_same,
    set_singleton]

theorem subtreeAfterOrder_isObject (subtree : Json) (hash : String) {entry : Json}
    (h : entry ≠ .null) : IsObject (subtreeAfterOrder subtree hash entry) := by
  have horders : (subtree.child "orders").set [hash] entry ≠ .null := set_ne_null _ [hash] h
  have hobject : IsObject (subtree.set ["orders", hash] entry) :=
    isObject_setChild_of_ne_null subtree "orders" horders
  refine isObject_setChild hobject "basket" .null (ne_null_of_child_ne_null "orders" ?_)
  rw [← subtreeAfterOrder, subtreeAfterOrder_orders, ← set_singleton]
  exact horders

theorem subtreeAfterOrder_ne_null (subtree : Json) (hash : String) {entry : Json}
    (h : entry ≠ .null) : subtreeAfterOrder subtree hash entry ≠ .null := by
  obtain ⟨fields, hfields⟩ := subtreeAfterOrder_isObject subtree hash h
  rw [hfields]
  nofun

/-- The database after all three writes. -/
theorem applyAll_orderWrites (hbasket : basket ≠ []) :
    Write.applyAll database (orderWrites user number restaurant basket hash readyDate) =
      database.set ["Users", user]
        (subtreeAfterOrder (database.get ["Users", user]) hash
          (orderEntry (database.get (orderPath user hash)) number restaurant basket hash
            readyDate)) := by
  have hfirst := applyAll_infoWrite database user number restaurant basket hash readyDate hbasket
  have hentry := orderEntry_ne_null (database.get (orderPath user hash)) number restaurant
    basket hash readyDate
  have hset := set_append database ["Users", user] ["orders", hash]
    (orderEntry (database.get (orderPath user hash)) number restaurant basket hash readyDate)
  have hsubtree : (database.get ["Users", user]).set ["orders", hash]
      (orderEntry (database.get (orderPath user hash)) number restaurant basket hash readyDate) ≠
        .null := set_ne_null _ _ hentry
  change Write.apply (Write.applyAll database
    ((orderWrites user number restaurant basket hash readyDate).take 2)) _ = _
  rw [hfirst, Write.apply]
  change (database.set (["Users", user] ++ ["orders", hash]) _).set
    (["Users", user] ++ ["basket"]) .null = _
  rw [hset, set_append, get_set_same, set_singleton, ← subtreeAfterOrder,
    set_set _ _ hsubtree (subtreeAfterOrder_ne_null _ hash hentry)]

end Database

/-! ## Reads after an order -/

section Reads

variable {database : Json} {user : String} {hash : String} {entry : Json}

/-- The user's orders after an order: the old ones and the new entry. -/
theorem orders_after_order :
    (database.set ["Users", user]
        (subtreeAfterOrder (database.get ["Users", user]) hash entry)).get (ordersPath user) =
      (database.get (ordersPath user)).setChild hash entry :=
  (get_set_append database ["Users", user] ["orders"] _).trans
    ((subtreeAfterOrder_orders _ hash entry).trans
      (congrArg (fun orders => setChild orders hash entry)
        (get_append database ["Users", user] ["orders"]).symm))

theorem orderPath_after_order :
    (database.set ["Users", user]
        (subtreeAfterOrder (database.get ["Users", user]) hash entry)).get
          (orderPath user hash) = entry :=
  (get_set_append database ["Users", user] ["orders", hash] _).trans
    (subtreeAfterOrder_order _ hash entry)

theorem basketPath_after_order :
    (database.set ["Users", user]
        (subtreeAfterOrder (database.get ["Users", user]) hash entry)).get
          (basketPath user) = .null :=
  (get_set_append database ["Users", user] ["basket"] _).trans
    (subtreeAfterOrder_basket _ hash entry)

theorem users_after_order :
    (database.set ["Users", user]
        (subtreeAfterOrder (database.get ["Users", user]) hash entry)).get ["Users"] =
      (database.get ["Users"]).setChild user
        (subtreeAfterOrder (database.get ["Users", user]) hash entry) :=
  get_set_below database ["Users"] [user] _

end Reads

end QFree.FirebaseHandler
