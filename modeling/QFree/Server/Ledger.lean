/-
  Server/Ledger.lean --- what the database is for.

  A ledger has a basket for each account, and orders, each of them at the place of
  an account and a key of its own.  An order arrives in two parts, its products and
  its slip, because `makeOrder` writes them one after the other.

  `Represents` says which database stands for which ledger.  Each `setValue` of the
  program is one command of the ledger:

      represents_saveBasket      `postBasket`, and the last write of `makeOrder`
      represents_storeProducts   the first write of `makeOrder`
      represents_storeSlip       the second one
-/
import QFree.Foundation.Tidy
import QFree.Networking.OrderRoundTrip

set_option autoImplicit false

namespace QFree

open QFree.Foundation QFree.Foundation.Json QFree.FirebaseHandler

/-! ## Ledgers -/

/-- What is stored of an order besides its products. -/
structure OrderSlip (Date : Type) where
  number : Int64
  restaurant : Restaurant
  date : Date
  readyDate : Date

/-- An order as far as it has arrived: no products and no slip if nothing has. -/
structure LedgerOrder (Date : Type) where
  products : List (ProductInfo × Int64)
  slip : Option (OrderSlip Date)

/-- The baskets of the accounts, and the orders at their places. -/
structure Ledger (Date : Type) where
  baskets : String → Basket
  orders : String × String → LedgerOrder Date

/-- What can be done with a ledger. -/
inductive LedgerCommand (Date : Type) where
  | saveBasket (user : String) (basket : Basket)
  | storeProducts (place : String × String) (products : List (ProductInfo × Int64))
  | storeSlip (place : String × String) (slip : OrderSlip Date)

section Ledger

variable {Date : Type}

namespace LedgerOrder

/-- Nothing has arrived. -/
def absent : LedgerOrder Date := ⟨[], none⟩

/-- The products have arrived, the slip has not. -/
def Torn (order : LedgerOrder Date) : Prop := order.products ≠ [] ∧ order.slip = none

/-- The slip never arrives alone, and every product has a category. -/
structure Sound (order : LedgerOrder Date) : Prop where
  products_first : order.slip ≠ none → order.products ≠ []
  categorized : ∀ entry ∈ order.products, entry.1.category ≠ []

theorem sound_absent : (absent : LedgerOrder Date).Sound := ⟨fun h => absurd rfl h, nofun⟩

end LedgerOrder

namespace Ledger

/-- No baskets and no orders. -/
def empty : Ledger Date := ⟨fun _ => ∅, fun _ => .absent⟩

/-- Put an order at a place. -/
def setOrder (ledger : Ledger Date) (place : String × String) (order : LedgerOrder Date) :
    Ledger Date :=
  { ledger with orders := Function.update ledger.orders place order }

/-- The ledger after a command. -/
def perform (ledger : Ledger Date) : LedgerCommand Date → Ledger Date
  | .saveBasket user basket =>
      { ledger with baskets := Function.update ledger.baskets user basket }
  | .storeProducts place products =>
      ledger.setOrder place { ledger.orders place with products := products }
  | .storeSlip place slip => ledger.setOrder place { ledger.orders place with slip := some slip }

section Updates

variable (ledger : Ledger Date) (place : String × String) (order : LedgerOrder Date)
  (user : String) (basket : Basket)

@[simp] theorem setOrder_baskets : (ledger.setOrder place order).baskets = ledger.baskets := rfl

@[simp] theorem setOrder_orders :
    (ledger.setOrder place order).orders = Function.update ledger.orders place order := rfl

@[simp] theorem saveBasket_baskets :
    (ledger.perform (.saveBasket user basket)).baskets =
      Function.update ledger.baskets user basket := rfl

@[simp] theorem saveBasket_orders :
    (ledger.perform (.saveBasket user basket)).orders = ledger.orders := rfl

end Updates

/-- Every order is sound. -/
def Sound (ledger : Ledger Date) : Prop := ∀ place, (ledger.orders place).Sound

theorem sound_empty : (empty : Ledger Date).Sound := fun _ => LedgerOrder.sound_absent

end Ledger

/-! ## Databases that stand for ledgers -/

variable (dates : DateLibrary Date)

/-- The order both readers make of the parts. -/
def LedgerOrder.info (order : LedgerOrder Date) : Option OrderInfo :=
  order.slip.map fun slip =>
    placedOrder slip.number slip.restaurant order.products (getTimestamp dates slip.date)
      (getTimestamp dates slip.readyDate)

/-- The record `makeOrder` writes of a slip. -/
def OrderSlip.fields (slip : OrderSlip Date) : Fields :=
  orderInfoFields slip.restaurant (getTimestamp dates slip.date)
    (getTimestamp dates slip.readyDate) slip.number

/-- What is stored of a slip. -/
def slipValue : Option (OrderSlip Date) → Json
  | none => .null
  | some slip => .object (slip.fields dates)

/-- The entry holds the parts of the order that have arrived. -/
structure HoldsOrder (entry : Json) (order : LedgerOrder Date) : Prop where
  absent : order.products = [] → order.slip = none → entry = .null
  present : order.products ≠ [] ∨ order.slip ≠ none → entry.IsObject
  products : entry.child "products" = (encodeItems order.products).pruned
  slip : entry.child "info" = slipValue dates order.slip

/-- The database stands for the ledger. -/
structure Represents (database : Json) (ledger : Ledger Date) : Prop where
  users : (database.get ["Users"]).Tidy
  subtrees : ∀ user, (database.get ["Users", user]).Tidy
  orders : ∀ user, (database.get (ordersPath user)).Tidy
  baskets : ∀ user, StoresBasket database user (ledger.baskets user)
  entries : ∀ user hash, HoldsOrder dates (database.get (orderPath user hash))
    (ledger.orders (user, hash))

variable {dates}

theorem holdsOrder_null : HoldsOrder dates .null .absent :=
  ⟨fun _ _ => rfl, fun h => h.elim (absurd rfl) (absurd rfl), rfl, rfl⟩

/-- A database without accounts stands for the empty ledger. -/
theorem represents_empty {database : Json} (hempty : database.get ["Users"] = .null) :
    Represents dates database .empty := by
  have hbelow : ∀ below, database.get ("Users" :: below) = Json.get .null below := fun below =>
    (get_append database ["Users"] below).trans (congrArg (fun json => json.get below) hempty)
  refine ⟨hempty ▸ tidy_null, fun user => ?_, fun user => ?_, fun user => ?_, fun user hash => ?_⟩
  · rw [hbelow]
    exact tidy_null
  · rw [ordersPath, hbelow]
    exact tidy_null
  · rw [StoresBasket, basketPath, hbelow]
    exact holdsBasket_null
  · rw [orderPath, hbelow]
    exact holdsOrder_null

/-! ## Commands -/

/-- What is below one account is apart from what is below another. -/
theorem apart_of_user_ne {user other : String} (h : other ≠ user) (path otherPath : List String) :
    Apart ("Users" :: other :: path) ("Users" :: user :: otherPath) :=
  (apart_of_ne h path otherPath).cons "Users" "Users"

/-- The baskets and the orders of the accounts are apart. -/
theorem apart_of_child_ne {key otherKey : String} (h : otherKey ≠ key) (user other : String)
    (path otherPath : List String) :
    Apart ("Users" :: other :: otherKey :: path) ("Users" :: user :: key :: otherPath) :=
  ((apart_of_ne h path otherPath).cons other user).cons "Users" "Users"

section Commands

variable {database : Json} {ledger : Ledger Date}

theorem subtree_tidy_set (h : Represents dates database ledger) (user key : String)
    (below : List String) (value : Json) (other : String) :
    ((database.set ("Users" :: user :: key :: below) value).get ["Users", other]).Tidy := by
  by_cases hother : other = user
  · subst hother
    exact tidy_get_set ["Users", other] (h.subtrees other) key below value
  · rw [get_set_of_apart value (apart_of_user_ne hother _ _)]
    exact h.subtrees other

/-- A saved basket, in whatever order its entries are met. -/
theorem represents_saveBasket (h : Represents dates database ledger) (user : String)
    {basket : Basket} {entries : List (ProductInfo × Int64)}
    (hentries : basket.Enumerates entries) :
    Represents dates (Write.apply database ⟨basketPath user, encodeItems entries⟩)
      (ledger.perform (.saveBasket user basket)) := by
  refine ⟨tidy_get_set ["Users"] h.users user ["basket"] _,
    subtree_tidy_set h user "basket" [] _, fun other => ?_, fun other => ?_,
    fun other hash => ?_⟩
  · rw [Write.apply, ordersPath, basketPath,
      get_set_of_apart _ (apart_of_child_ne (by decide) _ _ _ _)]
    exact h.orders other
  · by_cases hother : other = user
    · subst hother
      rw [Ledger.saveBasket_baskets, Function.update_self]
      exact ⟨entries, hentries, get_set_same database (basketPath other) _⟩
    · rw [Ledger.saveBasket_baskets, Function.update_of_ne hother, StoresBasket, Write.apply,
        basketPath, basketPath, get_set_of_apart _ (apart_of_user_ne hother _ _)]
      exact h.baskets other
  · rw [Ledger.saveBasket_orders, Write.apply, orderPath, basketPath,
      get_set_of_apart _ (apart_of_child_ne (by decide) _ _ _ _)]
    exact h.entries other hash

/-- A part of an order is written below its entry. -/
theorem represents_setOrder (h : Represents dates database ledger) (user hash key : String)
    (value : Json) {order : LedgerOrder Date}
    (hentry : HoldsOrder dates ((database.get (orderPath user hash)).setChild key value) order) :
    Represents dates (database.set (orderPath user hash ++ [key]) value)
      (ledger.setOrder (user, hash) order) := by
  refine ⟨tidy_get_set ["Users"] h.users user ["orders", hash, key] _,
    subtree_tidy_set h user "orders" [hash, key] _, fun other => ?_, fun other => ?_,
    fun other otherHash => ?_⟩
  · by_cases hother : other = user
    · subst hother
      exact tidy_get_set (ordersPath other) (h.orders other) hash [key] value
    · have hapart : Apart (ordersPath other) (orderPath user hash ++ [key]) :=
        apart_of_user_ne hother _ _
      rw [get_set_of_apart _ hapart]
      exact h.orders other
  · have hapart : Apart (basketPath other) (orderPath user hash ++ [key]) :=
      apart_of_child_ne (by decide) _ _ _ _
    rw [Ledger.setOrder_baskets, StoresBasket, get_set_of_apart _ hapart]
    exact h.baskets other
  · rw [Ledger.setOrder_orders]
    by_cases hplace : (other, otherHash) = (user, hash)
    · obtain ⟨rfl, rfl⟩ := Prod.mk.inj hplace
      rw [Function.update_self, get_set_below, set_singleton]
      exact hentry
    · have hapart : Apart (orderPath other otherHash) (orderPath user hash ++ [key]) := by
        by_cases hother : other = user
        · have hhash : otherHash ≠ hash := fun heq => hplace (by rw [hother, heq])
          exact (((apart_of_ne hhash _ _).cons "orders" "orders").cons other user).cons _ _
        · exact apart_of_user_ne hother _ _
      rw [Function.update_of_ne hplace, get_set_of_apart _ hapart]
      exact h.entries other otherHash

/-- The products of an order arrive. -/
theorem represents_storeProducts (h : Represents dates database ledger) (user hash : String)
    {products : List (ProductInfo × Int64)} (hne : products ≠ []) :
    Represents dates
      (Write.apply database ⟨orderPath user hash ++ ["products"], encodeItems products⟩)
      (ledger.perform (.storeProducts (user, hash) products)) := by
  have hvalue : (encodeItems products).pruned ≠ .null :=
    fun hnull => hne (pruned_encodeItems_eq_null.mp hnull)
  refine represents_setOrder h user hash "products" _ ⟨fun hnil => absurd hnil hne,
    fun _ => isObject_setChild_of_ne_null _ _ hvalue, child_setChild_same _ _ _, ?_⟩
  rw [child_setChild_of_ne _ (by decide)]
  exact (h.entries user hash).slip

/-- The slip of an order arrives. -/
theorem represents_storeSlip (h : Represents dates database ledger) (user hash : String)
    (slip : OrderSlip Date) :
    Represents dates
      (Write.apply database ⟨orderPath user hash ++ ["info"], .object (slip.fields dates)⟩)
      (ledger.perform (.storeSlip (user, hash) slip)) := by
  refine represents_setOrder h user hash "info" _ ⟨fun _ => nofun,
    fun _ => isObject_setChild_of_ne_null _ _ nofun, ?_, child_setChild_same _ _ _⟩
  rw [child_setChild_of_ne _ (by decide)]
  exact (h.entries user hash).products

end Commands

end Ledger

end QFree
