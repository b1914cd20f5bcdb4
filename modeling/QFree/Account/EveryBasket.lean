/-
  Account/EveryBasket.lean --- a property of every basket of an account.

  Baskets are copied around: a menu or a Basket screen loads the stored one, a
  menu posts its copy, the order button passes a copy along with a read, an order
  writes what it read.  Only taps change a basket otherwise.  So a property that
  the empty basket has and that taps keep is a property of every basket there is:
  `EveryBasket` says so of a whole state, and `everyBasket_step` that an event
  keeps it if its tap, in case it is one, does.
-/
import QFree.Account.System

set_option autoImplicit false

namespace QFree

open QFree.Foundation QFree.FirebaseHandler

/-! ## Where baskets are -/

/-- The value is the stored form of a basket with the property. -/
def Holds (Kept : Basket → Prop) (value : Json) : Prop :=
  ∃ basket, HoldsBasket value basket ∧ Kept basket

/-- If a basket with the property was stored before the write, one is after it. -/
def Write.Keeps (Kept : Basket → Prop) (user : String) (write : Write) : Prop :=
  ∀ database, Holds Kept (database.get (basketPath user)) →
    Holds Kept ((write.apply database).get (basketPath user))

/-- The basket passed along with a read has the property. -/
def ReadTask.Carries (Kept : Basket → Prop) : ReadTask → Prop
  | .order _ _ basket _ => Kept basket
  | _ => True

/-- The request brings no basket without the property anywhere. -/
def Request.Carries (Kept : Basket → Prop) (user : String) : Request → Prop
  | .waiting task => task.Carries Kept
  | .answered task value =>
      task.Carries Kept ∧ (AccountState.path user task = basketPath user → Holds Kept value)
  | .writing writes => ∀ write ∈ writes, write.Keeps Kept user

namespace AccountState

/-- Every basket of the state has the property. -/
structure EveryBasket (Kept : Basket → Prop) (user : String) (state : AccountState) : Prop where
  menus : ∀ menu controller, state.menus menu = some controller → Kept controller.basket
  screens : ∀ screen, Kept (state.screens screen).basket
  requests : ∀ id request, state.requests id = some request → request.Carries Kept user
  database : Holds Kept (state.database.get (basketPath user))

/-! ## What keeps it -/

section Keeps

variable {Kept : Basket → Prop} {user : String} {state : AccountState}

theorem everyBasket_setMenu (h : state.EveryBasket Kept user) (menu : Nat)
    {controller : MenuController} (hcontroller : Kept controller.basket) :
    (state.setMenu menu controller).EveryBasket Kept user := by
  refine ⟨fun other changed hother => ?_, h.screens, h.requests, h.database⟩
  rcases of_update_eq_some hother with ⟨-, hnew⟩ | hold
  · exact Option.some.inj hnew ▸ hcontroller
  · exact h.menus other changed hold

theorem everyBasket_setScreen (h : state.EveryBasket Kept user) (screen : Nat)
    {controller : BasketViewController} (hbasket : Kept controller.basket) :
    (state.setScreen screen controller).EveryBasket Kept user := by
  refine ⟨h.menus, fun other => ?_, h.requests, h.database⟩
  rw [setScreen_screens, Function.update_apply]
  split
  · exact hbasket
  · exact h.screens other

theorem everyBasket_setRequest (h : state.EveryBasket Kept user) (id : Nat)
    {request : Option Request} (hrequest : ∀ r, request = some r → r.Carries Kept user) :
    (state.setRequest id request).EveryBasket Kept user := by
  refine ⟨h.menus, h.screens, fun other r hother => ?_, h.database⟩
  rcases of_update_eq_some hother with ⟨-, hnew⟩ | hold
  · exact hrequest r hnew
  · exact h.requests other r hold

theorem everyBasket_finish (h : state.EveryBasket Kept user) (id : Nat) :
    (state.setRequest id none).EveryBasket Kept user :=
  everyBasket_setRequest h id fun _ hnone => nomatch hnone

theorem everyBasket_read {next : AccountState} {id : Nat} {task : ReadTask}
    {guards : Except NetworkingError (List String)}
    (hread : state.read id task guards = some next) (h : state.EveryBasket Kept user)
    (htask : task.Carries Kept) : next.EveryBasket Kept user := by
  rcases read_eq_some hread with rfl | ⟨-, rfl⟩
  · exact h
  · exact everyBasket_setRequest h id fun r hr => Option.some.inj hr ▸ htask

theorem everyBasket_initial {database : Json} {stored : Basket}
    (hstored : StoresBasket database user stored) (hempty : Kept ∅) (hkept : Kept stored) :
    (initial database).EveryBasket Kept user :=
  ⟨nofun, fun _ => hempty, nofun, ⟨stored, hstored, hkept⟩⟩

end Keeps

/-! ## Reads and writes -/

section Stored

variable {Kept : Basket → Prop} {user : String}

/-- A basket that is read out of a value has the property of the one it holds. -/
theorem kept_of_read {value : Json} {basket : Basket} (h : Holds Kept value)
    (hread : getBasketResponse value = some basket) : Kept basket := by
  obtain ⟨held, hheld, hkept⟩ := h
  exact eq_of_holdsBasket hheld hread ▸ hkept

theorem keeps_of_postBasket {basket : Basket} {entries : List (ProductInfo × Int64)}
    {isConnected : Bool} {write : Write} (hkept : Kept basket)
    (hentries : basket.Enumerates entries)
    (hpost : postBasket ⟨some user⟩ isConnected entries = .ok write) : write.Keeps Kept user :=
  fun _ _ => ⟨basket, storesBasket_of_postBasket hentries hpost, hkept⟩

/-- The first two writes of an order leave the basket, the third removes it. -/
theorem keeps_of_mem_orderWrites (hempty : Kept ∅) {number : Int64} {restaurant : Restaurant}
    {basket : List (ProductInfo × Int64)} {hash readyDate : String} {write : Write}
    (h : write ∈ orderWrites user number restaurant basket hash readyDate) :
    write.Keeps Kept user := by
  intro database hholds
  have hkeeps : ∀ (key : String) (value : Json),
      ((database.set (orderPath user hash ++ [key]) value).get (basketPath user)) =
        database.get (basketPath user) := fun key value =>
    Json.get_set_of_ne database ["Users", user] (by decide) [hash, key] [] value
  simp only [orderWrites, List.mem_cons, List.not_mem_nil, or_false] at h
  rcases h with rfl | rfl | rfl
  · exact (hkeeps "products" _).symm ▸ hholds
  · exact (hkeeps "info" _).symm ▸ hholds
  · have hremoved : (Write.apply database ⟨basketPath user, .null⟩).get (basketPath user) = .null :=
      Json.get_set_same database (basketPath user) .null
    rw [hremoved]
    exact ⟨∅, holdsBasket_null, hempty⟩

end Stored

/-! ## Every event keeps it -/

section Step

variable {Date : Type} {dates : DateLibrary Date} {Kept : Basket → Prop} {user : String}

theorem everyBasket_step {state next : AccountState} {event : AccountEvent Date} (hempty : Kept ∅)
    (htap : ∀ menu tap controller changed, event = .menuTapped menu tap →
      state.menus menu = some controller → controller.handle tap = some changed →
      Kept changed.basket)
    (h : state.EveryBasket Kept user) (hstep : state.step dates user event = some next) :
    next.EveryBasket Kept user := by
  cases transition_of_step hstep with
  | menuOpened hnew => exact everyBasket_setMenu h _ hempty
  | menuAppeared hbasket hproducts =>
      exact everyBasket_read hproducts (everyBasket_read hbasket h trivial) trivial
  | menuTapped _ hmenu hchanged =>
      exact everyBasket_setMenu h _ (htap _ _ _ _ rfl hmenu hchanged)
  | posted hmenu hentries hpost hfree =>
      refine everyBasket_setRequest h _ fun r hr => Option.some.inj hr ▸ fun write hmem => ?_
      rw [List.mem_singleton.mp hmem]
      exact keeps_of_postBasket (h.menus _ _ hmenu) hentries hpost
  | notPosted => exact h
  | screenAsked hread => exact everyBasket_read hread h trivial
  | orderPressed hcan hread => exact everyBasket_read hread h trivial
  | okPressed => exact everyBasket_setScreen h _ hempty
  | answered hrequest =>
      refine everyBasket_setRequest h _ fun r hr => Option.some.inj hr ▸ ⟨?_, fun hpath => ?_⟩
      · exact h.requests _ _ hrequest
      · exact hpath ▸ h.database
  | cancelled hrequest => exact everyBasket_finish h _
  | menuBasketDelivered hrequest hbasket hmenu hchanged =>
      have hkept := kept_of_read ((h.requests _ _ hrequest).2 rfl) hbasket
      refine everyBasket_setMenu (everyBasket_finish h _) _ ?_
      cases MenuController.outcome_of_handle hchanged with
      | basketLoaded => exact hkept
  | menuProductsDelivered hrequest hmenu hproducts hchanged =>
      have hkept := h.menus _ _ hmenu
      refine everyBasket_setMenu (everyBasket_finish h _) _ ?_
      cases MenuController.outcome_of_handle hchanged with
      | productsLoaded => exact hkept
  | screenBasketDelivered hrequest hbasket =>
      exact everyBasket_setScreen (everyBasket_finish h _) _
        (kept_of_read ((h.requests _ _ hrequest).2 rfl) hbasket)
  | restaurantsDelivered hrequest hread =>
      exact everyBasket_read hread (everyBasket_finish h _) (h.screens _)
  | orderDelivered hrequest hbasket hentries hwrites =>
      obtain ⟨restaurant, readyDate, -, -, rfl⟩ := orderWrites_of_makeOrderResponse hwrites
      refine ⟨h.menus, ?_, ?_, h.database⟩
      · refine (everyBasket_setScreen h _ ?_).screens
        rw [BasketViewController.orderCompletion_basket]
        exact h.screens _
      · refine (everyBasket_setRequest h _ fun r hr => ?_).requests
        rw [← Option.some.inj hr]
        exact fun write hmem => keeps_of_mem_orderWrites hempty hmem
  | written hrequest =>
      have hwrites := h.requests _ _ hrequest
      refine ⟨h.menus, h.screens, ?_, hwrites _ List.mem_cons_self _ h.database⟩
      intro other r hother
      rcases of_update_eq_some hother with ⟨-, hnew⟩ | hold
      · split at hnew
        · cases hnew
        · exact Option.some.inj hnew ▸ fun write hmem => hwrites write (List.mem_cons_of_mem _ hmem)
      · exact h.requests other r hold

end Step

end AccountState

end QFree
