/-
  Account/SingleRestaurant.lean --- no basket mixes restaurants.

  `checkRestaurantId` looks at one key only.  That is enough because no basket
  anywhere mixes restaurants: not the copies of the menus and Basket screens, not
  a stored, answered or half-written one, not one passed to `makeOrder`.
  `OneRestaurant` says this of a whole state, and every event keeps it.
-/
import QFree.Account.EveryBasket

set_option autoImplicit false

namespace QFree

open QFree.Foundation QFree.FirebaseHandler

/-! ## The invariant -/

/-- The value is the stored form of a basket of one restaurant. -/
def HoldsOne (value : Json) : Prop := ∃ basket, HoldsBasket value basket ∧ basket.SingleRestaurant

/-- If a basket of one restaurant was stored before the write, one is after it. -/
def Write.KeepsOne (user : String) (write : Write) : Prop :=
  ∀ database, HoldsOne (database.get (basketPath user)) →
    HoldsOne ((write.apply database).get (basketPath user))

/-- The basket passed along with a read is of one restaurant. -/
def ReadTask.OneRestaurant : ReadTask → Prop
  | .order _ _ basket _ => basket.SingleRestaurant
  | _ => True

/-- The request brings no basket of several restaurants anywhere. -/
def Request.OneRestaurant (user : String) : Request → Prop
  | .waiting task => task.OneRestaurant
  | .answered task value =>
      task.OneRestaurant ∧ (AccountState.path user task = basketPath user → HoldsOne value)
  | .writing writes => ∀ write ∈ writes, write.KeepsOne user

/-- All products of the order have one restaurant identifier, and they are what
the order writes. -/
structure IssuedOrder.OneRestaurant (user : String) (order : IssuedOrder) : Prop where
  entries_single : ∃ restaurantID, ∀ entry ∈ order.entries, entry.1.restaurantID = restaurantID
  writes_entries : ∃ hash, order.writes.head? =
    some ⟨orderPath user hash ++ ["products"], encodeItems order.entries⟩

namespace AccountState

/-- No basket of the state mixes restaurants. -/
structure OneRestaurant (user : String) (state : AccountState) : Prop where
  menus : ∀ menu controller, state.menus menu = some controller → controller.Consistent
  screens : ∀ screen, (state.screens screen).basket.SingleRestaurant
  requests : ∀ id request, state.requests id = some request → request.OneRestaurant user
  database : HoldsOne (state.database.get (basketPath user))
  issued : ∀ order ∈ state.issued, order.OneRestaurant user

theorem everyBasket_of_oneRestaurant {user : String} {state : AccountState}
    (h : state.OneRestaurant user) : state.EveryBasket Basket.SingleRestaurant user where
  menus := fun menu controller hmenu => (h.menus menu controller hmenu).basket_single
  screens := h.screens
  requests := h.requests
  database := h.database

/-! ## Every event keeps it -/

section Step

variable {Date : Type} {dates : DateLibrary Date} {user : String}

theorem menus_consistent_step {state next : AccountState} {event : AccountEvent Date}
    (h : state.OneRestaurant user) (hstep : state.step dates user event = some next) :
    ∀ menu controller, next.menus menu = some controller → controller.Consistent := by
  have hset : ∀ menu controller, controller.Consistent → ∀ other changed,
      Function.update state.menus menu (some controller) other = some changed →
        changed.Consistent := by
    intro menu controller hcontroller other changed hother
    rcases of_update_eq_some hother with ⟨-, hnew⟩ | hold
    · exact Option.some.inj hnew ▸ hcontroller
    · exact h.menus other changed hold
  cases transition_of_step hstep with
  | menuOpened hnew => exact hset _ _ (MenuController.consistent_opened _)
  | menuTapped htap hmenu hchanged =>
      exact hset _ _ (MenuController.consistent_handle (h.menus _ _ hmenu)
        (MenuController.delivers_of_isTap htap) hchanged)
  | menuBasketDelivered hrequest hbasket hmenu hchanged =>
      refine hset _ _ (MenuController.consistent_handle (h.menus _ _ hmenu) ?_ hchanged)
      exact kept_of_read ((h.requests _ _ hrequest).2 rfl) hbasket
  | menuProductsDelivered hrequest hmenu hproducts hchanged =>
      refine hset _ _ (MenuController.consistent_handle (h.menus _ _ hmenu) ?_ hchanged)
      exact restaurantID_of_getProductsResponse hproducts
  | menuAppeared hbasket hproducts =>
      rw [read_menus hproducts, read_menus hbasket]
      exact h.menus
  | screenAsked hread | orderPressed _ hread | restaurantsDelivered _ hread =>
      rw [read_menus hread]
      exact h.menus
  | _ => exact h.menus

theorem issued_oneRestaurant_step {state next : AccountState} {event : AccountEvent Date}
    (h : state.OneRestaurant user) (hstep : state.step dates user event = some next) :
    ∀ order ∈ next.issued, order.OneRestaurant user := by
  cases transition_of_step hstep with
  | orderDelivered hrequest hbasket hentries hwrites =>
      obtain ⟨restaurant, readyDate, -, -, rfl⟩ := orderWrites_of_makeOrderResponse hwrites
      obtain ⟨restaurantID, hbelongs⟩ : Basket.SingleRestaurant _ :=
        kept_of_read ((h.requests _ _ hrequest).2 rfl) hbasket
      intro order hmem
      rcases List.mem_append.mp hmem with hold | hnew
      · exact h.issued order hold
      · rw [List.mem_singleton.mp hnew]
        exact ⟨⟨restaurantID, fun entry hentry => hbelongs _ (hentries.key_mem hentry)⟩, _, rfl⟩
  | menuAppeared hbasket hproducts =>
      rw [read_issued hproducts, read_issued hbasket]
      exact h.issued
  | screenAsked hread | orderPressed _ hread | restaurantsDelivered _ hread =>
      rw [read_issued hread]
      exact h.issued
  | _ => exact h.issued

theorem oneRestaurant_step {state next : AccountState} {event : AccountEvent Date}
    (h : state.OneRestaurant user) (hstep : state.step dates user event = some next) :
    next.OneRestaurant user := by
  have hmenus := menus_consistent_step h hstep
  have hbaskets : next.EveryBasket Basket.SingleRestaurant user := by
    refine everyBasket_step Basket.singleRestaurant_empty ?_ (everyBasket_of_oneRestaurant h) hstep
    rintro menu tap controller changed rfl hmenu hchanged
    cases transition_of_step hstep with
    | menuTapped htap _ _ =>
        exact (MenuController.consistent_handle (h.menus _ _ hmenu)
          (MenuController.delivers_of_isTap htap) hchanged).basket_single
  exact ⟨hmenus, hbaskets.screens, hbaskets.requests, hbaskets.database,
    issued_oneRestaurant_step h hstep⟩

theorem oneRestaurant_initial {database : Json} {stored : Basket}
    (hstored : StoresBasket database user stored) (hsingle : stored.SingleRestaurant) :
    (initial database).OneRestaurant user :=
  ⟨nofun, fun _ => Basket.singleRestaurant_empty, nofun, ⟨stored, hstored, hsingle⟩, nofun⟩

/-- If the stored basket is of one restaurant at the start, then in every state
every basket is: that of each menu, of each Basket screen, and the stored one;
and so is every order. -/
theorem one_restaurant_of_run {database : Json} {stored : Basket}
    (hstored : StoresBasket database user stored) (hsingle : stored.SingleRestaurant)
    {events : List (AccountEvent Date)} {state : AccountState}
    (hrun : run (step dates user) (initial database) events = some state) :
    (∀ menu controller, state.menus menu = some controller →
      controller.basket.SingleRestaurant) ∧
    (∀ screen, (state.screens screen).basket.SingleRestaurant) ∧
    (∃ basket, StoresBasket state.database user basket ∧ basket.SingleRestaurant) ∧
    ∀ order ∈ state.issued, order.OneRestaurant user := by
  have h : state.OneRestaurant user :=
    run_invariant (OneRestaurant user) (fun _ _ _ hinv hstep => oneRestaurant_step hinv hstep)
      (oneRestaurant_initial hstored hsingle) hrun
  exact ⟨fun menu controller hmenu => (h.menus menu controller hmenu).basket_single, h.screens,
    h.database, h.issued⟩

end Step

/-- The sample account, with a second restaurant that has tea. -/
def twoMenus : Json :=
  let shop (name : String) : Json := .object [
    ("category", .array [.string "Кофе"]), ("name", .string name), ("image", .string "g.png"),
    ("lat", .string "55.75"), ("long", .string "37.64")]
  (sampleAccount.set ["Restaurants"] (.array [shop "Groot", shop "Chai"])).set
  ["Products"] (.array [.object [
    ("category", .array [.string "Кофе"]), ("name", .string "Tea"), ("image", .string "t.png"),
    ("price", .string "99"), ("restaurantID", .string "1")]])

/-- Two menus of the second restaurant are opened over the basket of the first.  In one
of them the tea is refused and the alert cancelled, in the other one the basket is
cleared; the tea is posted, shown on the Basket screen and ordered. -/
def teaInstead : List (AccountEvent Nat) :=
  let tea : ProductInfo := ⟨"Tea", 99, "t.png", [.coffee], "1"⟩
  let stored := sampleBasket.map Prod.fst
  [ .pushMenuVC 0 "1", .menuWillAppear 0 0 1 true true, .answer 0, .menuBasketDelivered 0,
    .answer 1, .menuProductsDelivered 1, .menuTapped 0 (.add 0 stored), .menuTapped 0 .cancel,
    .pushMenuVC 1 "1", .menuWillAppear 1 2 3 true true, .answer 2, .menuBasketDelivered 2,
    .answer 3, .menuProductsDelivered 3, .menuTapped 1 (.add 0 stored), .menuTapped 1 .clear,
    .menuTapped 1 (.add 0 []), .menuWillDisappear 1 4 [(tea, 1)] true, .write 4,
    .screenGetsBasket 0 5 true, .answer 5, .screenBasketDelivered 5 [tea],
    .orderButtonPressed 0 6 true, .answer 6, .restaurantsDelivered 6 7 17 true true, .answer 7,
    .orderDelivered 7 [(tea, 1)] 6294876000 6294876005]

theorem one_restaurant_of_run_sample :
    ∃ state, run (step utcDates "user@mail") (initial twoMenus) teaInstead = some state ∧
      ((state.menus 0).isSome ∧ (state.menus 1).isSome ∧ (state.screens 0).basket ≠ ∅ ∧
        state.issued ≠ []) ∧
      (∀ menu controller, state.menus menu = some controller →
        controller.basket.SingleRestaurant) ∧
      (∀ screen, (state.screens screen).basket.SingleRestaurant) ∧
      (∃ basket, StoresBasket state.database "user@mail" basket ∧ basket.SingleRestaurant) ∧
      ∀ order ∈ state.issued, order.OneRestaurant "user@mail" := by
  have hany : (run (step utcDates "user@mail") (initial twoMenus) teaInstead).any (fun state =>
      (state.menus 0).isSome ∧ (state.menus 1).isSome ∧ (state.screens 0).basket ≠ ∅ ∧
        state.issued ≠ []) = true := by decide
  obtain ⟨state, hrun, hused⟩ := (Option.any_eq_true _ _).mp hany
  have hstored : StoresBasket twoMenus "user@mail" (Dictionary.ofEntries sampleBasket) := by
    have hkept : twoMenus.get (basketPath "user@mail") =
        sampleAccount.get (basketPath "user@mail") :=
      (Json.get_set_of_ne _ [] (by decide) [] ["user@mail", "basket"] _).trans
        (Json.get_set_of_ne sampleAccount [] (by decide) [] ["user@mail", "basket"] _)
    rw [StoresBasket, hkept]
    exact sampleAccount_stores
  have hsingle : Basket.SingleRestaurant (Dictionary.ofEntries sampleBasket) := by
    refine ⟨"0", fun product hmem => ?_⟩
    rw [← sampleBasket_enumerated.mem_keys_iff] at hmem
    revert product
    decide
  exact ⟨state, hrun, of_decide_eq_true hused, one_restaurant_of_run hstored hsingle hrun⟩

end AccountState

end QFree
