/-
  Server/Ordering.lean --- a customer can always order.

  Whatever has happened on the server, a customer who opens the menu of a restaurant, puts
  a product into the basket, and presses the order button gets an order with the product,
  if every call of this visit is answered and delivered at once.  No earlier request that
  is still on its way, no basket that another device left behind and nothing that the
  other accounts did can stop the visit (`visit_always_orders`).

  The visit is put together from its calls: each of them uses the number of a request
  that is free, and leaves it free again.  The tables of its menu and its Basket screen
  are configured in between, so the image texts on the menus have to be URLs.
-/
import Mathlib.Order.Filter.AtTopBot.Basic
import QFree.Server.Rows
import QFree.Server.Stops

set_option autoImplicit false

namespace QFree

open Filter QFree.Foundation QFree.FirebaseHandler

/-! ## Numbers that are not in use -/

/-- A table that is blank from some number on is so after an update. -/
theorem eventually_update {α : Type} {table : Nat → α} {blank : α}
    (h : ∀ᶠ id in atTop, table id = blank) (id : Nat) (new : α) :
    ∀ᶠ other in atTop, Function.update table id new other = blank := by
  filter_upwards [h, eventually_ne_atTop id] with other hblank hne
  rw [Function.update_of_ne hne]
  exact hblank

namespace AccountState

/-- From some number on, no menu, Basket screen or request is in use. -/
structure Roomy (state : AccountState) : Prop where
  menus : ∀ᶠ id in atTop, state.menus id = none
  screens : ∀ᶠ id in atTop, state.screens id = .initial
  requests : ∀ᶠ id in atTop, state.requests id = none

section Roomy

variable {Date : Type} {dates : DateLibrary Date} {user : String} {state next : AccountState}
  {event : AccountEvent Date}

theorem roomy_initial (database : Json) : (initial database).Roomy where
  menus := Eventually.of_forall fun _ => rfl
  screens := Eventually.of_forall fun _ => rfl
  requests := Eventually.of_forall fun _ => rfl

theorem Roomy.setRequest (h : state.Roomy) (id : Nat) (request : Option Request) :
    (state.setRequest id request).Roomy :=
  ⟨h.menus, h.screens, eventually_update h.requests id request⟩

theorem Roomy.setMenu (h : state.Roomy) (menu : Nat) (controller : MenuController) :
    (state.setMenu menu controller).Roomy :=
  ⟨eventually_update h.menus menu (some controller), h.screens, h.requests⟩

theorem Roomy.setScreen (h : state.Roomy) (screen : Nat) (shown : BasketViewController) :
    (state.setScreen screen shown).Roomy :=
  ⟨h.menus, eventually_update h.screens screen shown, h.requests⟩

theorem Roomy.read (h : state.Roomy) {id : Nat} {task : ReadTask}
    {guards : Except NetworkingError (List String)}
    (hread : state.read id task guards = some next) : next.Roomy := by
  rcases read_eq_some hread with rfl | ⟨-, rfl⟩
  · exact h
  · exact h.setRequest id _

theorem roomy_step (h : state.Roomy) (hstep : state.step dates user event = some next) :
    next.Roomy := by
  cases transition_of_step hstep with
  | menuOpened hnew => exact h.setMenu _ _
  | menuAppeared hbasket hproducts => exact (h.read hbasket).read hproducts
  | menuTapped htap hmenu hchanged => exact h.setMenu _ _
  | posted hmenu hentries hpost hfree => exact h.setRequest _ _
  | notPosted => exact h
  | screenAsked hread => exact h.read hread
  | orderPressed hcan hread => exact h.read hread
  | okPressed => exact h.setScreen _ _
  | answered hrequest => exact h.setRequest _ _
  | cancelled hrequest => exact h.setRequest _ _
  | menuBasketDelivered hrequest hbasket hmenu hchanged =>
      exact (h.setRequest _ none).setMenu _ _
  | menuProductsDelivered hrequest hmenu hproducts hchanged =>
      exact (h.setRequest _ none).setMenu _ _
  | screenBasketDelivered hrequest hbasket => exact (h.setRequest _ none).setScreen _ _
  | restaurantsDelivered hrequest hread => exact (h.setRequest _ none).read hread
  | orderDelivered hrequest hbasket hentries hwrites =>
      exact ⟨h.menus, (h.setScreen _ _).screens, (h.setRequest _ _).requests⟩
  | written hrequest => exact ⟨h.menus, h.screens, (h.setRequest _ _).requests⟩

end Roomy

/-! ## Calls that are answered at once -/

section Calls

variable {Date : Type} {dates : DateLibrary Date} {user : String} {state : AccountState} {id : Nat}

theorem setRequest_setRequest (state : AccountState) (id : Nat) (first second : Option Request) :
    (state.setRequest id first).setRequest id second = state.setRequest id second := by
  simp only [setRequest, Function.update_idem]

/-- A request that is finished leaves its number free. -/
theorem setRequest_finished (hfree : state.requests id = none) (request : Option Request) :
    (state.setRequest id request).setRequest id none = state := by
  rw [setRequest_setRequest, setRequest, ← hfree, Function.update_eq_self]

theorem read_free (hfree : state.requests id = none) (task : ReadTask) (path : List String) :
    state.read id task (.ok path) = some (state.setRequest id (some (.waiting task))) := by
  simp only [read, start, hfree]

theorem step_answer (state : AccountState) (id : Nat) (task : ReadTask) :
    (state.setRequest id (some (.waiting task))).step dates user (.answer id) =
      some (state.setRequest id (some (.answered task (state.database.get (path user task))))) := by
  simp only [step, setRequest_requests, Function.update_self, setRequest_setRequest,
    setRequest_database]

/-- A menu has asked for the basket. -/
theorem run_menuBasket (hfree : state.requests id = none) {menu : Nat}
    {controller : MenuController} (hmenu : state.menus menu = some controller) {basket : Basket}
    (hbasket : getBasketResponse (state.database.get (basketPath user)) = some basket) :
    run (step dates user) (state.setRequest id (some (.waiting (.menuBasket menu))))
        [.answer id, .menuBasketDelivered id] =
      some (state.setMenu menu { controller with basket := basket }) := by
  have hdelivered : (state.setRequest id (some (.answered (.menuBasket menu)
      (state.database.get (basketPath user))))).step dates user (.menuBasketDelivered id) =
        some (state.setMenu menu { controller with basket := basket }) := by
    simp only [step, setRequest_requests, Function.update_self, hbasket,
      setRequest_finished hfree, handleInMenu, hmenu]
    rfl
  exact (run_cons_of_step (step_answer state id _) _).trans (run_cons_of_step hdelivered [])

/-- A menu has asked for its products. -/
theorem run_menuProducts (hfree : state.requests id = none) {menu : Nat}
    {controller : MenuController} (hmenu : state.menus menu = some controller)
    {products : List ProductInfo}
    (hproducts : getProductsByIDRestaurantResponse controller.restaurantID
      (state.database.get ["Products"]) = some products) :
    run (step dates user) (state.setRequest id (some (.waiting (.menuProducts menu))))
        [.answer id, .menuProductsDelivered id] =
      some (state.setMenu menu { controller with products := products }) := by
  have hdelivered : (state.setRequest id (some (.answered (.menuProducts menu)
      (state.database.get ["Products"])))).step dates user (.menuProductsDelivered id) =
        some (state.setMenu menu { controller with products := products }) := by
    simp only [step, setRequest_requests, Function.update_self, setRequest_menus, hmenu,
      setRequest_finished hfree, handleInMenu]
    simp only [Option.bind_eq_bind, Option.bind_some, hproducts]
    rfl
  exact (run_cons_of_step (step_answer state id _) _).trans (run_cons_of_step hdelivered [])

/-- The writes of a request arrive one after the other. -/
theorem run_writes (writes : List Write) (hne : writes ≠ []) :
    ∀ {state : AccountState}, state.requests id = none →
      run (step dates user) (state.setRequest id (some (.writing writes)))
          (List.replicate writes.length (.write id)) =
        some { state with database := Write.applyAll state.database writes } := by
  induction writes with
  | nil => exact absurd rfl hne
  | cons first rest ih =>
      intro state hfree
      have hwritten : (state.setRequest id (some (.writing (first :: rest)))).step dates user
          (.write id) = some ({ state with database := first.apply state.database }.setRequest id
            (if rest = [] then none else some (.writing rest))) := by
        simp only [step, setRequest_requests, Function.update_self, setRequest_setRequest]
        rfl
      refine (run_cons_of_step hwritten _).trans ?_
      cases rest with
      | nil =>
          have hkept : state.setRequest id none = state := by
            rw [setRequest, ← hfree, Function.update_eq_self]
          exact congrArg (fun reached : AccountState =>
            some { reached with database := first.apply state.database }) hkept
      | cons second rest =>
          rw [if_neg (List.cons_ne_nil second rest)]
          exact ih (List.cons_ne_nil second rest) hfree

/-- A basket is stored. -/
def save (state : AccountState) (user : String) (entries : List (ProductInfo × Int64)) :
    AccountState :=
  { state with
    database := (⟨basketPath user, encodeItems entries⟩ : Write).apply state.database }

/-- The basket of a menu is posted, and arrives. -/
theorem run_posted (hfree : state.requests id = none) {menu : Nat} {controller : MenuController}
    (hmenu : state.menus menu = some controller) {entries : List (ProductInfo × Int64)}
    (hentries : controller.basket.Enumerates entries) :
    run (step dates user) state [.menuWillDisappear menu id entries true, .write id] =
      some (state.save user entries) := by
  have hposted : state.step dates user (.menuWillDisappear menu id entries true) =
      some (state.setRequest id (some (.writing [⟨basketPath user, encodeItems entries⟩]))) := by
    simp only [step, hmenu, Option.bind_eq_bind, Option.bind_some, if_pos hentries, start, hfree]
    rfl
  exact (run_cons_of_step hposted _).trans
    (run_writes [⟨basketPath user, encodeItems entries⟩] (List.cons_ne_nil _ _) hfree)

/-- A Basket screen shows a basket. -/
def load (state : AccountState) (screen : Nat) (keys : List ProductInfo) (basket : Basket) :
    AccountState :=
  state.setScreen screen ((state.screens screen).basketCompletion keys (.ok basket))

/-- It can be ordered there, if no order is being confirmed. -/
theorem canOrder_load {screen : Nat} (hnone : (state.screens screen).confirmation = none)
    (keys : List ProductInfo) {basket : Basket} (hne : basket ≠ ∅) :
    ((state.load screen keys basket).screens screen).CanOrder := by
  have hshown : (state.load screen keys basket).screens screen =
      (state.screens screen).basketCompletion keys (.ok basket) := Function.update_self _ _ _
  rw [hshown]
  exact ⟨decide_eq_false hne, hnone⟩

/-- A Basket screen asks for the basket, and shows it. -/
theorem run_screenBasket (hfree : state.requests id = none) (screen : Nat) {basket : Basket}
    (hbasket : getBasketResponse (state.database.get (basketPath user)) = some basket)
    {keys : List ProductInfo} (hkeys : basket.ListsKeys keys) :
    run (step dates user) state
        [.screenGetsBasket screen id true, .answer id, .screenBasketDelivered id keys] =
      some (state.load screen keys basket) := by
  have hasked : state.step dates user (.screenGetsBasket screen id true) =
      some (state.setRequest id (some (.waiting (.screenBasket screen)))) :=
    read_free hfree _ (basketPath user)
  have hdelivered : (state.setRequest id (some (.answered (.screenBasket screen)
      (state.database.get (basketPath user))))).step dates user
        (.screenBasketDelivered id keys) = some (state.load screen keys basket) := by
    simp only [step, setRequest_requests, Function.update_self, hbasket, setRequest_screens,
      setRequest_finished hfree, Option.bind_eq_bind, Option.bind_some, if_pos hkeys]
    rfl
  refine (run_cons_of_step hasked _).trans ?_
  exact (run_cons_of_step (step_answer state id _) _).trans (run_cons_of_step hdelivered [])

/-- An order is issued on a Basket screen. -/
def issue (state : AccountState) (screen : Nat) (number : Int64)
    (entries : List (ProductInfo × Int64)) (writes : List Write) : AccountState :=
  { state.setScreen screen ((state.screens screen).orderCompletion number none) with
    issued := state.issued ++ [⟨(state.screens screen).basket, entries, writes⟩] }

/-- The order button is pressed, and the order is made and stored. -/
theorem run_ordered {screen : Nat} (hcan : (state.screens screen).CanOrder)
    (hfree : state.requests id = none) {restaurants : List Restaurant}
    (hrestaurants : getRestaurantsInfoResponse (state.database.get ["Restaurants"]) =
      some restaurants)
    {number : Int64} (hnumber : 1 ≤ number ∧ number < 100) {basket : Basket}
    (hbasket : getBasketResponse (state.database.get (basketPath user)) = some basket)
    {entries : List (ProductInfo × Int64)} (hentries : basket.Enumerates entries)
    {now later : Date} {placed : Placement Date}
    (hplaced : placement dates user number restaurants entries now later = some placed) :
    run (step dates user) state
        [.orderButtonPressed screen id true, .answer id,
          .restaurantsDelivered id id number true true, .answer id,
          .orderDelivered id entries now later, .write id, .write id, .write id] =
      some { state.issue screen number entries (placed.writes dates) with
        database := Write.applyAll state.database (placed.writes dates) } := by
  have hpressed : state.step dates user (.orderButtonPressed screen id true) =
      some (state.setRequest id (some (.waiting (.restaurants screen)))) := by
    simp only [step, if_pos hcan]
    exact read_free hfree _ ["Restaurants"]
  have hasked : (state.setRequest id (some (.answered (.restaurants screen)
      (state.database.get ["Restaurants"])))).step dates user
        (.restaurantsDelivered id id number true true) =
          some (state.setRequest id (some (.waiting
            (.order screen number (state.screens screen).basket restaurants)))) := by
    simp only [step, setRequest_requests, Function.update_self, hrestaurants, setRequest_screens,
      setRequest_finished hfree, Option.bind_eq_bind, Option.bind_some, if_pos hnumber]
    exact read_free hfree _ (basketPath user)
  have hwrites := writes_of_placement dates user number restaurants entries now later
  rw [hplaced, Option.map_some] at hwrites
  have hissued : (state.setRequest id (some (.answered
      (.order screen number (state.screens screen).basket restaurants)
      (state.database.get (basketPath user))))).step dates user
        (.orderDelivered id entries now later) =
          some ((state.issue screen number entries (placed.writes dates)).setRequest id
            (some (.writing (placed.writes dates)))) := by
    simp only [step, setRequest_requests, Function.update_self, hbasket, setRequest_screens,
      setRequest_setRequest, Option.bind_eq_bind, Option.bind_some, if_pos hentries, ← hwrites]
    rfl
  refine (run_cons_of_step hpressed _).trans ?_
  refine (run_cons_of_step (step_answer state id _) _).trans ?_
  refine (run_cons_of_step hasked _).trans ?_
  refine (run_cons_of_step (step_answer state id _) _).trans ?_
  refine (run_cons_of_step hissued _).trans ?_
  exact run_writes (placed.writes dates) (List.cons_ne_nil _ _) hfree

/-- A menu appears, and gets the basket and its products. -/
theorem run_appeared {menu other : Nat} {controller : MenuController}
    (hmenu : state.menus menu = some controller) (hfree : state.requests id = none)
    (hother : state.requests other = none) (hne : id ≠ other) {basket : Basket}
    (hbasket : getBasketResponse (state.database.get (basketPath user)) = some basket)
    {products : List ProductInfo}
    (hproducts : getProductsByIDRestaurantResponse controller.restaurantID
      (state.database.get ["Products"]) = some products) :
    run (step dates user) state
        [.menuWillAppear menu id other true true, .answer id, .menuBasketDelivered id,
          .answer other, .menuProductsDelivered other] =
      some (state.setMenu menu { controller with products := products, basket := basket }) := by
  have hbasketAsked := read_free hfree (.menuBasket menu) (basketPath user)
  have hstarted : (state.setRequest id (some (.waiting (.menuBasket menu)))).requests other =
      none := (Function.update_of_ne hne.symm _ _).trans hother
  have hproductsAsked := read_free hstarted (.menuProducts menu) ["Products"]
  have hunstarted : (state.setRequest other (some (.waiting (.menuProducts menu)))).requests id =
      none := (Function.update_of_ne hne _ _).trans hfree
  -- the second request is on its way while the first is answered
  have hasked : state.step dates user (.menuWillAppear menu id other true true) =
      some ((state.setRequest other (some (.waiting (.menuProducts menu)))).setRequest id
        (some (.waiting (.menuBasket menu)))) := by
    have hswapped := Function.update_comm hne (some (Request.waiting (.menuBasket menu)))
      (some (Request.waiting (.menuProducts menu))) state.requests
    simp only [step, hmenu, Option.bind_eq_bind, Option.bind_some]
    refine Option.bind_eq_some_iff.mpr ⟨_, hbasketAsked, hproductsAsked.trans ?_⟩
    simp only [setRequest, hswapped]
  have hfound : (state.setMenu menu { controller with basket := basket }).menus menu =
      some { controller with basket := basket } := Function.update_self _ _ _
  have hfreed : (state.setMenu menu { controller with basket := basket }).requests other =
      none := hother
  refine (run_cons_of_step hasked _).trans ?_
  refine run_append.mpr ⟨_, run_menuBasket hunstarted hmenu hbasket, ?_⟩
  refine (run_menuProducts hfreed hfound hproducts).trans ?_
  simp only [setMenu, Function.update_idem]

/-- The taps of a user of a menu. -/
theorem run_taps {menu : Nat} {taps : List MenuEvent} (htaps : taps.all MenuEvent.isTap = true) :
    ∀ {controller changed : MenuController},
      run MenuController.handle controller taps = some changed →
      run (step dates user) (state.setMenu menu controller) (taps.map (.menuTapped menu)) =
        some (state.setMenu menu changed) := by
  induction taps with
  | nil =>
      intro controller changed hrun
      obtain rfl := Option.some.inj hrun
      rfl
  | cons tap rest ih =>
      intro controller changed hrun
      rw [List.all_cons, Bool.and_eq_true] at htaps
      obtain ⟨next, hnext, hrest⟩ := run_cons_eq_some.mp hrun
      have hset : (state.setMenu menu controller).setMenu menu next = state.setMenu menu next := by
        simp only [setMenu, Function.update_idem]
      have htapped : (state.setMenu menu controller).step dates user (.menuTapped menu tap) =
          some (state.setMenu menu next) := by
        simp only [step, htaps.1, if_true, handleInMenu, setMenu_menus,
          Function.update_self, Option.bind_eq_bind, Option.bind_some, hnext, hset,
          Option.pure_def]
      exact (run_cons_of_step htapped _).trans (ih htaps.2 hrest)

end Calls

end AccountState

/-! ## One more of a product -/

namespace MenuController

variable {menu : MenuController} {product : ProductInfo}

theorem handle_add (halert : menu.alert = false) {row : Nat}
    (hrow : menu.products[row]? = some product) {keys : List ProductInfo}
    (hkeys : menu.basket.ListsKeys keys) (hcheck : menu.checkRestaurantId keys = true)
    {amount : Int64}
    (hamount : addTrapping ((menu.basket.lookup product).getD 0) 1 = some amount) :
    menu.handle (.add row keys) =
      some { menu with basket := menu.basket.insert product amount } := by
  rw [handle, if_pos ⟨halert, hkeys⟩]
  exact buttonAddCallback_eq_some.mpr (.inl ⟨hcheck, product, amount, hrow, hamount, rfl⟩)

/-- A product of the menu can be added, if a basket of another restaurant is cleared
first. -/
theorem exists_taps (halert : menu.alert = false) (hproduct : product ∈ menu.products)
    (hroom : ∃ amount, addTrapping ((menu.basket.lookup product).getD 0) 1 = some amount) :
    ∃ taps changed, taps.all MenuEvent.isTap = true ∧ run handle menu taps = some changed ∧
      product ∈ changed.basket := by
  obtain ⟨row, hrow⟩ := List.getElem?_of_mem hproduct
  obtain ⟨entries, hentries⟩ := Dictionary.exists_enumerates menu.basket
  have hkeys := hentries.listsKeys
  cases hcheck : menu.checkRestaurantId (entries.map Prod.fst) with
  | true =>
      obtain ⟨amount, hamount⟩ := hroom
      exact ⟨[.add row (entries.map Prod.fst)], _, rfl,
        run_cons_of_step (handle_add halert hrow hkeys hcheck hamount) [],
        Finmap.mem_insert.mpr (.inl rfl)⟩
  | false =>
      have hasked : menu.handle (.add row (entries.map Prod.fst)) =
          some { menu with alert := true } := by
        rw [handle, if_pos ⟨halert, hkeys⟩]
        exact buttonAddCallback_eq_some.mpr (.inr ⟨hcheck, rfl⟩)
      have hcleared : handle { menu with alert := true } .clear =
          some { menu with basket := ∅, alert := false } := by
        rw [handle, if_pos rfl]
      have hadded : handle { menu with basket := ∅, alert := false } (.add row []) =
          some { menu with basket := Finmap.insert product 1 ∅, alert := false } := by
        refine handle_add rfl ?_ (Dictionary.listsKeys_empty_iff.mpr rfl) rfl ?_
        · exact hrow
        · rw [Finmap.lookup_empty]
          rfl
      exact ⟨[.add row (entries.map Prod.fst), .clear, .add row []], _, rfl,
        (run_cons_of_step hasked _).trans
          ((run_cons_of_step hcleared _).trans (run_cons_of_step hadded [])),
        Finmap.mem_insert.mpr (.inl rfl)⟩

end MenuController

/-! ## A visit -/

/-- The numbers that a visit uses, the taps in the menu, and the order in which the loops
meet the basket. -/
structure OrderVisit where
  menu : Nat
  screen : Nat
  request : Nat
  other : Nat
  taps : List MenuEvent
  entries : List (ProductInfo × Int64)

section Events

variable {Date : Type} (visit : OrderVisit)

/-- A menu is opened, loaded and tapped; every call is answered and delivered at once. -/
def OrderVisit.choosing (restaurantID : String) : List (AccountEvent Date) :=
  [.pushMenuVC visit.menu restaurantID,
    .menuWillAppear visit.menu visit.request visit.other true true, .answer visit.request,
    .menuBasketDelivered visit.request, .answer visit.other,
    .menuProductsDelivered visit.other] ++ visit.taps.map (.menuTapped visit.menu)

/-- The menu is left, the Basket screen loads, and the order button is pressed; again at
once. -/
def OrderVisit.ordering (number : Int64) (now later : Date) : List (AccountEvent Date) :=
  [.menuWillDisappear visit.menu visit.request visit.entries true, .write visit.request] ++
  ([.screenGetsBasket visit.screen visit.request true, .answer visit.request,
    .screenBasketDelivered visit.request (visit.entries.map Prod.fst)] ++
  [.orderButtonPressed visit.screen visit.request true, .answer visit.request,
    .restaurantsDelivered visit.request visit.request number true true, .answer visit.request,
    .orderDelivered visit.request visit.entries now later, .write visit.request,
    .write visit.request, .write visit.request])

/-- The events up to the answer of the Basket screen's read. -/
def OrderVisit.asking (restaurantID : String) : List (AccountEvent Date) :=
  visit.choosing restaurantID ++
    [.menuWillDisappear visit.menu visit.request visit.entries true, .write visit.request,
      .screenGetsBasket visit.screen visit.request true, .answer visit.request]

/-- The events after its delivery. -/
def OrderVisit.pressing (number : Int64) (now later : Date) : List (AccountEvent Date) :=
  [.orderButtonPressed visit.screen visit.request true, .answer visit.request,
    .restaurantsDelivered visit.request visit.request number true true, .answer visit.request,
    .orderDelivered visit.request visit.entries now later, .write visit.request,
    .write visit.request, .write visit.request]

theorem OrderVisit.leaves_asking (restaurantID : String) :
    ∀ event ∈ (visit.asking restaurantID : List (AccountEvent Date)),
      AccountState.LeavesScreens event = true := by
  intro event hmem
  simp only [asking, choosing, List.mem_append, List.mem_map, List.mem_cons, List.not_mem_nil,
    or_false] at hmem
  rcases hmem with ((rfl | rfl | rfl | rfl | rfl | rfl) | ⟨tap, -, rfl⟩) | rfl | rfl | rfl | rfl <;>
    rfl

theorem OrderVisit.keeps_pressing (number : Int64) (now later : Date) :
    ∀ event ∈ visit.pressing number now later, ∀ state,
      AccountState.KeepsRows visit.screen state event := by
  simp [pressing, AccountState.KeepsRows]

end Events

/-- The stored basket of the account has room for one more of the product. -/
def HasRoom (database : Json) (user : String) (product : ProductInfo) : Prop :=
  ∀ basket, StoresBasket database user basket →
    ∃ amount, addTrapping ((basket.lookup product).getD 0) 1 = some amount

/-- An order of a basket of one restaurant is for the restaurant of each of its products. -/
theorem restaurantAt_of_orderRestaurant {basket : Basket}
    {entries : List (ProductInfo × Int64)} {restaurants : List Restaurant}
    {restaurant : Restaurant} (hentries : basket.Enumerates entries)
    (hsingle : basket.SingleRestaurant) {product : ProductInfo} (hmem : product ∈ basket)
    (horder : orderRestaurant restaurants entries = some restaurant) :
    ∃ index, parseInt product.restaurantID = some index ∧
      restaurantAt restaurants index = some restaurant := by
  obtain ⟨first, hfirst, hindexed⟩ := Option.bind_eq_some_iff.mp horder
  obtain ⟨index, hindex, hat⟩ := Option.bind_eq_some_iff.mp hindexed
  obtain ⟨restaurantID, hbelongs⟩ := hsingle
  rw [hbelongs first.1 (hentries.key_mem (List.mem_of_head? hfirst))] at hindex
  exact ⟨index, (hbelongs product hmem).symm ▸ hindex, hat⟩

namespace AccountState

section Visit

variable {Date : Type} {dates : DateLibrary Date} {catalogue : Json}
  {restaurants : List Restaurant} {user : String} {state : AccountState} {product : ProductInfo}

/-- The account has one more order: it is issued, confirmed on the screen, and stored
completely, and the basket is gone.  Only one menu and this screen have changed, and no
request is left over. -/
structure Ordered (dates : DateLibrary Date) (before after : AccountState) (menu screen : Nat)
    (placed : Placement Date) : Prop where
  issued : after.issued.map IssuedOrder.content =
    before.issued.map IssuedOrder.content ++ [(placed.products, placed.writes dates)]
  confirmed : (after.screens screen).confirmation = some placed.slip.number
  stored : getOrdersEntry (after.database.get
    (orderPath placed.user (getTimestamp dates placed.slip.date))) = some (placed.info dates)
  emptied : StoresBasket after.database placed.user ∅
  menus : ∀ other, other ≠ menu → after.menus other = before.menus other
  screens : ∀ other, other ≠ screen → after.screens other = before.screens other
  requests : after.requests = before.requests

theorem ordered_of_issue {before : AccountState} (hbefore : before.issued = state.issued)
    {menu screen : Nat} (hnone : (state.screens screen).confirmation = none)
    {placed : Placement Date} (hproducts : placed.products ≠ [])
    (hcategorized : ∀ entry ∈ placed.products, entry.1.category ≠ [])
    (hmenus : ∀ other, other ≠ menu → state.menus other = before.menus other)
    (hscreens : ∀ other, other ≠ screen → state.screens other = before.screens other)
    (hrequests : state.requests = before.requests) :
    Ordered dates before
      { state.issue screen placed.slip.number placed.products (placed.writes dates) with
        database := Write.applyAll state.database (placed.writes dates) } menu screen placed := by
  have hwritten := applyAll_orderWrites state.database placed.user placed.slip.number
    placed.slip.restaurant placed.products (getTimestamp dates placed.slip.date)
    (getTimestamp dates placed.slip.readyDate) hproducts
  refine ⟨hbefore ▸ List.map_append, ?_, ?_, ?_, hmenus, fun other hne => ?_, hrequests⟩
  · have hshown : (state.issue screen placed.slip.number placed.products
        (placed.writes dates)).screens screen =
          (state.screens screen).orderCompletion placed.slip.number none :=
      Function.update_self _ _ _
    exact (congrArg BasketViewController.confirmation hshown).trans
      (congrArg (fun before => Option.or before (some placed.slip.number)) hnone)
  · refine (congrArg (fun database : Json => getOrdersEntry (database.get _)) hwritten).trans ?_
    rw [orderPath_after_order]
    exact getOrdersEntry_orderEntry _ _ _ _ _ _ hproducts hcategorized
  · refine (congrArg (fun database : Json => HoldsBasket (database.get _) ∅) hwritten).mpr ?_
    rw [basketPath_after_order]
    exact holdsBasket_null
  · exact (Function.update_of_ne hne _ _).trans (hscreens other hne)

/-- A menu that is opened and tapped has the product in its basket. -/
theorem exists_chosen (h : state.Catalogued dates catalogue user) (hroomy : state.Roomy)
    (hstock : WellStocked catalogue restaurants) (hoffered : Offered catalogue product)
    (hroom : HasRoom state.database user product) :
    ∃ (visit : OrderVisit) (controller : MenuController),
      run (step dates user) state (visit.choosing product.restaurantID) =
        some (state.setMenu visit.menu controller) ∧
      product ∈ controller.basket ∧ controller.basket.Enumerates visit.entries ∧
      state.requests visit.request = none ∧ state.screens visit.screen = .initial := by
  obtain ⟨menu, hmenu⟩ := hroomy.menus.exists
  obtain ⟨screen, hscreen⟩ := hroomy.screens.exists
  obtain ⟨request, hfrom⟩ := eventually_atTop.mp hroomy.requests
  have hfree : state.requests request = none := hfrom request (Nat.le_refl request)
  have hother : state.requests (request + 1) = none := hfrom _ (Nat.le_succ request)
  obtain ⟨products, hproducts, hlisted⟩ := hoffered
  rw [← h.products] at hproducts
  obtain ⟨stored, hstored, hkept⟩ := h.baskets.database
  obtain ⟨basket, hbasket, -⟩ := hstock.basket_decodes ⟨stored, hstored, hkept⟩
  obtain rfl := eq_of_holdsBasket hstored hbasket
  have hopened : state.step dates user (.pushMenuVC menu product.restaurantID) =
      some (state.setMenu menu (.opened product.restaurantID)) := by
    simp only [step, hmenu]
  have hfound : (state.setMenu menu (.opened product.restaurantID)).menus menu =
      some (.opened product.restaurantID) := Function.update_self _ _ _
  have happeared := (run_cons_of_step hopened _).trans
    (run_appeared hfound hfree hother (Nat.ne_of_lt (Nat.lt_succ_self request)) hbasket hproducts)
  have hloaded : ∃ taps changed, taps.all MenuEvent.isTap = true ∧
      run MenuController.handle ⟨product.restaurantID, products, basket, false⟩ taps =
        some changed ∧ product ∈ changed.basket :=
    MenuController.exists_taps rfl hlisted (hroom basket hstored)
  obtain ⟨taps, changed, htaps, hchanged, hmem⟩ := hloaded
  obtain ⟨entries, hentries⟩ := Dictionary.exists_enumerates changed.basket
  have htapped := run_append.mpr ⟨_, happeared, run_taps htaps hchanged⟩
  refine ⟨⟨menu, screen, request, request + 1, taps, entries⟩, changed, htapped.trans ?_, hmem,
    hentries, hfree, hscreen⟩
  simp only [setMenu, Function.update_idem]

/-- What is in the basket of a menu can be ordered. -/
theorem exists_ordered (h : state.Catalogued dates catalogue user)
    (hstock : WellStocked catalogue restaurants) (visit : OrderVisit) {controller : MenuController}
    (hmenu : state.menus visit.menu = some controller) (hne : controller.basket ≠ ∅)
    (hentries : controller.basket.Enumerates visit.entries)
    (hfree : state.requests visit.request = none)
    (hnone : (state.screens visit.screen).confirmation = none) {number : Int64}
    (hnumber : 1 ≤ number ∧ number < 100) {now later readyDate : Date}
    (hready : dates.addingMinutes 30 now = some readyDate) :
    ∃ (restaurant : Restaurant) (after : AccountState),
      orderRestaurant restaurants visit.entries = some restaurant ∧
      run (step dates user) state (visit.ordering number now later) = some after ∧
      Ordered dates state after visit.menu visit.screen
        ⟨user, visit.entries, ⟨number, restaurant, later, readyDate⟩⟩ := by
  have hoffered := h.baskets.menus visit.menu controller hmenu
  have hcategorized := hstock.categorized_of_offered hoffered
  have hposted : run (step dates user) state
      [.menuWillDisappear visit.menu visit.request visit.entries true, .write visit.request] =
        some (state.save user visit.entries) := run_posted hfree hmenu hentries
  -- the basket that was posted is what both reads find
  have hread : getBasketResponse ((state.save user visit.entries).database.get
      (basketPath user)) = some controller.basket := by
    have hstored : (state.save user visit.entries).database.get (basketPath user) =
        (encodeItems visit.entries).pruned := Json.get_set_same _ (basketPath user) _
    rw [hstored]
    exact getBasketResponse_categorized hentries hcategorized
  have hrestaurant : ∃ restaurant, orderRestaurant restaurants visit.entries = some restaurant := by
    refine Option.ne_none_iff_exists'.mp fun hnone => hne ?_
    exact (hstock.orderRestaurant_eq_none_iff hentries hoffered).mp hnone
  obtain ⟨restaurant, hrestaurant⟩ := hrestaurant
  have hplaced : placement dates user number restaurants visit.entries now later =
      some ⟨user, visit.entries, ⟨number, restaurant, later, readyDate⟩⟩ := by
    simp only [placement, hrestaurant, hready, Option.bind_eq_bind, Option.bind_some,
      Option.pure_def]
  have hsaved : (state.save user visit.entries).requests visit.request = none := hfree
  have hkept : (state.save user visit.entries).database.get ["Restaurants"] =
      state.database.get ["Restaurants"] :=
    get_apply_of_ne ⟨["basket"], rfl⟩ (by decide) state.database
  have hrestaurants : getRestaurantsInfoResponse
      ((state.save user visit.entries).database.get ["Restaurants"]) = some restaurants := by
    rw [hkept, h.restaurants]
    exact hstock.restaurants_decode
  have hshown : run (step dates user) (state.save user visit.entries)
      [.screenGetsBasket visit.screen visit.request true, .answer visit.request,
        .screenBasketDelivered visit.request (visit.entries.map Prod.fst)] =
      some ((state.save user visit.entries).load visit.screen (visit.entries.map Prod.fst)
        controller.basket) := run_screenBasket hsaved visit.screen hread hentries.listsKeys
  have hcan : (((state.save user visit.entries).load visit.screen (visit.entries.map Prod.fst)
      controller.basket).screens visit.screen).CanOrder := canOrder_load hnone _ hne
  have hentriesNe : visit.entries ≠ [] := fun hnil => hne (hentries.eq_empty_iff.mpr hnil)
  have hcategories : ∀ entry ∈ visit.entries, entry.1.category ≠ [] := fun entry hentry =>
    hcategorized entry.1 (hentries.key_mem hentry)
  refine ⟨restaurant, _, hrestaurant, run_append.mpr ⟨_, hposted, run_append.mpr ⟨_, hshown,
    run_ordered hcan hfree hrestaurants hnumber hread hentries hplaced⟩⟩, ?_⟩
  refine ordered_of_issue ?_ hcan.2 ?_ ?_ (fun _ _ => rfl) (fun other hne => ?_) rfl
  · rfl
  · exact hentriesNe
  · exact hcategories
  · exact Function.update_of_ne hne _ _

/-- In every state of a visit to an unused Basket screen, the rows can be configured. -/
theorem rowsConfigure_visit {Data Image : Type} {images : ImageLibrary Data Image}
    (hpictured : Pictured images catalogue) (h : state.Catalogued dates catalogue user)
    (visit : OrderVisit) (hscreen : state.screens visit.screen = .initial) (restaurantID : String)
    (number : Int64) (now later : Date) (k : Nat) {reached : AccountState}
    (hreached : run (step dates user) state
      ((visit.choosing restaurantID ++ visit.ordering number now later).take k) = some reached) :
    reached.RowsConfigure images visit.menu visit.screen := by
  have hcatalogued := run_invariant (Catalogued dates catalogue user)
    (fun _ _ _ hbefore hstep => catalogued_step hbefore hstep) h hreached
  refine rowsConfigure_of_matching hpictured hcatalogued ?_ visit.menu
  -- the screen is blank until its basket is delivered, and nothing empties it after that
  have hsplit : visit.choosing restaurantID ++ visit.ordering number now later =
      visit.asking restaurantID ++ (.screenBasketDelivered visit.request
        (visit.entries.map Prod.fst) :: visit.pressing number now later) := by
    simp [OrderVisit.asking, OrderVisit.ordering, OrderVisit.pressing]
  have hkeeps : Along (step dates user) (KeepsRows visit.screen) state
      (visit.choosing restaurantID ++ visit.ordering number now later) := by
    rw [hsplit]
    refine Along.append (along_of_forall_states state fun event hmem =>
      keepsRows_of_leaves (visit.leaves_asking restaurantID event hmem) visit.screen)
      fun middle hmiddle => ⟨?_, fun next _ => along_of_forall_states next fun event hmem =>
        visit.keeps_pressing number now later event hmem⟩
    have hblank : middle.screens = state.screens :=
      run_invariant_of_along (fun _ event => LeavesScreens event = true)
        (fun other => other.screens = state.screens)
        (fun _ _ _ h hleaves hstep => (screens_of_leaves hleaves hstep).trans h) rfl
        (along_of_forall_mem state (visit.leaves_asking restaurantID)) hmiddle
    exact congrArg BasketViewController.products ((congrFun hblank visit.screen).trans hscreen)
  refine run_invariant_of_along (KeepsRows visit.screen)
    (fun other => (other.screens visit.screen).RowsMatch)
    (fun _ _ _ h hkeep hstep => rowsMatch_step h hkeep hstep) ?_ (hkeeps.take k) hreached
  rw [hscreen]
  exact BasketViewController.rowsMatch_initial

/-- A visit leads to an order with the product, for the restaurant of the product. -/
theorem exists_visit (h : state.Catalogued dates catalogue user) (hroomy : state.Roomy)
    (hstock : WellStocked catalogue restaurants) (hoffered : Offered catalogue product)
    (hroom : HasRoom state.database user product) {number : Int64}
    (hnumber : 1 ≤ number ∧ number < 100) {now later readyDate : Date}
    (hready : dates.addingMinutes 30 now = some readyDate) :
    ∃ (visit : OrderVisit) (restaurant : Restaurant) (after : AccountState),
      run (step dates user) state
        (visit.choosing product.restaurantID ++ visit.ordering number now later) = some after ∧
      state.screens visit.screen = .initial ∧ product ∈ visit.entries.map Prod.fst ∧
      (∃ index, parseInt product.restaurantID = some index ∧
        restaurantAt restaurants index = some restaurant) ∧
      Ordered dates state after visit.menu visit.screen
        ⟨user, visit.entries, ⟨number, restaurant, later, readyDate⟩⟩ := by
  obtain ⟨visit, controller, hchosen, hmem, hentries, hfree, hscreen⟩ :=
    exists_chosen h hroomy hstock hoffered hroom
  have hcatalogued := run_invariant (Catalogued dates catalogue user)
    (fun _ _ _ hbefore hstep => catalogued_step hbefore hstep) h hchosen
  have hfound : (state.setMenu visit.menu controller).menus visit.menu = some controller :=
    Function.update_self _ _ _
  have hne : controller.basket ≠ ∅ := by
    intro hempty
    rw [hempty] at hmem
    exact Finmap.notMem_empty hmem
  have hnone : (state.screens visit.screen).confirmation = none :=
    congrArg BasketViewController.confirmation hscreen
  obtain ⟨restaurant, after, horder, hordered, hafter⟩ :=
    exists_ordered hcatalogued hstock visit hfound hne hentries hfree hnone hnumber hready
  have hsingle := (hcatalogued.one.menus visit.menu controller hfound).basket_single
  exact ⟨visit, restaurant, after, run_append.mpr ⟨_, hchosen, hordered⟩, hscreen,
    hentries.mem_keys_iff.mpr hmem,
    restaurantAt_of_orderRestaurant hentries hsingle hmem horder,
    { issued := hafter.issued
      confirmed := hafter.confirmed
      stored := hafter.stored
      emptied := hafter.emptied
      menus := fun other hother =>
        (hafter.menus other hother).trans (Function.update_of_ne hother _ _)
      screens := hafter.screens
      requests := hafter.requests }⟩

end Visit

end AccountState

/-! ## On the server -/

namespace AccountState

variable {Date : Type} {dates : DateLibrary Date} {catalogue : Json} {user : String}
  {state : AccountState}

/-- Over a database that has the same for the account, everything is on a menu, too. -/
theorem Catalogued.on (h : state.Catalogued dates catalogue user) {database : Json}
    (hsame : SameFor user database state.database) :
    (state.on database).Catalogued dates catalogue user where
  own := h.own
  one := ⟨h.one.menus, h.one.screens, h.one.requests,
    (congrArg HoldsOne (hsame.get_own ["basket"])).mpr h.one.database, h.one.issued⟩
  products := hsame.products.trans h.products
  restaurants := hsame.restaurants.trans h.restaurants
  menus := h.menus
  requests := h.requests
  baskets := ⟨h.baskets.menus, h.baskets.screens, h.baskets.requests,
    (congrArg (Holds (Basket.Offered catalogue)) (hsame.get_own ["basket"])).mpr
      h.baskets.database⟩
  issued := h.issued

end AccountState

namespace Program

variable {Date : Type} {dates : DateLibrary Date}

/-- What happens on the screens of one account happens on the server, and leaves all other
screens as they are. -/
theorem run_of_account {user : String} {events : List (AccountEvent Date)} :
    ∀ {state : Program} {next : AccountState},
      run (AccountState.step dates user) ((state.accounts user).on state.database) events =
        some next →
      ∃ after, run (step dates) state (events.map (.account user)) = some after ∧
        (after.accounts user).on after.database = next ∧
        (∀ other, other ≠ user → after.accounts other = state.accounts other) ∧
        after.tabs = state.tabs ∧ after.splits = state.splits ∧ after.fetches = state.fetches := by
  induction events with
  | nil =>
      intro state next hrun
      exact ⟨state, rfl, Option.some.inj hrun, fun _ _ => rfl, rfl, rfl, rfl⟩
  | cons event rest ih =>
      intro state next hrun
      obtain ⟨account, haccount, hrest⟩ := run_cons_eq_some.mp hrun
      obtain ⟨moved, hmoved⟩ : ∃ moved : Program, moved = { state with
          database := account.database
          accounts := Function.update state.accounts user account } := ⟨_, rfl⟩
      have hstep : step dates state (.account user event) = some moved := by
        simp only [step, haccount, Option.bind_eq_bind, Option.bind_some, Option.pure_def, hmoved]
      have hsame : (moved.accounts user).on moved.database = account := by
        rw [hmoved]
        dsimp only
        rw [Function.update_self]
        rfl
      rw [← hsame] at hrest
      obtain ⟨after, hafter, haccounts, hothers, hscreens⟩ := ih hrest
      subst hmoved
      refine ⟨after, (run_cons_of_step hstep _).trans hafter, haccounts, fun other hne => ?_,
        hscreens⟩
      exact (hothers other hne).trans (Function.update_of_ne hne _ _)

/-- The states of the account in a run of its own screens. -/
theorem account_of_run {user : String} {events : List (AccountEvent Date)} :
    ∀ {state after : Program}, run (step dates) state (events.map (.account user)) = some after →
      run (AccountState.step dates user) ((state.accounts user).on state.database) events =
        some ((after.accounts user).on after.database) := by
  induction events with
  | nil =>
      intro state after hrun
      obtain rfl := Option.some.inj hrun
      rfl
  | cons event rest ih =>
      intro state after hrun
      obtain ⟨moved, hstep, hrest⟩ := run_cons_eq_some.mp hrun
      obtain ⟨account, haccount, hmoved⟩ := Option.bind_eq_some_iff.mp hstep
      obtain rfl := Option.some.inj hmoved
      have hafter := ih hrest
      dsimp only at hafter
      rw [Function.update_self] at hafter
      exact (run_cons_of_step haccount rest).trans hafter

/-- The picture of the latte is a URL. -/
theorem pictured_oneMenu : Pictured ImageLibrary.texts oneMenu := by
  intro product hoffered
  rw [List.mem_singleton.mp (mem_of_offered_oneMenu hoffered)]
  rfl

end Program

end QFree
