/-
  Account/System.lean --- the screens of one account at work.

  Any number of menus and Basket screens, on any number of devices, share the
  subtree `Users/<user>` of one account.  A read is a request that waits, is
  answered with what the database holds at that moment, and is delivered to its
  callback later; it may also be cancelled or never delivered.  A write is a
  request too, and reaches the database one `setValue` at a time; what the client
  library shows its own device of a write before that is left out.

  `step` performs one event: a screen appears, a button is tapped, the server
  answers, a callback runs, a write arrives.  An event that is not enabled, or
  whose handler traps, has no successor.

  A completion that gets an error changes none of the fields kept here: it prints
  or shows an alert, and the action of an alert asks again, which is an event of
  its own.
-/
import QFree.Basket.Screen
import QFree.Foundation.Run
import QFree.Menu.Controller
import QFree.Networking.OrderWrites

set_option autoImplicit false

namespace QFree

open QFree.Foundation QFree.FirebaseHandler

/-! ## State -/

/-- What a read is for. -/
inductive ReadTask where
  /-- `getBasket` of a menu -/
  | menuBasket (menu : Nat)
  /-- `getProductsByIdRestaurants` of a menu -/
  | menuProducts (menu : Nat)
  /-- `getBasket` of a Basket screen -/
  | screenBasket (screen : Nat)
  /-- `getRestaurantsInfo` of a press of the order button -/
  | restaurants (screen : Nat)
  /-- `getBasket` of `makeOrder(number:basket:restaurants:)` -/
  | order (screen : Nat) (number : Int64) (basket : Basket) (restaurants : List Restaurant)

/-- A call to the server that is not finished. -/
inductive Request where
  | waiting (task : ReadTask)
  | answered (task : ReadTask) (value : Json)
  | writing (writes : List Write)

/-- An order whose writes were issued: the basket that was passed to `makeOrder`,
the entries it wrote, and the writes. -/
structure IssuedOrder where
  confirmed : Basket
  entries : List (ProductInfo × Int64)
  writes : List Write

/-- Everything the screens of one account share. -/
structure AccountState where
  database : Json
  menus : Nat → Option MenuController
  screens : Nat → BasketViewController
  requests : Nat → Option Request
  /-- the orders issued so far; the program keeps no such list -/
  issued : List IssuedOrder

/-- What can happen.  Screens and requests are named by numbers; a list of
products or entries is the order in which a loop meets a dictionary. -/
inductive AccountEvent (Date : Type) where
  | pushMenuVC (menu : Nat) (restaurantID : String)
  | menuWillAppear (menu basketRequest productsRequest : Nat) (isConnected stillConnected : Bool)
  | menuTapped (menu : Nat) (tap : MenuEvent)
  | menuWillDisappear (menu request : Nat) (entries : List (ProductInfo × Int64))
      (isConnected : Bool)
  | screenGetsBasket (screen request : Nat) (isConnected : Bool)
  | orderButtonPressed (screen request : Nat) (isConnected : Bool)
  | okButtonPressed (screen : Nat)
  | answer (request : Nat)
  | cancel (request : Nat)
  | menuBasketDelivered (request : Nat)
  | menuProductsDelivered (request : Nat)
  | screenBasketDelivered (request : Nat) (keys : List ProductInfo)
  | restaurantsDelivered (request next : Nat) (number : Int64) (isConnected stillConnected : Bool)
  | orderDelivered (request : Nat) (entries : List (ProductInfo × Int64)) (now later : Date)
  | write (request : Nat)

namespace AccountState

/-- An account with this database, of which no screen is open. -/
def initial (database : Json) : AccountState where
  database := database
  menus := fun _ => none
  screens := fun _ => .initial
  requests := fun _ => none
  issued := []

/-! ## Steps -/

/-- The path a read observes. -/
def path (user : String) : ReadTask → List String
  | .menuBasket _ | .screenBasket _ | .order .. => basketPath user
  | .menuProducts _ => ["Products"]
  | .restaurants _ => ["Restaurants"]

/-- Put a request under a number. -/
def setRequest (state : AccountState) (id : Nat) (request : Option Request) : AccountState :=
  { state with requests := Function.update state.requests id request }

/-- Put a menu under a number. -/
def setMenu (state : AccountState) (menu : Nat) (controller : MenuController) : AccountState :=
  { state with menus := Function.update state.menus menu (some controller) }

/-- Change a Basket screen. -/
def setScreen (state : AccountState) (screen : Nat) (controller : BasketViewController) :
    AccountState :=
  { state with screens := Function.update state.screens screen controller }

section Updates

variable (state : AccountState) (id menu screen : Nat) (request : Option Request)
  (controller : MenuController) (shown : BasketViewController)

@[simp] theorem setRequest_database : (state.setRequest id request).database = state.database := rfl

@[simp] theorem setRequest_menus : (state.setRequest id request).menus = state.menus := rfl

@[simp] theorem setRequest_screens : (state.setRequest id request).screens = state.screens := rfl

@[simp] theorem setRequest_requests :
    (state.setRequest id request).requests = Function.update state.requests id request := rfl

@[simp] theorem setRequest_issued : (state.setRequest id request).issued = state.issued := rfl

@[simp] theorem setMenu_database : (state.setMenu menu controller).database = state.database := rfl

@[simp] theorem setMenu_menus :
    (state.setMenu menu controller).menus =
      Function.update state.menus menu (some controller) := rfl

@[simp] theorem setMenu_screens : (state.setMenu menu controller).screens = state.screens := rfl

@[simp] theorem setMenu_requests : (state.setMenu menu controller).requests = state.requests := rfl

@[simp] theorem setMenu_issued : (state.setMenu menu controller).issued = state.issued := rfl

@[simp] theorem setScreen_database :
    (state.setScreen screen shown).database = state.database := rfl

@[simp] theorem setScreen_menus : (state.setScreen screen shown).menus = state.menus := rfl

@[simp] theorem setScreen_screens :
    (state.setScreen screen shown).screens = Function.update state.screens screen shown := rfl

@[simp] theorem setScreen_requests :
    (state.setScreen screen shown).requests = state.requests := rfl

@[simp] theorem setScreen_issued : (state.setScreen screen shown).issued = state.issued := rfl

end Updates

/-- Start a request under a number that is not in use. -/
def start (state : AccountState) (id : Nat) (request : Request) : Option AccountState :=
  match state.requests id with
  | none => some (state.setRequest id (some request))
  | some _ => none

/-- Start a read, or run its completion with the error of its guards. -/
def read (state : AccountState) (id : Nat) (task : ReadTask) :
    Except NetworkingError (List String) → Option AccountState
  | .ok _ => state.start id (.waiting task)
  | .error _ => some state

/-- Let a menu handle an event. -/
def handleInMenu (state : AccountState) (menu : Nat) (event : MenuEvent) :
    Option AccountState := do
  let controller ← state.menus menu
  let next ← controller.handle event
  return state.setMenu menu next

section Step

variable {Date : Type} (dates : DateLibrary Date) (user : String)

/-- One event of an account whose devices all have the handler of `user`. -/
def step (state : AccountState) : AccountEvent Date → Option AccountState
  | .pushMenuVC menu restaurantID =>
      match state.menus menu with
      | none => some (state.setMenu menu (.opened restaurantID))
      | some _ => none
  | .menuWillAppear menu basketRequest productsRequest isConnected stillConnected => do
      let _ ← state.menus menu
      let asked ← state.read basketRequest (.menuBasket menu)
        (getBasketRequest ⟨some user⟩ isConnected)
      asked.read productsRequest (.menuProducts menu)
        (getProductsByIDRestaurantRequest stillConnected)
  | .menuTapped menu tap => if tap.isTap then state.handleInMenu menu tap else none
  | .menuWillDisappear menu id entries isConnected => do
      let controller ← state.menus menu
      if controller.basket.Enumerates entries then
        match postBasket ⟨some user⟩ isConnected entries with
        | .ok write => state.start id (.writing [write])
        | .error _ => some state
      else none
  | .screenGetsBasket screen id isConnected =>
      state.read id (.screenBasket screen) (getBasketRequest ⟨some user⟩ isConnected)
  | .orderButtonPressed screen id isConnected =>
      if (state.screens screen).CanOrder then
        state.read id (.restaurants screen) (getRestaurantsInfoRequest isConnected)
      else none
  | .okButtonPressed screen =>
      if (state.screens screen).confirmation.isSome then
        some (state.setScreen screen (state.screens screen).okButtonAction)
      else none
  | .answer id =>
      match state.requests id with
      | some (.waiting task) =>
          some (state.setRequest id
            (some (.answered task (state.database.get (path user task)))))
      | _ => none
  | .cancel id =>
      match state.requests id with
      | some (.waiting _) => some (state.setRequest id none)
      | _ => none
  | .menuBasketDelivered id =>
      match state.requests id with
      | some (.answered (.menuBasket menu) value) => do
          let basket ← getBasketResponse value
          (state.setRequest id none).handleInMenu menu (.basketResult (.ok basket))
      | _ => none
  | .menuProductsDelivered id =>
      match state.requests id with
      | some (.answered (.menuProducts menu) value) => do
          -- the identifier of a menu is set once, so it is the one that was passed
          let controller ← state.menus menu
          let products ← getProductsByIDRestaurantResponse controller.restaurantID value
          (state.setRequest id none).handleInMenu menu (.productsResult (.ok products))
      | _ => none
  | .screenBasketDelivered id keys =>
      match state.requests id with
      | some (.answered (.screenBasket screen) value) => do
          let basket ← getBasketResponse value
          if basket.ListsKeys keys then
            return (state.setRequest id none).setScreen screen
              ((state.screens screen).basketCompletion keys (.ok basket))
          else none
      | _ => none
  | .restaurantsDelivered id next number isConnected stillConnected =>
      match state.requests id with
      | some (.answered (.restaurants screen) value) => do
          let restaurants ← getRestaurantsInfoResponse value
          if 1 ≤ number ∧ number < 100 then
            (state.setRequest id none).read next
              (.order screen number (state.screens screen).basket restaurants)
              (makeOrderRequest ⟨some user⟩ isConnected stillConnected)
          else none
      | _ => none
  | .orderDelivered id entries now later =>
      match state.requests id with
      | some (.answered (.order screen number confirmed restaurants) value) => do
          let basket ← getBasketResponse value
          if basket.Enumerates entries then
            let writes ← makeOrderResponse dates user number restaurants entries now later
            let shown := (state.screens screen).orderCompletion number none
            let started := (state.setRequest id (some (.writing writes))).setScreen screen shown
            return { started with issued := state.issued ++ [⟨confirmed, entries, writes⟩] }
          else none
      | _ => none
  | .write id =>
      match state.requests id with
      | some (.writing (first :: rest)) =>
          let remaining := if rest = [] then none else some (.writing rest)
          some { state.setRequest id remaining with database := first.apply state.database }
      | _ => none

/-! ## What a step can do -/

/-- The outcomes of an event. -/
inductive Transition (state : AccountState) : AccountEvent Date → AccountState → Prop where
  | menuOpened {menu : Nat} {restaurantID : String} (hnew : state.menus menu = none) :
      Transition state (.pushMenuVC menu restaurantID) (state.setMenu menu (.opened restaurantID))
  | menuAppeared {menu basketRequest productsRequest : Nat} {isConnected stillConnected : Bool}
      {asked next : AccountState}
      (hbasket : state.read basketRequest (.menuBasket menu)
        (getBasketRequest ⟨some user⟩ isConnected) = some asked)
      (hproducts : asked.read productsRequest (.menuProducts menu)
        (getProductsByIDRestaurantRequest stillConnected) = some next) :
      Transition state
        (.menuWillAppear menu basketRequest productsRequest isConnected stillConnected) next
  | menuTapped {menu : Nat} {tap : MenuEvent} {controller changed : MenuController}
      (htap : tap.isTap = true) (hmenu : state.menus menu = some controller)
      (hchanged : controller.handle tap = some changed) :
      Transition state (.menuTapped menu tap) (state.setMenu menu changed)
  | posted {menu id : Nat} {entries : List (ProductInfo × Int64)} {isConnected : Bool}
      {controller : MenuController} {write : Write}
      (hmenu : state.menus menu = some controller)
      (hentries : controller.basket.Enumerates entries)
      (hpost : postBasket ⟨some user⟩ isConnected entries = .ok write)
      (hfree : state.requests id = none) :
      Transition state (.menuWillDisappear menu id entries isConnected)
        (state.setRequest id (some (.writing [write])))
  | notPosted {menu id : Nat} {entries : List (ProductInfo × Int64)} {isConnected : Bool} :
      Transition state (.menuWillDisappear menu id entries isConnected) state
  | screenAsked {screen id : Nat} {isConnected : Bool} {next : AccountState}
      (hread : state.read id (.screenBasket screen) (getBasketRequest ⟨some user⟩ isConnected) =
        some next) :
      Transition state (.screenGetsBasket screen id isConnected) next
  | orderPressed {screen id : Nat} {isConnected : Bool} {next : AccountState}
      (hcan : (state.screens screen).CanOrder)
      (hread : state.read id (.restaurants screen) (getRestaurantsInfoRequest isConnected) =
        some next) :
      Transition state (.orderButtonPressed screen id isConnected) next
  | okPressed {screen : Nat} :
      Transition state (.okButtonPressed screen)
        (state.setScreen screen (state.screens screen).okButtonAction)
  | answered {id : Nat} {task : ReadTask} (hrequest : state.requests id = some (.waiting task)) :
      Transition state (.answer id) (state.setRequest id
        (some (.answered task (state.database.get (path user task)))))
  | cancelled {id : Nat} {task : ReadTask} (hrequest : state.requests id = some (.waiting task)) :
      Transition state (.cancel id) (state.setRequest id none)
  | menuBasketDelivered {id menu : Nat} {value : Json} {basket : Basket}
      {controller changed : MenuController}
      (hrequest : state.requests id = some (.answered (.menuBasket menu) value))
      (hbasket : getBasketResponse value = some basket)
      (hmenu : state.menus menu = some controller)
      (hchanged : controller.handle (.basketResult (.ok basket)) = some changed) :
      Transition state (.menuBasketDelivered id)
        ((state.setRequest id none).setMenu menu changed)
  | menuProductsDelivered {id menu : Nat} {value : Json} {products : List ProductInfo}
      {controller changed : MenuController}
      (hrequest : state.requests id = some (.answered (.menuProducts menu) value))
      (hmenu : state.menus menu = some controller)
      (hproducts : getProductsByIDRestaurantResponse controller.restaurantID value = some products)
      (hchanged : controller.handle (.productsResult (.ok products)) = some changed) :
      Transition state (.menuProductsDelivered id)
        ((state.setRequest id none).setMenu menu changed)
  | screenBasketDelivered {id screen : Nat} {keys : List ProductInfo} {value : Json}
      {basket : Basket}
      (hrequest : state.requests id = some (.answered (.screenBasket screen) value))
      (hbasket : getBasketResponse value = some basket) (hkeys : basket.ListsKeys keys) :
      Transition state (.screenBasketDelivered id keys)
        ((state.setRequest id none).setScreen screen
          ((state.screens screen).basketCompletion keys (.ok basket)))
  | restaurantsDelivered {id nextId screen : Nat} {number : Int64}
      {isConnected stillConnected : Bool} {value : Json} {restaurants : List Restaurant}
      {next : AccountState}
      (hrequest : state.requests id = some (.answered (.restaurants screen) value))
      (hread : (state.setRequest id none).read nextId
        (.order screen number (state.screens screen).basket restaurants)
        (makeOrderRequest ⟨some user⟩ isConnected stillConnected) = some next) :
      Transition state (.restaurantsDelivered id nextId number isConnected stillConnected) next
  | orderDelivered {id screen : Nat} {number : Int64} {confirmed basket : Basket}
      {restaurants : List Restaurant} {value : Json} {entries : List (ProductInfo × Int64)}
      {now later : Date} {writes : List Write}
      (hrequest : state.requests id =
        some (.answered (.order screen number confirmed restaurants) value))
      (hbasket : getBasketResponse value = some basket) (hentries : basket.Enumerates entries)
      (hwrites : makeOrderResponse dates user number restaurants entries now later = some writes) :
      Transition state (.orderDelivered id entries now later)
        { (state.setRequest id (some (.writing writes))).setScreen screen
            ((state.screens screen).orderCompletion number none) with
          issued := state.issued ++ [⟨confirmed, entries, writes⟩] }
  | written {id : Nat} {first : Write} {rest : List Write}
      (hrequest : state.requests id = some (.writing (first :: rest))) :
      Transition state (.write id)
        { state.setRequest id (if rest = [] then none else some (.writing rest)) with
          database := first.apply state.database }

theorem read_eq_some {state next : AccountState} {id : Nat} {task : ReadTask}
    {guards : Except NetworkingError (List String)}
    (h : state.read id task guards = some next) :
    next = state ∨
      (state.requests id = none ∧ next = state.setRequest id (some (.waiting task))) := by
  cases guards with
  | error error => exact Or.inl (Option.some.inj h).symm
  | ok path =>
      simp only [read, start] at h
      split at h
      · rename_i hfree
        exact Or.inr ⟨hfree, (Option.some.inj h).symm⟩
      · cases h

theorem read_issued {state next : AccountState} {id : Nat} {task : ReadTask}
    {guards : Except NetworkingError (List String)}
    (h : state.read id task guards = some next) : next.issued = state.issued := by
  rcases read_eq_some h with rfl | ⟨-, rfl⟩ <;> rfl

theorem read_menus {state next : AccountState} {id : Nat} {task : ReadTask}
    {guards : Except NetworkingError (List String)}
    (h : state.read id task guards = some next) : next.menus = state.menus := by
  rcases read_eq_some h with rfl | ⟨-, rfl⟩ <;> rfl

theorem read_database {state next : AccountState} {id : Nat} {task : ReadTask}
    {guards : Except NetworkingError (List String)}
    (h : state.read id task guards = some next) : next.database = state.database := by
  rcases read_eq_some h with rfl | ⟨-, rfl⟩ <;> rfl

theorem handleInMenu_eq_some {state next : AccountState} {menu : Nat} {event : MenuEvent}
    (h : state.handleInMenu menu event = some next) :
    ∃ controller changed, state.menus menu = some controller ∧
      controller.handle event = some changed ∧ next = state.setMenu menu changed := by
  unfold handleInMenu at h
  simp only [Option.bind_eq_bind, Option.bind_eq_some_iff, Option.pure_def,
    Option.some.injEq] at h
  obtain ⟨controller, hmenu, changed, hchanged, rfl⟩ := h
  exact ⟨controller, changed, hmenu, hchanged, rfl⟩

variable {dates user}

theorem transition_of_step {state next : AccountState} {event : AccountEvent Date}
    (h : state.step dates user event = some next) : state.Transition dates user event next := by
  cases event with
  | pushMenuVC menu restaurantID =>
      simp only [step] at h
      split at h
      · rename_i hnew
        exact Option.some.inj h ▸ .menuOpened hnew
      · cases h
  | menuWillAppear menu basketRequest productsRequest isConnected stillConnected =>
      simp only [step, Option.bind_eq_bind, Option.bind_eq_some_iff] at h
      obtain ⟨controller, -, asked, hbasket, hproducts⟩ := h
      exact .menuAppeared hbasket hproducts
  | menuTapped menu tap =>
      simp only [step, Option.ite_none_right_eq_some] at h
      obtain ⟨htap, h⟩ := h
      obtain ⟨controller, changed, hmenu, hchanged, rfl⟩ := handleInMenu_eq_some h
      exact .menuTapped htap hmenu hchanged
  | menuWillDisappear menu id entries isConnected =>
      simp only [step, Option.bind_eq_bind, Option.bind_eq_some_iff,
        Option.ite_none_right_eq_some] at h
      obtain ⟨controller, hmenu, hentries, h⟩ := h
      split at h
      · rename_i write hpost
        unfold start at h
        split at h
        · rename_i hfree
          exact Option.some.inj h ▸ .posted hmenu hentries hpost hfree
        · cases h
      · exact Option.some.inj h ▸ .notPosted
  | screenGetsBasket screen id isConnected => exact .screenAsked h
  | orderButtonPressed screen id isConnected =>
      simp only [step, Option.ite_none_right_eq_some] at h
      exact .orderPressed h.1 h.2
  | okButtonPressed screen =>
      simp only [step, Option.ite_none_right_eq_some, Option.some.injEq] at h
      exact h.2 ▸ .okPressed
  | answer id =>
      simp only [step] at h
      split at h
      · rename_i task hrequest
        exact Option.some.inj h ▸ .answered hrequest
      · cases h
  | cancel id =>
      simp only [step] at h
      split at h
      · rename_i task hrequest
        exact Option.some.inj h ▸ .cancelled hrequest
      · cases h
  | menuBasketDelivered id =>
      simp only [step] at h
      split at h
      · rename_i menu value hrequest
        simp only [Option.bind_eq_bind, Option.bind_eq_some_iff] at h
        obtain ⟨basket, hbasket, h⟩ := h
        obtain ⟨controller, changed, hmenu, hchanged, rfl⟩ := handleInMenu_eq_some h
        exact .menuBasketDelivered hrequest hbasket hmenu hchanged
      · cases h
  | menuProductsDelivered id =>
      simp only [step] at h
      split at h
      · rename_i menu value hrequest
        simp only [Option.bind_eq_bind, Option.bind_eq_some_iff] at h
        obtain ⟨named, hnamed, products, hproducts, h⟩ := h
        obtain ⟨controller, changed, hmenu, hchanged, rfl⟩ := handleInMenu_eq_some h
        obtain rfl : named = controller := Option.some.inj (hnamed.symm.trans hmenu)
        exact .menuProductsDelivered hrequest hmenu hproducts hchanged
      · cases h
  | screenBasketDelivered id keys =>
      simp only [step] at h
      split at h
      · rename_i screen value hrequest
        simp only [Option.bind_eq_bind, Option.bind_eq_some_iff, Option.ite_none_right_eq_some,
          Option.pure_def, Option.some.injEq] at h
        obtain ⟨basket, hbasket, hkeys, rfl⟩ := h
        exact .screenBasketDelivered hrequest hbasket hkeys
      · cases h
  | restaurantsDelivered id nextId number isConnected stillConnected =>
      simp only [step] at h
      split at h
      · rename_i screen value hrequest
        simp only [Option.bind_eq_bind, Option.bind_eq_some_iff,
          Option.ite_none_right_eq_some] at h
        obtain ⟨restaurants, -, -, hread⟩ := h
        exact .restaurantsDelivered hrequest hread
      · cases h
  | orderDelivered id entries now later =>
      simp only [step] at h
      split at h
      · rename_i screen number confirmed restaurants value hrequest
        simp only [Option.bind_eq_bind, Option.bind_eq_some_iff, Option.ite_none_right_eq_some,
          Option.pure_def, Option.some.injEq] at h
        obtain ⟨basket, hbasket, hentries, writes, hwrites, rfl⟩ := h
        exact .orderDelivered hrequest hbasket hentries hwrites
      · cases h
  | write id =>
      simp only [step] at h
      split at h
      · rename_i first rest hrequest
        exact Option.some.inj h ▸ .written hrequest
      · cases h

/-- An event that is no write leaves the database alone. -/
theorem database_of_ne_write {state next : AccountState} {event : AccountEvent Date}
    (hevent : ∀ id, event ≠ .write id) (hstep : state.step dates user event = some next) :
    next.database = state.database := by
  cases transition_of_step hstep with
  | written hrequest => exact absurd rfl (hevent _)
  | menuAppeared hbasket hproducts =>
      exact (read_database hproducts).trans (read_database hbasket)
  | screenAsked hread | orderPressed _ hread => exact read_database hread
  | restaurantsDelivered _ hread => exact (read_database hread).trans rfl
  | _ => rfl

/-- The numbers of the requests that an event is about. -/
def requestsOf : AccountEvent Date → List Nat
  | .menuWillAppear _ basketRequest productsRequest _ _ => [basketRequest, productsRequest]
  | .restaurantsDelivered id next _ _ _ => [id, next]
  | .menuWillDisappear _ id _ _ | .screenGetsBasket _ id _ | .orderButtonPressed _ id _ => [id]
  | .answer id | .cancel id | .menuBasketDelivered id | .menuProductsDelivered id
  | .screenBasketDelivered id _ | .orderDelivered id _ _ _ | .write id => [id]
  | .pushMenuVC _ _ | .menuTapped _ _ | .okButtonPressed _ => []

theorem read_requests {state next : AccountState} {id other : Nat} {task : ReadTask}
    {guards : Except NetworkingError (List String)} (hread : state.read id task guards = some next)
    (hne : other ≠ id) : next.requests other = state.requests other := by
  rcases read_eq_some hread with rfl | ⟨-, rfl⟩
  · rfl
  · exact Function.update_of_ne hne _ _

/-- An event leaves all other requests alone. -/
theorem requests_of_step {state next : AccountState} {event : AccountEvent Date}
    (hstep : state.step dates user event = some next) {other : Nat}
    (hother : other ∉ requestsOf event) : next.requests other = state.requests other := by
  cases transition_of_step hstep with
  | menuOpened | menuTapped | notPosted | okPressed => rfl
  | menuAppeared hbasket hproducts =>
      obtain ⟨hfirst, hsecond⟩ := List.ne_and_not_mem_of_not_mem_cons hother
      exact (read_requests hproducts (List.ne_of_not_mem_cons hsecond)).trans
        (read_requests hbasket hfirst)
  | screenAsked hread | orderPressed _ hread =>
      exact read_requests hread (List.ne_of_not_mem_cons hother)
  | restaurantsDelivered hrequest hread =>
      obtain ⟨hfirst, hsecond⟩ := List.ne_and_not_mem_of_not_mem_cons hother
      exact (read_requests hread (List.ne_of_not_mem_cons hsecond)).trans
        (Function.update_of_ne hfirst _ _)
  | posted | answered | cancelled | menuBasketDelivered | menuProductsDelivered
  | screenBasketDelivered | orderDelivered | written =>
      exact Function.update_of_ne (List.ne_of_not_mem_cons hother) _ _

end Step

/-! ## One order from start to end -/

/-- The sample database with a restaurant and a product of it. -/
def sampleAccount : Json :=
  (sampleDatabase.set ["Restaurants"] (.array [.object [
    ("category", .array [.string "Кофе", .string "Пицца"]), ("name", .string "Groot"),
    ("image", .string "g.png"), ("lat", .string "55.75"), ("long", .string "37.64")]])).set
  ["Products"] (.array [.object [
    ("category", .array [.string "Кофе"]), ("name", .string "Latte"),
    ("image", .string "l.png"), ("price", .string "199"), ("restaurantID", .string "0")]])

theorem sampleAccount_stores :
    StoresBasket sampleAccount "user@mail" (Dictionary.ofEntries sampleBasket) := by
  have hkept : sampleAccount.get (basketPath "user@mail") =
      sampleDatabase.get (basketPath "user@mail") :=
    (Json.get_set_of_ne _ [] (by decide) [] ["user@mail", "basket"] _).trans
      (Json.get_set_of_ne sampleDatabase [] (by decide) [] ["user@mail", "basket"] _)
  rw [StoresBasket, hkept]
  exact sampleDatabase_stores

/-- The Basket screen loads the sample basket, and it is ordered. -/
def sampleOrder : List (AccountEvent Nat) :=
  [ .screenGetsBasket 0 0 true, .answer 0,
    .screenBasketDelivered 0 (sampleBasket.map Prod.fst),
    .orderButtonPressed 0 1 true, .answer 1, .restaurantsDelivered 1 2 17 true true,
    .answer 2, .orderDelivered 2 sampleBasket 6294876000 6294876005,
    .write 2, .write 2, .write 2]

end AccountState

end QFree
