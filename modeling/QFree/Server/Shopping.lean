/-
  Server/Shopping.lean --- what is ordered was chosen.

  The lists of restaurants are put in front of the program: a menu opens when a row of
  such a list is tapped, and in no other way.  The row leads to an index, the index to
  the text that identifies the restaurant, the text to the products of a menu, these
  to a basket, the basket to an order, and the order back to an index.  On a server
  with any number of accounts and lists, each at its own pace, the way ends where it
  began: every order is for a restaurant whose row its account has tapped
  (`orders_are_for_tapped_restaurants`).
-/
import QFree.Foundation.Load
import QFree.Restaurants.Screen
import QFree.Server.Catalogue

set_option autoImplicit false

namespace QFree

open QFree.Foundation QFree.FirebaseHandler

/-! ## State -/

/-- The list of restaurants on a device of an account. -/
structure RestaurantTab where
  user : String
  screen : RestaurantVC

/-- The program and the lists of restaurants. -/
structure Shopping where
  program : Program
  tabs : Nat → Option RestaurantTab
  fetches : List (Load Nat Json)
  /-- who tapped which restaurant so far; the program keeps no such list -/
  tapped : List (String × Restaurant)

/-- The event opens a menu. -/
def ProgramEvent.opensMenu {Date : Type} : ProgramEvent Date → Bool
  | .account _ (.pushMenuVC _ _) => true
  | _ => false

/-- What can happen. -/
inductive ShoppingEvent (Date : Type) where
  /-- an event of the program that opens no menu -/
  | program (event : ProgramEvent Date)
  | viewDidLoad (tab : Nat) (user : String) (isConnected : Bool)
  /-- the action of the alert that there is no connection -/
  | fetchResultsInfo (tab : Nat) (isConnected : Bool)
  | answer (fetch : Nat)
  /-- the completion of `getRestaurantsInfo` -/
  | restaurantsDelivered (fetch : Nat)
  | categoryTapped (tab row : Nat)
  /-- a tap on a restaurant; the menu it pushes gets the number -/
  | restaurantTapped (tab row menu : Nat)

namespace Shopping

/-- No screen is open. -/
def launched (database : Json) : Shopping where
  program := .launched database
  tabs := fun _ => none
  fetches := []
  tapped := []

/-- Put a list of restaurants under a number. -/
def setTab (state : Shopping) (tab : Nat) (shown : RestaurantTab) : Shopping :=
  { state with tabs := Function.update state.tabs tab (some shown) }

/-- Let a list of restaurants handle an event. -/
def handleInTab (state : Shopping) (tab : Nat) (event : RestaurantVCEvent) :
    Option Shopping := do
  let shown ← state.tabs tab
  let screen ← shown.screen.handle event
  return state.setTab tab { shown with screen := screen }

/-- `fetchResultsInfo`; without a connection it ends in an alert. -/
def fetchResultsInfo (state : Shopping) (tab : Nat) (isConnected : Bool) : Shopping :=
  match getRestaurantsInfoRequest isConnected with
  | .ok _ => { state with fetches := Load.start state.fetches tab }
  | .error _ => state

section Step

variable {Date : Type} (dates : DateLibrary Date)

/-- One event. -/
def step (state : Shopping) : ShoppingEvent Date → Option Shopping
  | .program event =>
      if event.opensMenu then none else do
        let program ← state.program.step dates event
        return { state with program := program }
  | .viewDidLoad tab user isConnected =>
      match state.tabs tab with
      | none => some ((state.setTab tab ⟨user, .initial⟩).fetchResultsInfo tab isConnected)
      | some _ => none
  | .fetchResultsInfo tab isConnected => do
      let _ ← state.tabs tab
      return state.fetchResultsInfo tab isConnected
  | .answer fetch => do
      let answered ←
        Load.complete state.fetches fetch (state.program.database.get ["Restaurants"])
      return { state with fetches := answered.2 }
  | .restaurantsDelivered fetch => do
      let (tab, value, fetches) ← Load.perform state.fetches fetch
      let restaurants ← getRestaurantsInfoResponse value
      { state with fetches := fetches }.handleInTab tab (.update restaurants)
  | .categoryTapped tab row => state.handleInTab tab (.categoryTapped row)
  | .restaurantTapped tab row menu => do
      let shown ← state.tabs tab
      let restaurant ← shown.screen.selectedRestaurants[row]?
      let opened ← shown.screen.restaurantTapped row
      let program ← state.program.step dates (.account shown.user (.pushMenuVC menu opened.2))
      return { state with
        program := program
        tapped := state.tapped ++ [(shown.user, restaurant)] }

end Step

end Shopping

/-! ## An account that opens some menus only -/

/-- Every product of the basket is of one of these restaurants. -/
def Basket.Within (allowed : String → Prop) (basket : Basket) : Prop :=
  ∀ product ∈ basket, allowed product.restaurantID

theorem Basket.within_empty {allowed : String → Prop} : Basket.Within allowed ∅ :=
  fun _ hmem => absurd hmem Finmap.notMem_empty

theorem Basket.Within.insert {allowed : String → Prop} {basket : Basket}
    (h : basket.Within allowed) {product : ProductInfo} (hproduct : allowed product.restaurantID)
    (amount : Int64) : Basket.Within allowed (basket.insert product amount) := by
  intro other hother
  rcases Finmap.mem_insert.mp hother with rfl | hold
  · exact hproduct
  · exact h other hold

namespace AccountState

section Within

variable {Date : Type} {dates : DateLibrary Date} {allowed : String → Prop} {user : String}

/-- Everything in reach of the account is of one of these restaurants. -/
structure Within (allowed : String → Prop) (user : String) (state : AccountState) : Prop where
  one : state.OneRestaurant user
  menus : ∀ menu controller, state.menus menu = some controller → allowed controller.restaurantID
  baskets : state.EveryBasket (Basket.Within allowed) user
  issued : ∀ issued ∈ state.issued, ∀ entry ∈ issued.entries, allowed entry.1.restaurantID

variable {state next : AccountState} {event : AccountEvent Date}

theorem within_initial {database : Json} (hempty : database.get ["Users"] = .null) :
    (initial database).Within allowed user := by
  have hstored := storesBasket_of_noUsers hempty user
  exact {
    one := oneRestaurant_initial hstored Basket.singleRestaurant_empty
    menus := fun menu controller hmenu => by cases hmenu
    baskets := everyBasket_initial hstored Basket.within_empty Basket.within_empty
    issued := fun issued hmem => by cases hmem }

theorem menus_within_step (h : state.Within allowed user)
    (hopens : ∀ menu restaurantID, event = .pushMenuVC menu restaurantID → allowed restaurantID)
    (hstep : state.step dates user event = some next) :
    ∀ menu controller, next.menus menu = some controller → allowed controller.restaurantID := by
  intro menu controller hafter
  rcases menus_of_step hstep hafter with
    hkept | ⟨restaurantID, hevent, rfl⟩ | ⟨before, heard, hbefore, -, hhandled⟩
  · exact h.menus menu controller hkept
  · exact hopens menu restaurantID hevent
  · rw [MenuController.handle_restaurantID hhandled]
    exact h.menus menu before hbefore

theorem baskets_within_step (h : state.Within allowed user)
    (hstep : state.step dates user event = some next) :
    next.EveryBasket (Basket.Within allowed) user := by
  refine everyBasket_step Basket.within_empty ?_ h.baskets hstep
  intro menu tap controller changed hevent hmenu hchanged
  subst hevent
  cases transition_of_step hstep with
  | menuTapped htap _ _ =>
      have hbefore := h.baskets.menus menu controller hmenu
      refine MenuController.handle_keeps (h.one.menus menu controller hmenu)
        (MenuController.delivers_of_isTap htap) hchanged Basket.within_empty ?_ hbefore
      intro product amount hproduct _
      exact hbefore.insert (hproduct ▸ h.menus menu controller hmenu) amount

theorem issued_within_step (h : state.Within allowed user)
    (hstep : state.step dates user event = some next) :
    ∀ issued ∈ next.issued, ∀ entry ∈ issued.entries, allowed entry.1.restaurantID := by
  cases transition_of_step hstep with
  | orderDelivered hrequest hbasket hentries hwrites =>
      have hwithin := kept_of_read ((h.baskets.requests _ _ hrequest).2 rfl) hbasket
      intro issued hmem entry hentry
      rcases List.mem_append.mp hmem with hold | hnew
      · exact h.issued issued hold entry hentry
      · rw [List.mem_singleton.mp hnew] at hentry
        exact hwithin entry.1 (hentries.key_mem hentry)
  | menuAppeared hbasket hproducts =>
      rw [read_issued hproducts, read_issued hbasket]
      exact h.issued
  | screenAsked hread | orderPressed _ hread | restaurantsDelivered _ hread =>
      rw [read_issued hread]
      exact h.issued
  | _ => exact h.issued

theorem within_run {database : Json} {events : List (AccountEvent Date)}
    (hempty : database.get ["Users"] = .null)
    (hopens : ∀ menu restaurantID, .pushMenuVC menu restaurantID ∈ events →
      allowed restaurantID)
    (hrun : run (step dates user) (initial database) events = some state) :
    state.Within allowed user := by
  refine run_invariant_of_along (fun _ event => event ∈ events) (Within allowed user)
    (fun before event after h hmem hstep => ?_) (within_initial hempty)
    (along_of_forall_mem (initial database) fun _ hevent => hevent) hrun
  have hopened : ∀ menu restaurantID, event = .pushMenuVC menu restaurantID →
      allowed restaurantID := fun menu restaurantID hevent =>
    hopens menu restaurantID (hevent ▸ hmem)
  exact ⟨oneRestaurant_step h.one hstep, menus_within_step h hopened hstep,
    baskets_within_step h hstep, issued_within_step h hstep⟩

end Within

end AccountState

namespace Program

variable {Date : Type} {dates : DateLibrary Date} {database : Json}
  {events : List (ProgramEvent Date)} {state : Program}

/-- An account of the program that opens some menus only. -/
theorem within_of_run (hempty : database.get ["Users"] = .null)
    (hrun : run (step dates) (launched database) events = some state) {user : String}
    {allowed : String → Prop}
    (hopens : ∀ menu restaurantID, .account user (.pushMenuVC menu restaurantID) ∈ events →
      allowed restaurantID) :
    ∃ reached, ((state.accounts user).on reached).Within allowed user := by
  obtain ⟨alone, halone, h⟩ := asAlone_run hrun user
  have hopened : ∀ menu restaurantID,
      .pushMenuVC menu restaurantID ∈ events.flatMap (ProgramEvent.of user) →
        allowed restaurantID := by
    intro menu restaurantID hmem
    obtain ⟨event, hevent, hof⟩ := List.mem_flatMap.mp hmem
    cases event with
    | account name event =>
        obtain ⟨hname, hsame⟩ := List.mem_ite_nil_right.mp hof
        rw [hname, ← List.mem_singleton.mp hsame] at hevent
        exact hopens menu restaurantID hevent
    | orders event => cases hof
  exact ⟨alone.database, h.account.symm ▸ AccountState.within_run hempty hopened halone⟩

/-- Restaurants are not changed. -/
theorem restaurants_of_run (hempty : database.get ["Users"] = .null)
    (hrun : run (step dates) (launched database) events = some state) :
    state.database.get ["Restaurants"] = database.get ["Restaurants"] := by
  obtain ⟨alone, halone, h⟩ := asAlone_run hrun ""
  exact h.database.restaurants.trans (AccountState.catalogued_run hempty halone).restaurants

end Program

/-! ## From a row to a menu -/

/-- The identifier under which the menu of one of these stored restaurants opens. -/
def OpenedFor (catalogue : Json) (chosen : Restaurant → Prop) (restaurantID : String) : Prop :=
  ∃ restaurants index restaurant,
    getRestaurantsInfoResponse (catalogue.get ["Restaurants"]) = some restaurants ∧
    restaurants[index]? = some restaurant ∧ chosen restaurant ∧ restaurantID = Nat.repr index

/-- The restaurants shown are in the list, and the list is what is stored, once it is
loaded. -/
structure RestaurantVC.Lists (catalogue : Json) (screen : RestaurantVC) : Prop where
  shown : screen.Shown
  listed : screen.restaurants = [] ∨
    getRestaurantsInfoResponse (catalogue.get ["Restaurants"]) = some screen.restaurants

section Lists

variable {catalogue : Json} {screen next : RestaurantVC}

theorem OpenedFor.imp {chosen other : Restaurant → Prop} {restaurantID : String}
    (h : OpenedFor catalogue chosen restaurantID)
    (himp : ∀ restaurant, chosen restaurant → other restaurant) :
    OpenedFor catalogue other restaurantID := by
  obtain ⟨restaurants, index, restaurant, hstored, hat, hchosen, hid⟩ := h
  exact ⟨restaurants, index, restaurant, hstored, hat, himp restaurant hchosen, hid⟩

theorem RestaurantVC.lists_initial : initial.Lists catalogue := ⟨shown_initial, .inl rfl⟩

theorem RestaurantVC.lists_update {restaurants : List Restaurant}
    (hresponse : getRestaurantsInfoResponse (catalogue.get ["Restaurants"]) = some restaurants) :
    (screen.update restaurants).Lists catalogue :=
  ⟨fun _ hmem => hmem, .inr hresponse⟩

theorem RestaurantVC.lists_categoryTapped (h : screen.Lists catalogue) {row : Nat}
    (hnext : screen.handle (.categoryTapped row) = some next) : next.Lists catalogue := by
  obtain ⟨hrow, htapped⟩ := Option.ite_none_right_eq_some.mp hnext
  obtain ⟨reached, hreached, hsame, hshown⟩ := screen.exists_categoryTapped hrow
  obtain rfl := Option.some.inj (hreached.symm.trans htapped)
  exact ⟨hshown, hsame ▸ h.listed⟩

/-- The tapped row opens the menu of its restaurant. -/
theorem RestaurantVC.openedFor_of_restaurantTapped (h : screen.Lists catalogue) {row : Nat}
    {restaurant : Restaurant} {opened : String × String}
    (hrow : screen.selectedRestaurants[row]? = some restaurant)
    (hopened : screen.restaurantTapped row = some opened) :
    OpenedFor catalogue (fun chosen => chosen = restaurant) opened.2 := by
  obtain ⟨index, htapped, hindex⟩ := exists_restaurantTapped h.shown hrow
  obtain rfl := Option.some.inj (htapped.symm.trans hopened)
  rcases h.listed with hnone | hstored
  · rw [hnone] at hindex
    cases hindex
  · exact ⟨screen.restaurants, index, restaurant, hstored, hindex, rfl, rfl⟩

end Lists

/-! ## Every menu was opened by a tap -/

namespace Shopping

section Sound

variable {Date : Type} (dates : DateLibrary Date) (database : Json)

/-- The program has come here by opening menus of tapped restaurants only, and every list
of restaurants has, or will be given, what is stored. -/
structure Sound (state : Shopping) : Prop where
  reached : ∃ events, run (Program.step dates) (.launched database) events = some state.program ∧
    ∀ user menu restaurantID, .account user (.pushMenuVC menu restaurantID) ∈ events →
      OpenedFor database (fun restaurant => (user, restaurant) ∈ state.tapped) restaurantID
  tabs : ∀ tab shown, state.tabs tab = some shown → shown.screen.Lists database
  fetches : ∀ tab value, .loaded tab value ∈ state.fetches →
    value = database.get ["Restaurants"]

variable {dates database} {state next : Shopping}

theorem sound_launched : (launched database).Sound dates database where
  reached := ⟨[], rfl, fun user menu restaurantID hmem => absurd hmem List.not_mem_nil⟩
  tabs := fun tab shown htab => by cases htab
  fetches := fun tab value hmem => absurd hmem List.not_mem_nil

theorem Sound.setTab (h : state.Sound dates database) (tab : Nat) {shown : RestaurantTab}
    (hshown : shown.screen.Lists database) : (state.setTab tab shown).Sound dates database := by
  refine ⟨h.reached, fun other found hfound => ?_, h.fetches⟩
  rcases of_update_eq_some hfound with ⟨-, hnew⟩ | hold
  · exact Option.some.inj hnew ▸ hshown
  · exact h.tabs other found hold

theorem Sound.setFetches (h : state.Sound dates database) {fetches : List (Load Nat Json)}
    (hfetches : ∀ tab value, .loaded tab value ∈ fetches →
      .loaded tab value ∈ state.fetches ∨ value = database.get ["Restaurants"]) :
    { state with fetches := fetches }.Sound dates database := by
  refine ⟨h.reached, h.tabs, fun tab value hmem => ?_⟩
  exact (hfetches tab value hmem).elim (h.fetches tab value) id

theorem Sound.fetchResultsInfo (h : state.Sound dates database) (tab : Nat)
    (isConnected : Bool) : (state.fetchResultsInfo tab isConnected).Sound dates database := by
  unfold Shopping.fetchResultsInfo
  split
  · refine h.setFetches fun other value hmem => ?_
    rcases Load.mem_start hmem with hold | hnew
    · exact .inl hold
    · cases hnew
  · exact h

/-- What a list of restaurants handles keeps it a list of what is stored. -/
theorem Sound.handleInTab (h : state.Sound dates database) {tab : Nat}
    {event : RestaurantVCEvent}
    (hlists : ∀ before after : RestaurantVC, before.Lists database →
      before.handle event = some after → after.Lists database)
    (hnext : state.handleInTab tab event = some next) : next.Sound dates database := by
  obtain ⟨shown, htab, hhandled⟩ := Option.bind_eq_some_iff.mp hnext
  obtain ⟨screen, hscreen, hset⟩ := Option.bind_eq_some_iff.mp hhandled
  obtain rfl := Option.some.inj hset
  exact h.setTab tab (hlists shown.screen screen (h.tabs tab shown htab) hscreen)

/-- The program goes on, and with more restaurants tapped. -/
theorem Sound.moved (h : state.Sound dates database) {event : ProgramEvent Date}
    {program : Program} (hprogram : state.program.step dates event = some program)
    (more : List (String × Restaurant))
    (hopens : ∀ user menu restaurantID, event = .account user (.pushMenuVC menu restaurantID) →
      OpenedFor database (fun restaurant => (user, restaurant) ∈ state.tapped ++ more)
        restaurantID) :
    { state with program := program, tapped := state.tapped ++ more }.Sound dates database := by
  obtain ⟨events, hrun, hopened⟩ := h.reached
  refine ⟨⟨events ++ [event], ?_, fun user menu restaurantID hmem => ?_⟩, h.tabs, h.fetches⟩
  · exact run_append.mpr ⟨state.program, hrun, run_cons_eq_some.mpr ⟨program, hprogram, rfl⟩⟩
  · rcases List.mem_append.mp hmem with hold | hnew
    · exact (hopened user menu restaurantID hold).imp fun _ hmem => List.mem_append_left more hmem
    · exact hopens user menu restaurantID (List.mem_singleton.mp hnew).symm

theorem sound_step (hempty : database.get ["Users"] = .null) {event : ShoppingEvent Date}
    (h : state.Sound dates database) (hstep : state.step dates event = some next) :
    next.Sound dates database := by
  cases event with
  | program event =>
      obtain ⟨hopens, hmoved⟩ := Option.ite_none_left_eq_some.mp hstep
      obtain ⟨program, hprogram, hnext⟩ := Option.bind_eq_some_iff.mp hmoved
      have hsound := h.moved hprogram [] fun user menu restaurantID hevent =>
        absurd (hevent ▸ rfl) hopens
      rw [List.append_nil] at hsound
      exact Option.some.inj hnext ▸ hsound
  | viewDidLoad tab user isConnected =>
      simp only [step] at hstep
      split at hstep
      · rw [← Option.some.inj hstep]
        exact (h.setTab tab RestaurantVC.lists_initial).fetchResultsInfo tab isConnected
      · cases hstep
  | fetchResultsInfo tab isConnected =>
      obtain ⟨shown, -, hnext⟩ := Option.bind_eq_some_iff.mp hstep
      exact Option.some.inj hnext ▸ h.fetchResultsInfo tab isConnected
  | answer fetch =>
      obtain ⟨answered, hcomplete, hnext⟩ := Option.bind_eq_some_iff.mp hstep
      obtain ⟨-, hloads⟩ := Load.mem_complete hcomplete
      obtain ⟨events, hrun, -⟩ := h.reached
      rw [← Option.some.inj hnext]
      refine h.setFetches fun tab value hmem => ?_
      rcases hloads _ hmem with hold | hnew
      · exact .inl hold
      · cases hnew
        exact .inr (Program.restaurants_of_run hempty hrun)
  | restaurantsDelivered fetch =>
      obtain ⟨⟨tab, value, fetches⟩, hperform, hread⟩ := Option.bind_eq_some_iff.mp hstep
      obtain ⟨restaurants, hresponse, hhandled⟩ := Option.bind_eq_some_iff.mp hread
      obtain ⟨hloaded, hloads⟩ := Load.mem_perform hperform
      have hvalue := h.fetches tab value hloaded
      refine Sound.handleInTab (h.setFetches fun other found hmem => ?_) ?_ hhandled
      · rcases hloads _ hmem with hold | hnew
        · exact .inl hold
        · cases hnew
      · intro before after _ hafter
        rw [← Option.some.inj hafter]
        exact RestaurantVC.lists_update (hvalue ▸ hresponse)
  | categoryTapped tab row =>
      exact h.handleInTab (fun _ _ hbefore hafter =>
        RestaurantVC.lists_categoryTapped hbefore hafter) hstep
  | restaurantTapped tab row menu =>
      obtain ⟨shown, htab, htapped⟩ := Option.bind_eq_some_iff.mp hstep
      obtain ⟨restaurant, hrow, hopens⟩ := Option.bind_eq_some_iff.mp htapped
      obtain ⟨opened, hopened, hmoves⟩ := Option.bind_eq_some_iff.mp hopens
      obtain ⟨program, hprogram, hnext⟩ := Option.bind_eq_some_iff.mp hmoves
      rw [← Option.some.inj hnext]
      refine h.moved hprogram _ fun user other restaurantID hevent => ?_
      cases hevent
      refine (RestaurantVC.openedFor_of_restaurantTapped (h.tabs tab shown htab) hrow
        hopened).imp fun chosen hchosen => ?_
      exact List.mem_append_right _ (hchosen ▸ List.mem_singleton_self _)

theorem sound_run (hempty : database.get ["Users"] = .null) {events : List (ShoppingEvent Date)}
    {final : Shopping} (hrun : run (step dates) (launched database) events = some final) :
    final.Sound dates database :=
  run_invariant (Sound dates database) (fun _ _ _ h hstep => sound_step hempty h hstep)
    sound_launched hrun

end Sound

/-! ## Every order is for a tapped restaurant -/

end Shopping

/-- There are entries, and they are of one of these stored restaurants, which has the
name. -/
def ChosenFrom (catalogue : Json) (chosen : Restaurant → Prop) (restaurantName : String)
    (entries : List (ProductInfo × Int64)) : Prop :=
  entries ≠ [] ∧ ∃ restaurants index restaurant,
    getRestaurantsInfoResponse (catalogue.get ["Restaurants"]) = some restaurants ∧
    restaurants[index]? = some restaurant ∧ chosen restaurant ∧
    restaurant.name = restaurantName ∧
    ∀ entry ∈ entries, entry.1.restaurantID = Nat.repr index

/-- The text of an index leads back to the index. -/
theorem restaurantAt_of_repr {index : Nat} {found : Int64}
    (hparse : parseInt (Nat.repr index) = some found) (restaurants : List Restaurant) :
    restaurantAt restaurants found = restaurants[index]? := by
  have hvalue := toInt_of_parseInt_repr hparse
  rw [restaurantAt, hvalue, if_pos (Int.natCast_nonneg index), Int.toNat_natCast]

/-- Entries on the menu of a restaurant, all of menus opened for some: the restaurant is
one of these. -/
theorem chosenFrom_of_onMenuOf {catalogue : Json} {chosen : Restaurant → Prop}
    {restaurantName : String} {entries : List (ProductInfo × Int64)}
    (hmenu : OnMenuOf catalogue restaurantName entries)
    (hopened : ∀ entry ∈ entries, OpenedFor catalogue chosen entry.1.restaurantID) :
    ChosenFrom catalogue chosen restaurantName entries := by
  obtain ⟨hentries, restaurantID, found, restaurants, restaurant, products, hparse, hstored, hat,
    hname, hproducts, hlisted⟩ := hmenu
  have hid : ∀ entry ∈ entries, entry.1.restaurantID = restaurantID := fun entry hmem =>
    restaurantID_of_getProductsResponse hproducts entry.1 (hlisted entry hmem).1
  obtain ⟨first, hfirst⟩ := List.exists_mem_of_ne_nil entries hentries
  obtain ⟨others, index, other, hothers, hindex, hchosen, htext⟩ := hopened first hfirst
  rw [hid first hfirst] at htext
  subst htext
  obtain rfl := Option.some.inj (hstored.symm.trans hothers)
  rw [restaurantAt_of_repr hparse, hindex] at hat
  obtain rfl := Option.some.inj hat
  exact ⟨hentries, restaurants, index, other, hstored, hindex, hchosen, hname, hid⟩

namespace Shopping

section Chosen

variable {Date : Type} {dates : DateLibrary Date} {database : Json}

theorem Sound.chosenFrom_of_issued {state : Shopping} (h : state.Sound dates database)
    (hempty : database.get ["Users"] = .null) {placement : Placement Date}
    (hissued : state.program.Issued dates placement) :
    ChosenFrom database (fun restaurant => (placement.user, restaurant) ∈ state.tapped)
      placement.slip.restaurant.name placement.products := by
  obtain ⟨events, hrun, hopens⟩ := h.reached
  obtain ⟨reached, hwithin⟩ := Program.within_of_run hempty hrun (hopens placement.user)
  refine chosenFrom_of_onMenuOf (Program.onMenuOf_of_issued hempty hrun hissued) ?_
  obtain ⟨issued, hmem, hcontent⟩ := hissued
  have hentries : issued.entries = placement.products := congrArg Prod.fst hcontent
  rw [← hentries]
  exact hwithin.issued issued hmem

/-- An account that has tapped no restaurant has issued no order. -/
theorem Sound.issued_eq_nil {state : Shopping} (h : state.Sound dates database)
    (hempty : database.get ["Users"] = .null) {user : String}
    (hnone : ∀ restaurant, (user, restaurant) ∉ state.tapped) :
    (state.program.accounts user).issued = [] := by
  obtain ⟨events, hrun, hopens⟩ := h.reached
  obtain ⟨reached, hwithin⟩ := Program.within_of_run hempty hrun (hopens user)
  obtain ⟨alone, halone, hsame⟩ := Program.asAlone_run hrun user
  have hissued := hsame.field AccountState.issued fun _ _ => rfl
  refine List.eq_nil_iff_forall_not_mem.mpr fun issued hmem => ?_
  obtain ⟨placement, hcontent, hentries, -⟩ :=
    (AccountState.catalogued_run hempty halone).issued issued (hissued ▸ hmem)
  have hproducts : issued.entries = placement.products := congrArg Prod.fst hcontent
  rw [← hproducts] at hentries
  obtain ⟨first, hfirst⟩ := List.exists_mem_of_ne_nil issued.entries hentries
  obtain ⟨-, -, restaurant, -, -, htapped, -⟩ := hwithin.issued issued hmem first hfirst
  exact hnone restaurant htapped

/-- In every run over a server without users in which the orders of each account have
different places: every order on a customer's screens is for a restaurant whose row the
customer has tapped, all its products are of this restaurant, and so it is for every
order on a split screen and the account that ordered.  Every product on a Basket screen
is of a restaurant that its account has tapped. -/
theorem orders_are_for_tapped_restaurants {events : List (ShoppingEvent Date)}
    {final : Shopping} (hlawful : dates.Lawful) (hempty : database.get ["Users"] = .null)
    (hrun : run (step dates) (launched database) events = some final)
    (hdistinct : ∀ user,
      ((final.program.accounts user).issued.map IssuedOrder.place).Nodup) :
    (∀ user screen, ∀ product ∈ ((final.program.accounts user).screens screen).basket,
      OpenedFor database (fun restaurant => (user, restaurant) ∈ final.tapped)
        product.restaurantID) ∧
    (∀ tab screen order, final.program.tabs tab = some screen →
      order ∈ screen.orders ∨ order ∈ screen.pushed →
        ChosenFrom database (fun restaurant => (screen.user, restaurant) ∈ final.tapped)
          order.restaurantName order.products) ∧
    ∀ split screen order, final.program.splits split = some screen →
      order ∈ screen.orders ∨ screen.orderScreen.order = some order →
        ChosenFrom database (fun restaurant => (order.user, restaurant) ∈ final.tapped)
          screen.restaurantName order.info.products := by
  have hsound := sound_run hempty hrun
  obtain ⟨performed, hprogram, hopens⟩ := hsound.reached
  obtain ⟨matching, apps, happs, hruns⟩ := Program.runsAs_run hprogram
  have hplaces := hruns.nodup_issuedPlaces hdistinct
  refine ⟨fun user screen => ?_, fun tab screen order htab horder => ?_,
    fun split screen order hsplit horder => ?_⟩
  · obtain ⟨reached, hwithin⟩ := Program.within_of_run hempty hprogram (hopens user)
    exact hwithin.baskets.screens screen
  · obtain ⟨placement, huser, hissued, hshown⟩ :=
      hruns.issued_of_tab hlawful hempty happs hplaces htab horder
    rw [hshown.others, ← huser]
    exact hsound.chosenFrom_of_issued hempty hissued
  · obtain ⟨placement, hname, hissued, rfl⟩ :=
      hruns.issued_of_split hempty happs hplaces hsplit horder
    rw [← hname]
    exact hsound.chosenFrom_of_issued hempty hissued

end Chosen

/-! ## A lunch with a choice -/

/-- A customer looks at the coffee places, opens the first, and has lunch there. -/
def chosenLunch : List (ShoppingEvent Nat) :=
  [ .viewDidLoad 0 "anna@mail" true, .answer 0, .restaurantsDelivered 0, .categoryTapped 0 2,
    .restaurantTapped 0 0 0 ] ++ (Program.lunch.drop 1).map .program

theorem orders_are_for_tapped_restaurants_lunch :
    ∃ final screen order, run (step utcDates) (launched Program.oneMenu) chosenLunch =
        some final ∧ final.program.splits 0 = some screen ∧
      screen.orderScreen.order = some order ∧
      ChosenFrom Program.oneMenu (fun restaurant => (order.user, restaurant) ∈ final.tapped)
        screen.restaurantName order.info.products := by
  have hany : (run (step utcDates) (launched Program.oneMenu) chosenLunch).any (fun final =>
      decide ((final.program.accounts "anna@mail").issued.map IssuedOrder.place).Nodup &&
        final.tapped.all (fun choice => choice.1 = "anna@mail") &&
        (final.program.splits 0).any fun screen => screen.orderScreen.order.isSome) = true := by
    decide +kernel
  obtain ⟨final, hrun, hfinal⟩ := (Option.any_eq_true _ _).mp hany
  simp only [Bool.and_eq_true, decide_eq_true_eq, List.all_eq_true] at hfinal
  obtain ⟨⟨hanna, htapped⟩, hsplit⟩ := hfinal
  obtain ⟨screen, hsplit, horder⟩ := (Option.any_eq_true _ _).mp hsplit
  obtain ⟨order, horder⟩ := Option.isSome_iff_exists.mp horder
  have hdistinct : ∀ user,
      ((final.program.accounts user).issued.map IssuedOrder.place).Nodup := by
    intro user
    rcases eq_or_ne user "anna@mail" with rfl | hother
    · exact hanna
    · have hnone := (sound_run rfl hrun).issued_eq_nil rfl fun restaurant hmem =>
        hother (htapped (user, restaurant) hmem)
      rw [hnone]
      exact List.nodup_nil
  obtain ⟨-, -, hsplits⟩ :=
    orders_are_for_tapped_restaurants utcDates_lawful rfl hrun hdistinct
  exact ⟨final, screen, order, hrun, hsplit, horder,
    hsplits 0 screen order hsplit (.inr horder)⟩

end Shopping

end QFree
