/-
  Server/Stops.lean --- where ordering can stop the app.

  The completions of the menus and Basket screens decode what the server answered, and a
  record that does not decode stops the app.  If the menus and restaurants that are
  stored decode, nothing that an account writes changes that: no completion stops the
  app but one.  The completion of `makeOrder`'s `getBasket` takes the first key of the
  basket that was read, so it stops the app exactly if that basket is empty, because the
  account ordered or cleared it elsewhere, or if the calendar has no ready date
  (`completions_trap_iff`).
-/
import QFree.Server.Catalogue

set_option autoImplicit false

namespace QFree

open QFree.Foundation QFree.FirebaseHandler

/-! ## Menus and restaurants that decode -/

/-- The stored restaurants and menus decode, a product has a category, as an empty list
is not stored, and is of one of the restaurants. -/
structure WellStocked (catalogue : Json) (restaurants : List Restaurant) : Prop where
  restaurants_decode :
    getRestaurantsInfoResponse (catalogue.get ["Restaurants"]) = some restaurants
  products_decode : ∀ id, ∃ products,
    getProductsByIDRestaurantResponse id (catalogue.get ["Products"]) = some products
  categorized : ∀ product, Offered catalogue product → product.category ≠ []
  served : ∀ product, Offered catalogue product → ∃ index restaurant,
    parseInt product.restaurantID = some index ∧
      restaurantAt restaurants index = some restaurant

section Offered

variable {catalogue : Json} {restaurants : List Restaurant}

theorem WellStocked.categorized_of_offered (hstock : WellStocked catalogue restaurants)
    {basket : Basket} (hoffered : basket.Offered catalogue) : basket.Categorized := by
  intro product hmem
  obtain ⟨amount, hamount⟩ := Finmap.mem_iff.mp hmem
  exact hstock.categorized product (hoffered product amount hamount).1

/-- A stored basket of products that are offered decodes. -/
theorem WellStocked.basket_decodes (hstock : WellStocked catalogue restaurants) {value : Json}
    (hvalue : Holds (Basket.Offered catalogue) value) :
    ∃ basket, getBasketResponse value = some basket ∧ basket.Offered catalogue := by
  obtain ⟨basket, ⟨entries, hentries, rfl⟩, hoffered⟩ := hvalue
  exact ⟨basket, getBasketResponse_categorized hentries (hstock.categorized_of_offered hoffered),
    hoffered⟩

/-- Only the empty basket has no restaurant. -/
theorem WellStocked.orderRestaurant_eq_none_iff (hstock : WellStocked catalogue restaurants)
    {basket : Basket} {entries : List (ProductInfo × Int64)}
    (hentries : basket.Enumerates entries) (hoffered : basket.Offered catalogue) :
    orderRestaurant restaurants entries = none ↔ basket = ∅ := by
  rw [hentries.eq_empty_iff]
  cases entries with
  | nil => exact iff_of_true rfl rfl
  | cons first rest =>
      have hlookup := hentries.mem_iff.mp (List.mem_cons_self (a := first) (l := rest))
      obtain ⟨index, restaurant, hindex, hat⟩ :=
        hstock.served first.1 (hoffered first.1 first.2 hlookup).1
      have hsome : orderRestaurant restaurants (first :: rest) = some restaurant := by
        simp only [orderRestaurant, List.head?_cons, Option.bind_eq_bind, Option.bind_some,
          hindex, hat]
      rw [hsome]
      exact iff_of_false nofun nofun

end Offered

/-! ## Requests of menus -/

/-- The request is one of the menu. -/
def Request.IsFor (menu : Nat) : Request → Prop
  | .waiting (.menuBasket other) | .answered (.menuBasket other) _
  | .waiting (.menuProducts other) | .answered (.menuProducts other) _ => other = menu
  | _ => False

namespace AccountState

section Opened

variable {Date : Type} {dates : DateLibrary Date} {user : String} {state next : AccountState}
  {event : AccountEvent Date} {menu : Nat}

/-- A menu that asks for something is open. -/
def Opened (state : AccountState) : Prop :=
  state.EveryRequest fun request => ∀ menu, request.IsFor menu → state.menus menu ≠ none

/-- It stays so if every menu stays open. -/
theorem Opened.mono (h : state.Opened) (hrequests : next.requests = state.requests)
    (hmenus : ∀ menu, state.menus menu ≠ none → next.menus menu ≠ none) : next.Opened := by
  intro id request hrequest menu hfor
  rw [hrequests] at hrequest
  exact hmenus menu (h id request hrequest menu hfor)

theorem Opened.setMenu (h : state.Opened) (menu : Nat) (controller : MenuController) :
    (state.setMenu menu controller).Opened := by
  refine h.mono rfl fun other hother => ?_
  rw [setMenu_menus, Function.update_apply]
  split
  · exact Option.some_ne_none controller
  · exact hother

theorem Opened.read (h : state.Opened) {id : Nat} {task : ReadTask}
    {guards : Except NetworkingError (List String)}
    (hread : state.read id task guards = some next)
    (htask : ∀ menu, (Request.waiting task).IsFor menu → state.menus menu ≠ none) :
    next.Opened := by
  rw [Opened, read_menus hread]
  exact EveryRequest.read h hread htask

/-- A menu that appears is open. -/
theorem menu_of_willAppear {basketRequest productsRequest : Nat}
    {isConnected stillConnected : Bool}
    (hstep : state.step dates user
      (.menuWillAppear menu basketRequest productsRequest isConnected stillConnected) =
        some next) : state.menus menu ≠ none := by
  simp only [step] at hstep
  obtain ⟨controller, hmenu, -⟩ := Option.bind_eq_some_iff.mp hstep
  rw [hmenu]
  exact Option.some_ne_none controller

theorem opened_step (h : state.Opened) (hstep : state.step dates user event = some next) :
    next.Opened := by
  cases transition_of_step hstep with
  | menuOpened _ | menuTapped _ _ _ => exact h.setMenu _ _
  | menuAppeared hbasket hproducts =>
      have hmenu := menu_of_willAppear hstep
      have hasked := h.read hbasket fun other hother => hother ▸ hmenu
      refine hasked.read hproducts fun other hother => ?_
      rw [read_menus hbasket]
      exact hother ▸ hmenu
  | posted hmenu hentries hpost hfree => exact h.put _ nofun
  | notPosted | okPressed => exact h
  | screenAsked hread | orderPressed _ hread => exact h.read hread nofun
  | @answered id task hrequest =>
      refine h.put id fun menu hfor => h id _ hrequest menu ?_
      cases task <;> exact hfor
  | cancelled _ | screenBasketDelivered _ _ => exact h.finish _
  | menuBasketDelivered _ _ _ _ | menuProductsDelivered _ _ _ _ =>
      exact Opened.setMenu (h.finish _) _ _
  | @restaurantsDelivered id _ _ _ _ _ _ _ _ hrequest hread =>
      exact Opened.read (h.finish id) hread nofun
  | orderDelivered hrequest hbasket hentries hwrites => exact h.put _ nofun
  | written hrequest => exact h.rest _ nofun

end Opened

/-! ## Completions -/

section Completes

variable {Date : Type} {dates : DateLibrary Date} {catalogue : Json}
  {restaurants : List Restaurant} {user : String} {state : AccountState}
  {event : AccountEvent Date}

/-- The event is the completion of an answered request: the lists are orders of the
dictionary that was read, the number is drawn from its range, and a new request takes a
name that is free. -/
inductive Completes (state : AccountState) : AccountEvent Date → Prop where
  | menuBasket {id menu : Nat} {value : Json}
      (hrequest : state.requests id = some (.answered (.menuBasket menu) value)) :
      Completes state (.menuBasketDelivered id)
  | menuProducts {id menu : Nat} {value : Json}
      (hrequest : state.requests id = some (.answered (.menuProducts menu) value)) :
      Completes state (.menuProductsDelivered id)
  | screenBasket {id screen : Nat} {value : Json} {keys : List ProductInfo}
      (hrequest : state.requests id = some (.answered (.screenBasket screen) value))
      (hkeys : ∀ basket, getBasketResponse value = some basket → basket.ListsKeys keys) :
      Completes state (.screenBasketDelivered id keys)
  | restaurants {id next screen : Nat} {value : Json} {number : Int64}
      {isConnected stillConnected : Bool}
      (hrequest : state.requests id = some (.answered (.restaurants screen) value))
      (hnumber : 1 ≤ number ∧ number < 100) (hfree : state.requests next = none) :
      Completes state (.restaurantsDelivered id next number isConnected stillConnected)
  | order {id screen : Nat} {number : Int64} {confirmed : Basket}
      {restaurants : List Restaurant} {value : Json} {entries : List (ProductInfo × Int64)}
      {now later : Date}
      (hrequest : state.requests id =
        some (.answered (.order screen number confirmed restaurants) value))
      (hentries : ∀ basket, getBasketResponse value = some basket → basket.Enumerates entries) :
      Completes state (.orderDelivered id entries now later)

/-- It is about requests only. -/
theorem completes_on (h : state.Completes event) (database : Json) :
    (state.on database).Completes event := by
  cases h with
  | menuBasket hrequest => exact .menuBasket hrequest
  | menuProducts hrequest => exact .menuProducts hrequest
  | screenBasket hrequest hkeys => exact .screenBasket hrequest hkeys
  | restaurants hrequest hnumber hfree => exact .restaurants hrequest hnumber hfree
  | order hrequest hentries => exact .order hrequest hentries

/-- No completion is a write. -/
theorem ne_write_of_completes (h : state.Completes event) (id : Nat) : event ≠ .write id := by
  cases h <;> nofun

theorem menuBasketDelivered_ne_none (hstock : WellStocked catalogue restaurants)
    (h : state.Catalogued dates catalogue user) (hopened : state.Opened) {id menu : Nat}
    {value : Json} (hrequest : state.requests id = some (.answered (.menuBasket menu) value)) :
    state.step dates user (.menuBasketDelivered id) ≠ none := by
  obtain ⟨basket, hbasket, -⟩ :=
    hstock.basket_decodes ((h.baskets.requests id _ hrequest).2 rfl)
  obtain ⟨controller, hmenu⟩ :=
    Option.ne_none_iff_exists'.mp (hopened id _ hrequest menu rfl)
  simp only [step, hrequest, hbasket, handleInMenu, setRequest_menus, hmenu,
    MenuController.handle, Option.bind_eq_bind, Option.bind_some]
  exact Option.some_ne_none _

theorem menuProductsDelivered_ne_none (hstock : WellStocked catalogue restaurants)
    (h : state.Catalogued dates catalogue user) (hopened : state.Opened) {id menu : Nat}
    {value : Json}
    (hrequest : state.requests id = some (.answered (.menuProducts menu) value)) :
    state.step dates user (.menuProductsDelivered id) ≠ none := by
  obtain ⟨controller, hmenu⟩ :=
    Option.ne_none_iff_exists'.mp (hopened id _ hrequest menu rfl)
  obtain ⟨products, hproducts⟩ := hstock.products_decode controller.restaurantID
  have hvalue : value = catalogue.get ["Products"] := h.requests id _ hrequest
  rw [← hvalue] at hproducts
  simp only [step, hrequest, hproducts, handleInMenu, setRequest_menus, hmenu,
    MenuController.handle, Option.bind_eq_bind, Option.bind_some]
  exact Option.some_ne_none _

theorem screenBasketDelivered_ne_none (hstock : WellStocked catalogue restaurants)
    (h : state.Catalogued dates catalogue user) {id screen : Nat} {value : Json}
    {keys : List ProductInfo}
    (hrequest : state.requests id = some (.answered (.screenBasket screen) value))
    (hkeys : ∀ basket, getBasketResponse value = some basket → basket.ListsKeys keys) :
    state.step dates user (.screenBasketDelivered id keys) ≠ none := by
  obtain ⟨basket, hbasket, -⟩ :=
    hstock.basket_decodes ((h.baskets.requests id _ hrequest).2 rfl)
  simp only [step, hrequest, hbasket, Option.bind_eq_bind, Option.bind_some]
  rw [if_pos (hkeys basket hbasket)]
  exact Option.some_ne_none _

theorem restaurantsDelivered_ne_none (hstock : WellStocked catalogue restaurants)
    (h : state.Catalogued dates catalogue user) {id next screen : Nat} {value : Json}
    {number : Int64} {isConnected stillConnected : Bool}
    (hrequest : state.requests id = some (.answered (.restaurants screen) value))
    (hnumber : 1 ≤ number ∧ number < 100) (hfree : state.requests next = none) :
    state.step dates user
      (.restaurantsDelivered id next number isConnected stillConnected) ≠ none := by
  have hvalue : value = catalogue.get ["Restaurants"] := h.requests id _ hrequest
  have hdecodes := hstock.restaurants_decode
  rw [← hvalue] at hdecodes
  have hstill : Function.update state.requests id none next = none := by
    rw [Function.update_apply, hfree, ite_self]
  simp only [step, hrequest, hdecodes, Option.bind_eq_bind, Option.bind_some]
  rw [if_pos hnumber]
  cases makeOrderRequest ⟨some user⟩ isConnected stillConnected with
  | error error => exact Option.some_ne_none _
  | ok path =>
      simp only [read, start, setRequest_requests, hstill]
      exact Option.some_ne_none _

theorem orderDelivered_eq_none_iff (hstock : WellStocked catalogue restaurants)
    (h : state.Catalogued dates catalogue user) {id screen : Nat} {number : Int64}
    {confirmed : Basket} {listed : List Restaurant} {value : Json}
    {entries : List (ProductInfo × Int64)} {now later : Date}
    (hrequest : state.requests id =
      some (.answered (.order screen number confirmed listed) value))
    (hentries : ∀ basket, getBasketResponse value = some basket → basket.Enumerates entries) :
    state.step dates user (.orderDelivered id entries now later) = none ↔
      entries = [] ∨ dates.addingMinutes 30 now = none := by
  obtain ⟨basket, hbasket, hoffered⟩ :=
    hstock.basket_decodes ((h.baskets.requests id _ hrequest).2 rfl)
  have henumerates := hentries basket hbasket
  have hlisted : listed = restaurants :=
    Option.some.inj ((h.requests id _ hrequest).symm.trans hstock.restaurants_decode)
  subst hlisted
  rw [← henumerates.eq_empty_iff, ← hstock.orderRestaurant_eq_none_iff henumerates hoffered]
  simp only [step, hrequest, hbasket, Option.bind_eq_bind, Option.bind_some]
  rw [if_pos henumerates]
  simp only [makeOrderResponse, Option.bind_eq_bind]
  cases orderRestaurant listed entries with
  | none => exact iff_of_true rfl (.inl rfl)
  | some restaurant =>
      cases dates.addingMinutes 30 now with
      | none => exact iff_of_true rfl (.inr rfl)
      | some readyDate => simp

/-- Of the completions, only that of an order can stop the app. -/
theorem step_eq_none_iff_of_completes (hstock : WellStocked catalogue restaurants)
    (h : state.Catalogued dates catalogue user) (hopened : state.Opened)
    (hcompletes : state.Completes event) :
    state.step dates user event = none ↔
      ∃ id entries now later, event = .orderDelivered id entries now later ∧
        (entries = [] ∨ dates.addingMinutes 30 now = none) := by
  cases hcompletes with
  | menuBasket hrequest =>
      exact iff_of_false (menuBasketDelivered_ne_none hstock h hopened hrequest) (by simp)
  | menuProducts hrequest =>
      exact iff_of_false (menuProductsDelivered_ne_none hstock h hopened hrequest) (by simp)
  | screenBasket hrequest hkeys =>
      exact iff_of_false (screenBasketDelivered_ne_none hstock h hrequest hkeys) (by simp)
  | restaurants hrequest hnumber hfree =>
      exact iff_of_false (restaurantsDelivered_ne_none hstock h hrequest hnumber hfree) (by simp)
  | order hrequest hentries =>
      rw [orderDelivered_eq_none_iff hstock h hrequest hentries]
      exact ⟨fun hstops => ⟨_, _, _, _, rfl, hstops⟩,
        fun ⟨id, entries, now, later, hsame, hstops⟩ => by cases hsame; exact hstops⟩

end Completes

end AccountState

/-! ## All accounts -/

namespace Program

section Completions

variable {Date : Type} {dates : DateLibrary Date} {database : Json}
  {restaurants : List Restaurant} {events : List (ProgramEvent Date)} {final : Program}
  {user : String} {event : AccountEvent Date}

/-- An event stops the app if it stops the app of the account alone. -/
theorem AsAlone.step_eq_none_iff {alone : AccountState} (h : final.AsAlone user alone)
    (hevent : ∀ id, event ≠ .write id) :
    final.step dates (.account user event) = none ↔ alone.step dates user event = none := by
  have halone : alone.step dates user event =
      (((final.accounts user).on final.database).step dates user event).map
        fun next => next.on alone.database := by
    rw [← AccountState.step_on h.database hevent]
    exact congrArg (fun state => state.step dates user event) h.account.symm
  rw [halone, Option.map_eq_none_iff]
  simp only [step, Option.bind_eq_bind]
  cases ((final.accounts user).on final.database).step dates user event with
  | none => exact iff_of_true rfl rfl
  | some next => exact iff_of_false nofun nofun

theorem opened_run {events : List (AccountEvent Date)} {alone : AccountState}
    (hrun : run (AccountState.step dates user) (.initial database) events = some alone) :
    alone.Opened :=
  run_invariant AccountState.Opened (fun _ _ _ h hstep => AccountState.opened_step h hstep)
    (AccountState.everyRequest_initial database) hrun

/-- In every run of the program over a server without users, whose restaurants and menus
decode, the completion of an answered request stops the app if and only if it is that of
an order and the basket that was read for it is empty, or the calendar has no ready
date. -/
theorem completions_trap_iff (hempty : database.get ["Users"] = .null)
    (hstock : WellStocked database restaurants)
    (hrun : run (step dates) (launched database) events = some final)
    (hcompletes : (final.accounts user).Completes event) :
    final.step dates (.account user event) = none ↔
      ∃ id entries now later, event = .orderDelivered id entries now later ∧
        (entries = [] ∨ dates.addingMinutes 30 now = none) := by
  obtain ⟨alone, halone, h⟩ := asAlone_run hrun user
  have hsame : alone.Completes event :=
    h.account ▸ AccountState.completes_on hcompletes alone.database
  rw [h.step_eq_none_iff (AccountState.ne_write_of_completes hsame)]
  exact AccountState.step_eq_none_iff_of_completes hstock
    (AccountState.catalogued_run hempty halone) (opened_run halone) hsame

end Completions

/-! ## A second press -/

/-- The order button is pressed twice, and the basket is read again after the first order
took it away. -/
def pressedTwice : List (AccountEvent Nat) :=
  twoLattesToGo.take 13 ++ [
    .orderButtonPressed 0 4 true, .orderButtonPressed 0 6 true, .answer 4, .answer 6,
    .restaurantsDelivered 4 5 17 true true, .restaurantsDelivered 6 7 18 true true, .answer 5,
    .orderDelivered 5 Traffic.twoLattes 6294876000 6294876005, .write 5, .write 5, .write 5,
    .answer 7]

theorem getProductsResponse_oneMenu (id : String) :
    getProductsByIDRestaurantResponse id (oneMenu.get ["Products"]) =
      some ((Traffic.twoLattes.map Prod.fst).filter fun product => product.restaurantID = id) :=
  rfl

theorem mem_of_offered_oneMenu {product : ProductInfo} (hoffered : Offered oneMenu product) :
    product ∈ Traffic.twoLattes.map Prod.fst := by
  obtain ⟨products, hproducts, hmem⟩ := hoffered
  rw [getProductsResponse_oneMenu, Option.some.injEq] at hproducts
  rw [← hproducts] at hmem
  exact (List.mem_filter.mp hmem).1

/-- The one restaurant and the one product decode. -/
theorem wellStocked_oneMenu : WellStocked oneMenu [sampleRestaurant] := by
  refine ⟨rfl, fun id => ⟨_, getProductsResponse_oneMenu id⟩, fun product hoffered => ?_,
    fun product hoffered => ?_⟩
  · rw [List.mem_singleton.mp (mem_of_offered_oneMenu hoffered)]
    decide
  · rw [List.mem_singleton.mp (mem_of_offered_oneMenu hoffered)]
    exact ⟨0, sampleRestaurant, by decide, rfl⟩

/-- An order whose basket was read as nothing. -/
def readNothing : Option Request → Bool
  | some (.answered (.order _ _ _ _) .null) => true
  | _ => false

theorem readNothing_eq_true {request : Option Request} (h : readNothing request = true) :
    ∃ screen number confirmed restaurants,
      request = some (.answered (.order screen number confirmed restaurants) .null) := by
  unfold readNothing at h
  split at h
  · exact ⟨_, _, _, _, rfl⟩
  · cases h

theorem completions_trap_iff_pressedTwice :
    ∃ final, run (step utcDates) (launched oneMenu)
        (pressedTwice.map (.account "anna@mail")) = some final ∧
      final.step utcDates (.account "anna@mail" (.orderDelivered 7 [] 6294876010 6294876015)) =
        none := by
  have hany : (run (step utcDates) (launched oneMenu)
      (pressedTwice.map (.account "anna@mail"))).any (fun final =>
        readNothing ((final.accounts "anna@mail").requests 7)) = true := by
    decide +kernel
  obtain ⟨final, hrun, hnothing⟩ := (Option.any_eq_true _ _).mp hany
  obtain ⟨screen, number, confirmed, restaurants, hrequest⟩ := readNothing_eq_true hnothing
  have hentries : ∀ basket, getBasketResponse .null = some basket → basket.Enumerates [] := by
    intro basket hbasket
    rw [← Option.some.inj hbasket]
    exact Dictionary.Enumerates.empty_iff.mpr rfl
  have hcompletes : (final.accounts "anna@mail").Completes
      (.orderDelivered 7 [] 6294876010 6294876015) := .order hrequest hentries
  have hstops := completions_trap_iff rfl wellStocked_oneMenu hrun hcompletes
  exact ⟨final, hrun, hstops.mpr ⟨7, [], 6294876010, 6294876015, rfl, .inl rfl⟩⟩

end Program

end QFree
