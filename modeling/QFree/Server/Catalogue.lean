/-
  Server/Catalogue.lean --- what is ordered is on the menu.

  A product reaches a basket from a row of a menu, and a row of a menu is a record under
  `Products`.  From there it is copied: to the stored basket, to Basket screens, to an
  order, to the screens of both apps.  Nothing on this way changes it, so the products
  of an order are those of the restaurant whose name is on the order, with the prices
  that are stored for them (`orders_are_on_the_menu`).

  This is shown for an account that is alone on the server; Alone.lean carries it over
  to the accounts of the program.
-/
import QFree.Account.SingleRestaurant
import QFree.Server.Alone
import QFree.Server.EndToEnd

set_option autoImplicit false

namespace QFree

open QFree.Foundation QFree.FirebaseHandler

/-! ## Products that are on a menu -/

/-- The menu of its restaurant has the product. -/
def Offered (catalogue : Json) (product : ProductInfo) : Prop :=
  ∃ products, getProductsByIDRestaurantResponse product.restaurantID
    (catalogue.get ["Products"]) = some products ∧ product ∈ products

/-- Without users, every account has the empty basket. -/
theorem storesBasket_of_noUsers {catalogue : Json} (hempty : catalogue.get ["Users"] = .null)
    (user : String) : StoresBasket catalogue user ∅ := by
  have hsplit := Json.get_append catalogue ["Users"] [user, "basket"]
  rw [hempty] at hsplit
  have hbasket : catalogue.get (basketPath user) = .null := hsplit
  rw [StoresBasket, hbasket]
  exact holdsBasket_null

/-- Every product of the basket is on a menu, and no amount is negative. -/
def Basket.Offered (catalogue : Json) (basket : Basket) : Prop :=
  ∀ product amount, basket.lookup product = some amount →
    QFree.Offered catalogue product ∧ 0 ≤ amount.toInt

/-- There are entries, and they are from the menu of one restaurant, which has the
name. -/
def OnMenuOf (catalogue : Json) (restaurantName : String)
    (entries : List (ProductInfo × Int64)) : Prop :=
  entries ≠ [] ∧ ∃ restaurantID index restaurants restaurant products,
    parseInt restaurantID = some index ∧
    getRestaurantsInfoResponse (catalogue.get ["Restaurants"]) = some restaurants ∧
    restaurantAt restaurants index = some restaurant ∧ restaurant.name = restaurantName ∧
    getProductsByIDRestaurantResponse restaurantID (catalogue.get ["Products"]) =
      some products ∧
    ∀ entry ∈ entries, entry.1 ∈ products ∧ 0 ≤ entry.2.toInt

section Menu

variable {catalogue : Json}

theorem Basket.offered_empty : Basket.Offered catalogue ∅ := by
  intro product amount hlookup
  rw [Finmap.lookup_empty] at hlookup
  cases hlookup

/-- What a menu loads is offered. -/
theorem offered_of_getProductsResponse {id : String} {products : List ProductInfo}
    (hresponse : getProductsByIDRestaurantResponse id (catalogue.get ["Products"]) =
      some products) : ∀ product ∈ products, Offered catalogue product := by
  intro product hmem
  have hid := restaurantID_of_getProductsResponse hresponse product hmem
  exact ⟨products, hid ▸ hresponse, hmem⟩

namespace MenuController

variable {menu next : MenuController} {tap : MenuEvent}

/-- A tap leaves the rows of the menu alone. -/
theorem products_of_tap (htap : tap.isTap = true) (h : menu.handle tap = some next) :
    next.products = menu.products := by
  cases outcome_of_handle h with
  | basketLoaded | productsLoaded | basketFailed | productsFailed => cases htap
  | _ => rfl

theorem offered_of_tap (htap : tap.isTap = true)
    (hproducts : ∀ product ∈ menu.products, Offered catalogue product)
    (hbasket : menu.basket.Offered catalogue) (h : menu.handle tap = some next) :
    next.basket.Offered catalogue := by
  have hone : (1 : Int64).toInt = 1 := by decide
  cases outcome_of_handle h with
  | basketLoaded | productsLoaded | basketFailed | productsFailed => cases htap
  | @added row keys product amount hkeys hcheck hproduct hamount =>
      refine Dictionary.forall_lookup_insert hbasket
        ⟨hproducts product (List.mem_of_getElem? hproduct), ?_⟩
      have hsum := exactly_eq_some.mp hamount
      cases hbefore : menu.basket.lookup product with
      | none =>
          rw [hbefore, Option.getD_none] at hsum
          have hzero : (0 : Int64).toInt = 0 := by decide
          omega
      | some before =>
          rw [hbefore, Option.getD_some] at hsum
          have hnonneg := (hbasket product before hbefore).2
          omega
  | @lessened row product amount less hproduct hamount hne hless =>
      refine Dictionary.forall_lookup_insert hbasket
        ⟨hproducts product (List.mem_of_getElem? hproduct), ?_⟩
      have hdifference := exactly_eq_some.mp hless
      have hnonneg := (hbasket product amount hamount).2
      have hzero : amount.toInt ≠ 0 := fun hzero => hne (Int64.toInt_inj.mp hzero)
      omega
  | asked | noneLeft | cancelled => exact hbasket
  | cleared => exact Basket.offered_empty

end MenuController

/-- An order of a basket of one restaurant is on the menu of the restaurant it is for. -/
theorem onMenuOf_of_orderRestaurant {basket : Basket} {entries : List (ProductInfo × Int64)}
    {restaurants : List Restaurant} {restaurant : Restaurant}
    (hentries : basket.Enumerates entries) (hoffered : basket.Offered catalogue)
    (hsingle : basket.SingleRestaurant)
    (hrestaurants : getRestaurantsInfoResponse (catalogue.get ["Restaurants"]) =
      some restaurants)
    (horder : orderRestaurant restaurants entries = some restaurant) :
    OnMenuOf catalogue restaurant.name entries := by
  obtain ⟨first, hfirst, hindexed⟩ := Option.bind_eq_some_iff.mp horder
  obtain ⟨index, hindex, hat⟩ := Option.bind_eq_some_iff.mp hindexed
  obtain ⟨restaurantID, hbelongs⟩ := hsingle
  have hoffers : ∀ entry ∈ entries, Offered catalogue entry.1 ∧ 0 ≤ entry.2.toInt :=
    fun entry hmem => hoffered entry.1 entry.2 (hentries.mem_iff.mp hmem)
  have hid : ∀ entry ∈ entries, entry.1.restaurantID = restaurantID :=
    fun entry hmem => hbelongs entry.1 (hentries.key_mem hmem)
  have hmem : first ∈ entries := List.mem_of_head? hfirst
  obtain ⟨⟨products, hproducts, -⟩, -⟩ := hoffers first hmem
  rw [hid first hmem] at hindex hproducts
  refine ⟨ne_nil_of_orderRestaurant horder, restaurantID, index, restaurants, restaurant,
    products, hindex, hrestaurants, hat, rfl, hproducts, fun entry hentry => ?_⟩
  obtain ⟨⟨others, hothers, hlisted⟩, hnonneg⟩ := hoffers entry hentry
  rw [hid entry hentry, hproducts] at hothers
  exact ⟨Option.some.inj hothers ▸ hlisted, hnonneg⟩

end Menu

/-! ## An account alone -/

/-- What was read outside `Users` is what is stored there. -/
def Request.FromCatalogue (catalogue : Json) : Request → Prop
  | .waiting (.order _ _ _ restaurants) | .answered (.order _ _ _ restaurants) _ =>
      getRestaurantsInfoResponse (catalogue.get ["Restaurants"]) = some restaurants
  | .answered (.menuProducts _) value => value = catalogue.get ["Products"]
  | .answered (.restaurants _) value => value = catalogue.get ["Restaurants"]
  | _ => True

section Issued

variable {Date : Type} (dates : DateLibrary Date)

/-- The order is written as one that is on the menu. -/
def IssuedOrder.OnMenu (catalogue : Json) (issued : IssuedOrder) : Prop :=
  ∃ placement : Placement Date,
    issued.content = (placement.products, placement.writes dates) ∧
      OnMenuOf catalogue placement.slip.restaurant.name placement.products

end Issued

namespace AccountState

section Catalogued

variable {Date : Type} (dates : DateLibrary Date) (catalogue : Json) (user : String)

/-- Everything that can be ordered is on a menu. -/
structure Catalogued (state : AccountState) : Prop where
  own : state.WritesOwn user
  one : state.OneRestaurant user
  products : state.database.get ["Products"] = catalogue.get ["Products"]
  restaurants : state.database.get ["Restaurants"] = catalogue.get ["Restaurants"]
  menus : ∀ menu controller, state.menus menu = some controller →
    ∀ product ∈ controller.products, Offered catalogue product
  requests : state.EveryRequest (Request.FromCatalogue catalogue)
  baskets : state.EveryBasket (Basket.Offered catalogue) user
  issued : ∀ issued ∈ state.issued, issued.OnMenu dates catalogue

variable {dates catalogue user} {state next : AccountState} {event : AccountEvent Date}

theorem catalogued_initial (hempty : catalogue.get ["Users"] = .null) :
    (initial catalogue).Catalogued dates catalogue user := by
  have hstored := storesBasket_of_noUsers hempty user
  exact {
    own := everyRequest_initial catalogue
    one := oneRestaurant_initial hstored Basket.singleRestaurant_empty
    products := rfl
    restaurants := rfl
    menus := fun menu controller hmenu => by cases hmenu
    requests := everyRequest_initial catalogue
    baskets := everyBasket_initial hstored Basket.offered_empty Basket.offered_empty
    issued := fun issued hmem => by cases hmem }

/-- Below the other keys, the database stays as it is. -/
theorem get_step (h : state.WritesOwn user) (hstep : state.step dates user event = some next)
    {key : String} (hkey : key ≠ "Users") :
    next.database.get [key] = state.database.get [key] := by
  rcases database_step h hstep with hkept | ⟨write, hunder, hwritten⟩
  · rw [hkept]
  · rw [hwritten, get_apply_of_ne hunder hkey]

/-- What reaches a menu: a tap, or something that was read for it. -/
inductive Hears (state : AccountState) (menu : Nat) (controller : MenuController) :
    MenuEvent → Prop where
  | tap {tap : MenuEvent} (htap : tap.isTap = true) : Hears state menu controller tap
  | basket {id : Nat} {value : Json} {basket : Basket}
      (hrequest : state.requests id = some (.answered (.menuBasket menu) value))
      (hbasket : getBasketResponse value = some basket) :
      Hears state menu controller (.basketResult (.ok basket))
  | products {id : Nat} {value : Json} {products : List ProductInfo}
      (hrequest : state.requests id = some (.answered (.menuProducts menu) value))
      (hproducts : getProductsByIDRestaurantResponse controller.restaurantID value =
        some products) : Hears state menu controller (.productsResult (.ok products))

/-- A menu after a step was there before, is opened, or handles what reaches it. -/
theorem menus_of_step (hstep : state.step dates user event = some next) {menu : Nat}
    {controller : MenuController} (hafter : next.menus menu = some controller) :
    state.menus menu = some controller ∨
      (∃ restaurantID, event = .pushMenuVC menu restaurantID ∧
        controller = .opened restaurantID) ∨
      ∃ before heard, state.menus menu = some before ∧ state.Hears menu before heard ∧
        before.handle heard = some controller := by
  cases transition_of_step hstep with
  | menuOpened hnew =>
      rcases of_update_eq_some hafter with ⟨rfl, hopened⟩ | hold
      · exact .inr (.inl ⟨_, rfl, (Option.some.inj hopened).symm⟩)
      · exact .inl hold
  | menuTapped htap hmenu hchanged =>
      rcases of_update_eq_some hafter with ⟨rfl, hnew⟩ | hold
      · exact .inr (.inr ⟨_, _, hmenu, .tap htap, hchanged.trans hnew⟩)
      · exact .inl hold
  | menuBasketDelivered hrequest hbasket hmenu hchanged =>
      rcases of_update_eq_some hafter with ⟨rfl, hnew⟩ | hold
      · exact .inr (.inr ⟨_, _, hmenu, .basket hrequest hbasket, hchanged.trans hnew⟩)
      · exact .inl hold
  | menuProductsDelivered hrequest hmenu hproducts hchanged =>
      rcases of_update_eq_some hafter with ⟨rfl, hnew⟩ | hold
      · exact .inr (.inr ⟨_, _, hmenu, .products hrequest hproducts, hchanged.trans hnew⟩)
      · exact .inl hold
  | menuAppeared hbasket hproducts =>
      rw [read_menus hproducts, read_menus hbasket] at hafter
      exact .inl hafter
  | screenAsked hread | orderPressed _ hread | restaurantsDelivered _ hread =>
      rw [read_menus hread] at hafter
      exact .inl hafter
  | _ => exact .inl hafter

theorem menus_offered_step (h : state.Catalogued dates catalogue user)
    (hstep : state.step dates user event = some next) :
    ∀ menu controller, next.menus menu = some controller →
      ∀ product ∈ controller.products, Offered catalogue product := by
  intro menu controller hafter
  rcases menus_of_step hstep hafter with
    hkept | ⟨restaurantID, -, rfl⟩ | ⟨before, heard, hbefore, hheard, hhandled⟩
  · exact h.menus menu controller hkept
  · exact fun product hmem => absurd hmem List.not_mem_nil
  · have hoffered := h.menus menu before hbefore
    cases hheard with
    | tap htap =>
        rw [MenuController.products_of_tap htap hhandled]
        exact hoffered
    | basket hrequest hbasket =>
        cases MenuController.outcome_of_handle hhandled with
        | basketLoaded => exact hoffered
    | products hrequest hproducts =>
        have hvalue := h.requests _ _ hrequest
        cases MenuController.outcome_of_handle hhandled with
        | productsLoaded => exact offered_of_getProductsResponse (hvalue ▸ hproducts)

/-- The restaurants that are passed on are those that were read. -/
theorem restaurants_of_delivered {id nextId screen : Nat} {number : Int64}
    {isConnected stillConnected : Bool} {value : Json}
    (hrequest : state.requests id = some (.answered (.restaurants screen) value))
    (hstep : state.step dates user
      (.restaurantsDelivered id nextId number isConnected stillConnected) = some next) :
    ∃ restaurants, getRestaurantsInfoResponse value = some restaurants ∧
      (state.setRequest id none).read nextId
        (.order screen number (state.screens screen).basket restaurants)
        (makeOrderRequest ⟨some user⟩ isConnected stillConnected) = some next := by
  simp only [step, hrequest] at hstep
  obtain ⟨restaurants, hresponse, hguard⟩ := Option.bind_eq_some_iff.mp hstep
  exact ⟨restaurants, hresponse, (Option.ite_none_right_eq_some.mp hguard).2⟩

theorem requests_fromCatalogue_step (h : state.Catalogued dates catalogue user)
    (hstep : state.step dates user event = some next) :
    next.EveryRequest (Request.FromCatalogue catalogue) := by
  have hrequests := h.requests
  cases transition_of_step hstep with
  | menuAppeared hbasket hproducts =>
      exact (hrequests.read hbasket trivial).read hproducts trivial
  | posted hmenu hentries hpost hfree => exact hrequests.put _ trivial
  | screenAsked hread | orderPressed _ hread => exact hrequests.read hread trivial
  | @answered id task hrequest =>
      have hwaiting := hrequests id _ hrequest
      refine hrequests.put id ?_
      cases task with
      | menuProducts menu => exact h.products
      | restaurants screen => exact h.restaurants
      | order screen number basket restaurants => exact hwaiting
      | menuBasket menu | screenBasket screen => trivial
  | cancelled _ | menuBasketDelivered _ _ _ _ | screenBasketDelivered _ _ =>
      exact hrequests.finish _
  | menuProductsDelivered _ _ _ _ => exact hrequests.finish _
  | @restaurantsDelivered id _ _ _ _ _ value _ _ hrequest _ =>
      obtain ⟨restaurants, hresponse, hread⟩ := restaurants_of_delivered hrequest hstep
      have hvalue : value = catalogue.get ["Restaurants"] := hrequests id _ hrequest
      rw [hvalue] at hresponse
      exact (hrequests.finish id).read hread hresponse
  | orderDelivered hrequest hbasket hentries hwrites => exact hrequests.put _ trivial
  | written hrequest => exact hrequests.rest _ trivial
  | menuOpened _ | menuTapped _ _ _ | notPosted | okPressed => exact hrequests

theorem baskets_offered_step (h : state.Catalogued dates catalogue user)
    (hstep : state.step dates user event = some next) :
    next.EveryBasket (Basket.Offered catalogue) user := by
  refine everyBasket_step Basket.offered_empty ?_ h.baskets hstep
  intro menu tap controller changed hevent hmenu hchanged
  subst hevent
  cases transition_of_step hstep with
  | menuTapped htap _ _ =>
      exact MenuController.offered_of_tap htap (h.menus menu controller hmenu)
        (h.baskets.menus menu controller hmenu) hchanged

theorem issued_onMenu_step (h : state.Catalogued dates catalogue user)
    (hstep : state.step dates user event = some next) :
    ∀ issued ∈ next.issued, issued.OnMenu dates catalogue := by
  cases transition_of_step hstep with
  | @orderDelivered id screen number confirmed basket restaurants value entries now later writes
      hrequest hbasket hentries hwrites =>
      have hoffered : basket.Offered catalogue :=
        kept_of_read ((h.baskets.requests id _ hrequest).2 rfl) hbasket
      have hsingle : basket.SingleRestaurant :=
        kept_of_read ((h.one.requests id _ hrequest).2 rfl) hbasket
      have hrestaurants := h.requests id _ hrequest
      rw [← writes_of_placement, Option.map_eq_some_iff] at hwrites
      obtain ⟨placement, hplaced, rfl⟩ := hwrites
      obtain ⟨restaurant, readyDate, hrestaurant, -, rfl⟩ := placement_eq_some hplaced
      intro issued hmem
      rcases List.mem_append.mp hmem with hold | hnew
      · exact h.issued issued hold
      · rw [List.mem_singleton.mp hnew]
        exact ⟨⟨user, entries, number, restaurant, later, readyDate⟩, rfl,
          onMenuOf_of_orderRestaurant hentries hoffered hsingle hrestaurants hrestaurant⟩
  | menuAppeared hbasket hproducts =>
      rw [read_issued hproducts, read_issued hbasket]
      exact h.issued
  | screenAsked hread | orderPressed _ hread | restaurantsDelivered _ hread =>
      rw [read_issued hread]
      exact h.issued
  | _ => exact h.issued

theorem catalogued_step (h : state.Catalogued dates catalogue user)
    (hstep : state.step dates user event = some next) :
    next.Catalogued dates catalogue user where
  own := writesOwn_step h.own hstep
  one := oneRestaurant_step h.one hstep
  products := (get_step h.own hstep (by decide)).trans h.products
  restaurants := (get_step h.own hstep (by decide)).trans h.restaurants
  menus := menus_offered_step h hstep
  requests := requests_fromCatalogue_step h hstep
  baskets := baskets_offered_step h hstep
  issued := issued_onMenu_step h hstep

theorem catalogued_run {events : List (AccountEvent Date)}
    (hempty : catalogue.get ["Users"] = .null)
    (hrun : run (step dates user) (initial catalogue) events = some state) :
    state.Catalogued dates catalogue user :=
  run_invariant (Catalogued dates catalogue user) (fun _ _ _ h hstep => catalogued_step h hstep)
    (catalogued_initial hempty) hrun

end Catalogued

end AccountState

/-! ## All accounts -/

namespace Program

section Catalogued

variable {Date : Type} {dates : DateLibrary Date} {database : Json}
  {events : List (ProgramEvent Date)} {final : Program}

/-- An order that was issued is on the menu of the restaurant on it. -/
theorem onMenuOf_of_issued (hempty : database.get ["Users"] = .null)
    (hrun : run (step dates) (launched database) events = some final)
    {placement : Placement Date} (hissued : final.Issued dates placement) :
    OnMenuOf database placement.slip.restaurant.name placement.products := by
  obtain ⟨alone, halone, h⟩ := asAlone_run hrun placement.user
  obtain ⟨issued, hmem, hcontent⟩ := hissued
  have hsame := h.field AccountState.issued fun _ _ => rfl
  have hall := (AccountState.catalogued_run hempty halone).issued
  rw [← hsame] at hall
  obtain ⟨listed, hlisted, honMenu⟩ := hall issued hmem
  obtain ⟨hproducts, hwrites⟩ := Prod.mk.inj (hlisted.symm.trans hcontent)
  have hname : listed.slip.restaurant.name = placement.slip.restaurant.name :=
    congrArg OrderInfo.restaurantName (Placement.info_of_writes hproducts hwrites)
  rw [← hname, ← hproducts]
  exact honMenu

/-- In every run of the program over a server without users in which the orders of each
account have different places, every Basket screen has products of the stored menus
only, and every order on a customer's screens or on a split screen consists of products
of one menu, as it is stored: that of the restaurant whose name is on the order, or of
the split screen.  No amount is negative. -/
theorem orders_are_on_the_menu (hlawful : dates.Lawful)
    (hempty : database.get ["Users"] = .null)
    (hrun : run (step dates) (launched database) events = some final)
    (hdistinct : ∀ user, ((final.accounts user).issued.map IssuedOrder.place).Nodup) :
    (∀ user screen, Basket.Offered database ((final.accounts user).screens screen).basket) ∧
    (∀ tab screen order, final.tabs tab = some screen →
      order ∈ screen.orders ∨ order ∈ screen.pushed →
        OnMenuOf database order.restaurantName order.products) ∧
    ∀ split screen order, final.splits split = some screen →
      order ∈ screen.orders ∨ screen.orderScreen.order = some order →
        OnMenuOf database screen.restaurantName order.info.products := by
  obtain ⟨matching, apps, happs, hruns⟩ := runsAs_run hrun
  have hplaces := hruns.nodup_issuedPlaces hdistinct
  refine ⟨fun user screen => ?_, fun tab screen order htab horder => ?_,
    fun split screen order hsplit horder => ?_⟩
  · obtain ⟨alone, halone, h⟩ := asAlone_run hrun user
    have hsame := h.field AccountState.screens fun _ _ => rfl
    have hscreens := (AccountState.catalogued_run hempty halone).baskets.screens
    rw [← hsame] at hscreens
    exact hscreens screen
  · obtain ⟨placement, -, hissued, hshown⟩ :=
      hruns.issued_of_tab hlawful hempty happs hplaces htab horder
    rw [hshown.others]
    exact onMenuOf_of_issued hempty hrun hissued
  · obtain ⟨placement, hname, hissued, rfl⟩ :=
      hruns.issued_of_split hempty happs hplaces hsplit horder
    rw [← hname]
    exact onMenuOf_of_issued hempty hrun hissued

end Catalogued

theorem orders_are_on_the_menu_lunch :
    ∃ final screen, run (step utcDates) (launched oneMenu) lunch = some final ∧
      final.tabs 0 = some screen ∧ screen.pushed ≠ [] ∧ ∀ order ∈ screen.pushed,
        OnMenuOf oneMenu order.restaurantName order.products := by
  obtain ⟨final, hrun, hdistinct, ⟨screen, htab, hpushed⟩, -⟩ := lunch_runs
  obtain ⟨-, htabs, -⟩ := orders_are_on_the_menu utcDates_lawful rfl hrun hdistinct
  exact ⟨final, screen, hrun, htab, hpushed,
    fun order hmem => htabs 0 screen order htab (.inr hmem)⟩

end Program

end QFree
