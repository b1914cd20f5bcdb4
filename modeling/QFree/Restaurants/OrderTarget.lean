/-
  Restaurants/OrderTarget.lean --- an order goes to the restaurant that was
  opened.

  The restaurant travels as a row, as the index of its first occurrence in the
  list, as the decimal text of the index, as the identifier of the products of
  its menu, and as an index again.  The invariant is that the basket of the menu
  belongs to the identifier; then every key of the basket leads back to the
  index, so it does not matter which key the order starts from.
-/
import QFree.Networking.OrderWrites
import QFree.Restaurants.Screen

set_option autoImplicit false

namespace QFree

open QFree.Foundation QFree.FirebaseHandler

/-- A list of restaurants as an array holds it: its `count` is an `Int`. -/
structure RestaurantList where
  elements : List Restaurant
  count_lt : elements.length < 2 ^ 63

/-- The event loads this list or taps a row of the category bar. -/
def RestaurantVCEvent.Of (restaurants : List Restaurant) : RestaurantVCEvent → Prop
  | .update loaded => loaded = restaurants
  | .categoryTapped row => row < Category.allCases.length

/-- The event delivers to the menu nothing but what the server holds for this
restaurant: its products, and baskets of it. -/
def MenuEvent.Of (restaurantID : String) : MenuEvent → Prop
  | .basketResult (.ok basket) => basket.BelongsTo restaurantID
  | .productsResult (.ok products) =>
      ∃ value, getProductsByIDRestaurantResponse restaurantID value = some products
  | _ => True

/-- An order of these entries can be made, and its info names the restaurant. -/
def OrderGoesTo {Date : Type} (dates : DateLibrary Date) (restaurants : List Restaurant)
    (entries : List (ProductInfo × Int64)) (restaurant : Restaurant) : Prop :=
  ∀ user number now later readyDate, dates.addingMinutes 30 now = some readyDate →
    ∃ writes, makeOrderResponse dates user number restaurants entries now later = some writes ∧
      ∀ database, ∃ info,
        asDictionary (((Write.applyAll database writes).get
          (orderPath user (getTimestamp dates later))).child "info") = some info ∧
        stringField "name" info = some restaurant.name ∧
        stringField "image" info = some restaurant.image

/-! ## The screen -/

/-- After a run of such events the screen shows restaurants of the list. -/
theorem exists_screen (restaurants : List Restaurant) {taps : List RestaurantVCEvent}
    (h : ∀ event ∈ taps, event.Of restaurants) :
    ∃ screen, run RestaurantVC.handle RestaurantVC.initial taps = some screen ∧
      screen.Shown ∧ (screen.restaurants = [] ∨ screen.restaurants = restaurants) := by
  refine exists_run_of_forall_mem (RestaurantVCEvent.Of restaurants)
    (fun screen : RestaurantVC => screen.Shown ∧
      (screen.restaurants = [] ∨ screen.restaurants = restaurants))
    ?_ ⟨RestaurantVC.shown_initial, Or.inl rfl⟩ h
  rintro screen event ⟨hshown, hlist⟩ hof
  cases event with
  | update loaded => exact ⟨_, rfl, fun restaurant hmem => hmem, Or.inr hof⟩
  | categoryTapped row =>
      obtain ⟨next, hnext, hsame, hshownNext⟩ := screen.exists_categoryTapped hof
      refine ⟨next, ?_, hshownNext, hsame ▸ hlist⟩
      have hrow : row < Category.allCases.length := hof
      rw [RestaurantVC.handle, if_pos hrow, hnext]

/-! ## The menu -/

theorem delivers_of_menuEventOf {restaurantID : String} {event : MenuEvent}
    (h : event.Of restaurantID) :
    MenuController.Delivers restaurantID (fun basket => basket.BelongsTo restaurantID) event := by
  cases event with
  | basketResult result =>
      cases result with
      | ok basket => exact h
      | error error => trivial
  | productsResult result =>
      cases result with
      | ok products =>
          obtain ⟨value, hvalue⟩ := h
          exact restaurantID_of_getProductsResponse hvalue
      | error error => trivial
  | _ => trivial

/-- The basket of a menu opened for a restaurant belongs to it. -/
theorem menu_basket_belongsTo {restaurantID : String} {events : List MenuEvent}
    {menu : MenuController} (h : ∀ event ∈ events, event.Of restaurantID)
    (hrun : run MenuController.handle (MenuController.opened restaurantID) events = some menu) :
    menu.basket.BelongsTo restaurantID := by
  have hinv := run_invariant_of_along
    (fun _ event => MenuEvent.Of restaurantID event)
    (fun menu : MenuController => menu.restaurantID = restaurantID ∧ menu.Consistent ∧
      menu.basket.BelongsTo restaurantID)
    (by
      rintro menu event next ⟨rfl, hconsistent, hbelongs⟩ hof hstep
      have hdelivers := delivers_of_menuEventOf hof
      have hsingle : MenuController.Delivers menu.restaurantID Basket.SingleRestaurant event :=
        hdelivers.imp fun basket hof => ⟨menu.restaurantID, hof⟩
      have hid := MenuController.handle_restaurantID hstep
      refine ⟨hid, MenuController.consistent_handle hconsistent hsingle hstep, ?_⟩
      exact hid ▸ MenuController.belongsTo_handle hconsistent hdelivers hstep hbelongs)
    ⟨rfl, MenuController.consistent_opened restaurantID, Basket.belongsTo_empty restaurantID⟩
    (along_of_forall_mem _ h) hrun
  exact hinv.2.2

/-! ## The order -/

/-- A first key with the text of the index leads to the restaurant. -/
theorem orderRestaurant_of_first (list : RestaurantList) {index : Nat} {restaurant : Restaurant}
    (hindex : list.elements[index]? = some restaurant) {first : ProductInfo × Int64}
    (hfirst : first.1.restaurantID = index.repr) (rest : List (ProductInfo × Int64)) :
    orderRestaurant list.elements (first :: rest) = some restaurant := by
  have hlt : index < list.elements.length := (List.getElem?_eq_some_iff.mp hindex).1
  obtain ⟨x, hx, hvalue⟩ := parseInt_repr_nat (hlt.trans list.count_lt)
  have hposition : restaurantAt list.elements x = some restaurant := by
    rw [restaurantAt, hvalue, if_pos (Int.natCast_nonneg index), Int.toNat_natCast, hindex]
  simp [orderRestaurant, hfirst, hx, hposition]

/-- Any first key of a basket that belongs to the index leads to the restaurant. -/
theorem orderRestaurant_of_belongsTo (list : RestaurantList) {index : Nat}
    {restaurant : Restaurant} (hindex : list.elements[index]? = some restaurant) {basket : Basket}
    (hbelongs : basket.BelongsTo index.repr) {entries : List (ProductInfo × Int64)}
    (hentries : basket.Enumerates entries) (hnonempty : entries ≠ []) :
    orderRestaurant list.elements entries = some restaurant := by
  obtain ⟨first, rest, rfl⟩ := List.exists_cons_of_ne_nil hnonempty
  have hmem : first.1 ∈ basket := hentries.key_mem List.mem_cons_self
  exact orderRestaurant_of_first list hindex (hbelongs first.1 hmem) rest

theorem orderGoesTo_of_orderRestaurant {Date : Type} (dates : DateLibrary Date)
    {restaurants : List Restaurant} {entries : List (ProductInfo × Int64)}
    {restaurant : Restaurant} (h : orderRestaurant restaurants entries = some restaurant) :
    OrderGoesTo dates restaurants entries restaurant := by
  intro user number now later readyDate hready
  refine ⟨orderWrites user number restaurant entries (getTimestamp dates later)
    (getTimestamp dates readyDate), ?_, fun database => ?_⟩
  · simp [makeOrderResponse, h, hready]
  · rw [applyAll_orderWrites _ _ _ _ _ _ _ (ne_nil_of_orderRestaurant h), orderPath_after_order,
      orderEntry_info]
    exact ⟨_, rfl, rfl, rfl⟩

/-- A bakery and the sample restaurant, which the list has twice. -/
def sampleList : RestaurantList :=
  ⟨[⟨"Cofix", "c.png", "55.75", "37.65", [.bakery]⟩, sampleRestaurant, sampleRestaurant], by decide⟩

/-- A product of the second restaurant of the list. -/
def sampleLatte : ProductInfo := ⟨"Latte", 199, "l.png", [.coffee], "1"⟩

end QFree
