/-
  Menu/Controller.lean --- `class RestaurantMenuTableViewController`.

  The controller keeps the products of its restaurant and a copy of the basket.
  Its handlers are the two completions and the taps; what it asks the server for
  and posts to it is the business of its callers.

  A tap on a row runs the closure that `cellForRowAt` made for the row.  The
  closure looks the product up again in `products`, so a handler takes the row.
  `checkRestaurantId` looks at the first key the dictionary yields; the handler
  takes the keys in the order in which they are met.

  `showNoInternetAlert` of this class presents its alert on a controller that is
  not on the screen, so nothing appears and its action is never run.
-/
import QFree.Model.Entities

set_option autoImplicit false

namespace QFree

open QFree.Foundation

/-- The fields of the controller.  `alert` says that the question of
`showAlertDifferentId` is on the screen. -/
structure MenuController where
  restaurantID : String
  products : List ProductInfo
  basket : Basket
  alert : Bool
  deriving DecidableEq

/-- What is delivered to the controller or tapped by its user. -/
inductive MenuEvent where
  | basketResult (result : Except NetworkingError Basket)
  | productsResult (result : Except NetworkingError (List ProductInfo))
  | add (row : Nat) (keys : List ProductInfo)
  | minus (row : Nat)
  | clear
  | cancel

/-- The event is a tap of the user. -/
def MenuEvent.isTap : MenuEvent → Bool
  | .basketResult _ | .productsResult _ => false
  | _ => true

namespace MenuController

/-- A controller as `pushMenuVC` makes it. -/
def opened (restaurantID : String) : MenuController where
  restaurantID := restaurantID
  products := []
  basket := ∅
  alert := false

/-- `checkRestaurantId`: the loop returns at the first key. -/
def checkRestaurantId (menu : MenuController) : List ProductInfo → Bool
  | [] => true
  | p :: _ => p.restaurantID = menu.restaurantID

/-- `buttonAddCallback`; a missing amount is first set to 0. -/
def buttonAddCallback (menu : MenuController) (row : Nat) (keys : List ProductInfo) :
    Option MenuController :=
  if menu.checkRestaurantId keys then do
    let product ← menu.products[row]?
    let amount ← addTrapping ((menu.basket.lookup product).getD 0) 1
    return { menu with basket := menu.basket.insert product amount }
  else some { menu with alert := true }

/-- `buttonMinusCallback`; its last line unwraps the amount of the product, so it
traps when there is none. -/
def buttonMinusCallback (menu : MenuController) (row : Nat) : Option MenuController := do
  let product ← menu.products[row]?
  let amount ← menu.basket.lookup product
  if amount ≠ 0 then
    let less ← subTrapping amount 1
    return { menu with basket := menu.basket.insert product less }
  else return menu

/-- The completion of `getBasket`. -/
def basketCompletion (menu : MenuController) : Except NetworkingError Basket → MenuController
  | .ok basket => { menu with basket := basket }
  | .error _ => menu

/-- The completion of `getProductsByIDRestaurant`. -/
def productsCompletion (menu : MenuController) :
    Except NetworkingError (List ProductInfo) → MenuController
  | .ok products => { menu with products := products }
  | .error _ => menu

/-- One event.  While the alert is shown only its two buttons can be tapped. -/
def handle (menu : MenuController) : MenuEvent → Option MenuController
  | .basketResult result => some (menu.basketCompletion result)
  | .productsResult result => some (menu.productsCompletion result)
  | .add row keys =>
      if menu.alert = false ∧ menu.basket.ListsKeys keys then menu.buttonAddCallback row keys
      else none
  | .minus row => if menu.alert = false then menu.buttonMinusCallback row else none
  | .clear => if menu.alert then some { menu with basket := ∅, alert := false } else none
  | .cancel => if menu.alert then some { menu with alert := false } else none

/-! ## What a tap can do -/

variable {menu next : MenuController}

/-- An add puts one more of a product of the menu into the basket, or asks. -/
theorem buttonAddCallback_eq_some {row : Nat} {keys : List ProductInfo} :
    menu.buttonAddCallback row keys = some next ↔
      (menu.checkRestaurantId keys = true ∧ ∃ product amount, menu.products[row]? = some product ∧
        addTrapping ((menu.basket.lookup product).getD 0) 1 = some amount ∧
        next = { menu with basket := menu.basket.insert product amount }) ∨
      (menu.checkRestaurantId keys = false ∧ next = { menu with alert := true }) := by
  unfold buttonAddCallback
  cases hcheck : menu.checkRestaurantId keys with
  | true =>
      simp only [if_true, Option.bind_eq_bind, Option.bind_eq_some_iff, Option.pure_def,
        Option.some.injEq, true_and, Bool.true_eq_false, false_and, or_false]
      constructor
      · rintro ⟨product, hproduct, amount, hamount, rfl⟩
        exact ⟨product, amount, hproduct, hamount, rfl⟩
      · rintro ⟨product, amount, hproduct, hamount, rfl⟩
        exact ⟨product, hproduct, amount, hamount, rfl⟩
  | false => simp [eq_comm]

/-- A minus takes one of a product that is in the basket, unless none is left. -/
theorem buttonMinusCallback_eq_some {row : Nat} :
    menu.buttonMinusCallback row = some next ↔
      ∃ product amount, menu.products[row]? = some product ∧
        menu.basket.lookup product = some amount ∧
        ((amount = 0 ∧ next = menu) ∨
          (amount ≠ 0 ∧ ∃ less, subTrapping amount 1 = some less ∧
            next = { menu with basket := menu.basket.insert product less })) := by
  unfold buttonMinusCallback
  simp only [Option.bind_eq_bind, Option.bind_eq_some_iff]
  constructor
  · rintro ⟨product, hproduct, amount, hamount, hrest⟩
    refine ⟨product, amount, hproduct, hamount, ?_⟩
    split at hrest
    · rename_i hne
      obtain ⟨less, hless, hnext⟩ := Option.bind_eq_some_iff.mp hrest
      exact Or.inr ⟨hne, less, hless, (Option.some.inj hnext).symm⟩
    · rename_i hzero
      exact Or.inl ⟨not_not.mp hzero, (Option.some.inj hrest).symm⟩
  · rintro ⟨product, amount, hproduct, hamount, ⟨hzero, rfl⟩ | ⟨hne, less, hless, rfl⟩⟩
    · exact ⟨product, hproduct, amount, hamount, by simp [hzero]⟩
    · exact ⟨product, hproduct, amount, hamount, by simp [hne, hless]⟩

/-- The outcomes of an event. -/
inductive Outcome (menu : MenuController) : MenuEvent → MenuController → Prop where
  | basketLoaded (basket : Basket) :
      Outcome menu (.basketResult (.ok basket)) { menu with basket := basket }
  | basketFailed (error : NetworkingError) : Outcome menu (.basketResult (.error error)) menu
  | productsLoaded (products : List ProductInfo) :
      Outcome menu (.productsResult (.ok products)) { menu with products := products }
  | productsFailed (error : NetworkingError) : Outcome menu (.productsResult (.error error)) menu
  | added {row : Nat} {keys : List ProductInfo} {product : ProductInfo} {amount : Int64}
      (hkeys : menu.basket.ListsKeys keys) (hcheck : menu.checkRestaurantId keys = true)
      (hproduct : menu.products[row]? = some product)
      (hamount : addTrapping ((menu.basket.lookup product).getD 0) 1 = some amount) :
      Outcome menu (.add row keys) { menu with basket := menu.basket.insert product amount }
  | asked {row : Nat} {keys : List ProductInfo} (hkeys : menu.basket.ListsKeys keys)
      (hcheck : menu.checkRestaurantId keys = false) :
      Outcome menu (.add row keys) { menu with alert := true }
  | lessened {row : Nat} {product : ProductInfo} {amount less : Int64}
      (hproduct : menu.products[row]? = some product)
      (hamount : menu.basket.lookup product = some amount) (hne : amount ≠ 0)
      (hless : subTrapping amount 1 = some less) :
      Outcome menu (.minus row) { menu with basket := menu.basket.insert product less }
  | noneLeft {row : Nat} {product : ProductInfo} (hproduct : menu.products[row]? = some product)
      (hamount : menu.basket.lookup product = some 0) : Outcome menu (.minus row) menu
  | cleared (halert : menu.alert = true) :
      Outcome menu .clear { menu with basket := ∅, alert := false }
  | cancelled (halert : menu.alert = true) : Outcome menu .cancel { menu with alert := false }

theorem outcome_of_handle {event : MenuEvent} (h : menu.handle event = some next) :
    Outcome menu event next := by
  cases event with
  | basketResult result =>
      rw [← Option.some.inj h]
      cases result with
      | ok basket => exact .basketLoaded basket
      | error error => exact .basketFailed error
  | productsResult result =>
      rw [← Option.some.inj h]
      cases result with
      | ok products => exact .productsLoaded products
      | error error => exact .productsFailed error
  | add row keys =>
      simp only [handle, Option.ite_none_right_eq_some] at h
      obtain ⟨⟨-, hkeys⟩, h⟩ := h
      rcases buttonAddCallback_eq_some.mp h with
        ⟨hcheck, product, amount, hproduct, hamount, rfl⟩ | ⟨hcheck, rfl⟩
      · exact .added hkeys hcheck hproduct hamount
      · exact .asked hkeys hcheck
  | minus row =>
      simp only [handle, Option.ite_none_right_eq_some] at h
      obtain ⟨product, amount, hproduct, hamount, ⟨rfl, rfl⟩ | ⟨hne, less, hless, rfl⟩⟩ :=
        buttonMinusCallback_eq_some.mp h.2
      · exact .noneLeft hproduct hamount
      · exact .lessened hproduct hamount hne hless
  | clear =>
      simp only [handle, Option.ite_none_right_eq_some, Option.some.injEq] at h
      exact h.2 ▸ .cleared h.1
  | cancel =>
      simp only [handle, Option.ite_none_right_eq_some, Option.some.injEq] at h
      exact h.2 ▸ .cancelled h.1

/-- The identifier of the restaurant never changes. -/
theorem handle_restaurantID {event : MenuEvent} (h : menu.handle event = some next) :
    next.restaurantID = menu.restaurantID := by
  cases outcome_of_handle h <;> rfl

/-! ## One restaurant -/

/-- The products are of the controller's restaurant, the basket is of one
restaurant, not necessarily this one. -/
structure Consistent (menu : MenuController) : Prop where
  products_belong : ∀ product ∈ menu.products, product.restaurantID = menu.restaurantID
  basket_single : menu.basket.SingleRestaurant

/-- The event delivers nothing but products of the restaurant and baskets of one
restaurant. -/
def Delivers (restaurantID : String) (loaded : Basket → Prop) : MenuEvent → Prop
  | .basketResult (.ok basket) => loaded basket
  | .productsResult (.ok products) => ∀ product ∈ products, product.restaurantID = restaurantID
  | _ => True

theorem Delivers.imp {restaurantID : String} {loaded other : Basket → Prop} {event : MenuEvent}
    (himp : ∀ basket, loaded basket → other basket) (h : Delivers restaurantID loaded event) :
    Delivers restaurantID other event := by
  cases event with
  | basketResult result =>
      cases result with
      | ok basket => exact himp basket h
      | error error => trivial
  | productsResult result =>
      cases result with
      | ok products => exact h
      | error error => trivial
  | _ => trivial

theorem delivers_of_isTap {restaurantID : String} {loaded : Basket → Prop} {event : MenuEvent}
    (h : event.isTap = true) : Delivers restaurantID loaded event := by
  cases event with
  | basketResult | productsResult => cases h
  | _ => trivial

theorem consistent_opened (restaurantID : String) : (opened restaurantID).Consistent :=
  ⟨fun _ hmem => absurd hmem List.not_mem_nil, Basket.singleRestaurant_empty⟩

/-- If the first key has the controller's identifier, so has every other. -/
theorem belongsTo_of_checkRestaurantId {keys : List ProductInfo}
    (hkeys : menu.basket.ListsKeys keys) (hsingle : menu.basket.SingleRestaurant)
    (hcheck : menu.checkRestaurantId keys = true) :
    menu.basket.BelongsTo menu.restaurantID := by
  intro product hmem
  rw [← hkeys.mem_iff] at hmem
  cases keys with
  | nil => cases hmem
  | cons p rest =>
      obtain ⟨restaurantID, hbelongs⟩ := hsingle
      have hfirst := hbelongs p (hkeys.mem_iff.mp List.mem_cons_self)
      have hother := hbelongs product (hkeys.mem_iff.mp hmem)
      have heq : p.restaurantID = menu.restaurantID := of_decide_eq_true hcheck
      rw [hother, ← hfirst, heq]

/-- A property of baskets that the empty one has, that inserting a product of the
restaurant keeps, and that every loaded basket has, is kept by every event. -/
theorem handle_keeps {event : MenuEvent} {Kept : Basket → Prop} (hconsistent : menu.Consistent)
    (hdelivers : Delivers menu.restaurantID Kept event) (h : menu.handle event = some next)
    (hempty : Kept ∅)
    (hinsert : ∀ product amount, product.restaurantID = menu.restaurantID →
      menu.basket.BelongsTo menu.restaurantID → Kept (menu.basket.insert product amount))
    (hkept : Kept menu.basket) : Kept next.basket := by
  cases outcome_of_handle h with
  | basketLoaded basket => exact hdelivers
  | added hkeys hcheck hproduct hamount =>
      exact hinsert _ _ (hconsistent.products_belong _ (List.mem_of_getElem? hproduct))
        (belongsTo_of_checkRestaurantId hkeys hconsistent.basket_single hcheck)
  | lessened hproduct hamount hne hless =>
      -- the product is in the basket already, so the basket is of its restaurant
      have hproductID := hconsistent.products_belong _ (List.mem_of_getElem? hproduct)
      obtain ⟨restaurantID, hbelongs⟩ := hconsistent.basket_single
      have hid : restaurantID = menu.restaurantID := by
        rw [← hproductID, hbelongs _ (Finmap.mem_of_lookup_eq_some hamount)]
      exact hinsert _ _ hproductID (hid ▸ hbelongs)
  | cleared halert => exact hempty
  | basketFailed | productsLoaded | productsFailed | asked | noneLeft | cancelled => exact hkept

/-- Every event keeps the controller consistent. -/
theorem consistent_handle {event : MenuEvent} (hconsistent : menu.Consistent)
    (hdelivers : Delivers menu.restaurantID Basket.SingleRestaurant event)
    (h : menu.handle event = some next) : next.Consistent := by
  constructor
  · rw [handle_restaurantID h]
    cases outcome_of_handle h with
    | productsLoaded products => exact hdelivers
    | _ => exact hconsistent.products_belong
  · exact handle_keeps hconsistent hdelivers h Basket.singleRestaurant_empty
      (fun product amount hproduct hbelongs =>
        ⟨menu.restaurantID, Basket.belongsTo_insert hbelongs hproduct amount⟩)
      hconsistent.basket_single

/-- Every event keeps a basket of this restaurant a basket of this restaurant. -/
theorem belongsTo_handle {event : MenuEvent} (hconsistent : menu.Consistent)
    (hdelivers : Delivers menu.restaurantID (fun basket => basket.BelongsTo menu.restaurantID)
      event) (h : menu.handle event = some next)
    (hbelongs : menu.basket.BelongsTo menu.restaurantID) :
    next.basket.BelongsTo next.restaurantID := by
  rw [handle_restaurantID h]
  exact handle_keeps hconsistent hdelivers h (Basket.belongsTo_empty _)
    (fun product amount hproduct hof => Basket.belongsTo_insert hof hproduct amount) hbelongs

end MenuController

end QFree
