/-
  Basket/Table.lean --- the rows of the Basket screen.

  The table asks `products` for its number of rows and `basket` for the amount of
  each row.  `updateUI` lists the keys of the basket anew unless the basket is
  empty, and then the old rows stay: each of them looks up a product that is gone.

  So rows and basket agree in every state exactly when nothing empties the basket
  under a table that has rows (`rows_match_basket_iff`).
-/
import QFree.Basket.Screen
import QFree.Foundation.Run

set_option autoImplicit false

namespace QFree

open QFree.Foundation

/-- What happens to the screen. -/
inductive BasketScreenEvent where
  /-- the completion of `getBasket`, and `basket.map { $0.key }` -/
  | getBasketCompleted (result : Except NetworkingError Basket) (keys : List ProductInfo)
  | makeOrderCompleted (number : Int64) (error : Option NetworkingError)
  /-- the OK button of the confirmation screen -/
  | okButtonPressed

namespace BasketViewController

/-- One event. -/
def handle (screen : BasketViewController) : BasketScreenEvent → Option BasketViewController
  | .getBasketCompleted (.ok basket) keys =>
      if basket.ListsKeys keys then some (screen.basketCompletion keys (.ok basket)) else none
  | .getBasketCompleted (.error error) keys => some (screen.basketCompletion keys (.error error))
  | .makeOrderCompleted number error => some (screen.orderCompletion number error)
  | .okButtonPressed => if screen.confirmation ≠ none then some screen.okButtonAction else none

/-! ## The table -/

def numberOfRowsInSection (screen : BasketViewController) : Nat := screen.products.length

/-- The texts of a row. -/
structure Row where
  name : String
  price : String
  amount : String
  deriving DecidableEq

/-- `cellForRowAt`. -/
def cellForRowAt (screen : BasketViewController) (row : Nat) : Option Row := do
  let product ← screen.products[row]?
  let amount ← screen.basket.lookup product
  return {
    name := product.name
    price := intText product.price ++ "₽"
    amount := intText amount
  }

/-- The rows are the keys of the basket, each once, and each row can be shown. -/
structure RowsMatch (screen : BasketViewController) : Prop where
  once : screen.products.Nodup
  mem_iff : ∀ product, product ∈ screen.products ↔ product ∈ screen.basket
  shown : ∀ row < screen.numberOfRowsInSection, screen.cellForRowAt row ≠ none

/-- A row whose product is in the basket can be shown. -/
theorem cellForRowAt_ne_none {screen : BasketViewController}
    (h : ∀ product ∈ screen.products, product ∈ screen.basket) {row : Nat}
    (hrow : row < screen.numberOfRowsInSection) : screen.cellForRowAt row ≠ none := by
  have hproduct : screen.products[row]? = some screen.products[row] :=
    List.getElem?_eq_getElem hrow
  obtain ⟨amount, hamount⟩ := Finmap.mem_iff.mp (h _ (List.getElem_mem hrow))
  rw [cellForRowAt, hproduct, Option.bind_eq_bind, Option.bind_some, hamount]
  exact Option.some_ne_none _

theorem rowsMatch_iff {screen : BasketViewController} :
    screen.RowsMatch ↔ screen.basket.ListsKeys screen.products := by
  constructor
  · intro h
    exact Dictionary.listsKeys_iff.mpr ⟨h.once, h.mem_iff⟩
  · intro h
    obtain ⟨hnodup, hmem⟩ := Dictionary.listsKeys_iff.mp h
    exact ⟨hnodup, hmem, fun row hrow => cellForRowAt_ne_none (fun p => (hmem p).mp) hrow⟩

/-! ## Runs -/

/-- Nothing empties the basket under a table that has rows. -/
def Refreshes (screen : BasketViewController) : BasketScreenEvent → Prop
  | .getBasketCompleted (.ok basket) _ => basket = ∅ → screen.products = []
  | .okButtonPressed => screen.products = []
  | _ => True

instance (screen : BasketViewController) : DecidablePred screen.Refreshes
  | .getBasketCompleted (.ok basket) _ =>
      inferInstanceAs (Decidable (basket = ∅ → screen.products = []))
  | .okButtonPressed => inferInstanceAs (Decidable (screen.products = []))
  | .getBasketCompleted (.error _) _ | .makeOrderCompleted _ _ => .isTrue trivial

theorem rowsMatch_initial : initial.RowsMatch := rowsMatch_iff.mpr rfl

/-- `updateUI` leaves rows that match, unless it is called with an empty basket
over old rows. -/
theorem rowsMatch_updateUI_iff {screen : BasketViewController} {keys : List ProductInfo}
    (hkeys : screen.basket.ListsKeys keys) :
    (screen.updateUI keys).RowsMatch ↔ (screen.basket = ∅ → screen.products = []) := by
  rw [rowsMatch_iff, updateUI]
  by_cases hempty : screen.basket = ∅
  · simp only [hempty, if_true, forall_const]
    exact Dictionary.listsKeys_empty_iff
  · simp only [hempty, if_false, false_imp_iff, iff_true]
    exact hkeys

/-- An event leaves rows that match exactly when it does not empty the basket under
a table that has rows. -/
theorem rowsMatch_handle_iff {screen next : BasketViewController} {event : BasketScreenEvent}
    (h : screen.RowsMatch) (hnext : screen.handle event = some next) :
    next.RowsMatch ↔ screen.Refreshes event := by
  cases event with
  | getBasketCompleted result keys =>
      cases result with
      | error error =>
          obtain rfl := Option.some.inj hnext
          exact iff_of_true h trivial
      | ok basket =>
          obtain ⟨hkeys, hloaded⟩ := Option.ite_none_right_eq_some.mp hnext
          obtain rfl := Option.some.inj hloaded
          have hloadedKeys :
              ({ screen with basket := basket } : BasketViewController).basket.ListsKeys keys :=
            hkeys
          exact rowsMatch_updateUI_iff hloadedKeys
  | makeOrderCompleted number error =>
      obtain rfl := Option.some.inj hnext
      refine iff_of_true ?_ trivial
      cases error with
      | none => exact ⟨h.once, h.mem_iff, h.shown⟩
      | some error => exact h
  | okButtonPressed =>
      obtain ⟨-, hpressed⟩ := Option.ite_none_right_eq_some.mp hnext
      obtain rfl := Option.some.inj hpressed
      have hempty : (∅ : Basket).ListsKeys [] := Dictionary.listsKeys_empty_iff.mpr rfl
      rw [okButtonAction, rowsMatch_updateUI_iff hempty]
      exact forall_prop_of_true rfl

/-- In every run the rows match the basket, all along, exactly when nothing empties
the basket under a table that has rows. -/
theorem rows_match_basket_iff {events : List BasketScreenEvent} {final : BasketViewController}
    (hrun : run handle initial events = some final) :
    (∀ k reached, run handle initial (events.take k) = some reached → reached.RowsMatch) ↔
      Along handle Refreshes initial events :=
  forall_take_iff_along Refreshes RowsMatch RowsMatch
    (fun _ _ _ h hrefreshes hnext => (rowsMatch_handle_iff h hnext).mpr hrefreshes)
    (fun _ h => h)
    (fun _ _ _ h hnext hmatch => (rowsMatch_handle_iff h hnext).mp hmatch)
    rowsMatch_initial hrun

/-- The product of the baskets below. -/
def tableLatte : ProductInfo := ⟨"Latte", 199, "l.png", [.coffee], "0"⟩

/-- An empty basket is loaded, then one of two lattes. -/
theorem rows_match_basket_iff_sample :
    ∃ final, run handle initial [.getBasketCompleted (.ok ∅) [],
        .getBasketCompleted (.ok (Finmap.insert tableLatte 2 ∅)) [tableLatte]] = some final ∧
      final.RowsMatch := by
  have hsome : (run handle initial [.getBasketCompleted (.ok ∅) [],
      .getBasketCompleted (.ok (Finmap.insert tableLatte 2 ∅)) [tableLatte]]).isSome = true := by
    decide
  obtain ⟨final, hrun⟩ := Option.isSome_iff_exists.mp hsome
  exact ⟨final, hrun, (rows_match_basket_iff hrun).mpr (by decide) 2 final hrun⟩

/-- After the OK button the row of the ordered latte is still there, and cannot be
shown. -/
theorem ok_leaves_rows :
    ∃ final, run handle initial
        [.getBasketCompleted (.ok (Finmap.insert tableLatte 2 ∅)) [tableLatte],
          .makeOrderCompleted 17 none, .okButtonPressed] = some final ∧
      0 < final.numberOfRowsInSection ∧ final.cellForRowAt 0 = none ∧ ¬final.RowsMatch := by
  have hany : (run handle initial
      [.getBasketCompleted (.ok (Finmap.insert tableLatte 2 ∅)) [tableLatte],
        .makeOrderCompleted 17 none, .okButtonPressed]).any
      (fun final => decide (0 < final.numberOfRowsInSection ∧ final.cellForRowAt 0 = none)) =
        true := by decide
  obtain ⟨final, hrun, hfinal⟩ := (Option.any_eq_true _ _).mp hany
  obtain ⟨hrows, hcell⟩ := of_decide_eq_true hfinal
  exact ⟨final, hrun, hrows, hcell, fun hmatch => hmatch.shown 0 hrows hcell⟩

end BasketViewController

end QFree
