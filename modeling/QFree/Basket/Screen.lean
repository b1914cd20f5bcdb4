/-
  Basket/Screen.lean --- `class BasketViewController`.

  The screen keeps a copy of the basket and, for its table, a list of the
  products of the last nonempty one.  `confirmation` is the number shown by the
  `OrderIsProcessedViewController` that lies over the screen, if one does; while
  it does, a second one cannot be presented and the order button cannot be
  pressed.
-/
import QFree.Model.Entities

set_option autoImplicit false

namespace QFree

open QFree.Foundation

/-- The fields of the screen. -/
structure BasketViewController where
  basket : Basket
  products : List ProductInfo
  orderButtonIsHidden : Bool
  confirmation : Option Int64
  deriving DecidableEq

namespace BasketViewController

/-- The screen before its first `viewWillAppear`. -/
def initial : BasketViewController where
  basket := ∅
  products := []
  orderButtonIsHidden := true
  confirmation := none

/-- `updateUI`; `keys` is `basket.map { $0.key }`. -/
def updateUI (screen : BasketViewController) (keys : List ProductInfo) : BasketViewController :=
  { screen with
    orderButtonIsHidden := screen.basket = ∅
    products := if screen.basket = ∅ then screen.products else keys }

/-- The completion of `getBasket`. -/
def basketCompletion (screen : BasketViewController) (keys : List ProductInfo) :
    Except NetworkingError Basket → BasketViewController
  | .ok basket => { screen with basket := basket }.updateUI keys
  | .error _ => screen

/-- The completion of `makeOrder`: `showOrderIsProcessed(orderNumber:)`. -/
def orderCompletion (screen : BasketViewController) (number : Int64) :
    Option NetworkingError → BasketViewController
  | none => { screen with confirmation := screen.confirmation.or (some number) }
  | some _ => screen

/-- `okButtonAction`; the emptied basket has no keys. -/
def okButtonAction (screen : BasketViewController) : BasketViewController :=
  { screen with confirmation := none, basket := ∅ }.updateUI []

/-- The order button can be pressed. -/
def CanOrder (screen : BasketViewController) : Prop :=
  screen.orderButtonIsHidden = false ∧ screen.confirmation = none

instance (screen : BasketViewController) : Decidable screen.CanOrder :=
  inferInstanceAs (Decidable (_ ∧ _))

@[simp] theorem orderCompletion_basket (screen : BasketViewController) (number : Int64)
    (error : Option NetworkingError) :
    (screen.orderCompletion number error).basket = screen.basket := by
  cases error <;> rfl

end BasketViewController

end QFree
