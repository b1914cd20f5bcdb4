/-
  Server/Rows.lean --- the rows of menus and Basket screens.

  A completion that succeeds reloads its table, and the table asks for its cells
  afterwards.  Both classes fill their cells with `ProductTableViewCell.configure`,
  which traps if the image text of the product is no URL; the Basket screen traps,
  too, if the product of the row is not in its basket any more.

  Over a catalogue whose image texts are URLs no row of a menu traps, and no row of a
  Basket screen as long as nothing empties the basket under its rows
  (`rowsConfigure_of_matching`).
-/
import QFree.Basket.Table
import QFree.Menu.ProductCell
import QFree.Server.Catalogue

set_option autoImplicit false

namespace QFree

open QFree.Foundation QFree.FirebaseHandler

/-! ## Cells with their pictures -/

section Cells

variable {Data Image : Type} (images : ImageLibrary Data Image)

/-- `tableView(_:cellForRowAt:)` of a menu, with a cell that is used again; what the
buttons of the cell do is `MenuController.handle`. -/
def MenuController.cellForRowAt (menu : MenuController) (cell : ProductTableViewCell Image)
    (row : Nat) : Option (ProductTableViewCell Image) := do
  let product ← menu.products[row]?
  cell.configure images product ((menu.basket.lookup product).getD 0)

/-- `tableView(_:cellForRowAt:)` of the Basket screen, with the `configure` at its end. -/
def BasketViewController.configuredCellForRowAt (screen : BasketViewController) (row : Nat) :
    Option (ProductTableViewCell Image) := do
  let product ← screen.products[row]?
  let amount ← screen.basket.lookup product
  ProductTableViewCell.initial.configure images product amount

variable {images}

theorem ProductTableViewCell.configure_ne_none {product : ProductInfo}
    (hurl : images.isURL product.imageLink = true) (cell : ProductTableViewCell Image)
    (amount : Int64) : cell.configure images product amount ≠ none := by
  rw [configure, if_pos hurl]
  exact Option.some_ne_none _

theorem MenuController.cellForRowAt_ne_none {menu : MenuController}
    (hurls : ∀ product ∈ menu.products, images.isURL product.imageLink = true)
    (cell : ProductTableViewCell Image) {row : Nat} (hrow : row < menu.products.length) :
    menu.cellForRowAt images cell row ≠ none := by
  rw [cellForRowAt, List.getElem?_eq_getElem hrow, Option.bind_eq_bind, Option.bind_some]
  exact ProductTableViewCell.configure_ne_none (hurls _ (List.getElem_mem hrow)) cell _

theorem BasketViewController.configuredCellForRowAt_ne_none {screen : BasketViewController}
    (hmatch : screen.RowsMatch)
    (hurls : ∀ product ∈ screen.basket, images.isURL product.imageLink = true) {row : Nat}
    (hrow : row < screen.numberOfRowsInSection) :
    screen.configuredCellForRowAt images row ≠ none := by
  obtain ⟨product, hproduct⟩ : ∃ product, screen.products[row]? = some product :=
    ⟨_, List.getElem?_eq_getElem hrow⟩
  have hmem := (hmatch.mem_iff product).mp (List.mem_of_getElem? hproduct)
  obtain ⟨amount, hamount⟩ := Finmap.mem_iff.mp hmem
  simp only [configuredCellForRowAt, hproduct, hamount, Option.bind_eq_bind, Option.bind_some]
  exact ProductTableViewCell.configure_ne_none (hurls product hmem) _ amount

end Cells

/-- Every product that is offered has an image text that is a URL. -/
def Pictured {Data Image : Type} (images : ImageLibrary Data Image) (catalogue : Json) : Prop :=
  ∀ product, Offered catalogue product → images.isURL product.imageLink = true

namespace AccountState

/-- Every row of the menu and of the Basket screen can be configured. -/
structure RowsConfigure {Data Image : Type} (images : ImageLibrary Data Image)
    (menu screen : Nat) (state : AccountState) : Prop where
  menu : ∀ controller, state.menus menu = some controller →
    ∀ cell, ∀ row < controller.products.length, controller.cellForRowAt images cell row ≠ none
  screen : ∀ row < (state.screens screen).numberOfRowsInSection,
    (state.screens screen).configuredCellForRowAt images row ≠ none

/-! ## Rows that match -/

section Match

variable {Date : Type} {dates : DateLibrary Date} {catalogue : Json} {user : String}
  {state next : AccountState} {event : AccountEvent Date} {screen : Nat}

theorem rowsConfigure_of_matching {Data Image : Type} {images : ImageLibrary Data Image}
    (hpictured : Pictured images catalogue) (h : state.Catalogued dates catalogue user)
    (hmatch : (state.screens screen).RowsMatch) (menu : Nat) :
    state.RowsConfigure images menu screen where
  menu := fun controller hmenu cell row hrow =>
    MenuController.cellForRowAt_ne_none
      (fun product hmem => hpictured product (h.menus menu controller hmenu product hmem)) cell hrow
  screen := fun row hrow => by
    refine BasketViewController.configuredCellForRowAt_ne_none hmatch (fun product hmem => ?_) hrow
    obtain ⟨amount, hamount⟩ := Finmap.mem_iff.mp hmem
    exact hpictured product (h.baskets.screens screen product amount hamount).1

/-- Nothing empties the basket of the screen under its rows. -/
def KeepsRows (screen : Nat) (state : AccountState) : AccountEvent Date → Prop
  | .screenBasketDelivered _ _ => (state.screens screen).products = []
  | .okButtonPressed _ => False
  | _ => True

/-- The event puts no basket on a Basket screen, and no number. -/
def LeavesScreens : AccountEvent Date → Bool
  | .screenBasketDelivered _ _ | .okButtonPressed _ | .orderDelivered _ _ _ _ => false
  | _ => true

theorem keepsRows_of_leaves (h : LeavesScreens event = true) (screen : Nat)
    (state : AccountState) : KeepsRows screen state event := by
  cases event with
  | screenBasketDelivered | okButtonPressed => cases h
  | _ => trivial

theorem read_screens {id : Nat} {task : ReadTask}
    {guards : Except NetworkingError (List String)}
    (hread : state.read id task guards = some next) : next.screens = state.screens := by
  rcases read_eq_some hread with rfl | ⟨-, rfl⟩ <;> rfl

theorem screens_of_leaves (hevent : LeavesScreens event = true)
    (hstep : state.step dates user event = some next) : next.screens = state.screens := by
  cases transition_of_step hstep with
  | menuAppeared hbasket hproducts => exact (read_screens hproducts).trans (read_screens hbasket)
  | screenAsked hread | orderPressed _ hread => exact read_screens hread
  | restaurantsDelivered _ hread => exact (read_screens hread).trans rfl
  | okPressed | screenBasketDelivered | orderDelivered => cases hevent
  | _ => rfl

/-- The rows go on matching. -/
theorem rowsMatch_step (hmatch : (state.screens screen).RowsMatch)
    (hkeeps : KeepsRows screen state event) (hstep : state.step dates user event = some next) :
    (next.screens screen).RowsMatch := by
  by_cases hleaves : LeavesScreens event = true
  · rwa [screens_of_leaves hleaves hstep]
  cases transition_of_step hstep with
  | @screenBasketDelivered id shown keys value basket hrequest hbasket hkeys =>
      rw [setScreen_screens]
      by_cases hscreen : screen = shown
      · subst hscreen
        rw [Function.update_self]
        have hloaded : (state.screens screen).handle (.getBasketCompleted (.ok basket) keys) =
            some ((state.screens screen).basketCompletion keys (.ok basket)) := if_pos hkeys
        exact (BasketViewController.rowsMatch_handle_iff hmatch hloaded).mpr fun _ => hkeeps
      · rwa [Function.update_of_ne hscreen]
  | orderDelivered =>
      refine (congrArg BasketViewController.RowsMatch (Function.update_apply _ _ _ screen)).mpr ?_
      split
      · rename_i hscreen
        subst hscreen
        exact ⟨hmatch.once, hmatch.mem_iff, hmatch.shown⟩
      · exact hmatch
  | okPressed => exact absurd hkeeps id
  | _ => exact absurd rfl hleaves

end Match

end AccountState

end QFree
