/-
  Menu/Labels.lean --- the amounts on the rows of a menu.

  `cellForRowAt` writes the amount of a row into the label of its cell; after that
  the label is written by the taps on this very row only.  `reloadData`, which every
  successful completion ends with, drops all cells; the OK of `showAlertDifferentId`
  empties the basket and reloads nothing.

  So a visible label goes stale in exactly two ways: another visible row has the same
  product and is tapped, or the basket is emptied while the label shows something else
  than zero (`labels_tell_amounts_iff`).
-/
import QFree.Foundation.Run
import QFree.Menu.Controller

set_option autoImplicit false

namespace QFree

open QFree.Foundation

/-- A menu with the text of the `amountLabel` of each visible row. -/
structure LabelledMenu where
  menu : MenuController
  labels : Nat → Option String

/-- What happens to a menu and to its rows. -/
inductive LabelEvent where
  | menu (event : MenuEvent)
  | cellForRowAt (row : Nat)
  | didEndDisplaying (row : Nat)

namespace LabelledMenu

/-- No row is visible. -/
def opened (restaurantID : String) : LabelledMenu := ⟨.opened restaurantID, fun _ => none⟩

/-- The amount of a product as a label has it. -/
def amountText (menu : MenuController) (product : ProductInfo) : String :=
  intText ((menu.basket.lookup product).getD 0)

/-- The labels after an event of the menu, `next` being the menu after it. -/
def labelsAfter (state : LabelledMenu) (next : MenuController) : MenuEvent → Nat → Option String
  | .basketResult (.ok _) | .productsResult (.ok _) => fun _ => none
  | .basketResult (.error _) | .productsResult (.error _) => state.labels
  | .add row keys =>
      if state.menu.checkRestaurantId keys then
        Function.update state.labels row ((next.products[row]?).map (amountText next))
      else state.labels
  | .minus row => Function.update state.labels row ((next.products[row]?).map (amountText next))
  | .clear | .cancel => state.labels

/-- A row can be tapped while it is visible. -/
def canTap (state : LabelledMenu) : MenuEvent → Bool
  | .add row _ | .minus row => (state.labels row).isSome
  | _ => true

section Step

variable {Data Image : Type} (images : ImageLibrary Data Image)

/-- One event. -/
def step (state : LabelledMenu) : LabelEvent → Option LabelledMenu
  | .menu event =>
      if state.canTap event then do
        let next ← state.menu.handle event
        return ⟨next, state.labelsAfter next event⟩
      else none
  | .cellForRowAt row => do
      let product ← state.menu.products[row]?
      if images.isURL product.imageLink then
        return { state with
          labels := Function.update state.labels row (some (amountText state.menu product)) }
      else none
  | .didEndDisplaying row => some { state with labels := Function.update state.labels row none }

end Step

/-- Every visible label is the amount of the product of its row. -/
def LabelsTell (state : LabelledMenu) : Prop :=
  ∀ row text, state.labels row = some text →
    ∃ product, state.menu.products[row]? = some product ∧ text = amountText state.menu product

/-- No other visible row has the product of this one. -/
def Alone (state : LabelledMenu) (row : Nat) : Prop :=
  ∀ other, other ≠ row → state.labels other ≠ none →
    state.menu.products[other]? ≠ state.menu.products[row]?

/-- A tap that changes an amount is on a row whose product no other visible row has, and
the basket is emptied while every visible amount is zero. -/
def Fresh (state : LabelledMenu) : LabelEvent → Prop
  | .menu (.add row keys) => state.menu.checkRestaurantId keys = true → state.Alone row
  | .menu (.minus row) =>
      (∀ product, state.menu.products[row]? = some product →
        state.menu.basket.lookup product ≠ some 0) → state.Alone row
  | .menu .clear => ∀ row product, state.labels row ≠ none →
      state.menu.products[row]? = some product → (state.menu.basket.lookup product).getD 0 = 0
  | _ => True

theorem intText_injective : Function.Injective intText := by
  intro x y heq
  have hparse := parseInt_text x
  rw [heq, parseInt_text, Option.some.injEq] at hparse
  exact hparse.symm

section Insert

variable {state : LabelledMenu} {product : ProductInfo} {amount : Int64} {row : Nat}

/-- A menu in which one product has a new amount. -/
theorem amountText_insert_self (menu : MenuController) (product : ProductInfo) (amount : Int64) :
    amountText { menu with basket := menu.basket.insert product amount } product =
      intText amount := by
  rw [amountText, Finmap.lookup_insert, Option.getD_some]

theorem amountText_insert_of_ne (menu : MenuController) {product other : ProductInfo}
    (hne : other ≠ product) (amount : Int64) :
    amountText { menu with basket := menu.basket.insert product amount } other =
      amountText menu other := by
  rw [amountText, amountText, Finmap.lookup_insert_of_ne _ hne]

/-- The menu after a tap on the row changed the amount of its product. -/
def tapped (state : LabelledMenu) (row : Nat) (product : ProductInfo) (amount : Int64) :
    LabelledMenu where
  menu := { state.menu with basket := state.menu.basket.insert product amount }
  labels := Function.update state.labels row (some (intText amount))

/-- The labels go on telling exactly when the row is alone. -/
theorem labelsTell_tapped_iff (htell : state.LabelsTell)
    (hproduct : state.menu.products[row]? = some product)
    (hchanged : amount ≠ (state.menu.basket.lookup product).getD 0) :
    (state.tapped row product amount).LabelsTell ↔ state.Alone row := by
  constructor
  · intro hafter other hother hvisible hsame
    obtain ⟨text, htext⟩ := Option.ne_none_iff_exists'.mp hvisible
    have hkept : (state.tapped row product amount).labels other = some text :=
      (Function.update_of_ne hother _ _).trans htext
    obtain ⟨before, hbefore, heq⟩ := htell other text htext
    obtain ⟨after, hafter, heqAfter⟩ := hafter other text hkept
    rw [hsame, hproduct, Option.some.injEq] at hbefore
    have hrow : state.menu.products[other]? = some after := hafter
    rw [hsame, hproduct, Option.some.injEq] at hrow
    subst hbefore hrow
    rw [tapped, amountText_insert_self, heq] at heqAfter
    exact hchanged (intText_injective heqAfter).symm
  · intro halone other text htext
    by_cases hother : other = row
    · subst hother
      have hnew : (state.tapped other product amount).labels other = some (intText amount) :=
        Function.update_self _ _ _
      obtain rfl := Option.some.inj (htext.symm.trans hnew)
      exact ⟨product, hproduct, (amountText_insert_self state.menu product amount).symm⟩
    · have hbefore : state.labels other = some text :=
        (Function.update_of_ne hother _ _).symm.trans htext
      obtain ⟨found, hfound, heq⟩ := htell other text hbefore
      have hne : found ≠ product := by
        rintro rfl
        exact halone other hother (hbefore ▸ Option.some_ne_none text) (hfound.trans hproduct.symm)
      exact ⟨found, hfound, heq.trans (amountText_insert_of_ne state.menu hne amount).symm⟩

end Insert

/-! ## One event -/

section Events

variable {Data Image : Type} {images : ImageLibrary Data Image} {state next : LabelledMenu}

theorem addTrapping_ne {x y : Int64} (h : addTrapping x 1 = some y) : y ≠ x := by
  rintro rfl
  have hsum := exactly_eq_some.mp h
  have hone : (1 : Int64).toInt = 1 := by decide
  omega

theorem subTrapping_ne {x y : Int64} (h : subTrapping x 1 = some y) : y ≠ x := by
  rintro rfl
  have hdifference := exactly_eq_some.mp h
  have hone : (1 : Int64).toInt = 1 := by decide
  omega

/-- Visible labels of the same menu, or of none. -/
theorem labelsTell_of_labels (htell : state.LabelsTell) {after : LabelledMenu}
    (hproducts : after.menu.products = state.menu.products)
    (hbasket : after.menu.basket = state.menu.basket)
    (hlabels : ∀ row, after.labels row = state.labels row ∨ after.labels row = none) :
    after.LabelsTell := by
  intro row text htext
  rcases hlabels row with hsame | hnone
  · obtain ⟨product, hproduct, heq⟩ := htell row text (hsame ▸ htext)
    exact ⟨product, hproducts ▸ hproduct, by rw [heq, amountText, amountText, hbasket]⟩
  · rw [hnone] at htext
    cases htext

/-- An emptied basket. -/
theorem labelsTell_cleared_iff (htell : state.LabelsTell) :
    LabelsTell ⟨{ state.menu with basket := ∅, alert := false }, state.labels⟩ ↔
      state.Fresh (.menu .clear) := by
  have hzero : ∀ product,
      amountText { state.menu with basket := ∅, alert := false } product = intText 0 :=
    fun product => by rw [amountText, Finmap.lookup_empty, Option.getD_none]
  constructor
  · intro hafter row product hvisible hproduct
    obtain ⟨text, htext⟩ := Option.ne_none_iff_exists'.mp hvisible
    obtain ⟨before, hbefore, heq⟩ := htell row text htext
    obtain ⟨after, hrow, heqAfter⟩ := hafter row text htext
    obtain rfl := Option.some.inj (hproduct.symm.trans hbefore)
    rw [hzero, heq, amountText] at heqAfter
    exact intText_injective heqAfter
  · intro hfresh row text htext
    obtain ⟨product, hproduct, heq⟩ := htell row text htext
    refine ⟨product, hproduct, ?_⟩
    rw [heq, amountText, hfresh row product (htext ▸ Option.some_ne_none text) hproduct, hzero]

/-- A label that is written anew. -/
theorem labelsTell_rewritten (htell : state.LabelsTell) {row : Nat} {product : ProductInfo}
    (hproduct : state.menu.products[row]? = some product) :
    LabelsTell { state with
      labels := Function.update state.labels row (some (amountText state.menu product)) } := by
  intro other text htext
  rcases of_update_eq_some htext with ⟨rfl, hnew⟩ | hold
  · exact ⟨product, hproduct, (Option.some.inj hnew).symm⟩
  · exact htell other text hold

/-- A tap on a row that leaves its product at an amount. -/
theorem tapped_eq {row : Nat} {product : ProductInfo}
    (hproduct : state.menu.products[row]? = some product) (amount : Int64) :
    let menu := { state.menu with basket := state.menu.basket.insert product amount }
    LabelledMenu.mk menu (Function.update state.labels row
      ((menu.products[row]?).map (amountText menu))) = state.tapped row product amount := by
  intro menu
  have hrow : menu.products[row]? = some product := hproduct
  rw [hrow, Option.map_some, amountText_insert_self]
  rfl

/-- An event leaves the labels telling the amounts exactly when it is fresh. -/
theorem labelsTell_step_iff (htell : state.LabelsTell) {event : LabelEvent}
    (hstep : state.step images event = some next) : next.LabelsTell ↔ state.Fresh event := by
  cases event with
  | cellForRowAt row =>
      obtain ⟨product, hproduct, hcell⟩ := Option.bind_eq_some_iff.mp hstep
      obtain ⟨-, hnext⟩ := Option.ite_none_right_eq_some.mp hcell
      obtain rfl := Option.some.inj hnext
      exact iff_of_true (labelsTell_rewritten htell hproduct) trivial
  | didEndDisplaying row =>
      obtain rfl := Option.some.inj hstep
      refine iff_of_true (labelsTell_of_labels htell rfl rfl fun other => ?_) trivial
      by_cases hother : other = row
      · subst hother
        exact .inr (Function.update_self _ _ _)
      · exact .inl (Function.update_of_ne hother _ _)
  | menu event =>
      obtain ⟨-, hhandle⟩ := Option.ite_none_right_eq_some.mp hstep
      obtain ⟨menu, hmenu, hnext⟩ := Option.bind_eq_some_iff.mp hhandle
      obtain rfl := Option.some.inj hnext
      cases MenuController.outcome_of_handle hmenu with
      | basketLoaded basket => exact iff_of_true nofun trivial
      | productsLoaded products => exact iff_of_true nofun trivial
      | basketFailed error | productsFailed error =>
          exact iff_of_true (labelsTell_of_labels htell rfl rfl fun _ => .inl rfl) trivial
      | cancelled halert =>
          exact iff_of_true (labelsTell_of_labels htell rfl rfl fun _ => .inl rfl) trivial
      | cleared halert => exact labelsTell_cleared_iff htell
      | @asked row keys hkeys hcheck =>
          refine iff_of_true (labelsTell_of_labels htell rfl rfl fun _ => .inl ?_) ?_
          · simp [labelsAfter, hcheck]
          · intro htrue
            rw [hcheck] at htrue
            cases htrue
      | @added row keys product amount hkeys hcheck hproduct hamount =>
          have hafter : (⟨{ state.menu with basket := state.menu.basket.insert product amount },
              state.labelsAfter { state.menu with
                basket := state.menu.basket.insert product amount } (.add row keys)⟩ :
              LabelledMenu) = state.tapped row product amount := by
            rw [labelsAfter, if_pos hcheck]
            exact tapped_eq hproduct amount
          rw [hafter, labelsTell_tapped_iff htell hproduct (addTrapping_ne hamount)]
          exact ⟨fun halone _ => halone, fun halone => halone hcheck⟩
      | @lessened row product amount less hproduct hamount hne hless =>
          have hafter : (⟨{ state.menu with basket := state.menu.basket.insert product less },
              state.labelsAfter { state.menu with
                basket := state.menu.basket.insert product less } (.minus row)⟩ :
              LabelledMenu) = state.tapped row product less := tapped_eq hproduct less
          have hchanged : less ≠ (state.menu.basket.lookup product).getD 0 := by
            rw [hamount, Option.getD_some]
            exact subTrapping_ne hless
          rw [hafter, labelsTell_tapped_iff htell hproduct hchanged]
          refine ⟨fun halone _ => halone, fun halone => halone fun other hother hlookup => ?_⟩
          obtain rfl := Option.some.inj (hproduct.symm.trans hother)
          exact hne (Option.some.inj (hamount.symm.trans hlookup))
      | @noneLeft row product hproduct hamount =>
          have hlabels : state.labelsAfter state.menu (.minus row) =
              Function.update state.labels row (some (amountText state.menu product)) := by
            rw [labelsAfter, hproduct, Option.map_some]
          rw [hlabels]
          exact iff_of_true (labelsTell_rewritten htell hproduct) fun hfresh =>
            absurd hamount (hfresh product hproduct)

end Events

/-! ## Runs -/

theorem labelsTell_opened (restaurantID : String) : (opened restaurantID).LabelsTell := nofun

/-- In a run of a menu and its rows, the visible labels tell the amounts in every state
if and only if every tap that changes an amount is on a row whose product no other
visible row has, and the basket is emptied only while all visible amounts are zero. -/
theorem labels_tell_amounts_iff {Data Image : Type} (images : ImageLibrary Data Image)
    (restaurantID : String) {events : List LabelEvent} {final : LabelledMenu}
    (hrun : run (step images) (opened restaurantID) events = some final) :
    (∀ k reached, run (step images) (opened restaurantID) (events.take k) = some reached →
      reached.LabelsTell) ↔
      Along (step images) Fresh (opened restaurantID) events :=
  forall_take_iff_along Fresh LabelsTell LabelsTell
    (fun _ _ _ htell hfresh hstep => (labelsTell_step_iff htell hstep).mpr hfresh)
    (fun _ htell => htell)
    (fun _ _ _ htell hstep hnext => (labelsTell_step_iff htell hstep).mp hnext)
    (labelsTell_opened restaurantID) hrun

/-- The same latte in two rows, one of which is tapped. -/
def twoRows : List LabelEvent :=
  let latte : ProductInfo := ⟨"Latte", 199, "l.png", [.coffee], "0"⟩
  [ .menu (.basketResult (.ok ∅)), .menu (.productsResult (.ok [latte, latte])),
    .cellForRowAt 0, .cellForRowAt 1, .menu (.add 0 []) ]

theorem labels_tell_amounts_iff_twoRows :
    ∃ final, run (step ImageLibrary.texts) (opened "0") twoRows = some final ∧
      final.labels 1 = some "0" ∧
      ¬Along (step ImageLibrary.texts) Fresh (opened "0") twoRows := by
  have hany : (run (step ImageLibrary.texts) (opened "0") twoRows).any (fun final =>
      final.labels 1 = some "0" ∧
        (final.menu.products[1]?).map (amountText final.menu) = some "1") = true := by decide
  obtain ⟨final, hrun, hfinal⟩ := (Option.any_eq_true _ _).mp hany
  obtain ⟨hlabel, hamount⟩ := of_decide_eq_true hfinal
  refine ⟨final, hrun, hlabel, fun halong => ?_⟩
  -- the second row still shows no latte, although there is one in the basket
  obtain ⟨product, hproduct, htext⟩ :=
    (labels_tell_amounts_iff ImageLibrary.texts "0" hrun).mpr halong 5 final hrun 1 "0" hlabel
  rw [hproduct, Option.map_some, ← htext] at hamount
  exact absurd hamount (by decide)

end LabelledMenu

end QFree
