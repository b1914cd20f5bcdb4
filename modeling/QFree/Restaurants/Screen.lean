/-
  Restaurants/Screen.lean --- `class RestaurantVC`.

  The screen keeps the full list of restaurants, the list of those it shows, and
  the set of chosen categories.  A category tap shows the restaurants of the
  category, each once, or all of them again; a tap on a restaurant opens its menu
  under the index of its first occurrence in the full list.

  `Selects` says which restaurants the loop of a category tap shows
  (`exists_selects`).  `Shown` is what makes the index exist: every restaurant shown
  is in the list.
-/
import QFree.Foundation.Run
import QFree.Menu.Controller
import Mathlib.Data.Finset.Basic

set_option autoImplicit false

namespace QFree

open QFree.Foundation

/-- The fields of the screen. -/
structure RestaurantVC where
  restaurants : List Restaurant
  selectedRestaurants : List Restaurant
  categories : Finset Nat
  deriving DecidableEq

/-- What happens to the screen before a restaurant is tapped. -/
inductive RestaurantVCEvent where
  | update (restaurants : List Restaurant)
  | categoryTapped (row : Nat)

/-- The restaurants of the category, in the order of the list and each value once. -/
structure Selects (restaurants : List Restaurant) (category : Category)
    (selected : List Restaurant) : Prop where
  in_order : selected.Sublist restaurants
  once : selected.Nodup
  mem_iff : ∀ restaurant,
    restaurant ∈ selected ↔ restaurant ∈ restaurants ∧ category ∈ restaurant.category

namespace RestaurantVC

/-- The screen before its list is loaded. -/
def initial : RestaurantVC := ⟨[], [], ∅⟩

/-- `update(_:)`. -/
def update (screen : RestaurantVC) (restaurants : List Restaurant) : RestaurantVC :=
  { screen with restaurants := restaurants, selectedRestaurants := restaurants }

/-- The body of the loop over the restaurants in a category tap. -/
def selectStep (row : Nat) (selectedRestaurants : List Restaurant) (restaurant : Restaurant) :
    Option (List Restaurant) := do
  let category ← Category.ofId row
  if category ∈ restaurant.category then
    if restaurant ∉ selectedRestaurants then return selectedRestaurants ++ [restaurant]
    else return selectedRestaurants
  else return selectedRestaurants

/-- The chosen categories after a tap: a chosen one is taken out, another one
replaces them all. -/
def toggle (categories : Finset Nat) (row : Nat) : Finset Nat :=
  if row ∈ categories then categories.erase row else {row}

/-- `didSelectItemAt` in the category bar. -/
def categoryTapped (screen : RestaurantVC) (row : Nat) : Option RestaurantVC := do
  let categories := toggle screen.categories row
  if categories ≠ ∅ then
    let selectedRestaurants ← screen.restaurants.foldlM (selectStep row) []
    return { screen with selectedRestaurants := selectedRestaurants, categories := categories }
  else return { screen with selectedRestaurants := screen.restaurants, categories := categories }

/-- `didSelectItemAt` in the list of restaurants: the title and the identifier
`pushMenuVC` is called with. -/
def restaurantTapped (screen : RestaurantVC) (row : Nat) : Option (String × String) := do
  let restaurant ← screen.selectedRestaurants[row]?
  let index ← screen.restaurants.findIdx? fun other => other = restaurant
  return (restaurant.name, index.repr)

/-- `pushMenuVC(name:restaurantID:)`; the name becomes the title of the menu. -/
def pushMenuVC (_name restaurantID : String) : MenuController :=
  MenuController.opened restaurantID

/-- One event; the category bar has a row for each category. -/
def handle (screen : RestaurantVC) : RestaurantVCEvent → Option RestaurantVC
  | .update restaurants => some (screen.update restaurants)
  | .categoryTapped row =>
      if row < Category.allCases.length then screen.categoryTapped row else none

/-! ## The loop of a category tap -/

/-- One round of the loop. -/
theorem selectStep_eq {row : Nat} {category : Category}
    (hcategory : Category.ofId row = some category) (selected : List Restaurant)
    (restaurant : Restaurant) :
    selectStep row selected restaurant =
      some (if category ∈ restaurant.category ∧ restaurant ∉ selected then
        selected ++ [restaurant] else selected) := by
  unfold selectStep
  simp only [hcategory, Option.bind_eq_bind, Option.bind_some, Option.pure_def]
  by_cases hof : category ∈ restaurant.category
  · by_cases hnew : restaurant ∈ selected
    · simp [hof, hnew]
    · simp [hof, hnew]
  · simp [hof]

/-- What the loop adds to what was selected before. -/
theorem exists_added {row : Nat} {category : Category}
    (hcategory : Category.ofId row = some category) (restaurants : List Restaurant) :
    ∀ selected : List Restaurant, selected.Nodup → ∃ added,
      restaurants.foldlM (selectStep row) selected = some (selected ++ added) ∧
        added.Sublist restaurants ∧ (selected ++ added).Nodup ∧
        ∀ restaurant, restaurant ∈ selected ++ added ↔
          restaurant ∈ selected ∨ restaurant ∈ restaurants ∧ category ∈ restaurant.category := by
  induction restaurants with
  | nil =>
      intro selected hnodup
      exact ⟨[], by simp, List.Sublist.refl _, by simpa using hnodup, by simp⟩
  | cons first rest ih =>
      intro selected hnodup
      rw [List.foldlM_cons, selectStep_eq hcategory]
      by_cases hnew : category ∈ first.category ∧ first ∉ selected
      · have hnext : (selected ++ [first]).Nodup :=
          List.nodup_append.mpr ⟨hnodup, List.nodup_singleton first, fun a ha b hb heq =>
            hnew.2 (List.mem_singleton.mp hb ▸ heq ▸ ha)⟩
        obtain ⟨added, hloop, hsublist, hdistinct, hmem⟩ := ih _ hnext
        have hassoc : selected ++ first :: added = selected ++ [first] ++ added := by simp
        refine ⟨first :: added, ?_, hsublist.cons_cons first, hassoc ▸ hdistinct, ?_⟩
        · rw [if_pos hnew, hassoc]
          exact hloop
        · intro restaurant
          rw [hassoc, hmem restaurant, List.mem_append, List.mem_singleton, List.mem_cons]
          constructor
          · rintro ((hold | rfl) | hlater)
            · exact .inl hold
            · exact .inr ⟨.inl rfl, hnew.1⟩
            · exact .inr ⟨.inr hlater.1, hlater.2⟩
          · rintro (hold | ⟨rfl | hlater, hof⟩)
            · exact .inl (.inl hold)
            · exact .inl (.inr rfl)
            · exact .inr ⟨hlater, hof⟩
      · obtain ⟨added, hloop, hsublist, hdistinct, hmem⟩ := ih _ hnodup
        refine ⟨added, ?_, hsublist.cons first, hdistinct, ?_⟩
        · rw [if_neg hnew]
          exact hloop
        · intro restaurant
          rw [hmem restaurant, List.mem_cons]
          constructor
          · exact .imp_right fun hlater => ⟨.inr hlater.1, hlater.2⟩
          · rintro (hold | ⟨rfl | hlater, hof⟩)
            · exact .inl hold
            · exact .inl (not_not.mp fun hout => hnew ⟨hof, hout⟩)
            · exact .inr ⟨hlater, hof⟩

/-- The loop over an empty selection. -/
theorem exists_selects {row : Nat} {category : Category}
    (hcategory : Category.ofId row = some category) (restaurants : List Restaurant) :
    ∃ selected, restaurants.foldlM (selectStep row) [] = some selected ∧
      Selects restaurants category selected := by
  obtain ⟨selected, hloop, hsublist, hnodup, hmem⟩ :=
    exists_added hcategory restaurants [] List.nodup_nil
  refine ⟨selected, hloop, hsublist, hnodup, fun restaurant => ?_⟩
  simpa using hmem restaurant

/-! ## The restaurants shown -/

/-- Every restaurant shown is in the list. -/
def Shown (screen : RestaurantVC) : Prop :=
  ∀ restaurant ∈ screen.selectedRestaurants, restaurant ∈ screen.restaurants

theorem shown_initial : initial.Shown := fun _ hmem => hmem

/-- There is a category for every row of the bar. -/
theorem exists_ofId {row : Nat} (h : row < Category.allCases.length) :
    ∃ category, Category.ofId row = some category := by
  have hrows : ∀ row < 9, (Category.ofId row).isSome := by decide
  exact Option.isSome_iff_exists.mp (hrows row h)

/-- A category tap never traps, keeps the list and shows restaurants of it. -/
theorem exists_categoryTapped (screen : RestaurantVC) {row : Nat}
    (h : row < Category.allCases.length) :
    ∃ next, screen.categoryTapped row = some next ∧ next.restaurants = screen.restaurants ∧
      next.Shown := by
  unfold categoryTapped
  dsimp only
  split
  · obtain ⟨category, hcategory⟩ := exists_ofId h
    obtain ⟨selected, hloop, hselects⟩ := exists_selects hcategory screen.restaurants
    rw [hloop]
    exact ⟨_, rfl, rfl, fun restaurant hmem => hselects.in_order.subset hmem⟩
  · exact ⟨_, rfl, rfl, fun restaurant hmem => hmem⟩

/-- A restaurant shown is found in the list, at the index of an equal one. -/
theorem exists_restaurantTapped {screen : RestaurantVC} (h : screen.Shown) {row : Nat}
    {restaurant : Restaurant} (hrow : screen.selectedRestaurants[row]? = some restaurant) :
    ∃ index : Nat, screen.restaurantTapped row = some (restaurant.name, index.repr) ∧
      screen.restaurants[index]? = some restaurant := by
  have hmem := h restaurant (List.mem_of_getElem? hrow)
  have hfound : (screen.restaurants.findIdx? fun other => other = restaurant).isSome := by
    rw [List.findIdx?_isSome, List.any_eq_true]
    exact ⟨restaurant, hmem, by simp⟩
  obtain ⟨index, hindex⟩ := Option.isSome_iff_exists.mp hfound
  obtain ⟨hlt, hequal, -⟩ := List.findIdx?_eq_some_iff_getElem.mp hindex
  refine ⟨index, ?_, ?_⟩
  · simp [restaurantTapped, hrow, hindex]
  · rw [List.getElem?_eq_getElem hlt, of_decide_eq_true hequal]

end RestaurantVC

end QFree
