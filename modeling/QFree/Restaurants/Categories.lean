/-
  Restaurants/Categories.lean --- the list of restaurants and the highlighted
  category.

  `didSelectItemAt` computes the list it shows from the chosen category; `update`
  shows all restaurants, whatever category is chosen.  So the two disagree after a
  load that is answered while a category is highlighted, unless the new list has
  nothing to leave out (`list_matches_category_iff`).
-/
import Mathlib.Data.Finset.Card
import QFree.Restaurants.Screen

set_option autoImplicit false

namespace QFree

open QFree.Foundation

/-- A list selects itself when it has nothing to leave out. -/
theorem selects_self_iff {restaurants : List Restaurant} {category : Category} :
    Selects restaurants category restaurants ↔
      restaurants.Nodup ∧ ∀ restaurant ∈ restaurants, category ∈ restaurant.category := by
  constructor
  · intro h
    exact ⟨h.once, fun restaurant hmem => ((h.mem_iff restaurant).mp hmem).2⟩
  · rintro ⟨hnodup, hall⟩
    exact ⟨List.Sublist.refl _, hnodup, fun restaurant =>
      ⟨fun hmem => ⟨hmem, hall restaurant hmem⟩, And.left⟩⟩

namespace RestaurantVC

/-! ## The highlighted category -/

/-- At most one category is highlighted, and the list shows its restaurants; with
none it shows all. -/
structure Matches (screen : RestaurantVC) : Prop where
  at_most_one : screen.categories.card ≤ 1
  none_chosen : screen.categories = ∅ → screen.selectedRestaurants = screen.restaurants
  chosen : ∀ row ∈ screen.categories, ∃ category, Category.ofId row = some category ∧
    Selects screen.restaurants category screen.selectedRestaurants

/-- A list that is loaded while a category is highlighted has nothing to leave out. -/
def Arrives (screen : RestaurantVC) : RestaurantVCEvent → Prop
  | .update restaurants => ∀ row ∈ screen.categories, ∀ category ∈ Category.ofId row,
      restaurants.Nodup ∧ ∀ restaurant ∈ restaurants, category ∈ restaurant.category
  | .categoryTapped _ => True

instance (screen : RestaurantVC) : DecidablePred screen.Arrives
  | .update restaurants => inferInstanceAs (Decidable (∀ row ∈ screen.categories,
      ∀ category ∈ Category.ofId row,
        restaurants.Nodup ∧ ∀ restaurant ∈ restaurants, category ∈ restaurant.category))
  | .categoryTapped _ => .isTrue trivial

theorem matches_initial : initial.Matches := ⟨Nat.zero_le 1, fun _ => rfl, nofun⟩

/-- A load that has nothing to leave out, and no other, keeps the list matching. -/
theorem matches_update_iff {screen : RestaurantVC} (h : screen.Matches)
    (restaurants : List Restaurant) :
    (screen.update restaurants).Matches ↔ screen.Arrives (.update restaurants) := by
  constructor
  · intro hnext row hrow category hcategory
    obtain ⟨other, hother, hselects⟩ := hnext.chosen row hrow
    obtain rfl : category = other := Option.some.inj (hcategory.symm.trans hother)
    exact selects_self_iff.mp hselects
  · intro harrives
    refine ⟨h.at_most_one, fun _ => rfl, fun row hrow => ?_⟩
    obtain ⟨category, hcategory, -⟩ := h.chosen row hrow
    exact ⟨category, hcategory, selects_self_iff.mpr (harrives row hrow category hcategory)⟩

/-- After a tap the tapped category is the only one, or there is none. -/
theorem toggle_cases {categories : Finset Nat} (h : categories.card ≤ 1) (row : Nat) :
    toggle categories row = {row} ∨ toggle categories row = ∅ := by
  unfold toggle
  split
  · rename_i hmem
    right
    rw [← Finset.card_eq_zero, Finset.card_erase_of_mem hmem]
    omega
  · exact .inl rfl

/-- A tap computes the list anew. -/
theorem matches_categoryTapped {screen next : RestaurantVC} (h : screen.Matches) {row : Nat}
    (hrow : row < Category.allCases.length) (hnext : screen.categoryTapped row = some next) :
    next.Matches := by
  obtain ⟨category, hcategory⟩ := exists_ofId hrow
  unfold categoryTapped at hnext
  dsimp only at hnext
  rcases toggle_cases h.at_most_one row with hchosen | hnone
  · rw [hchosen, if_pos (Finset.singleton_ne_empty row)] at hnext
    obtain ⟨selected, hloop, hselects⟩ := exists_selects hcategory screen.restaurants
    rw [hloop] at hnext
    obtain rfl := Option.some.inj hnext
    refine ⟨(Finset.card_singleton row).le, fun hempty => ?_, fun other hother => ?_⟩
    · exact absurd hempty (Finset.singleton_ne_empty row)
    · rw [Finset.mem_singleton.mp hother]
      exact ⟨category, hcategory, hselects⟩
  · rw [hnone, if_neg (not_not.mpr rfl)] at hnext
    obtain rfl := Option.some.inj hnext
    exact ⟨Nat.zero_le 1, fun _ => rfl, nofun⟩

theorem matches_handle {screen next : RestaurantVC} {event : RestaurantVCEvent}
    (h : screen.Matches) (harrives : screen.Arrives event)
    (hnext : screen.handle event = some next) : next.Matches := by
  cases event with
  | update restaurants =>
      obtain rfl := Option.some.inj hnext
      exact (matches_update_iff h restaurants).mpr harrives
  | categoryTapped row =>
      obtain ⟨hrow, htapped⟩ := Option.ite_none_right_eq_some.mp hnext
      exact matches_categoryTapped h hrow htapped

theorem arrives_of_handle {screen next : RestaurantVC} {event : RestaurantVCEvent}
    (h : screen.Matches) (hnext : screen.handle event = some next) (hmatches : next.Matches) :
    screen.Arrives event := by
  cases event with
  | update restaurants =>
      obtain rfl := Option.some.inj hnext
      exact (matches_update_iff h restaurants).mp hmatches
  | categoryTapped row => trivial

/-- In every run the list matches the highlighted category, all along, exactly when
no load is answered with something to leave out. -/
theorem list_matches_category_iff {events : List RestaurantVCEvent} {final : RestaurantVC}
    (hrun : run handle initial events = some final) :
    (∀ k reached, run handle initial (events.take k) = some reached → reached.Matches) ↔
      Along handle Arrives initial events :=
  forall_take_iff_along Arrives Matches Matches
    (fun _ _ _ h harrives hnext => matches_handle h harrives hnext)
    (fun _ h => h)
    (fun _ _ _ h hnext hmatches => arrives_of_handle h hnext hmatches)
    matches_initial hrun

/-- A restaurant for coffee and pizza and one for sushi. -/
def twoRestaurants : List Restaurant :=
  [⟨"Groot", "g.png", "55.75", "37.64", [.coffee, .pizza]⟩,
    ⟨"Tokyo", "t.png", "55.76", "37.65", [.sushi]⟩]

/-- The list is loaded, coffee is highlighted and taken back. -/
theorem list_matches_category_iff_sample :
    ∃ final, run handle initial
        [.update twoRestaurants, .categoryTapped 2, .categoryTapped 2] = some final ∧
      final.Matches := by
  have hsome : (run handle initial
      [.update twoRestaurants, .categoryTapped 2, .categoryTapped 2]).isSome = true := by decide
  obtain ⟨final, hrun⟩ := Option.isSome_iff_exists.mp hsome
  exact ⟨final, hrun, (list_matches_category_iff hrun).mpr (by decide) 3 final hrun⟩

/-- Coffee is highlighted while the list is still loading: the sushi restaurant is
shown, too. -/
theorem load_ignores_category :
    ∃ final, run handle initial [.categoryTapped 2, .update twoRestaurants] = some final ∧
      ¬final.Matches := by
  have hany : (run handle initial [.categoryTapped 2, .update twoRestaurants]).any
      (fun final => decide (2 ∈ final.categories ∧
        ⟨"Tokyo", "t.png", "55.76", "37.65", [.sushi]⟩ ∈ final.selectedRestaurants)) = true := by
    decide
  obtain ⟨final, hrun, hfinal⟩ := (Option.any_eq_true _ _).mp hany
  obtain ⟨hchosen, hshown⟩ := of_decide_eq_true hfinal
  refine ⟨final, hrun, fun hmatches => ?_⟩
  obtain ⟨category, hcategory, hselects⟩ := hmatches.chosen 2 hchosen
  obtain rfl : Category.coffee = category := Option.some.inj hcategory
  have hcoffee := ((hselects.mem_iff _).mp hshown).2
  cases List.mem_singleton.mp hcoffee

end RestaurantVC

end QFree
