/-
  Foundation/Trap.lean --- loops whose body can trap.

  A computation that can trap is an `Option`, with `none` for the trap.  A loop
  that maps a trapping body over a list is `List.mapM`: it traps when the body
  does on some element, and otherwise yields one result for each element.
-/
import Mathlib.Data.List.Forall2

set_option autoImplicit false

namespace QFree.Foundation

variable {α β γ : Type}

/-- A loop whose body succeeds on every element collects the results. -/
theorem mapM_eq_some_map {f : α → Option β} {g : α → β} {list : List α}
    (h : ∀ x ∈ list, f x = some (g x)) : list.mapM f = some (list.map g) := by
  induction list with
  | nil => rfl
  | cons x rest ih =>
      rw [List.mapM_cons, h x List.mem_cons_self,
        ih fun y hy => h y (List.mem_cons_of_mem x hy)]
      rfl

theorem mapM_cons_eq_some {f : α → Option β} {x : α} {rest : List α} {results : List β} :
    (x :: rest).mapM f = some results ↔
      ∃ y ys, f x = some y ∧ rest.mapM f = some ys ∧ results = y :: ys := by
  rw [List.mapM_cons]
  simp only [Option.bind_eq_bind, Option.bind_eq_some_iff, Option.pure_def, Option.some.injEq]
  constructor
  · rintro ⟨y, hy, ys, hys, rfl⟩
    exact ⟨y, ys, hy, hys, rfl⟩
  · rintro ⟨y, ys, hy, hys, rfl⟩
    exact ⟨y, hy, ys, hys, rfl⟩

/-- The loop produced a result for every element. -/
theorem exists_of_mapM_of_mem {f : α → Option β} {list : List α} {results : List β}
    (h : list.mapM f = some results) {x : α} (hx : x ∈ list) : ∃ y ∈ results, f x = some y := by
  induction list generalizing results with
  | nil => cases hx
  | cons a rest ih =>
      obtain ⟨y, ys, hy, hys, rfl⟩ := mapM_cons_eq_some.mp h
      rcases List.mem_cons.mp hx with rfl | hmem
      · exact ⟨y, List.mem_cons_self, hy⟩
      · obtain ⟨z, hz, hfz⟩ := ih hys hmem
        exact ⟨z, List.mem_cons_of_mem y hz, hfz⟩

/-- Every result of the loop is the result of an element. -/
theorem exists_of_mem_of_mapM {f : α → Option β} {list : List α} {results : List β}
    (h : list.mapM f = some results) {y : β} (hy : y ∈ results) : ∃ x ∈ list, f x = some y := by
  induction list generalizing results with
  | nil =>
      rw [List.mapM_nil] at h
      obtain rfl := Option.some.inj h
      cases hy
  | cons a rest ih =>
      obtain ⟨z, zs, hz, hzs, rfl⟩ := mapM_cons_eq_some.mp h
      rcases List.mem_cons.mp hy with rfl | hmem
      · exact ⟨a, List.mem_cons_self, hz⟩
      · obtain ⟨x, hx, hfx⟩ := ih hzs hmem
        exact ⟨x, List.mem_cons_of_mem a hx, hfx⟩

/-- The results of a loop are the results of its body, in order. -/
theorem mapM_eq_some_iff_forall₂ {f : α → Option β} {list : List α} {results : List β} :
    list.mapM f = some results ↔ List.Forall₂ (fun x y => f x = some y) list results := by
  induction list generalizing results with
  | nil =>
      rw [List.mapM_nil, List.forall₂_nil_left_iff]
      exact ⟨fun h => (Option.some.inj h).symm, fun h => h ▸ rfl⟩
  | cons x rest ih =>
      rw [mapM_cons_eq_some, List.forall₂_cons_left_iff]
      simp only [ih]

theorem forall₂_comp {r : α → β → Prop} {s : β → γ → Prop} {left : List α} {middle : List β}
    {right : List γ} (h : List.Forall₂ r left middle) (h' : List.Forall₂ s middle right) :
    List.Forall₂ (fun x z => ∃ y, r x y ∧ s y z) left right := by
  induction h generalizing right with
  | nil =>
      cases h'
      exact .nil
  | cons hfirst _ ih =>
      cases h' with
      | cons hsecond hrest => exact .cons ⟨_, hfirst, hsecond⟩ (ih hrest)

/-- A loop whose body undoes `g` undoes mapping by `g`. -/
theorem mapM_eq_some_iff_eq_map {f : α → Option β} {g : β → α}
    (h : ∀ x y, f x = some y ↔ x = g y) {list : List α} {results : List β} :
    list.mapM f = some results ↔ list = results.map g := by
  induction results generalizing list with
  | nil =>
      cases list with
      | nil => simp
      | cons x rest =>
          rw [mapM_cons_eq_some]
          simp
  | cons y ys ih =>
      cases list with
      | nil => simp
      | cons x rest =>
          rw [mapM_cons_eq_some, List.map_cons, List.cons.injEq, ← ih, ← h]
          constructor
          · rintro ⟨z, zs, hz, hzs, heq⟩
            obtain ⟨rfl, rfl⟩ := List.cons.inj heq
            exact ⟨hz, hzs⟩
          · rintro ⟨hy, hys⟩
            exact ⟨y, ys, hy, hys, rfl⟩

/-- A loop whose body succeeds on every element succeeds. -/
theorem mapM_ne_none {f : α → Option β} {list : List α} (h : ∀ x ∈ list, f x ≠ none) :
    list.mapM f ≠ none := by
  induction list with
  | nil => nofun
  | cons x rest ih =>
      obtain ⟨y, hy⟩ := Option.ne_none_iff_exists'.mp (h x List.mem_cons_self)
      obtain ⟨ys, hys⟩ :=
        Option.ne_none_iff_exists'.mp (ih fun z hz => h z (List.mem_cons_of_mem x hz))
      rw [mapM_cons_eq_some.mpr ⟨y, ys, hy, hys, rfl⟩]
      nofun

/-- A loop over a rearranged list collects the same results, rearranged. -/
theorem mapM_perm {f : α → Option β} {list other : List α} (hperm : list.Perm other)
    {results : List β} (h : list.mapM f = some results) :
    ∃ rearranged, other.mapM f = some rearranged ∧ rearranged.Perm results := by
  induction hperm generalizing results with
  | nil => exact ⟨results, h, List.Perm.refl results⟩
  | cons x _ ih =>
      obtain ⟨y, ys, hy, hys, rfl⟩ := mapM_cons_eq_some.mp h
      obtain ⟨zs, hzs, hrest⟩ := ih hys
      exact ⟨y :: zs, mapM_cons_eq_some.mpr ⟨y, zs, hy, hzs, rfl⟩, hrest.cons y⟩
  | swap x₁ x₂ rest =>
      obtain ⟨y₁, ys, hy₁, hys, rfl⟩ := mapM_cons_eq_some.mp h
      obtain ⟨y₂, zs, hy₂, hzs, rfl⟩ := mapM_cons_eq_some.mp hys
      refine ⟨y₂ :: y₁ :: zs, ?_, List.Perm.swap y₁ y₂ zs⟩
      exact mapM_cons_eq_some.mpr
        ⟨y₂, y₁ :: zs, hy₂, mapM_cons_eq_some.mpr ⟨y₁, zs, hy₁, hzs, rfl⟩, rfl⟩
  | trans _ _ ih₁ ih₂ =>
      obtain ⟨middle, hmiddle, hfirst⟩ := ih₁ h
      obtain ⟨rearranged, hrearranged, hsecond⟩ := ih₂ hmiddle
      exact ⟨rearranged, hrearranged, hsecond.trans hfirst⟩

/-- Bodies that agree on the elements of a list loop over it alike. -/
theorem mapM_congr_of_mem {f g : α → Option β} {list : List α} (h : ∀ x ∈ list, f x = g x) :
    list.mapM f = list.mapM g := by
  induction list with
  | nil => rfl
  | cons x rest ih =>
      rw [List.mapM_cons, List.mapM_cons, h x List.mem_cons_self,
        ih fun y hy => h y (List.mem_cons_of_mem x hy)]

/-- A loop that succeeds collects what the body yields. -/
theorem filterMap_of_mapM {f : α → Option β} {list : List α} {results : List β}
    (h : list.mapM f = some results) : list.filterMap f = results := by
  induction list generalizing results with
  | nil =>
      rw [List.mapM_nil] at h
      exact Option.some.inj h
  | cons x rest ih =>
      obtain ⟨y, ys, hy, hys, rfl⟩ := mapM_cons_eq_some.mp h
      rw [List.filterMap_cons_some hy, ih hys]

/-- What stands in the second of two related lists is related to something in the first. -/
theorem exists_of_forall₂_right {R : α → β → Prop} {list : List α} {results : List β}
    (h : List.Forall₂ R list results) {y : β} (hy : y ∈ results) : ∃ x ∈ list, R x y := by
  induction h with
  | nil => cases hy
  | @cons x z rest others hrel _ ih =>
      rcases List.mem_cons.mp hy with rfl | hmem
      · exact ⟨x, List.mem_cons_self, hrel⟩
      · obtain ⟨w, hw, hwy⟩ := ih hmem
        exact ⟨w, List.mem_cons_of_mem x hw, hwy⟩

/-- Looping over a mapped list is looping with the composed body. -/
theorem mapM_map (f : β → Option γ) (g : α → β) (list : List α) :
    (list.map g).mapM f = list.mapM fun x => f (g x) := by
  induction list with
  | nil => rfl
  | cons x rest ih => rw [List.map_cons, List.mapM_cons, List.mapM_cons, ih]

end QFree.Foundation
