/-
  Foundation/Descending.lean --- sorting by the greater of two keys.

  A sort whose comparison asks which of two keys is greater, and never finds two of
  them equal, leaves the list in strictly descending order.
-/
import Mathlib.Data.List.Basic
import Mathlib.Order.Defs.Unbundled

set_option autoImplicit false

namespace QFree.Foundation

variable {α κ : Type}

/-- Entries with different keys come out in strictly descending order. -/
theorem pairwise_mergeSort_of_nodup (greater : κ → κ → Bool)
    [IsStrictTotalOrder κ fun a b => greater a b = true] (key : α → κ) {list : List α}
    (hnodup : (list.map key).Nodup) :
    (list.mergeSort fun a b => !greater (key b) (key a)).Pairwise
      fun a b => greater (key a) (key b) = true := by
  have hasymm : ∀ a b : κ, greater a b = true → ¬greater b a = true :=
    fun a b => asymm_of fun a b => greater a b = true
  have htotal : ∀ a b : κ, greater a b = true ∨ a = b ∨ greater b a = true :=
    trichotomous_of fun a b => greater a b = true
  have htrans : ∀ a b c : κ, (!greater b a) = true → (!greater c b) = true →
      (!greater c a) = true := by
    intro a b c hab hbc
    simp only [Bool.not_eq_true'] at hab hbc ⊢
    by_contra hca
    rw [Bool.not_eq_false] at hca
    rcases htotal b c with hgreater | rfl | hless
    · exact absurd (trans_of (fun a b => greater a b = true) hgreater hca) (by simp [hab])
    · simp [hca] at hab
    · simp [hless] at hbc
  have hsorted : (list.mergeSort fun a b => !greater (key b) (key a)).Pairwise
      fun a b => (!greater (key b) (key a)) = true := by
    refine List.pairwise_mergeSort (fun a b c => htrans (key a) (key b) (key c)) ?_ list
    intro a b
    rcases htotal (key a) (key b) with hgreater | heq | hless
    · simp [hasymm _ _ hgreater]
    · have hirrefl : greater (key b) (key b) = false :=
        Bool.eq_false_iff.mpr fun h => hasymm _ _ h h
      simp [heq, hirrefl]
    · simp [hasymm _ _ hless]
  have hdistinct : (list.mergeSort fun a b => !greater (key b) (key a)).Pairwise
      fun a b => key a ≠ key b := by
    have hperm := (List.mergeSort_perm list fun a b => !greater (key b) (key a)).map key
    exact List.pairwise_map.mp (hperm.nodup_iff.mpr hnodup)
  refine (hsorted.and hdistinct).imp fun {a b} h => ?_
  rcases htotal (key a) (key b) with hgreater | heq | hless
  · exact hgreater
  · exact absurd heq h.2
  · simp [hless] at h

end QFree.Foundation
