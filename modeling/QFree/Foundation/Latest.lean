/-
  Foundation/Latest.lean --- logs of keyed entries, a later one in the place of an
  earlier one.

  A store that keeps one entry for each key has, after a log of writes, the last
  entry the log has for each key.  `latest` lists them in the order of the log:

      latest_sublist          nothing but entries of the log
      filter_latest_eq_iff    all entries of a kind are still there exactly when
                              none of them is replaced
-/
import Mathlib.Data.List.Induction

set_option autoImplicit false

namespace QFree.Foundation

section Latest

variable {α κ : Type} [DecidableEq κ] (key : α → κ)

/-- The entry takes the place of the one with its key. -/
def put (kept : List α) (entry : α) : List α :=
  (kept.filter fun other => key other ≠ key entry) ++ [entry]

/-- The entries that are left after the log. -/
def latest (log : List α) : List α := log.foldl (put key) []

theorem latest_append_singleton (log : List α) (entry : α) :
    latest key (log ++ [entry]) = put key (latest key log) entry :=
  List.foldl_append

theorem latest_sublist (log : List α) : (latest key log).Sublist log := by
  induction log using List.reverseRecOn with
  | nil => exact List.Sublist.refl []
  | append_singleton log entry ih =>
      rw [latest_append_singleton]
      exact (List.filter_sublist.trans ih).append (List.Sublist.refl [entry])

/-- The entries of a kind are all left exactly when no later entry has the key of
one of them. -/
theorem filter_latest_eq_iff (p : α → Prop) [DecidablePred p] (log : List α) :
    (latest key log).filter (fun entry => p entry) = log.filter (fun entry => p entry) ↔
      log.Pairwise fun entry later => p entry → key entry ≠ key later := by
  induction log using List.reverseRecOn with
  | nil => exact iff_of_true rfl .nil
  | append_singleton log entry ih =>
      rw [latest_append_singleton, put, List.filter_append, List.filter_append,
        List.append_cancel_right_eq, List.pairwise_append, ← ih]
      have hkept : (((latest key log).filter fun other => key other ≠ key entry).filter
          fun other => p other).Sublist ((latest key log).filter fun other => p other) :=
        List.filter_sublist.filter _
      have hlatest : ((latest key log).filter fun other => p other).Sublist
          (log.filter fun other => p other) := (latest_sublist key log).filter _
      constructor
      · intro heq
        have hall : (latest key log).filter (fun other => p other) =
            log.filter fun other => p other :=
          hlatest.eq_of_length_le (heq ▸ hkept.length_le)
        refine ⟨hall, List.pairwise_singleton _ _, fun other hother later hlater hp => ?_⟩
        have hmem : other ∈ log.filter fun other => p other :=
          List.mem_filter.mpr ⟨hother, decide_eq_true hp⟩
        rw [← heq] at hmem
        rw [List.mem_singleton.mp hlater]
        exact of_decide_eq_true (List.mem_filter.mp (List.mem_filter.mp hmem).1).2
      · rintro ⟨hall, -, hkeys⟩
        rw [List.filter_filter, ← hall]
        refine List.filter_congr fun other hother => ?_
        by_cases hp : p other
        · have hmem : other ∈ log := (latest_sublist key log).subset hother
          have hne := hkeys other hmem entry List.mem_cons_self hp
          simp only [hp, hne, decide_true, ne_eq, not_false_eq_true, Bool.and_self]
        · simp only [hp, decide_false, Bool.false_and]

/-- What is collected of a log comes from its first entry and from the rest. -/
theorem filterMap_log {β : Type} (f : α → Option β) (entry : α) (rest : List α) :
    (entry :: rest).filterMap f = (f entry).toList ++ rest.filterMap f := by
  rw [List.filterMap_cons]
  cases f entry <;> rfl

end Latest

end QFree.Foundation
