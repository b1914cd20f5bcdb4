/-
  Foundation/Load.lean --- loads in the background.

  A load is started for a subject and runs for any time.  It ends in an error, or
  it is answered with data; then a block with the data is queued, which is
  performed at some later moment.  Loads are numbered in the order they are
  started in, and none of them waits for another: the events of the system may
  answer them and perform their blocks in any order.

  A client that knows something of every load keeps it by `mem_start`, `mem_complete`,
  `mem_fail` and `mem_perform`: each operation leaves the other loads as they are.
-/
import Mathlib.Data.List.Basic

set_option autoImplicit false

namespace QFree.Foundation

/-- A load in the background. -/
inductive Load (Subject Data : Type) where
  | running (subject : Subject)
  | loaded (subject : Subject) (data : Data)
  | finished
  deriving DecidableEq

namespace Load

variable {Subject Data : Type}

/-- A load is started. -/
def start (loads : List (Load Subject Data)) (subject : Subject) : List (Load Subject Data) :=
  loads ++ [.running subject]

/-- A running load is answered with data: its subject, and the loads after it. -/
def complete (loads : List (Load Subject Data)) (n : Nat) (data : Data) :
    Option (Subject × List (Load Subject Data)) :=
  match loads[n]? with
  | some (.running subject) => some (subject, loads.set n (.loaded subject data))
  | _ => none

/-- A running load ends in an error. -/
def fail (loads : List (Load Subject Data)) (n : Nat) : Option (List (Load Subject Data)) :=
  match loads[n]? with
  | some (.running _) => some (loads.set n .finished)
  | _ => none

/-- The block of an answered load is taken from the queue: its subject, its data and
the loads after it. -/
def perform (loads : List (Load Subject Data)) (n : Nat) :
    Option (Subject × Data × List (Load Subject Data)) :=
  match loads[n]? with
  | some (.loaded subject data) => some (subject, data, loads.set n .finished)
  | _ => none

/-! ## The loads after an operation -/

variable {loads next : List (Load Subject Data)} {n : Nat} {subject : Subject} {data : Data}
  {load : Load Subject Data}

theorem complete_eq_some :
    complete loads n data = some (subject, next) ↔
      loads[n]? = some (.running subject) ∧ next = loads.set n (.loaded subject data) := by
  unfold complete
  constructor
  · intro h
    split at h
    · rename_i hrunning
      obtain ⟨rfl, rfl⟩ := Prod.mk.inj (Option.some.inj h)
      exact ⟨hrunning, rfl⟩
    · cases h
  · rintro ⟨hrunning, rfl⟩
    rw [hrunning]

theorem fail_eq_some :
    fail loads n = some next ↔
      ∃ subject, loads[n]? = some (.running subject) ∧ next = loads.set n .finished := by
  unfold fail
  constructor
  · intro h
    split at h
    · rename_i subject hrunning
      exact ⟨subject, hrunning, (Option.some.inj h).symm⟩
    · cases h
  · rintro ⟨subject, hrunning, rfl⟩
    rw [hrunning]

theorem perform_eq_some :
    perform loads n = some (subject, data, next) ↔
      loads[n]? = some (.loaded subject data) ∧ next = loads.set n .finished := by
  unfold perform
  constructor
  · intro h
    split at h
    · rename_i hloaded
      obtain ⟨rfl, hrest⟩ := Prod.mk.inj (Option.some.inj h)
      obtain ⟨rfl, rfl⟩ := Prod.mk.inj hrest
      exact ⟨hloaded, rfl⟩
    · cases h
  · rintro ⟨hloaded, rfl⟩
    rw [hloaded]

theorem mem_start (h : load ∈ start loads subject) : load ∈ loads ∨ load = .running subject := by
  rcases List.mem_append.mp h with hold | hnew
  · exact .inl hold
  · exact .inr (List.mem_singleton.mp hnew)

/-- An answer queues its own data for its own subject. -/
theorem mem_complete (hcomplete : complete loads n data = some (subject, next)) :
    .running subject ∈ loads ∧
      ∀ load ∈ next, load ∈ loads ∨ load = .loaded subject data := by
  obtain ⟨hrunning, rfl⟩ := complete_eq_some.mp hcomplete
  exact ⟨List.mem_of_getElem? hrunning, fun load hload => List.mem_or_eq_of_mem_set hload⟩

theorem mem_fail (hfail : fail loads n = some next) :
    ∀ load ∈ next, load ∈ loads ∨ load = .finished := by
  obtain ⟨subject, -, rfl⟩ := fail_eq_some.mp hfail
  exact fun load hload => List.mem_or_eq_of_mem_set hload

/-- A performed block had its data in the queue. -/
theorem mem_perform (hperform : perform loads n = some (subject, data, next)) :
    .loaded subject data ∈ loads ∧ ∀ load ∈ next, load ∈ loads ∨ load = .finished := by
  obtain ⟨hloaded, rfl⟩ := perform_eq_some.mp hperform
  exact ⟨List.mem_of_getElem? hloaded, fun load hload => List.mem_or_eq_of_mem_set hload⟩

end Load

end QFree.Foundation
