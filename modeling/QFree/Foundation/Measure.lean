/-
  Foundation/Measure.lean --- runs that come to an end.

  If every event of a kind lowers a measure by one, a run of such events has no more
  of them than the measure allows (`measure_run`); if one of them can be performed
  while the measure is positive, some run lowers it to zero (`exists_run_to_zero`).
-/
import QFree.Foundation.Run

set_option autoImplicit false

namespace QFree.Foundation

section Measure

variable {State Event : Type} {step : State → Event → Option State} (measure : State → Nat)
  (allowed : Event → Prop)

/-- The measure and the length of a run add up to the measure before it. -/
theorem measure_run
    (lower : ∀ state event next, allowed event → step state event = some next →
      measure next + 1 = measure state) :
    ∀ {events : List Event} {state final : State}, (∀ event ∈ events, allowed event) →
      run step state events = some final → measure final + events.length = measure state := by
  intro events
  induction events with
  | nil =>
      intro state final _ hrun
      rw [run_nil, Option.some.injEq] at hrun
      rw [hrun, List.length_nil, Nat.add_zero]
  | cons event rest ih =>
      intro state final hallowed hrun
      obtain ⟨next, hstep, hrest⟩ := run_cons_eq_some.mp hrun
      have hnext := ih (fun other hmem => hallowed other (List.mem_cons_of_mem event hmem)) hrest
      have hfirst := lower state event next (hallowed event List.mem_cons_self) hstep
      rw [List.length_cons]
      omega

/-- Where the measure is zero there is nothing left to do, and elsewhere something can be
done, so the rest can be done. -/
theorem exists_run_to_zero
    (lower : ∀ state event next, allowed event → step state event = some next →
      measure next + 1 = measure state)
    (progress : ∀ state, measure state ≠ 0 →
      ∃ event next, allowed event ∧ step state event = some next) :
    ∀ (n : Nat) (state : State), measure state = n →
      ∃ events final, (∀ event ∈ events, allowed event) ∧
        run step state events = some final ∧ measure final = 0 := by
  intro n
  induction n with
  | zero => exact fun state hzero => ⟨[], state, nofun, rfl, hzero⟩
  | succ n ih =>
      intro state hmeasure
      obtain ⟨event, next, hevent, hstep⟩ := progress state (by omega)
      have hlower := lower state event next hevent hstep
      obtain ⟨rest, final, hrest, hrun, hzero⟩ := ih next (by omega)
      refine ⟨event :: rest, final, fun other hmem => ?_,
        run_cons_eq_some.mpr ⟨next, hstep, hrun⟩, hzero⟩
      rcases List.mem_cons.mp hmem with rfl | hother
      · exact hevent
      · exact hrest other hother

end Measure

end QFree.Foundation
