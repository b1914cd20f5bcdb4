/-
  Foundation/Refinement.lean --- a system that carries out the commands of another.

  The lower system is a partial step function, as in Run.lean.  A step of it
  carries out a list of commands of the upper system, which is total; the list is
  empty when the upper level does not see the step.  If every step keeps the two
  levels related, every run does, and the upper state is the one the commands lead
  to, in the order in which they were carried out (`represents_of_run`).

  A part of a system goes through a run of its own (`run_part`).

  Where a relation chosen along the run is needed instead, each step of one system is
  matched by events of another that keep the two related; then every run is
  (`exists_run_of_simulation`).

  `Through` says that a state lies on the way of a run: what was read of the lower
  system is what one of the states on its way had.
-/
import QFree.Foundation.Run

set_option autoImplicit false

namespace QFree.Foundation

section Refinement

variable {State Event Command Upper : Type} (step : State → Event → Option State)
  (commands : State → Event → List Command)

/-- The commands carried out along a run. -/
def carriedOut : State → List Event → List Command
  | _, [] => []
  | state, event :: rest =>
      commands state event ++
        match step state event with
        | none => []
        | some next => carriedOut next rest

theorem carriedOut_cons {state next : State} {event : Event} {rest : List Event}
    (hstep : step state event = some next) :
    carriedOut step commands state (event :: rest) =
      commands state event ++ carriedOut step commands next rest := by
  rw [carriedOut, hstep]

variable {step commands}

/-- Two levels that every step keeps related are related after a run. -/
theorem represents_of_run (perform : Upper → Command → Upper) (Represents : State → Upper → Prop)
    (keep : ∀ state event next upper, Represents state upper →
      step state event = some next →
      Represents next ((commands state event).foldl perform upper)) :
    ∀ {events : List Event} {state final : State} {upper : Upper}, Represents state upper →
      run step state events = some final →
      Represents final ((carriedOut step commands state events).foldl perform upper) := by
  intro events
  induction events with
  | nil =>
      intro state final upper hrep hrun
      rw [run_nil, Option.some.injEq] at hrun
      exact hrun ▸ hrep
  | cons event rest ih =>
      intro state final upper hrep hrun
      obtain ⟨next, hstep, hrest⟩ := run_cons_eq_some.mp hrun
      rw [carriedOut_cons step commands hstep, List.foldl_append]
      exact ih (keep state event next upper hrep hstep) hrest

end Refinement

/-! ## Parts -/

section Part

variable {State Event Part PartEvent : Type} {step : State → Event → Option State}
  {partStep : Part → PartEvent → Option Part}

/-- A part that every event moves by a run of its own goes through a run. -/
theorem run_part (part : State → Part) (partEvents : Event → List PartEvent)
    (move : ∀ state event next, step state event = some next →
      run partStep (part state) (partEvents event) = some (part next)) :
    ∀ {events : List Event} {state final : State}, run step state events = some final →
      run partStep (part state) (events.flatMap partEvents) = some (part final) := by
  intro events
  induction events with
  | nil =>
      intro state final hrun
      rw [run_nil, Option.some.injEq] at hrun
      rw [hrun, List.flatMap_nil, run_nil]
  | cons event rest ih =>
      intro state final hrun
      obtain ⟨next, hstep, hrest⟩ := run_cons_eq_some.mp hrun
      rw [List.flatMap_cons]
      exact run_append.mpr ⟨part next, move state event next hstep, ih hrest⟩

end Part

/-! ## Simulation -/

section Simulation

variable {Low LowEvent Up UpEvent : Type} {lowStep : Low → LowEvent → Option Low}
  {upStep : Up → UpEvent → Option Up}

/-- Every run of a system whose steps are matched by runs of another is matched by one. -/
theorem exists_run_of_simulation (Related : Low → Up → Prop)
    (simulate : ∀ low event next up, Related low up → lowStep low event = some next →
      ∃ events reached, run upStep up events = some reached ∧ Related next reached) :
    ∀ {events : List LowEvent} {low final : Low} {up : Up}, Related low up →
      run lowStep low events = some final →
      ∃ matching reached, run upStep up matching = some reached ∧ Related final reached := by
  intro events
  induction events with
  | nil =>
      intro low final up hrelated hrun
      rw [run_nil, Option.some.injEq] at hrun
      exact ⟨[], up, rfl, hrun ▸ hrelated⟩
  | cons event rest ih =>
      intro low final up hrelated hrun
      obtain ⟨next, hstep, hrest⟩ := run_cons_eq_some.mp hrun
      obtain ⟨first, middle, hfirst, hmiddle⟩ := simulate low event next up hrelated hstep
      obtain ⟨second, reached, hsecond, hreached⟩ := ih hmiddle hrest
      exact ⟨first ++ second, reached, run_append.mpr ⟨middle, hfirst, hsecond⟩, hreached⟩

/-- If the events that match one depend on it alone, those that match a run do too. -/
theorem run_of_simulation (Related : Low → Up → Prop) (matching : LowEvent → List UpEvent)
    (simulate : ∀ low event next up, Related low up → lowStep low event = some next →
      ∃ reached, run upStep up (matching event) = some reached ∧ Related next reached) :
    ∀ {events : List LowEvent} {low final : Low} {up : Up}, Related low up →
      run lowStep low events = some final →
      ∃ reached, run upStep up (events.flatMap matching) = some reached ∧
        Related final reached := by
  intro events
  induction events with
  | nil =>
      intro low final up hrelated hrun
      rw [run_nil, Option.some.injEq] at hrun
      exact ⟨up, rfl, hrun ▸ hrelated⟩
  | cons event rest ih =>
      intro low final up hrelated hrun
      obtain ⟨next, hstep, hrest⟩ := run_cons_eq_some.mp hrun
      obtain ⟨middle, hfirst, hmiddle⟩ := simulate low event next up hrelated hstep
      obtain ⟨reached, hsecond, hreached⟩ := ih hmiddle hrest
      rw [List.flatMap_cons]
      exact ⟨reached, run_append.mpr ⟨middle, hfirst, hsecond⟩, hreached⟩

end Simulation

/-! ## Earlier states -/

section Through

variable {State Event : Type} (step : State → Event → Option State)

/-- A run from `start` comes through `middle` on its way to `state`. -/
structure Through (start middle state : State) : Prop where
  before : ∃ events, run step start events = some middle
  after : ∃ events, run step middle events = some state

variable {step} {start middle state next : State}

theorem Through.refl (start : State) : Through step start start start :=
  ⟨⟨[], rfl⟩, ⟨[], rfl⟩⟩

/-- A state that is reached lies behind and ahead of itself. -/
theorem Through.now (h : Through step start middle state) : Through step start state state := by
  obtain ⟨⟨before, hbefore⟩, after, hafter⟩ := h
  exact ⟨⟨before ++ after, run_append.mpr ⟨middle, hbefore, hafter⟩⟩, [], rfl⟩

/-- The start lies behind every state that is reached. -/
theorem Through.origin (h : Through step start middle state) : Through step start start state := by
  obtain ⟨⟨before, hbefore⟩, after, hafter⟩ := h
  exact ⟨⟨[], rfl⟩, before ++ after, run_append.mpr ⟨middle, hbefore, hafter⟩⟩

/-- What lay behind a state lies behind the next one. -/
theorem Through.later {event : Event} (h : Through step start middle state)
    (hstep : step state event = some next) : Through step start middle next := by
  obtain ⟨hbefore, after, hafter⟩ := h
  have hnext : run step state [event] = some next := run_cons_eq_some.mpr ⟨next, hstep, rfl⟩
  exact ⟨hbefore, after ++ [event], run_append.mpr ⟨state, hafter, hnext⟩⟩

variable (step start)

/-- The condition held in a state on the way. -/
def Once (condition : State → Prop) (state : State) : Prop :=
  ∃ middle, Through step start middle state ∧ condition middle

variable {step start} {condition other : State → Prop}

theorem once_of_now (h : Through step start middle state) (hnow : condition state) :
    Once step start condition state :=
  ⟨state, h.now, hnow⟩

theorem once_of_start (h : Through step start middle state) (hstart : condition start) :
    Once step start condition state :=
  ⟨start, h.origin, hstart⟩

/-- What held once, held once a step later too. -/
theorem Once.later {event : Event} (h : Once step start condition state)
    (hstep : step state event = some next) : Once step start condition next := by
  obtain ⟨middle, hthrough, hmiddle⟩ := h
  exact ⟨middle, hthrough.later hstep, hmiddle⟩

theorem Once.imp (h : Once step start condition state)
    (himp : ∀ middle, condition middle → other middle) : Once step start other state := by
  obtain ⟨middle, hthrough, hmiddle⟩ := h
  exact ⟨middle, hthrough, himp middle hmiddle⟩

end Through

end QFree.Foundation
