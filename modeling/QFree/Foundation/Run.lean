/-
  Foundation/Run.lean --- finite runs of a partial step function.

  A system is given by `step : State → Event → Option State`.  An event that is
  not enabled, or whose handler traps, has no successor, so it ends the run:
  `run step s es = some t` says that all of `es` were performed, in order, from
  `s` to `t`.  Everything a client needs about runs is proved once here:

      run_invariant            an invariant every step keeps holds after a run
      run_invariant_of_along   the same, for steps that meet a guard
      forall_take_iff_along    a property of all states of a run, when it stands
                               and falls with the guard
      run_traced               an invariant of the state and the events so far
      Along.at_event           the guard at one event of the run
      Along.append, Along.take the guard of a run in two parts, and of its start
      along_of_not             the guard of a run that ends well, when what a step
                               against it spoils stays spoilt
      exists_run_of_forall_mem lists of events that can always be performed are
                               runs

  `Along` is the guard of a run: a condition on each step, evaluated in the
  state the step is taken from.
-/
import Mathlib.Data.List.Induction

set_option autoImplicit false

namespace QFree.Foundation

section Run

variable {State Event : Type} (step : State → Event → Option State)

/-- The state after the events in order, if each of them can be performed. -/
def run : State → List Event → Option State
  | state, [] => some state
  | state, event :: rest => (step state event).bind fun next => run next rest

/-- Every step of the run is taken in a state that meets the guard. -/
def Along (guard : State → Event → Prop) : State → List Event → Prop
  | _, [] => True
  | state, event :: rest =>
      guard state event ∧ ∀ next, step state event = some next → Along guard next rest

/-- Whether a run keeps to its guard can be computed. -/
instance decidableAlong {guard : State → Event → Prop}
    [∀ state event, Decidable (guard state event)] :
    ∀ state events, Decidable (Along step guard state events)
  | _, [] => .isTrue trivial
  | state, event :: rest =>
      match hstep : step state event with
      | none => decidable_of_iff (guard state event) (by simp [Along, hstep])
      | some next =>
          have : Decidable (Along step guard next rest) := decidableAlong next rest
          decidable_of_iff (guard state event ∧ Along step guard next rest)
            (by simp [Along, hstep])

@[simp] theorem run_nil (state : State) : run step state [] = some state := rfl

theorem run_cons (state : State) (event : Event) (rest : List Event) :
    run step state (event :: rest) =
      (step state event).bind fun next => run step next rest := rfl

variable {step}

theorem run_cons_eq_some {state final : State} {event : Event} {rest : List Event} :
    run step state (event :: rest) = some final ↔
      ∃ next, step state event = some next ∧ run step next rest = some final := by
  rw [run_cons, Option.bind_eq_some_iff]

theorem run_cons_of_step {state next : State} {event : Event}
    (hstep : step state event = some next) (rest : List Event) :
    run step state (event :: rest) = run step next rest := by
  rw [run_cons, hstep, Option.bind_some]

theorem run_append {state final : State} {first second : List Event} :
    run step state (first ++ second) = some final ↔
      ∃ middle, run step state first = some middle ∧ run step middle second = some final := by
  induction first generalizing state with
  | nil =>
      simp
  | cons event rest ih =>
      simp only [List.cons_append, run_cons_eq_some, ih]
      constructor
      · rintro ⟨next, hstep, middle, hrest, hsecond⟩
        exact ⟨middle, ⟨next, hstep, hrest⟩, hsecond⟩
      · rintro ⟨middle, ⟨next, hstep, hrest⟩, hsecond⟩
        exact ⟨next, hstep, middle, hrest, hsecond⟩

/-- An invariant that every step meeting the guard keeps holds at the end of
every run whose steps all meet it. -/
theorem run_invariant_of_along (guard : State → Event → Prop) (Inv : State → Prop)
    (keep : ∀ state event next, Inv state → guard state event →
      step state event = some next → Inv next) :
    ∀ {events : List Event} {state final : State}, Inv state →
      Along step guard state events → run step state events = some final → Inv final := by
  intro events
  induction events with
  | nil =>
      intro state final hinv _ hrun
      rw [run_nil, Option.some.injEq] at hrun
      exact hrun ▸ hinv
  | cons event rest ih =>
      intro state final hinv halong hrun
      obtain ⟨next, hstep, hrest⟩ := run_cons_eq_some.mp hrun
      exact ih (keep state event next hinv halong.1 hstep) (halong.2 next hstep) hrest

/-- If every event of a kind can be performed from every state with the invariant,
every list of such events is a run. -/
theorem exists_run_of_forall_mem (allowed : Event → Prop) (Inv : State → Prop)
    (progress : ∀ state event, Inv state → allowed event →
      ∃ next, step state event = some next ∧ Inv next) :
    ∀ {events : List Event} {state : State}, Inv state → (∀ event ∈ events, allowed event) →
      ∃ final, run step state events = some final ∧ Inv final := by
  intro events
  induction events with
  | nil => exact fun {state} hinv _ => ⟨state, rfl, hinv⟩
  | cons event rest ih =>
      intro state hinv hallowed
      obtain ⟨next, hstep, hnext⟩ := progress state event hinv (hallowed event List.mem_cons_self)
      obtain ⟨final, hrun, hfinal⟩ :=
        ih hnext fun other hmem => hallowed other (List.mem_cons_of_mem event hmem)
      exact ⟨final, run_cons_eq_some.mpr ⟨next, hstep, hrun⟩, hfinal⟩

/-- A guard that every event of the list meets, whatever the state. -/
theorem along_of_forall_states {guard : State → Event → Prop} :
    ∀ {events : List Event} (state : State), (∀ event ∈ events, ∀ reached, guard reached event) →
      Along step guard state events := by
  intro events
  induction events with
  | nil => intro state _; trivial
  | cons event rest ih =>
      intro state h
      exact ⟨h event List.mem_cons_self state,
        fun next _ => ih next fun other hmem => h other (List.mem_cons_of_mem event hmem)⟩

/-- No guard is asked for, so every run meets it. -/
theorem along_of_forall {guard : State → Event → Prop}
    (h : ∀ state event, guard state event) (events : List Event) (state : State) :
    Along step guard state events :=
  along_of_forall_states state fun event _ reached => h reached event

/-- A guard on the events alone, met by every event of the list. -/
theorem along_of_forall_mem {guard : Event → Prop} {events : List Event} (state : State)
    (h : ∀ event ∈ events, guard event) :
    Along step (fun _ event => guard event) state events :=
  along_of_forall_states state fun event hmem _ => h event hmem

theorem Along.and {guard other : State → Event → Prop} :
    ∀ {events : List Event} {state : State}, Along step guard state events →
      Along step other state events →
      Along step (fun s e => guard s e ∧ other s e) state events := by
  intro events
  induction events with
  | nil => intro state _ _; trivial
  | cons event rest ih =>
      intro state hguard hother
      exact ⟨⟨hguard.1, hother.1⟩,
        fun next hstep => ih (hguard.2 next hstep) (hother.2 next hstep)⟩

theorem Along.append {guard : State → Event → Prop} {second : List Event} :
    ∀ {first : List Event} {state : State}, Along step guard state first →
      (∀ middle, run step state first = some middle → Along step guard middle second) →
      Along step guard state (first ++ second) := by
  intro first
  induction first with
  | nil => exact fun {state} _ hsecond => hsecond state rfl
  | cons event rest ih =>
      intro state hfirst hsecond
      exact ⟨hfirst.1, fun next hstep => ih (hfirst.2 next hstep) fun middle hrest =>
        hsecond middle (run_cons_eq_some.mpr ⟨next, hstep, hrest⟩)⟩

/-- A run that keeps to its guard does so from its start to each of its states. -/
theorem Along.take {guard : State → Event → Prop} :
    ∀ {events : List Event} {state : State}, Along step guard state events →
      ∀ k, Along step guard state (events.take k) := by
  intro events
  induction events with
  | nil =>
      intro state _ k
      rw [List.take_nil]
      trivial
  | cons event rest ih =>
      intro state halong k
      cases k with
      | zero => trivial
      | succ k => exact ⟨halong.1, fun next hstep => ih (halong.2 next hstep) k⟩

/-- An invariant that every step keeps holds at the end of every run. -/
theorem run_invariant (Inv : State → Prop)
    (keep : ∀ state event next, Inv state → step state event = some next → Inv next)
    {events : List Event} {state final : State} (hinv : Inv state)
    (hrun : run step state events = some final) : Inv final :=
  run_invariant_of_along (fun _ _ => True) Inv
    (fun state event next h _ hstep => keep state event next h hstep) hinv
    (along_of_forall (fun _ _ => trivial) events state) hrun

/-- An invariant of the state and of the events that led to it. -/
theorem run_traced {start : State} (Inv : List Event → State → Prop) (hinv : Inv [] start)
    (keep : ∀ events state event next, Inv events state → run step start events = some state →
      step state event = some next → Inv (events ++ [event]) next) :
    ∀ {events : List Event} {state : State}, run step start events = some state →
      Inv events state := by
  intro events
  induction events using List.reverseRecOn with
  | nil =>
      intro state hrun
      exact Option.some.inj hrun ▸ hinv
  | append_singleton events event ih =>
      intro state hrun
      obtain ⟨middle, hbefore, hlast⟩ := run_append.mp hrun
      obtain ⟨next, hstep, hnext⟩ := run_cons_eq_some.mp hlast
      obtain rfl := Option.some.inj hnext
      exact keep events middle event next (ih hbefore) hbefore hstep

/-- Each event of a run that keeps to its guard meets it. -/
theorem Along.at_event {guard : State → Event → Prop} {before rest : List Event} {event : Event} :
    ∀ {state middle : State}, Along step guard state (before ++ event :: rest) →
      run step state before = some middle → guard middle event := by
  induction before with
  | nil =>
      intro state middle halong hrun
      exact Option.some.inj hrun ▸ halong.1
  | cons first before ih =>
      intro state middle halong hrun
      obtain ⟨next, hstep, hrest⟩ := run_cons_eq_some.mp hrun
      exact ih (halong.2 next hstep) hrest

/-- A step against the guard spoils the state and a spoilt state stays so; hence a run
that does not end in one keeps to the guard. -/
theorem along_of_not (guard : State → Event → Prop) (Spoilt : State → Prop)
    (spoil : ∀ state event next, ¬guard state event → step state event = some next → Spoilt next)
    (keep : ∀ state event next, Spoilt state → step state event = some next → Spoilt next) :
    ∀ {events : List Event} {state final : State}, run step state events = some final →
      ¬Spoilt final → Along step guard state events := by
  intro events
  induction events with
  | nil => intro state final _ _; trivial
  | cons event rest ih =>
      intro state final hrun hfinal
      obtain ⟨next, hstep, hrest⟩ := run_cons_eq_some.mp hrun
      refine ⟨?_, fun other hother => ?_⟩
      · by_contra hguard
        exact hfinal (run_invariant Spoilt keep (spoil state event next hguard hstep) hrest)
      · obtain rfl : next = other := Option.some.inj (hstep.symm.trans hother)
        exact ih hrest hfinal

/-- A property that the guard is enough for and that no step against the guard
leaves standing: it holds in every state of a run exactly when every step of the
run meets the guard. -/
theorem forall_take_iff_along (guard : State → Event → Prop) (Inv Good : State → Prop)
    (keep : ∀ state event next, Inv state → guard state event →
      step state event = some next → Inv next)
    (good : ∀ state, Inv state → Good state)
    (need : ∀ state event next, Inv state → step state event = some next → Good next →
      guard state event) :
    ∀ {events : List Event} {state final : State}, Inv state →
      run step state events = some final →
      ((∀ k reached, run step state (events.take k) = some reached → Good reached) ↔
        Along step guard state events) := by
  intro events
  induction events with
  | nil =>
      intro state final hinv _
      refine ⟨fun _ => trivial, fun _ k reached hrun => ?_⟩
      rw [List.take_nil, run_nil, Option.some.injEq] at hrun
      exact hrun ▸ good state hinv
  | cons event rest ih =>
      intro state final hinv hrun
      obtain ⟨next, hstep, hrest⟩ := run_cons_eq_some.mp hrun
      constructor
      · intro hgood
        have hnext : ∀ k reached, run step next (rest.take k) = some reached → Good reached :=
          fun k reached hreached =>
            hgood (k + 1) reached (run_cons_eq_some.mpr ⟨next, hstep, hreached⟩)
        have hguard := need state event next hinv hstep (hnext 0 next rfl)
        refine ⟨hguard, fun other hother => ?_⟩
        obtain rfl : next = other := Option.some.inj (hstep.symm.trans hother)
        exact (ih (keep state event next hinv hguard hstep) hrest).mp hnext
      · rintro ⟨hguard, hlater⟩ k reached hreached
        cases k with
        | zero => exact Option.some.inj hreached ▸ good state hinv
        | succ k =>
            obtain ⟨other, hother, hreached⟩ := run_cons_eq_some.mp hreached
            obtain rfl : next = other := Option.some.inj (hstep.symm.trans hother)
            exact (ih (keep state event next hinv hguard hstep) hrest).mpr (hlater next hstep) k
              reached hreached

end Run

end QFree.Foundation
