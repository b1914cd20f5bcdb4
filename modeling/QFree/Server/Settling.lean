/-
  Server/Settling.lean --- what is left when all writes have arrived.

  Each order has three writes, so the writes of orders that are still on their way can
  be counted, and as long as there is one it can arrive.  In whatever order they do, in
  the end every reader shows every order that was issued, so no order stays torn
  unless its device stops for good (`arrivals_settle`).
-/
import QFree.Foundation.Measure
import QFree.Server.ConcurrentOrders

set_option autoImplicit false

namespace QFree

open QFree.Foundation QFree.FirebaseHandler

namespace Traffic

section Settling

variable {Date : Type} {dates : DateLibrary Date} {state next : Traffic Date}

/-- The number of writes of orders that have not arrived. -/
def pending (state : Traffic Date) : Nat := (state.orders.map fun order => 3 - order.2).sum

/-- The orders that were issued. -/
def placements (state : Traffic Date) : List (Placement Date) := state.orders.map Prod.fst

/-- The arrival of a write of an order. -/
def IsArrival (event : TrafficEvent Date) : Prop := ∃ index, event = .orderArrives index

theorem length_writes (issued : Placement Date) : (issued.writes dates).length = 3 := rfl

theorem arrived_lt {issued : Placement Date} {arrived : Nat} {write : Write}
    (hwrite : (issued.writes dates)[arrived]? = some write) : arrived < 3 :=
  (List.getElem?_eq_some_iff.mp hwrite).1

/-- One write less is on its way after an arrival. -/
theorem pending_arrives {index : Nat} (hstep : state.step dates (.orderArrives index) = some next) :
    next.pending + 1 = state.pending := by
  cases transition_of_step hstep with
  | @arrived index arrived issued write horder hwrite =>
      have hthree := arrived_lt hwrite
      obtain ⟨hindex, hget⟩ := List.getElem?_eq_some_iff.mp horder
      have hbefore : state.orders =
          state.orders.take index ++ (issued, arrived) :: state.orders.drop (index + 1) := by
        rw [← hget, List.cons_getElem_drop_succ, List.take_append_drop]
      have hafter : state.orders.set index (issued, arrived + 1) =
          state.orders.take index ++ (issued, arrived + 1) :: state.orders.drop (index + 1) :=
        List.set_eq_take_append_cons_drop.trans (if_pos hindex)
      unfold pending
      dsimp only
      rw [hafter]
      conv_rhs => rw [hbefore]
      simp only [List.map_append, List.map_cons, List.sum_append, List.sum_cons]
      omega
  | refused event hcommands =>
      obtain ⟨⟨issued, arrived⟩, horder, hwritten⟩ := Option.bind_eq_some_iff.mp hstep
      obtain ⟨write, hwrite, -⟩ := Option.bind_eq_some_iff.mp hwritten
      rw [commands, horder, Option.bind_some] at hcommands
      have hthree : arrived < (issued.commands dates).length := arrived_lt hwrite
      rw [List.getElem?_eq_getElem hthree] at hcommands
      cases hcommands

/-- While a write is on its way, one can arrive. -/
theorem exists_arrives (dates : DateLibrary Date) (hpending : state.pending ≠ 0) :
    ∃ index next, state.step dates (.orderArrives index) = some next := by
  obtain ⟨value, hvalue, hpos⟩ :=
    List.sum_pos_iff_exists_pos_nat.mp (Nat.pos_of_ne_zero hpending)
  obtain ⟨⟨issued, arrived⟩, hmem, rfl⟩ := List.mem_map.mp hvalue
  obtain ⟨index, horder⟩ := List.getElem?_of_mem hmem
  have hlength : arrived < (issued.writes dates).length := by
    rw [length_writes]
    dsimp only at hpos
    omega
  refine ⟨index, Option.ne_none_iff_exists'.mp ?_⟩
  rw [step, horder, Option.bind_eq_bind, Option.bind_some]
  dsimp only
  rw [List.getElem?_eq_getElem hlength]
  exact Option.some_ne_none _

/-- An arrival leaves the orders the ones they are. -/
theorem placements_arrives {index : Nat}
    (hstep : state.step dates (.orderArrives index) = some next) :
    next.placements = state.placements := by
  cases transition_of_step hstep with
  | @arrived index arrived issued write horder hwrite =>
      have hindex := (List.getElem?_eq_some_iff.mp horder).1
      unfold placements
      dsimp only
      rw [List.map_set]
      refine List.ext_getElem? fun other => ?_
      by_cases hother : index = other
      · subst hother
        rw [List.getElem?_set_self (by simpa using hindex), List.getElem?_map, horder]
        rfl
      · rw [List.getElem?_set_ne hother]
  | refused event hcommands => rfl

theorem placements_arrivals {events : List (TrafficEvent Date)} {final : Traffic Date}
    (harrivals : ∀ event ∈ events, IsArrival event)
    (hrun : run (step dates) state events = some final) :
    final.placements = state.placements :=
  run_invariant_of_along (fun _ event => IsArrival event)
    (fun later => later.placements = state.placements)
    (fun _ _ _ h ⟨_, harrival⟩ hstep => (placements_arrives (harrival ▸ hstep)).trans h) rfl
    (along_of_forall_mem state harrivals) hrun

/-! ## Nothing on its way -/

/-- Every order has arrived. -/
theorem arrived_of_settled (hsettled : state.pending = 0) :
    ∀ order ∈ state.orders, 3 ≤ order.2 := by
  intro order hmem
  have hzero : 3 - order.2 = 0 :=
    List.sum_eq_zero_iff_forall_eq_nat.mp hsettled _ (List.mem_map_of_mem hmem)
  omega

theorem arrivedOrders_of_settled (hsettled : state.pending = 0) (kind : Placement Date → Prop)
    [DecidablePred kind] :
    state.arrivedOrders kind = state.placements.filter fun issued => kind issued := by
  rw [arrivedOrders, placements, List.filter_map]
  refine congrArg (List.map Prod.fst) (List.filter_congr fun order hmem => ?_)
  have hthree := arrived_of_settled hsettled order hmem
  exact decide_eq_decide.mpr (and_iff_left (by omega))

theorem issuedPlaces_eq (state : Traffic Date) :
    state.issuedPlaces dates = state.placements.map (Placement.place dates) := by
  rw [issuedPlaces, placements, List.map_map]
  rfl

/-- When nothing is on its way, everybody is shown the orders that were issued for them. -/
theorem shown_of_settled (hlawful : dates.Lawful) {database : Json}
    (hempty : database.get ["Users"] = .null) {events : List (TrafficEvent Date)}
    {final : Traffic Date} (hrun : run (step dates) (quiet database) events = some final)
    (hdistinct : (final.issuedPlaces dates).Nodup) (hsettled : final.pending = 0) :
    (∀ user, ∃ shown, getOrders dates ⟨some user⟩ true final.database = some (.ok shown) ∧
      Shows dates (final.placements.filter fun issued => issued.user = user) shown) ∧
    ∀ restaurantName, ∃ shown, loadAllOrders restaurantName final.database = some shown ∧
      shown.Perm ((final.placements.filter fun issued =>
        issued.slip.restaurant.name = restaurantName).map (Placement.info dates)) := by
  obtain ⟨ledger, htracks, hstaged⟩ := staged_run hempty hrun hdistinct
  refine ⟨fun user => ?_, fun restaurantName => ?_⟩
  · rw [← arrivedOrders_of_settled hsettled]
    refine hstaged.getOrders_arrived hlawful htracks hdistinct fun issued hmem => ?_
    exact absurd (arrived_of_settled hsettled _ hmem) (by omega)
  · rw [← arrivedOrders_of_settled hsettled]
    exact hstaged.loadAllOrders_perm_arrived htracks hdistinct restaurantName

/-- The writes on their way can arrive in any order; there are never more arrivals than
writes, one can follow as long as a write is missing, and in the end every customer and
every kitchen is shown exactly the orders that were issued for them. -/
theorem arrivals_settle (hlawful : dates.Lawful) {database : Json}
    (hempty : database.get ["Users"] = .null)
    {events later : List (TrafficEvent Date)} {middle final : Traffic Date}
    (hrun : run (step dates) (quiet database) events = some middle)
    (hdistinct : (middle.issuedPlaces dates).Nodup)
    (harrivals : ∀ event ∈ later, IsArrival event)
    (hlater : run (step dates) middle later = some final) :
    final.pending + later.length = middle.pending ∧
    (∃ rest settled, (∀ event ∈ rest, IsArrival event) ∧
      run (step dates) final rest = some settled ∧ settled.pending = 0) ∧
    (final.pending = 0 →
      (∀ user, ∃ shown, getOrders dates ⟨some user⟩ true final.database = some (.ok shown) ∧
        Shows dates (middle.placements.filter fun issued => issued.user = user) shown) ∧
      ∀ restaurantName, ∃ shown, loadAllOrders restaurantName final.database = some shown ∧
        shown.Perm ((middle.placements.filter fun issued =>
          issued.slip.restaurant.name = restaurantName).map (Placement.info dates))) := by
  have hlower : ∀ before event after, IsArrival event → step dates before event = some after →
      after.pending + 1 = before.pending :=
    fun _ _ _ ⟨_, harrival⟩ hstep => pending_arrives (harrival ▸ hstep)
  refine ⟨measure_run pending IsArrival hlower harrivals hlater, ?_, fun hsettled => ?_⟩
  · refine exists_run_to_zero pending IsArrival hlower (fun before hpending => ?_) _ final rfl
    obtain ⟨index, after, hstep⟩ := exists_arrives dates hpending
    exact ⟨_, after, ⟨index, rfl⟩, hstep⟩
  · have hplacements := placements_arrivals harrivals hlater
    have hfinal : (final.issuedPlaces dates).Nodup := by
      rw [issuedPlaces_eq, hplacements, ← issuedPlaces_eq]
      exact hdistinct
    rw [← hplacements]
    exact shown_of_settled hlawful hempty (run_append.mpr ⟨middle, hrun, hlater⟩) hfinal hsettled

end Settling

theorem arrivals_settle_rushHour :
    ∃ middle final, run (step utcDates) (quiet .null) rushHour = some middle ∧
      run (step utcDates) middle afterRushHour = some final ∧
      final.pending + 3 = middle.pending ∧
      ∃ shown, getOrders utcDates ⟨some "boris@mail"⟩ true final.database = some (.ok shown) ∧
        shown.length = 1 := by
  have hdistinct : ((run (step utcDates) (quiet .null) rushHour).any fun middle =>
      decide ((middle.issuedPlaces utcDates).Nodup ∧ middle.pending = 3 ∧
          (middle.placements.filter fun issued => issued.user = "boris@mail").length = 1) &&
        (run (step utcDates) middle afterRushHour).isSome) = true := by decide
  obtain ⟨middle, hrun, hboth⟩ := (Option.any_eq_true _ _).mp hdistinct
  rw [Bool.and_eq_true, decide_eq_true_eq] at hboth
  obtain ⟨⟨hplaces, hthree, hone⟩, hsome⟩ := hboth
  obtain ⟨final, hlater⟩ := Option.isSome_iff_exists.mp hsome
  have harrivals : ∀ event ∈ afterRushHour, IsArrival event := by
    intro event hmem
    simp only [afterRushHour, List.mem_cons, List.not_mem_nil, or_false] at hmem
    rcases hmem with rfl | rfl | rfl
    · exact ⟨0, rfl⟩
    · exact ⟨0, rfl⟩
    · exact ⟨1, rfl⟩
  obtain ⟨hcount, -, hsettled⟩ :=
    arrivals_settle utcDates_lawful rfl hrun hplaces harrivals hlater
  have hlength : afterRushHour.length = 3 := rfl
  obtain ⟨shown, hshown, history, hperm, -, hforall⟩ := (hsettled (by omega)).1 "boris@mail"
  refine ⟨middle, final, hrun, hlater, hcount, shown, hshown, ?_⟩
  rw [← hforall.length_eq, hperm.length_eq, hone]

end Traffic

end QFree
