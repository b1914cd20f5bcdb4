/-
  Account/OrderOnce.lean --- how often one basket is ordered.

  Nothing disables the order button while an order is on its way, and the basket
  is checked when it is read but removed three writes later.  `Undisturbed` is
  the condition under which one basket is ordered once: whenever the response of
  a `makeOrder` is delivered, the stored basket is still the one it carries, and
  no order is between its writes.

  `Progress` follows the one order a run can have: not issued, between its
  writes, or finished with the basket removed.
-/
import QFree.Account.System

set_option autoImplicit false

namespace QFree.AccountState

open QFree.Foundation QFree.FirebaseHandler

section Once

variable {Date : Type} {dates : DateLibrary Date} {user : String}

/-- The event belongs to the Basket screens, the server, or a write. -/
def OrderingOnly : AccountEvent Date → Prop
  | .pushMenuVC .. | .menuWillAppear .. | .menuTapped .. | .menuWillDisappear ..
  | .menuBasketDelivered .. | .menuProductsDelivered .. => False
  | _ => True

/-- No request of the state is a write. -/
def NothingWritten (state : AccountState) : Prop :=
  ∀ id writes, state.requests id ≠ some (.writing writes)

/-- A `makeOrder` whose response is delivered finds the basket it read still
stored, and no order between its writes. -/
def Undisturbed (user : String) (state : AccountState) : AccountEvent Date → Prop
  | .orderDelivered id _ _ _ =>
      (∀ task value, state.requests id = some (.answered task value) →
        value = state.database.get (basketPath user)) ∧
      state.NothingWritten
  | _ => True

/-- Apart from the one under this key, the orders are as they were. -/
def SameOrdersBut (user hash : String) (before after : Json) : Prop :=
  ∀ other, other ≠ hash → after.get (orderPath user other) = before.get (orderPath user other)

/-- How far the only order of a run has come. -/
inductive Progress (user : String) (before : Json) (state : AccountState) : Prop where
  | notIssued (hissued : state.issued = []) (hdatabase : state.database = before)
      (hnone : state.NothingWritten)
  | writing {hash readyDate : String} {number : Int64} {restaurant : Restaurant}
      {entries : List (ProductInfo × Int64)} {id k : Nat} (hissued : state.issued.length = 1)
      (hk : k < 3)
      (hrequest : state.requests id =
        some (.writing ((orderWrites user number restaurant entries hash readyDate).drop k)))
      (honly : ∀ other writes, state.requests other = some (.writing writes) → other = id)
      (horders : SameOrdersBut user hash before state.database)
  | finished {hash : String} (hissued : state.issued.length = 1) (hnone : state.NothingWritten)
      (hbasket : state.database.get (basketPath user) = .null)
      (horders : SameOrdersBut user hash before state.database)

/-! ## Writes -/

/-- No write of an order touches the entry of another one. -/
theorem apply_of_mem_orderWrites {number : Int64} {restaurant : Restaurant}
    {entries : List (ProductInfo × Int64)} {hash readyDate other : String} {write : Write}
    (h : write ∈ orderWrites user number restaurant entries hash readyDate)
    (hother : other ≠ hash) (database : Json) :
    (write.apply database).get (orderPath user other) = database.get (orderPath user other) := by
  simp only [orderWrites, List.mem_cons, List.not_mem_nil, or_false] at h
  rcases h with rfl | rfl | rfl
  · exact Json.get_set_of_ne database ["Users", user, "orders"] hother ["products"] [] _
  · exact Json.get_set_of_ne database ["Users", user, "orders"] hother ["info"] [] _
  · exact Json.get_set_of_ne database ["Users", user] (by decide) [] [other] _

theorem sameOrdersBut_apply {number : Int64} {restaurant : Restaurant}
    {entries : List (ProductInfo × Int64)} {hash readyDate : String} {before database : Json}
    {write : Write} (h : write ∈ orderWrites user number restaurant entries hash readyDate)
    (horders : SameOrdersBut user hash before database) :
    SameOrdersBut user hash before (write.apply database) :=
  fun other hother => (apply_of_mem_orderWrites h hother database).trans (horders other hother)

/-! ## Steps that write nothing -/

/-- The database, the writes and the issued orders are the same in both states. -/
structure SameWrites (state next : AccountState) : Prop where
  database : next.database = state.database
  issued : next.issued = state.issued
  writes : ∀ id writes, next.requests id = some (.writing writes) ↔
    state.requests id = some (.writing writes)

theorem nothingWritten_of_sameWrites {state next : AccountState} (hsame : SameWrites state next)
    (h : state.NothingWritten) : next.NothingWritten :=
  fun id writes hwriting => h id writes ((hsame.writes id writes).mp hwriting)

theorem progress_of_sameWrites {before : Json} {state next : AccountState}
    (hsame : SameWrites state next) (h : Progress user before state) :
    Progress user before next := by
  cases h with
  | notIssued hissued hdatabase hnone =>
      exact .notIssued (hsame.issued.trans hissued) (hsame.database.trans hdatabase)
        (nothingWritten_of_sameWrites hsame hnone)
  | writing hissued hk hrequest honly horders =>
      exact .writing (hsame.issued ▸ hissued) hk ((hsame.writes _ _).mpr hrequest)
        (fun other writes h => honly other writes ((hsame.writes other writes).mp h))
        (hsame.database ▸ horders)
  | finished hissued hnone hbasket horders =>
      exact .finished (hsame.issued ▸ hissued) (nothingWritten_of_sameWrites hsame hnone)
        (hsame.database ▸ hbasket) (hsame.database ▸ horders)

theorem sameWrites_setRequest {state : AccountState} {id : Nat} {request : Option Request}
    (hold : ∀ writes, state.requests id ≠ some (.writing writes))
    (hnew : ∀ writes, request ≠ some (.writing writes)) :
    SameWrites state (state.setRequest id request) := by
  refine ⟨rfl, rfl, fun other writes => ?_⟩
  by_cases heq : other = id
  · subst heq
    simp [hold writes, hnew writes]
  · simp [Function.update_of_ne heq]

theorem sameWrites_read {state next : AccountState} {id : Nat} {task : ReadTask}
    {guards : Except NetworkingError (List String)}
    (h : state.read id task guards = some next) : SameWrites state next := by
  rcases read_eq_some h with rfl | ⟨hfree, rfl⟩
  · exact ⟨rfl, rfl, fun _ _ => Iff.rfl⟩
  · exact sameWrites_setRequest (fun writes => by simp [hfree]) (fun writes => by simp)

theorem sameWrites_finish {state : AccountState} {id : Nat} {task : ReadTask} {value : Json}
    (hrequest : state.requests id = some (.answered task value)) :
    SameWrites state (state.setRequest id none) :=
  sameWrites_setRequest (fun writes => by simp [hrequest]) (fun writes => by simp)

theorem SameWrites.trans {first second third : AccountState} (h : SameWrites first second)
    (h' : SameWrites second third) : SameWrites first third :=
  ⟨h'.database.trans h.database, h'.issued.trans h.issued,
    fun id writes => (h'.writes id writes).trans (h.writes id writes)⟩

/-! ## The order -/

/-- An order is made of a basket that is not empty. -/
theorem basket_ne_null_of_makeOrder {number : Int64} {restaurants : List Restaurant}
    {basket : Basket} {entries : List (ProductInfo × Int64)} {now later : Date}
    {writes : List Write} {value : Json} (hbasket : getBasketResponse value = some basket)
    (hentries : basket.Enumerates entries)
    (hwrites : makeOrderResponse dates user number restaurants entries now later = some writes) :
    value ≠ .null := by
  rintro rfl
  obtain ⟨restaurant, -, hrestaurant, -, -⟩ := orderWrites_of_makeOrderResponse hwrites
  have hempty : basket = ∅ := eq_of_holdsBasket holdsBasket_null hbasket
  exact ne_nil_of_orderRestaurant hrestaurant (hentries.eq_empty_iff.mp hempty)

/-- Issuing an order starts its writes. -/
theorem progress_issue {before : Json} {state : AccountState} (hissued : state.issued = [])
    (hdatabase : state.database = before) (hnone : state.NothingWritten) {number : Int64}
    {restaurant : Restaurant}
    {entries : List (ProductInfo × Int64)} {hash readyDate : String} (id screen : Nat)
    (shown : BasketViewController) (order : IssuedOrder) :
    Progress user before
      { (state.setRequest id (some (.writing
          (orderWrites user number restaurant entries hash readyDate)))).setScreen screen shown with
        issued := state.issued ++ [order] } := by
  refine .writing (by simp [hissued]) (Nat.zero_lt_succ 2) (Function.update_self id _ _) ?_
    fun other _ => hdatabase ▸ rfl
  intro other writes hother
  rcases of_update_eq_some hother with ⟨heq, -⟩ | hold
  · exact heq
  · exact absurd hold (hnone other writes)

/-- After the next write of an order either none is left, and it removed the
basket, or the one after it is next. -/
theorem drop_orderWrites {number : Int64} {restaurant : Restaurant}
    {entries : List (ProductInfo × Int64)} {hash readyDate : String} {k : Nat} (hk : k < 3)
    {first : Write} {rest : List Write}
    (h : (orderWrites user number restaurant entries hash readyDate).drop k = first :: rest) :
    (rest = [] ∧ first = ⟨basketPath user, .null⟩) ∨
      (rest ≠ [] ∧ k + 1 < 3 ∧
        rest = (orderWrites user number restaurant entries hash readyDate).drop (k + 1)) := by
  match k with
  | 0 =>
      obtain ⟨-, rfl⟩ := List.cons.inj h
      exact Or.inr ⟨List.cons_ne_nil _ _, by omega, rfl⟩
  | 1 =>
      obtain ⟨-, rfl⟩ := List.cons.inj h
      exact Or.inr ⟨List.cons_ne_nil _ _, by omega, rfl⟩
  | 2 =>
      obtain ⟨rfl, rfl⟩ := List.cons.inj h
      exact Or.inl ⟨rfl, rfl⟩
  | k + 3 => omega

/-- A write of the order in progress is its next one, and the last one removes the
basket. -/
theorem progress_write {before : Json} {state : AccountState} {id : Nat} {first : Write}
    {rest : List Write} (h : Progress user before state)
    (hrequest : state.requests id = some (.writing (first :: rest))) :
    Progress user before
      { state.setRequest id (if rest = [] then none else some (.writing rest)) with
        database := first.apply state.database } := by
  cases h with
  | notIssued hissued hdatabase hnone => exact absurd hrequest (hnone id _)
  | finished hissued hnone hbasket horders => exact absurd hrequest (hnone id _)
  | writing hissued hk hcurrent honly horders =>
      obtain rfl := honly id _ hrequest
      rw [hrequest, Option.some.injEq, Request.writing.injEq] at hcurrent
      have horders' := sameOrdersBut_apply
        (List.mem_of_mem_drop (hcurrent ▸ List.mem_cons_self)) horders
      rcases drop_orderWrites hk hcurrent.symm with ⟨rfl, rfl⟩ | ⟨hrest, hnext, heq⟩
      · rw [if_pos rfl]
        refine .finished hissued (fun other writes hother => ?_)
          (Json.get_set_same state.database (basketPath user) .null) horders'
        rcases of_update_eq_some hother with ⟨-, hnew⟩ | hold
        · cases hnew
        · obtain rfl := honly other writes hold
          rw [setRequest_requests, Function.update_self] at hother
          cases hother
      · rw [if_neg hrest]
        refine .writing hissued hnext ((Function.update_self id _ _).trans (by rw [heq]))
          (fun other writes hother => ?_) horders'
        rcases of_update_eq_some hother with ⟨rfl, -⟩ | hold
        · rfl
        · exact honly other writes hold

theorem progress_step {before : Json} {state next : AccountState} {event : AccountEvent Date}
    (h : Progress user before state) (honly : OrderingOnly event)
    (hguard : Undisturbed user state event) (hstep : state.step dates user event = some next) :
    Progress user before next := by
  cases transition_of_step hstep with
  | menuOpened | menuAppeared | menuTapped | posted | notPosted | menuBasketDelivered
  | menuProductsDelivered => exact honly.elim
  | screenAsked hread => exact progress_of_sameWrites (sameWrites_read hread) h
  | orderPressed hcan hread => exact progress_of_sameWrites (sameWrites_read hread) h
  | okPressed =>
      refine progress_of_sameWrites ?_ h
      exact ⟨rfl, rfl, fun _ _ => Iff.rfl⟩
  | answered hrequest =>
      exact progress_of_sameWrites
        (sameWrites_setRequest (fun writes => by simp [hrequest]) (fun writes => by simp)) h
  | cancelled hrequest =>
      exact progress_of_sameWrites
        (sameWrites_setRequest (fun writes => by simp [hrequest]) (fun writes => by simp)) h
  | screenBasketDelivered hrequest hbasket =>
      have hsame := sameWrites_finish hrequest
      refine progress_of_sameWrites ?_ h
      exact ⟨hsame.database, hsame.issued, hsame.writes⟩
  | restaurantsDelivered hrequest hread =>
      exact progress_of_sameWrites ((sameWrites_finish hrequest).trans (sameWrites_read hread)) h
  | orderDelivered hrequest hbasket hentries hwrites =>
      obtain ⟨hstored, hnone⟩ := hguard
      have hvalue := basket_ne_null_of_makeOrder hbasket hentries hwrites
      obtain ⟨restaurant, readyDate, -, -, rfl⟩ := orderWrites_of_makeOrderResponse hwrites
      cases h with
      | notIssued hissued hdatabase hnone =>
          exact progress_issue hissued hdatabase hnone _ _ _ _
      | writing hissued hk hcurrent honly horders => exact absurd hcurrent (hnone _ _)
      | finished hissued hnone hremoved horders =>
          exact absurd ((hstored _ _ hrequest).trans hremoved) hvalue
  | written hrequest => exact progress_write h hrequest

/-! ## Disturbed runs -/

/-- As long as no order was issued, nothing was written, and every basket that was
read is the one stored at the start. -/
structure Untouched (user : String) (before : Json) (state : AccountState) : Prop where
  database : state.database = before
  none_written : state.NothingWritten
  answers : ∀ id task value, state.requests id = some (.answered task value) →
    path user task = basketPath user → value = before.get (basketPath user)

theorem untouched_setRequest {before : Json} {state : AccountState} {id : Nat}
    {request : Option Request} (h : Untouched user before state)
    (hwrites : ∀ writes, request ≠ some (.writing writes))
    (hanswer : ∀ task value, request = some (.answered task value) →
      path user task = basketPath user → value = before.get (basketPath user)) :
    Untouched user before (state.setRequest id request) := by
  refine ⟨h.database, fun other writes hother => ?_, fun other task value hother => ?_⟩
  · rcases of_update_eq_some hother with ⟨-, hnew⟩ | hold
    · exact hwrites writes hnew
    · exact h.none_written other writes hold
  · rcases of_update_eq_some hother with ⟨-, hnew⟩ | hold
    · exact hanswer task value hnew
    · exact h.answers other task value hold

theorem untouched_finish {before : Json} {state : AccountState} (h : Untouched user before state)
    (id : Nat) : Untouched user before (state.setRequest id none) :=
  untouched_setRequest h (fun _ hnone => nomatch hnone) fun _ _ hnone => nomatch hnone

theorem untouched_read {before : Json} {state next : AccountState} {id : Nat} {task : ReadTask}
    {guards : Except NetworkingError (List String)}
    (hread : state.read id task guards = some next) (h : Untouched user before state) :
    Untouched user before next := by
  rcases read_eq_some hread with rfl | ⟨-, rfl⟩
  · exact h
  · exact untouched_setRequest h (fun _ hnew => nomatch Option.some.inj hnew)
      fun _ _ hnew => nomatch Option.some.inj hnew

/-- An event either issues an order, or leaves an untouched state untouched. -/
theorem untouched_step (before : Json) {state next : AccountState} {event : AccountEvent Date}
    (honly : OrderingOnly event) (hstep : state.step dates user event = some next) :
    (next.issued = state.issued ∧ Undisturbed user state event ∧
      (Untouched user before state → Untouched user before next)) ∨
      (next.issued.length = state.issued.length + 1 ∧
        (Untouched user before state → Undisturbed user state event)) := by
  cases transition_of_step hstep with
  | menuOpened | menuAppeared | menuTapped | posted | notPosted | menuBasketDelivered
  | menuProductsDelivered => exact honly.elim
  | screenAsked hread =>
      exact Or.inl ⟨(sameWrites_read hread).issued, trivial, untouched_read hread⟩
  | orderPressed hcan hread =>
      exact Or.inl ⟨(sameWrites_read hread).issued, trivial, untouched_read hread⟩
  | okPressed =>
      exact Or.inl ⟨rfl, trivial, fun h => ⟨h.database, h.none_written, h.answers⟩⟩
  | answered hrequest =>
      refine Or.inl ⟨rfl, trivial, fun h => untouched_setRequest h ?_ ?_⟩
      · exact fun _ hnew => nomatch Option.some.inj hnew
      · intro task value hnew hpath
        obtain ⟨rfl, rfl⟩ := Request.answered.inj (Option.some.inj hnew)
        rw [hpath, h.database]
  | cancelled hrequest => exact Or.inl ⟨rfl, trivial, fun h => untouched_finish h _⟩
  | screenBasketDelivered hrequest hbasket =>
      refine Or.inl ⟨rfl, trivial, fun h => ?_⟩
      have hfinished := untouched_finish h
      exact ⟨h.database, (hfinished _).none_written, (hfinished _).answers⟩
  | restaurantsDelivered hrequest hread =>
      exact Or.inl ⟨(sameWrites_read hread).issued, trivial,
        fun h => untouched_read hread (untouched_finish h _)⟩
  | orderDelivered hrequest hbasket hentries hwrites =>
      refine Or.inr ⟨by simp, fun h => ⟨fun task value hanswer => ?_, h.none_written⟩⟩
      obtain ⟨rfl, rfl⟩ := Request.answered.inj (Option.some.inj (hrequest.symm.trans hanswer))
      rw [h.answers _ _ _ hrequest rfl, h.database]
  | written hrequest =>
      exact Or.inl ⟨rfl, trivial, fun h => absurd hrequest (h.none_written _ _)⟩

theorem issued_le_of_run {events : List (AccountEvent Date)} :
    ∀ {state final : AccountState}, (∀ event ∈ events, OrderingOnly event) →
      run (step dates user) state events = some final →
      state.issued.length ≤ final.issued.length := by
  induction events with
  | nil =>
      intro state final _ hrun
      rw [run_nil, Option.some.injEq] at hrun
      exact hrun ▸ le_refl _
  | cons event rest ih =>
      intro state final honly hrun
      obtain ⟨next, hstep, hrest⟩ := run_cons_eq_some.mp hrun
      have hle := ih (fun other hmem => honly other (List.mem_cons_of_mem event hmem)) hrest
      rcases untouched_step state.database (honly event List.mem_cons_self) hstep with
        ⟨hsame, -, -⟩ | ⟨hmore, -⟩
      · rwa [hsame] at hle
      · omega

/-- A run that issues at most one order is undisturbed. -/
theorem undisturbed_of_issued_le_one {before : Json} {events : List (AccountEvent Date)} :
    ∀ {state final : AccountState}, (∀ event ∈ events, OrderingOnly event) →
      (state.issued = [] → Untouched user before state) →
      run (step dates user) state events = some final → final.issued.length ≤ 1 →
      Along (step dates user) (Undisturbed user) state events := by
  induction events with
  | nil => intro state final _ _ _ _; trivial
  | cons event rest ih =>
      intro state final honly huntouched hrun hfinal
      obtain ⟨next, hstep, hrest⟩ := run_cons_eq_some.mp hrun
      have honlyRest : ∀ other ∈ rest, OrderingOnly other :=
        fun other hmem => honly other (List.mem_cons_of_mem event hmem)
      have hle := issued_le_of_run honlyRest hrest
      have hcases := untouched_step before (honly event List.mem_cons_self) hstep
      have hnext : next.issued = [] → Untouched user before next := by
        intro hnone
        rcases hcases with ⟨hsame, -, hkeep⟩ | ⟨hmore, -⟩
        · exact hkeep (huntouched (hsame ▸ hnone))
        · rw [hnone, List.length_nil] at hmore
          omega
      refine ⟨?_, fun other hother => ?_⟩
      · rcases hcases with ⟨-, hguard, -⟩ | ⟨hmore, hguard⟩
        · exact hguard
        · exact hguard (huntouched (List.length_eq_zero_iff.mp (by omega)))
      · obtain rfl := Option.some.inj (hstep.symm.trans hother)
        exact ih honlyRest hnext hrest hfinal

/-! ## At most once -/

/-- In every run of presses, responses and writes that is undisturbed throughout,
at most one order entry changes, whatever is stored at the start.  A run that is
disturbed issues a second order. -/
theorem order_at_most_once {start state : AccountState} (hfree : ∀ id, start.requests id = none)
    (hnew : start.issued = []) {events : List (AccountEvent Date)}
    (honly : ∀ event ∈ events, OrderingOnly event)
    (hrun : run (step dates user) start events = some state) :
    (Along (step dates user) (Undisturbed user) start events →
      ∃ hash, ∀ other, other ≠ hash →
        state.database.get (orderPath user other) = start.database.get (orderPath user other)) ∧
    (Along (step dates user) (Undisturbed user) start events ↔ state.issued.length ≤ 1) := by
  have hnone : start.NothingWritten := fun id writes h => by simp [hfree id] at h
  have hprogress : Along (step dates user) (Undisturbed user) start events →
      Progress user start.database state := fun hguard =>
    run_invariant_of_along _ (Progress user start.database)
      (fun _ _ _ hinv hboth hstep => progress_step hinv hboth.1 hboth.2 hstep)
      (.notIssued hnew rfl hnone) (Along.and (along_of_forall_mem start honly) hguard) hrun
  refine ⟨fun hguard => ?_, fun hguard => ?_, fun hissued => ?_⟩
  · cases hprogress hguard with
    | notIssued hissued hdatabase hnone => exact ⟨"", fun other _ => hdatabase ▸ rfl⟩
    | writing hissued hk hrequest honly horders => exact ⟨_, horders⟩
    | finished hissued hnone hbasket horders => exact ⟨_, horders⟩
  · cases hprogress hguard with
    | notIssued hissued hdatabase hnone => simp [hissued]
    | writing hissued hk hrequest honly horders => exact le_of_eq hissued
    | finished hissued hnone hbasket horders => exact le_of_eq hissued
  · exact undisturbed_of_issued_le_one honly
      (fun _ => ⟨rfl, hnone, fun id task value h => by simp [hfree id] at h⟩) hrun hissued

end Once

/-- The only order of its run changes no other entry. -/
theorem order_at_most_once_sample :
    ∃ state, run (step utcDates "user@mail") (initial sampleAccount) sampleOrder = some state ∧
      ∃ hash, ∀ other, other ≠ hash →
        state.database.get (orderPath "user@mail" other) =
          sampleAccount.get (orderPath "user@mail" other) := by
  have hissued : ((run (step utcDates "user@mail") (initial sampleAccount) sampleOrder).any
      fun state => state.issued.length ≤ 1) = true := by decide
  obtain ⟨state, hrun, hle⟩ := (Option.any_eq_true _ _).mp hissued
  have honly : ∀ event ∈ sampleOrder, OrderingOnly event := by
    simp [sampleOrder, OrderingOnly]
  obtain ⟨hentries, hexact⟩ := order_at_most_once (fun _ => rfl) rfl honly hrun
  exact ⟨state, hrun, hentries (hexact.mpr (of_decide_eq_true hle))⟩

/-- The order button is pressed twice, and both orders are made of the basket
before either removes it. -/
def twoPresses : List (AccountEvent Nat) :=
  [ .screenGetsBasket 0 0 true, .answer 0,
    .screenBasketDelivered 0 (sampleBasket.map Prod.fst),
    .orderButtonPressed 0 1 true, .orderButtonPressed 0 2 true, .answer 1, .answer 2,
    .restaurantsDelivered 1 3 17 true true, .restaurantsDelivered 2 4 18 true true,
    .answer 3, .answer 4, .orderDelivered 3 sampleBasket 6294876000 6294876005,
    .orderDelivered 4 sampleBasket 6294876010 6294876015,
    .write 3, .write 3, .write 3, .write 4, .write 4, .write 4]

theorem two_presses_two_orders :
    ∃ state, run (step utcDates "user@mail") (initial sampleAccount) twoPresses = some state ∧
      ¬ ∃ hash, ∀ other, other ≠ hash →
        state.database.get (orderPath "user@mail" other) =
          sampleAccount.get (orderPath "user@mail" other) := by
  have hentries : ((run (step utcDates "user@mail") (initial sampleAccount) twoPresses).any
      fun state =>
        (state.database.get (orderPath "user@mail" "629487600_5")).isNull = false ∧
        (state.database.get (orderPath "user@mail" "629487601_5")).isNull = false) = true := by
    decide
  obtain ⟨state, hrun, hboth⟩ := (Option.any_eq_true _ _).mp hentries
  obtain ⟨hfirst, hsecond⟩ := of_decide_eq_true hboth
  refine ⟨state, hrun, ?_⟩
  rintro ⟨hash, hsame⟩
  by_cases hhash : "629487600_5" = hash
  · rw [hsame "629487601_5" (by rw [← hhash]; decide)] at hsecond
    revert hsecond
    decide
  · rw [hsame "629487600_5" hhash] at hfirst
    revert hfirst
    decide

end QFree.AccountState
