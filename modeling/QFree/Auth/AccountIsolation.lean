/-
  Auth/AccountIsolation.lean --- which account the calls of
  `FirebaseHandler.shared` work for.

  The handler keeps the key of the account that was signed in when it was first
  used, so every operation of `getBasket`, `postBasket`, `getOrders` and
  `makeOrder` lies in that account's subtree.  A call is therefore isolated
  exactly if the same account is signed in when it is made.  `KeepsFirstUser`
  says this of the events of a run alone.

      calls_isolated_iff         the accesses of a run are isolated exactly then
      other_subtrees_unchanged   whatever the accesses, no other account's subtree
                                 of the database changes
-/
import QFree.Auth.Session
import QFree.Networking.BasketRoundTrip
import QFree.Networking.OrderWrites

set_option autoImplicit false

namespace QFree

open QFree.Foundation QFree.FirebaseHandler

variable {Account Date : Type}

/-! ## The accounts of a run -/

/-- The operation lies in the subtree of the account that was signed in when the
method was called, and in no other account's. -/
def Access.Isolated (email : Account → String) (access : Access Account) : Prop :=
  ∃ account, access.caller = some account ∧
    ["Users", userKey (email account)] <+: access.operation.path ∧
    ∀ other, other ≠ account → ¬ ["Users", userKey (email other)] <+: access.operation.path

namespace SessionEvent

/-- A `getBasket`, `postBasket`, `getOrders` or `makeOrder` with a connection. -/
def callsOnline : SessionEvent Account Date → Bool
  | .called _ call isConnected stillConnected =>
      call.usesUser && call.online isConnected stillConnected
  | _ => false

/-- The account that is signed in at the first use of `FirebaseHandler.shared`,
if it is used, in events that start with `user` signed in. -/
def firstUser : Option Account → List (SessionEvent Account Date) → Option (Option Account)
  | _, [] => none
  | user, .called .. :: _ => some user
  | user, event :: rest => firstUser (event.signedIn user) rest

/-- Every online call is made while `first` is signed in. -/
def CallsAs (first : Account) : Option Account → List (SessionEvent Account Date) → Prop
  | _, [] => True
  | user, event :: rest =>
      (event.callsOnline = true → user = some first) ∧ CallsAs first (event.signedIn user) rest

/-- Every online call is made while the account is signed in that was signed in at
the first use of `FirebaseHandler.shared`, or nobody was signed in then. -/
def KeepsFirstUser (user : Option Account) (events : List (SessionEvent Account Date)) : Prop :=
  ∀ first, firstUser user events = some (some first) → CallsAs first user events

theorem firstUser_cons_of_not_call {event : SessionEvent Account Date}
    (hcall : ∀ id call isConnected stillConnected,
      event ≠ .called id call isConnected stillConnected)
    (user : Option Account) (rest : List (SessionEvent Account Date)) :
    firstUser user (event :: rest) = firstUser (event.signedIn user) rest := by
  cases event with
  | called id call isConnected stillConnected => exact absurd rfl (hcall _ _ _ _)
  | _ => rfl

theorem callsOnline_of_not_call {event : SessionEvent Account Date}
    (hcall : ∀ id call isConnected stillConnected,
      event ≠ .called id call isConnected stillConnected) : event.callsOnline = false := by
  cases event with
  | called id call isConnected stillConnected => exact absurd rfl (hcall _ _ _ _)
  | _ => rfl

end SessionEvent

namespace Process

open SessionEvent

variable {dates : DateLibrary Date} {email : Account → String}

/-! ## The handler of a run -/

/-- The handler stays, or is built for the account that is signed in. -/
theorem shared_step {process next : Process Account} {event : SessionEvent Account Date}
    (hstep : process.step dates email event = some next) :
    next.currentUser = event.signedIn process.currentUser ∧
      ((∀ id call isConnected stillConnected, event ≠ .called id call isConnected stillConnected) ∧
          next.shared = process.shared ∨
        (∃ id call isConnected stillConnected,
          event = .called id call isConnected stillConnected) ∧
          next.shared = some (process.handler email)) := by
  cases outcome_of_step hstep with
  | session huser hcall => exact ⟨huser.symm, Or.inl ⟨hcall, rfl⟩⟩
  | refused hperform => exact ⟨rfl, Or.inr ⟨⟨_, _, _, _, rfl⟩, rfl⟩⟩
  | issued hperform => exact ⟨rfl, Or.inr ⟨⟨_, _, _, _, rfl⟩, rfl⟩⟩
  | moved progress hprogress huser hcall hopened => exact ⟨huser.symm, Or.inl ⟨hcall, rfl⟩⟩
  | written hopened hprogress => exact ⟨rfl, Or.inl ⟨by simp, rfl⟩⟩
  | ordered hopened hcall huser hwrites => exact ⟨rfl, Or.inl ⟨by simp, rfl⟩⟩

/-- A handler that was built stays. -/
theorem shared_of_run_of_some {built : FirebaseHandler}
    {events : List (SessionEvent Account Date)} {process final : Process Account}
    (hshared : process.shared = some built)
    (hrun : run (step dates email) process events = some final) :
    final.shared = some built := by
  refine run_invariant (fun process => process.shared = some built) ?_ hshared hrun
  intro process event next hshared hstep
  rcases (shared_step hstep).2 with ⟨-, hnext⟩ | ⟨-, hnext⟩
  · exact hnext.trans hshared
  · rw [hnext, Process.handler, hshared, Option.getD_some]

/-- The handler at the end of a run was built for the account signed in at the
first use. -/
theorem shared_of_run {events : List (SessionEvent Account Date)} :
    ∀ {process final : Process Account}, process.shared = none →
      run (step dates email) process events = some final →
      final.shared = (firstUser process.currentUser events).map fun user =>
        FirebaseHandler.build (user.map email) := by
  induction events with
  | nil =>
      intro process final hshared hrun
      rw [run_nil, Option.some.injEq] at hrun
      exact hrun ▸ hshared
  | cons event rest ih =>
      intro process final hshared hrun
      obtain ⟨next, hstep, hrest⟩ := run_cons_eq_some.mp hrun
      obtain ⟨huser, ⟨hcall, hnext⟩ | ⟨⟨id, call, isConnected, stillConnected, rfl⟩, hnext⟩⟩ :=
        shared_step hstep
      · rw [firstUser_cons_of_not_call hcall, ← huser]
        exact ih (hnext.trans hshared) hrest
      · rw [shared_of_run_of_some hnext hrest, handler, hshared]
        rfl

/-! ## What the accesses are -/

/-- Every open call is of the handler in use and has its first operation among the
accesses, and these lie in the subtree of the handler's key. -/
structure Consistent (process : Process Account) : Prop where
  handler_eq : ∀ {id : Nat} {opened : OpenCall Account},
    process.calls id = some opened → process.shared = some opened.handler
  logged : ∀ {id : Nat} {opened : OpenCall Account},
    process.calls id = some opened →
      ∃ access ∈ process.accesses, access.caller = opened.caller ∧ access.call = opened.call
  path : ∀ access ∈ process.accesses, access.call.usesUser = true →
    ∃ user, process.shared = some ⟨some user⟩ ∧ ["Users", user] <+: access.operation.path

theorem consistent_launched (user : Option Account) (database : Json) :
    Consistent (launched user database) where
  handler_eq := by simp [launched]
  logged := by simp [launched]
  path := by simp [launched]

/-- The invariant after the table of open calls and the accesses changed. -/
theorem Consistent.extend {process next : Process Account} (h : Consistent process)
    (hshared : next.shared = process.shared)
    (hcalls : ∀ {id : Nat} {opened : OpenCall Account}, next.calls id = some opened →
      ∃ before, process.calls id = some before ∧ before.handler = opened.handler ∧
        before.caller = opened.caller ∧ before.call = opened.call)
    {more : List (Access Account)} (hmore : next.accesses = process.accesses ++ more)
    (hpath : ∀ access ∈ more, ∃ user, process.shared = some ⟨some user⟩ ∧
      ["Users", user] <+: access.operation.path) :
    Consistent next where
  handler_eq hopened := by
    obtain ⟨before, hbefore, heq, -, -⟩ := hcalls hopened
    rw [hshared, h.handler_eq hbefore, heq]
  logged hopened := by
    obtain ⟨before, hbefore, -, hcaller, hcall⟩ := hcalls hopened
    obtain ⟨access, hmem, haccess⟩ := h.logged hbefore
    rw [hmore, ← hcaller, ← hcall]
    exact ⟨access, List.mem_append_left more hmem, haccess⟩
  path access hmem huses := by
    rw [hmore] at hmem
    rw [hshared]
    rcases List.mem_append.mp hmem with hold | hnew
    · exact h.path access hold huses
    · exact hpath access hnew

/-- An open call that is moved on stays the same call. -/
theorem same_call_of_moved {process : Process Account} {id other : Nat}
    {opened found : OpenCall Account} (progress : Option CallProgress)
    (hopened : process.calls id = some opened)
    (h : (process.setCall id (progress.map fun now => { opened with progress := now })).calls other
      = some found) :
    ∃ before, process.calls other = some before ∧ before.handler = found.handler ∧
      before.caller = found.caller ∧ before.call = found.call := by
  rcases of_update_eq_some h with ⟨rfl, hnew⟩ | hold
  · obtain ⟨now, -, rfl⟩ := Option.map_eq_some_iff.mp hnew
    exact ⟨opened, hopened, rfl, rfl, rfl⟩
  · exact ⟨found, hold, rfl, rfl, rfl⟩

theorem Consistent.useShared {process : Process Account} (h : Consistent process) :
    Consistent (process.useShared email) where
  handler_eq hopened := by
    have hshared := h.handler_eq hopened
    simp only [Process.useShared, handler, hshared, Option.getD_some]
  logged hopened := h.logged hopened
  path access hmem huses := by
    obtain ⟨user, hshared, hpath⟩ := h.path access hmem huses
    refine ⟨user, ?_, hpath⟩
    simp only [Process.useShared, handler, hshared, Option.getD_some]

/-- A call of a handler that was built issues its first operation. -/
theorem Consistent.issue {process : Process Account} (h : Consistent process) {id : Nat}
    {call : SharedCall} {isConnected stillConnected : Bool} {operation : Operation}
    (hshared : process.shared = some (process.handler email))
    (hperform : call.perform (process.handler email) isConnected stillConnected =
      .ok operation) :
    Consistent (process.issue email id call operation) where
  handler_eq hopened := by
    rcases of_update_eq_some hopened with ⟨-, hnew⟩ | hold
    · exact Option.some.inj hnew ▸ hshared
    · exact h.handler_eq hold
  logged hopened := by
    rcases of_update_eq_some hopened with ⟨-, hnew⟩ | hold
    · refine ⟨_, List.mem_append_right _ (List.mem_singleton.mpr rfl), ?_⟩
      exact Option.some.inj hnew ▸ ⟨rfl, rfl⟩
    · obtain ⟨access, hmem, haccess⟩ := h.logged hold
      exact ⟨access, List.mem_append_left _ hmem, haccess⟩
  path access hmem huses := by
    rcases List.mem_append.mp hmem with hold | hnew
    · exact h.path access hold huses
    · obtain rfl := List.mem_singleton.mp hnew
      obtain ⟨-, user, huser, hpath⟩ := SharedCall.perform_eq_ok huses hperform
      refine ⟨user, hshared.trans ?_, hpath⟩
      rw [← huser]

/-- The writes of an order lie in the subtree of the key. -/
theorem path_of_makeOrderResponse {user : String} {number : Int64}
    {restaurants : List Restaurant} {entries : List (ProductInfo × Int64)} {now later : Date}
    {writes : List Write}
    (h : FirebaseHandler.makeOrderResponse dates user number restaurants entries now later =
      some writes) : ∀ write ∈ writes, ["Users", user] <+: write.path := by
  obtain ⟨restaurant, readyDate, -, -, rfl⟩ := FirebaseHandler.orderWrites_of_makeOrderResponse h
  intro write hmem
  simp only [FirebaseHandler.orderWrites, List.mem_cons, List.not_mem_nil, or_false] at hmem
  rcases hmem with rfl | rfl | rfl
  · exact ⟨["orders", getTimestamp dates later, "products"], rfl⟩
  · exact ⟨["orders", getTimestamp dates later, "info"], rfl⟩
  · exact ⟨["basket"], rfl⟩

theorem consistent_step {process next : Process Account} {event : SessionEvent Account Date}
    (h : Consistent process) (hstep : process.step dates email event = some next) :
    Consistent next := by
  cases outcome_of_step hstep with
  | session huser hcall => exact ⟨h.handler_eq, h.logged, h.path⟩
  | refused hperform => exact h.useShared
  | issued hperform => exact h.useShared.issue rfl hperform
  | moved progress hprogress huser hcall hopened =>
      exact h.extend rfl (same_call_of_moved progress hopened) (List.append_nil _).symm (by simp)
  | written hopened hprogress =>
      exact h.extend rfl (same_call_of_moved _ hopened) (List.append_nil _).symm (by simp)
  | ordered hopened hcall huser hwrites =>
      refine h.extend rfl (same_call_of_moved (some _) hopened) rfl ?_
      intro access hmem
      obtain ⟨write, hwrite, rfl⟩ := List.mem_map.mp hmem
      refine ⟨_, ?_, path_of_makeOrderResponse hwrites write hwrite⟩
      rw [h.handler_eq hopened, ← huser]

/-- Every access that uses a key is of a call made while `account` was signed in. -/
def CalledBy (account : Account) (accesses : List (Access Account)) : Prop :=
  ∀ access ∈ accesses, access.call.usesUser = true → access.caller = some account

theorem calledBy_append {account : Account} {accesses more : List (Access Account)} :
    CalledBy account (accesses ++ more) ↔ CalledBy account accesses ∧ CalledBy account more := by
  simp only [CalledBy, List.mem_append, or_imp, forall_and]

/-- If the handler has a key, a step adds accesses of the signed-in account exactly
when it is an online call; the writes of an order have the caller of its read. -/
theorem calledBy_step {first : Account} {user : String} {process next : Process Account}
    {event : SessionEvent Account Date} (h : Consistent process)
    (hstep : process.step dates email event = some next)
    (hshared : ∀ built, next.shared = some built → built.user = some user) :
    CalledBy first next.accesses ↔
      CalledBy first process.accesses ∧
        (event.callsOnline = true → process.currentUser = some first) := by
  cases outcome_of_step hstep with
  | session huser hcall => simp [callsOnline_of_not_call hcall, CalledBy]
  | moved progress hprogress huser hcall hopened =>
      simp [callsOnline_of_not_call hcall, CalledBy, setCall]
  | written hopened hprogress => simp [callsOnline, CalledBy, setCall]
  | @refused id call isConnected stillConnected error hperform =>
      have hoffline : ¬ (call.online isConnected stillConnected = true) := by
        intro honline
        have huser : (process.handler email).user = some user := hshared _ rfl
        obtain ⟨operation, hok⟩ := SharedCall.perform_of_online huser honline
        rw [hperform] at hok
        cases hok
      simp [callsOnline, hoffline, CalledBy, useShared]
  | @issued id call isConnected stillConnected operation hperform =>
      refine calledBy_append.trans (and_congr_right fun _ => ⟨fun hnew honline => ?_, ?_⟩)
      · exact hnew _ (List.mem_singleton.mpr rfl) (Bool.and_eq_true_iff.mp honline).1
      · intro honline access hmem huses
        obtain rfl := List.mem_singleton.mp hmem
        obtain ⟨hcall, -⟩ := SharedCall.perform_eq_ok huses hperform
        exact honline (Bool.and_eq_true_iff.mpr ⟨huses, hcall⟩)
  | ordered hopened hcall huser hwrites =>
      refine calledBy_append.trans (and_congr_right fun hbefore => ⟨fun _ => (nomatch ·), ?_⟩)
      intro _ access hmem huses
      obtain ⟨write, -, rfl⟩ := List.mem_map.mp hmem
      obtain ⟨read, hread, hcaller, hsame⟩ := h.logged hopened
      exact hcaller ▸ hbefore read hread (hsame ▸ huses)

theorem calledBy_of_run {first : Account} {user : String}
    {events : List (SessionEvent Account Date)} :
    ∀ {process final : Process Account}, Consistent process →
      run (step dates email) process events = some final → final.shared = some ⟨some user⟩ →
      (CalledBy first final.accesses ↔
        CalledBy first process.accesses ∧ CallsAs first process.currentUser events) := by
  induction events with
  | nil =>
      intro process final _ hrun _
      rw [run_nil, Option.some.injEq] at hrun
      simp [hrun, CallsAs]
  | cons event rest ih =>
      intro process final hconsistent hrun hshared
      obtain ⟨next, hstep, hrest⟩ := run_cons_eq_some.mp hrun
      have hbuilt : ∀ built, next.shared = some built → built.user = some user := by
        intro built hnext
        have hfinal := shared_of_run_of_some hnext hrest
        rw [← Option.some.inj (hshared.symm.trans hfinal)]
      rw [ih (consistent_step hconsistent hstep) hrest hshared,
        calledBy_step hconsistent hstep hbuilt, (shared_step hstep).1, and_assoc]
      rfl

/-! ## Isolation -/

/-- An access in the subtree of an account's key is isolated exactly if that account
was signed in when the call was made. -/
theorem isolated_iff (hkeys : Function.Injective fun account => userKey (email account))
    {first : Account} {access : Access Account}
    (hpath : ["Users", userKey (email first)] <+: access.operation.path) :
    access.Isolated email ↔ access.caller = some first := by
  have hsame : ∀ account,
      ["Users", userKey (email account)] <+: access.operation.path → account = first := by
    intro account haccount
    have hprefix := List.prefix_of_prefix_length_le haccount hpath le_rfl
    exact hkeys (by simpa using hprefix)
  constructor
  · rintro ⟨account, hcaller, haccount, -⟩
    rw [hcaller, hsame account haccount]
  · intro hcaller
    exact ⟨first, hcaller, hpath, fun other hne hother => hne (hsame other hother)⟩

/-- In every run of an app, every `getBasket`, `postBasket`, `getOrders` and
`makeOrder` reads and writes only the subtree of the account that is signed in when
it is called, if and only if every such call with a connection is made by the account
that was signed in at the first use of `FirebaseHandler.shared`. -/
theorem calls_isolated_iff (hkeys : Function.Injective fun account => userKey (email account))
    (user : Option Account) (database : Json) {events : List (SessionEvent Account Date)}
    {final : Process Account}
    (hrun : run (step dates email) (launched user database) events = some final) :
    (∀ access ∈ final.accesses, access.call.usesUser = true → access.Isolated email) ↔
      KeepsFirstUser user events := by
  have hconsistent : Consistent final :=
    run_invariant Consistent (fun _ _ _ h hstep => consistent_step h hstep)
      (consistent_launched user database) hrun
  have hshared : final.shared = (firstUser user events).map fun user =>
      FirebaseHandler.build (user.map email) := shared_of_run rfl hrun
  by_cases hfirst : ∃ first, firstUser user events = some (some first)
  · obtain ⟨first, hfirst⟩ := hfirst
    rw [hfirst] at hshared
    have hpath : ∀ access ∈ final.accesses, access.call.usesUser = true →
        ["Users", userKey (email first)] <+: access.operation.path := by
      intro access hmem huses
      obtain ⟨key, hkey, hpath⟩ := hconsistent.path access hmem huses
      obtain rfl : userKey (email first) = key := by
        simpa [FirebaseHandler.build] using hshared.symm.trans hkey
      exact hpath
    have hisolated : (∀ access ∈ final.accesses, access.call.usesUser = true →
        access.Isolated email) ↔ CalledBy first final.accesses :=
      forall_congr' fun access => forall_congr' fun hmem => forall_congr' fun huses =>
        isolated_iff hkeys (hpath access hmem huses)
    have hcalled : CalledBy first final.accesses ↔
        CalledBy first [] ∧ CallsAs first user events :=
      calledBy_of_run (consistent_launched user database) hrun hshared
    have hnone : CalledBy first [] := by simp [CalledBy]
    have hkeeps : KeepsFirstUser user events ↔ CallsAs first user events := by
      simp [KeepsFirstUser, hfirst]
    rw [hisolated, hcalled, hkeeps, and_iff_right hnone]
  · -- the handler was not built or has no key, so no call got past its guards
    have hnone : ∀ access ∈ final.accesses, access.call.usesUser ≠ true := by
      intro access hmem huses
      obtain ⟨key, hkey, -⟩ := hconsistent.path access hmem huses
      obtain ⟨signed, hsigned, hbuild⟩ := Option.map_eq_some_iff.mp (hshared.symm.trans hkey)
      cases signed with
      | none => cases hbuild
      | some first => exact hfirst ⟨first, hsigned⟩
    constructor
    · exact fun _ first h => absurd ⟨first, h⟩ hfirst
    · exact fun _ access hmem huses => absurd huses (hnone access hmem)

/-! ## What the database keeps -/

/-- Every write that is on its way is among the accesses, of a method that uses the
key. -/
def WritesLogged (process : Process Account) : Prop :=
  ∀ id opened writes, process.calls id = some opened → opened.progress = .writing writes →
    ∀ write ∈ writes, ∃ access ∈ process.accesses, access.call.usesUser = true ∧
      access.operation = .setValue write

theorem writesLogged_step {process next : Process Account} {event : SessionEvent Account Date}
    (h : WritesLogged process) (hstep : process.step dates email event = some next) :
    WritesLogged next := by
  cases outcome_of_step hstep with
  | session huser hcall => exact h
  | refused hperform => exact h
  | @issued id call isConnected stillConnected operation hperform =>
      intro other opened writes hopened hwriting write hmem
      rcases of_update_eq_some hopened with ⟨-, hnew⟩ | hold
      · obtain rfl := Option.some.inj hnew
        obtain ⟨started, rfl, rfl⟩ := CallProgress.start_eq_writing hwriting
        obtain rfl := List.mem_singleton.mp hmem
        exact ⟨_, List.mem_append_right _ (List.mem_singleton.mpr rfl),
          SharedCall.usesUser_of_perform hperform, rfl⟩
      · obtain ⟨access, haccess, hlogged⟩ := h other opened writes hold hwriting write hmem
        exact ⟨access, List.mem_append_left _ haccess, hlogged⟩
  | moved progress hprogress huser hcall hopened =>
      intro other opened writes hother hwriting write hmem
      rcases of_update_eq_some hother with ⟨-, hnew⟩ | hold
      · obtain ⟨now, rfl, rfl⟩ := Option.map_eq_some_iff.mp hnew
        exact absurd (congrArg some hwriting) (hprogress writes)
      · exact h other opened writes hold hwriting write hmem
  | written hopened hprogress =>
      intro other opened writes hother hwriting write hmem
      rcases of_update_eq_some hother with ⟨-, hnew⟩ | hold
      · obtain ⟨now, hrest, rfl⟩ := Option.map_eq_some_iff.mp hnew
        split at hrest
        · cases hrest
        · obtain rfl := CallProgress.writing.inj ((Option.some.inj hrest).trans hwriting)
          exact h _ _ _ hopened hprogress write (List.mem_cons_of_mem _ hmem)
      · exact h other opened writes hold hwriting write hmem
  | ordered hopened hcall huser hwrites =>
      intro other opened writes hother hwriting write hmem
      rcases of_update_eq_some hother with ⟨-, hnew⟩ | hold
      · obtain rfl := Option.some.inj hnew
        obtain rfl := CallProgress.writing.inj hwriting
        refine ⟨_, List.mem_append_right _ (List.mem_map_of_mem hmem), ?_, rfl⟩
        simp [hcall, SharedCall.usesUser]
      · obtain ⟨access, haccess, hlogged⟩ := h other opened writes hold hwriting write hmem
        exact ⟨access, List.mem_append_left _ haccess, hlogged⟩

/-- The database changes only by a write that is among the accesses. -/
theorem database_step {process next : Process Account} {event : SessionEvent Account Date}
    (h : WritesLogged process) (hstep : process.step dates email event = some next) :
    next.database = process.database ∨
      ∃ access ∈ process.accesses, access.call.usesUser = true ∧
        ∃ write, access.operation = .setValue write ∧
          next.database = write.apply process.database := by
  cases outcome_of_step hstep with
  | session | refused | issued | moved | ordered => exact Or.inl rfl
  | written hopened hprogress =>
      obtain ⟨access, hmem, huses, hwrite⟩ :=
        h _ _ _ hopened hprogress _ List.mem_cons_self
      exact Or.inr ⟨access, hmem, huses, _, hwrite, rfl⟩

/-- Only the subtree of the handler's key has changed. -/
structure KeepsOthers (database : Json) (process : Process Account) : Prop where
  consistent : Consistent process
  logged : WritesLogged process
  kept : ∀ key, process.shared ≠ some ⟨some key⟩ → ∀ below,
    process.database.get ("Users" :: key :: below) = database.get ("Users" :: key :: below)

theorem keepsOthers_step {database : Json} {process next : Process Account}
    {event : SessionEvent Account Date} (h : KeepsOthers database process)
    (hstep : process.step dates email event = some next) : KeepsOthers database next := by
  refine ⟨consistent_step h.consistent hstep, writesLogged_step h.logged hstep, ?_⟩
  intro key hkey below
  have hbefore : process.shared ≠ some ⟨some key⟩ := by
    intro hshared
    rcases (shared_step hstep).2 with ⟨-, hnext⟩ | ⟨-, hnext⟩
    · exact hkey (hnext.trans hshared)
    · exact hkey (by rw [hnext, Process.handler, hshared, Option.getD_some])
  rcases database_step h.logged hstep with hsame | ⟨access, hmem, huses, write, hwrite, hnext⟩
  · rw [hsame]
    exact h.kept key hbefore below
  · obtain ⟨user, hshared, rest, hpath⟩ := h.consistent.path access hmem huses
    have hne : key ≠ user := by
      rintro rfl
      exact hbefore hshared
    rw [hwrite] at hpath
    rw [hnext, ← h.kept key hbefore below, Write.apply,
      show write.path = ["Users"] ++ user :: rest from hpath.symm]
    exact Json.get_set_of_ne process.database ["Users"] hne rest below _

/-- In every run the subtrees of all accounts but the first one stay as they were. -/
theorem other_subtrees_unchanged (user : Option Account) (database : Json)
    {events : List (SessionEvent Account Date)} {final : Process Account}
    (hrun : run (step dates email) (launched user database) events = some final) {key : String}
    (hkey : ∀ first, firstUser user events = some (some first) → key ≠ userKey (email first))
    (below : List String) :
    final.database.get ("Users" :: key :: below) = database.get ("Users" :: key :: below) := by
  have hkeeps : KeepsOthers database final :=
    run_invariant (KeepsOthers database) (fun _ _ _ h hstep => keepsOthers_step h hstep)
      ⟨consistent_launched user database, by simp [WritesLogged, launched], fun _ _ _ => rfl⟩ hrun
  refine hkeeps.kept key (fun hshared => ?_) below
  rw [shared_of_run rfl hrun] at hshared
  obtain ⟨signed, hsigned, hbuild⟩ := Option.map_eq_some_iff.mp hshared
  cases signed with
  | none => cases hbuild
  | some first =>
      refine hkey first hsigned ?_
      simpa [FirebaseHandler.build] using hbuild.symm

/-! ## Two accounts on one device -/

/-- The addresses of two accounts. -/
def sampleEmail : Bool → String
  | false => "user@mail.ru"
  | true => "other@mail.ru"

/-- The first account looks at the restaurants and its basket, posts it and orders
it; then it signs out and back in, and reads its orders. -/
def oneUser : List (SessionEvent Bool Nat) :=
  [ .register false, .called 0 .getRestaurantsInfo true true,
    .called 1 .getBasket true true, .answer 1, .delivered 1,
    .called 2 (.postBasket (Dictionary.ofEntries sampleBasket) sampleBasket) true true, .write 2,
    .called 3 (.makeOrder 17 (Dictionary.ofEntries sampleBasket) [sampleRestaurant]) true true,
    .answer 3, .orderDelivered 3 sampleBasket 6294876000 6294876005, .write 3, .write 3, .write 3,
    .signOut, .signIn false, .called 4 .getOrders true true ]

theorem calls_isolated_iff_sample :
    ∃ final, run (step utcDates sampleEmail) (launched none (.object [])) oneUser = some final ∧
      (∃ access ∈ final.accesses, access.call.usesUser = true) ∧
      ∀ access ∈ final.accesses, access.call.usesUser = true → access.Isolated sampleEmail := by
  have hany : (run (step utcDates sampleEmail) (launched none (.object [])) oneUser).any
      (fun final => final.accesses.any fun access => access.call.usesUser) = true := by decide
  obtain ⟨final, hrun, haccess⟩ := (Option.any_eq_true _ _).mp hany
  have hkeeps : KeepsFirstUser none oneUser := by
    intro first hfirst
    obtain rfl : false = first := Option.some.inj (Option.some.inj hfirst)
    simp [oneUser, CallsAs, SessionEvent.signedIn, SessionEvent.callsOnline]
  exact ⟨final, hrun, List.any_eq_true.mp haccess,
    (calls_isolated_iff (by decide) none (.object []) hrun).mpr hkeeps⟩

/-- The first account looks at the restaurants and signs out; the second signs in
and its basket is asked for. -/
def secondUser : List (SessionEvent Bool Nat) :=
  [ .signIn false, .called 0 .getRestaurantsInfo true true, .signOut, .signIn true,
    .called 1 .getBasket true true ]

/-- The second account is given the basket of the first. -/
theorem second_user_reads_first_basket :
    ∃ final, run (step utcDates sampleEmail) (launched none (.object [])) secondUser =
        some final ∧
      ∃ access ∈ final.accesses, access.call.usesUser = true ∧ access.caller = some true ∧
        access.operation.path = FirebaseHandler.basketPath (userKey (sampleEmail false)) ∧
        ¬ access.Isolated sampleEmail := by
  have hread : ((run (step utcDates sampleEmail) (launched none (.object [])) secondUser).any
      fun final => final.accesses.any fun access =>
        access.call.usesUser && access.caller = some true &&
          access.operation.path = basketPath (userKey (sampleEmail false))) = true := by decide
  obtain ⟨final, hrun, hany⟩ := (Option.any_eq_true _ _).mp hread
  obtain ⟨access, hmem, h⟩ := List.any_eq_true.mp hany
  simp only [Bool.and_eq_true, decide_eq_true_eq] at h
  obtain ⟨⟨huses, hcaller⟩, hpath⟩ := h
  refine ⟨final, hrun, access, hmem, huses, hcaller, hpath, ?_⟩
  rintro ⟨account, hsigned, hown, -⟩
  obtain rfl : true = account := Option.some.inj (hcaller.symm.trans hsigned)
  rw [hpath] at hown
  exact absurd hown (by decide)

end Process

end QFree
