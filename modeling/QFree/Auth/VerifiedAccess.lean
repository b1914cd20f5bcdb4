/-
  Auth/VerifiedAccess.lean --- who gets to the tab bar.

  The tab bar is installed in three places: by the loop of a confirmation screen,
  by a sign-in, and by a launch that finds a current user, whom Firebase Auth keeps
  on the device.  The first looks at `isEmailVerified`, the others do not.  Nor is
  it looked at again: a registration that ends after a loop has found its user
  verified replaces the user below the tab bar.

  `Admits` leaves these out.  Every run that keeps to it shows the tab bar to
  verified accounts only, and a step against it leads to a state where the loops,
  going on alone, show it to another (`tab_bar_verified_iff`).
-/
import QFree.Auth.EmailConfirmation

set_option autoImplicit false

namespace QFree

open QFree.Foundation

variable {Account : Type}

/-! ## Launches -/

/-- `SceneDelegate.initialViewController`. -/
def initialViewController (currentUser : Option (User Account)) : Root :=
  if currentUser.isNone then .entrance else .tabBar

/-- The deletion a request asks for. -/
def AuthRequest.deletion : AuthRequest Account → Option (Deletion Account)
  | .delete deletion => some deletion
  | _ => none

/-- The app on a device: its process, and what earlier processes asked the server
to delete without waiting for the answer. -/
structure Installation (Account : Type) where
  auth : AuthState Account
  orphans : List (Deletion Account)

/-- What can happen to it. -/
inductive InstallationEvent (Account : Type) where
  | auth (event : AuthEvent Account)
  /-- the process is terminated and the app launched again -/
  | relaunched
  /-- the server performs a deletion of an earlier process -/
  | orphanRemoved (n : Nat)

namespace AuthState

variable [DecidableEq Account]

/-- The server removes the account. -/
def remove (state : AuthState Account) (deletion : Deletion Account) : AuthState Account :=
  { state.setRecord deletion.account .removed with
    removals := state.removals ++ [⟨deletion, state.server deletion.account⟩] }

end AuthState

namespace Installation

/-- The app before its first launch, on a server with these accounts. -/
def installed (server : Account → AccountRecord) : Installation Account :=
  ⟨.launched server, []⟩

/-- A new process: the current user is kept, screens and completions are gone. -/
def relaunch (state : Installation Account) : Installation Account where
  auth := { state.auth with
    root := initialViewController state.auth.currentUser
    screens := []
    requests := [] }
  orphans := state.orphans ++ state.auth.requests.filterMap AuthRequest.deletion

/-- One event. -/
def step [DecidableEq Account] (state : Installation Account) :
    InstallationEvent Account → Option (Installation Account)
  | .auth event => (state.auth.step event).map fun auth => { state with auth := auth }
  | .relaunched => some state.relaunch
  | .orphanRemoved n => do
      let deletion ← state.orphans[n]?
      if state.auth.server deletion.account = .unverified ∨
          state.auth.server deletion.account = .verified then
        some { state with auth := state.auth.remove deletion }
      else none

end Installation

/-! ## Verified accounts -/

/-- The loop of the screen has found its user verified, and the tab bar is not
installed yet. -/
def ConfirmationScreen.installs (screen : ConfirmationScreen Account) : Bool :=
  match screen.poll with
  | .installing => true
  | .exited => !screen.stopAnimating
  | _ => false

namespace AuthState

/-- The e-mail of the account is verified, or was when the account was removed. -/
def WasVerified (state : AuthState Account) (account : Account) : Prop :=
  state.server account = .verified ∨
    ∃ removal ∈ state.removals, removal.deletion.account = account ∧ removal.record = .verified

instance (state : AuthState Account) (account : Account) [DecidableEq Account] :
    Decidable (state.WasVerified account) :=
  inferInstanceAs (Decidable (state.server account = .verified ∨
    ∃ removal ∈ state.removals, removal.deletion.account = account ∧ removal.record = .verified))

/-- Below the tab bar only a verified account is signed in. -/
def OnlyVerified (state : AuthState Account) : Prop :=
  state.root = .tabBar → ∀ user ∈ state.currentUser, state.WasVerified user.account

instance (state : AuthState Account) [DecidableEq Account] : Decidable state.OnlyVerified :=
  inferInstanceAs (Decidable (state.root = .tabBar → ∀ user ∈ state.currentUser, _))

/-- No sign-in of an account that is not verified, and no registration below the
tab bar or a tab bar on its way. -/
def Admits (state : AuthState Account) : AuthEvent Account → Prop
  | .registered _ => state.root ≠ .tabBar ∧ ∀ screen ∈ state.screens, screen.installs = false
  | .signedIn account => state.server account = .verified
  | _ => True

instance (state : AuthState Account) :
    (event : AuthEvent Account) → Decidable (state.Admits event)
  | .registered _ => inferInstanceAs (Decidable (state.root ≠ .tabBar ∧
      ∀ screen ∈ state.screens, screen.installs = false))
  | .signedIn account => inferInstanceAs (Decidable (state.server account = .verified))
  | .verified _ | .loggedOut | .polled _ | .tabBarInstalled _ | .viewWillDisappear _
  | .disappearCancelled _ | .viewDidDisappear _ | .confirmPressed _ | .reloaded _
  | .requestFailed _ | .removed _ | .deletionCompleted _ => .isTrue trivial

/-- The invariant of runs that keep to the condition. -/
structure Guarded (state : AuthState Account) : Prop where
  current : ∀ user ∈ state.currentUser, user.session < state.sessions
  /-- the user object says so only if the server did -/
  flag : ∀ user ∈ state.currentUser, user.isEmailVerified = true → state.WasVerified user.account
  /-- a reload knows the account of the object it will change -/
  reloads : ∀ user confirms, .reload user confirms ∈ state.requests →
    user.session < state.sessions ∧
      ∀ current ∈ state.currentUser, current.session = user.session →
        current.account = user.account
  pending : ∀ screen ∈ state.screens, screen.installs = true →
    ∀ user ∈ state.currentUser, state.WasVerified user.account
  removed : ∀ removal ∈ state.removals, state.server removal.deletion.account = .removed
  root : state.OnlyVerified

theorem guarded_launched (server : Account → AccountRecord) : (launched server).Guarded :=
  ⟨nofun, nofun, nofun, nofun, nofun, nofun⟩

section Parts

variable {state : AuthState Account} {screen : ConfirmationScreen Account}

/-- An account with another record was never verified. -/
theorem Guarded.not_wasVerified (h : state.Guarded) {account : Account}
    (hverified : state.server account ≠ .verified) (hremoved : state.server account ≠ .removed) :
    ¬state.WasVerified account := by
  rintro (hserver | ⟨removal, hmem, rfl, -⟩)
  · exact hverified hserver
  · exact hremoved (h.removed removal hmem)

/-- One screen changes. -/
theorem Guarded.setScreen (h : state.Guarded) (n : Nat)
    (hpending : screen.installs = true → ∀ user ∈ state.currentUser,
      state.WasVerified user.account) : (state.setScreen n screen).Guarded where
  current := h.current
  flag := h.flag
  reloads := h.reloads
  pending other hmem := by
    rcases List.mem_or_eq_of_mem_set hmem with hold | rfl
    · exact h.pending other hold
    · exact hpending
  removed := h.removed
  root := h.root

/-- A change after which no tab bar is newly on its way. -/
theorem Guarded.changeScreen (h : state.Guarded) {n : Nat} {changed : ConfirmationScreen Account}
    (hscreen : state.screens[n]? = some screen)
    (hinstalls : changed.installs = true → screen.installs = true) :
    (state.setScreen n changed).Guarded :=
  h.setScreen n fun hchanged => h.pending screen (List.mem_of_getElem? hscreen) (hinstalls hchanged)

/-- A request is started. -/
theorem Guarded.ask (h : state.Guarded) {request : AuthRequest Account}
    (hrequest : ∀ user confirms, request = .reload user confirms →
      user ∈ state.currentUser) : (state.ask request).Guarded where
  current := h.current
  flag := h.flag
  reloads user confirms hmem := by
    rcases List.mem_append.mp hmem with hold | hnew
    · exact h.reloads user confirms hold
    · have huser := hrequest user confirms (List.mem_singleton.mp hnew).symm
      refine ⟨h.current user huser, fun current hcurrent _ => ?_⟩
      rw [Option.some.inj (hcurrent.symm.trans huser)]
  pending := h.pending
  removed := h.removed
  root := h.root

/-- Such a change, with `deleteUser`. -/
theorem Guarded.deleteUser (h : state.Guarded) {n : Nat} {changed : ConfirmationScreen Account}
    (hscreen : state.screens[n]? = some screen)
    (hinstalls : changed.installs = true → screen.installs = true) :
    ((state.deleteUser screen).setScreen n changed).Guarded := by
  unfold AuthState.deleteUser
  split
  · exact h.changeScreen hscreen hinstalls
  · split
    · exact h.changeScreen hscreen hinstalls
    · rename_i user huser
      have hasked : (state.ask (.delete ⟨screen.account, user.account, screen.place⟩)).Guarded :=
        h.ask fun _ _ heq => nomatch heq
      exact hasked.changeScreen hscreen hinstalls

/-- A request ends. -/
theorem Guarded.setRequest (h : state.Guarded) (k : Nat) (request : AuthRequest Account)
    (hrequest : ∀ user confirms, request ≠ .reload user confirms) :
    (state.setRequest k request).Guarded where
  current := h.current
  flag := h.flag
  reloads user confirms hmem := by
    rcases List.mem_or_eq_of_mem_set hmem with hold | heq
    · exact h.reloads user confirms hold
    · exact absurd heq.symm (hrequest user confirms)
  pending := h.pending
  removed := h.removed
  root := h.root

/-- Nobody is signed in. -/
theorem Guarded.signOut (h : state.Guarded) (root : Root) :
    Guarded { state with currentUser := none, root := root } where
  current := nofun
  flag := nofun
  reloads user confirms hmem := ⟨(h.reloads user confirms hmem).1, nofun⟩
  pending _ _ _ := nofun
  removed := h.removed
  root _ := nofun

/-- A user object is made. -/
theorem Guarded.signIn (h : state.Guarded) (account : Account) (isEmailVerified : Bool)
    (hflag : isEmailVerified = true → state.WasVerified account)
    (hpending : ∀ screen ∈ state.screens, screen.installs = true → state.WasVerified account)
    (root : Root) (hroot : root = .tabBar → state.WasVerified account) :
    Guarded { state.signIn account isEmailVerified with root := root } where
  current user huser := by
    rw [← Option.some.inj huser]
    exact Nat.lt_succ_self state.sessions
  flag user huser := by
    rw [← Option.some.inj huser]
    exact hflag
  reloads user confirms hmem := by
    have hsession := (h.reloads user confirms hmem).1
    refine ⟨Nat.lt_succ_of_lt hsession, fun current hcurrent heq => ?_⟩
    rw [← Option.some.inj hcurrent] at heq
    exact absurd heq (Nat.ne_of_gt hsession)
  pending screen hmem hinstalls user huser := by
    rw [← Option.some.inj huser]
    exact hpending screen hmem hinstalls
  removed := h.removed
  root hbar user huser := by
    rw [← Option.some.inj huser]
    exact hroot hbar

/-- The object a reload knows gets what the server said. -/
theorem Guarded.loadUser (h : state.Guarded) {user : User Account} {isEmailVerified : Bool}
    (hsession : ∀ current ∈ state.currentUser, current.session = user.session →
      current.account = user.account)
    (hverified : isEmailVerified = true → state.WasVerified user.account) :
    (state.loadUser user.session isEmailVerified).Guarded := by
  have hbefore : ∀ after ∈ (state.loadUser user.session isEmailVerified).currentUser,
      ∃ current ∈ state.currentUser, current.session = after.session ∧
        current.account = after.account ∧
        (after.isEmailVerified = true → current.isEmailVerified = true ∨
          state.WasVerified current.account) := by
    intro after hafter
    obtain ⟨current, hcurrent, rfl⟩ := Option.map_eq_some_iff.mp hafter
    refine ⟨current, hcurrent, ?_⟩
    split
    · rename_i heq
      exact ⟨rfl, rfl, fun hflag => .inr (hsession current hcurrent heq ▸ hverified hflag)⟩
    · exact ⟨rfl, rfl, .inl⟩
  have haccount : ∀ after ∈ (state.loadUser user.session isEmailVerified).currentUser,
      (∀ current ∈ state.currentUser, state.WasVerified current.account) →
        state.WasVerified after.account := by
    intro after hafter hall
    obtain ⟨current, hcurrent, -, haccount, -⟩ := hbefore after hafter
    exact haccount ▸ hall current hcurrent
  refine ⟨?_, ?_, ?_, ?_, h.removed, ?_⟩
  · intro after hafter
    obtain ⟨current, hcurrent, hsame, -, -⟩ := hbefore after hafter
    exact hsame ▸ h.current current hcurrent
  · intro after hafter hflag
    obtain ⟨current, hcurrent, -, haccount, hwas⟩ := hbefore after hafter
    exact haccount ▸ (hwas hflag).elim (h.flag current hcurrent) id
  · intro other confirms hmem
    refine ⟨(h.reloads other confirms hmem).1, fun after hafter heq => ?_⟩
    obtain ⟨current, hcurrent, hsame, haccount, -⟩ := hbefore after hafter
    rw [← haccount]
    exact (h.reloads other confirms hmem).2 current hcurrent (hsame.trans heq)
  · exact fun screen hmem hinstalls after hafter =>
      haccount after hafter (h.pending screen hmem hinstalls)
  · exact fun hbar after hafter => haccount after hafter (h.root hbar)

/-- The presenter goes forward. -/
theorem Guarded.confirm (h : state.Guarded) (confirms : Option Nat) (isEmailVerified : Bool) :
    (state.confirm confirms isEmailVerified).Guarded := by
  unfold AuthState.confirm
  split
  · exact h
  · split
    · rename_i screen hscreen
      split
      · exact h.setScreen _ (h.pending screen (List.mem_of_getElem? hscreen))
      · exact h
    · exact h

/-- The server changes, and forgets nobody who was verified. -/
theorem Guarded.changeServer (h : state.Guarded) {server : Account → AccountRecord}
    {removals : List (Removal Account)}
    (hkept : ∀ account, state.WasVerified account →
      ({ state with server := server, removals := removals } : AuthState Account).WasVerified
        account)
    (hremoved : ∀ removal ∈ removals, server removal.deletion.account = .removed) :
    Guarded { state with server := server, removals := removals } where
  current := h.current
  flag user huser hflag := hkept _ (h.flag user huser hflag)
  reloads := h.reloads
  pending screen hmem hinstalls user huser := hkept _ (h.pending screen hmem hinstalls user huser)
  removed := hremoved
  root hbar user huser := hkept _ (h.root hbar user huser)

end Parts

section Step

variable [DecidableEq Account] {state : AuthState Account}

/-- The server learns of an account that was neither verified nor removed. -/
theorem Guarded.setRecord (h : state.Guarded) (account : Account) (record : AccountRecord)
    (hverified : state.server account ≠ .verified) (hremoved : state.server account ≠ .removed) :
    (state.setRecord account record).Guarded := by
  refine h.changeServer (fun other hother => ?_) fun removal hmem => ?_
  · rcases hother with hserver | hremoval
    · refine .inl ((setRecord_server_of_ne state (fun heq => ?_) record).trans hserver)
      exact hverified (heq ▸ hserver)
    · exact .inr hremoval
  · have hold := h.removed removal hmem
    refine (setRecord_server_of_ne state (fun heq => ?_) record).trans hold
    exact hremoved (heq ▸ hold)

/-- An account that was just registered is not verified. -/
theorem Guarded.not_wasVerified_registered (h : state.Guarded) {account : Account}
    (hnew : state.server account = .unknown) :
    ¬((state.setRecord account .unverified).WasVerified account) := by
  rintro (hserver | ⟨removal, hmem, rfl, -⟩)
  · rw [setRecord_server_self] at hserver
    cases hserver
  · have hremoved := h.removed removal hmem
    rw [hnew] at hremoved
    cases hremoved

/-- The server removes an account. -/
theorem Guarded.remove (h : state.Guarded) (deletion : Deletion Account) :
    (state.remove deletion).Guarded := by
  refine h.changeServer (fun other hother => ?_) fun removal hmem => ?_
  · rcases hother with hserver | ⟨removal, hmem, hremoval⟩
    · by_cases heq : other = deletion.account
      · subst heq
        exact .inr ⟨_, List.mem_append_right _ List.mem_cons_self, rfl, hserver⟩
      · exact .inl ((setRecord_server_of_ne state heq .removed).trans hserver)
    · exact .inr ⟨removal, List.mem_append_left _ hmem, hremoval⟩
  · rcases List.mem_append.mp hmem with hold | hnew
    · by_cases heq : removal.deletion.account = deletion.account
      · rw [heq]
        exact setRecord_server_self state deletion.account .removed
      · exact (setRecord_server_of_ne state heq .removed).trans (h.removed removal hold)
    · rw [List.mem_singleton.mp hnew]
      exact setRecord_server_self state deletion.account .removed

/-- An account is registered while no tab bar is there or on its way. -/
theorem Guarded.register (h : state.Guarded) {account : Account}
    (hnew : state.server account = .unknown) (hadmits : state.Admits (.registered account)) :
    Guarded { (state.setRecord account .unverified).signIn account false with
      screens := state.screens ++ [.opened account] } := by
  have hrecord := h.setRecord account .unverified (by rw [hnew]; decide) (by rw [hnew]; decide)
  have hsigned := hrecord.signIn account false nofun
    (fun screen hmem hinstalls => by rw [hadmits.2 screen hmem] at hinstalls; cases hinstalls)
    state.root fun hbar => absurd hbar hadmits.1
  refine ⟨hsigned.current, hsigned.flag, hsigned.reloads, ?_, hsigned.removed, hsigned.root⟩
  intro screen hmem hinstalls
  rcases List.mem_append.mp hmem with hold | hopened
  · exact hsigned.pending screen hold hinstalls
  · rw [List.mem_singleton.mp hopened] at hinstalls
    cases hinstalls

/-- One event that the condition admits keeps the invariant. -/
theorem guarded_step {next : AuthState Account} {event : AuthEvent Account} (h : state.Guarded)
    (hadmits : state.Admits event) (hstep : state.step event = some next) : next.Guarded := by
  cases outcome_of_step hstep with
  | registered hnew => exact h.register hnew hadmits
  | verified hrecord => exact h.setRecord _ _ (by rw [hrecord]; decide) (by rw [hrecord]; decide)
  | signedIn hrecord =>
      have hwas : state.WasVerified _ := .inl hadmits
      exact h.signIn _ _ (fun _ => hwas) (fun _ _ _ => hwas) .tabBar fun _ => hwas
  | loggedOut => exact h.signOut .entrance
  | readStop hscreen hpoll =>
      refine h.changeScreen hscreen fun hinstalls => ?_
      split at hinstalls
      · rename_i hstop
        simp [ConfirmationScreen.installs, hstop] at hinstalls
      · cases hinstalls
  | foundVerified hscreen hpoll huser hverified =>
      refine h.setScreen _ fun _ user hcurrent => ?_
      obtain rfl := Option.some.inj (huser.symm.trans hcurrent)
      exact h.flag _ huser hverified
  | slept hscreen hpoll huser =>
      have hasked : (state.ask (.reload _ none)).Guarded := h.ask fun user confirms heq => by
        rw [← (AuthRequest.reload.inj heq).1]
        exact huser
      exact hasked.changeScreen hscreen nofun
  | woke hscreen hpoll => exact h.changeScreen hscreen nofun
  | gaveUp hscreen hpoll hstop => exact h.deleteUser hscreen nofun
  | succeeded hscreen hpoll hstop =>
      exact h.changeScreen hscreen fun _ => by simp [ConfirmationScreen.installs, hpoll, hstop]
  | @tabBarInstalled n screen hscreen hpoll =>
      have hinstalls : screen.installs = true := by rw [ConfirmationScreen.installs, hpoll]
      have hdone : (state.setScreen n { screen with poll := .done }).Guarded :=
        h.changeScreen hscreen nofun
      exact ⟨hdone.current, hdone.flag, hdone.reloads, hdone.pending, hdone.removed,
        fun _ => h.pending screen (List.mem_of_getElem? hscreen) hinstalls⟩
  | @willDisappear n screen hscreen hplace =>
      unfold AuthState.viewWillDisappear
      split
      · exact h.deleteUser hscreen id
      · refine h.changeScreen hscreen fun hinstalls => ?_
        unfold ConfirmationScreen.installs at hinstalls ⊢
        cases hpoll : screen.poll with
        | installing => rfl
        | exited => simp [hpoll] at hinstalls
        | _ => simp [hpoll] at hinstalls
  | cancelled hscreen hplace => exact h.changeScreen hscreen id
  | disappeared hscreen hplace => exact h.changeScreen hscreen id
  | confirmPressed huser =>
      refine h.ask fun user confirms heq => ?_
      rw [← (AuthRequest.reload.inj heq).1]
      exact huser
  | @reloaded k user confirms isEmailVerified hrequest hverified =>
      have hsession := (h.reloads user confirms (List.mem_of_getElem? hrequest)).2
      have hfinished := h.setRequest k .finished fun _ _ heq => nomatch heq
      exact (hfinished.loadUser hsession fun hflag => .inl (hverified.mp hflag)).confirm confirms
        isEmailVerified
  | failed => exact h.setRequest _ _ fun _ _ heq => nomatch heq
  | removed hrequest hrecord =>
      exact (h.setRequest _ .deleted fun _ _ heq => nomatch heq).remove _
  | completed hrequest => exact (h.setRequest _ .finished fun _ _ heq => nomatch heq).signOut _

end Step

end AuthState

namespace Installation

/-! ## Runs -/

/-- Nor a launch with a current user who was never verified. -/
def Admits (state : Installation Account) : InstallationEvent Account → Prop
  | .auth event => state.auth.Admits event
  | .relaunched => ∀ user ∈ state.auth.currentUser, state.auth.WasVerified user.account
  | .orphanRemoved _ => True

instance [DecidableEq Account] (state : Installation Account) :
    (event : InstallationEvent Account) → Decidable (state.Admits event)
  | .auth event => inferInstanceAs (Decidable (state.auth.Admits event))
  | .relaunched => inferInstanceAs (Decidable (∀ user ∈ state.auth.currentUser,
      state.auth.WasVerified user.account))
  | .orphanRemoved _ => .isTrue trivial

end Installation

/-- The event is a step of a loop, or its tab bar. -/
def InstallationEvent.OfLoop : InstallationEvent Account → Prop
  | .auth (.polled _) | .auth (.tabBarInstalled _) => True
  | _ => False

namespace Installation

theorem admits_of_ofLoop {state : Installation Account} {event : InstallationEvent Account}
    (h : event.OfLoop) : state.Admits event := by
  unfold InstallationEvent.OfLoop at h
  split at h
  · trivial
  · trivial
  · cases h

variable [DecidableEq Account]

/-- Below the tab bar only a verified account is signed in, now and while the loops
go on alone. -/
def StaysVerified (state : Installation Account) : Prop :=
  ∀ later final, (∀ event ∈ later, InstallationEvent.OfLoop event) →
    run step state later = some final → final.auth.OnlyVerified

section Step

variable {state next : Installation Account} {event : InstallationEvent Account}

theorem guarded_step (h : state.auth.Guarded) (hadmits : state.Admits event)
    (hstep : state.step event = some next) : next.auth.Guarded := by
  cases event with
  | auth event =>
      obtain ⟨auth, hauth, rfl⟩ := Option.map_eq_some_iff.mp hstep
      exact AuthState.guarded_step h hadmits hauth
  | relaunched =>
      obtain rfl := Option.some.inj hstep
      exact ⟨h.current, h.flag, nofun, nofun, h.removed, fun _ => hadmits⟩
  | orphanRemoved n =>
      obtain ⟨deletion, -, hremoved⟩ := Option.bind_eq_some_iff.mp hstep
      obtain ⟨-, hnext⟩ := Option.ite_none_right_eq_some.mp hremoved
      obtain rfl := Option.some.inj hnext
      exact h.remove deletion

theorem staysVerified_of_guarded (h : state.auth.Guarded) : state.StaysVerified := by
  intro later final hloop hrun
  have hfinal : final.auth.Guarded :=
    run_invariant_of_along (fun _ event => InstallationEvent.OfLoop event)
      (fun state : Installation Account => state.auth.Guarded)
      (fun _ _ _ h hloop hstep => guarded_step h (admits_of_ofLoop hloop) hstep) h
      (along_of_forall_mem state hloop) hrun
  exact hfinal.root

/-- The main queue installs the tab bar of a loop. -/
theorem exists_installed_of_installing (state : Installation Account) {n : Nat}
    {screen : ConfirmationScreen Account} (hscreen : state.auth.screens[n]? = some screen)
    (hpoll : screen.poll = .installing) :
    ∃ final, run step state [.auth (.tabBarInstalled n)] = some final ∧
      final.auth.root = .tabBar ∧ final.auth.currentUser = state.auth.currentUser ∧
      final.auth.server = state.auth.server ∧ final.auth.removals = state.auth.removals := by
  have hstep : state.step (.auth (.tabBarInstalled n)) = some { state with
      auth := { state.auth.setScreen n { screen with poll := .done } with root := .tabBar } } := by
    simp [step, AuthState.step, hscreen, hpoll]
  exact ⟨_, run_cons_eq_some.mpr ⟨_, hstep, rfl⟩, rfl, rfl, rfl, rfl⟩

/-- A tab bar on its way is installed, over whoever is signed in. -/
theorem exists_installed (state : Installation Account) {n : Nat}
    {screen : ConfirmationScreen Account} (hscreen : state.auth.screens[n]? = some screen)
    (hinstalls : screen.installs = true) :
    ∃ later final, (∀ event ∈ later, InstallationEvent.OfLoop event) ∧
      run step state later = some final ∧ final.auth.root = .tabBar ∧
      final.auth.currentUser = state.auth.currentUser ∧
      final.auth.server = state.auth.server ∧ final.auth.removals = state.auth.removals := by
  unfold ConfirmationScreen.installs at hinstalls
  cases hpoll : screen.poll with
  | installing =>
      obtain ⟨final, hrun, hfinal⟩ := exists_installed_of_installing state hscreen hpoll
      exact ⟨[.auth (.tabBarInstalled n)], final, List.forall_mem_singleton.mpr trivial, hrun,
        hfinal⟩
  | exited =>
      rw [hpoll] at hinstalls
      have hstop : screen.stopAnimating = false := by simpa using hinstalls
      have hstep : state.step (.auth (.polled n)) = some { state with
          auth := state.auth.setScreen n { screen with poll := .installing } } := by
        simp [step, AuthState.step, AuthState.poll, hscreen, hpoll, hstop]
      have hlt : n < state.auth.screens.length := (List.getElem?_eq_some_iff.mp hscreen).1
      have hnext : (state.auth.setScreen n { screen with poll := .installing }).screens[n]? =
          some { screen with poll := .installing } := List.getElem?_set_self hlt
      obtain ⟨final, hrun, hfinal⟩ := exists_installed_of_installing { state with
        auth := state.auth.setScreen n { screen with poll := .installing } } hnext rfl
      exact ⟨[.auth (.polled n), .auth (.tabBarInstalled n)], final,
        List.forall_mem_cons.mpr ⟨trivial, List.forall_mem_singleton.mpr trivial⟩,
        run_cons_eq_some.mpr ⟨_, hstep, hrun⟩, hfinal⟩
  | _ =>
      rw [hpoll] at hinstalls
      cases hinstalls

theorem admits_of_step (h : state.auth.Guarded) (hstep : state.step event = some next)
    (hstays : next.StaysVerified) : state.Admits event := by
  have honly : next.auth.OnlyVerified := hstays [] next nofun rfl
  cases event with
  | orphanRemoved n => trivial
  | relaunched =>
      obtain rfl := Option.some.inj hstep
      intro user huser
      refine honly ?_ user huser
      change initialViewController state.auth.currentUser = .tabBar
      rw [Option.mem_def.mp huser]
      rfl
  | auth event =>
      obtain ⟨auth, hauth, rfl⟩ := Option.map_eq_some_iff.mp hstep
      cases AuthState.outcome_of_step hauth with
      | @registered account hnew =>
          have hnot := h.not_wasVerified_registered hnew
          refine ⟨fun hbar => hnot (honly hbar _ rfl), fun screen hmem => ?_⟩
          by_contra hinstalls
          obtain ⟨n, hlt, hscreen⟩ := List.getElem_of_mem hmem
          have hopened : (state.auth.screens ++ [.opened account])[n]? = some screen := by
            rw [List.getElem?_append_left hlt, List.getElem?_eq_getElem hlt, hscreen]
          obtain ⟨later, final, hloop, hrun, hbar, hcurrent, hserver, hremovals⟩ :=
            exists_installed { state with
              auth := { (state.auth.setRecord account .unverified).signIn account false with
                screens := state.auth.screens ++ [.opened account] } }
              hopened (eq_true_of_ne_false hinstalls)
          have hwas := hstays later final hloop hrun hbar _ (hcurrent.trans rfl)
          rw [AuthState.WasVerified, hserver, hremovals] at hwas
          exact hnot hwas
      | @signedIn account hrecord =>
          rcases hrecord with hunverified | hverified
          · have hwas := honly rfl _ rfl
            exact absurd hwas (h.not_wasVerified (by rw [hunverified]; decide)
              (by rw [hunverified]; decide))
          · exact hverified
      | _ => trivial

/-- In every run from the first launch, the tab bar is shown to verified accounts
only, also when the loops go on alone, exactly when the run keeps to the condition. -/
theorem tab_bar_verified_iff {server : Account → AccountRecord}
    {events : List (InstallationEvent Account)} {final : Installation Account}
    (hrun : run step (installed server) events = some final) :
    (∀ k reached, run step (installed server) (events.take k) = some reached →
        reached.StaysVerified) ↔
      Along step Admits (installed server) events :=
  forall_take_iff_along Admits (fun state => state.auth.Guarded) StaysVerified
    (fun _ _ _ h hadmits hstep => guarded_step h hadmits hstep)
    (fun _ h => staysVerified_of_guarded h)
    (fun _ _ _ h hstep hstays => admits_of_step h hstep hstays)
    (AuthState.guarded_launched server) hrun

end Step

/-- An account is registered and confirmed, the app is launched again, and the
account signs out and in. -/
def confirmedAndBack : List (InstallationEvent Nat) :=
  [ .auth (.registered 0), .auth (.polled 0), .auth (.polled 0), .auth (.verified 0),
    .auth (.reloaded 0), .auth (.polled 0), .auth (.polled 0), .auth (.polled 0),
    .auth (.polled 0), .auth (.tabBarInstalled 0), .relaunched, .auth .loggedOut,
    .auth (.signedIn 0) ]

theorem tab_bar_verified_iff_sample :
    ∃ final, run step (installed fun _ => .unknown) confirmedAndBack = some final ∧
      final.auth.root = .tabBar ∧ final.StaysVerified := by
  have hany : (run step (installed fun _ => .unknown) confirmedAndBack).any
      (fun final => final.auth.root = .tabBar) = true := by decide
  obtain ⟨final, hrun, hbar⟩ := (Option.any_eq_true _ _).mp hany
  exact ⟨final, hrun, of_decide_eq_true hbar,
    (tab_bar_verified_iff hrun).mpr (by decide) 13 final hrun⟩

/-- The app is launched again in the middle of the confirmation; an account signs in
without it. -/
theorem tab_bar_without_verification :
    (∃ final, run step (installed fun _ => .unknown)
        [.auth (.registered 0), .relaunched] = some final ∧ ¬final.auth.OnlyVerified) ∧
      ∃ final, run step (installed fun _ => .unknown)
        [.auth (.registered 0), .auth .loggedOut, .auth (.signedIn 0)] = some final ∧
          ¬final.auth.OnlyVerified := by
  have hlaunch : (run step (installed fun _ => .unknown)
      [.auth (.registered 0), .relaunched]).any
        (fun final : Installation Nat => decide ¬final.auth.OnlyVerified) = true := by decide
  have hsignIn : (run step (installed fun _ => .unknown)
      [.auth (.registered 0), .auth .loggedOut, .auth (.signedIn 0)]).any
        (fun final : Installation Nat => decide ¬final.auth.OnlyVerified) = true := by decide
  obtain ⟨launched, hlaunched, hlaunchedBad⟩ := (Option.any_eq_true _ _).mp hlaunch
  obtain ⟨signedIn, hsignedIn, hsignedInBad⟩ := (Option.any_eq_true _ _).mp hsignIn
  exact ⟨⟨launched, hlaunched, of_decide_eq_true hlaunchedBad⟩,
    ⟨signedIn, hsignedIn, of_decide_eq_true hsignedInBad⟩⟩

end Installation

end QFree
