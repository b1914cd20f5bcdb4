/-
  Auth/AccountDeletion.lean --- which accounts the confirmation screens delete.

  The screens delete whatever account is current when they come to it, and look at
  no server.  `Orderly` is the order of events in which this is harmless: the back
  navigation is not cancelled and is over when the loop ends, the e-mail is not
  verified unnoticed, and no other account is signed in before the loop ends.
-/
import QFree.Auth.EmailConfirmation

set_option autoImplicit false

namespace QFree

open QFree.Foundation

variable {Account : Type}

/-- The account the screen was opened for was removed, not verified, after the
screen was left. -/
structure Removal.Safe (removal : Removal Account) : Prop where
  own_account : removal.deletion.account = removal.deletion.openedFor
  unverified : removal.record ≠ .verified
  left : removal.deletion.place = .left

instance [DecidableEq Account] (removal : Removal Account) : Decidable removal.Safe :=
  decidable_of_iff
    (removal.deletion.account = removal.deletion.openedFor ∧ removal.record ≠ .verified ∧
      removal.deletion.place = .left)
    ⟨fun h => ⟨h.1, h.2.1, h.2.2⟩, fun h => ⟨h.own_account, h.unverified, h.left⟩⟩

/-- The loop has not taken one of its two ends. -/
def PollState.running : PollState → Bool
  | .readsStop | .readsVerified | .sleeping | .exited => true
  | .installing | .done => false

/-- The loop of the screen may still end with `deleteUser`. -/
def ConfirmationScreen.mayDelete (screen : ConfirmationScreen Account) : Bool :=
  screen.poll.running && !screen.isGoingForward

/-- The account a request is about to remove. -/
def AuthRequest.target : AuthRequest Account → Option Account
  | .delete deletion => some deletion.account
  | _ => none

namespace AuthState

/-! ## The order of events -/

/-- A condition on each event, in the state it happens in. -/
def Orderly (state : AuthState Account) : AuthEvent Account → Prop
  -- no account is registered or signed in before the loop of another's screen ended
  | .registered account | .signedIn account =>
      ∀ screen ∈ state.screens, screen.mayDelete = true → screen.account = account
  -- no e-mail is verified after its screen began to leave
  | .verified account =>
      (∀ screen ∈ state.screens, screen.mayDelete = true → screen.stopAnimating = true →
        screen.account ≠ account) ∧
      ∀ request ∈ state.requests, request.target ≠ some account
  -- the screen does not begin to leave with an e-mail that was verified unnoticed
  | .viewWillDisappear n =>
      ∀ screen ∈ state.screens[n]?, screen.mayDelete = true →
        state.server screen.account ≠ .verified
  -- leaving the screen is not cancelled, unless the confirm button succeeded
  | .disappearCancelled n =>
      ∀ screen ∈ state.screens[n]?, screen.isGoingForward = true
  -- the loop does not end in the middle of the transition
  | .polled n =>
      ∀ screen ∈ state.screens[n]?, screen.poll = .exited → screen.stopAnimating = true →
        screen.isGoingForward = false → state.currentUser.isSome → screen.place ≠ .leaving
  | _ => True

instance [DecidableEq Account] (state : AuthState Account) :
    (event : AuthEvent Account) → Decidable (state.Orderly event)
  | .registered _ | .signedIn _ => inferInstanceAs (Decidable (∀ screen ∈ state.screens, _ → _))
  | .verified _ => inferInstanceAs (Decidable
      ((∀ screen ∈ state.screens, _ → _ → _) ∧ ∀ request ∈ state.requests, _))
  | .viewWillDisappear n => inferInstanceAs (Decidable (∀ screen ∈ state.screens[n]?, _ → _))
  | .disappearCancelled n => inferInstanceAs (Decidable (∀ screen ∈ state.screens[n]?, _))
  | .polled n => inferInstanceAs (Decidable (∀ screen ∈ state.screens[n]?, _ → _ → _ → _ → _))
  | .loggedOut | .tabBarInstalled _ | .viewDidDisappear _ | .confirmPressed _ | .reloaded _
  | .requestFailed _ | .removed _ | .deletionCompleted _ => .isTrue trivial

/-! ## The invariant -/

/-- A deletion that was asked for is safe unless a verification overtakes it. -/
structure DeletionSound (server : Account → AccountRecord) (deletion : Deletion Account) :
    Prop where
  own_account : deletion.account = deletion.openedFor
  unverified : server deletion.account ≠ .verified
  left : deletion.place = .left

/-- What a screen keeps to. -/
structure ScreenSound (currentUser : Option (User Account)) (server : Account → AccountRecord)
    (screen : ConfirmationScreen Account) : Prop where
  /-- until its loop ends, nobody but the screen's own account is signed in -/
  own_user : screen.mayDelete = true → ∀ user, currentUser = some user →
    user.account = screen.account
  /-- from its leaving until its loop ends, the account is not verified -/
  unverified : screen.mayDelete = true → screen.stopAnimating = true →
    server screen.account ≠ .verified
  /-- a screen that stopped its loop is not shown again -/
  gone : screen.isGoingForward = false → screen.stopAnimating = true → screen.place ≠ .shown

/-- The invariant of an orderly run. -/
structure Sound (state : AuthState Account) : Prop where
  screens : ∀ screen ∈ state.screens, ScreenSound state.currentUser state.server screen
  requests : ∀ deletion, .delete deletion ∈ state.requests → DeletionSound state.server deletion
  removals : ∀ removal ∈ state.removals, removal.Safe

theorem sound_launched (server : Account → AccountRecord) : Sound (launched server) where
  screens := by simp [launched]
  requests := by simp [launched]
  removals := by simp [launched]

section Parts

variable {state : AuthState Account} {screen : ConfirmationScreen Account} {n : Nat}

theorem Sound.screen_at (h : Sound state) (hscreen : state.screens[n]? = some screen) :
    ScreenSound state.currentUser state.server screen :=
  h.screens screen (List.mem_of_getElem? hscreen)

/-- One screen changes. -/
theorem Sound.setScreen (h : Sound state) (n : Nat)
    (hscreen : ScreenSound state.currentUser state.server screen) :
    Sound (state.setScreen n screen) where
  screens other hother := by
    rcases List.mem_or_eq_of_mem_set hother with hold | rfl
    · exact h.screens other hold
    · exact hscreen
  requests := h.requests
  removals := h.removals

/-- A request is started. -/
theorem Sound.ask (h : Sound state) {request : AuthRequest Account}
    (hrequest : ∀ deletion, request = .delete deletion → DeletionSound state.server deletion) :
    Sound (state.ask request) where
  screens := h.screens
  requests deletion hmem := by
    rcases List.mem_append.mp hmem with hold | hnew
    · exact h.requests deletion hold
    · exact hrequest deletion (List.mem_singleton.mp hnew).symm
  removals := h.removals

/-- A request ends. -/
theorem Sound.setRequest (h : Sound state) (k : Nat) (request : AuthRequest Account)
    (hrequest : request.target = none) : Sound (state.setRequest k request) where
  screens := h.screens
  requests deletion hmem := by
    rcases List.mem_or_eq_of_mem_set hmem with hold | rfl
    · exact h.requests deletion hold
    · cases hrequest
  removals := h.removals

/-- Somebody else is signed in, or nobody. -/
theorem Sound.setCurrentUser (h : Sound state) (currentUser : Option (User Account))
    (hown : ∀ screen ∈ state.screens, screen.mayDelete = true →
      ∀ user, currentUser = some user → user.account = screen.account) :
    Sound { state with currentUser := currentUser } where
  screens screen hmem :=
    ⟨hown screen hmem, (h.screens screen hmem).unverified, (h.screens screen hmem).gone⟩
  requests := h.requests
  removals := h.removals

theorem Sound.loadUser (h : Sound state) (session : Nat) (isEmailVerified : Bool) :
    Sound (state.loadUser session isEmailVerified) := by
  refine h.setCurrentUser _ fun screen hmem hdelete user huser => ?_
  obtain ⟨before, hbefore, rfl⟩ := Option.map_eq_some_iff.mp huser
  have hown := (h.screens screen hmem).own_user hdelete before hbefore
  split
  · exact hown
  · exact hown

/-- The loop moves on. -/
theorem ScreenSound.setPoll {currentUser : Option (User Account)}
    {server : Account → AccountRecord} (h : ScreenSound currentUser server screen)
    (poll : PollState) (hrunning : poll.running = true → screen.poll.running = true) :
    ScreenSound currentUser server { screen with poll := poll } := by
  have hmay : ({ screen with poll := poll } : ConfirmationScreen Account).mayDelete = true →
      screen.mayDelete = true := by
    unfold ConfirmationScreen.mayDelete
    rw [Bool.and_eq_true, Bool.and_eq_true]
    exact And.imp_left hrunning
  exact ⟨fun hdelete => h.own_user (hmay hdelete), fun hdelete => h.unverified (hmay hdelete),
    h.gone⟩

/-- The presenter goes forward. -/
theorem ScreenSound.goForward (currentUser : Option (User Account))
    (server : Account → AccountRecord) (screen : ConfirmationScreen Account) :
    ScreenSound currentUser server { screen with isGoingForward := true } where
  own_user hdelete := by simp [ConfirmationScreen.mayDelete] at hdelete
  unverified hdelete := by simp [ConfirmationScreen.mayDelete] at hdelete
  gone hforward := by cases hforward

theorem Sound.confirm (h : Sound state) (confirms : Option Nat) (isEmailVerified : Bool) :
    Sound (state.confirm confirms isEmailVerified) := by
  unfold AuthState.confirm
  split
  · exact h
  · split
    · split
      · exact h.setScreen _ (ScreenSound.goForward _ _ _)
      · exact h
    · exact h

/-- The loop of a screen that was left deletes the screen's own account. -/
theorem Sound.gaveUp (h : Sound state) (hscreen : state.screens[n]? = some screen)
    (hpoll : screen.poll = .exited) (hstop : screen.stopAnimating = true)
    (horderly : state.Orderly (.polled n)) : Sound (state.deleteUser screen) := by
  unfold deleteUser
  split
  · exact h
  · rename_i hforward
    have hback : screen.isGoingForward = false := Bool.eq_false_iff.mpr hforward
    have hmay : screen.mayDelete = true := by
      simp [ConfirmationScreen.mayDelete, hpoll, PollState.running, hback]
    have hsound := h.screen_at hscreen
    split
    · exact h
    · rename_i user huser
      refine h.ask fun deletion hdeletion => ?_
      obtain rfl := AuthRequest.delete.inj hdeletion
      have hown : user.account = screen.account := hsound.own_user hmay user huser
      refine ⟨hown, ?_, ?_⟩
      · rw [hown]
        exact hsound.unverified hmay hstop
      · have hshown : screen.place ≠ .shown := hsound.gone hback hstop
        have hleaving : screen.place ≠ .leaving :=
          horderly screen hscreen hpoll hstop hback (by rw [huser]; rfl)
        cases hplace : screen.place with
        | shown => exact absurd hplace hshown
        | leaving => exact absurd hplace hleaving
        | left => rfl

/-- A screen starts to leave: only one that goes forward has stopped before. -/
theorem Sound.viewWillDisappear (h : Sound state) (hscreen : state.screens[n]? = some screen)
    (hplace : screen.place = .shown) (horderly : state.Orderly (.viewWillDisappear n)) :
    Sound (state.viewWillDisappear n screen) := by
  have hsound := h.screen_at hscreen
  unfold AuthState.viewWillDisappear
  split
  · rename_i hstop
    have hforward : screen.isGoingForward = true := by
      by_contra hback
      exact hsound.gone (Bool.eq_false_iff.mpr hback) hstop hplace
    rw [deleteUser, if_pos hforward]
    exact h.setScreen n ⟨hsound.own_user, hsound.unverified, fun _ _ => by simp⟩
  · exact h.setScreen n
      ⟨hsound.own_user, fun hdelete _ => horderly screen hscreen hdelete, fun _ _ => by simp⟩

end Parts

section Step

variable [DecidableEq Account] {state : AuthState Account}

/-- The server learns of an account; a verification comes too late for no screen and
no deletion. -/
theorem Sound.setRecord (h : Sound state) (account : Account) (record : AccountRecord)
    (hverified : record = .verified → state.Orderly (.verified account)) :
    Sound (state.setRecord account record) where
  screens screen hmem := by
    refine ⟨(h.screens screen hmem).own_user, fun hdelete hstop => ?_, (h.screens screen hmem).gone⟩
    by_cases heq : screen.account = account
    · intro hnew
      rw [heq, setRecord_server_self] at hnew
      exact (hverified hnew).1 screen hmem hdelete hstop heq
    · rw [setRecord_server_of_ne state heq]
      exact (h.screens screen hmem).unverified hdelete hstop
  requests deletion hmem := by
    have hsound := h.requests deletion hmem
    refine ⟨hsound.own_account, ?_, hsound.left⟩
    by_cases heq : deletion.account = account
    · intro hnew
      rw [heq, setRecord_server_self] at hnew
      exact (hverified hnew).2 _ hmem (congrArg some heq)
    · rw [setRecord_server_of_ne state heq]
      exact hsound.unverified
  removals := h.removals

/-- A screen is opened for the account that is signed in with it. -/
theorem Sound.register (h : Sound state) {account : Account}
    (horderly : state.Orderly (.registered account)) :
    Sound { (state.setRecord account .unverified).signIn account false with
      screens := state.screens ++ [.opened account] } := by
  have hrecord : Sound (state.setRecord account .unverified) :=
    h.setRecord account .unverified fun hverified => by cases hverified
  refine ⟨fun screen hmem => ?_, hrecord.requests, hrecord.removals⟩
  rcases List.mem_append.mp hmem with hold | hnew
  · refine ⟨fun hdelete user huser => ?_, (hrecord.screens screen hold).unverified,
      (hrecord.screens screen hold).gone⟩
    rw [← Option.some.inj huser]
    exact (horderly screen hold hdelete).symm
  · obtain rfl := List.mem_singleton.mp hnew
    refine ⟨fun _ user huser => ?_, fun _ => (nomatch ·), fun _ => (nomatch ·)⟩
    rw [← Option.some.inj huser]
    rfl

/-- One orderly event keeps the invariant. -/
theorem sound_step {next : AuthState Account} {event : AuthEvent Account} (h : Sound state)
    (horderly : state.Orderly event) (hstep : state.step event = some next) : Sound next := by
  cases outcome_of_step hstep with
  | registered hnew => exact h.register horderly
  | verified hrecord => exact h.setRecord _ .verified fun _ => horderly
  | @signedIn account hrecord =>
      have hown : ∀ screen ∈ state.screens, screen.mayDelete = true → ∀ user,
          some (⟨state.sessions, account, state.server account = .verified⟩ : User Account) =
            some user → user.account = screen.account := by
        intro screen hmem hdelete user huser
        rw [← Option.some.inj huser]
        exact (horderly screen hmem hdelete).symm
      have hsigned := h.setCurrentUser _ hown
      exact ⟨hsigned.screens, hsigned.requests, hsigned.removals⟩
  | loggedOut =>
      have hnobody := h.setCurrentUser none (by simp)
      exact ⟨hnobody.screens, hnobody.requests, hnobody.removals⟩
  | readStop hscreen hpoll =>
      exact h.setScreen _ ((h.screen_at hscreen).setPoll _ fun _ => by rw [hpoll]; rfl)
  | foundVerified hscreen hpoll huser hverified =>
      exact h.setScreen _ ((h.screen_at hscreen).setPoll _ fun _ => by rw [hpoll]; rfl)
  | slept hscreen hpoll huser =>
      refine (h.ask (by simp)).setScreen _ ?_
      exact (h.screen_at hscreen).setPoll _ fun _ => by rw [hpoll]; rfl
  | woke hscreen hpoll =>
      exact h.setScreen _ ((h.screen_at hscreen).setPoll _ fun _ => by rw [hpoll]; rfl)
  | gaveUp hscreen hpoll hstop =>
      have hdeleted := h.gaveUp hscreen hpoll hstop horderly
      refine hdeleted.setScreen _ ?_
      rw [deleteUser_currentUser, deleteUser_server]
      exact (h.screen_at hscreen).setPoll .done (nomatch ·)
  | succeeded hscreen hpoll hstop =>
      exact h.setScreen _ ((h.screen_at hscreen).setPoll _ (by simp [PollState.running]))
  | @tabBarInstalled n screen hscreen hpoll =>
      have hdone := h.setScreen n ((h.screen_at hscreen).setPoll .done (nomatch ·))
      exact ⟨hdone.screens, hdone.requests, hdone.removals⟩
  | willDisappear hscreen hplace => exact h.viewWillDisappear hscreen hplace horderly
  | cancelled hscreen hplace =>
      have hforward := horderly _ hscreen
      have hsound := h.screen_at hscreen
      refine h.setScreen _ ⟨hsound.own_user, hsound.unverified, fun hback => ?_⟩
      exact absurd (hforward.symm.trans hback) (by decide)
  | disappeared hscreen hplace =>
      have hsound := h.screen_at hscreen
      exact h.setScreen _ ⟨hsound.own_user, hsound.unverified, fun _ _ => by simp⟩
  | confirmPressed huser => exact h.ask (by simp)
  | @reloaded k user confirms isEmailVerified hrequest hverified =>
      exact ((h.setRequest k .finished rfl).loadUser user.session isEmailVerified).confirm confirms
        isEmailVerified
  | failed => exact h.setRequest _ .finished rfl
  | @removed k deletion hrequest hrecord =>
      have hsound := h.requests deletion (List.mem_of_getElem? hrequest)
      have hremoved := (h.setRequest k .deleted rfl).setRecord deletion.account
        .removed fun hverified => by cases hverified
      refine ⟨hremoved.screens, hremoved.requests, fun removal hmem => ?_⟩
      rcases List.mem_append.mp hmem with hold | hnew
      · exact h.removals removal hold
      · rw [List.mem_singleton.mp hnew]
        exact ⟨hsound.own_account, hsound.unverified, hsound.left⟩
  | completed hrequest =>
      exact (h.setRequest _ .finished rfl).setCurrentUser none (by simp)

end Step

/-- In every orderly run, every account that a confirmation screen removed is the
account the screen was opened for, was not verified when it was removed, and the
screen had been left when it asked for the removal. -/
theorem removals_safe [DecidableEq Account] {server : Account → AccountRecord}
    {events : List (AuthEvent Account)} {state : AuthState Account}
    (horderly : Along step Orderly (launched server) events)
    (hrun : run step (launched server) events = some state) :
    ∀ removal ∈ state.removals, removal.Safe := by
  have hsound : Sound state :=
    run_invariant_of_along Orderly Sound
      (fun _ _ _ h hguard hstep => sound_step h hguard hstep)
      (sound_launched server) horderly hrun
  exact hsound.removals

/-- An account is registered, its screen polls once and is left, and the account is
removed; then another account is registered. -/
def registeredAndLeft : List (AuthEvent Nat) :=
  [ .registered 0, .polled 0, .polled 0, .reloaded 0, .viewWillDisappear 0,
    .viewDidDisappear 0, .polled 0, .polled 0, .polled 0, .removed 1, .deletionCompleted 1,
    .registered 1 ]

theorem removals_safe_sample :
    ∃ state, run step (launched fun _ => .unknown) registeredAndLeft = some state ∧
      state.removals.length = 1 ∧ ∀ removal ∈ state.removals, removal.Safe := by
  have hrun : ((run step (launched fun _ => .unknown) registeredAndLeft).any
      fun state => state.removals.length = 1) = true := by decide
  obtain ⟨state, hstate, hlength⟩ := (Option.any_eq_true _ _).mp hrun
  exact ⟨state, hstate, of_decide_eq_true hlength, removals_safe (by decide) hstate⟩

/-! ## Disorderly runs -/

/-- The e-mail is verified while the loop sleeps, and the screen is left before it
wakes. -/
def verifiedUnnoticed : List (AuthEvent Nat) :=
  [ .registered 0, .polled 0, .polled 0, .reloaded 0, .verified 0, .viewWillDisappear 0,
    .viewDidDisappear 0, .polled 0, .polled 0, .polled 0, .removed 1 ]

/-- A back navigation is begun and cancelled; the screen is still shown. -/
def backCancelled : List (AuthEvent Nat) :=
  [ .registered 0, .polled 0, .polled 0, .viewWillDisappear 0, .disappearCancelled 0,
    .polled 0, .polled 0, .polled 0, .removed 1 ]

/-- The screen is left and another account is registered while the loop sleeps. -/
def nextRegistered : List (AuthEvent Nat) :=
  [ .registered 0, .polled 0, .polled 0, .viewWillDisappear 0, .viewDidDisappear 0,
    .registered 1, .polled 0, .polled 0, .polled 0, .removed 1 ]

theorem exists_removal (events : List (AuthEvent Nat)) (bad : Removal Nat → Bool)
    (h : ((run step (launched fun _ => .unknown) events).any fun state =>
      state.removals.any bad) = true) :
    ∃ state, run step (launched fun _ => .unknown) events = some state ∧
      ∃ removal ∈ state.removals, bad removal = true := by
  obtain ⟨state, hrun, hany⟩ := (Option.any_eq_true _ _).mp h
  exact ⟨state, hrun, List.any_eq_true.mp hany⟩

/-- A verified account is removed, an account is removed while its screen is shown,
and an account is removed by the screen of another. -/
theorem removals_unsafe :
    (∃ state, run step (launched fun _ => .unknown) verifiedUnnoticed = some state ∧
      ∃ removal ∈ state.removals, removal.record = .verified ∧ ¬ removal.Safe) ∧
    (∃ state, run step (launched fun _ => .unknown) backCancelled = some state ∧
      ∃ removal ∈ state.removals, removal.deletion.place = .shown ∧ ¬ removal.Safe) ∧
    ∃ state, run step (launched fun _ => .unknown) nextRegistered = some state ∧
      ∃ removal ∈ state.removals,
        removal.deletion.account ≠ removal.deletion.openedFor ∧ ¬ removal.Safe := by
  refine ⟨?_, ?_, ?_⟩
  · simpa only [decide_eq_true_eq] using exists_removal verifiedUnnoticed
      (fun removal => removal.record = .verified ∧ ¬ removal.Safe) (by decide)
  · simpa only [decide_eq_true_eq] using exists_removal backCancelled
      (fun removal => removal.deletion.place = .shown ∧ ¬ removal.Safe) (by decide)
  · simpa only [decide_eq_true_eq] using exists_removal nextRegistered
      (fun removal => removal.deletion.account ≠ removal.deletion.openedFor ∧ ¬ removal.Safe)
      (by decide)

end AuthState

end QFree
