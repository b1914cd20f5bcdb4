/-
  Auth/EmailConfirmation.lean --- registration and the e-mail confirmation screen.

  A registration signs the new account in and opens a confirmation screen.  The
  screen starts a loop on a background queue, which reloads the current user once
  a second until its e-mail is verified or the screen's `stopAnimating` is set, and
  then installs the tab bar or deletes the current user.  `viewWillDisappear` sets
  `stopAnimating`, or deletes the current user if it is set already.  The confirm
  button reloads the current user as well and sets the presenter's
  `isGoingForward`, after which nothing is deleted.

  Every read of a shared variable by the loop is a step of its own, so the events
  of the main queue and of the server fall between any two of them.  A force unwrap
  of a missing user has no successor.  `removals` collects the accounts that the
  screens removed; the program keeps no such list.
-/
import Mathlib.Logic.Function.Basic
import QFree.Foundation.Run

set_option autoImplicit false

namespace QFree

open QFree.Foundation

/-! ## State -/

/-- What the server knows of an account.  An address that is registered again
after a removal is another account. -/
inductive AccountRecord where
  | unknown
  | unverified
  | verified
  | removed
  deriving DecidableEq

/-- A user object of Firebase Auth, made by one sign-in or registration.
`isEmailVerified` is what the server said when the object was last loaded. -/
structure User (Account : Type) where
  session : Nat
  account : Account
  isEmailVerified : Bool

/-- Where the background loop of a screen stands. -/
inductive PollState where
  /-- before `!self.stopAnimating` in the condition of the loop -/
  | readsStop
  /-- before `!Auth.auth().currentUser!.isEmailVerified` -/
  | readsVerified
  /-- in `sleep(1)` -/
  | sleeping
  /-- after the loop, before `if !self.stopAnimating` -/
  | exited
  /-- the tab bar is on its way to the main queue -/
  | installing
  | done
  deriving DecidableEq

/-- Whether a screen is shown; `leaving` is a transition that can be cancelled. -/
inductive Place where
  | shown
  | leaving
  | left
  deriving DecidableEq

/-- A confirmation screen with its presenter, and the account it was opened for. -/
structure ConfirmationScreen (Account : Type) where
  account : Account
  stopAnimating : Bool
  isGoingForward : Bool
  poll : PollState
  place : Place

/-- A `deleteUser` a screen asked for: the account the screen was opened for, the
account that was current, and where the screen was. -/
structure Deletion (Account : Type) where
  openedFor : Account
  account : Account
  place : Place

/-- A call to Auth that is not finished. -/
inductive AuthRequest (Account : Type) where
  /-- a reload of a user object, for the confirm button of a screen or for a loop -/
  | reload (user : User Account) (confirms : Option Nat)
  | delete (deletion : Deletion Account)
  /-- the account was removed, the completion has not run -/
  | deleted
  | finished

/-- An account that was removed, and what the server knew of it. -/
structure Removal (Account : Type) where
  deletion : Deletion Account
  record : AccountRecord

/-- The root view controller of the window. -/
inductive Root where
  | entrance
  | tabBar
  deriving DecidableEq

/-- The accounts on the server, and a process with its screens and requests. -/
structure AuthState (Account : Type) where
  server : Account → AccountRecord
  currentUser : Option (User Account)
  /-- how many user objects were made -/
  sessions : Nat
  root : Root
  screens : List (ConfirmationScreen Account)
  requests : List (AuthRequest Account)
  removals : List (Removal Account)

/-- What can happen.  Screens and requests are named by their place in the lists.
`registered` and `signedIn` are the successful ends of a registration and a sign-in. -/
inductive AuthEvent (Account : Type) where
  | registered (account : Account)
  | verified (account : Account)
  | signedIn (account : Account)
  | loggedOut
  | polled (screen : Nat)
  | tabBarInstalled (screen : Nat)
  | viewWillDisappear (screen : Nat)
  | disappearCancelled (screen : Nat)
  | viewDidDisappear (screen : Nat)
  | confirmPressed (screen : Nat)
  | reloaded (request : Nat)
  | requestFailed (request : Nat)
  | removed (request : Nat)
  | deletionCompleted (request : Nat)

namespace ConfirmationScreen

variable {Account : Type}

/-- The screen after `viewDidLoad`: its loop is queued. -/
def opened (account : Account) : ConfirmationScreen Account where
  account := account
  stopAnimating := false
  isGoingForward := false
  poll := .readsStop
  place := .shown

end ConfirmationScreen

namespace AuthState

variable {Account : Type}

/-- A process without screens, on a server with these accounts. -/
def launched (server : Account → AccountRecord) : AuthState Account where
  server := server
  currentUser := none
  sessions := 0
  root := .entrance
  screens := []
  requests := []
  removals := []

/-! ## Steps -/

/-- Replace a screen. -/
def setScreen (state : AuthState Account) (n : Nat) (screen : ConfirmationScreen Account) :
    AuthState Account :=
  { state with screens := state.screens.set n screen }

/-- Start a request. -/
def ask (state : AuthState Account) (request : AuthRequest Account) : AuthState Account :=
  { state with requests := state.requests ++ [request] }

/-- Replace a request. -/
def setRequest (state : AuthState Account) (k : Nat) (request : AuthRequest Account) :
    AuthState Account :=
  { state with requests := state.requests.set k request }

/-- Make a user object for an account. -/
def signIn (state : AuthState Account) (account : Account) (isEmailVerified : Bool) :
    AuthState Account :=
  { state with
    currentUser := some ⟨state.sessions, account, isEmailVerified⟩
    sessions := state.sessions + 1 }

/-- `deleteUser` of the presenter and its interactor: the current user is deleted,
unless the presenter is going forward. -/
def deleteUser (state : AuthState Account) (screen : ConfirmationScreen Account) :
    AuthState Account :=
  if screen.isGoingForward then state
  else
    match state.currentUser with
    | none => state
    | some user => state.ask (.delete ⟨screen.account, user.account, screen.place⟩)

theorem deleteUser_currentUser (state : AuthState Account) (screen : ConfirmationScreen Account) :
    (state.deleteUser screen).currentUser = state.currentUser := by
  unfold deleteUser
  split
  · rfl
  · split <;> rfl

theorem deleteUser_server (state : AuthState Account) (screen : ConfirmationScreen Account) :
    (state.deleteUser screen).server = state.server := by
  unfold deleteUser
  split
  · rfl
  · split <;> rfl

/-- One step of the loop of a screen. -/
def poll (state : AuthState Account) (n : Nat) (screen : ConfirmationScreen Account) :
    Option (AuthState Account) :=
  match screen.poll with
  | .readsStop =>
      some (state.setScreen n
        { screen with poll := if screen.stopAnimating then .exited else .readsVerified })
  | .readsVerified =>
      match state.currentUser with
      | none => none
      | some user =>
          if user.isEmailVerified then some (state.setScreen n { screen with poll := .exited })
          else
            some ((state.ask (.reload user none)).setScreen n { screen with poll := .sleeping })
  | .sleeping => some (state.setScreen n { screen with poll := .readsStop })
  | .exited =>
      if screen.stopAnimating then
        some ((state.deleteUser screen).setScreen n { screen with poll := .done })
      else some (state.setScreen n { screen with poll := .installing })
  | .installing | .done => none

/-- `viewWillDisappear` of a screen that starts to leave. -/
def viewWillDisappear (state : AuthState Account) (n : Nat) (screen : ConfirmationScreen Account) :
    AuthState Account :=
  if screen.stopAnimating then
    (state.deleteUser screen).setScreen n { screen with place := .leaving }
  else state.setScreen n { screen with stopAnimating := true, place := .leaving }

/-- A reload stores what the server knows in the user object. -/
def loadUser (state : AuthState Account) (session : Nat) (isEmailVerified : Bool) :
    AuthState Account :=
  { state with
    currentUser := state.currentUser.map fun user =>
      if user.session = session then { user with isEmailVerified := isEmailVerified } else user }

/-- The completion of `confirmEmail`: go forward, or show an alert. -/
def confirm (state : AuthState Account) (confirms : Option Nat) (isEmailVerified : Bool) :
    AuthState Account :=
  match confirms with
  | none => state
  | some n =>
      match state.screens[n]? with
      | some screen =>
          if isEmailVerified then state.setScreen n { screen with isGoingForward := true }
          else state
      | none => state

variable [DecidableEq Account]

/-- Change what the server knows of an account. -/
def setRecord (state : AuthState Account) (account : Account) (record : AccountRecord) :
    AuthState Account :=
  { state with server := Function.update state.server account record }

@[simp] theorem setRecord_server_self (state : AuthState Account) (account : Account)
    (record : AccountRecord) : (state.setRecord account record).server account = record := by
  simp [setRecord]

theorem setRecord_server_of_ne (state : AuthState Account) {account other : Account}
    (hne : other ≠ account) (record : AccountRecord) :
    (state.setRecord account record).server other = state.server other := by
  simp [setRecord, Function.update_of_ne hne]

/-- One event. -/
def step (state : AuthState Account) : AuthEvent Account → Option (AuthState Account)
  | .registered account =>
      if state.server account = .unknown then
        some { (state.setRecord account .unverified).signIn account false with
          screens := state.screens ++ [.opened account] }
      else none
  | .verified account =>
      if state.server account = .unverified then some (state.setRecord account .verified)
      else none
  | .signedIn account =>
      if state.server account = .unverified ∨ state.server account = .verified then
        -- the e-mail address is not asked for: the tab bar is installed at once
        some { state.signIn account (state.server account = .verified) with root := .tabBar }
      else none
  | .loggedOut => some { state with currentUser := none, root := .entrance }
  | .polled n => do
      let screen ← state.screens[n]?
      state.poll n screen
  | .tabBarInstalled n => do
      let screen ← state.screens[n]?
      if screen.poll = .installing then
        some { state.setScreen n { screen with poll := .done } with root := .tabBar }
      else none
  | .viewWillDisappear n => do
      let screen ← state.screens[n]?
      if screen.place = .shown then some (state.viewWillDisappear n screen) else none
  | .disappearCancelled n => do
      let screen ← state.screens[n]?
      if screen.place = .leaving then some (state.setScreen n { screen with place := .shown })
      else none
  | .viewDidDisappear n => do
      let screen ← state.screens[n]?
      if screen.place = .leaving then some (state.setScreen n { screen with place := .left })
      else none
  | .confirmPressed n => do
      let screen ← state.screens[n]?
      let user ← state.currentUser
      if screen.place = .shown then some (state.ask (.reload user (some n))) else none
  | .reloaded k =>
      match state.requests[k]? with
      | some (.reload user confirms) =>
          if state.server user.account = .unverified ∨ state.server user.account = .verified then
            let isEmailVerified := decide (state.server user.account = .verified)
            some (((state.setRequest k .finished).loadUser user.session isEmailVerified).confirm
              confirms isEmailVerified)
          else none
      | _ => none
  | .requestFailed k =>
      match state.requests[k]? with
      | some (.reload _ _) | some (.delete _) => some (state.setRequest k .finished)
      | _ => none
  | .removed k =>
      match state.requests[k]? with
      | some (.delete deletion) =>
          let record := state.server deletion.account
          if record = .unverified ∨ record = .verified then
            some { (state.setRequest k .deleted).setRecord deletion.account .removed with
              removals := state.removals ++ [⟨deletion, record⟩] }
          else none
      | _ => none
  | .deletionCompleted k =>
      match state.requests[k]? with
      | some .deleted => some { state.setRequest k .finished with currentUser := none }
      | _ => none

/-! ## What a step can do -/

/-- The outcomes of an event. -/
inductive Outcome (state : AuthState Account) : AuthEvent Account → AuthState Account → Prop where
  | registered {account : Account} (hnew : state.server account = .unknown) :
      Outcome state (.registered account)
        { (state.setRecord account .unverified).signIn account false with
          screens := state.screens ++ [.opened account] }
  | verified {account : Account} (hrecord : state.server account = .unverified) :
      Outcome state (.verified account) (state.setRecord account .verified)
  | signedIn {account : Account}
      (hrecord : state.server account = .unverified ∨ state.server account = .verified) :
      Outcome state (.signedIn account)
        { state.signIn account (state.server account = .verified) with root := .tabBar }
  | loggedOut : Outcome state .loggedOut { state with currentUser := none, root := .entrance }
  /-- the loop reads `stopAnimating` in its condition -/
  | readStop {n : Nat} {screen : ConfirmationScreen Account}
      (hscreen : state.screens[n]? = some screen) (hpoll : screen.poll = .readsStop) :
      Outcome state (.polled n) (state.setScreen n
        { screen with poll := if screen.stopAnimating then .exited else .readsVerified })
  /-- the loop finds the current user verified -/
  | foundVerified {n : Nat} {screen : ConfirmationScreen Account} {user : User Account}
      (hscreen : state.screens[n]? = some screen) (hpoll : screen.poll = .readsVerified)
      (huser : state.currentUser = some user) (hverified : user.isEmailVerified = true) :
      Outcome state (.polled n) (state.setScreen n { screen with poll := .exited })
  /-- the loop starts a reload and sleeps -/
  | slept {n : Nat} {screen : ConfirmationScreen Account} {user : User Account}
      (hscreen : state.screens[n]? = some screen) (hpoll : screen.poll = .readsVerified)
      (huser : state.currentUser = some user) :
      Outcome state (.polled n)
        ((state.ask (.reload user none)).setScreen n { screen with poll := .sleeping })
  | woke {n : Nat} {screen : ConfirmationScreen Account}
      (hscreen : state.screens[n]? = some screen) (hpoll : screen.poll = .sleeping) :
      Outcome state (.polled n) (state.setScreen n { screen with poll := .readsStop })
  /-- the loop ends with `deleteUser` -/
  | gaveUp {n : Nat} {screen : ConfirmationScreen Account}
      (hscreen : state.screens[n]? = some screen) (hpoll : screen.poll = .exited)
      (hstop : screen.stopAnimating = true) :
      Outcome state (.polled n)
        ((state.deleteUser screen).setScreen n { screen with poll := .done })
  /-- the loop ends with the tab bar -/
  | succeeded {n : Nat} {screen : ConfirmationScreen Account}
      (hscreen : state.screens[n]? = some screen) (hpoll : screen.poll = .exited)
      (hstop : screen.stopAnimating = false) :
      Outcome state (.polled n) (state.setScreen n { screen with poll := .installing })
  | tabBarInstalled {n : Nat} {screen : ConfirmationScreen Account}
      (hscreen : state.screens[n]? = some screen) (hpoll : screen.poll = .installing) :
      Outcome state (.tabBarInstalled n)
        { state.setScreen n { screen with poll := .done } with root := .tabBar }
  | willDisappear {n : Nat} {screen : ConfirmationScreen Account}
      (hscreen : state.screens[n]? = some screen) (hplace : screen.place = .shown) :
      Outcome state (.viewWillDisappear n) (state.viewWillDisappear n screen)
  | cancelled {n : Nat} {screen : ConfirmationScreen Account}
      (hscreen : state.screens[n]? = some screen) (hplace : screen.place = .leaving) :
      Outcome state (.disappearCancelled n) (state.setScreen n { screen with place := .shown })
  | disappeared {n : Nat} {screen : ConfirmationScreen Account}
      (hscreen : state.screens[n]? = some screen) (hplace : screen.place = .leaving) :
      Outcome state (.viewDidDisappear n) (state.setScreen n { screen with place := .left })
  | confirmPressed {n : Nat} {user : User Account} (huser : state.currentUser = some user) :
      Outcome state (.confirmPressed n) (state.ask (.reload user (some n)))
  | reloaded {k : Nat} {user : User Account} {confirms : Option Nat} {isEmailVerified : Bool}
      (hrequest : state.requests[k]? = some (.reload user confirms))
      (hverified : isEmailVerified = true ↔ state.server user.account = .verified) :
      Outcome state (.reloaded k)
        (((state.setRequest k .finished).loadUser user.session isEmailVerified).confirm
          confirms isEmailVerified)
  | failed {k : Nat} : Outcome state (.requestFailed k) (state.setRequest k .finished)
  | removed {k : Nat} {deletion : Deletion Account}
      (hrequest : state.requests[k]? = some (.delete deletion))
      (hrecord : state.server deletion.account = .unverified ∨
        state.server deletion.account = .verified) :
      Outcome state (.removed k)
        { (state.setRequest k .deleted).setRecord deletion.account .removed with
          removals := state.removals ++ [⟨deletion, state.server deletion.account⟩] }
  | completed {k : Nat} (hrequest : state.requests[k]? = some .deleted) :
      Outcome state (.deletionCompleted k)
        { state.setRequest k .finished with currentUser := none }

theorem outcome_of_poll {state next : AuthState Account} {n : Nat}
    {screen : ConfirmationScreen Account} (hscreen : state.screens[n]? = some screen)
    (h : state.poll n screen = some next) : state.Outcome (.polled n) next := by
  unfold poll at h
  split at h
  · rename_i hpoll
    exact Option.some.inj h ▸ .readStop hscreen hpoll
  · rename_i hpoll
    split at h
    · cases h
    · rename_i user huser
      split at h
      · rename_i hverified
        exact Option.some.inj h ▸ .foundVerified hscreen hpoll huser hverified
      · exact Option.some.inj h ▸ .slept hscreen hpoll huser
  · rename_i hpoll
    exact Option.some.inj h ▸ .woke hscreen hpoll
  · rename_i hpoll
    split at h
    · rename_i hstop
      exact Option.some.inj h ▸ .gaveUp hscreen hpoll hstop
    · rename_i hstop
      exact Option.some.inj h ▸ .succeeded hscreen hpoll (Bool.eq_false_iff.mpr hstop)
  · cases h
  · cases h

theorem outcome_of_step {state next : AuthState Account} {event : AuthEvent Account}
    (h : state.step event = some next) : state.Outcome event next := by
  cases event with
  | registered account =>
      simp only [step, Option.ite_none_right_eq_some, Option.some.injEq] at h
      exact h.2 ▸ .registered h.1
  | verified account =>
      simp only [step, Option.ite_none_right_eq_some, Option.some.injEq] at h
      exact h.2 ▸ .verified h.1
  | signedIn account =>
      simp only [step, Option.ite_none_right_eq_some, Option.some.injEq] at h
      exact h.2 ▸ .signedIn h.1
  | loggedOut => exact Option.some.inj h ▸ .loggedOut
  | polled n =>
      obtain ⟨screen, hscreen, h⟩ := Option.bind_eq_some_iff.mp h
      exact outcome_of_poll hscreen h
  | tabBarInstalled n =>
      obtain ⟨screen, hscreen, h⟩ := Option.bind_eq_some_iff.mp h
      simp only [Option.ite_none_right_eq_some, Option.some.injEq] at h
      exact h.2 ▸ .tabBarInstalled hscreen h.1
  | viewWillDisappear n =>
      obtain ⟨screen, hscreen, h⟩ := Option.bind_eq_some_iff.mp h
      simp only [Option.ite_none_right_eq_some, Option.some.injEq] at h
      exact h.2 ▸ .willDisappear hscreen h.1
  | disappearCancelled n =>
      obtain ⟨screen, hscreen, h⟩ := Option.bind_eq_some_iff.mp h
      simp only [Option.ite_none_right_eq_some, Option.some.injEq] at h
      exact h.2 ▸ .cancelled hscreen h.1
  | viewDidDisappear n =>
      obtain ⟨screen, hscreen, h⟩ := Option.bind_eq_some_iff.mp h
      simp only [Option.ite_none_right_eq_some, Option.some.injEq] at h
      exact h.2 ▸ .disappeared hscreen h.1
  | confirmPressed n =>
      obtain ⟨screen, hscreen, h⟩ := Option.bind_eq_some_iff.mp h
      obtain ⟨user, huser, h⟩ := Option.bind_eq_some_iff.mp h
      simp only [Option.ite_none_right_eq_some, Option.some.injEq] at h
      exact h.2 ▸ .confirmPressed huser
  | reloaded k =>
      simp only [step] at h
      split at h
      · rename_i user confirms hrequest
        simp only [Option.ite_none_right_eq_some, Option.some.injEq] at h
        exact h.2 ▸ .reloaded hrequest decide_eq_true_iff
      · cases h
  | requestFailed k =>
      simp only [step] at h
      split at h
      · exact Option.some.inj h ▸ .failed
      · exact Option.some.inj h ▸ .failed
      · cases h
  | removed k =>
      simp only [step] at h
      split at h
      · rename_i deletion hrequest
        simp only [Option.ite_none_right_eq_some, Option.some.injEq] at h
        exact h.2 ▸ .removed hrequest h.1
      · cases h
  | deletionCompleted k =>
      simp only [step] at h
      split at h
      · rename_i hrequest
        exact Option.some.inj h ▸ .completed hrequest
      · cases h

end AuthState

end QFree
