/-
  Auth/Forms.lean --- the forms that lead to the tab bar, and the one that changes an
  e-mail address.

  `RegistrationPresenter` and `EntrancePresenter` check what was typed with
  `AuthValidator` and show the text of the first check that fails.  The form that
  changes the address checks nothing: `ProfilePresenter.changeEmail` passes the text to
  Firebase Auth.

  So an account can come to an address that no form accepts.  Once signed out it cannot
  be entered again, whatever is typed; and if the database refuses the key of such an
  address, the first use of it after a launch raises.  `forms_keep_accounts_iff` says
  which addresses may be offered without either.
-/
import QFree.Auth.UserKey
import QFree.Foundation.Run

set_option autoImplicit false

namespace QFree

open QFree.Foundation QFree.FirebaseHandler

/-! ## The checks of the forms -/

def nameIsValid (name : Option String) : Bool :=
  match name with
  | none => false
  | some name => !name.isEmpty

/-- `passwordIsValid`; `count` is the number of characters of a text. -/
def passwordIsValid (count : String → Nat) (password : Option String) : Bool :=
  match password with
  | none => false
  | some password => decide (6 ≤ count password)

/-- What a press of the button leads to. -/
inductive FormOutcome where
  | showInfoLabel (text : String)
  | request (email password : String)
  deriving DecidableEq

/-- The text of the first check that fails, or the request with both texts unwrapped. -/
def submit (checks : List (Bool × String)) (email password : Option String) :
    Option FormOutcome :=
  match checks.find? fun check => !check.1 with
  | some check => some (.showInfoLabel check.2)
  | none => do return .request (← email) (← password)

/-- `RegistrationPresenter.checkInfoAndCreateAccount`. -/
def checkInfoAndCreateAccount (count : String → Nat) (name email password : Option String) :
    Option FormOutcome :=
  submit [(nameIsValid name, "Введите имя"), (emailIsValid email, "Некорректная почта"),
    (passwordIsValid count password, "Некорректный пароль")] email password

/-- `EntrancePresenter.checkInfoAndEnter`. -/
def checkInfoAndEnter (count : String → Nat) (email password : Option String) :
    Option FormOutcome :=
  submit [(emailIsValid email, "Некорректная почта"),
    (passwordIsValid count password, "Некорректный пароль")] email password

section Checks

variable {count : String → Nat} {name email password : Option String}

theorem submit_eq_request {checks : List (Bool × String)} {address secret : String} :
    submit checks email password = some (.request address secret) ↔
      (∀ check ∈ checks, check.1 = true) ∧ email = some address ∧ password = some secret := by
  unfold submit
  cases hfind : checks.find? fun check => !check.1 with
  | some check =>
      refine iff_of_false (fun h => nomatch Option.some.inj h) fun h => ?_
      have hfails := List.find?_some hfind
      rw [h.1 check (List.mem_of_find?_eq_some hfind)] at hfails
      cases hfails
  | none =>
      have hall : ∀ check ∈ checks, check.1 = true := fun check hmem => by
        simpa using List.find?_eq_none.mp hfind check hmem
      cases email with
      | none => simp
      | some typed =>
          cases password with
          | none => simp
          | some word => simpa using fun _ _ => hall

theorem create_eq_request {address secret : String} :
    checkInfoAndCreateAccount count name email password = some (.request address secret) ↔
      nameIsValid name = true ∧ emailIsValid (some address) = true ∧ 6 ≤ count secret ∧
        email = some address ∧ password = some secret := by
  rw [checkInfoAndCreateAccount, submit_eq_request]
  simp only [List.forall_mem_cons]
  constructor
  · rintro ⟨⟨hname, hemail, hsecret, -⟩, rfl, rfl⟩
    exact ⟨hname, hemail, of_decide_eq_true hsecret, rfl, rfl⟩
  · rintro ⟨hname, hemail, hsecret, rfl, rfl⟩
    exact ⟨⟨hname, hemail, decide_eq_true hsecret, nofun⟩, rfl, rfl⟩

theorem enter_eq_request {address secret : String} :
    checkInfoAndEnter count email password = some (.request address secret) ↔
      emailIsValid (some address) = true ∧ 6 ≤ count secret ∧
        email = some address ∧ password = some secret := by
  rw [checkInfoAndEnter, submit_eq_request]
  simp only [List.forall_mem_cons]
  constructor
  · rintro ⟨⟨hemail, hsecret, -⟩, rfl, rfl⟩
    exact ⟨hemail, of_decide_eq_true hsecret, rfl, rfl⟩
  · rintro ⟨hemail, hsecret, rfl, rfl⟩
    exact ⟨⟨hemail, decide_eq_true hsecret, nofun⟩, rfl, rfl⟩

/-- A form whose checks fail for a missing text never unwraps one. -/
theorem submit_ne_none {checks : List (Bool × String)}
    (hemail : ∃ text, (emailIsValid email, text) ∈ checks)
    (hpassword : ∃ text, (passwordIsValid count password, text) ∈ checks) :
    submit checks email password ≠ none := by
  unfold submit
  cases hfind : checks.find? fun check => !check.1 with
  | some check => exact Option.some_ne_none _
  | none =>
      rw [List.find?_eq_none] at hfind
      obtain ⟨text, hmem⟩ := hemail
      obtain ⟨other, hother⟩ := hpassword
      cases email with
      | none => exact absurd rfl (hfind _ hmem)
      | some typed =>
          cases password with
          | none => exact absurd rfl (hfind _ hother)
          | some word => exact Option.some_ne_none _

/-- No press of a button stops the app. -/
theorem create_ne_none : checkInfoAndCreateAccount count name email password ≠ none :=
  submit_ne_none ⟨_, .tail _ (.head _)⟩ ⟨_, .tail _ (.tail _ (.head _))⟩

theorem enter_ne_none : checkInfoAndEnter count email password ≠ none :=
  submit_ne_none ⟨_, .head _⟩ ⟨_, .tail _ (.head _)⟩

end Checks

/-! ## Accounts and one device -/

/-- The accounts on the server with their passwords, and the process on the device. -/
structure Forms where
  accounts : List (String × String)
  /-- the address of `Auth.auth().currentUser`, which outlives a launch -/
  currentUser : Option String
  shared : Option FirebaseHandler

/-- What happens on the device.  A call of Firebase Auth that fails changes nothing. -/
inductive FormsEvent where
  | createAccount (name email password : Option String)
  | enter (email password : Option String)
  /-- `changeEmail`, with success -/
  | changeEmail (email : String)
  | logOut
  | relaunched
  /-- a method of `shared` that names the subtree of the account -/
  | usesUser

/-- `ref.child("Users").child(user)`. -/
def userReference (user : String) : Option (List String) :=
  (DatabaseReference.child [] "Users").bind fun users => DatabaseReference.child users user

/-- The database takes the key of the address. -/
def IsUsable (email : String) : Prop := (userReference (userKey email)).isSome = true

instance (email : String) : Decidable (IsUsable email) := inferInstanceAs (Decidable (_ = true))

namespace Forms

/-- The app before its first launch. -/
def installed : Forms where
  accounts := []
  currentUser := none
  shared := none

section Step

variable (count : String → Nat)

/-- One event. -/
def step (state : Forms) : FormsEvent → Option Forms
  | .createAccount name email password => do
      match ← checkInfoAndCreateAccount count name email password with
      | .showInfoLabel _ => return state
      | .request email password =>
          if email ∈ state.accounts.map Prod.fst then return state
          else return { state with
            accounts := state.accounts ++ [(email, password)]
            currentUser := some email }
  | .enter email password => do
      match ← checkInfoAndEnter count email password with
      | .showInfoLabel _ => return state
      | .request email password =>
          if (email, password) ∈ state.accounts then
            return { state with currentUser := some email }
          else return state
  | .changeEmail email => do
      let current ← state.currentUser
      if email ∈ state.accounts.map Prod.fst then none
      else return { state with
        accounts := state.accounts.map fun account =>
          if account.1 = current then (email, account.2) else account
        currentUser := some email }
  | .logOut => do
      let _ ← state.currentUser
      return { state with currentUser := none }
  | .relaunched => some { state with shared := none }
  | .usesUser => do
      let current ← state.currentUser
      let handler := state.shared.getD (build (some current))
      match handler.user with
      | none => return { state with shared := some handler }
      | some user =>
          let _ ← userReference user
          return { state with shared := some handler }

/-- The account can be signed in again. -/
def CanEnter (state : Forms) (email : String) : Prop :=
  ∃ events final, run (step count) state events = some final ∧ final.currentUser = some email

/-- Only these addresses are typed where nothing is checked. -/
def Offers (offered : String → Prop) (events : List FormsEvent) : Prop :=
  ∀ email, .changeEmail email ∈ events → offered email

/-! ## What an event does -/

/-- The outcomes of an event. -/
inductive Transition (state : Forms) : FormsEvent → Forms → Prop where
  | refused (event : FormsEvent) : Transition state event state
  | created {name email password : Option String} {address secret : String}
      (hvalid : emailIsValid (some address) = true) (hsecret : 6 ≤ count secret)
      (hnew : address ∉ state.accounts.map Prod.fst) :
      Transition state (.createAccount name email password)
        { state with
          accounts := state.accounts ++ [(address, secret)]
          currentUser := some address }
  | entered {email password : Option String} {address secret : String}
      (hvalid : emailIsValid (some address) = true)
      (haccount : (address, secret) ∈ state.accounts) :
      Transition state (.enter email password) { state with currentUser := some address }
  | changed {email current : String} (hcurrent : state.currentUser = some current)
      (hnew : email ∉ state.accounts.map Prod.fst) :
      Transition state (.changeEmail email)
        { state with
          accounts := state.accounts.map fun account =>
            if account.1 = current then (email, account.2) else account
          currentUser := some email }
  | loggedOut : Transition state .logOut { state with currentUser := none }
  | relaunched : Transition state .relaunched { state with shared := none }
  | used {current : String} {handler : FirebaseHandler}
      (hcurrent : state.currentUser = some current)
      (hhandler : handler = state.shared.getD (build (some current))) :
      Transition state .usesUser { state with shared := some handler }

variable {count} {state next : Forms} {event : FormsEvent}

theorem transition_of_step (h : state.step count event = some next) :
    state.Transition count event next := by
  cases event with
  | createAccount name email password =>
      obtain ⟨outcome, houtcome, hnext⟩ := Option.bind_eq_some_iff.mp h
      cases outcome with
      | showInfoLabel text => exact Option.some.inj hnext ▸ .refused _
      | request address secret =>
          obtain ⟨-, hvalid, hsecret, -⟩ := create_eq_request.mp houtcome
          dsimp only at hnext
          split at hnext
          · exact Option.some.inj hnext ▸ .refused _
          · rename_i hnew
            exact Option.some.inj hnext ▸ .created hvalid hsecret hnew
  | enter email password =>
      obtain ⟨outcome, houtcome, hnext⟩ := Option.bind_eq_some_iff.mp h
      cases outcome with
      | showInfoLabel text => exact Option.some.inj hnext ▸ .refused _
      | request address secret =>
          obtain ⟨hvalid, -⟩ := enter_eq_request.mp houtcome
          dsimp only at hnext
          split at hnext
          · rename_i haccount
            exact Option.some.inj hnext ▸ .entered hvalid haccount
          · exact Option.some.inj hnext ▸ .refused _
  | changeEmail email =>
      obtain ⟨current, hcurrent, hchange⟩ := Option.bind_eq_some_iff.mp h
      split at hchange
      · cases hchange
      · rename_i hnew
        exact Option.some.inj hchange ▸ .changed hcurrent hnew
  | logOut =>
      obtain ⟨current, hcurrent, hnext⟩ := Option.bind_eq_some_iff.mp h
      exact Option.some.inj hnext ▸ .loggedOut
  | relaunched => exact Option.some.inj h ▸ .relaunched
  | usesUser =>
      obtain ⟨current, hcurrent, huse⟩ := Option.bind_eq_some_iff.mp h
      dsimp only at huse
      split at huse
      · exact Option.some.inj huse ▸ .used hcurrent rfl
      · obtain ⟨path, -, hnext⟩ := Option.bind_eq_some_iff.mp huse
        exact Option.some.inj hnext ▸ .used hcurrent rfl

/-! ## Addresses that are known -/

/-- The address passed the forms or was offered. -/
def Known (offered : String → Prop) (email : String) : Prop :=
  emailIsValid (some email) = true ∨ offered email

variable (count) in
/-- What the forms and the offered addresses leave behind. -/
structure Kept (offered : String → Prop) (state : Forms) : Prop where
  passwords : ∀ account ∈ state.accounts, 6 ≤ count account.2
  addresses : ∀ account ∈ state.accounts, Known offered account.1
  current : ∀ email, state.currentUser = some email → Known offered email
  shared : ∀ handler, state.shared = some handler →
    ∃ email, Known offered email ∧ handler = build (some email)

variable {offered : String → Prop}

theorem kept_installed : installed.Kept count offered := ⟨nofun, nofun, nofun, nofun⟩

theorem kept_step (h : state.Kept count offered)
    (hoffered : ∀ email, event = .changeEmail email → offered email)
    (hstep : state.step count event = some next) : next.Kept count offered := by
  cases transition_of_step hstep with
  | refused event => exact h
  | @created name email password address secret hvalid hsecret hnew =>
      refine ⟨fun account hmem => ?_, fun account hmem => ?_, fun email hcurrent => ?_, h.shared⟩
      · rcases List.mem_append.mp hmem with hold | hadded
        · exact h.passwords account hold
        · exact List.mem_singleton.mp hadded ▸ hsecret
      · rcases List.mem_append.mp hmem with hold | hadded
        · exact h.addresses account hold
        · exact List.mem_singleton.mp hadded ▸ .inl hvalid
      · exact .inl (Option.some.inj hcurrent ▸ hvalid)
  | entered hvalid haccount =>
      exact ⟨h.passwords, h.addresses, fun email hcurrent =>
        .inl (Option.some.inj hcurrent ▸ hvalid), h.shared⟩
  | @changed email current hcurrent hnew =>
      have hknown : Known offered email := .inr (hoffered email rfl)
      refine ⟨fun account hmem => ?_, fun account hmem => ?_, fun other hother => ?_, h.shared⟩
      · obtain ⟨old, hold, rfl⟩ := List.mem_map.mp hmem
        split
        · exact h.passwords old hold
        · exact h.passwords old hold
      · obtain ⟨old, hold, rfl⟩ := List.mem_map.mp hmem
        split
        · exact hknown
        · exact h.addresses old hold
      · exact Option.some.inj hother ▸ hknown
  | loggedOut => exact ⟨h.passwords, h.addresses, nofun, h.shared⟩
  | relaunched => exact ⟨h.passwords, h.addresses, h.current, nofun⟩
  | @used current handler hcurrent hhandler =>
      refine ⟨h.passwords, h.addresses, h.current, fun other hother => ?_⟩
      obtain rfl := Option.some.inj hother
      cases hshared : state.shared with
      | none =>
          rw [hshared, Option.getD_none] at hhandler
          exact ⟨current, h.current current hcurrent, hhandler⟩
      | some built =>
          rw [hshared, Option.getD_some] at hhandler
          exact hhandler ▸ h.shared built hshared

theorem kept_run {events : List FormsEvent} {final : Forms} (hoffers : Offers offered events)
    (hrun : run (step count) installed events = some final) : final.Kept count offered :=
  run_invariant_of_along (fun _ event => event ∈ events) (Kept count offered)
    (fun _ _ _ h hmem hstep =>
      kept_step h (fun email hevent => hoffers email (hevent ▸ hmem)) hstep)
    kept_installed (along_of_forall_mem installed fun _ hevent => hevent) hrun

/-! ## An account that cannot be entered -/

/-- The account is there and not signed in. -/
structure Locked (email : String) (state : Forms) : Prop where
  mem : email ∈ state.accounts.map Prod.fst
  other : state.currentUser ≠ some email

/-- Whatever is done on the device, an address that no form accepts stays out. -/
theorem locked_step {email : String} (h : state.Locked email)
    (hinvalid : emailIsValid (some email) = false) (hstep : state.step count event = some next) :
    next.Locked email := by
  have haccepted : ∀ address, emailIsValid (some address) = true → some address ≠ some email := by
    intro address hvalid hsame
    rw [Option.some.inj hsame, hinvalid] at hvalid
    cases hvalid
  cases transition_of_step hstep with
  | refused event => exact h
  | created hvalid hsecret hnew =>
      refine ⟨?_, haccepted _ hvalid⟩
      rw [List.map_append]
      exact List.mem_append_left _ h.mem
  | entered hvalid haccount => exact ⟨h.mem, haccepted _ hvalid⟩
  | @changed address current hcurrent hnew =>
      obtain ⟨account, haccount, hemail⟩ := List.mem_map.mp h.mem
      have hcurrentNe : account.1 ≠ current := fun hsame =>
        h.other (hcurrent.trans (congrArg some (hsame.symm.trans hemail)))
      refine ⟨List.mem_map.mpr ⟨account, List.mem_map.mpr ⟨account, haccount, ?_⟩, hemail⟩, ?_⟩
      · exact if_neg hcurrentNe
      · intro hsame
        exact hnew (Option.some.inj hsame ▸ h.mem)
  | loggedOut => exact ⟨h.mem, nofun⟩
  | relaunched => exact ⟨h.mem, h.other⟩
  | used hcurrent hhandler => exact ⟨h.mem, h.other⟩

theorem not_canEnter_of_locked {email : String} (h : state.Locked email)
    (hinvalid : emailIsValid (some email) = false) : ¬ state.CanEnter count email := by
  rintro ⟨events, final, hrun, hcurrent⟩
  exact (run_invariant (Locked email) (fun _ _ _ h hstep => locked_step h hinvalid hstep)
    h hrun).other hcurrent

/-- With its password an accepted account is entered at once. -/
theorem canEnter_of_valid (h : state.Kept count offered) {account : String × String}
    (haccount : account ∈ state.accounts) (hvalid : emailIsValid (some account.1) = true) :
    state.CanEnter count account.1 := by
  have houtcome : checkInfoAndEnter count (some account.1) (some account.2) =
      some (.request account.1 account.2) :=
    enter_eq_request.mpr ⟨hvalid, h.passwords account haccount, rfl, rfl⟩
  refine ⟨[.enter (some account.1) (some account.2)], { state with currentUser := some account.1 },
    run_cons_eq_some.mpr ⟨_, ?_, rfl⟩, rfl⟩
  rw [step, houtcome, Option.bind_eq_bind, Option.bind_some]
  exact if_pos haccount

/-! ## Keys -/

theorem isUsable_of_valid {email : String} (hvalid : emailIsValid (some email) = true) :
    IsUsable email := by
  rw [IsUsable, userReference, child_userKey ⟨email, hvalid⟩]
  rfl

/-- While all keys are usable, `shared` is. -/
theorem usesUser_ne_none (h : state.Kept count offered)
    (husable : ∀ email, offered email → IsUsable email) (hcurrent : state.currentUser ≠ none) :
    state.step count .usesUser ≠ none := by
  have hknown : ∀ email, Known offered email → IsUsable email := fun email h =>
    h.elim isUsable_of_valid (husable email)
  obtain ⟨current, hsome⟩ := Option.ne_none_iff_exists'.mp hcurrent
  obtain ⟨email, hemail, hhandler⟩ : ∃ email, Known offered email ∧
      state.shared.getD (build (some current)) = build (some email) := by
    cases hshared : state.shared with
    | none => exact ⟨current, h.current current hsome, rfl⟩
    | some built => exact h.shared built hshared
  obtain ⟨path, hpath⟩ := Option.isSome_iff_exists.mp (hknown email hemail)
  have huser : (build (some email)).user = some (userKey email) := rfl
  simp only [step, hsome, Option.bind_eq_bind, Option.bind_some, hhandler, huser, hpath]
  exact Option.some_ne_none _

/-! ## Which addresses may be offered -/

theorem sampleAddress_isValid : emailIsValid (some "a.b@x.ru") = true :=
  emailIsValid_of_parts ['a', '.', 'b'] ['x'] ['r', 'u'] (by decide) (by decide)

/-- A registered account changes to an address that no form accepts. -/
theorem run_changed (hcount : 6 ≤ count "123456") {email : String}
    (hinvalid : emailIsValid (some email) = false) :
    run (step count) installed
        [.createAccount (some "Anna") (some "a.b@x.ru") (some "123456"), .changeEmail email] =
      some ⟨[(email, "123456")], some email, none⟩ := by
  have hcreate : checkInfoAndCreateAccount count (some "Anna") (some "a.b@x.ru") (some "123456") =
      some (.request "a.b@x.ru" "123456") :=
    create_eq_request.mpr ⟨by decide, sampleAddress_isValid, hcount, rfl, rfl⟩
  have hne : email ≠ "a.b@x.ru" := by
    intro hsame
    rw [hsame, sampleAddress_isValid] at hinvalid
    cases hinvalid
  have hcreated : step count installed
      (.createAccount (some "Anna") (some "a.b@x.ru") (some "123456")) =
        some ⟨[("a.b@x.ru", "123456")], some "a.b@x.ru", none⟩ := by
    rw [step, hcreate]
    rfl
  have hchanged : step count ⟨[("a.b@x.ru", "123456")], some "a.b@x.ru", none⟩
      (.changeEmail email) = some ⟨[(email, "123456")], some email, none⟩ := by
    simp [step, hne]
  exact run_cons_eq_some.mpr ⟨_, hcreated, run_cons_eq_some.mpr ⟨_, hchanged, rfl⟩⟩

/-- Every account can be entered again from every state that is reached if and only if
every address offered for a change passes the check of the forms; and no use of `shared`
raises if and only if the database takes the key of each of them. -/
theorem forms_keep_accounts_iff (hcount : 6 ≤ count "123456") (offered : String → Prop) :
    ((∀ events final, Offers offered events → run (step count) installed events = some final →
        ∀ account ∈ final.accounts, final.CanEnter count account.1) ↔
      ∀ email, offered email → emailIsValid (some email) = true) ∧
    ((∀ events final, Offers offered events → run (step count) installed events = some final →
        final.currentUser ≠ none → final.step count .usesUser ≠ none) ↔
      ∀ email, offered email → IsUsable email) := by
  refine ⟨⟨fun henters email hoffered => ?_, ?_⟩, ⟨fun huses email hoffered => ?_, ?_⟩⟩
  · by_contra hvalid
    have hinvalid := Bool.eq_false_iff.mpr hvalid
    have hlogOut : step count ⟨[(email, "123456")], some email, none⟩ .logOut =
        some ⟨[(email, "123456")], none, none⟩ := rfl
    have hlast : run (step count) ⟨[(email, "123456")], some email, none⟩ [.logOut] =
        some ⟨[(email, "123456")], none, none⟩ := run_cons_eq_some.mpr ⟨_, hlogOut, rfl⟩
    have hrun := run_append.mpr ⟨_, run_changed hcount hinvalid, hlast⟩
    have hoffers : Offers offered
        [.createAccount (some "Anna") (some "a.b@x.ru") (some "123456"), .changeEmail email,
          .logOut] := by
      intro other hmem
      simp at hmem
      exact hmem ▸ hoffered
    have hlocked : Locked email ⟨[(email, "123456")], none, none⟩ :=
      ⟨.head _, fun hsame => by cases hsame⟩
    exact not_canEnter_of_locked hlocked hinvalid
      (henters _ _ hoffers hrun (email, "123456") (.head _))
  · intro hvalid events final hoffers hrun account haccount
    have hkept := kept_run hoffers hrun
    exact canEnter_of_valid hkept haccount
      ((hkept.addresses account haccount).elim id (hvalid account.1))
  · by_contra husable
    have hinvalid := Bool.eq_false_iff.mpr fun hvalid => husable (isUsable_of_valid hvalid)
    have hoffers : Offers offered
        [.createAccount (some "Anna") (some "a.b@x.ru") (some "123456"), .changeEmail email] := by
      intro other hmem
      simp at hmem
      exact hmem ▸ hoffered
    refine huses _ _ hoffers (run_changed hcount hinvalid) (Option.some_ne_none _) ?_
    have hrefused : userReference (userKey email) = none :=
      Option.not_isSome_iff_eq_none.mp husable
    simp [step, build, hrefused]
  · intro husable events final hoffers hrun hcurrent
    exact usesUser_ne_none (kept_run hoffers hrun) husable hcurrent

end Step

/-- The check would refuse an address with a number sign, and so does the database. -/
theorem forms_keep_accounts_iff_numberSign :
    ¬(∀ events final, Offers (· = "a#b@x.ru") events →
        run (step String.length) installed events = some final →
          final.currentUser ≠ none → final.step String.length .usesUser ≠ none) := by
  intro huses
  have husable : IsUsable "a#b@x.ru" :=
    (forms_keep_accounts_iff (by decide) (· = "a#b@x.ru")).2.mp huses "a#b@x.ru" rfl
  exact absurd husable (by decide)

end Forms

end QFree
