/-
  Auth/Session.lean --- one process of the app: Firebase Auth and
  `FirebaseHandler.shared`.

  `Auth.auth().currentUser` changes with every sign-in, registration and
  sign-out.  `FirebaseHandler.shared` is built once, at its first use, from the
  account that is signed in at that moment, and nothing ever assigns its `user`
  again.

  A call of a method of `shared` may hand an operation to the database at once;
  `makeOrder` hands it three writes when the read it starts is delivered.
  `accesses` collects these operations with the account that was signed in when
  the method was called.  What the server does with an operation, and when, is a
  step of its own.
-/
import QFree.Foundation.Run
import QFree.Networking.FirebaseHandler

set_option autoImplicit false

namespace QFree

open QFree.Foundation

/-! ## Calls -/

/-- The methods of `FirebaseHandler.shared` that the screens call.  A list of
entries is the order in which the loop of `postBasket` meets the dictionary. -/
inductive SharedCall where
  | getRestaurantsInfo
  | getProductsByIDRestaurant (id : String)
  | getBasket
  | postBasket (products : Basket) (entries : List (ProductInfo × Int64))
  | getOrders
  | makeOrder (number : Int64) (basket : Basket) (restaurants : List Restaurant)

/-- What the handler hands to the database. -/
inductive Operation where
  | observeSingleEvent (path : List String)
  | setValue (write : Write)

/-- The place an operation reads or writes. -/
def Operation.path : Operation → List String
  | .observeSingleEvent path => path
  | .setValue write => write.path

namespace SharedCall

/-- The methods that name a subtree of `Users`. -/
def usesUser : SharedCall → Bool
  | .getRestaurantsInfo | .getProductsByIDRestaurant _ => false
  | .getBasket | .postBasket .. | .getOrders | .makeOrder .. => true

/-- The entries of a `postBasket` are those of its dictionary. -/
def Listed : SharedCall → Prop
  | .postBasket products entries => products.Enumerates entries
  | _ => True

instance : (call : SharedCall) → Decidable call.Listed
  | .postBasket products entries => inferInstanceAs (Decidable (products.Enumerates entries))
  | .getRestaurantsInfo | .getProductsByIDRestaurant _ | .getBasket | .getOrders | .makeOrder .. =>
      .isTrue trivial

/-- The checks of the connection a method makes, one or two, succeed. -/
def online (isConnected stillConnected : Bool) : SharedCall → Bool
  | .makeOrder .. => isConnected && stillConnected
  | _ => isConnected

/-- The guards of a method and the operation it starts with. -/
def perform (handler : FirebaseHandler) (isConnected stillConnected : Bool) :
    SharedCall → Except NetworkingError Operation
  | .getRestaurantsInfo =>
      (FirebaseHandler.getRestaurantsInfoRequest isConnected).map .observeSingleEvent
  | .getProductsByIDRestaurant _ =>
      (FirebaseHandler.getProductsByIDRestaurantRequest isConnected).map .observeSingleEvent
  | .getBasket => (handler.getBasketRequest isConnected).map .observeSingleEvent
  | .postBasket _ entries => (handler.postBasket isConnected entries).map .setValue
  | .getOrders => (handler.getOrdersRequest isConnected).map .observeSingleEvent
  | .makeOrder .. =>
      (handler.makeOrderRequest isConnected stillConnected).map .observeSingleEvent

/-- The callback of a read runs to its end on this value.  The writes of a
`makeOrder` are an event of their own. -/
def completes {Date : Type} (dates : DateLibrary Date) (value : Json) : SharedCall → Bool
  | .getRestaurantsInfo => (FirebaseHandler.getRestaurantsInfoResponse value).isSome
  | .getProductsByIDRestaurant id =>
      (FirebaseHandler.getProductsByIDRestaurantResponse id value).isSome
  | .getBasket => (FirebaseHandler.getBasketResponse value).isSome
  | .getOrders => (FirebaseHandler.getOrdersResponse dates value).isSome
  | .postBasket .. | .makeOrder .. => false

theorem map_eq_ok {α β : Type} {result : Except NetworkingError α} {f : α → β} {value : β} :
    result.map f = .ok value ↔ ∃ a, result = .ok a ∧ f a = value := by
  cases result with
  | error error => simp [Except.map]
  | ok a => simp [Except.map]

theorem guardUser_eq_ok {handler : FirebaseHandler} {isConnected : Bool} {user : String} :
    handler.guardUser isConnected = .ok user ↔ isConnected = true ∧ handler.user = some user := by
  unfold FirebaseHandler.guardUser
  cases isConnected with
  | false => simp
  | true =>
      cases handler.user with
      | none => simp
      | some key => simp

theorem makeOrderRequest_eq_ok {handler : FirebaseHandler} {isConnected stillConnected : Bool}
    {path : List String} :
    handler.makeOrderRequest isConnected stillConnected = .ok path ↔
      isConnected = true ∧ handler.getBasketRequest stillConnected = .ok path := by
  unfold FirebaseHandler.makeOrderRequest
  cases isConnected with
  | false => simp [FirebaseHandler.guardUser, Bind.bind, Except.bind]
  | true =>
      cases huser : handler.user with
      | none =>
          simp [FirebaseHandler.getBasketRequest, FirebaseHandler.guardUser, huser, Bind.bind,
            Except.bind, Except.map]
          cases stillConnected <;> simp
      | some user => simp [FirebaseHandler.guardUser, huser, Bind.bind, Except.bind]

/-- A method that uses the key starts an operation exactly when it is online and
there is a key, and the operation lies in the subtree of the key. -/
theorem perform_eq_ok {handler : FirebaseHandler} {isConnected stillConnected : Bool}
    {call : SharedCall} {operation : Operation} (huses : call.usesUser = true)
    (h : call.perform handler isConnected stillConnected = .ok operation) :
    call.online isConnected stillConnected = true ∧
      ∃ user, handler.user = some user ∧ ["Users", user] <+: operation.path := by
  cases call with
  | getRestaurantsInfo => cases huses
  | getProductsByIDRestaurant id => cases huses
  | getBasket =>
      obtain ⟨path, hpath, rfl⟩ := map_eq_ok.mp h
      obtain ⟨user, hguard, rfl⟩ := map_eq_ok.mp hpath
      obtain ⟨hconnected, huser⟩ := guardUser_eq_ok.mp hguard
      exact ⟨hconnected, user, huser, ["basket"], rfl⟩
  | postBasket products entries =>
      obtain ⟨write, hwrite, rfl⟩ := map_eq_ok.mp h
      obtain ⟨user, hguard, rfl⟩ := map_eq_ok.mp hwrite
      obtain ⟨hconnected, huser⟩ := guardUser_eq_ok.mp hguard
      exact ⟨hconnected, user, huser, ["basket"], rfl⟩
  | getOrders =>
      obtain ⟨path, hpath, rfl⟩ := map_eq_ok.mp h
      obtain ⟨user, hguard, rfl⟩ := map_eq_ok.mp hpath
      obtain ⟨hconnected, huser⟩ := guardUser_eq_ok.mp hguard
      exact ⟨hconnected, user, huser, ["orders"], rfl⟩
  | makeOrder number basket restaurants =>
      obtain ⟨path, hpath, rfl⟩ := map_eq_ok.mp h
      obtain ⟨hconnected, hbasket⟩ := makeOrderRequest_eq_ok.mp hpath
      obtain ⟨user, hguard, rfl⟩ := map_eq_ok.mp hbasket
      obtain ⟨hstill, huser⟩ := guardUser_eq_ok.mp hguard
      exact ⟨Bool.and_eq_true_iff.mpr ⟨hconnected, hstill⟩, user, huser, ["basket"], rfl⟩

/-- Only a method that uses the key starts with a write. -/
theorem usesUser_of_perform {handler : FirebaseHandler} {isConnected stillConnected : Bool}
    {call : SharedCall} {write : Write}
    (h : call.perform handler isConnected stillConnected = .ok (.setValue write)) :
    call.usesUser = true := by
  cases call with
  | getRestaurantsInfo | getProductsByIDRestaurant =>
      obtain ⟨path, -, hobserve⟩ := map_eq_ok.mp h
      cases hobserve
  | getBasket | postBasket | getOrders | makeOrder => rfl

/-- An online method starts an operation if there is a key. -/
theorem perform_of_online {handler : FirebaseHandler} {user : String}
    {isConnected stillConnected : Bool} {call : SharedCall} (huser : handler.user = some user)
    (honline : call.online isConnected stillConnected = true) :
    ∃ operation, call.perform handler isConnected stillConnected = .ok operation := by
  cases call with
  | makeOrder number basket restaurants =>
      obtain ⟨hconnected, hstill⟩ := Bool.and_eq_true_iff.mp honline
      have hguard := guardUser_eq_ok.mpr ⟨hstill, huser⟩
      exact ⟨_, map_eq_ok.mpr ⟨_, makeOrderRequest_eq_ok.mpr
        ⟨hconnected, map_eq_ok.mpr ⟨user, hguard, rfl⟩⟩, rfl⟩⟩
  | getRestaurantsInfo =>
      obtain rfl : isConnected = true := honline
      exact ⟨_, rfl⟩
  | getProductsByIDRestaurant id =>
      obtain rfl : isConnected = true := honline
      exact ⟨_, rfl⟩
  | getBasket | postBasket | getOrders =>
      have hguard := guardUser_eq_ok.mpr ⟨honline, huser⟩
      exact ⟨_, map_eq_ok.mpr ⟨_, map_eq_ok.mpr ⟨user, hguard, rfl⟩, rfl⟩⟩

end SharedCall

/-! ## The process -/

/-- How far a call has come. -/
inductive CallProgress where
  | waiting (path : List String)
  | answered (value : Json)
  | writing (writes : List Write)

/-- How far a call has come when its first operation is issued. -/
def CallProgress.start : Operation → CallProgress
  | .observeSingleEvent path => .waiting path
  | .setValue write => .writing [write]

theorem CallProgress.start_eq_writing {operation : Operation} {writes : List Write}
    (h : CallProgress.start operation = .writing writes) :
    ∃ write, operation = .setValue write ∧ writes = [write] := by
  cases operation with
  | observeSingleEvent path => cases h
  | setValue write => exact ⟨write, rfl, (CallProgress.writing.inj h).symm⟩

/-- A call that is not finished: the account that was signed in when it was made
and what its callback captured. -/
structure OpenCall (Account : Type) where
  caller : Option Account
  handler : FirebaseHandler
  call : SharedCall
  progress : CallProgress

/-- An operation, the call that issued it and the account that was signed in when
the call was made. -/
structure Access (Account : Type) where
  caller : Option Account
  call : SharedCall
  operation : Operation

/-- A running app and the database.  The program keeps no list of its accesses. -/
structure Process (Account : Type) where
  currentUser : Option Account
  shared : Option FirebaseHandler
  database : Json
  calls : Nat → Option (OpenCall Account)
  accesses : List (Access Account)

/-- What can happen.  `signIn` and `register` are sign-ins and registrations that
succeed; `signOut` is `Auth.auth().signOut()`, from the profile or after an account
was deleted. -/
inductive SessionEvent (Account Date : Type) where
  | signIn (account : Account)
  | register (account : Account)
  | signOut
  | called (id : Nat) (call : SharedCall) (isConnected stillConnected : Bool)
  | answer (id : Nat)
  | cancel (id : Nat)
  | delivered (id : Nat)
  | orderDelivered (id : Nat) (entries : List (ProductInfo × Int64)) (now later : Date)
  | write (id : Nat)

/-- The account that is signed in after an event. -/
def SessionEvent.signedIn {Account Date : Type} (user : Option Account) :
    SessionEvent Account Date → Option Account
  | .signIn account | .register account => some account
  | .signOut => none
  | _ => user

namespace Process

variable {Account : Type}

/-- The app is launched: Auth may still have an account from an earlier run. -/
def launched (currentUser : Option Account) (database : Json) : Process Account where
  currentUser := currentUser
  shared := none
  database := database
  calls := fun _ => none
  accesses := []

/-- Replace an open call, or close it. -/
def setCall (process : Process Account) (id : Nat) (opened : Option (OpenCall Account)) :
    Process Account :=
  { process with calls := Function.update process.calls id opened }

section Step

variable {Date : Type} (dates : DateLibrary Date) (email : Account → String)

/-- `FirebaseHandler.shared`, as an expression evaluated now. -/
def handler (process : Process Account) : FirebaseHandler :=
  process.shared.getD (.build (process.currentUser.map email))

/-- The process after `FirebaseHandler.shared` was evaluated. -/
def useShared (process : Process Account) : Process Account :=
  { process with shared := some (process.handler email) }

/-- A method of the handler has issued its first operation. -/
def issue (process : Process Account) (id : Nat) (call : SharedCall) (operation : Operation) :
    Process Account :=
  { process.setCall id (some {
      caller := process.currentUser
      handler := process.handler email
      call := call
      progress := CallProgress.start operation }) with
    accesses := process.accesses ++ [⟨process.currentUser, call, operation⟩] }

/-- One event of the process. -/
def step (process : Process Account) : SessionEvent Account Date → Option (Process Account)
  | .signIn account | .register account => some { process with currentUser := some account }
  | .signOut => some { process with currentUser := none }
  | .called id call isConnected stillConnected =>
      if call.Listed then
        match call.perform (process.handler email) isConnected stillConnected with
        | .error _ => some (process.useShared email)
        | .ok operation =>
            match process.calls id with
            | none => some ((process.useShared email).issue email id call operation)
            | some _ => none
      else none
  | .answer id => do
      let opened ← process.calls id
      match opened.progress with
      | .waiting path =>
          some (process.setCall id
            (some { opened with progress := .answered (process.database.get path) }))
      | _ => none
  | .cancel id => do
      let opened ← process.calls id
      match opened.progress with
      | .waiting _ => some (process.setCall id none)
      | _ => none
  | .delivered id => do
      let opened ← process.calls id
      match opened.progress with
      | .answered value =>
          if opened.call.completes dates value then some (process.setCall id none) else none
      | _ => none
  | .orderDelivered id entries now later => do
      let opened ← process.calls id
      match opened.progress, opened.call, opened.handler.user with
      | .answered value, .makeOrder number _ restaurants, some user => do
          let basket ← FirebaseHandler.getBasketResponse value
          if basket.Enumerates entries then
            let writes ← FirebaseHandler.makeOrderResponse dates user number restaurants entries
              now later
            let issued := writes.map fun write =>
              (⟨opened.caller, opened.call, .setValue write⟩ : Access Account)
            return { process.setCall id (some { opened with progress := .writing writes }) with
              accesses := process.accesses ++ issued }
          else none
      | _, _, _ => none
  | .write id => do
      let opened ← process.calls id
      match opened.progress with
      | .writing (first :: rest) =>
          let remaining :=
            if rest = [] then none else some { opened with progress := .writing rest }
          some { process.setCall id remaining with database := first.apply process.database }
      | _ => none

/-! ## What a step can do -/

/-- The outcomes of an event. -/
inductive Outcome (process : Process Account) : SessionEvent Account Date → Process Account → Prop
    where
  /-- a sign-in, a registration or a sign-out -/
  | session {event : SessionEvent Account Date} {user : Option Account}
      (huser : event.signedIn process.currentUser = user)
      (hcall : ∀ id call isConnected stillConnected,
        event ≠ .called id call isConnected stillConnected) :
      Outcome process event { process with currentUser := user }
  /-- a method of `shared` fails at once -/
  | refused {id : Nat} {call : SharedCall} {isConnected stillConnected : Bool}
      {error : NetworkingError}
      (hperform : call.perform (process.handler email) isConnected stillConnected = .error error) :
      Outcome process (.called id call isConnected stillConnected) (process.useShared email)
  /-- a method of `shared` issues its first operation -/
  | issued {id : Nat} {call : SharedCall} {isConnected stillConnected : Bool}
      {operation : Operation}
      (hperform : call.perform (process.handler email) isConnected stillConnected =
        .ok operation) :
      Outcome process (.called id call isConnected stillConnected)
        ((process.useShared email).issue email id call operation)
  /-- a read is answered, cancelled or delivered -/
  | moved {event : SessionEvent Account Date} {id : Nat} {opened : OpenCall Account}
      (progress : Option CallProgress) (hprogress : ∀ writes, progress ≠ some (.writing writes))
      (huser : event.signedIn process.currentUser = process.currentUser)
      (hcall : ∀ id call isConnected stillConnected,
        event ≠ .called id call isConnected stillConnected)
      (hopened : process.calls id = some opened) :
      Outcome process event
        (process.setCall id (progress.map fun now => { opened with progress := now }))
  /-- a write arrives -/
  | written {id : Nat} {opened : OpenCall Account} {first : Write} {rest : List Write}
      (hopened : process.calls id = some opened)
      (hprogress : opened.progress = .writing (first :: rest)) :
      Outcome process (.write id)
        { process.setCall id ((if rest = [] then none else some (.writing rest)).map fun now =>
            { opened with progress := now }) with
          database := first.apply process.database }
  /-- the callback of `makeOrder` issues its writes -/
  | ordered {id : Nat} {entries : List (ProductInfo × Int64)} {now later : Date}
      {opened : OpenCall Account} {user : String} {number : Int64} {confirmed : Basket}
      {restaurants : List Restaurant} {writes : List Write}
      (hopened : process.calls id = some opened)
      (hcall : opened.call = .makeOrder number confirmed restaurants)
      (huser : opened.handler.user = some user)
      (hwrites : FirebaseHandler.makeOrderResponse dates user number restaurants entries now
        later = some writes) :
      Outcome process (.orderDelivered id entries now later)
        { process.setCall id (some { opened with progress := .writing writes }) with
          accesses := process.accesses ++
            writes.map fun write => ⟨opened.caller, opened.call, .setValue write⟩ }

variable {dates email}

theorem outcome_of_step {process next : Process Account} {event : SessionEvent Account Date}
    (h : process.step dates email event = some next) : process.Outcome dates email event next := by
  cases event with
  | signIn account => exact Option.some.inj h ▸ .session rfl (by simp)
  | register account => exact Option.some.inj h ▸ .session rfl (by simp)
  | signOut => exact Option.some.inj h ▸ .session rfl (by simp)
  | called id call isConnected stillConnected =>
      simp only [step, Option.ite_none_right_eq_some] at h
      obtain ⟨-, h⟩ := h
      split at h
      · rename_i error hperform
        exact Option.some.inj h ▸ .refused hperform
      · rename_i operation hperform
        split at h
        · exact Option.some.inj h ▸ .issued hperform
        · cases h
  | answer id =>
      simp only [step, Option.bind_eq_bind, Option.bind_eq_some_iff] at h
      obtain ⟨opened, hopened, h⟩ := h
      split at h
      · rename_i path hwaiting
        exact Option.some.inj h ▸ .moved (some _) (by simp) rfl (by simp) hopened
      · cases h
  | cancel id =>
      simp only [step, Option.bind_eq_bind, Option.bind_eq_some_iff] at h
      obtain ⟨opened, hopened, h⟩ := h
      split at h
      · exact Option.some.inj h ▸ .moved none (by simp) rfl (by simp) hopened
      · cases h
  | delivered id =>
      simp only [step, Option.bind_eq_bind, Option.bind_eq_some_iff] at h
      obtain ⟨opened, hopened, h⟩ := h
      split at h
      · simp only [Option.ite_none_right_eq_some, Option.some.injEq] at h
        exact h.2 ▸ .moved none (by simp) rfl (by simp) hopened
      · cases h
  | orderDelivered id entries now later =>
      simp only [step, Option.bind_eq_bind, Option.bind_eq_some_iff] at h
      obtain ⟨opened, hopened, h⟩ := h
      split at h
      · rename_i value number confirmed restaurants user hanswered hcall huser
        simp only [Option.bind_eq_some_iff, Option.ite_none_right_eq_some, Option.pure_def,
          Option.some.injEq] at h
        obtain ⟨basket, -, -, writes, hwrites, rfl⟩ := h
        exact .ordered hopened hcall huser hwrites
      · cases h
  | write id =>
      simp only [step, Option.bind_eq_bind, Option.bind_eq_some_iff] at h
      obtain ⟨opened, hopened, h⟩ := h
      split at h
      · rename_i first rest hwriting
        have hwritten : process.Outcome dates email (.write id) _ := .written hopened hwriting
        by_cases hlast : rest = []
        · rw [if_pos hlast] at h hwritten
          exact Option.some.inj h ▸ hwritten
        · rw [if_neg hlast] at h hwritten
          exact Option.some.inj h ▸ hwritten
      · cases h

end Step

end Process

end QFree
