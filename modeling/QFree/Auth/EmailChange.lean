/-
  Auth/EmailChange.lean --- changing the e-mail address of an account.

  `changeEmail` gives the account another address and the app then asks to sign in
  again.  The data of the account stay where they are, under the key of the old
  address, while `FirebaseHandler.shared` of the next launch derives its key from
  the new one.  So the account finds its data again exactly when the two addresses
  have one key, that is when they differ in dots only (`data_kept_iff`).

  Within one launch the effect cannot be seen: `shared` keeps the key it was built
  with.
-/
import QFree.Auth.UserKey
import QFree.Foundation.Run

set_option autoImplicit false

namespace QFree

open QFree.Foundation QFree.FirebaseHandler

/-! ## One device and its account -/

/-- The account, the device it is used on, and the database. -/
structure Device where
  /-- the address of the account -/
  email : String
  /-- the account is `Auth.auth().currentUser`, which outlives a launch -/
  isSignedIn : Bool
  /-- `FirebaseHandler.shared`, once it was used in this launch -/
  shared : Option FirebaseHandler
  database : Json

/-- What happens between two looks at the data. -/
inductive EmailEvent where
  /-- `changeEmail`, with success -/
  | changeEmail (email : String)
  | logOut
  /-- the app is terminated and launched again -/
  | relaunched
  | signIn (email : String)
  /-- a use of `shared` behind the tab bar that is about no basket and no order -/
  | getRestaurantsInfo
  deriving DecidableEq

namespace Device

/-- `Auth.auth().currentUser?.email`. -/
def currentEmail (device : Device) : Option String :=
  if device.isSignedIn then some device.email else none

/-- The handler of the next use of `shared`. -/
def handler (device : Device) : FirebaseHandler := device.shared.getD (build device.currentEmail)

/-- One event; an account signs in with its present address. -/
def step (device : Device) : EmailEvent → Option Device
  | .changeEmail email => if device.isSignedIn then some { device with email := email } else none
  | .logOut => if device.isSignedIn then some { device with isSignedIn := false } else none
  | .relaunched => some { device with shared := none }
  | .signIn email =>
      if device.isSignedIn = false ∧ email = device.email then
        some { device with isSignedIn := true }
      else none
  | .getRestaurantsInfo =>
      if device.isSignedIn then some { device with shared := some device.handler } else none

/-- `getBasket` on this device. -/
def getBasket (device : Device) (isConnected : Bool) : Option (Except NetworkingError Basket) :=
  FirebaseHandler.getBasket device.handler isConnected device.database

/-- `getOrders` on this device. -/
def getOrders {Date : Type} (dates : DateLibrary Date) (device : Device) (isConnected : Bool) :
    Option (Except NetworkingError (List OrderInfo)) :=
  FirebaseHandler.getOrders dates device.handler isConnected device.database

/-! ## Changes -/

/-- A change of the address, with the numbers of other uses of `shared` before
the sign-out and after the sign-in. -/
structure Change where
  email : String
  before : Nat
  after : Nat

/-- The change, then sign-out, relaunch and sign-in with the new address. -/
def Change.events (change : Change) : List EmailEvent :=
  .changeEmail change.email :: (List.replicate change.before .getRestaurantsInfo ++
    [.logOut, .relaunched, .signIn change.email] ++
    List.replicate change.after .getRestaurantsInfo)

/-- The address after the changes. -/
def lastEmail (email : String) (changes : List Change) : String :=
  changes.foldl (fun _ change => change.email) email

/-- The account is signed in with the address, and `shared` is not used yet or
was built for it. -/
structure SignedInAs (device : Device) (email : String) : Prop where
  email_eq : device.email = email
  signedIn : device.isSignedIn = true
  shared_eq : ∀ handler ∈ device.shared, handler = build (some email)

variable {device : Device} {email : String}

theorem SignedInAs.handler_eq (h : device.SignedInAs email) :
    device.handler = build (some email) := by
  rw [handler]
  cases hshared : device.shared with
  | none => rw [Option.getD_none, currentEmail, if_pos h.signedIn, h.email_eq]
  | some handler => exact h.shared_eq handler hshared

/-- Other uses of `shared` can be made at any time, and build it at most. -/
theorem run_uses (n : Nat) :
    ∀ device : Device, device.isSignedIn = true → ∃ shared : Option FirebaseHandler,
      run step device (List.replicate n .getRestaurantsInfo) =
          some { device with shared := shared } ∧
        ∀ handler ∈ shared, handler = device.handler := by
  induction n with
  | zero =>
      intro device _
      refine ⟨device.shared, rfl, fun handler hshared => ?_⟩
      rw [Device.handler, hshared, Option.getD_some]
  | succ n ih =>
      intro device hsigned
      have hstep : device.step .getRestaurantsInfo =
          some { device with shared := some device.handler } := if_pos hsigned
      obtain ⟨shared, hrun, hshared⟩ := ih { device with shared := some device.handler } hsigned
      exact ⟨shared, run_cons_eq_some.mpr ⟨_, hstep, hrun⟩, hshared⟩

/-- A change goes through and leaves the database alone. -/
theorem run_change (h : device.SignedInAs email) (change : Change) :
    ∃ final, run step device change.events = some final ∧ final.SignedInAs change.email ∧
      final.database = device.database := by
  have hchange : device.step (.changeEmail change.email) =
      some { device with email := change.email } := if_pos h.signedIn
  obtain ⟨shared, hbefore, -⟩ :=
    run_uses change.before { device with email := change.email } h.signedIn
  have hsignIn : run step ⟨change.email, device.isSignedIn, shared, device.database⟩
      [.logOut, .relaunched, .signIn change.email] =
        some ⟨change.email, true, none, device.database⟩ := by
    simp [run_cons, step, h.signedIn]
  obtain ⟨shared', hafter, hshared'⟩ :=
    run_uses change.after ⟨change.email, true, none, device.database⟩ rfl
  refine ⟨_, run_cons_eq_some.mpr ⟨_, hchange, run_append.mpr
    ⟨_, run_append.mpr ⟨_, hbefore, hsignIn⟩, hafter⟩⟩, ⟨rfl, rfl, hshared'⟩, rfl⟩

/-- So does a list of changes. -/
theorem run_changes (changes : List Change) :
    ∀ {device : Device} {email : String}, device.SignedInAs email →
      ∃ final, run step device (changes.flatMap Change.events) = some final ∧
        final.SignedInAs (lastEmail email changes) ∧ final.database = device.database := by
  induction changes with
  | nil =>
      intro device email h
      exact ⟨device, rfl, h, rfl⟩
  | cons change rest ih =>
      intro device email h
      obtain ⟨middle, hchange, hmiddle, hdatabase⟩ := run_change h change
      obtain ⟨final, hrest, hfinal, hkept⟩ := ih hmiddle
      rw [List.flatMap_cons]
      exact ⟨final, run_append.mpr ⟨middle, hchange, hrest⟩, hfinal, hkept.trans hdatabase⟩

/-! ## The data after the changes -/

/-- Whatever is stored, `getBasket` and `getOrders` return after the changes what
they returned before. -/
def KeepsData {Date : Type} (dates : DateLibrary Date) (email : String) (changes : List Change) :
    Prop :=
  ∀ (device final : Device) (isConnected : Bool), device.SignedInAs email →
    run step device (changes.flatMap Change.events) = some final →
      final.getBasket isConnected = device.getBasket isConnected ∧
        final.getOrders dates isConnected = device.getOrders dates isConnected

/-- The product of the basket below. -/
def latte : ProductInfo := ⟨"Latte", 199, "l.png", [.coffee], "0"⟩

/-- A database with nothing but a basket of one latte under the key. -/
def latteUnder (user : String) : Json :=
  Json.null.set (basketPath user) (encodeItems [(latte, 1)]).pruned

theorem latte_ne_empty : (∅ : Basket).insert latte 1 ≠ ∅ := by
  intro hempty
  have hlookup := congrArg (Finmap.lookup latte) hempty
  rw [Finmap.lookup_insert, Finmap.lookup_empty] at hlookup
  exact Option.some_ne_none _ hlookup

theorem getBasket_latteUnder (user : String) :
    FirebaseHandler.getBasket ⟨some user⟩ true (latteUnder user) =
      some (.ok (Finmap.insert latte 1 ∅)) := by
  have hread : getBasketResponse (encodeItems [(latte, 1)]).pruned =
      some (Finmap.insert latte 1 ∅) := by
    decide
  exact Option.map_eq_some_iff.mpr
    ⟨_, (congrArg getBasketResponse (Json.get_set_same _ _ _)).trans hread, rfl⟩

/-- Under another key of this database there is no basket. -/
theorem getBasket_latteUnder_of_ne {user other : String} (hne : other ≠ user) :
    FirebaseHandler.getBasket ⟨some other⟩ true (latteUnder user) = some (.ok ∅) := by
  have hnull : (latteUnder user).get (basketPath other) = .null :=
    Json.get_set_of_ne .null ["Users"] hne ["basket"] ["basket"] _
  exact Option.map_eq_some_iff.mpr ⟨∅, congrArg getBasketResponse hnull, rfl⟩

theorem SignedInAs.getBasket_eq (h : device.SignedInAs email) (isConnected : Bool) :
    device.getBasket isConnected =
      FirebaseHandler.getBasket ⟨some (userKey email)⟩ isConnected device.database := by
  rw [Device.getBasket, h.handler_eq]
  rfl

theorem SignedInAs.getOrders_eq {Date : Type} (dates : DateLibrary Date)
    (h : device.SignedInAs email) (isConnected : Bool) :
    device.getOrders dates isConnected =
      FirebaseHandler.getOrders dates ⟨some (userKey email)⟩ isConnected device.database := by
  rw [Device.getOrders, h.handler_eq]
  rfl

/-- Changes of the address keep the data exactly when the last address differs
from the first in dots only. -/
theorem data_kept_iff {Date : Type} (dates : DateLibrary Date) (email : String)
    (changes : List Change) :
    KeepsData dates email changes ↔ SameUpToDots email (lastEmail email changes) := by
  rw [← userKey_eq_iff]
  constructor
  · intro hkeeps
    by_contra hne
    have hsigned : SignedInAs ⟨email, true, none, latteUnder (userKey email)⟩ email :=
      ⟨rfl, rfl, nofun⟩
    obtain ⟨final, hrun, hfinal, hdatabase⟩ := run_changes changes hsigned
    have hsame := (hkeeps _ final true hsigned hrun).1
    rw [hfinal.getBasket_eq, hsigned.getBasket_eq, hdatabase,
      getBasket_latteUnder_of_ne (Ne.symm hne), getBasket_latteUnder] at hsame
    exact latte_ne_empty (Except.ok.inj (Option.some.inj hsame)).symm
  · intro hkey device final isConnected hsigned hrun
    obtain ⟨other, hother, hfinal, hdatabase⟩ := run_changes changes hsigned
    obtain rfl : final = other := Option.some.inj (hrun.symm.trans hother)
    rw [hfinal.getBasket_eq, hsigned.getBasket_eq, hfinal.getOrders_eq, hsigned.getOrders_eq,
      hdatabase, hkey]
    exact ⟨rfl, rfl⟩

/-- The basket of an account that moves to another mailbox is no longer found. -/
theorem basket_lost_after_change :
    ¬ KeepsData utcDates "user@mail.ru" [⟨"new@mail.ru", 0, 0⟩] := by
  intro hkeeps
  have hkept := hkeeps ⟨"user@mail.ru", true, none, latteUnder "user@mailru"⟩
    ⟨"new@mail.ru", true, none, latteUnder "user@mailru"⟩ true ⟨rfl, rfl, nofun⟩ rfl
  have hbefore : getBasket ⟨"user@mail.ru", true, none, latteUnder "user@mailru"⟩ true =
      some (.ok (Finmap.insert latte 1 ∅)) :=
    getBasket_latteUnder "user@mailru"
  have hafter : getBasket ⟨"new@mail.ru", true, none, latteUnder "user@mailru"⟩ true =
      some (.ok ∅) :=
    getBasket_latteUnder_of_ne (by decide : "new@mailru" ≠ "user@mailru")
  rw [hbefore, hafter] at hkept
  exact latte_ne_empty (Except.ok.inj (Option.some.inj hkept.1)).symm

end Device

end QFree
