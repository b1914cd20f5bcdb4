/-
  Auth/UserKey.lean --- the database keys of accepted addresses.

  The key of an address is the address without its dots.  It is always usable as
  a key of the database (`child_userKey`), but it forgets where the dots were:
  two addresses have one key exactly when one of them can be rewritten into the
  other by putting dots in and taking dots out (`userKey_eq_iff`).
-/
import Mathlib.Logic.Relation
import QFree.Auth.Validator
import QFree.Networking.DatabaseReference
import QFree.Networking.FirebaseHandler

set_option autoImplicit false

namespace QFree

open QFree.FirebaseHandler

/-! ## Addresses that differ in dots -/

/-- The second text is the first with one more dot. -/
def DotInserted (email longer : String) : Prop :=
  ∃ front back : List Char,
    email.toList = front ++ back ∧ longer.toList = front ++ '.' :: back

/-- Texts that become each other when dots are put in and taken out. -/
def SameUpToDots (email other : String) : Prop := Relation.EqvGen DotInserted email other

theorem toList_userKey (email : String) :
    (userKey email).toList = email.toList.filter fun c => c ≠ '.' := by
  rw [userKey, String.toList_ofList]

theorem userKey_of_dotInserted {email longer : String} (h : DotInserted email longer) :
    userKey email = userKey longer := by
  obtain ⟨front, back, hemail, hlonger⟩ := h
  rw [userKey, userKey, hemail, hlonger, List.filter_append, List.filter_append,
    List.filter_cons_of_neg (by simp)]

/-- Taking its dots out one by one leads from a text to its key. -/
theorem sameUpToDots_userKey (email : String) : SameUpToDots (userKey email) email := by
  -- the part in front of `back` is already as in the address
  have hsuffix : ∀ back front : List Char,
      SameUpToDots (String.ofList (front ++ back.filter fun c => c ≠ '.'))
        (String.ofList (front ++ back)) := by
    intro back
    induction back with
    | nil =>
        intro front
        exact .refl _
    | cons c back ih =>
        intro front
        have hrest := ih (front ++ [c])
        rw [List.append_assoc, List.append_assoc, List.singleton_append,
          List.singleton_append] at hrest
        by_cases hdot : c = '.'
        · have hput : DotInserted (String.ofList (front ++ back.filter fun c => c ≠ '.'))
              (String.ofList (front ++ c :: back.filter fun c => c ≠ '.')) :=
            ⟨front, _, String.toList_ofList, by rw [String.toList_ofList, hdot]⟩
          rw [List.filter_cons_of_neg (by simpa using hdot)]
          exact .trans _ _ _ (.rel _ _ hput) hrest
        · rw [List.filter_cons_of_pos (by simpa using hdot)]
          exact hrest
  have h := hsuffix email.toList []
  rwa [List.nil_append, List.nil_append, String.ofList_toList] at h

theorem userKey_eq_iff {email other : String} :
    userKey email = userKey other ↔ SameUpToDots email other := by
  constructor
  · intro hkey
    have hother := sameUpToDots_userKey other
    rw [← hkey] at hother
    exact .trans _ _ _ (.symm _ _ (sameUpToDots_userKey email)) hother
  · intro hsame
    induction hsame with
    | rel email longer h => exact userKey_of_dotInserted h
    | refl email => rfl
    | symm email other _ ih => exact ih.symm
    | trans email middle other _ _ ih ih' => exact ih.trans ih'

/-! ## Keys that keep accounts apart -/

/-- The subtrees of the two accounts are different, and so are their baskets and
their lists of orders. -/
def DataApart (email other : ValidEmail) : Prop :=
  (build (some email.address)).user ≠ (build (some other.address)).user ∧
    basketPath (userKey email.address) ≠ basketPath (userKey other.address) ∧
    ordersPath (userKey email.address) ≠ ordersPath (userKey other.address)

theorem dataApart_iff {email other : ValidEmail} :
    DataApart email other ↔ userKey email.address ≠ userKey other.address := by
  constructor
  · intro h hkey
    exact h.2.1 (congrArg basketPath hkey)
  · intro hkey
    refine ⟨fun h => hkey (Option.some.inj h), fun h => hkey ?_, fun h => hkey ?_⟩
    · exact (List.cons.inj (List.cons.inj h).2).1
    · exact (List.cons.inj (List.cons.inj h).2).1

/-- Two different accepted addresses keep their data apart unless they differ
only in dots. -/
theorem data_apart_iff (email other : ValidEmail) :
    (email.address ≠ other.address → DataApart email other) ↔
      (SameUpToDots email.address other.address → email.address = other.address) := by
  rw [dataApart_iff, ne_eq, ne_eq, userKey_eq_iff]
  exact not_imp_not

/-- `a.b@x.ru` and `ab@x.ru` are accepted and share their data. -/
theorem dotted_addresses_share_data :
    ∃ email other : ValidEmail,
      email.address = "a.b@x.ru" ∧ other.address = "ab@x.ru" ∧
        email.address ≠ other.address ∧ ¬DataApart email other := by
  have hdotted : emailIsValid (some "a.b@x.ru") = true :=
    emailIsValid_of_parts ['a', '.', 'b'] ['x'] ['r', 'u'] (by decide) (by decide)
  have hplain : emailIsValid (some "ab@x.ru") = true :=
    emailIsValid_of_parts ['a', 'b'] ['x'] ['r', 'u'] (by decide) (by decide)
  have hne : "a.b@x.ru" ≠ "ab@x.ru" := by decide
  have hkey : userKey "a.b@x.ru" = userKey "ab@x.ru" := by decide
  exact ⟨⟨_, hdotted⟩, ⟨_, hplain⟩, rfl, rfl, hne, fun h => dataApart_iff.mp h hkey⟩

/-! ## Keys the database takes -/

theorem at_mem_userKey (email : ValidEmail) : '@' ∈ (userKey email.address).toList := by
  rw [toList_userKey]
  exact List.mem_filter.mpr ⟨email.at_mem, by decide⟩

/-- A key of an accepted address has no character that the database refuses. -/
theorem isValidKey_userKey (email : ValidEmail) :
    DatabaseReference.isValidKey (userKey email.address) = true := by
  have hallowed : ∀ c ∈ '@' :: (localCharacters ++ domainCharacters), c ≠ '.' →
      c ∉ DatabaseReference.invalidKeyCharacters :=
    List.all_iff_forall_prop.mp (by decide +kernel)
  have hlength : (userKey email.address).length ≠ 0 := by
    rw [← String.length_toList]
    exact (List.length_pos_of_mem (at_mem_userKey email)).ne'
  rw [DatabaseReference.isValidKey, Bool.and_eq_true, decide_eq_true_eq, List.all_eq_true]
  refine ⟨hlength, fun c hc => ?_⟩
  rw [toList_userKey, List.mem_filter, decide_eq_true_eq] at hc
  exact decide_eq_true (hallowed c (email.mem_characters c hc.1) hc.2)

/-- The reference `ref.child("Users").child(user)` is built without raising. -/
theorem child_userKey (email : ValidEmail) :
    ((DatabaseReference.child [] "Users").bind fun users =>
        DatabaseReference.child users (userKey email.address)) =
      some ["Users", userKey email.address] := by
  have hroot : DatabaseReference.child [] "Users" = some ["Users"] := by decide
  rw [hroot, Option.bind_some,
    DatabaseReference.child_of_isValidKey (List.cons_ne_nil _ _) (isValidKey_userKey email),
    List.singleton_append]

/-- For every accepted address the key is a usable key of the database, and it
names one direct child of `Users` that no reader takes for an element of an
array. -/
theorem accepted_address_gives_path (decimalDigit : Char → Option Nat)
    (hat : decimalDigit '@' = none) (email : ValidEmail) :
    userKey email.address ≠ "" ∧
      (∀ c ∈ ['.', '#', '$', '[', ']', '/'], c ∉ (userKey email.address).toList) ∧
      ((DatabaseReference.child [] "Users").bind fun users =>
          DatabaseReference.child users (userKey email.address)) =
        some ["Users", userKey email.address] ∧
      '@' ∈ (userKey email.address).toList ∧
      ∀ keys : List String, userKey email.address ∈ keys →
        DatabaseReference.isReadAsArray decimalDigit keys = false := by
  have hvalid := isValidKey_userKey email
  rw [DatabaseReference.isValidKey, Bool.and_eq_true, decide_eq_true_eq, List.all_eq_true]
    at hvalid
  have hforbidden : ∀ c ∈ ['.', '#', '$', '[', ']', '/'],
      c ∈ DatabaseReference.invalidKeyCharacters :=
    List.all_iff_forall_prop.mp (by decide)
  refine ⟨fun hempty => hvalid.1 (by rw [hempty]; rfl), fun c hc hmem => ?_,
    child_userKey email, at_mem_userKey email, fun keys hkeys => ?_⟩
  · exact of_decide_eq_true (hvalid.2 c hmem) (hforbidden c hc)
  · exact DatabaseReference.isReadAsArray_of_mem hkeys
      (DatabaseReference.intForString_eq_none (at_mem_userKey email) hat)

/-- With the ASCII digits as decimal digits, for the address `a.b@x.ru`. -/
theorem accepted_address_gives_path_sample :
    ∃ email : ValidEmail, email.address = "a.b@x.ru" ∧
      userKey email.address = "ab@xru" ∧
      ((DatabaseReference.child [] "Users").bind fun users =>
          DatabaseReference.child users (userKey email.address)) =
        some ["Users", userKey email.address] := by
  have hvalid : emailIsValid (some "a.b@x.ru") = true :=
    emailIsValid_of_parts ['a', '.', 'b'] ['x'] ['r', 'u'] (by decide) (by decide)
  have h := accepted_address_gives_path
    (fun c => if c.isDigit then some (c.toNat - '0'.toNat) else none) (by decide) ⟨_, hvalid⟩
  have hkey : userKey "a.b@x.ru" = "ab@xru" := by decide
  exact ⟨⟨_, hvalid⟩, rfl, hkey, h.2.2.1⟩

end QFree
