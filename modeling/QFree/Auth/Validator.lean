/-
  Auth/Validator.lean --- `AuthValidator`.

  `emailIsValid` matches the whole text against a regular expression; a missing
  text does not match.  `emailIsValid_iff` reads the expression off as the three
  pieces of an accepted address:

      localPart @ domain . topLevel

  and `ValidEmail` is the type of the addresses the validator accepts.
-/
import Mathlib.Data.Bool.AllAny
import QFree.Foundation.Pattern

set_option autoImplicit false

namespace QFree

open QFree.Foundation QFree.Foundation.Pattern
open RegularExpression (char)

/-! ## The expression -/

/-- The characters from `first` to `last` of a bracket expression. -/
def charRange (first last : Char) : List Char :=
  (List.range' first.toNat (last.toNat - first.toNat + 1)).map Char.ofNat

/-- `[A-Z0-9a-z._%+-]`. -/
def localCharacters : List Char :=
  charRange 'A' 'Z' ++ charRange '0' '9' ++ charRange 'a' 'z' ++ ['.', '_', '%', '+', '-']

/-- `[A-Za-z0-9.-]`. -/
def domainCharacters : List Char :=
  charRange 'A' 'Z' ++ charRange 'a' 'z' ++ charRange '0' '9' ++ ['.', '-']

/-- `[A-Za-z]`. -/
def topLevelCharacters : List Char := charRange 'A' 'Z' ++ charRange 'a' 'z'

/-- `[A-Z0-9a-z._%+-]+@[A-Za-z0-9.-]+\.[A-Za-z]{2,64}`. -/
def emailRegEx : RegularExpression Char :=
  oneOrMore (charClass localCharacters) * char '@' * oneOrMore (charClass domainCharacters) *
    char '.' * between 2 64 (charClass topLevelCharacters)

def emailIsValid (email : Option String) : Bool :=
  match email with
  | none => false
  | some email => emailRegEx.rmatch email.toList

/-! ## What it accepts -/

theorem emailIsValid_iff {email : String} :
    emailIsValid (some email) = true ↔
      ∃ localPart domain topLevel : List Char,
        email.toList = localPart ++ '@' :: domain ++ '.' :: topLevel ∧
        (localPart ≠ [] ∧ ∀ c ∈ localPart, c ∈ localCharacters) ∧
        (domain ≠ [] ∧ ∀ c ∈ domain, c ∈ domainCharacters) ∧
        (2 ≤ topLevel.length ∧ topLevel.length ≤ 64 ∧
          ∀ c ∈ topLevel, c ∈ topLevelCharacters) := by
  have hmatches : emailRegEx.matches' =
      (oneOrMore (charClass localCharacters)).matches' * ({['@']} : Language Char) *
        (oneOrMore (charClass domainCharacters)).matches' * ({['.']} : Language Char) *
        (between 2 64 (charClass topLevelCharacters)).matches' := rfl
  rw [emailIsValid, RegularExpression.rmatch_iff_matches', hmatches, mem_mul_char_mul]
  constructor
  · rintro ⟨front, hfront, topLevel, htop, heq⟩
    obtain ⟨localPart, hlocal, domain, hdomain, rfl⟩ := mem_mul_char_mul.mp hfront
    exact ⟨localPart, domain, topLevel, heq, mem_oneOrMore_charClass.mp hlocal,
      mem_oneOrMore_charClass.mp hdomain, (mem_between_charClass (by decide)).mp htop⟩
  · rintro ⟨localPart, domain, topLevel, heq, hlocal, hdomain, htop⟩
    refine ⟨localPart ++ '@' :: domain, ?_, topLevel,
      (mem_between_charClass (by decide)).mpr htop, heq⟩
    exact mem_mul_char_mul.mpr ⟨localPart, mem_oneOrMore_charClass.mpr hlocal, domain,
      mem_oneOrMore_charClass.mpr hdomain, rfl⟩

/-- The three parts of an address, checked by evaluation. -/
theorem emailIsValid_of_parts {email : String} (localPart domain topLevel : List Char)
    (heq : email.toList = localPart ++ '@' :: domain ++ '.' :: topLevel)
    (hparts : (localPart ≠ [] ∧ localPart.all (· ∈ localCharacters) = true) ∧
      (domain ≠ [] ∧ domain.all (· ∈ domainCharacters) = true) ∧
      (2 ≤ topLevel.length ∧ topLevel.length ≤ 64 ∧
        topLevel.all (· ∈ topLevelCharacters) = true)) :
    emailIsValid (some email) = true := by
  obtain ⟨⟨hlocal, hlocalAll⟩, ⟨hdomain, hdomainAll⟩, hmin, hmax, htopAll⟩ := hparts
  exact emailIsValid_iff.mpr ⟨localPart, domain, topLevel, heq,
    ⟨hlocal, List.all_iff_forall_prop.mp hlocalAll⟩,
    ⟨hdomain, List.all_iff_forall_prop.mp hdomainAll⟩,
    hmin, hmax, List.all_iff_forall_prop.mp htopAll⟩

/-! ## Accepted addresses -/

/-- An address the validator accepts. -/
structure ValidEmail where
  address : String
  isValid : emailIsValid (some address) = true

namespace ValidEmail

theorem at_mem (email : ValidEmail) : '@' ∈ email.address.toList := by
  obtain ⟨localPart, domain, topLevel, heq, -⟩ := emailIsValid_iff.mp email.isValid
  rw [heq, List.append_assoc]
  exact List.mem_append_right _ List.mem_cons_self

/-- An accepted address is made of the characters the expression lists. -/
theorem mem_characters (email : ValidEmail) :
    ∀ c ∈ email.address.toList, c ∈ '@' :: (localCharacters ++ domainCharacters) := by
  obtain ⟨localPart, domain, topLevel, heq, ⟨-, hlocal⟩, ⟨-, hdomain⟩, -, -, htop⟩ :=
    emailIsValid_iff.mp email.isValid
  have htopDomain : ∀ c ∈ topLevelCharacters, c ∈ domainCharacters := by
    intro c hc
    exact List.mem_append_left _ (List.mem_append_left _ hc)
  have hdot : '.' ∈ domainCharacters := by decide
  rw [heq]
  intro c hc
  rw [List.mem_cons, List.mem_append]
  rcases List.mem_append.mp hc with hfront | hback
  · rcases List.mem_append.mp hfront with hmem | hmem
    · exact .inr (.inl (hlocal c hmem))
    · rcases List.mem_cons.mp hmem with hat | hmem
      · exact .inl hat
      · exact .inr (.inr (hdomain c hmem))
  · rcases List.mem_cons.mp hback with rfl | hmem
    · exact .inr (.inr hdot)
    · exact .inr (.inr (htopDomain c (htop c hmem)))

end ValidEmail

end QFree
