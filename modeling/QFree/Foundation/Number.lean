/-
  Foundation/Number.lean --- 64-bit integers: decimal text and trapping
  arithmetic.

  Three properties of a 64-bit signed integer type are used by its clients:

      parseInt_text        the decimal text of an integer reads back as it
      sumTrapping_eq       a sum of nonnegative terms, added up one by one in
                           arithmetic that traps on overflow, traps exactly
                           when the mathematical sum is out of range

  The text is the one `Int.repr` prints: an optional minus sign and the decimal
  digits.  The reader accepts what a decimal integer initializer accepts, an
  optional sign and at least one ASCII digit, and refuses numbers out of range.
-/
import Mathlib.Algebra.Order.BigOperators.Group.List
import Mathlib.Algebra.Order.Ring.Int

set_option autoImplicit false

namespace QFree.Foundation

/-! ## Range -/

/-- The 64-bit integer with this value, if there is one. -/
def exactly (n : Int) : Option Int64 :=
  if -2 ^ 63 ≤ n ∧ n < 2 ^ 63 then some (Int64.ofInt n) else none

@[simp] theorem exactly_toInt (x : Int64) : exactly x.toInt = some x := by
  rw [exactly, if_pos ⟨x.le_toInt, x.toInt_lt⟩, Int64.ofInt_toInt]

theorem exactly_eq_some {n : Int} {x : Int64} : exactly n = some x ↔ x.toInt = n := by
  constructor
  · intro h
    unfold exactly at h
    split at h
    · rename_i hrange
      rw [← Option.some.inj h, Int64.toInt_ofInt_of_le hrange.1 hrange.2]
    · cases h
  · rintro rfl
    exact exactly_toInt x

theorem exactly_eq_none {n : Int} : exactly n = none ↔ n < -2 ^ 63 ∨ 2 ^ 63 ≤ n := by
  unfold exactly
  split <;> simp <;> omega

/-! ## Trapping arithmetic -/

/-- `x + y`, which traps on overflow. -/
def addTrapping (x y : Int64) : Option Int64 := exactly (x.toInt + y.toInt)

/-- `x - y`, which traps on overflow. -/
def subTrapping (x y : Int64) : Option Int64 := exactly (x.toInt - y.toInt)

/-- `x * y`, which traps on overflow. -/
def mulTrapping (x y : Int64) : Option Int64 := exactly (x.toInt * y.toInt)

/-- `start + x₁ * y₁ + x₂ * y₂ + …`, in the order of the list. -/
def sumTrapping (start : Int64) : List (Int64 × Int64) → Option Int64
  | [] => some start
  | (x, y) :: rest => do
      let product ← mulTrapping x y
      let next ← addTrapping start product
      sumTrapping next rest

/-- The mathematical value of the sum of products. -/
def sumOfProducts (terms : List (Int64 × Int64)) : Int :=
  (terms.map fun term => term.1.toInt * term.2.toInt).sum

theorem sumOfProducts_nonneg {terms : List (Int64 × Int64)}
    (h : ∀ term ∈ terms, 0 ≤ term.1.toInt ∧ 0 ≤ term.2.toInt) : 0 ≤ sumOfProducts terms := by
  apply List.sum_nonneg
  intro value hvalue
  obtain ⟨term, hterm, rfl⟩ := List.mem_map.mp hvalue
  exact mul_nonneg (h term hterm).1 (h term hterm).2

/-- On nonnegative terms no partial result exceeds the whole sum, so the loop
traps exactly when the whole sum is out of range, whatever the order. -/
theorem sumTrapping_eq {terms : List (Int64 × Int64)} :
    ∀ {start : Int64}, 0 ≤ start.toInt →
      (∀ term ∈ terms, 0 ≤ term.1.toInt ∧ 0 ≤ term.2.toInt) →
      sumTrapping start terms = exactly (start.toInt + sumOfProducts terms) := by
  induction terms with
  | nil =>
      intro start _ _
      simp [sumTrapping, sumOfProducts]
  | cons term rest ih =>
      intro start hstart h
      obtain ⟨x, y⟩ := term
      have hterm := h (x, y) List.mem_cons_self
      have hrest : ∀ term ∈ rest, 0 ≤ term.1.toInt ∧ 0 ≤ term.2.toInt :=
        fun term hmem => h term (List.mem_cons_of_mem _ hmem)
      have hproduct : 0 ≤ x.toInt * y.toInt := mul_nonneg hterm.1 hterm.2
      have htail : 0 ≤ sumOfProducts rest := sumOfProducts_nonneg hrest
      have hsum : sumOfProducts ((x, y) :: rest) = x.toInt * y.toInt + sumOfProducts rest := by
        simp [sumOfProducts]
      rw [hsum, sumTrapping, mulTrapping]
      cases hmul : exactly (x.toInt * y.toInt) with
      | none =>
          rw [exactly_eq_none] at hmul
          symm
          simp only [Option.bind_eq_bind, Option.bind_none, exactly_eq_none]
          omega
      | some product =>
          rw [exactly_eq_some] at hmul
          simp only [Option.bind_eq_bind, Option.bind_some, addTrapping]
          cases hadd : exactly (start.toInt + product.toInt) with
          | none =>
              rw [exactly_eq_none] at hadd
              symm
              simp only [Option.bind_none, exactly_eq_none]
              omega
          | some next =>
              rw [exactly_eq_some] at hadd
              rw [Option.bind_some, ih (by omega) hrest, hadd, hmul, add_assoc]

/-- A sum that was reached is exact, whatever the signs. -/
theorem toInt_of_sumTrapping {terms : List (Int64 × Int64)} :
    ∀ {start total : Int64}, sumTrapping start terms = some total →
      total.toInt = start.toInt + sumOfProducts terms := by
  induction terms with
  | nil =>
      intro start total h
      obtain rfl := Option.some.inj h
      simp [sumOfProducts]
  | cons term rest ih =>
      intro start total h
      obtain ⟨product, hproduct, hadd⟩ := Option.bind_eq_some_iff.mp h
      obtain ⟨next, hnext, hrest⟩ := Option.bind_eq_some_iff.mp hadd
      have hsum : sumOfProducts (term :: rest) =
          term.1.toInt * term.2.toInt + sumOfProducts rest := by
        simp [sumOfProducts]
      rw [ih hrest, exactly_eq_some.mp hnext, exactly_eq_some.mp hproduct, hsum, add_assoc]

/-! ## Decimal text -/

/-- The number written by a nonempty list of ASCII digits. -/
def parseDigits (digits : List Char) : Option Nat :=
  if digits ≠ [] ∧ digits.all Char.isDigit then some (Nat.ofDigitChars 10 digits 0) else none

/-- The integer written by an optional sign and decimal digits. -/
def parseDecimal (text : String) : Option Int :=
  match text.toList with
  | '-' :: digits => (parseDigits digits).map fun n => -(n : Int)
  | '+' :: digits => (parseDigits digits).map fun n => (n : Int)
  | digits => (parseDigits digits).map fun n => (n : Int)

/-- The 64-bit integer a decimal text denotes, if it is one. -/
def parseInt (text : String) : Option Int64 :=
  (parseDecimal text).bind exactly

/-- The decimal text of a 64-bit integer. -/
def intText (x : Int64) : String := x.toInt.repr

theorem parseDigits_toDigits (n : Nat) : parseDigits (Nat.toDigits 10 n) = some n := by
  have hdigits : (Nat.toDigits 10 n).all Char.isDigit := by
    rw [List.all_eq_true]
    intro c hc
    exact Nat.isDigit_of_mem_toDigits (by decide) (by decide) hc
  rw [parseDigits, if_pos ⟨Nat.toDigits_ne_nil, hdigits⟩, Nat.ofDigitChars_ten_toDigits]

/-- A text that starts with a digit is read without a sign. -/
theorem parseDecimal_repr_nat (n : Nat) : parseDecimal n.repr = some (n : Int) := by
  have hparse := parseDigits_toDigits n
  unfold parseDecimal
  rw [Nat.toList_repr]
  split
  · rename_i digits heq
    rw [heq] at hparse
    simp [parseDigits] at hparse
  · rename_i digits heq
    rw [heq] at hparse
    simp [parseDigits] at hparse
  · rw [hparse]
    rfl

theorem parseDecimal_repr (n : Int) : parseDecimal n.repr = some n := by
  cases n with
  | ofNat n => exact parseDecimal_repr_nat n
  | negSucc n =>
      have htext : (Int.negSucc n).repr.toList = '-' :: Nat.toDigits 10 (n + 1) := by
        simp [Int.repr]
      rw [parseDecimal, htext]
      simp only [parseDigits_toDigits]
      rfl

@[simp] theorem parseInt_text (x : Int64) : parseInt (intText x) = some x := by
  rw [parseInt, intText, parseDecimal_repr, Option.bind_some, exactly_toInt]

theorem parseInt_repr_nat {n : Nat} (h : n < 2 ^ 63) :
    ∃ x : Int64, parseInt n.repr = some x ∧ x.toInt = n := by
  have hrange : exactly (n : Int) = some (Int64.ofInt n) := if_pos ⟨by omega, by omega⟩
  refine ⟨Int64.ofInt n, ?_, exactly_eq_some.mp hrange⟩
  rw [parseInt, parseDecimal_repr_nat, Option.bind_some, hrange]

/-- A natural number that is read from its text is read as itself. -/
theorem toInt_of_parseInt_repr {n : Nat} {x : Int64} (h : parseInt n.repr = some x) :
    x.toInt = n := by
  rw [parseInt, parseDecimal_repr_nat, Option.bind_some] at h
  exact exactly_eq_some.mp h

example : parseInt "-12" = some (-12) ∧ parseInt "" = none ∧ parseInt "1 " = none ∧
    parseInt "9223372036854775808" = none := by decide

end QFree.Foundation
