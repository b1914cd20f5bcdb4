/-
  Foundation/Pattern.lean --- the regular expressions of text validators.

  A validator tests a text against a pattern of bracket expressions, literal
  characters and counted repetitions.  They are written here with the regular
  expressions of Mathlib, whose `rmatch` is the test of a whole text:

      [...]     charClass cs
      r+        oneOrMore r
      r{m,n}    between m n r

  The lemmas say what each of them matches when `r` is a bracket expression,
  which turns a pattern of such pieces into a statement about the characters of
  the text.
-/
import Mathlib.Computability.RegularExpressions

set_option autoImplicit false

namespace QFree.Foundation.Pattern

open RegularExpression Computability

variable {α : Type}

/-! ## Pieces of a pattern -/

/-- A bracket expression: one of the characters. -/
def charClass (cs : List α) : RegularExpression α := cs.foldr (fun c r => char c + r) 0

/-- `r+`. -/
def oneOrMore (r : RegularExpression α) : RegularExpression α := r * star r

/-- `r{m,n}`: from `m` to `n` times. -/
def between (m n : Nat) (r : RegularExpression α) : RegularExpression α :=
  r ^ m * (1 + r) ^ (n - m)

/-! ## What they match -/

theorem mem_charClass {cs x : List α} :
    x ∈ (charClass cs).matches' ↔ ∃ c ∈ cs, x = [c] := by
  induction cs with
  | nil =>
      simp [charClass]
  | cons c cs ih =>
      have hfold : (charClass (c :: cs)).matches' = {[c]} + (charClass cs).matches' := rfl
      rw [hfold, Language.mem_add, ih, List.exists_mem_cons_iff]
      exact Iff.rfl

theorem mem_charClass_mul {cs x : List α} {l : Language α} :
    x ∈ (charClass cs).matches' * l ↔ ∃ c ∈ cs, ∃ y ∈ l, x = c :: y := by
  rw [Language.mem_mul]
  constructor
  · rintro ⟨a, ha, y, hy, rfl⟩
    obtain ⟨c, hc, rfl⟩ := mem_charClass.mp ha
    exact ⟨c, hc, y, hy, rfl⟩
  · rintro ⟨c, hc, y, hy, rfl⟩
    exact ⟨[c], mem_charClass.mpr ⟨c, hc, rfl⟩, y, hy, rfl⟩

theorem mem_pow_charClass {cs : List α} {n : Nat} :
    ∀ {x : List α}, x ∈ (charClass cs).matches' ^ n ↔ x.length = n ∧ ∀ c ∈ x, c ∈ cs := by
  induction n with
  | zero =>
      intro x
      rw [pow_zero, Language.mem_one, List.length_eq_zero_iff]
      exact ⟨fun h => ⟨h, by simp [h]⟩, And.left⟩
  | succ n ih =>
      intro x
      rw [pow_succ', mem_charClass_mul]
      constructor
      · rintro ⟨c, hc, y, hy, rfl⟩
        obtain ⟨hlength, hall⟩ := ih.mp hy
        exact ⟨by rw [List.length_cons, hlength], List.forall_mem_cons.mpr ⟨hc, hall⟩⟩
      · rintro ⟨hlength, hall⟩
        obtain ⟨c, y, rfl⟩ := List.exists_cons_of_length_eq_add_one hlength
        obtain ⟨hc, hy⟩ := List.forall_mem_cons.mp hall
        exact ⟨c, hc, y, ih.mpr ⟨Nat.succ.inj hlength, hy⟩, rfl⟩

theorem mem_star_charClass {cs x : List α} :
    x ∈ (star (charClass cs)).matches' ↔ ∀ c ∈ x, c ∈ cs := by
  rw [matches'_star, Language.kstar_eq_iSup_pow, Language.mem_iSup]
  constructor
  · rintro ⟨n, hn⟩
    exact (mem_pow_charClass.mp hn).2
  · intro hall
    exact ⟨x.length, mem_pow_charClass.mpr ⟨rfl, hall⟩⟩

theorem mem_oneOrMore_charClass {cs x : List α} :
    x ∈ (oneOrMore (charClass cs)).matches' ↔ x ≠ [] ∧ ∀ c ∈ x, c ∈ cs := by
  rw [oneOrMore, matches'_mul, mem_charClass_mul]
  constructor
  · rintro ⟨c, hc, y, hy, rfl⟩
    exact ⟨List.cons_ne_nil _ _, List.forall_mem_cons.mpr ⟨hc, mem_star_charClass.mp hy⟩⟩
  · rintro ⟨hne, hall⟩
    obtain ⟨c, y, rfl⟩ := List.exists_cons_of_ne_nil hne
    obtain ⟨hc, hy⟩ := List.forall_mem_cons.mp hall
    exact ⟨c, hc, y, mem_star_charClass.mpr hy, rfl⟩

/-- Up to `n` times. -/
theorem mem_optional_pow_charClass {cs : List α} {n : Nat} :
    ∀ {x : List α}, x ∈ (1 + (charClass cs).matches') ^ n ↔
      x.length ≤ n ∧ ∀ c ∈ x, c ∈ cs := by
  induction n with
  | zero =>
      intro x
      rw [pow_zero, Language.mem_one, Nat.le_zero, List.length_eq_zero_iff]
      exact ⟨fun h => ⟨h, by simp [h]⟩, And.left⟩
  | succ n ih =>
      intro x
      rw [pow_succ', add_mul, one_mul, Language.mem_add, ih, mem_charClass_mul]
      constructor
      · rintro (⟨hlength, hall⟩ | ⟨c, hc, y, hy, rfl⟩)
        · exact ⟨Nat.le_succ_of_le hlength, hall⟩
        · obtain ⟨hlength, hall⟩ := ih.mp hy
          exact ⟨Nat.succ_le_succ hlength, List.forall_mem_cons.mpr ⟨hc, hall⟩⟩
      · rintro ⟨hlength, hall⟩
        cases x with
        | nil => exact .inl ⟨Nat.zero_le n, hall⟩
        | cons c y =>
            obtain ⟨hc, hy⟩ := List.forall_mem_cons.mp hall
            exact .inr ⟨c, hc, y, ih.mpr ⟨Nat.le_of_succ_le_succ hlength, hy⟩, rfl⟩

theorem mem_between_charClass {m n : Nat} (hmn : m ≤ n) {cs x : List α} :
    x ∈ (between m n (charClass cs)).matches' ↔
      m ≤ x.length ∧ x.length ≤ n ∧ ∀ c ∈ x, c ∈ cs := by
  have hmatches : (between m n (charClass cs)).matches' =
      (charClass cs).matches' ^ m * (1 + (charClass cs).matches') ^ (n - m) := by
    rw [between, matches'_mul, matches'_pow, matches'_pow]
    rfl
  rw [hmatches, Language.mem_mul]
  constructor
  · rintro ⟨a, ha, b, hb, rfl⟩
    obtain ⟨ha, haAll⟩ := mem_pow_charClass.mp ha
    obtain ⟨hb, hbAll⟩ := mem_optional_pow_charClass.mp hb
    rw [List.length_append]
    exact ⟨by omega, by omega, List.forall_mem_append.mpr ⟨haAll, hbAll⟩⟩
  · rintro ⟨hm, hn, hall⟩
    rw [← List.take_append_drop m x, List.forall_mem_append] at hall
    refine ⟨x.take m, mem_pow_charClass.mpr ⟨?_, hall.1⟩,
      x.drop m, mem_optional_pow_charClass.mpr ⟨?_, hall.2⟩, List.take_append_drop m x⟩
    · rw [List.length_take, Nat.min_eq_left hm]
    · rw [List.length_drop]
      omega

/-- A literal character between two pieces. -/
theorem mem_mul_char_mul {l r : Language α} {c : α} {x : List α} :
    x ∈ l * ({[c]} : Language α) * r ↔ ∃ a ∈ l, ∃ b ∈ r, x = a ++ c :: b := by
  rw [mul_assoc, Language.mem_mul]
  constructor
  · rintro ⟨a, ha, y, hy, rfl⟩
    obtain ⟨d, rfl, b, hb, rfl⟩ := Language.mem_mul.mp hy
    exact ⟨a, ha, b, hb, rfl⟩
  · rintro ⟨a, ha, b, hb, rfl⟩
    exact ⟨a, ha, c :: b, Language.mem_mul.mpr ⟨[c], rfl, b, hb, rfl⟩, rfl⟩

end QFree.Foundation.Pattern
