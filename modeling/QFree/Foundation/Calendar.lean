/-
  Foundation/Calendar.lean --- the Gregorian calendar.

  Days and years are numbered by the integers: day 0 is 1 January of the year 1, and
  the year before it is the year 0.  A `CivilDate` is a day of a month of a year,
  with a proof that the month has such a day; `dayNumber` counts the days before it,
  and `ofDayNumber` finds the date of a day:

      dayNumber_ofDayNumber   the date of a day has the number of the day
      ofDayNumber_injective   different days have different dates

  The year is found through the cycles of 400, 100, 4 and 1 years, of which the last
  100 and the last 1 are a day longer; the month by `locate`.
-/
import Mathlib.Algebra.GroupWithZero.Nat
import Mathlib.Data.List.Basic

set_option autoImplicit false

namespace QFree.Foundation

/-! ## Blocks of given lengths -/

/-- The block a position falls into, when blocks of these lengths follow one another,
and the position in the block. -/
def locate : List Nat → Nat → Nat × Nat
  | [], n => (0, n)
  | length :: rest, n =>
      if n < length then (0, n)
      else ((locate rest (n - length)).1 + 1, (locate rest (n - length)).2)

theorem locate_spec {lengths : List Nat} :
    ∀ {n : Nat}, n < lengths.sum →
      (locate lengths n).1 < lengths.length ∧
      (locate lengths n).2 < lengths.getD (locate lengths n).1 0 ∧
      (lengths.take (locate lengths n).1).sum + (locate lengths n).2 = n := by
  induction lengths with
  | nil => exact fun h => absurd h (Nat.not_lt_zero _)
  | cons length rest ih =>
      intro n h
      rw [List.sum_cons] at h
      unfold locate
      by_cases hfirst : n < length
      · simp [hfirst]
      · obtain ⟨hblock, hinside, hsum⟩ := ih (show n - length < rest.sum by omega)
        simp only [hfirst, if_false, List.length_cons, List.getD_cons_succ, List.take_succ_cons,
          List.sum_cons]
        exact ⟨by omega, hinside, by omega⟩

/-! ## Years and months -/

/-- A year with 29 February. -/
def IsLeapYear (year : Int) : Prop := year % 4 = 0 ∧ (year % 100 ≠ 0 ∨ year % 400 = 0)

instance : DecidablePred IsLeapYear := fun year =>
  inferInstanceAs (Decidable (year % 4 = 0 ∧ (year % 100 ≠ 0 ∨ year % 400 = 0)))

/-- The lengths of the months. -/
def monthLengths (year : Int) : List Nat :=
  [31, if IsLeapYear year then 29 else 28, 31, 30, 31, 30, 31, 31, 30, 31, 30, 31]

/-- The number of days from 1 January of the year 1 to 1 January of the year. -/
def daysBeforeYear (year : Int) : Int :=
  365 * (year - 1) + (year - 1) / 4 - (year - 1) / 100 + (year - 1) / 400

theorem sum_monthLengths (year : Int) :
    ((monthLengths year).sum : Int) = if IsLeapYear year then 366 else 365 := by
  unfold monthLengths
  split <;> rfl

theorem daysBeforeYear_succ (year : Int) :
    daysBeforeYear (year + 1) = daysBeforeYear year + (monthLengths year).sum := by
  rw [sum_monthLengths]
  unfold daysBeforeYear
  by_cases hleap : IsLeapYear year
  · rw [if_pos hleap]
    unfold IsLeapYear at hleap
    omega
  · rw [if_neg hleap]
    unfold IsLeapYear at hleap
    omega

theorem daysBeforeYear_cycles {cycle century quad year : Int} (hcentury : 0 ≤ century ∧ century ≤ 3)
    (hquad : 0 ≤ quad ∧ quad ≤ 24) (hyear : 0 ≤ year ∧ year ≤ 3) :
    daysBeforeYear (400 * cycle + 100 * century + 4 * quad + year + 1) =
      146097 * cycle + 36524 * century + 1461 * quad + 365 * year := by
  unfold daysBeforeYear
  omega

theorem isLeapYear_cycles (cycle : Int) {century quad : Int} (hquad : 0 ≤ quad ∧ quad ≤ 24)
    (h : quad = 24 → century = 3) :
    IsLeapYear (400 * cycle + 100 * century + 4 * quad + 3 + 1) := by
  unfold IsLeapYear
  omega

/-- The year a day is in. -/
def yearOfDay (day : Int) : Int :=
  let cycle := day / 146097
  let inCycle := day % 146097
  let century := min (inCycle / 36524) 3
  let inCentury := inCycle - 36524 * century
  let quad := inCentury / 1461
  let inQuad := inCentury % 1461
  400 * cycle + 100 * century + 4 * quad + min (inQuad / 365) 3 + 1

theorem yearOfDay_spec (day : Int) :
    daysBeforeYear (yearOfDay day) ≤ day ∧ day < daysBeforeYear (yearOfDay day + 1) := by
  rw [daysBeforeYear_succ, sum_monthLengths]
  unfold yearOfDay
  extract_lets cycle inCycle century inCentury quad inQuad
  have hcycle : 0 ≤ inCycle ∧ inCycle < 146097 ∧ day = 146097 * cycle + inCycle := by
    simp only [inCycle, cycle]
    omega
  have hcentury : 0 ≤ century ∧ century ≤ 3 ∧ 0 ≤ inCentury ∧ inCentury < 36525 ∧
      (century < 3 → inCentury < 36524) := by
    simp only [inCentury, century]
    omega
  have hquad : 0 ≤ quad ∧ quad ≤ 24 ∧ 0 ≤ inQuad ∧ inQuad < 1461 ∧
      inCentury = 1461 * quad + inQuad := by
    simp only [inQuad, quad]
    omega
  rw [daysBeforeYear_cycles ⟨hcentury.1, hcentury.2.1⟩ ⟨hquad.1, hquad.2.1⟩ (by omega)]
  refine ⟨by omega, ?_⟩
  split
  · omega
  · rename_i hordinary
    by_cases hlast : 1095 ≤ inQuad
    · -- the fourth year of four is a leap year, but for the end of a century
      have hyear : min (inQuad / 365) 3 = 3 := by omega
      have hend : ¬(quad = 24 → century = 3) := by
        intro hcycle
        rw [hyear] at hordinary
        exact hordinary (isLeapYear_cycles cycle ⟨hquad.1, hquad.2.1⟩ hcycle)
      omega
    · omega

/-! ## Dates -/

/-- A day of a month of a year. -/
@[ext]
structure CivilDate where
  year : Int
  month : Nat
  day : Nat
  month_valid : 1 ≤ month ∧ month ≤ 12
  day_valid : 1 ≤ day ∧ day ≤ (monthLengths year).getD (month - 1) 0
  deriving DecidableEq, Repr

namespace CivilDate

/-- The number of days from 1 January of the year 1 to the date. -/
def dayNumber (date : CivilDate) : Int :=
  daysBeforeYear date.year +
    (((monthLengths date.year).take (date.month - 1)).sum + (date.day - 1) : Nat)

theorem day_le (date : CivilDate) : date.day ≤ 31 := by
  have hlength : ∀ length ∈ monthLengths date.year, length ≤ 31 := by
    unfold monthLengths
    split <;> decide
  refine Nat.le_trans date.day_valid.2 ?_
  rw [List.getD_eq_getElem?_getD]
  cases hmonth : (monthLengths date.year)[date.month - 1]? with
  | none => exact Nat.zero_le 31
  | some length => exact hlength length (List.mem_of_getElem? hmonth)

/-- The month and the day of the month, both from 0, of a day of its year. -/
def inYear (day : Int) : Nat × Nat :=
  locate (monthLengths (yearOfDay day)) (day - daysBeforeYear (yearOfDay day)).toNat

theorem inYear_spec (day : Int) :
    (inYear day).1 < 12 ∧
      (inYear day).2 < (monthLengths (yearOfDay day)).getD (inYear day).1 0 ∧
      daysBeforeYear (yearOfDay day) +
        (((monthLengths (yearOfDay day)).take (inYear day).1).sum + (inYear day).2 : Nat) =
          day := by
  obtain ⟨hfirst, hlast⟩ := yearOfDay_spec day
  rw [daysBeforeYear_succ] at hlast
  have hinside : (day - daysBeforeYear (yearOfDay day)).toNat <
      (monthLengths (yearOfDay day)).sum := by omega
  obtain ⟨hmonth, hday, hsum⟩ := locate_spec hinside
  refine ⟨hmonth, hday, ?_⟩
  rw [inYear, hsum]
  omega

/-- The date of a day. -/
def ofDayNumber (day : Int) : CivilDate where
  year := yearOfDay day
  month := (inYear day).1 + 1
  day := (inYear day).2 + 1
  month_valid := ⟨Nat.succ_pos _, (inYear_spec day).1⟩
  day_valid := ⟨Nat.succ_pos _, (inYear_spec day).2.1⟩

/-- The date of a day has the number of the day. -/
theorem dayNumber_ofDayNumber (day : Int) : (ofDayNumber day).dayNumber = day :=
  (inYear_spec day).2.2

theorem ofDayNumber_injective : Function.Injective ofDayNumber :=
  Function.LeftInverse.injective dayNumber_ofDayNumber

example : ofDayNumber 737770 = ⟨2020, 12, 12, by decide, by decide⟩ := by decide

end CivilDate

end QFree.Foundation
