/-
  Networking/DisplayedDates.lean --- what a displayed date tells of its minute.

  `getFormattedDate` applies the pattern `dd.MM.yyyy hh:mm`: the hour is that of the
  clock with twelve hours, and the year is counted from 1 in either era.  On the
  calendar of `Foundation/Calendar.lean`, at a fixed offset from UTC, the text tells
  the day, the month, the year of the era and the minute of the half day
  (`formatMinute_eq_iff`).

  So two different minutes are shown alike when they are half a day apart on one day,
  or on one day of the two years with the same number, one in each era, and in no
  other case (`displayed_date_tells_minute_iff`).
-/
import QFree.Foundation.Calendar
import QFree.Networking.Dates

set_option autoImplicit false

namespace QFree

open QFree.Foundation

/-! ## The pattern -/

/-- The number of a year in its era. -/
def yearOfEra (year : Int) : Nat := if 0 < year then year.toNat else (1 - year).toNat

/-- The decimal text of a number, with at least four digits. -/
def fourDigits (n : Nat) : String :=
  String.ofList (List.replicate (4 - (Nat.toDigits 10 n).length) '0' ++ Nat.toDigits 10 n)

/-- `dd.MM.yyyy hh:mm` of these numbers. -/
def dateText (day month year hour minute : Nat) : String :=
  twoDigits day ++ "." ++ twoDigits month ++ "." ++ fourDigits year ++ " " ++ twoDigits hour ++
    ":" ++ twoDigits minute

/-- The text of a minute, numbered from the first of the year 1; `hh` is 12 for the first
hour of each half of the day. -/
def formatMinute (minute : Int) : String :=
  let date := CivilDate.ofDayNumber (minute / 1440)
  let minuteOfDay := (minute % 1440).toNat
  dateText date.day date.month (yearOfEra date.year) ((minuteOfDay / 60 + 11) % 12 + 1)
    (minuteOfDay % 60)

/-- The minute of a number of seconds since the start of 2001, at an offset from UTC. -/
def calendarMinute (offset seconds : Int) : Int :=
  1440 * daysBeforeYear 2001 + (seconds + offset) / 60

/-! ## Reading the text back -/

theorem toList_twoDigits {n : Nat} (h : n < 100) :
    (twoDigits n).toList = [Nat.digitChar (n / 10), Nat.digitChar (n % 10)] := by
  rw [twoDigits, String.toList_append, Nat.toList_repr, Nat.toList_repr,
    Nat.toDigits_of_lt_base (by omega), Nat.toDigits_of_lt_base (by omega)]
  rfl

theorem twoDigits_inj {n m : Nat} (hn : n < 100) (hm : m < 100)
    (h : (twoDigits n).toList = (twoDigits m).toList) : n = m := by
  rw [toList_twoDigits hn, toList_twoDigits hm] at h
  obtain ⟨htens, hrest⟩ := List.cons.inj h
  obtain ⟨hones, -⟩ := List.cons.inj hrest
  have htens' := congrArg Char.toNat htens
  have hones' := congrArg Char.toNat hones
  rw [Nat.toNat_digitChar_of_lt_ten (by omega), Nat.toNat_digitChar_of_lt_ten (by omega)]
    at htens' hones'
  omega

/-- Leading zeros do not count. -/
theorem ofDigitChars_replicate (k : Nat) (digits : List Char) :
    Nat.ofDigitChars 10 (List.replicate k '0' ++ digits) 0 = Nat.ofDigitChars 10 digits 0 := by
  induction k with
  | zero => rfl
  | succ k ih => exact ih

theorem fourDigits_inj {n m : Nat} (h : (fourDigits n).toList = (fourDigits m).toList) :
    n = m := by
  rw [fourDigits, fourDigits, String.toList_ofList, String.toList_ofList] at h
  have hread := congrArg (fun digits => Nat.ofDigitChars 10 digits 0) h
  simpa only [ofDigitChars_replicate, Nat.ofDigitChars_ten_toDigits] using hread

/-- All parts but the year have a fixed width, so they are found again from the two ends of
the text. -/
theorem dateText_inj {day month year hour minute day' month' year' hour' minute' : Nat}
    (hday : day < 100 ∧ day' < 100) (hmonth : month < 100 ∧ month' < 100)
    (hhour : hour < 100 ∧ hour' < 100) (hminute : minute < 100 ∧ minute' < 100)
    (h : dateText day month year hour minute = dateText day' month' year' hour' minute') :
    day = day' ∧ month = month' ∧ year = year' ∧ hour = hour' ∧ minute = minute' := by
  have hlength : ∀ {n m : Nat}, n < 100 ∧ m < 100 →
      (twoDigits n).toList.length = (twoDigits m).toList.length := by
    intro n m hnm
    rw [toList_twoDigits hnm.1, toList_twoDigits hnm.2]
    rfl
  have hchars := congrArg String.toList h
  simp only [dateText, String.toList_append, List.append_assoc] at hchars
  obtain ⟨hdays, hchars⟩ := List.append_inj hchars (hlength hday)
  obtain ⟨hmonths, hchars⟩ :=
    List.append_inj (List.append_cancel_left hchars) (hlength hmonth)
  obtain ⟨hyears, hchars⟩ := List.append_inj' (List.append_cancel_left hchars) (by
    simp only [List.length_append, hlength hhour, hlength hminute])
  obtain ⟨hhours, hchars⟩ := List.append_inj (List.append_cancel_left hchars) (hlength hhour)
  have hminutes := List.append_cancel_left hchars
  exact ⟨twoDigits_inj hday.1 hday.2 hdays, twoDigits_inj hmonth.1 hmonth.2 hmonths,
    fourDigits_inj hyears, twoDigits_inj hhour.1 hhour.2 hhours,
    twoDigits_inj hminute.1 hminute.2 hminutes⟩

theorem yearOfEra_eq_iff {year other : Int} :
    yearOfEra year = yearOfEra other ↔ year = other ∨ year + other = 1 := by
  unfold yearOfEra
  split <;> split <;> omega

/-- The text tells the day, the month, the year of the era and the minute of the half
day. -/
theorem formatMinute_eq_iff {minute other : Int} :
    formatMinute minute = formatMinute other ↔
      (CivilDate.ofDayNumber (minute / 1440)).day =
        (CivilDate.ofDayNumber (other / 1440)).day ∧
      (CivilDate.ofDayNumber (minute / 1440)).month =
        (CivilDate.ofDayNumber (other / 1440)).month ∧
      yearOfEra (CivilDate.ofDayNumber (minute / 1440)).year =
        yearOfEra (CivilDate.ofDayNumber (other / 1440)).year ∧
      minute % 720 = other % 720 := by
  unfold formatMinute
  dsimp only
  have hday : ∀ date : CivilDate, date.day < 100 := fun date => by
    have := date.day_le
    omega
  have hmonth : ∀ date : CivilDate, date.month < 100 := fun date => by
    have := date.month_valid
    omega
  constructor
  · intro h
    obtain ⟨hdays, hmonths, hyears, hhours, hminutes⟩ :=
      dateText_inj ⟨hday _, hday _⟩ ⟨hmonth _, hmonth _⟩ (by omega) (by omega) h
    exact ⟨hdays, hmonths, hyears, by omega⟩
  · rintro ⟨hdays, hmonths, hyears, hhalf⟩
    have hhours : ((minute % 1440).toNat / 60 + 11) % 12 + 1 =
        ((other % 1440).toNat / 60 + 11) % 12 + 1 := by omega
    have hminutes : (minute % 1440).toNat % 60 = (other % 1440).toNat % 60 := by omega
    rw [hdays, hmonths, hyears, hhours, hminutes]

/-! ## Minutes shown alike -/

/-- The two minutes are on one day, half a day apart. -/
def HalfDayApart (minute other : Int) : Prop :=
  minute / 1440 = other / 1440 ∧ (minute = other + 720 ∨ other = minute + 720)

/-- The two minutes are on one day of the two years with one number, before and after
the first year, at one time of the half day. -/
def AcrossEras (minute other : Int) : Prop :=
  (CivilDate.ofDayNumber (minute / 1440)).day = (CivilDate.ofDayNumber (other / 1440)).day ∧
  (CivilDate.ofDayNumber (minute / 1440)).month =
    (CivilDate.ofDayNumber (other / 1440)).month ∧
  (CivilDate.ofDayNumber (minute / 1440)).year +
    (CivilDate.ofDayNumber (other / 1440)).year = 1 ∧
  minute % 720 = other % 720

instance (minute other : Int) : Decidable (HalfDayApart minute other) :=
  inferInstanceAs (Decidable (minute / 1440 = other / 1440 ∧ _))

instance (minute other : Int) : Decidable (AcrossEras minute other) :=
  inferInstanceAs (Decidable (_ ∧ _ ∧ _ ∧ minute % 720 = other % 720))

/-- Two texts are equal for one minute, and for minutes half a day or an era apart. -/
theorem formatMinute_eq_iff_cases {minute other : Int} :
    formatMinute minute = formatMinute other ↔
      minute = other ∨ HalfDayApart minute other ∨ AcrossEras minute other := by
  rw [formatMinute_eq_iff, yearOfEra_eq_iff]
  constructor
  · rintro ⟨hdays, hmonths, hyears | hyears, hhalf⟩
    · have hday : minute / 1440 = other / 1440 :=
        CivilDate.ofDayNumber_injective (CivilDate.ext hyears hmonths hdays)
      by_cases hsame : minute = other
      · exact .inl hsame
      · exact .inr (.inl ⟨hday, by omega⟩)
    · exact .inr (.inr ⟨hdays, hmonths, hyears, hhalf⟩)
  · rintro (rfl | ⟨hday, hapart⟩ | ⟨hdays, hmonths, hyears, hhalf⟩)
    · exact ⟨rfl, rfl, .inl rfl, rfl⟩
    · rw [hday]
      exact ⟨rfl, rfl, .inl rfl, by omega⟩
    · exact ⟨hdays, hmonths, .inr hyears, hhalf⟩

/-- Two stored dates that are shown alike are in one minute exactly when they are not half
a day apart and not on one day of two eras. -/
theorem displayed_date_tells_minute_iff {Date : Type} {dates : DateLibrary Date}
    {seconds : Date → Int} {offset : Int}
    (hformat : ∀ date, dates.format "dd.MM.yyyy hh:mm" date =
      formatMinute (calendarMinute offset (seconds date)))
    {timestamp other : String} {date otherDate : Date}
    (hdate : parseTimestamp dates timestamp = some date)
    (hother : parseTimestamp dates other = some otherDate) :
    (getFormattedDate dates timestamp = getFormattedDate dates other →
        calendarMinute offset (seconds date) = calendarMinute offset (seconds otherDate)) ↔
      ¬HalfDayApart (calendarMinute offset (seconds date))
          (calendarMinute offset (seconds otherDate)) ∧
        ¬AcrossEras (calendarMinute offset (seconds date))
          (calendarMinute offset (seconds otherDate)) := by
  have htext : getFormattedDate dates timestamp = getFormattedDate dates other ↔
      formatMinute (calendarMinute offset (seconds date)) =
        formatMinute (calendarMinute offset (seconds otherDate)) := by
    simp only [getFormattedDate, hdate, hother, Option.map_some, Option.some.injEq, hformat]
  rw [htext, formatMinute_eq_iff_cases]
  generalize calendarMinute offset (seconds date) = minute
  generalize calendarMinute offset (seconds otherDate) = otherMinute
  constructor
  · intro htells
    refine ⟨fun happart => ?_, fun heras => ?_⟩
    · have hsame := htells (.inr (.inl happart))
      have hapart := happart.2
      omega
    · -- no year is its own mirror image
      have hsame := htells (.inr (.inr heras))
      have hyears := heras.2.2.1
      rw [hsame] at hyears
      omega
  · rintro ⟨hhalf, heras⟩ (hsame | happart | hacross)
    · exact hsame
    · exact absurd happart hhalf
    · exact absurd hacross heras

/-- Dates to a tenth of a second in UTC, shown by the calendar. -/
def calendarDates : DateLibrary Nat :=
  { utcDates with format := fun _ date => formatMinute (calendarMinute 0 (date / 10 : Nat)) }

/-- Two dates of one minute are shown alike. -/
theorem displayed_date_tells_minute_iff_sample :
    getFormattedDate calendarDates "629487600_5" =
        getFormattedDate calendarDates "629487610_0" ∧
      calendarMinute 0 629487600 = calendarMinute 0 629487610 := by
  have hformat : ∀ date : Nat, calendarDates.format "dd.MM.yyyy hh:mm" date =
      formatMinute (calendarMinute 0 ((date / 10 : Nat) : Int)) := fun _ => rfl
  have hdate : parseTimestamp calendarDates "629487600_5" = some 6294876005 := by decide
  have hother : parseTimestamp calendarDates "629487610_0" = some 6294876100 := by decide
  have htext : getFormattedDate calendarDates "629487600_5" =
      getFormattedDate calendarDates "629487610_0" := by decide
  exact ⟨htext, (displayed_date_tells_minute_iff hformat hdate hother).mpr (by decide) htext⟩

/-- The first and the second half of 12 December 2020. -/
theorem half_days_shown_alike :
    getFormattedDate calendarDates "629444400_0" = some "12.12.2020 05:40" ∧
      getFormattedDate calendarDates "629487600_0" = some "12.12.2020 05:40" ∧
      calendarMinute 0 629444400 ≠ calendarMinute 0 629487600 := by decide

end QFree
