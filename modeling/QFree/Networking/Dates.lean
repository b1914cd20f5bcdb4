/-
  Networking/Dates.lean --- the dates of orders and their texts.

  `DateLibrary` stands for what is used of Foundation's dates: the text of a
  `Double`, its parser, calendar addition and a date format.  A date becomes a
  database key by exchanging the dots of its text, which a key may not contain,
  for underscores, and is read back by exchanging them again.

  `utcDates` is one such library: dates to a tenth of a second, in UTC.
-/
import QFree.Foundation.Number
import Mathlib.Order.Defs.Unbundled

set_option autoImplicit false

namespace QFree

open QFree.Foundation

/-- What the program uses of Foundation's dates. -/
structure DateLibrary (Date : Type) where
  /-- `String(date.timeIntervalSinceReferenceDate)` -/
  text : Date → String
  /-- the date of `Double(text)`, if the text denotes a number -/
  ofText : String → Option Date
  /-- `>` on the numbers of two dates -/
  later : Date → Date → Bool
  /-- `Calendar.current.date(byAdding: .minute, value: minutes, to: date)` -/
  addingMinutes : Nat → Date → Option Date
  /-- a `DateFormatter` with the given `dateFormat` -/
  format : String → Date → String

/-- `replacingOccurrences(of: old, with: new)` for single characters. -/
def replaceCharacter (old new : Char) (text : String) : String :=
  String.ofList (text.toList.map fun c => if c = old then new else c)

section Dates

variable {Date : Type} (dates : DateLibrary Date)

/-- `getTimestamp(date:)`, the text of a date as a database key. -/
def getTimestamp (date : Date) : String := replaceCharacter '.' '_' (dates.text date)

/-- The date a stored timestamp denotes. -/
def parseTimestamp (timestamp : String) : Option Date :=
  dates.ofText (replaceCharacter '_' '.' timestamp)

/-- `getFormattedDate(_:)`. -/
def getFormattedDate (timestamp : String) : Option String :=
  (parseTimestamp dates timestamp).map (dates.format "dd.MM.yyyy hh:mm")

end Dates

/-- Exchanging a character for one the text does not contain is undone by
exchanging them again. -/
theorem replaceCharacter_replaceCharacter {old new : Char} {text : String}
    (h : new ∉ text.toList) :
    replaceCharacter new old (replaceCharacter old new text) = text := by
  unfold replaceCharacter
  rw [String.toList_ofList, List.map_map]
  have hback : text.toList.map ((fun c => if c = new then old else c) ∘
      fun c => if c = old then new else c) = text.toList := by
    refine (List.map_congr_left fun c hc => ?_).trans (List.map_id _)
    have hne : c ≠ new := fun heq => h (heq ▸ hc)
    by_cases hold : c = old <;> simp [hold, hne]
  rw [hback, String.ofList_toList]

/-- A timestamp reads back as its date, if the text of the date does and has no
underscore. -/
theorem parseTimestamp_getTimestamp {Date : Type} {dates : DateLibrary Date} {date : Date}
    (htext : '_' ∉ (dates.text date).toList)
    (hread : dates.ofText (dates.text date) = some date) :
    parseTimestamp dates (getTimestamp dates date) = some date := by
  rw [parseTimestamp, getTimestamp, replaceCharacter_replaceCharacter htext, hread]

/-- The numbers of dates are ordered, and their texts read back as they are and have no
underscore. -/
structure DateLibrary.Lawful {Date : Type} (dates : DateLibrary Date) : Prop where
  order : IsStrictTotalOrder Date fun date other => dates.later date other = true
  no_underscore : ∀ date, '_' ∉ (dates.text date).toList
  ofText_text : ∀ date, dates.ofText (dates.text date) = some date

section Lawful

variable {Date : Type} {dates : DateLibrary Date}

theorem DateLibrary.Lawful.parse (h : dates.Lawful) (date : Date) :
    parseTimestamp dates (getTimestamp dates date) = some date :=
  parseTimestamp_getTimestamp (h.no_underscore date) (h.ofText_text date)

/-- Different readings of the clock are stored under different keys. -/
theorem DateLibrary.Lawful.getTimestamp_injective (h : dates.Lawful) :
    Function.Injective (getTimestamp dates) := by
  intro date other heq
  have hparse := h.parse date
  rw [heq, h.parse other, Option.some.injEq] at hparse
  exact hparse.symm

end Lawful

/-! ## Dates in UTC -/

/-- A number below a hundred with two digits. -/
def twoDigits (n : Nat) : String := (n / 10).repr ++ (n % 10).repr

/-- `dd.MM.yyyy hh:mm` of a number of minutes since the start of 2001, by the
civil calendar that begins its years in March. -/
def formatMinutes (minutes : Nat) : String :=
  let day := minutes / 1440 + 730791
  let era := day / 146097
  let dayOfEra := day % 146097
  let yearOfEra :=
    (dayOfEra + dayOfEra / 36524 - dayOfEra / 1460 - dayOfEra / 146096) / 365
  let dayOfYear := dayOfEra + yearOfEra / 100 - 365 * yearOfEra - yearOfEra / 4
  let shifted := (5 * dayOfYear + 2) / 153
  let month := if shifted < 10 then shifted + 3 else shifted - 9
  let year := yearOfEra + 400 * era + if month ≤ 2 then 1 else 0
  let hour := (minutes / 60 + 11) % 12 + 1
  twoDigits (dayOfYear - (153 * shifted + 2) / 5 + 1) ++ "." ++ twoDigits month ++ "." ++
    year.repr ++ " " ++ twoDigits hour ++ ":" ++ twoDigits (minutes % 60)

/-- Dates as tenths of a second since the start of 2001. -/
def utcDates : DateLibrary Nat where
  text date := (date / 10).repr ++ "." ++ (date % 10).repr
  ofText text := do
    let whole ← parseDigits (text.toList.takeWhile fun c => c ≠ '.')
    let tenths ← parseDigits ((text.toList.dropWhile fun c => c ≠ '.').drop 1)
    return 10 * whole + tenths
  later a b := decide (b < a)
  addingMinutes minutes date := some (date + 600 * minutes)
  format _ date := formatMinutes (date / 600)

theorem utcDates_lawful : utcDates.Lawful where
  order := {
    trichotomous := fun a b hab hba => by
      simp only [utcDates, decide_eq_true_eq] at hab hba
      omega
    irrefl := fun a => by simp [utcDates]
    trans := fun a b c hab hbc => by
      simp only [utcDates, decide_eq_true_eq] at hab hbc ⊢
      omega }
  no_underscore date := by
    have hdigits : ∀ n : Nat, '_' ∉ n.repr.toList := by
      intro n hmem
      rw [Nat.toList_repr] at hmem
      have hdigit := Nat.isDigit_of_mem_toDigits (by decide) (by decide) hmem
      cases hdigit
    simp only [utcDates, String.toList_append, List.mem_append]
    rintro ((hwhole | hdot) | htenths)
    · exact hdigits _ hwhole
    · exact absurd hdot (by decide)
    · exact hdigits _ htenths
  ofText_text date := by
    have hdigits : ∀ c ∈ (date / 10).repr.toList, c ≠ '.' := by
      rintro c hmem rfl
      rw [Nat.toList_repr] at hmem
      cases Nat.isDigit_of_mem_toDigits (by decide) (by decide) hmem
    have htext : ((date / 10).repr ++ "." ++ (date % 10).repr).toList =
        (date / 10).repr.toList ++ '.' :: (date % 10).repr.toList := by
      simp
    have hwhole : ((date / 10).repr.toList ++ '.' :: (date % 10).repr.toList).takeWhile
        (fun c => c ≠ '.') = (date / 10).repr.toList := by
      rw [List.takeWhile_append_of_pos fun c hc => decide_eq_true (hdigits c hc)]
      simp
    have htenths : ((date / 10).repr.toList ++ '.' :: (date % 10).repr.toList).dropWhile
        (fun c => c ≠ '.') = '.' :: (date % 10).repr.toList := by
      rw [List.dropWhile_append_of_pos fun c hc => decide_eq_true (hdigits c hc)]
      simp
    dsimp only [utcDates]
    rw [htext, hwhole, htenths, List.drop_one, List.tail_cons, Nat.toList_repr, Nat.toList_repr,
      parseDigits_toDigits, parseDigits_toDigits]
    exact congrArg some (by omega : 10 * (date / 10) + date % 10 = date)

example : getTimestamp utcDates 6294876005 = "629487600_5" ∧
    getFormattedDate utcDates "629487600_5" = some "12.12.2020 05:40" := by decide

end QFree
