/-
  Networking/DatabaseReference.lean --- paths and keys of the database client.

  The checks that `DatabaseReference.child` makes of its argument, the path it
  then builds, and the rule by which a snapshot turns a node into an array.  They
  are those of the vendored client (`FValidation`, `FPath`, `FUtilities`,
  `FChildrenNode`).  A call that raises has no result.
-/
import Mathlib.Algebra.Group.Nat.Defs
import QFree.Foundation.Trap

set_option autoImplicit false

namespace QFree.DatabaseReference

open QFree.Foundation

/-! ## Validation -/

/-- `kInvalidPathCharacters`. -/
def invalidPathCharacters : List Char := ['[', ']', '.', '#', '$']

/-- `kInvalidKeyCharacters`. -/
def invalidKeyCharacters : List Char := ['[', ']', '.', '#', '$', '/']

def isValidPathString (pathString : String) : Bool :=
  pathString.length ≠ 0 && pathString.toList.all fun c => c ∉ invalidPathCharacters

def isValidKey (key : String) : Bool :=
  key.length ≠ 0 && key.toList.all fun c => c ∉ invalidKeyCharacters

/-- What `$` matches before: the end, or one line terminator at the end. -/
def atLineEnd (rest : List Char) : Bool :=
  rest ∈ [[], ['\n'], ['\x0b'], ['\x0c'], ['\r'], ['\r', '\n'], ['\u0085'], ['\u2028'],
    ['\u2029']]

/-- The text with the match of `^\/*\.info(\/|$)` replaced by a slash. -/
def replaceDotInfo (pathString : String) : String :=
  match pathString.toList.dropWhile (· == '/') with
  | '.' :: 'i' :: 'n' :: 'f' :: 'o' :: rest =>
      match rest with
      | '/' :: rest => String.ofList ('/' :: rest)
      | rest => if atLineEnd rest then String.ofList ('/' :: rest) else pathString
  | _ => pathString

/-- `validRootPathString`. -/
def isValidRootPathString (pathString : String) : Bool :=
  isValidPathString (replaceDotInfo pathString)

/-! ## Paths -/

/-- The non-empty pieces between slashes. -/
def pieces (pathString : String) : List String :=
  ((pathString.toList.splitOn '/').filter fun piece => piece ≠ []).map String.ofList

def childFromString (path : List String) (childPath : String) : List String :=
  path ++ pieces childPath

/-- `child`, on the path of the reference. -/
def child (path : List String) (pathString : String) : Option (List String) :=
  let isValid :=
    if path.head? = none then isValidRootPathString pathString else isValidPathString pathString
  if isValid then some (childFromString path pathString) else none

theorem pieces_of_isValidKey {key : String} (hkey : isValidKey key = true) :
    pieces key = [key] := by
  rw [isValidKey, Bool.and_eq_true, decide_eq_true_eq, List.all_eq_true] at hkey
  obtain ⟨hlength, hall⟩ := hkey
  have hslash : '/' ∉ key.toList := by
    intro hmem
    exact of_decide_eq_true (hall '/' hmem) (by decide)
  have hne : key.toList ≠ [] := by
    intro hnil
    exact hlength (by rw [← String.length_toList, hnil, List.length_nil])
  rw [pieces, List.splitOn_eq_singleton hslash, List.filter_cons_of_pos (by simpa using hne),
    List.filter_nil, List.map_singleton, String.ofList_toList]

/-- Below the root a valid key names one direct child. -/
theorem child_of_isValidKey {path : List String} (hpath : path ≠ []) {key : String}
    (hkey : isValidKey key = true) : child path key = some (path ++ [key]) := by
  have hhead : path.head? ≠ none := by
    rwa [ne_eq, List.head?_eq_none_iff]
  have hvalid : isValidPathString key = true := by
    rw [isValidKey, Bool.and_eq_true, List.all_eq_true] at hkey
    rw [isValidPathString, Bool.and_eq_true, List.all_eq_true]
    refine ⟨hkey.1, fun c hc => ?_⟩
    have hout : c ∉ invalidKeyCharacters := of_decide_eq_true (hkey.2 c hc)
    exact decide_eq_true fun hmem => hout (List.mem_append_left ['/'] hmem)
  rw [child, if_neg hhead, if_pos hvalid, childFromString, pieces_of_isValidKey hkey]

/-! ## Arrays

A node without a value of its own is returned as an array when its keys look
like indices.  `decimalDigit` is the value of a character of the decimal digit
set of the platform. -/

section Arrays

variable (decimalDigit : Char → Option Nat)

/-- `NSInteger.max`. -/
def integerMax : Nat := 2 ^ 63 - 1

/-- `intForString`: the number written by the digits, cut off at the largest
integer; no number if some character is no digit, or there is none. -/
def intForString (string : String) : Option Nat :=
  match string.toList.mapM decimalDigit with
  | none => none
  | some [] => none
  | some digits => some (min (digits.foldl (fun value digit => value * 10 + digit) 0) integerMax)

/-- The variables of the loop of `valForExport`. -/
structure KeyScan where
  numKeys : Nat
  maxKey : Nat
  allIntegerKeys : Bool

/-- The body of the loop. -/
def scanKey (scan : KeyScan) (key : String) : KeyScan :=
  let scan := { scan with numKeys := scan.numKeys + 1 }
  if scan.allIntegerKeys = false then scan
  else if key.toList.head? = some '0' ∧ 1 < key.length then
    { scan with allIntegerKeys := false }
  else
    match intForString decimalDigit key with
    | some keyAsInt => if scan.maxKey < keyAsInt then { scan with maxKey := keyAsInt } else scan
    | none => { scan with allIntegerKeys := false }

/-- Whether a node with these keys is read as an array. -/
def isReadAsArray (keys : List String) : Bool :=
  let scan := keys.foldl (scanKey decimalDigit) ⟨0, 0, true⟩
  scan.allIntegerKeys && scan.maxKey < 2 * scan.numKeys

variable {decimalDigit}

theorem intForString_eq_none {string : String} {c : Char} (hc : c ∈ string.toList)
    (hdigit : decimalDigit c = none) : intForString decimalDigit string = none := by
  have hmapM : string.toList.mapM decimalDigit = none := by
    cases hall : string.toList.mapM decimalDigit with
    | none => rfl
    | some digits =>
        obtain ⟨digit, -, hsome⟩ := exists_of_mapM_of_mem hall hc
        rw [hdigit] at hsome
        cases hsome
  rw [intForString, hmapM]

/-- A key that is no index keeps the rest of the scan off. -/
theorem scanKey_of_none (scan : KeyScan) {key : String}
    (hkey : intForString decimalDigit key = none) :
    (scanKey decimalDigit scan key).allIntegerKeys = false := by
  rw [scanKey]
  split
  · assumption
  · split
    · rfl
    · rw [hkey]

theorem foldl_scanKey_of_false :
    ∀ (keys : List String) {scan : KeyScan}, scan.allIntegerKeys = false →
      (keys.foldl (scanKey decimalDigit) scan).allIntegerKeys = false := by
  intro keys
  induction keys with
  | nil =>
      intro scan h
      exact h
  | cons key keys ih =>
      intro scan h
      refine ih ?_
      rw [scanKey, if_pos h]
      exact h

/-- A node with a key that is no index is not read as an array. -/
theorem isReadAsArray_of_mem {keys : List String} {key : String} (hmem : key ∈ keys)
    (hkey : intForString decimalDigit key = none) : isReadAsArray decimalDigit keys = false := by
  obtain ⟨before, after, rfl⟩ := List.append_of_mem hmem
  have hscan : ((before ++ key :: after).foldl (scanKey decimalDigit)
      ⟨0, 0, true⟩).allIntegerKeys = false := by
    rw [List.foldl_append, List.foldl_cons]
    exact foldl_scanKey_of_false after (scanKey_of_none _ hkey)
  rw [isReadAsArray, hscan, Bool.false_and]

end Arrays

end QFree.DatabaseReference
