/-
  Foundation/Dictionary.lean --- finite dictionaries and their iteration orders.

  A dictionary is Mathlib's `Finmap`: two dictionaries are equal exactly when
  they look up the same.  A program that loops over a dictionary meets its
  entries in an order the language does not fix, so a loop is modelled on a
  list that `Enumerates` the dictionary, and a theorem about the loop holds for
  every such list.

      Enumerates.mem_iff        the list has exactly the dictionary's entries
      Enumerates.nodup_keys     each key once
      Enumerates.of_perm        every permutation of an order is an order
      Enumerates.ofEntries_eq   inserting the entries rebuilds the dictionary
      of_update_eq_some         what a numbered table holds after an update
-/
import Mathlib.Data.Finmap

set_option autoImplicit false

namespace QFree.Foundation

/-- A finite dictionary, compared by what it looks up. -/
abbrev Dictionary (κ ν : Type) : Type := Finmap fun _ : κ => ν

namespace Dictionary

variable {κ ν : Type}

/-- The list meets every entry of the dictionary once, in some order. -/
def Enumerates (dictionary : Dictionary κ ν) (entries : List (κ × ν)) : Prop :=
  dictionary.entries = ↑(entries.map Prod.toSigma)

instance [DecidableEq κ] [DecidableEq ν] (dictionary : Dictionary κ ν)
    (entries : List (κ × ν)) : Decidable (Enumerates dictionary entries) :=
  inferInstanceAs (Decidable (_ = _))

theorem exists_enumerates (dictionary : Dictionary κ ν) :
    ∃ entries, Enumerates dictionary entries := by
  induction dictionary using Finmap.induction_on with
  | _ list =>
      refine ⟨list.entries.map fun entry => (entry.1, entry.2), ?_⟩
      simp [Enumerates, Prod.toSigma_mk, Function.comp_def]

namespace Enumerates

variable {dictionary other : Dictionary κ ν} {entries entries' : List (κ × ν)}

theorem nodup_keys (h : Enumerates dictionary entries) : (entries.map Prod.fst).Nodup := by
  have hnodup := dictionary.nodupKeys
  rw [h, Multiset.coe_nodupKeys] at hnodup
  simpa [List.NodupKeys, List.keys, Function.comp_def] using hnodup

theorem mem_iff [DecidableEq κ] (h : Enumerates dictionary entries) {key : κ} {value : ν} :
    (key, value) ∈ entries ↔ dictionary.lookup key = some value := by
  rw [Finmap.lookup_eq_some_iff, h, Multiset.mem_coe, List.mem_map]
  constructor
  · intro hmem
    exact ⟨(key, value), hmem, rfl⟩
  · rintro ⟨⟨otherKey, otherValue⟩, hmem, heq⟩
    simp only [Prod.toSigma_mk, Sigma.mk.injEq, heq_eq_eq] at heq
    rw [← heq.1, ← heq.2]
    exact hmem

theorem mem_keys_iff (h : Enumerates dictionary entries) {key : κ} :
    key ∈ entries.map Prod.fst ↔ key ∈ dictionary := by
  rw [Finmap.mem_def, h, Multiset.coe_keys, Multiset.mem_coe]
  simp [List.keys, Function.comp_def]

/-- The key of an entry that is met is in the dictionary. -/
theorem key_mem (h : Enumerates dictionary entries) {entry : κ × ν} (hentry : entry ∈ entries) :
    entry.1 ∈ dictionary := h.mem_keys_iff.mp (List.mem_map_of_mem hentry)

/-- A permutation of an iteration order is one too. -/
theorem of_perm (h : Enumerates dictionary entries) (hperm : entries.Perm entries') :
    Enumerates dictionary entries' :=
  h.trans (Multiset.coe_eq_coe.mpr (hperm.map Prod.toSigma))

/-- A list is the iteration order of at most one dictionary. -/
theorem unique (h : Enumerates dictionary entries) (h' : Enumerates other entries) :
    dictionary = other :=
  Finmap.ext (h.trans h'.symm)

@[simp] theorem empty_iff : Enumerates (∅ : Dictionary κ ν) entries ↔ entries = [] := by
  constructor
  · intro h
    have hzero : (0 : Multiset ((_ : κ) × ν)) = ↑(entries.map Prod.toSigma) := h
    simpa using hzero.symm
  · rintro rfl
    rfl

theorem eq_empty_iff (h : Enumerates dictionary entries) : dictionary = ∅ ↔ entries = [] := by
  constructor
  · rintro rfl
    exact empty_iff.mp h
  · rintro rfl
    exact h.unique (empty_iff.mpr rfl)

/-- Inserting under a new key puts one entry in front of an iteration order. -/
theorem insert [DecidableEq κ] (h : Enumerates dictionary entries) {key : κ} (value : ν)
    (hkey : key ∉ dictionary) :
    Enumerates (dictionary.insert key value) ((key, value) :: entries) := by
  unfold Enumerates
  rw [Finmap.entries_insert_of_notMem hkey, h]
  rfl

end Enumerates

/-- The list holds the keys of the dictionary, each once, in some order. -/
def ListsKeys (dictionary : Dictionary κ ν) (keys : List κ) : Prop :=
  dictionary.keys.val = ↑keys

instance [DecidableEq κ] (dictionary : Dictionary κ ν) (keys : List κ) :
    Decidable (ListsKeys dictionary keys) :=
  inferInstanceAs (Decidable (_ = _))

theorem ListsKeys.mem_iff {dictionary : Dictionary κ ν} {keys : List κ}
    (h : ListsKeys dictionary keys) {key : κ} : key ∈ keys ↔ key ∈ dictionary := by
  rw [← Finmap.mem_keys, ← Finset.mem_val, h, Multiset.mem_coe]

theorem listsKeys_iff {dictionary : Dictionary κ ν} {keys : List κ} :
    ListsKeys dictionary keys ↔ keys.Nodup ∧ ∀ key, key ∈ keys ↔ key ∈ dictionary := by
  constructor
  · intro h
    have hnodup := dictionary.keys.nodup
    rw [h, Multiset.coe_nodup] at hnodup
    exact ⟨hnodup, fun _ => h.mem_iff⟩
  · rintro ⟨hnodup, hmem⟩
    refine (Multiset.Nodup.ext dictionary.keys.nodup (Multiset.coe_nodup.mpr hnodup)).mpr ?_
    intro key
    rw [Multiset.mem_coe, hmem key, Finset.mem_val, Finmap.mem_keys]

/-- The keys of an iteration order. -/
theorem Enumerates.listsKeys {dictionary : Dictionary κ ν} {entries : List (κ × ν)}
    (h : Enumerates dictionary entries) : ListsKeys dictionary (entries.map Prod.fst) :=
  listsKeys_iff.mpr ⟨h.nodup_keys, fun _ => h.mem_keys_iff⟩

@[simp] theorem listsKeys_empty_iff {keys : List κ} :
    ListsKeys (∅ : Dictionary κ ν) keys ↔ keys = [] := by
  rw [listsKeys_iff, List.eq_nil_iff_forall_not_mem]
  constructor
  · rintro ⟨-, hmem⟩ key hkey
    exact Finmap.notMem_empty ((hmem key).mp hkey)
  · intro hnone
    obtain rfl := List.eq_nil_iff_forall_not_mem.mpr hnone
    exact ⟨List.nodup_nil, fun key => iff_of_false (hnone key) Finmap.notMem_empty⟩

variable [DecidableEq κ]

/-- What holds of every entry holds after an insertion of which it holds. -/
theorem forall_lookup_insert {P : κ → ν → Prop} {dictionary : Dictionary κ ν} {key : κ}
    {value : ν} (h : ∀ other v, dictionary.lookup other = some v → P other v)
    (hvalue : P key value) :
    ∀ other v, (dictionary.insert key value).lookup other = some v → P other v := by
  intro other v hlookup
  by_cases heq : other = key
  · rw [heq, Finmap.lookup_insert, Option.some.injEq] at hlookup
    rw [heq, ← hlookup]
    exact hvalue
  · rw [Finmap.lookup_insert_of_ne _ heq] at hlookup
    exact h other v hlookup

/-- The dictionary a loop builds that assigns the entries one after another. -/
def ofEntries (entries : List (κ × ν)) : Dictionary κ ν :=
  entries.foldl (fun dictionary entry => dictionary.insert entry.1 entry.2) ∅

/-- Assigning an optional value to a key: a missing value removes the key. -/
def assign (dictionary : Dictionary κ ν) (key : κ) : Option ν → Dictionary κ ν
  | some value => dictionary.insert key value
  | none => dictionary.erase key

theorem enumerates_foldl_insert (front rest : List (κ × ν)) {dictionary : Dictionary κ ν}
    (h : Enumerates dictionary front) (hnodup : ((rest.reverse ++ front).map Prod.fst).Nodup) :
    Enumerates (rest.foldl (fun d entry => d.insert entry.1 entry.2) dictionary)
      (rest.reverse ++ front) := by
  induction rest generalizing front dictionary with
  | nil => simpa using h
  | cons entry rest ih =>
      rw [List.reverse_cons, List.append_assoc] at hnodup ⊢
      have hfresh : entry.1 ∉ dictionary := by
        rw [← h.mem_keys_iff]
        have htail : (([entry] ++ front).map Prod.fst).Nodup := by
          rw [List.map_append] at hnodup
          exact (List.nodup_append.mp hnodup).2.1
        exact (List.nodup_cons.mp htail).1
      exact ih (entry :: front) (h.insert entry.2 hfresh) hnodup

/-- A list without repeated keys enumerates the dictionary built from it. -/
theorem enumerates_ofEntries {entries : List (κ × ν)}
    (hnodup : (entries.map Prod.fst).Nodup) : Enumerates (ofEntries entries) entries := by
  have hreverse : ((entries.reverse ++ []).map Prod.fst).Nodup := by
    simpa using hnodup
  have h := enumerates_foldl_insert [] entries (Enumerates.empty_iff.mpr rfl) hreverse
  rw [List.append_nil] at h
  exact h.of_perm entries.reverse_perm

theorem Enumerates.ofEntries_eq {dictionary : Dictionary κ ν} {entries : List (κ × ν)}
    (h : Enumerates dictionary entries) : ofEntries entries = dictionary :=
  (enumerates_ofEntries h.nodup_keys).unique h

end Dictionary

/-! ## Tables

A table of objects named by numbers is a function to `Option`; `Function.update`
enters or removes one. -/

/-- What is found after an update is the new value or was there before. -/
theorem of_update_eq_some {ι α : Type} [DecidableEq ι] {table : ι → Option α} {id other : ι}
    {new : Option α} {value : α} (h : Function.update table id new other = some value) :
    (other = id ∧ new = some value) ∨ table other = some value := by
  by_cases heq : other = id
  · subst heq
    rw [Function.update_self] at h
    exact Or.inl ⟨rfl, h⟩
  · rw [Function.update_of_ne heq] at h
    exact Or.inr h

end QFree.Foundation
