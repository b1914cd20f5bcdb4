/-
  Foundation/Json.lean --- a hierarchical JSON store.

  The store is one JSON tree, addressed by paths of keys.  `child` reads one
  level, `setChild` replaces one level, `get` and `set` follow a path.  Absent
  and `null` are the same: reading a missing key gives `null`, and writing
  `null` removes the key, together with every ancestor left without children.

  What clients use:

      get_set_append      a read at or below a written path sees the new value
      get_set_of_ne       a read that leaves the written path sees the old one
      get_set_below       a read above a written path sees the old subtree with
                          the write applied to it
      flatMap_fields_setChild
                          what is collected from all children, after a write
      pruned              the form in which a value is read back: empty arrays
                          and objects are absent, and a list with gaps ends at its
                          last element or is no array any more

  Objects keep their fields as a list.  A key that occurs twice is looked up at
  its first occurrence; `setChild` never adds a second one.
-/
import QFree.Foundation.Trap
import Mathlib.Data.List.DropRight
import Mathlib.Data.List.Nodup

set_option autoImplicit false

namespace QFree.Foundation

/-- A JSON value. -/
inductive Json where
  | null
  | bool (value : Bool)
  | number (value : Int)
  | string (value : String)
  | array (elements : List Json)
  | object (fields : List (String × Json))
  deriving Inhabited

namespace Json

/-- The value is absent. -/
def isNull : Json → Bool
  | .null => true
  | _ => false

/-! ## Fields -/

/-- The first value under the key, `null` if there is none. -/
def lookupField (key : String) : List (String × Json) → Json
  | [] => .null
  | (k, v) :: rest => if k = key then v else lookupField key rest

/-- Replace the first value under the key, or add the field at the end. -/
def updateField (key : String) (value : Json) : List (String × Json) → List (String × Json)
  | [] => [(key, value)]
  | (k, v) :: rest =>
      if k = key then (key, value) :: rest else (k, v) :: updateField key value rest

/-- Remove every value under the key. -/
def removeField (key : String) (fields : List (String × Json)) : List (String × Json) :=
  fields.filter fun field => field.1 ≠ key

theorem lookupField_of_mem {fields : List (String × Json)}
    (hnodup : (fields.map Prod.fst).Nodup) {key : String} {value : Json}
    (hmem : (key, value) ∈ fields) : lookupField key fields = value := by
  induction fields with
  | nil => cases hmem
  | cons field rest ih =>
      rw [List.map_cons, List.nodup_cons] at hnodup
      rcases List.mem_cons.mp hmem with rfl | hrest
      · exact if_pos rfl
      · have hne : field.1 ≠ key := fun heq => hnodup.1 (heq ▸ List.mem_map_of_mem hrest)
        exact (if_neg hne).trans (ih hnodup.2 hrest)

theorem lookupField_updateField_same (key : String) (value : Json)
    (fields : List (String × Json)) :
    lookupField key (updateField key value fields) = value := by
  induction fields with
  | nil => simp [updateField, lookupField]
  | cons field rest ih =>
      unfold updateField
      split <;> simp_all [lookupField]

theorem lookupField_updateField_of_ne {key other : String} (h : other ≠ key) (value : Json)
    (fields : List (String × Json)) :
    lookupField other (updateField key value fields) = lookupField other fields := by
  induction fields with
  | nil => simp [updateField, lookupField, h.symm]
  | cons field rest ih =>
      obtain ⟨k, v⟩ := field
      unfold updateField
      split
      · rename_i hk
        simp [lookupField, hk, h.symm]
      · simp only [lookupField, ih]

theorem lookupField_removeField_same (key : String) (fields : List (String × Json)) :
    lookupField key (removeField key fields) = .null := by
  induction fields with
  | nil => rfl
  | cons field rest ih =>
      unfold removeField at ih ⊢
      by_cases hk : field.1 = key
      · simpa [hk] using ih
      · simpa [hk, lookupField] using ih

theorem lookupField_removeField_of_ne {key other : String} (h : other ≠ key)
    (fields : List (String × Json)) :
    lookupField other (removeField key fields) = lookupField other fields := by
  induction fields with
  | nil => rfl
  | cons field rest ih =>
      unfold removeField at ih ⊢
      by_cases hk : field.1 = key
      · simpa [hk, lookupField, h.symm] using ih
      · simp only [ne_eq, hk, not_false_eq_true, decide_true, List.filter_cons_of_pos, lookupField]
        rw [ih]

/-! ## One level -/

/-- The children of a value: the fields of an object, the elements of an array
under their positions, none of a scalar. -/
def fields : Json → List (String × Json)
  | .object fields => fields
  | .array elements => elements.zipIdx.map fun element => (element.2.repr, element.1)
  | _ => []

/-- An object with these fields, which is absent when there are none. -/
def ofFields : List (String × Json) → Json
  | [] => .null
  | fields => .object fields

/-- The value under the key. -/
def child (json : Json) (key : String) : Json := lookupField key json.fields

/-- Replace the value under the key. -/
def setChild (json : Json) (key : String) : Json → Json
  | .null =>
      match json.child key with
      | .null => json
      | _ => ofFields (removeField key json.fields)
  | value => .object (updateField key value json.fields)

@[simp] theorem child_null (key : String) : child .null key = .null := rfl

@[simp] theorem child_object (fields : List (String × Json)) (key : String) :
    child (.object fields) key = lookupField key fields := rfl

theorem child_ofFields (fields : List (String × Json)) (key : String) :
    (ofFields fields).child key = lookupField key fields := by
  cases fields <;> rfl

theorem setChild_of_ne_null (json : Json) (key : String) {value : Json} (h : value ≠ .null) :
    json.setChild key value = .object (updateField key value json.fields) := by
  cases value with
  | null => exact absurd rfl h
  | _ => rfl

/-- A write leaves the value alone, removes the key or replaces what is under it. -/
theorem setChild_cases (json : Json) (key : String) (value : Json) :
    (value = .null ∧ json.child key = .null ∧ json.setChild key value = json) ∨
      (value = .null ∧ json.setChild key value = ofFields (removeField key json.fields)) ∨
      (value ≠ .null ∧ json.setChild key value = .object (updateField key value json.fields)) := by
  by_cases hvalue : value = .null
  · subst hvalue
    by_cases hchild : json.child key = .null
    · exact .inl ⟨rfl, hchild, by simp only [setChild, hchild]⟩
    · exact .inr (.inl ⟨rfl, by simp only [setChild]⟩)
  · exact .inr (.inr ⟨hvalue, setChild_of_ne_null json key hvalue⟩)

@[simp] theorem child_setChild_same (json : Json) (key : String) (value : Json) :
    (json.setChild key value).child key = value := by
  rcases setChild_cases json key value with ⟨rfl, hchild, hset⟩ | ⟨rfl, hset⟩ | ⟨-, hset⟩
  · rw [hset, hchild]
  · rw [hset, child_ofFields, lookupField_removeField_same]
  · rw [hset, child_object, lookupField_updateField_same]

theorem child_setChild_of_ne (json : Json) {key other : String} (h : other ≠ key)
    (value : Json) : (json.setChild key value).child other = json.child other := by
  rcases setChild_cases json key value with ⟨-, -, hset⟩ | ⟨-, hset⟩ | ⟨-, hset⟩
  · rw [hset]
  · rw [hset, child_ofFields, lookupField_removeField_of_ne h]
    rfl
  · rw [hset, child_object, lookupField_updateField_of_ne h]
    rfl

/-! ## Objects -/

/-- The value has named fields. -/
def IsObject (json : Json) : Prop := ∃ fields, json = .object fields

theorem isObject_ofFields {fields : List (String × Json)} (h : ofFields fields ≠ .null) :
    IsObject (ofFields fields) := by
  cases fields with
  | nil => exact absurd rfl h
  | cons field rest => exact ⟨field :: rest, rfl⟩

theorem ne_null_of_child_ne_null {json : Json} (key : String) (h : json.child key ≠ .null) :
    json ≠ .null := by
  rintro rfl
  exact h (child_null key)

/-- A value with a child under the key has the pair among its fields. -/
theorem mem_fields_of_child_ne_null {json : Json} {key : String}
    (h : json.child key ≠ .null) : (key, json.child key) ∈ json.fields := by
  have mem : ∀ fields : List (String × Json), lookupField key fields ≠ .null →
      (key, lookupField key fields) ∈ fields := by
    intro fields hne
    induction fields with
    | nil => exact absurd rfl hne
    | cons field rest ih =>
        obtain ⟨k, v⟩ := field
        unfold lookupField at hne ⊢
        split
        · rename_i hk
          rw [hk]
          exact List.mem_cons_self
        · rename_i hk
          rw [if_neg hk] at hne
          exact List.mem_cons_of_mem _ (ih hne)
  exact mem json.fields h

theorem isObject_setChild_of_ne_null (json : Json) (key : String) {value : Json}
    (h : value ≠ .null) : IsObject (json.setChild key value) :=
  ⟨_, setChild_of_ne_null json key h⟩

/-- A write below an object leaves an object, unless nothing is left of it. -/
theorem isObject_setChild {json : Json} (h : json.IsObject) (key : String) (value : Json)
    (hne : json.setChild key value ≠ .null) : IsObject (json.setChild key value) := by
  rcases setChild_cases json key value with ⟨-, -, hset⟩ | ⟨-, hset⟩ | ⟨-, hset⟩
  · rwa [hset]
  · rw [hset] at hne ⊢
    exact isObject_ofFields hne
  · exact ⟨_, hset⟩

theorem mem_updateField {key : String} {value : Json} {fields : List (String × Json)}
    {field : String × Json} (h : field ∈ updateField key value fields) :
    field = (key, value) ∨ field ∈ fields := by
  induction fields with
  | nil => exact Or.inl (List.mem_singleton.mp h)
  | cons first rest ih =>
      unfold updateField at h
      split at h
      · rcases List.mem_cons.mp h with hnew | hrest
        · exact Or.inl hnew
        · exact Or.inr (List.mem_cons_of_mem first hrest)
      · rcases List.mem_cons.mp h with rfl | hrest
        · exact Or.inr List.mem_cons_self
        · exact (ih hrest).imp_right (List.mem_cons_of_mem first)

/-- The children after a write are the written one and old ones. -/
theorem mem_fields_setChild {json : Json} {key : String} {value : Json} (h : value ≠ .null)
    {field : String × Json} (hmem : field ∈ (json.setChild key value).fields) :
    field = (key, value) ∨ field ∈ json.fields := by
  rw [setChild_of_ne_null json key h] at hmem
  exact mem_updateField hmem

theorem updateField_updateField (key : String) (value other : Json)
    (fields : List (String × Json)) :
    updateField key value (updateField key other fields) = updateField key value fields := by
  induction fields with
  | nil => simp [updateField]
  | cons field rest ih =>
      obtain ⟨k, v⟩ := field
      by_cases hk : k = key <;> simp [updateField, hk, ih]

/-- Of two values written at one key the second stays. -/
theorem setChild_setChild (json : Json) (key : String) {value other : Json}
    (hother : other ≠ .null) (hvalue : value ≠ .null) :
    (json.setChild key other).setChild key value = json.setChild key value := by
  rw [setChild_of_ne_null _ key hvalue, setChild_of_ne_null _ key hother,
    setChild_of_ne_null _ key hvalue]
  simp only [fields, updateField_updateField]

/-! ## All children -/

@[simp] theorem fields_ofFields (list : List (String × Json)) : (ofFields list).fields = list := by
  cases list <;> rfl

theorem removeField_cons_self (key : String) (value : Json) (rest : List (String × Json)) :
    removeField key ((key, value) :: rest) = removeField key rest :=
  List.filter_cons_of_neg (by simp)

theorem removeField_cons_of_ne {key : String} {field : String × Json} (h : field.1 ≠ key)
    (rest : List (String × Json)) :
    removeField key (field :: rest) = field :: removeField key rest :=
  List.filter_cons_of_pos (decide_eq_true h)

theorem removeField_of_notMem {key : String} {fields : List (String × Json)}
    (h : key ∉ fields.map Prod.fst) : removeField key fields = fields := by
  refine List.filter_eq_self.mpr fun field hmem => decide_eq_true fun heq => h ?_
  exact List.mem_map.mpr ⟨field, hmem, heq⟩

theorem removeField_updateField (key : String) (value : Json) (fields : List (String × Json)) :
    removeField key (updateField key value fields) = removeField key fields := by
  induction fields with
  | nil => exact removeField_cons_self key value []
  | cons field rest ih =>
      obtain ⟨k, v⟩ := field
      by_cases hk : k = key
      · subst hk
        rw [updateField, if_pos rfl, removeField_cons_self, removeField_cons_self]
      · rw [updateField, if_neg hk, removeField_cons_of_ne hk, removeField_cons_of_ne hk, ih]

/-- A write leaves the other children alone. -/
theorem removeField_setChild (json : Json) (key : String) (value : Json) :
    removeField key (json.setChild key value).fields = removeField key json.fields := by
  rcases setChild_cases json key value with ⟨-, -, hset⟩ | ⟨-, hset⟩ | ⟨-, hset⟩
  · rw [hset]
  · rw [hset, fields_ofFields, removeField, removeField, List.filter_filter]
    simp only [Bool.and_self]
  · rw [hset, fields, removeField_updateField]

theorem keys_updateField (key : String) (value : Json) (fields : List (String × Json)) :
    (updateField key value fields).map Prod.fst =
      if key ∈ fields.map Prod.fst then fields.map Prod.fst else fields.map Prod.fst ++ [key] := by
  induction fields with
  | nil => rfl
  | cons field rest ih =>
      obtain ⟨k, v⟩ := field
      by_cases hk : k = key
      · simp [updateField, hk]
      · have hkey : key ≠ k := fun h => hk h.symm
        by_cases hmem : key ∈ rest.map Prod.fst <;> simp_all [updateField]

/-- A written value still has each key once. -/
theorem nodup_keys_setChild {json : Json} (h : (json.fields.map Prod.fst).Nodup) (key : String)
    (value : Json) : ((json.setChild key value).fields.map Prod.fst).Nodup := by
  rcases setChild_cases json key value with ⟨-, -, hset⟩ | ⟨-, hset⟩ | ⟨-, hset⟩
  · rwa [hset]
  · rw [hset, fields_ofFields]
    exact h.sublist (List.filter_sublist.map Prod.fst)
  · rw [hset, fields, keys_updateField]
    split
    · exact h
    · rename_i hmem
      refine List.nodup_append.mpr ⟨h, List.nodup_singleton key, fun k hk other hother heq => ?_⟩
      rw [heq, List.mem_singleton.mp hother] at hk
      exact hmem hk

/-- Every child after a write is the written one or an old one. -/
theorem mem_fields_of_setChild {json : Json} {key : String} {value : Json}
    {field : String × Json} (h : field ∈ (json.setChild key value).fields) :
    (value ≠ .null ∧ field = (key, value)) ∨ field ∈ json.fields := by
  rcases setChild_cases json key value with ⟨-, -, hset⟩ | ⟨-, hset⟩ | ⟨hvalue, -⟩
  · rw [hset] at h
    exact .inr h
  · rw [hset, fields_ofFields] at h
    exact .inr (List.mem_filter.mp h).1
  · exact (mem_fields_setChild hvalue h).imp_left fun heq => ⟨hvalue, heq⟩

/-- A write below an absent value or an object leaves one of the two. -/
theorem shape_setChild {json : Json} (h : json = .null ∨ json.IsObject) (key : String)
    (value : Json) :
    json.setChild key value = .null ∨ (json.setChild key value).IsObject := by
  by_cases hnull : json.setChild key value = .null
  · exact .inl hnull
  · rcases setChild_cases json key value with ⟨-, -, hset⟩ | ⟨-, hset⟩ | ⟨-, hset⟩
    · rwa [hset]
    · rw [hset] at hnull ⊢
      exact .inr (isObject_ofFields hnull)
    · exact .inr ⟨_, hset⟩

/-- A loop over fields one of which is replaced or added: the new result takes the
place of the old one, or comes last. -/
theorem mapM_updateField {α : Type} {f : String × Json → Option α} (key : String) (value : Json)
    {fields : List (String × Json)} {results : List α} (h : fields.mapM f = some results) :
    ∃ front back,
      (∀ new, f (key, value) = some new →
        (updateField key value fields).mapM f = some (front ++ new :: back)) ∧
      ((lookupField key fields = .null ∧ results = front ++ back) ∨
        ∃ old, f (key, lookupField key fields) = some old ∧ results = front ++ old :: back) := by
  induction fields generalizing results with
  | nil =>
      rw [List.mapM_nil] at h
      obtain rfl := Option.some.inj h
      exact ⟨[], [], fun new hnew => mapM_cons_eq_some.mpr ⟨new, [], hnew, rfl, rfl⟩,
        .inl ⟨rfl, rfl⟩⟩
  | cons field rest ih =>
      obtain ⟨k, v⟩ := field
      obtain ⟨first, others, hfirst, hothers, rfl⟩ := mapM_cons_eq_some.mp h
      by_cases hk : k = key
      · subst hk
        rw [updateField, if_pos rfl, lookupField, if_pos rfl]
        exact ⟨[], others,
          fun new hnew => mapM_cons_eq_some.mpr ⟨new, others, hnew, hothers, rfl⟩,
          .inr ⟨first, hfirst, rfl⟩⟩
      · obtain ⟨front, back, hnew, hold⟩ := ih hothers
        rw [updateField, if_neg hk, lookupField, if_neg hk]
        refine ⟨first :: front, back, fun new h => ?_, ?_⟩
        · exact mapM_cons_eq_some.mpr ⟨first, _, hfirst, hnew new h, rfl⟩
        · rcases hold with ⟨hnull, rfl⟩ | ⟨old, hlookup, rfl⟩
          · exact .inl ⟨hnull, rfl⟩
          · exact .inr ⟨old, hlookup, rfl⟩

section FlatMap

variable {α : Type} (f : String × Json → List α) (key : String)

/-- What is collected from all children: the contribution of one key, provided that
an absent child contributes nothing, and those of the others. -/
theorem flatMap_fields_split (hnull : f (key, .null) = []) {fields : List (String × Json)}
    (h : (fields.map Prod.fst).Nodup) :
    (fields.flatMap f).Perm
      ((removeField key fields).flatMap f ++ f (key, lookupField key fields)) := by
  induction fields with
  | nil => exact List.Perm.of_eq hnull.symm
  | cons field rest ih =>
      obtain ⟨k, v⟩ := field
      rw [List.map_cons, List.nodup_cons] at h
      by_cases hk : k = key
      · subst hk
        rw [removeField_cons_self, removeField_of_notMem h.1, lookupField, if_pos rfl]
        exact List.perm_append_comm
      · rw [removeField_cons_of_ne hk, lookupField, if_neg hk, List.flatMap_cons,
          List.flatMap_cons, List.append_assoc]
        exact (ih h.2).append_left (f (k, v))

/-- What is collected after a write. -/
theorem flatMap_fields_setChild (hnull : f (key, .null) = []) {json : Json}
    (h : (json.fields.map Prod.fst).Nodup) (value : Json) :
    ((json.setChild key value).fields.flatMap f).Perm
      ((removeField key json.fields).flatMap f ++ f (key, value)) := by
  have hsplit := flatMap_fields_split f key hnull (nodup_keys_setChild h key value)
  have hchild : lookupField key (json.setChild key value).fields = value :=
    child_setChild_same json key value
  rwa [removeField_setChild, hchild] at hsplit

/-- A filter that refuses what one key contributes takes the key out. -/
theorem filter_flatMap_of_key (p : α → Bool) (fields : List (String × Json))
    (h : ∀ field ∈ fields, ∀ x ∈ f field, p x = true ↔ field.1 ≠ key) :
    (fields.flatMap f).filter p = (removeField key fields).flatMap f := by
  induction fields with
  | nil => rfl
  | cons field rest ih =>
      have hfield := h field List.mem_cons_self
      rw [List.flatMap_cons, List.filter_append,
        ih fun other hmem => h other (List.mem_cons_of_mem field hmem)]
      by_cases hk : field.1 = key
      · have hnone : (f field).filter p = [] :=
          List.filter_eq_nil_iff.mpr fun x hx hp => (hfield x hx).mp hp hk
        obtain ⟨k, v⟩ := field
        obtain rfl : k = key := hk
        rw [hnone, removeField_cons_self, List.nil_append]
      · have hall : (f field).filter p = f field :=
          List.filter_eq_self.mpr fun x hx => (hfield x hx).mpr hk
        rw [hall, removeField_cons_of_ne hk, List.flatMap_cons]

end FlatMap

/-! ## Paths -/

/-- The value at the path. -/
def get (json : Json) : List String → Json
  | [] => json
  | key :: path => (json.child key).get path

/-- The tree with the value at the path replaced. -/
def set (json : Json) : List String → Json → Json
  | [], value => value
  | key :: path, value => json.setChild key ((json.child key).set path value)

theorem get_cons (json : Json) (key : String) (path : List String) :
    json.get (key :: path) = (json.child key).get path := rfl

theorem set_cons (json : Json) (key : String) (path : List String) (value : Json) :
    json.set (key :: path) value = json.setChild key ((json.child key).set path value) := rfl

theorem set_singleton (json : Json) (key : String) (value : Json) :
    json.set [key] value = json.setChild key value := rfl

theorem get_append (json : Json) (path below : List String) :
    json.get (path ++ below) = (json.get path).get below := by
  induction path generalizing json with
  | nil => rfl
  | cons key path ih => rw [List.cons_append, get_cons, get_cons, ih]

/-- A read above a written path sees the old subtree with the write applied. -/
theorem get_set_below (json : Json) (path below : List String) (value : Json) :
    (json.set (path ++ below) value).get path = (json.get path).set below value := by
  induction path generalizing json with
  | nil => rfl
  | cons key path ih =>
      rw [List.cons_append, set_cons, get_cons, child_setChild_same, ih, get_cons]

@[simp] theorem get_set_same (json : Json) (path : List String) (value : Json) :
    (json.set path value).get path = value := by
  have h := get_set_below json path [] value
  rwa [List.append_nil] at h

/-- A read at or below a written path sees the new value. -/
theorem get_set_append (json : Json) (path below : List String) (value : Json) :
    (json.set path value).get (path ++ below) = value.get below := by
  rw [get_append, get_set_same]

/-- A read that leaves the written path at some key sees the old value. -/
theorem get_set_of_ne (json : Json) (path : List String) {key other : String}
    (h : other ≠ key) (below otherBelow : List String) (value : Json) :
    (json.set (path ++ key :: below) value).get (path ++ other :: otherBelow) =
      json.get (path ++ other :: otherBelow) := by
  rw [get_append, get_set_below, get_cons, set_cons, child_setChild_of_ne _ h, get_append,
    get_cons]

theorem set_append (json : Json) (path below : List String) (value : Json) :
    json.set (path ++ below) value = json.set path ((json.get path).set below value) := by
  induction path generalizing json with
  | nil => rfl
  | cons key path ih => rw [List.cons_append, set_cons, set_cons, ih, get_cons]

theorem set_ne_null (json : Json) (path : List String) {value : Json} (h : value ≠ .null) :
    json.set path value ≠ .null := by
  induction path generalizing json with
  | nil => exact h
  | cons key path ih =>
      rw [set_cons]
      apply ne_null_of_child_ne_null key
      rw [child_setChild_same]
      exact ih (json.child key)

/-- Of two values written at one path the second stays. -/
theorem set_set (json : Json) (path : List String) {value other : Json} (hother : other ≠ .null)
    (hvalue : value ≠ .null) : (json.set path other).set path value = json.set path value := by
  induction path generalizing json with
  | nil => rfl
  | cons key path ih =>
      rw [set_cons, set_cons, set_cons, child_setChild_same, ih,
        setChild_setChild json key (set_ne_null _ path hother) (set_ne_null _ path hvalue)]

/-! ## The stored form -/

/-- The fields of the elements that are there, under their positions. -/
def presentElements (elements : List Json) : List (String × Json) :=
  (fields (.array elements)).filter fun field => !field.2.isNull

/-- Elements as they are read back.  The array ends at the last element that is
there; when most of what is left is absent, the positions come back as the keys of
an object. -/
def ofElements (elements : List Json) : Json :=
  match elements.rdropWhile isNull with
  | [] => .null
  | kept =>
      if kept.length - 1 < 2 * (presentElements kept).length then .array kept
      else .object (presentElements kept)

mutual

/-- The form in which a value is stored: arrays and objects left without
contents are absent. -/
def pruned : Json → Json
  | .array elements => ofElements (prunedElements elements)
  | .object fields => ofFields (prunedFields fields)
  | scalar => scalar

/-- The stored forms of the elements of an array. -/
def prunedElements : List Json → List Json
  | [] => []
  | element :: rest => element.pruned :: prunedElements rest

/-- The stored forms of the fields of an object; absent ones are dropped. -/
def prunedFields : List (String × Json) → List (String × Json)
  | [] => []
  | (key, value) :: rest =>
      match value.pruned with
      | .null => prunedFields rest
      | kept => (key, kept) :: prunedFields rest

end

@[simp] theorem ofElements_nil : ofElements [] = .null := rfl

theorem isNull_eq_false {json : Json} (h : json ≠ .null) : json.isNull = false := by
  cases json with
  | null => exact absurd rfl h
  | _ => rfl

/-- Elements that are all there are kept as an array. -/
theorem ofElements_of_ne_null {elements : List Json} (hnonempty : elements ≠ [])
    (h : ∀ element ∈ elements, element ≠ .null) : ofElements elements = .array elements := by
  have hlast : elements.rdropWhile isNull = elements := by
    refine List.rdropWhile_eq_self_iff.mpr fun hne => ?_
    rw [isNull_eq_false (h _ (List.getLast_mem hne))]
    nofun
  have hall : (presentElements elements).length = elements.length := by
    have hfilter : presentElements elements = fields (.array elements) := by
      refine List.filter_eq_self.mpr fun field hfield => ?_
      obtain ⟨element, helement, rfl⟩ := List.mem_map.mp hfield
      rw [isNull_eq_false (h _ (List.fst_mem_of_mem_zipIdx helement))]
      rfl
    rw [hfilter, fields, List.length_map, List.length_zipIdx]
  obtain ⟨element, rest, rfl⟩ := List.exists_cons_of_ne_nil hnonempty
  simp only [ofElements, hlast, hall, List.length_cons]
  rw [if_pos (by omega)]

/-- What is read back as an array are elements of the list, at least one. -/
theorem ofElements_eq_array {elements kept : List Json} (h : ofElements elements = .array kept) :
    kept ≠ [] ∧ kept ⊆ elements := by
  unfold ofElements at h
  split at h
  · cases h
  · rename_i hne
    split at h
    · obtain rfl := Json.array.inj h
      exact ⟨fun hnil => hne hnil, (List.rdropWhile_prefix isNull _).subset⟩
    · cases h

/-- What is read back as an object has elements of the list under its keys. -/
theorem ofElements_eq_object {elements : List Json} {list : List (String × Json)}
    (h : ofElements elements = .object list) : ∀ field ∈ list, field.2 ∈ elements := by
  unfold ofElements at h
  split at h
  · cases h
  · split at h
    · cases h
    · obtain rfl := Json.object.inj h
      intro field hfield
      obtain ⟨element, helement, rfl⟩ := List.mem_map.mp (List.mem_filter.mp hfield).1
      exact (List.rdropWhile_prefix isNull _).subset (List.fst_mem_of_mem_zipIdx helement)

@[simp] theorem pruned_string (value : String) : pruned (.string value) = .string value := rfl

theorem pruned_object (fields : List (String × Json)) :
    pruned (.object fields) = ofFields (prunedFields fields) := rfl

theorem prunedElements_eq_map (elements : List Json) :
    prunedElements elements = elements.map pruned := by
  induction elements with
  | nil => rfl
  | cons element rest ih => rw [prunedElements, ih, List.map_cons]

/-- An array is stored with its elements, when each of them is. -/
theorem pruned_array {elements : List Json} (hnonempty : elements ≠ [])
    (h : ∀ element ∈ elements, element.pruned ≠ .null) :
    pruned (.array elements) = .array (elements.map pruned) := by
  rw [pruned, prunedElements_eq_map]
  refine ofElements_of_ne_null (by simpa using hnonempty) fun element hmem => ?_
  obtain ⟨raw, hraw, rfl⟩ := List.mem_map.mp hmem
  exact h raw hraw

/-- A stored array has an element, and its elements are stored values. -/
theorem pruned_eq_array {value : Json} {elements : List Json}
    (h : value.pruned = .array elements) :
    elements ≠ [] ∧ ∀ element ∈ elements, ∃ before, element = pruned before := by
  cases value with
  | array before =>
      rw [pruned, prunedElements_eq_map] at h
      obtain ⟨hne, hsubset⟩ := ofElements_eq_array h
      refine ⟨hne, fun element hmem => ?_⟩
      obtain ⟨raw, -, rfl⟩ := List.mem_map.mp (hsubset hmem)
      exact ⟨raw, rfl⟩
  | object fields =>
      rw [pruned_object] at h
      cases hfields : prunedFields fields <;> rw [hfields] at h <;> cases h
  | null | bool _ | number _ | string _ => cases h

/-- The fields of a stored object are stored values. -/
theorem pruned_eq_object {value : Json} {fields : List (String × Json)}
    (h : value.pruned = .object fields) (key : String) :
    ∃ before, lookupField key fields = pruned before := by
  have hlookup : ∀ raw : List (String × Json),
      ∃ before, lookupField key (prunedFields raw) = pruned before := by
    intro raw
    induction raw with
    | nil => exact ⟨.null, rfl⟩
    | cons field rest ih =>
        obtain ⟨other, stored⟩ := field
        unfold prunedFields
        split
        · exact ih
        · unfold lookupField
          split
          · exact ⟨stored, rfl⟩
          · exact ih
  cases value with
  | object raw =>
      rw [pruned_object] at h
      cases hraw : prunedFields raw with
      | nil =>
          rw [hraw] at h
          cases h
      | cons field rest =>
          rw [hraw] at h
          obtain rfl := Json.object.inj h
          exact hraw ▸ hlookup raw
  | array before =>
      rw [pruned, prunedElements_eq_map] at h
      by_cases hnull : lookupField key fields = .null
      · exact ⟨.null, hnull⟩
      · have hchild : (Json.object fields).child key ≠ .null := hnull
        have hmem : (key, lookupField key fields) ∈ fields := mem_fields_of_child_ne_null hchild
        obtain ⟨raw, -, hraw⟩ := List.mem_map.mp (ofElements_eq_object h _ hmem)
        exact ⟨raw, hraw.symm⟩
  | null | bool _ | number _ | string _ => cases h

example : pruned (.object [("a", .array []), ("b", .array [.null, .string "x", .null])]) =
    .object [("b", .array [.null, .string "x"])] := rfl

end Json

end QFree.Foundation
