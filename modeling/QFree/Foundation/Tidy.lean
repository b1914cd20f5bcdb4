/-
  Foundation/Tidy.lean --- dictionaries of a JSON store.

  A value is tidy when it is absent or an object that has each key once and no
  absent child.  A tidy value is what its keys look up, so a loop over its fields is
  a loop over its keys (`fields_eq_map`), and a write leaves it tidy
  (`tidy_setChild`).

  Paths are apart when they part at some key; a write is not seen on a path apart
  from its own (`get_set_of_apart`).
-/
import QFree.Foundation.Json

set_option autoImplicit false

namespace QFree.Foundation.Json

/-- The keys of the children of a value. -/
def keys (json : Json) : List String := json.fields.map Prod.fst

/-- The value is absent or a dictionary of values that are present. -/
structure Tidy (json : Json) : Prop where
  shape : json = .null ∨ json.IsObject
  distinct : json.keys.Nodup
  present : ∀ field ∈ json.fields, field.2 ≠ .null

theorem tidy_null : Tidy .null := ⟨.inl rfl, List.nodup_nil, nofun⟩

@[simp] theorem keys_null : keys .null = [] := rfl

section Tidy

variable {json : Json}

/-- A write leaves a dictionary. -/
theorem tidy_setChild (h : json.Tidy) (key : String) (value : Json) :
    (json.setChild key value).Tidy := by
  refine ⟨shape_setChild h.shape key value, nodup_keys_setChild h.distinct key value, ?_⟩
  intro field hmem
  rcases mem_fields_of_setChild hmem with ⟨hne, rfl⟩ | hold
  · exact hne
  · exact h.present field hold

namespace Tidy

theorem isObject (h : json.Tidy) (hne : json ≠ .null) : json.IsObject := h.shape.resolve_left hne

/-- A child under a key of the dictionary is looked up under the key. -/
theorem child_eq (h : json.Tidy) {field : String × Json} (hmem : field ∈ json.fields) :
    json.child field.1 = field.2 := lookupField_of_mem h.distinct hmem

/-- The keys are those under which something is found. -/
theorem mem_keys_iff (h : json.Tidy) {key : String} :
    key ∈ json.keys ↔ json.child key ≠ .null := by
  constructor
  · intro hmem
    obtain ⟨field, hfield, rfl⟩ := List.mem_map.mp hmem
    rw [h.child_eq hfield]
    exact h.present field hfield
  · exact fun hne => List.mem_map.mpr ⟨_, mem_fields_of_child_ne_null hne, rfl⟩

/-- The dictionary holds under each of its keys what is found there. -/
theorem fields_eq_map (h : json.Tidy) :
    json.fields = json.keys.map fun key => (key, json.child key) := by
  rw [keys, List.map_map]
  refine (List.map_id _).symm.trans (List.map_congr_left fun field hmem => ?_)
  exact Prod.ext rfl (h.child_eq hmem).symm

end Tidy

/-- A dictionary above a written path is a dictionary still. -/
theorem tidy_get_set (path : List String) (h : (json.get path).Tidy) (key : String)
    (below : List String) (value : Json) :
    ((json.set (path ++ key :: below) value).get path).Tidy := by
  rw [get_set_below, set_cons]
  exact tidy_setChild h key _

end Tidy

/-! ## Paths apart -/

/-- The paths have a common part, and different keys after it. -/
def Apart : List String → List String → Prop
  | key :: path, other :: otherPath => key ≠ other ∨ Apart path otherPath
  | _, _ => False

theorem apart_of_ne {key other : String} (h : key ≠ other) (path otherPath : List String) :
    Apart (key :: path) (other :: otherPath) := Or.inl h

theorem Apart.cons {path otherPath : List String} (h : Apart path otherPath)
    (key other : String) : Apart (key :: path) (other :: otherPath) := Or.inr h

/-- A write is not seen on a path apart from its own. -/
theorem get_set_of_apart (value : Json) {path other : List String} (h : Apart other path) :
    ∀ json : Json, (json.set path value).get other = json.get other := by
  induction path generalizing other with
  | nil =>
      cases other with
      | nil => cases h
      | cons => cases h
  | cons key path ih =>
      intro json
      cases other with
      | nil => cases h
      | cons otherKey other =>
          rw [set_cons, get_cons, get_cons]
          by_cases hkey : otherKey = key
          · subst hkey
            rw [child_setChild_same, ih (h.resolve_left fun hne => hne rfl)]
          · rw [child_setChild_of_ne json hkey]

end QFree.Foundation.Json
