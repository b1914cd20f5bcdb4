/-
  Networking/Coding.lean --- how products and baskets are written to and read
  from the database.

  Every reader of the source builds a `ProductInfo` from the same five fields by
  force casts, forced `Int(_:)` and forced `Category(rawValue:)`; every writer
  builds the same six-field item.  Both are defined once here and named after
  the source by the readers and writers in `FirebaseHandler.lean`.

  The main fact is `decodeItem_stored`: an item of a product that has a category
  reads back as the product and its amount.
-/
import QFree.Foundation.Json
import QFree.Foundation.Trap
import QFree.Model.Entities

set_option autoImplicit false

namespace QFree

open QFree.Foundation QFree.Foundation.Json

/-- A dictionary `[String : AnyObject]` read from the database. -/
abbrev Fields : Type := List (String × Json)

/-! ## Casts -/

/-- The cast to `String`. -/
def asString : Json → Option String
  | .string text => some text
  | _ => none

/-- The cast to `[String]`. -/
def asStrings : Json → Option (List String)
  | .array elements => elements.mapM asString
  | _ => none

/-- The cast to `[String : AnyObject]`. -/
def asDictionary : Json → Option Fields
  | .object fields => some fields
  | _ => none

/-- The cast to `[[String : AnyObject]]`. -/
def asDictionaries : Json → Option (List Fields)
  | .array elements => elements.mapM asDictionary
  | _ => none

/-- `i[key] as! String`. -/
def stringField (key : String) (i : Fields) : Option String :=
  asString (lookupField key i)

/-- `Int(i[key] as! String)!`. -/
def intField (key : String) (i : Fields) : Option Int64 :=
  (stringField key i).bind parseInt

/-- `(i["category"] as! [String]).map { Category(rawValue: $0)! }`. -/
def categoryField (i : Fields) : Option (List Category) := do
  let rawValues ← asStrings (lookupField "category" i)
  rawValues.mapM Category.ofRawValue

/-! ## Items -/

/-- The product a record describes. -/
def decodeProduct (i : Fields) : Option ProductInfo := do
  let categories ← categoryField i
  let name ← stringField "name" i
  let image ← stringField "image" i
  let price ← intField "price" i
  let restaurantID ← stringField "restaurantID" i
  return {
    name := name
    price := price
    imageLink := image
    category := categories
    restaurantID := restaurantID
  }

/-- The product and the amount of one line of an order. -/
def decodeItem (i : Fields) : Option (ProductInfo × Int64) := do
  let product ← decodeProduct i
  let amount ← intField "amount" i
  return (product, amount)

/-- The item that is written for a product and its amount. -/
def encodeItem (product : ProductInfo) (amount : Int64) : Json :=
  .object [
    ("name", .string product.name),
    ("image", .string product.imageLink),
    ("price", .string (intText product.price)),
    ("restaurantID", .string product.restaurantID),
    ("amount", .string (intText amount)),
    ("category", .array (product.category.map fun category => .string category.rawValue))]

/-- The array that is written for the entries of a basket, in the order in
which the loop meets them. -/
def encodeItems (entries : List (ProductInfo × Int64)) : Json :=
  .array (entries.map fun entry => encodeItem entry.1 entry.2)

/-! ## The stored form of an item -/

/-- The fields under which an item is found again: an empty category list is
not stored. -/
def storedFields (product : ProductInfo) (amount : Int64) : Fields :=
  [ ("name", .string product.name),
    ("image", .string product.imageLink),
    ("price", .string (intText product.price)),
    ("restaurantID", .string product.restaurantID),
    ("amount", .string (intText amount))] ++
  match product.category with
  | [] => []
  | category => [("category", .array (category.map fun c => .string c.rawValue))]

theorem pruned_categories {category : List Category} (h : category ≠ []) :
    pruned (.array (category.map fun c => .string c.rawValue)) =
      .array (category.map fun c => .string c.rawValue) := by
  rw [pruned_array (by simpa using h)]
  · rw [List.map_map]
    rfl
  · intro element hmem
    obtain ⟨c, _, rfl⟩ := List.mem_map.mp hmem
    simp

theorem pruned_encodeItem (product : ProductInfo) (amount : Int64) :
    (encodeItem product amount).pruned = .object (storedFields product amount) := by
  unfold encodeItem storedFields
  cases hcategory : product.category with
  | nil => simp [pruned, prunedFields, prunedElements, ofFields]
  | cons c rest =>
      have hpruned := pruned_categories (List.cons_ne_nil c rest)
      simp only [pruned_object, prunedFields, pruned_string, hpruned]
      rfl

theorem asStrings_categories (category : List Category) :
    asStrings (.array (category.map fun c => .string c.rawValue)) =
      some (category.map Category.rawValue) := by
  rw [asStrings, mapM_map]
  exact mapM_eq_some_map fun c _ => rfl

theorem categoryField_stored (product : ProductInfo) (amount : Int64) :
    categoryField (storedFields product amount) =
      if product.category = [] then none else some product.category := by
  unfold categoryField storedFields
  cases hcategory : product.category with
  | nil => simp [lookupField, asStrings]
  | cons c rest =>
      have hread : (List.map Category.rawValue (c :: rest)).mapM Category.ofRawValue =
          some (c :: rest) := by
        have hid : (c :: rest).mapM (fun c => Category.ofRawValue c.rawValue) =
            some ((c :: rest).map id) :=
          mapM_eq_some_map fun c _ => Category.ofRawValue_rawValue c
        rw [mapM_map, hid, List.map_id]
      rw [if_neg (List.cons_ne_nil c rest), ← hread]
      simp only [lookupField, List.cons_append, List.nil_append, String.reduceEq, if_false,
        if_true, asStrings_categories, Option.bind_eq_bind, Option.bind_some]

/-- An item reads back as its product, if the product has a category;
otherwise the reader traps. -/
theorem decodeProduct_stored (product : ProductInfo) (amount : Int64) :
    decodeProduct (storedFields product amount) =
      if product.category = [] then none else some product := by
  unfold decodeProduct
  rw [categoryField_stored]
  by_cases hcategory : product.category = []
  · simp [hcategory]
  · simp [hcategory, storedFields, stringField, intField, lookupField, asString]

@[simp] theorem amountField_stored (product : ProductInfo) (amount : Int64) :
    intField "amount" (storedFields product amount) = some amount := by
  simp [storedFields, intField, stringField, lookupField, asString]

theorem decodeItem_stored (product : ProductInfo) (amount : Int64) :
    decodeItem (storedFields product amount) =
      if product.category = [] then none else some (product, amount) := by
  unfold decodeItem
  rw [decodeProduct_stored, amountField_stored]
  split <;> rfl

/-! ## The stored form of a basket -/

theorem pruned_encodeItems {entries : List (ProductInfo × Int64)} (h : entries ≠ []) :
    (encodeItems entries).pruned =
      .array (entries.map fun entry => .object (storedFields entry.1 entry.2)) := by
  rw [encodeItems, pruned_array (by simpa using h)]
  · rw [List.map_map]
    congr 1
    apply List.map_congr_left
    intro entry _
    exact pruned_encodeItem entry.1 entry.2
  · intro element hmem
    obtain ⟨entry, _, rfl⟩ := List.mem_map.mp hmem
    rw [pruned_encodeItem]
    simp

@[simp] theorem pruned_encodeItems_nil : (encodeItems []).pruned = .null := rfl

theorem pruned_encodeItems_eq_null {entries : List (ProductInfo × Int64)} :
    (encodeItems entries).pruned = .null ↔ entries = [] := by
  constructor
  · intro h
    by_contra hne
    rw [pruned_encodeItems hne] at h
    cases h
  · rintro rfl
    rfl

theorem asDictionaries_stored {entries : List (ProductInfo × Int64)} (h : entries ≠ []) :
    asDictionaries (encodeItems entries).pruned =
      some (entries.map fun entry => storedFields entry.1 entry.2) := by
  rw [pruned_encodeItems h, asDictionaries, mapM_map]
  exact mapM_eq_some_map fun entry _ => rfl

end QFree
