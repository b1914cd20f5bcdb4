/-
  Networking/Records.lean --- the records the readers accept.

  A record is described by a value when each field the reader uses holds the text
  of the corresponding part of the value.  For each decoder of the source there is
  such a relation and the theorem that the decoder yields exactly the values that
  describe the record:

      decodeRestaurant_eq_some    RestaurantRecord
      decodeProduct_eq_some       ProductRecord
      decodeItem_eq_some          ItemRecord
      getOrdersEntry_eq_some      OrderRecord

  So a record on which a decoder traps is one that no value describes: a field is
  missing or of another type, a number cannot be read, a category is unknown.
-/
import QFree.Networking.FirebaseHandler

set_option autoImplicit false

namespace QFree

open QFree.Foundation QFree.Foundation.Json QFree.FirebaseHandler

/-! ## Casts -/

theorem asString_eq_some {json : Json} {text : String} :
    asString json = some text ↔ json = .string text := by
  cases json <;> simp [asString]

theorem asStrings_eq_some {json : Json} {texts : List String} :
    asStrings json = some texts ↔ json = .array (texts.map .string) := by
  cases json with
  | array elements =>
      rw [asStrings, Json.array.injEq]
      exact mapM_eq_some_iff_eq_map fun _ _ => asString_eq_some
  | _ => simp [asStrings]

theorem asDictionary_eq_some {json : Json} {fields : Fields} :
    asDictionary json = some fields ↔ json = .object fields := by
  cases json <;> simp [asDictionary]

theorem asDictionary_of_isObject {json : Json} (h : json.IsObject) :
    asDictionary json = some json.fields := by
  obtain ⟨fields, rfl⟩ := h
  rfl

theorem asDictionary_eq_none {json : Json} : asDictionary json = none ↔ ¬json.IsObject := by
  rw [Option.eq_none_iff_forall_ne_some, Json.IsObject, not_exists]
  exact forall_congr' fun _ => not_congr asDictionary_eq_some

theorem asDictionaries_eq_some {json : Json} {records : List Fields} :
    asDictionaries json = some records ↔ json = .array (records.map .object) := by
  cases json with
  | array elements =>
      rw [asDictionaries, Json.array.injEq]
      exact mapM_eq_some_iff_eq_map fun _ _ => asDictionary_eq_some
  | _ => simp [asDictionaries]

theorem asDictionaries_eq_none {json : Json} :
    asDictionaries json = none ↔ ¬∃ records : List Fields, json = .array (records.map .object) := by
  rw [Option.eq_none_iff_forall_ne_some, not_exists]
  exact forall_congr' fun _ => not_congr asDictionaries_eq_some

/-! ## Fields -/

/-- The field holds the decimal text of the number. -/
def NumberField (key : String) (i : Fields) (number : Int64) : Prop :=
  ∃ text, lookupField key i = .string text ∧ parseInt text = some number

/-- The field holds the names of the categories. -/
def CategoryField (i : Fields) (categories : List Category) : Prop :=
  lookupField "category" i = .array (categories.map fun category => .string category.rawValue)

theorem stringField_eq_some {key : String} {i : Fields} {text : String} :
    stringField key i = some text ↔ lookupField key i = .string text :=
  asString_eq_some

theorem intField_eq_some {key : String} {i : Fields} {number : Int64} :
    intField key i = some number ↔ NumberField key i number := by
  simp only [intField, NumberField, Option.bind_eq_some_iff, stringField_eq_some]

theorem ofRawValue_eq_some {text : String} {category : Category} :
    Category.ofRawValue text = some category ↔ text = category.rawValue := by
  constructor
  · intro h
    have hfound := List.find?_some (p := fun category : Category => category.rawValue = text) h
    exact (of_decide_eq_true hfound).symm
  · rintro rfl
    exact Category.ofRawValue_rawValue category

theorem categoryField_eq_some {i : Fields} {categories : List Category} :
    categoryField i = some categories ↔ CategoryField i categories := by
  simp only [categoryField, CategoryField, Option.bind_eq_bind, Option.bind_eq_some_iff,
    asStrings_eq_some, mapM_eq_some_iff_eq_map fun _ _ => ofRawValue_eq_some]
  constructor
  · rintro ⟨texts, hfield, rfl⟩
    rw [hfield, List.map_map]
    rfl
  · intro hfield
    refine ⟨_, ?_, rfl⟩
    rw [hfield, List.map_map]
    rfl

/-! ## Records -/

/-- The record describes the restaurant. -/
structure RestaurantRecord (i : Fields) (restaurant : Restaurant) : Prop where
  category : CategoryField i restaurant.category
  name : lookupField "name" i = .string restaurant.name
  image : lookupField "image" i = .string restaurant.image
  lat : lookupField "lat" i = .string restaurant.lat
  long : lookupField "long" i = .string restaurant.long

/-- The record describes the product. -/
structure ProductRecord (i : Fields) (product : ProductInfo) : Prop where
  category : CategoryField i product.category
  name : lookupField "name" i = .string product.name
  image : lookupField "image" i = .string product.imageLink
  price : NumberField "price" i product.price
  restaurantID : lookupField "restaurantID" i = .string product.restaurantID

/-- The record describes a product and its amount. -/
structure ItemRecord (i : Fields) (entry : ProductInfo × Int64) : Prop where
  product : ProductRecord i entry.1
  amount : NumberField "amount" i entry.2

/-- The record describes the order up to its products. -/
structure InfoRecord (info : Fields) (order : OrderInfo) : Prop where
  image : lookupField "image" info = .string order.imageURL
  name : lookupField "name" info = .string order.restaurantName
  date : lookupField "date" info = .string order.date
  readyDate : lookupField "readyDate" info = .string order.readyDate
  number : lookupField "number" info = .string order.number
  ready : NumberField "ready" info order.status

/-- The array lists the entries. -/
def ItemsRecord (products : Json) (entries : List (ProductInfo × Int64)) : Prop :=
  ∃ items : List Fields, products = .array (items.map .object) ∧
    List.Forall₂ ItemRecord items entries

/-- The entry holds both halves of the order. -/
def OrderRecord (entry : Json) (order : OrderInfo) : Prop :=
  ∃ fields info : Fields, entry = .object fields ∧
    ItemsRecord (lookupField "products" fields) order.products ∧
    lookupField "info" fields = .object info ∧ InfoRecord info order

/-! ## Decoders -/

theorem decodeRestaurant_eq_some {i : Fields} {restaurant : Restaurant} :
    decodeRestaurant i = some restaurant ↔ RestaurantRecord i restaurant := by
  simp only [decodeRestaurant, Option.bind_eq_bind, Option.bind_eq_some_iff,
    categoryField_eq_some, stringField_eq_some, Option.pure_def, Option.some.injEq]
  constructor
  · rintro ⟨category, hcategory, name, hname, image, himage, lat, hlat, long, hlong, rfl⟩
    exact ⟨hcategory, hname, himage, hlat, hlong⟩
  · rintro ⟨hcategory, hname, himage, hlat, hlong⟩
    exact ⟨_, hcategory, _, hname, _, himage, _, hlat, _, hlong, rfl⟩

theorem decodeProduct_eq_some {i : Fields} {product : ProductInfo} :
    decodeProduct i = some product ↔ ProductRecord i product := by
  simp only [decodeProduct, Option.bind_eq_bind, Option.bind_eq_some_iff,
    categoryField_eq_some, stringField_eq_some, intField_eq_some, Option.pure_def,
    Option.some.injEq]
  constructor
  · rintro ⟨category, hcategory, name, hname, image, himage, price, hprice, id, hid, rfl⟩
    exact ⟨hcategory, hname, himage, hprice, hid⟩
  · rintro ⟨hcategory, hname, himage, hprice, hid⟩
    exact ⟨_, hcategory, _, hname, _, himage, _, hprice, _, hid, rfl⟩

theorem decodeItem_eq_some {i : Fields} {entry : ProductInfo × Int64} :
    decodeItem i = some entry ↔ ItemRecord i entry := by
  simp only [decodeItem, Option.bind_eq_bind, Option.bind_eq_some_iff, decodeProduct_eq_some,
    intField_eq_some, Option.pure_def, Option.some.injEq]
  constructor
  · rintro ⟨product, hproduct, amount, hamount, rfl⟩
    exact ⟨hproduct, hamount⟩
  · rintro ⟨hproduct, hamount⟩
    exact ⟨_, hproduct, _, hamount, rfl⟩

theorem decodeOrderProducts_eq_some {products : Json} {entries : List (ProductInfo × Int64)} :
    decodeOrderProducts products = some entries ↔ ItemsRecord products entries := by
  simp only [decodeOrderProducts, ItemsRecord, Option.bind_eq_bind, Option.bind_eq_some_iff,
    asDictionaries_eq_some, mapM_eq_some_iff_forall₂, decodeItem_eq_some]

theorem decodeOrderInfo_eq_some {info : Fields} {products : List (ProductInfo × Int64)}
    {order : OrderInfo} :
    decodeOrderInfo info products = some order ↔
      InfoRecord info order ∧ order.products = products := by
  simp only [decodeOrderInfo, Option.bind_eq_bind, Option.bind_eq_some_iff,
    stringField_eq_some, intField_eq_some, Option.pure_def, Option.some.injEq]
  constructor
  · rintro ⟨image, himage, name, hname, date, hdate, readyDate, hreadyDate, number, hnumber,
      ready, hready, rfl⟩
    exact ⟨⟨himage, hname, hdate, hreadyDate, hnumber, hready⟩, rfl⟩
  · rintro ⟨⟨himage, hname, hdate, hreadyDate, hnumber, hready⟩, rfl⟩
    exact ⟨_, himage, _, hname, _, hdate, _, hreadyDate, _, hnumber, _, hready, rfl⟩

theorem getOrdersEntry_eq_some {entry : Json} {order : OrderInfo} :
    getOrdersEntry entry = some order ↔ OrderRecord entry order := by
  simp only [getOrdersEntry, OrderRecord, Option.bind_eq_bind, Option.bind_eq_some_iff,
    asDictionary_eq_some, decodeOrderProducts_eq_some, decodeOrderInfo_eq_some]
  constructor
  · rintro ⟨fields, hfields, products, hproducts, info, hinfo, horder, rfl⟩
    exact ⟨fields, info, hfields, hproducts, hinfo, horder⟩
  · rintro ⟨fields, info, hfields, hproducts, hinfo, horder⟩
    exact ⟨fields, hfields, _, hproducts, info, hinfo, horder, rfl⟩

end QFree
