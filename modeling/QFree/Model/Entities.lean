/-
  Model/Entities.lean --- the values the program passes around: categories,
  products, restaurants, baskets and orders.

  `Int` of the source is `Int64`; an operation of the source that can trap (an
  overflow, a forced unwrapping or cast, an index out of range) returns an
  `Option`, and `none` is the trap.

  `==` on texts compares them up to canonical equivalence.  `TextLibrary` stands
  for what decides it, and the readers of the database are written for any one;
  where none is named it is `plain`, for which equal texts are the same.
-/
import QFree.Foundation.Dictionary
import QFree.Foundation.Number

set_option autoImplicit false

namespace QFree

open QFree.Foundation

/-! ## Texts -/

/-- What `==` on texts compares: their canonical forms. -/
class TextLibrary where
  canonical : String → String

/-- Texts that are all in canonical form. -/
instance (priority := low) TextLibrary.plain : TextLibrary := ⟨fun text => text⟩

/-- `text == other`. -/
abbrev SameText [TextLibrary] (text other : String) : Prop :=
  TextLibrary.canonical text = TextLibrary.canonical other

@[simp] theorem sameText_plain {text other : String} :
    @SameText TextLibrary.plain text other ↔ text = other := Iff.rfl

/-! ## Categories -/

/-- `enum Category: String`. -/
inductive Category where
  | favorite
  | bakery
  | coffee
  | vegan
  | first
  | second
  | pizza
  | sushi
  | dessert
  deriving DecidableEq, Repr

namespace Category

/-- `Category.allCases`, in the order of the declaration. -/
def allCases : List Category :=
  [.favorite, .bakery, .coffee, .vegan, .first, .second, .pizza, .sushi, .dessert]

/-- The text under which a category is stored. -/
def rawValue : Category → String
  | .favorite => "Избранное"
  | .bakery => "Выпечка"
  | .coffee => "Кофе"
  | .vegan => "Здоровая"
  | .first => "Первое"
  | .second => "Второе"
  | .pizza => "Пицца"
  | .sushi => "Суши"
  | .dessert => "Десерт"

/-- `Category(rawValue:)`.  The texts have no other form, so `==` is identity. -/
def ofRawValue (text : String) : Option Category :=
  allCases.find? fun category => category.rawValue = text

/-- `Category(id:)`, the category in a row of the category bar. -/
def ofId : Nat → Option Category
  | 0 => some .favorite
  | 1 => some .bakery
  | 2 => some .coffee
  | 3 => some .vegan
  | 4 => some .first
  | 5 => some .second
  | 6 => some .pizza
  | 7 => some .sushi
  | 8 => some .dessert
  | _ => none

@[simp] theorem ofRawValue_rawValue (category : Category) :
    ofRawValue category.rawValue = some category := by
  cases category <;> decide

end Category

/-! ## Products, restaurants and baskets -/

/-- `struct ProductInfo`, the key type of a basket. -/
structure ProductInfo where
  name : String
  price : Int64
  imageLink : String
  category : List Category
  restaurantID : String
  deriving DecidableEq, Repr

/-- The product whose texts are in canonical form: two products are `==` when these
are equal. -/
def ProductInfo.canonical [TextLibrary] (product : ProductInfo) : ProductInfo :=
  { product with
    name := TextLibrary.canonical product.name
    imageLink := TextLibrary.canonical product.imageLink
    restaurantID := TextLibrary.canonical product.restaurantID }

@[simp] theorem ProductInfo.canonical_plain (product : ProductInfo) :
    @ProductInfo.canonical TextLibrary.plain product = product := rfl

@[simp] theorem ProductInfo.canonical_category [TextLibrary] (product : ProductInfo) :
    product.canonical.category = product.category := rfl

/-- `struct Restaurant`. -/
structure Restaurant where
  name : String
  image : String
  lat : String
  long : String
  category : List Category
  deriving DecidableEq, Repr

/-- `[ProductInfo : Int]`: the amount of each product. -/
abbrev Basket : Type := Dictionary ProductInfo Int64

namespace Basket

/-- The amount of a product, 0 when it has no entry. -/
def amount (basket : Basket) (product : ProductInfo) : Int :=
  ((basket.lookup product).getD 0).toInt

/-- Every product of the basket has the restaurant's identifier. -/
def BelongsTo (basket : Basket) (restaurantID : String) : Prop :=
  ∀ product ∈ basket, product.restaurantID = restaurantID

/-- All products of the basket have one restaurant identifier. -/
def SingleRestaurant (basket : Basket) : Prop :=
  ∃ restaurantID, basket.BelongsTo restaurantID

/-- Every product of the basket has a category. -/
def Categorized (basket : Basket) : Prop :=
  ∀ product ∈ basket, product.category ≠ []

theorem amount_of_lookup {basket : Basket} {product : ProductInfo} {n : Int64}
    (h : basket.lookup product = some n) : basket.amount product = n.toInt := by
  rw [amount, h, Option.getD_some]

theorem amount_of_notMem {basket : Basket} {product : ProductInfo} (h : product ∉ basket) :
    basket.amount product = 0 := by
  rw [amount, Finmap.lookup_eq_none.mpr h]
  rfl

theorem amount_insert_self (basket : Basket) (product : ProductInfo) (n : Int64) :
    amount (basket.insert product n) product = n.toInt :=
  amount_of_lookup (Finmap.lookup_insert basket)

theorem amount_insert_of_ne (basket : Basket) {product other : ProductInfo} (hne : other ≠ product)
    (n : Int64) : amount (basket.insert product n) other = basket.amount other := by
  rw [amount, amount, Finmap.lookup_insert_of_ne _ hne]

theorem belongsTo_empty (restaurantID : String) : BelongsTo ∅ restaurantID := by
  intro product hmem
  exact absurd hmem Finmap.notMem_empty

theorem singleRestaurant_empty : SingleRestaurant ∅ := ⟨"", belongsTo_empty ""⟩

theorem belongsTo_insert {basket : Basket} {restaurantID : String}
    (h : basket.BelongsTo restaurantID) {product : ProductInfo}
    (hproduct : product.restaurantID = restaurantID) (amount : Int64) :
    BelongsTo (basket.insert product amount) restaurantID := by
  intro other hmem
  rcases Finmap.mem_insert.mp hmem with rfl | hother
  · exact hproduct
  · exact h other hother

theorem categorized_empty : Categorized ∅ := by
  intro product hmem
  exact absurd hmem Finmap.notMem_empty

end Basket

/-! ## Orders -/

/-- `struct OrderInfo`, an order as the order screens show it. -/
structure OrderInfo where
  imageURL : String
  restaurantName : String
  date : String
  readyDate : String
  products : List (ProductInfo × Int64)
  number : String
  status : Int64
  deriving DecidableEq, Repr

/-- `OrderInfo.totalPrice`: `products.reduce(0) { $0 + price * amount }`. -/
def OrderInfo.totalPrice (order : OrderInfo) : Option Int64 :=
  sumTrapping 0 (order.products.map fun entry => (entry.1.price, entry.2))

/-- `OrderInfo.isCompleted`. -/
def OrderInfo.isCompleted (order : OrderInfo) : Bool := order.status == 1

/-- What the screens use of the system's pictures: `UIImage(named:)`, `URL(string:)`
and `UIImage(data:)`. -/
structure ImageLibrary (Data Image : Type) where
  named : String → Option Image
  isURL : String → Bool
  ofData : Data → Option Image

/-- Texts that are pictures of themselves. -/
def ImageLibrary.texts : ImageLibrary String String where
  named name := some name
  isURL text := text ≠ ""
  ofData data := some data

/-- `enum NetworkingError`. -/
inductive NetworkingError where
  | noInternetConnection
  | invalidResponse
  deriving DecidableEq, Repr

end QFree
