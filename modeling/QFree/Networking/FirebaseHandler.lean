/-
  Networking/FirebaseHandler.lean --- `class FirebaseHandler`.

  A method of the source checks its guards and then either fails at once or
  starts one asynchronous read; its callback runs later on the value the server
  read.  Each such method is two functions here:

      fRequest     the guards: the error passed to the completion, or the path
                   that is observed
      fResponse    the callback: the result for the value read, `none` if the
                   callback traps

  A method that only writes returns the writes it issues.  Where the source
  loops over a dictionary, the function takes the list of entries the loop
  meets, in the order in which it meets them.
-/
import QFree.Networking.Coding
import QFree.Networking.Dates

set_option autoImplicit false

namespace QFree

open QFree.Foundation QFree.Foundation.Json

/-! ## Writes -/

/-- One `setValue` at a path; `removeValue` sets `null`. -/
structure Write where
  path : List String
  value : Json

namespace Write

/-- The database after the write. -/
def apply (database : Json) (write : Write) : Json :=
  database.set write.path write.value.pruned

/-- The database after the writes, in order. -/
def applyAll (database : Json) (writes : List Write) : Json := writes.foldl apply database

end Write

/-! ## The handler -/

/-- The fields of the handler that outlive a call. -/
structure FirebaseHandler where
  /-- the key of the user's subtree, fixed when the handler is built -/
  user : Option String
  deriving DecidableEq, Repr

/-- The user's key: the e-mail address with every dot removed. -/
def userKey (email : String) : String := String.ofList (email.toList.filter fun c => c ≠ '.')

namespace FirebaseHandler

/-- The initializer of `shared`, run at its first use with the e-mail address of
`Auth.auth().currentUser`. -/
def build (email : Option String) : FirebaseHandler := ⟨email.map userKey⟩

/-- `guard reachabilityManager.isConnected`, then `guard let user = user`. -/
def guardUser (handler : FirebaseHandler) (isConnected : Bool) :
    Except NetworkingError String :=
  if isConnected then
    match handler.user with
    | some user => .ok user
    | none => .error .invalidResponse
  else .error .noInternetConnection

/-- `Users/<user>/basket`. -/
def basketPath (user : String) : List String := ["Users", user, "basket"]

/-- `Users/<user>/orders`. -/
def ordersPath (user : String) : List String := ["Users", user, "orders"]

/-- `Users/<user>/orders/<hash>`. -/
def orderPath (user hash : String) : List String := ["Users", user, "orders", hash]

/-! ### getRestaurantsInfo -/

def getRestaurantsInfoRequest (isConnected : Bool) : Except NetworkingError (List String) :=
  if isConnected then .ok ["Restaurants"] else .error .noInternetConnection

/-- The restaurant a record describes. -/
def decodeRestaurant (i : Fields) : Option Restaurant := do
  let categories ← categoryField i
  let name ← stringField "name" i
  let image ← stringField "image" i
  let lat ← stringField "lat" i
  let long ← stringField "long" i
  return {
    name := name
    image := image
    lat := lat
    long := long
    category := categories
  }

def getRestaurantsInfoResponse (value : Json) : Option (List Restaurant) :=
  match asDictionaries value with
  | none => some []
  | some data => data.mapM decodeRestaurant

/-! ### getProductsByIDRestaurant -/

def getProductsByIDRestaurantRequest (isConnected : Bool) :
    Except NetworkingError (List String) :=
  if isConnected then .ok ["Products"] else .error .noInternetConnection

def getProductsByIDRestaurantResponse [TextLibrary] (id : String) (value : Json) :
    Option (List ProductInfo) :=
  match asDictionaries value with
  | none => some []
  | some data => do
      let products ← data.mapM decodeProduct
      return products.filter fun product => SameText product.restaurantID id

theorem restaurantID_of_getProductsResponse {id : String} {value : Json}
    {products : List ProductInfo}
    (h : getProductsByIDRestaurantResponse id value = some products) :
    ∀ product ∈ products, product.restaurantID = id := by
  unfold getProductsByIDRestaurantResponse at h
  intro product hmem
  split at h
  · rw [← Option.some.inj h] at hmem
    cases hmem
  · obtain ⟨all, -, hall⟩ := Option.bind_eq_some_iff.mp h
    rw [← Option.some.inj hall, List.mem_filter] at hmem
    exact of_decide_eq_true hmem.2

/-! ### getBasket and postBasket -/

def getBasketRequest (handler : FirebaseHandler) (isConnected : Bool) :
    Except NetworkingError (List String) :=
  (handler.guardUser isConnected).map basketPath

/-- The body of the loop: `basket[product] = Int(i["amount"] as! String)`, where
a text that is no number removes the entry.  A key of the dictionary stands for all
products that are `==` to it. -/
def getBasketStep [TextLibrary] (basket : Basket) (i : Fields) : Option Basket := do
  let product ← decodeProduct i
  let amount ← stringField "amount" i
  return basket.assign product.canonical (parseInt amount)

def getBasketResponse [TextLibrary] (value : Json) : Option Basket :=
  match asDictionaries value with
  | none => some ∅
  | some data => data.foldlM getBasketStep ∅

/-- The write `postBasket` issues before it calls `completion(nil)`. -/
def postBasket (handler : FirebaseHandler) (isConnected : Bool)
    (products : List (ProductInfo × Int64)) : Except NetworkingError Write :=
  (handler.guardUser isConnected).map fun user =>
    { path := basketPath user, value := encodeItems products }

/-! ### makeOrder -/

/-- The guards of `makeOrder` and of the `getBasket` it calls.  The connection
is asked for twice. -/
def makeOrderRequest (handler : FirebaseHandler) (isConnected stillConnected : Bool) :
    Except NetworkingError (List String) := do
  let _ ← handler.guardUser isConnected
  handler.getBasketRequest stillConnected

/-- The record of an order besides its products. -/
def orderInfoFields (restaurant : Restaurant) (hash readyDate : String) (number : Int64) :
    Fields :=
  [ ("image", .string restaurant.image),
    ("name", .string restaurant.name),
    ("date", .string hash),
    ("readyDate", .string readyDate),
    ("number", .string (intText number)),
    ("ready", .string "0")]

/-- `restaurants[index]`. -/
def restaurantAt (restaurants : List Restaurant) (index : Int64) : Option Restaurant :=
  if 0 ≤ index.toInt then restaurants[index.toInt.toNat]? else none

/-- The restaurant of an order: `restaurants[Int(Array(basket.keys)[0].restaurantID)!]`. -/
def orderRestaurant (restaurants : List Restaurant) (basket : List (ProductInfo × Int64)) :
    Option Restaurant := do
  let first ← basket.head?
  let index ← parseInt first.1.restaurantID
  restaurantAt restaurants index

/-- The three writes of an order, in the order in which they are issued. -/
def orderWrites (user : String) (number : Int64) (restaurant : Restaurant)
    (basket : List (ProductInfo × Int64)) (hash readyDate : String) : List Write :=
  [ { path := orderPath user hash ++ ["products"], value := encodeItems basket },
    { path := orderPath user hash ++ ["info"],
      value := .object (orderInfoFields restaurant hash readyDate number) },
    { path := basketPath user, value := .null }]

section Dates

variable {Date : Type} (dates : DateLibrary Date)

/-- The success branch of `makeOrder`, for the entries of the basket it read and
the two readings of the clock, the first for `readyDate`, the second for `hash`. -/
def makeOrderResponse (user : String) (number : Int64) (restaurants : List Restaurant)
    (basket : List (ProductInfo × Int64)) (now later : Date) : Option (List Write) := do
  let restaurant ← orderRestaurant restaurants basket
  let readyDate ← dates.addingMinutes 30 now
  return orderWrites user number restaurant basket (getTimestamp dates later)
    (getTimestamp dates readyDate)

/-! ### getOrders and loadAllOrders -/

def getOrdersRequest (handler : FirebaseHandler) (isConnected : Bool) :
    Except NetworkingError (List String) :=
  (handler.guardUser isConnected).map ordersPath

/-- The lines of an order: `orders["products"] as! [[String: AnyObject]]`. -/
def decodeOrderProducts (products : Json) : Option (List (ProductInfo × Int64)) := do
  let responseProducts ← asDictionaries products
  responseProducts.mapM decodeItem

/-- The `OrderInfo` of the two halves of an entry. -/
def decodeOrderInfo (info : Fields) (products : List (ProductInfo × Int64)) :
    Option OrderInfo := do
  let image ← stringField "image" info
  let name ← stringField "name" info
  let date ← stringField "date" info
  let readyDate ← stringField "readyDate" info
  let number ← stringField "number" info
  let ready ← intField "ready" info
  return {
    imageURL := image
    restaurantName := name
    date := date
    readyDate := readyDate
    products := products
    number := number
    status := ready
  }

/-- The body of the loop of `getOrders`. -/
def getOrdersEntry (order : Json) : Option OrderInfo := do
  let orders ← asDictionary order
  let products ← decodeOrderProducts (lookupField "products" orders)
  let orderInfo ← asDictionary (lookupField "info" orders)
  decodeOrderInfo orderInfo products

/-- The orders of one user before they are sorted and formatted. -/
def getOrdersEntries (value : Json) : Option (List OrderInfo) :=
  match asDictionary value with
  | none => some []
  | some data => data.mapM fun order => getOrdersEntry order.2

/-- `sortOrdersInfo(_:)`: newest first, by the numbers the dates denote. -/
def sortOrdersInfo (ordersInfo : List OrderInfo) : Option (List OrderInfo) := do
  let dated ← ordersInfo.mapM fun order => do
    let date ← parseTimestamp dates order.date
    return (date, order)
  let sorted := dated.mergeSort fun a b => !dates.later b.1 a.1
  return sorted.map Prod.snd

/-- An order with its dates formatted. -/
def formatOrderInfo (order : OrderInfo) : Option OrderInfo := do
  let date ← getFormattedDate dates order.date
  let readyDate ← getFormattedDate dates order.readyDate
  return { order with date := date, readyDate := readyDate }

def getOrdersResponse (value : Json) : Option (List OrderInfo) := do
  let ordersInfo ← getOrdersEntries value
  let sorted ← sortOrdersInfo dates ordersInfo
  sorted.mapM (formatOrderInfo dates)

end Dates

/-- The body of the inner loop of `loadAllOrders`: entries that are no
dictionary, have no `info` or another restaurant's name are skipped. -/
def loadAllOrdersEntry [TextLibrary] (restaurantName : String) (order : Json) :
    Option (Option OrderInfo) :=
  match asDictionary order with
  | none => some none
  | some newOrder =>
      match asDictionary (lookupField "info" newOrder) with
      | none => some none
      | some info => do
          let name ← stringField "name" info
          if SameText name restaurantName then
            let products ← decodeOrderProducts (lookupField "products" newOrder)
            let orderInfo ← decodeOrderInfo info products
            return some orderInfo
          else
            return none

/-- The orders of one user that `loadAllOrders` collects. -/
def loadAllOrdersUser [TextLibrary] (restaurantName : String) (elem : Json) :
    Option (List OrderInfo) :=
  match asDictionary elem with
  | none => some []
  | some newElem =>
      match asDictionary (lookupField "orders" newElem) with
      | none => some []
      | some orders => do
          let found ← orders.mapM fun order => loadAllOrdersEntry restaurantName order.2
          return found.filterMap id

def loadAllOrdersResponse [TextLibrary] (restaurantName : String) (value : Json) :
    Option (List OrderInfo) :=
  match asDictionary value with
  | none => some []
  | some data => do
      let found ← data.mapM fun user => loadAllOrdersUser restaurantName user.2
      return found.flatten

/-! ### Calls answered at once -/

/-- A call whose read the server answers from this database before anything else
happens. -/
def answerNow {α : Type} (database : Json) (request : Except NetworkingError (List String))
    (response : Json → Option α) : Option (Except NetworkingError α) :=
  match request with
  | .error error => some (.error error)
  | .ok path => (response (database.get path)).map .ok

/-- `getBasket`, answered at once. -/
def getBasket [TextLibrary] (handler : FirebaseHandler) (isConnected : Bool)
    (database : Json) : Option (Except NetworkingError Basket) :=
  answerNow database (handler.getBasketRequest isConnected) getBasketResponse

/-- `getOrders`, answered at once. -/
def getOrders {Date : Type} (dates : DateLibrary Date) (handler : FirebaseHandler)
    (isConnected : Bool) (database : Json) : Option (Except NetworkingError (List OrderInfo)) :=
  answerNow database (handler.getOrdersRequest isConnected) (getOrdersResponse dates)

/-- `loadAllOrders(by:)`, answered at once; it has no guard. -/
def loadAllOrders [TextLibrary] (restaurantName : String) (database : Json) :
    Option (List OrderInfo) :=
  loadAllOrdersResponse restaurantName (database.get ["Users"])

theorem getOrders_eq {Date : Type} (dates : DateLibrary Date) (user : String) (database : Json) :
    getOrders dates ⟨some user⟩ true database =
      (getOrdersResponse dates (database.get (ordersPath user))).map .ok := rfl

theorem getBasket_eq [TextLibrary] (user : String) (database : Json) :
    getBasket ⟨some user⟩ true database =
      (getBasketResponse (database.get (basketPath user))).map .ok := rfl

end FirebaseHandler

end QFree
