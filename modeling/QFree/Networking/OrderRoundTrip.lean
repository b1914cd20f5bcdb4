/-
  Networking/OrderRoundTrip.lean --- an order is read back as it was placed.

  Both readers decode the entry `makeOrder` leaves to the same `OrderInfo`,
  `placedOrder`: the number, status 0 and the entries of the basket in the order
  in which `makeOrder` met them.  They meet the entry because it is a field of
  the user's orders, and those are a field of the user's subtree.  Nothing about
  the new order makes them trap: they return whenever they can read what was
  stored before.

  The price of the order is added up in trapping arithmetic; on nonnegative
  terms `sumTrapping_eq` gives the exact sum for every iteration order.
-/
import QFree.Networking.OrderReaders
import QFree.Networking.OrderWrites

set_option autoImplicit false

namespace QFree

open QFree.Foundation QFree.Foundation.Json

/-! ## What an order owes its basket -/

/-- The exact price of a basket. -/
def Basket.exactPrice (basket : Basket) : Int :=
  (basket.entries.map fun entry => entry.1.price.toInt * entry.2.toInt).sum

/-- No price and no amount of the basket is negative. -/
def Basket.NonNegative (basket : Basket) : Prop :=
  ∀ product amount, basket.lookup product = some amount →
    0 ≤ product.price.toInt ∧ 0 ≤ amount.toInt

/-- The order has the number, has not been started, and holds the entries of the
basket, each once. -/
structure OrderInfo.IsOrderOf (order : OrderInfo) (number : Int64) (basket : Basket) : Prop where
  number_eq : order.number = intText number
  status_eq : order.status = 0
  products_enumerate : basket.Enumerates order.products

theorem exactPrice_of_enumerates {basket : Basket} {entries : List (ProductInfo × Int64)}
    (h : basket.Enumerates entries) :
    basket.exactPrice = sumOfProducts (entries.map fun entry => (entry.1.price, entry.2)) := by
  unfold Basket.exactPrice sumOfProducts
  rw [h, Multiset.map_coe, Multiset.sum_coe, List.map_map, List.map_map]
  rfl

/-- The price of an order of a nonnegative basket is the exact price, and is
missing only when the exact price is out of range. -/
theorem OrderInfo.totalPrice_of_isOrderOf {order : OrderInfo} {number : Int64} {basket : Basket}
    (h : order.IsOrderOf number basket) (hnonneg : basket.NonNegative) :
    order.totalPrice = exactly basket.exactPrice := by
  have hterms : ∀ term ∈ order.products.map (fun entry => (entry.1.price, entry.2)),
      0 ≤ term.1.toInt ∧ 0 ≤ term.2.toInt := by
    intro term hterm
    obtain ⟨entry, hentry, rfl⟩ := List.mem_map.mp hterm
    exact hnonneg entry.1 entry.2 (h.products_enumerate.mem_iff.mp hentry)
  have hstart : (0 : Int64).toInt = 0 := by decide
  rw [exactPrice_of_enumerates h.products_enumerate, OrderInfo.totalPrice,
    sumTrapping_eq (le_of_eq hstart.symm) hterms, hstart, zero_add]

theorem exactPrice_nonneg {basket : Basket} {entries : List (ProductInfo × Int64)}
    (h : basket.Enumerates entries) (hnonneg : basket.NonNegative) : 0 ≤ basket.exactPrice := by
  rw [exactPrice_of_enumerates h]
  refine sumOfProducts_nonneg fun term hterm => ?_
  obtain ⟨entry, hentry, rfl⟩ := List.mem_map.mp hterm
  exact hnonneg entry.1 entry.2 (h.mem_iff.mp hentry)

namespace FirebaseHandler

/-! ## Decoding the entry -/

theorem decodeOrderProducts_stored {basket : List (ProductInfo × Int64)} (hbasket : basket ≠ [])
    (hcategorized : ∀ entry ∈ basket, entry.1.category ≠ []) :
    decodeOrderProducts (encodeItems basket).pruned = some basket := by
  have hitems : (basket.map fun entry => storedFields entry.1 entry.2).mapM decodeItem =
      some (basket.map id) := by
    rw [mapM_map]
    refine mapM_eq_some_map fun entry hentry => ?_
    rw [decodeItem_stored, if_neg (hcategorized entry hentry)]
    rfl
  simp only [decodeOrderProducts, asDictionaries_stored hbasket, Option.bind_eq_bind,
    Option.bind_some, hitems, List.map_id]

/-- The order both readers make of an entry. -/
def placedOrder (number : Int64) (restaurant : Restaurant) (basket : List (ProductInfo × Int64))
    (hash readyDate : String) : OrderInfo where
  imageURL := restaurant.image
  restaurantName := restaurant.name
  date := hash
  readyDate := readyDate
  products := basket
  number := intText number
  status := 0

theorem decodeOrderInfo_stored (number : Int64) (restaurant : Restaurant)
    (products : List (ProductInfo × Int64)) (hash readyDate : String) :
    decodeOrderInfo (orderInfoFields restaurant hash readyDate number) products =
      some (placedOrder number restaurant products hash readyDate) := by
  have hready : parseInt "0" = some 0 := by decide
  simp [decodeOrderInfo, orderInfoFields, stringField, intField, lookupField, asString, hready,
    placedOrder]

section Entry

variable (before : Json) (number : Int64) (restaurant : Restaurant)
  (basket : List (ProductInfo × Int64)) (hash readyDate : String)

theorem getOrdersEntry_orderEntry (hbasket : basket ≠ [])
    (hcategorized : ∀ entry ∈ basket, entry.1.category ≠ []) :
    getOrdersEntry (orderEntry before number restaurant basket hash readyDate) =
      some (placedOrder number restaurant basket hash readyDate) := by
  have hproducts := orderEntry_products before number restaurant basket hash readyDate
  have hinfo := orderEntry_info before number restaurant basket hash readyDate
  unfold child at hproducts hinfo
  unfold getOrdersEntry
  rw [asDictionary_of_isObject (orderEntry_isObject _ _ _ _ _ _)]
  simp only [Option.bind_eq_bind, Option.bind_some, hproducts, hinfo,
    decodeOrderProducts_stored hbasket hcategorized, asDictionary, decodeOrderInfo_stored]

theorem loadAllOrdersEntry_orderEntry [TextLibrary] (hbasket : basket ≠ [])
    (hcategorized : ∀ entry ∈ basket, entry.1.category ≠ []) :
    loadAllOrdersEntry restaurant.name
        (orderEntry before number restaurant basket hash readyDate) =
      some (some (placedOrder number restaurant basket hash readyDate)) := by
  have hproducts := orderEntry_products before number restaurant basket hash readyDate
  have hinfo := orderEntry_info before number restaurant basket hash readyDate
  have hname : stringField "name" (orderInfoFields restaurant hash readyDate number) =
      some restaurant.name := rfl
  unfold child at hproducts hinfo
  unfold loadAllOrdersEntry
  rw [asDictionary_of_isObject (orderEntry_isObject _ _ _ _ _ _)]
  simp only [Option.bind_eq_bind, Option.bind_some, hproducts, hinfo, hname, if_true,
    decodeOrderProducts_stored hbasket hcategorized, asDictionary, decodeOrderInfo_stored,
    Option.pure_def]

end Entry

/-! ## The readers after an order -/

/-- Formatting changes nothing but the dates. -/
theorem isOrderOf_of_shownAs {Date : Type} {dates : DateLibrary Date} {order shown : OrderInfo}
    (h : ShownAs dates order shown) {number : Int64} {basket : Basket}
    (horder : order.IsOrderOf number basket) : shown.IsOrderOf number basket := by
  rw [h.others]
  exact ⟨horder.number_eq, horder.status_eq, horder.products_enumerate⟩

/-- What `getOrders` collects it shows. -/
theorem exists_shown_of_mem_entries {Date : Type} {dates : DateLibrary Date} {value : Json}
    {entries shown : List OrderInfo} (hentries : getOrdersEntries value = some entries)
    (hshown : getOrdersResponse dates value = some shown) {order : OrderInfo}
    (hmem : order ∈ entries) : ∃ shownOrder ∈ shown, ShownAs dates order shownOrder := by
  unfold getOrdersResponse at hshown
  simp only [Option.bind_eq_bind, Option.bind_eq_some_iff, hentries, Option.some.injEq,
    exists_eq_left'] at hshown
  obtain ⟨sorted, hsorted, hformatted⟩ := hshown
  have hmemSorted : order ∈ sorted := (sortOrdersInfo_perm hsorted).mem_iff.mpr hmem
  obtain ⟨shownOrder, hshownOrder, hformat⟩ := exists_of_mapM_of_mem hformatted hmemSorted
  exact ⟨shownOrder, hshownOrder, formatOrderInfo_eq_some.mp hformat⟩

/-- The dates of a placed order are readings of the clock. -/
theorem readableDates_placedOrder {Date : Type} {dates : DateLibrary Date} (h : dates.Lawful)
    (number : Int64) (restaurant : Restaurant) (basket : List (ProductInfo × Int64))
    (later readyDate : Date) :
    ReadableDates dates (placedOrder number restaurant basket (getTimestamp dates later)
      (getTimestamp dates readyDate)) := by
  constructor
  · rw [placedOrder, h.parse later]
    nofun
  · rw [placedOrder, h.parse readyDate]
    nofun

section Readers

variable {database : Json} {user : String} {hash : String} {entry : Json}

/-- A written entry is met among the fields. -/
theorem mem_fields_setChild_same (json : Json) (key : String) {value : Json}
    (h : value ≠ .null) : (key, value) ∈ (json.setChild key value).fields := by
  have hchild := child_setChild_same json key value
  have hmem := mem_fields_of_child_ne_null (hchild.symm ▸ h)
  rwa [hchild] at hmem

/-- `getOrders` meets the new entry. -/
theorem mem_getOrdersEntries {orders : Json} {order : OrderInfo}
    (hentry : entry ≠ .null) (horder : getOrdersEntry entry = some order)
    {listed : List OrderInfo}
    (hlisted : getOrdersEntries (orders.setChild hash entry) = some listed) :
    order ∈ listed := by
  have hobject := isObject_setChild_of_ne_null orders hash hentry
  rw [getOrdersEntries, asDictionary_of_isObject hobject] at hlisted
  obtain ⟨found, hfound, hdecoded⟩ :=
    exists_of_mapM_of_mem hlisted (mem_fields_setChild_same orders hash hentry)
  rw [horder, Option.some.injEq] at hdecoded
  exact hdecoded ▸ hfound

/-- What `getOrders` returns contains the new order, up to the dates. -/
theorem exists_mem_getOrders {Date : Type} {dates : DateLibrary Date} {order : OrderInfo}
    (hentry : entry ≠ .null) (hread : getOrdersEntry entry = some order)
    {shown : List OrderInfo}
    (hshown : getOrders dates ⟨some user⟩ true
      (database.set ["Users", user]
        (subtreeAfterOrder (database.get ["Users", user]) hash entry)) = some (.ok shown)) :
    ∃ shownOrder ∈ shown, ShownAs dates order shownOrder := by
  obtain ⟨result, hresult, hok⟩ := Option.map_eq_some_iff.mp hshown
  rw [orders_after_order, Except.ok.inj hok] at hresult
  obtain ⟨listed, hlisted, -⟩ := Option.bind_eq_some_iff.mp hresult
  exact exists_shown_of_mem_entries hlisted hresult (mem_getOrdersEntries hentry hread hlisted)

/-- `getOrders` can read the orders if it can read each old one, and meets none but
these and the new one. -/
theorem exists_getOrdersEntries {orders : Json} {order : OrderInfo} (hentry : entry ≠ .null)
    (horder : getOrdersEntry entry = some order) {Readable : OrderInfo → Prop}
    (hnew : Readable order)
    (hold : ∀ field ∈ orders.fields, ∃ info, getOrdersEntry field.2 = some info ∧ Readable info) :
    ∃ listed, getOrdersEntries (orders.setChild hash entry) = some listed ∧
      ∀ info ∈ listed, Readable info := by
  have hobject := isObject_setChild_of_ne_null orders hash hentry
  have hall : ∀ field ∈ (orders.setChild hash entry).fields,
      ∃ info, getOrdersEntry field.2 = some info ∧ Readable info := by
    intro field hfield
    rcases mem_fields_setChild hentry hfield with rfl | hmem
    · exact ⟨order, horder, hnew⟩
    · exact hold field hmem
  have hloop : (orders.setChild hash entry).fields.mapM
      (fun field => getOrdersEntry field.2) ≠ none := by
    refine mapM_ne_none fun field hfield => ?_
    obtain ⟨info, hinfo, -⟩ := hall field hfield
    rw [hinfo]
    nofun
  obtain ⟨listed, hlisted⟩ := Option.ne_none_iff_exists'.mp hloop
  refine ⟨listed, ?_, fun info hmem => ?_⟩
  · rw [getOrdersEntries, asDictionary_of_isObject hobject]
    exact hlisted
  · obtain ⟨field, hfield, hread⟩ := exists_of_mem_of_mapM hlisted hmem
    obtain ⟨other, hother, hreadable⟩ := hall field hfield
    exact Option.some.inj (hread.symm.trans hother) ▸ hreadable

/-- `getOrders` returns after an order with readable dates, if the old orders can be
read. -/
theorem exists_getOrders {Date : Type} {dates : DateLibrary Date} {order : OrderInfo}
    (hentry : entry ≠ .null) (hread : getOrdersEntry entry = some order)
    (hdates : ReadableDates dates order)
    (hold : ∀ field ∈ (database.get (ordersPath user)).fields, CompleteOrder dates field.2) :
    ∃ shown, getOrders dates ⟨some user⟩ true (database.set ["Users", user]
      (subtreeAfterOrder (database.get ["Users", user]) hash entry)) = some (.ok shown) := by
  have hlist : ∃ listed, getOrdersEntries ((database.get (ordersPath user)).setChild hash entry) =
      some listed ∧ ∀ info ∈ listed, ReadableDates dates info :=
    exists_getOrdersEntries hentry hread hdates fun field hfield =>
      (hold field hfield).imp fun info h => ⟨getOrdersEntry_eq_some.mpr h.1, h.2⟩
  obtain ⟨listed, hlisted, hreadable⟩ := hlist
  obtain ⟨-, shown, hshown, -⟩ := getOrdersResponse_of_entries hlisted hreadable
  refine ⟨shown, ?_⟩
  rw [getOrders_eq, orders_after_order, hshown, Option.map_some]

variable [TextLibrary]

/-- What `loadAllOrders` collects of a user after an order. -/
theorem loadAllOrdersUser_after_order (restaurantName : String) (subtree : Json)
    (hentry : entry ≠ .null) :
    loadAllOrdersUser restaurantName (subtreeAfterOrder subtree hash entry) =
      (((subtree.child "orders").setChild hash entry).fields.mapM fun order =>
        loadAllOrdersEntry restaurantName order.2).map (List.filterMap id) := by
  have horders := subtreeAfterOrder_orders subtree hash entry
  unfold child at horders
  unfold loadAllOrdersUser
  rw [asDictionary_of_isObject (subtreeAfterOrder_isObject subtree hash hentry)]
  simp only [horders]
  rw [asDictionary_of_isObject (isObject_setChild_of_ne_null _ hash hentry)]
  simp only [Option.bind_eq_bind, Option.pure_def, child]
  rw [Option.map_eq_bind]
  rfl

/-- `loadAllOrders` meets the new entry. -/
theorem mem_loadAllOrders {restaurantName : String} {order : OrderInfo}
    (hentry : entry ≠ .null) (horder : loadAllOrdersEntry restaurantName entry = some (some order))
    {listed : List OrderInfo}
    (hlisted : loadAllOrders restaurantName (database.set ["Users", user]
      (subtreeAfterOrder (database.get ["Users", user]) hash entry)) = some listed) :
    order ∈ listed := by
  have hsubtree := subtreeAfterOrder_ne_null (database.get ["Users", user]) hash hentry
  have hobject := isObject_setChild_of_ne_null (database.get ["Users"]) user hsubtree
  rw [loadAllOrders, users_after_order, loadAllOrdersResponse, asDictionary_of_isObject hobject]
    at hlisted
  obtain ⟨found, hfound, hflatten⟩ := Option.bind_eq_some_iff.mp hlisted
  obtain ⟨ofUser, hofUser, hcollected⟩ :=
    exists_of_mapM_of_mem hfound (mem_fields_setChild_same _ user hsubtree)
  rw [loadAllOrdersUser_after_order restaurantName _ hentry] at hcollected
  obtain ⟨results, hresults, hfilter⟩ := Option.map_eq_some_iff.mp hcollected
  obtain ⟨result, hresult, hdecoded⟩ :=
    exists_of_mapM_of_mem hresults (mem_fields_setChild_same _ hash hentry)
  rw [horder, Option.some.injEq] at hdecoded
  rw [Option.pure_def, Option.some.injEq] at hflatten
  rw [← hflatten, List.mem_flatten]
  refine ⟨ofUser, hofUser, ?_⟩
  rw [← hfilter, List.mem_filterMap]
  exact ⟨some order, hdecoded ▸ hresult, rfl⟩

/-- `loadAllOrders` can read the database if it can read every user before the
order and each old order of this user. -/
theorem loadAllOrders_ne_none {restaurantName : String} (hentry : entry ≠ .null)
    (horder : loadAllOrdersEntry restaurantName entry ≠ none)
    (hold : ∀ field ∈ (database.get (ordersPath user)).fields,
      loadAllOrdersEntry restaurantName field.2 ≠ none)
    (husers : ∀ field ∈ (database.get ["Users"]).fields,
      loadAllOrdersUser restaurantName field.2 ≠ none) :
    loadAllOrders restaurantName (database.set ["Users", user]
      (subtreeAfterOrder (database.get ["Users", user]) hash entry)) ≠ none := by
  have hsubtree := subtreeAfterOrder_ne_null (database.get ["Users", user]) hash hentry
  have hobject := isObject_setChild_of_ne_null (database.get ["Users"]) user hsubtree
  have horders : database.get (ordersPath user) = (database.get ["Users", user]).child "orders" :=
    get_append database ["Users", user] ["orders"]
  rw [horders] at hold
  have hloop : ((database.get ["Users"]).setChild user
      (subtreeAfterOrder (database.get ["Users", user]) hash entry)).fields.mapM
        (fun field => loadAllOrdersUser restaurantName field.2) ≠ none := by
    refine mapM_ne_none fun field hfield => ?_
    rcases mem_fields_setChild hsubtree hfield with rfl | hmem
    · rw [loadAllOrdersUser_after_order restaurantName _ hentry, ne_eq, Option.map_eq_none_iff]
      refine mapM_ne_none fun order hmem => ?_
      rcases mem_fields_setChild hentry hmem with rfl | hmemOld
      · exact horder
      · exact hold order hmemOld
    · exact husers field hmem
  obtain ⟨found, hfound⟩ := Option.ne_none_iff_exists'.mp hloop
  rw [loadAllOrders, users_after_order, loadAllOrdersResponse, asDictionary_of_isObject hobject]
  simp [hfound]

end Readers

/-! ## The round trip -/

/-- After an order was placed from a basket, in whatever order its entries were
met, both readers decode the entry to one order: the number, status 0, and the
entries of the basket; its price is the exact price, and is missing only when
that exceeds the largest integer.  `getOrders` returns, and shows the order, if the
user's old orders can be read; `loadAllOrders` returns, and has found the order, if
it can read what was stored before.  No list they return lacks it. -/
theorem readers_after_makeOrder [TextLibrary] {Date : Type} (dates : DateLibrary Date)
    (user : String) (database : Json) {number : Int64} {restaurants : List Restaurant}
    {restaurant : Restaurant} {basket : Basket} {entries : List (ProductInfo × Int64)}
    {now later : Date} {writes : List Write} (hentries : basket.Enumerates entries)
    (hcategorized : basket.Categorized)
    (hrestaurant : orderRestaurant restaurants entries = some restaurant)
    (hmake : makeOrderResponse dates user number restaurants entries now later = some writes) :
    let after := Write.applyAll database writes
    let entry := after.get (orderPath user (getTimestamp dates later))
    ∃ order, getOrdersEntry entry = some order ∧
      loadAllOrdersEntry restaurant.name entry = some (some order) ∧
      order.IsOrderOf number basket ∧
      (basket.NonNegative →
        (∀ total, order.totalPrice = some total → total.toInt = basket.exactPrice) ∧
        (order.totalPrice = none → 2 ^ 63 - 1 < basket.exactPrice)) ∧
      (∀ shown, getOrders dates ⟨some user⟩ true after = some (.ok shown) →
        ∃ shownOrder ∈ shown,
          ShownAs dates order shownOrder ∧ shownOrder.IsOrderOf number basket) ∧
      (∀ collected, loadAllOrders restaurant.name after = some collected → order ∈ collected) ∧
      (dates.Lawful →
        (∀ old ∈ (database.get (ordersPath user)).fields, CompleteOrder dates old.2) →
        ∃ shown, getOrders dates ⟨some user⟩ true after = some (.ok shown)) ∧
      ((∀ old ∈ (database.get (ordersPath user)).fields,
          loadAllOrdersEntry restaurant.name old.2 ≠ none) →
        (∀ other ∈ (database.get ["Users"]).fields,
          loadAllOrdersUser restaurant.name other.2 ≠ none) →
        ∃ collected, loadAllOrders restaurant.name after = some collected) := by
  intro after entry
  obtain ⟨chosen, readyDate, hchosen, -, rfl⟩ := orderWrites_of_makeOrderResponse hmake
  rw [hrestaurant, Option.some.injEq] at hchosen
  subst hchosen
  have hnonempty := ne_nil_of_orderRestaurant hrestaurant
  have hcategories : ∀ e ∈ entries, e.1.category ≠ [] := by
    intro e he
    exact hcategorized e.1 (hentries.key_mem he)
  have hafter := applyAll_orderWrites database user number restaurant entries
    (getTimestamp dates later) (getTimestamp dates readyDate) hnonempty
  have hentry : entry = orderEntry (database.get (orderPath user (getTimestamp dates later)))
      number restaurant entries (getTimestamp dates later) (getTimestamp dates readyDate) := by
    simp only [entry, after]
    rw [hafter, orderPath_after_order]
  have hne : orderEntry (database.get (orderPath user (getTimestamp dates later))) number
      restaurant entries (getTimestamp dates later) (getTimestamp dates readyDate) ≠ .null :=
    orderEntry_ne_null _ _ _ _ _ _
  have hread := getOrdersEntry_orderEntry
    (database.get (orderPath user (getTimestamp dates later))) number restaurant entries
    (getTimestamp dates later) (getTimestamp dates readyDate) hnonempty hcategories
  have hkitchen := loadAllOrdersEntry_orderEntry
    (database.get (orderPath user (getTimestamp dates later))) number restaurant entries
    (getTimestamp dates later) (getTimestamp dates readyDate) hnonempty hcategories
  have horder : (placedOrder number restaurant entries (getTimestamp dates later)
      (getTimestamp dates readyDate)).IsOrderOf number basket := ⟨rfl, rfl, hentries⟩
  rw [hentry]
  simp only [after]
  rw [hafter]
  refine ⟨_, hread, hkitchen, horder, ?_, ?_, ?_, ?_, ?_⟩
  · intro hnonneg
    rw [OrderInfo.totalPrice_of_isOrderOf horder hnonneg]
    refine ⟨fun total htotal => exactly_eq_some.mp htotal, fun hnone => ?_⟩
    have hprice := exactPrice_nonneg hentries hnonneg
    rcases exactly_eq_none.mp hnone with hlow | hhigh <;> omega
  · intro shown hshown
    obtain ⟨shownOrder, hmem, hshownAs⟩ := exists_mem_getOrders hne hread hshown
    exact ⟨shownOrder, hmem, hshownAs, isOrderOf_of_shownAs hshownAs horder⟩
  · intro collected hcollected
    exact mem_loadAllOrders hne hkitchen hcollected
  · intro hlawful hold
    exact exists_getOrders hne hread
      (readableDates_placedOrder hlawful number restaurant entries later readyDate) hold
  · intro hold husers
    have hloaded : loadAllOrdersEntry restaurant.name _ ≠ none :=
      hkitchen ▸ Option.some_ne_none _
    exact Option.ne_none_iff_exists'.mp (loadAllOrders_ne_none hne hloaded hold husers)

theorem readers_after_makeOrder_sample :
    ∃ writes, makeOrderResponse utcDates "user@mail" 17 [sampleRestaurant] sampleBasket 6294876000
        6294876005 = some writes ∧
      (∃ shown, getOrders utcDates ⟨some "user@mail"⟩ true
          (Write.applyAll sampleDatabase writes) = some (.ok shown) ∧
        ∃ order ∈ shown, order.IsOrderOf 17 (Dictionary.ofEntries sampleBasket)) ∧
      ∃ collected, loadAllOrders "Groot" (Write.applyAll sampleDatabase writes) =
          some collected ∧
        ∃ order ∈ collected, order.IsOrderOf 17 (Dictionary.ofEntries sampleBasket) := by
  obtain ⟨order, -, -, horder, -, hshows, hcollects, hgetOrders, hloadAllOrders⟩ :=
    readers_after_makeOrder utcDates "user@mail" sampleDatabase sampleBasket_enumerated
      sampleBasket_categorized
      (show orderRestaurant [sampleRestaurant] sampleBasket = some sampleRestaurant by decide)
      (show makeOrderResponse utcDates "user@mail" 17 [sampleRestaurant] sampleBasket 6294876000
        6294876005 = some _ from rfl)
  obtain ⟨shown, hshown⟩ := hgetOrders utcDates_lawful nofun
  obtain ⟨collected, hcollected⟩ := hloadAllOrders nofun
    (List.forall_mem_singleton.mpr (by decide))
  obtain ⟨shownOrder, hmem, -, hshownOrder⟩ := hshows shown hshown
  exact ⟨_, rfl, ⟨shown, hshown, shownOrder, hmem, hshownOrder⟩, collected, hcollected, order,
    hcollects collected hcollected, horder⟩

end FirebaseHandler

end QFree
