/-
  Networking/OrderAtomicity.lean --- an order cut short between its writes.

  The three writes of `makeOrder` are separate, so another client can read, and
  this one can stop, after any number of them.  `allOrNothing_after_writes` says
  after which of them the database is, where the order writes, as it was before or
  as it is after the whole order, and what the readers return at each cut:

      no write       what they returned before
      the products   `getOrders` traps, `loadAllOrders` skips the entry
      the info       both have the order, and `getBasket` still has the basket
      all three      both have the order, and the basket is empty

  `getOrders` forces both halves of every entry; `loadAllOrders` looks at `info`
  first and skips an entry without it.
-/
import QFree.Networking.OrderRoundTrip

set_option autoImplicit false

namespace QFree.FirebaseHandler

open QFree.Foundation QFree.Foundation.Json

/-! ## Where an order writes -/

/-- The two halves of an order's entry, and the basket. -/
structure OrderPlaces where
  products : Json
  info : Json
  basket : Json

/-- What the database holds where the order writes. -/
def orderPlaces (database : Json) (user hash : String) : OrderPlaces where
  products := (database.get (orderPath user hash)).child "products"
  info := (database.get (orderPath user hash)).child "info"
  basket := database.get (basketPath user)

/-- Where the order writes, the database is as before the order or as after it. -/
def AllOrNothing (before after database : Json) (user hash : String) : Prop :=
  orderPlaces database user hash = orderPlaces before user hash ∨
    orderPlaces database user hash = orderPlaces after user hash

/-- The products of the order are stored under its key. -/
def StoresProducts (database : Json) (user hash : String)
    (basket : List (ProductInfo × Int64)) : Prop :=
  (database.get (orderPath user hash)).child "products" = (encodeItems basket).pruned

/-- The info of the order is stored under its key. -/
def StoresInfo (database : Json) (user hash : String) (restaurant : Restaurant)
    (readyDate : String) (number : Int64) : Prop :=
  (database.get (orderPath user hash)).child "info" =
    .object (orderInfoFields restaurant hash readyDate number)

/-- A write to the orders leaves the basket as it was. -/
theorem basket_after_entry (database : Json) (user hash : String) (entry : Json) :
    (database.set (orderPath user hash) entry).get (basketPath user) =
      database.get (basketPath user) :=
  get_set_of_ne database ["Users", user] (by decide) [hash] [] entry

section Places

variable (database : Json) (user : String) (number : Int64) (restaurant : Restaurant)
  (basket : List (ProductInfo × Int64)) (hash readyDate : String)

theorem orderPlaces_after_products :
    orderPlaces (Write.applyAll database
        ((orderWrites user number restaurant basket hash readyDate).take 1)) user hash =
      { orderPlaces database user hash with products := (encodeItems basket).pruned } := by
  rw [applyAll_productsWrite, orderPlaces, get_set_same, basket_after_entry,
    productsEntry_products, productsEntry_info]
  rfl

theorem orderPlaces_after_info (hbasket : basket ≠ []) :
    orderPlaces (Write.applyAll database
        ((orderWrites user number restaurant basket hash readyDate).take 2)) user hash =
      { products := (encodeItems basket).pruned
        info := .object (orderInfoFields restaurant hash readyDate number)
        basket := database.get (basketPath user) } := by
  rw [applyAll_infoWrite _ _ _ _ _ _ _ hbasket, orderPlaces, get_set_same, basket_after_entry,
    orderEntry_products, orderEntry_info]

theorem orderPlaces_after_writes (hbasket : basket ≠ []) :
    orderPlaces (Write.applyAll database
        (orderWrites user number restaurant basket hash readyDate)) user hash =
      { products := (encodeItems basket).pruned
        info := .object (orderInfoFields restaurant hash readyDate number)
        basket := .null } := by
  rw [applyAll_orderWrites _ _ _ _ _ _ _ hbasket, orderPlaces, orderPath_after_order,
    basketPath_after_order, orderEntry_products, orderEntry_info]

theorem take_orderWrites (k : Nat) :
    (orderWrites user number restaurant basket hash readyDate).take (k + 3) =
      orderWrites user number restaurant basket hash readyDate :=
  List.take_of_length_le (Nat.le_add_left 3 k)

/-- The cuts at which the order is all or nothing. -/
theorem allOrNothing_take_iff (hbasket : basket ≠ []) (k : Nat) :
    let writes := orderWrites user number restaurant basket hash readyDate
    AllOrNothing database (Write.applyAll database writes)
        (Write.applyAll database (writes.take k)) user hash ↔
      k = 0 ∨ 3 ≤ k ∨
      k = 1 ∧ (StoresProducts database user hash basket ∨
        StoresInfo database user hash restaurant readyDate number ∧
          database.get (basketPath user) = .null) ∨
      k = 2 ∧ (StoresProducts database user hash basket ∧
          StoresInfo database user hash restaurant readyDate number ∨
        database.get (basketPath user) = .null) := by
  intro writes
  have hafter := orderPlaces_after_writes database user number restaurant basket hash readyDate
    hbasket
  match k with
  | 0 => exact iff_of_true (.inl rfl) (.inl rfl)
  | 1 =>
      rw [AllOrNothing, hafter, orderPlaces_after_products]
      simp [orderPlaces, StoresProducts, StoresInfo, eq_comm]
  | 2 =>
      rw [AllOrNothing, hafter, orderPlaces_after_info _ _ _ _ _ _ _ hbasket]
      simp [orderPlaces, StoresProducts, StoresInfo, eq_comm]
  | k + 3 =>
      simp only [writes, take_orderWrites]
      exact iff_of_true (.inr rfl) (.inr (.inl (Nat.le_add_left 3 k)))

end Places

/-! ## An entry without info -/

/-- An entry without info makes `getOrders` trap. -/
theorem getOrdersEntry_without_info {entry : Json} (h : entry.child "info" = .null) :
    getOrdersEntry entry = none := by
  unfold getOrdersEntry
  cases hentry : asDictionary entry with
  | none => rfl
  | some orders =>
      have hinfo : lookupField "info" orders = .null := by
        cases entry with
        | object fields =>
            rw [asDictionary, Option.some.injEq] at hentry
            exact hentry ▸ h
        | _ => cases hentry
      cases hproducts : decodeOrderProducts (lookupField "products" orders) <;>
        simp [hproducts, hinfo, asDictionary]

/-- The same entry is skipped by `loadAllOrders`. -/
theorem loadAllOrdersEntry_without_info [TextLibrary] (restaurantName : String) {entry : Json}
    (h : entry.child "info" = .null) : loadAllOrdersEntry restaurantName entry = some none := by
  unfold loadAllOrdersEntry
  cases entry with
  | object fields =>
      have hinfo : lookupField "info" fields = .null := h
      simp only [asDictionary, hinfo]
  | _ => rfl

/-- With an entry without info among the orders every `getOrders` traps, whatever
else is stored. -/
theorem getOrdersResponse_without_info {Date : Type} (dates : DateLibrary Date) (orders : Json)
    (hash : String) {entry : Json} (hentry : entry ≠ .null) (h : entry.child "info" = .null) :
    getOrdersResponse dates (orders.setChild hash entry) = none := by
  rw [getOrdersResponse]
  cases hlisted : getOrdersEntries (orders.setChild hash entry) with
  | none => rfl
  | some listed =>
      rw [getOrdersEntries,
        asDictionary_of_isObject (isObject_setChild_of_ne_null _ hash hentry)] at hlisted
      obtain ⟨order, -, hdecoded⟩ :=
        exists_of_mapM_of_mem hlisted (mem_fields_setChild_same _ hash hentry)
      rw [getOrdersEntry_without_info h] at hdecoded
      cases hdecoded

/-! ## One more entry -/

/-- The user's orders, and what is above them, are dictionaries or absent. -/
structure OrdersShape (database : Json) (user : String) : Prop where
  users : database.get ["Users"] = .null ∨ (database.get ["Users"]).IsObject
  subtree : database.get ["Users", user] = .null ∨ (database.get ["Users", user]).IsObject
  orders : database.get (ordersPath user) = .null ∨ (database.get (ordersPath user)).IsObject

/-- An entry under a new key comes last. -/
theorem fields_setChild_of_new {json : Json} {key : String} {value : Json}
    (hvalue : value ≠ .null) (hnew : key ∉ json.fields.map Prod.fst) :
    (json.setChild key value).fields = json.fields ++ [(key, value)] := by
  rw [setChild_of_ne_null json key hvalue]
  have happend : ∀ list : List (String × Json), key ∉ list.map Prod.fst →
      updateField key value list = list ++ [(key, value)] := by
    intro list hlist
    induction list with
    | nil => rfl
    | cons field rest ih =>
        rw [List.map_cons, List.mem_cons, not_or] at hlist
        rw [updateField, if_neg (Ne.symm hlist.1), ih hlist.2, List.cons_append]
  exact happend json.fields hnew

theorem mapM_append_singleton {α β : Type} {f : α → Option β} {list : List α} {results : List β}
    {x : α} {y : β} (h : list.mapM f = some results) (hx : f x = some y) :
    (list ++ [x]).mapM f = some (results ++ [y]) := by
  rw [List.mapM_append, h, Option.bind_eq_bind, Option.bind_some,
    mapM_cons_eq_some.mpr ⟨y, [], hx, rfl, rfl⟩]
  rfl

section MoreOrders

variable {orders : Json} {hash : String} {entry : Json}

/-- `getOrders` shows one more order beside the others. -/
theorem getOrdersResponse_setChild {Date : Type} {dates : DateLibrary Date} {order : OrderInfo}
    (hshape : orders = .null ∨ orders.IsObject) (hnew : hash ∉ orders.fields.map Prod.fst)
    (hentry : entry ≠ .null) (hread : getOrdersEntry entry = some order)
    (hdates : ReadableDates dates order) {old : List OrderInfo}
    (hold : getOrdersResponse dates orders = some old) :
    ∃ this shown, ShownAs dates order this ∧
      getOrdersResponse dates (orders.setChild hash entry) = some shown ∧
      shown.Perm (this :: old) := by
  obtain ⟨listed, hlisted, hrest⟩ := Option.bind_eq_some_iff.mp hold
  obtain ⟨sorted, hsorted, hformatted⟩ := Option.bind_eq_some_iff.mp hrest
  have hsortedPerm := sortOrdersInfo_perm hsorted
  have hloop : orders.fields.mapM (fun field => getOrdersEntry field.2) = some listed := by
    rcases hshape with rfl | hobject
    · exact hlisted
    · rwa [getOrdersEntries, asDictionary_of_isObject hobject] at hlisted
  have hentries : getOrdersEntries (orders.setChild hash entry) = some (listed ++ [order]) := by
    rw [getOrdersEntries, asDictionary_of_isObject (isObject_setChild_of_ne_null _ hash hentry)]
    dsimp only
    rw [fields_setChild_of_new hentry hnew]
    exact mapM_append_singleton hloop hread
  have hreadable : ∀ info ∈ listed ++ [order], ReadableDates dates info := by
    intro info hinfo
    rcases List.mem_append.mp hinfo with hmem | hlast
    · obtain ⟨shownInfo, -, hshown⟩ :=
        exists_of_mapM_of_mem hformatted (hsortedPerm.mem_iff.mpr hmem)
      exact readableDates_of_format hshown
    · exact List.mem_singleton.mp hlast ▸ hdates
  obtain ⟨newSorted, shown, hshown, hperm, hforall⟩ :=
    getOrdersResponse_of_entries hentries hreadable
  obtain ⟨this, hthis⟩ := Option.ne_none_iff_exists'.mp (formatOrderInfo_ne_none hdates)
  have hnewPerm : newSorted.Perm (order :: sorted) :=
    hperm.trans (List.perm_append_comm.trans (hsortedPerm.symm.cons order))
  have hall : (order :: sorted).mapM (formatOrderInfo dates) = some (this :: old) :=
    mapM_cons_eq_some.mpr ⟨this, old, hthis, hformatted, rfl⟩
  obtain ⟨rearranged, hrearranged, hrearrangedPerm⟩ := mapM_perm hnewPerm.symm hall
  have hsame : newSorted.mapM (formatOrderInfo dates) = some shown := by
    rw [mapM_eq_some_iff_forall₂]
    simpa only [formatOrderInfo_eq_some] using hforall
  obtain rfl := Option.some.inj (hrearranged.symm.trans hsame)
  exact ⟨this, rearranged, formatOrderInfo_eq_some.mp hthis, hshown, hrearrangedPerm⟩

variable [TextLibrary] {restaurantName : String}

theorem loadAllOrdersUser_of_shape {subtree : Json} (hsubtree : subtree = .null ∨ subtree.IsObject)
    (horders : subtree.child "orders" = .null ∨ (subtree.child "orders").IsObject) :
    loadAllOrdersUser restaurantName subtree =
      ((subtree.child "orders").fields.mapM fun order =>
        loadAllOrdersEntry restaurantName order.2).map (List.filterMap id) := by
  rcases hsubtree with rfl | ⟨fields, rfl⟩
  · rfl
  · rw [child_object] at horders ⊢
    simp only [loadAllOrdersUser, asDictionary]
    rcases horders with hnull | ⟨orders, hobject⟩
    · rw [hnull]
      rfl
    · rw [hobject, Option.map_eq_bind]
      rfl

theorem loadAllOrders_of_shape {database : Json}
    (husers : database.get ["Users"] = .null ∨ (database.get ["Users"]).IsObject) :
    loadAllOrders restaurantName database =
      ((database.get ["Users"]).fields.mapM fun user =>
        loadAllOrdersUser restaurantName user.2).map List.flatten := by
  rw [loadAllOrders, loadAllOrdersResponse]
  rcases husers with hnull | hobject
  · rw [hnull]
    rfl
  · rw [asDictionary_of_isObject hobject, Option.map_eq_bind]
    rfl

/-- What `loadAllOrders` collects of a user with one more entry. -/
theorem loadAllOrdersUser_setChild {subtree changed : Json}
    (hsubtree : subtree = .null ∨ subtree.IsObject)
    (horders : subtree.child "orders" = .null ∨ (subtree.child "orders").IsObject)
    (hnew : hash ∉ (subtree.child "orders").fields.map Prod.fst) (hchanged : changed.IsObject)
    (hchild : changed.child "orders" = (subtree.child "orders").setChild hash entry)
    (hentry : entry ≠ .null) {found : Option OrderInfo}
    (hfound : loadAllOrdersEntry restaurantName entry = some found) {old : List OrderInfo}
    (hold : loadAllOrdersUser restaurantName subtree = some old) :
    loadAllOrdersUser restaurantName changed = some (old ++ found.toList) := by
  rw [loadAllOrdersUser_of_shape hsubtree horders] at hold
  obtain ⟨results, hresults, rfl⟩ := Option.map_eq_some_iff.mp hold
  have hobject : ((subtree.child "orders").setChild hash entry).IsObject :=
    isObject_setChild_of_ne_null _ hash hentry
  rw [loadAllOrdersUser_of_shape (.inr hchanged) (hchild ▸ .inr hobject), hchild,
    fields_setChild_of_new hentry hnew, mapM_append_singleton hresults hfound, Option.map_some,
    List.filterMap_append]
  cases found <;> rfl

/-- What `loadAllOrders` returns after one user's orders got one more entry. -/
theorem loadAllOrders_setUser {database changed : Json} {user : String}
    (hshape : OrdersShape database user)
    (hnew : hash ∉ (database.get (ordersPath user)).fields.map Prod.fst)
    (hchanged : changed.IsObject)
    (hchild : changed.child "orders" =
      ((database.get ["Users", user]).child "orders").setChild hash entry)
    (hentry : entry ≠ .null) {found : Option OrderInfo}
    (hfound : loadAllOrdersEntry restaurantName entry = some found) {old : List OrderInfo}
    (hold : loadAllOrders restaurantName database = some old) :
    ∃ collected, loadAllOrders restaurantName (database.set ["Users", user] changed) =
        some collected ∧ collected.Perm (found.toList ++ old) := by
  have horders : database.get (ordersPath user) = (database.get ["Users", user]).child "orders" :=
    get_append database ["Users", user] ["orders"]
  have hsubtree : database.get ["Users", user] = (database.get ["Users"]).child user :=
    get_append database ["Users"] [user]
  have hne : changed ≠ .null := by
    obtain ⟨fields, rfl⟩ := hchanged
    nofun
  have hreads : ∀ {ofUser : List OrderInfo},
      loadAllOrdersUser restaurantName (database.get ["Users", user]) = some ofUser →
        loadAllOrdersUser restaurantName changed = some (ofUser ++ found.toList) :=
    fun h => loadAllOrdersUser_setChild hshape.subtree (horders ▸ hshape.orders) (horders ▸ hnew)
      hchanged hchild hentry hfound h
  have husers : (database.set ["Users", user] changed).get ["Users"] =
      .object (updateField user changed (database.get ["Users"]).fields) :=
    (get_set_below database ["Users"] [user] changed).trans (setChild_of_ne_null _ user hne)
  rw [loadAllOrders_of_shape hshape.users] at hold
  obtain ⟨results, hresults, rfl⟩ := Option.map_eq_some_iff.mp hold
  rw [loadAllOrders_of_shape (.inr ⟨_, husers⟩), husers, fields]
  obtain ⟨front, back, hloop, hcases⟩ := mapM_updateField user changed hresults
  rcases hcases with ⟨hnull, rfl⟩ | ⟨ofUser, hofUser, rfl⟩
  · -- the user had no subtree
    have habsent : database.get ["Users", user] = .null := hsubtree.trans hnull
    have hnone : loadAllOrdersUser restaurantName (database.get ["Users", user]) = some [] := by
      rw [habsent]
      rfl
    rw [hloop _ (hreads hnone)]
    refine ⟨_, rfl, ?_⟩
    simp only [List.flatten_append, List.flatten_cons, List.nil_append]
    exact List.perm_append_comm_assoc _ _ _
  · have hown : loadAllOrdersUser restaurantName (database.get ["Users", user]) = some ofUser := by
      rw [hsubtree]
      exact hofUser
    rw [hloop _ (hreads hown)]
    refine ⟨_, rfl, ?_⟩
    simp only [List.flatten_append, List.flatten_cons, List.append_assoc]
    refine List.Perm.trans ?_ (List.perm_append_comm_assoc _ _ _)
    exact (List.perm_append_comm_assoc _ _ _).append_left _

end MoreOrders

/-! ## The readers at each cut -/

/-- What readers on other clients return at the cut after `k` writes of an order, by
what they return before it. -/
structure ReadersAtCut [TextLibrary] {Date : Type} (dates : DateLibrary Date) (user : String)
    (order : OrderInfo) (before : Json) (k : Nat) (cut : Json) : Prop where
  unchanged : k = 0 → cut = before
  torn : k = 1 → getOrders dates ⟨some user⟩ true cut = none
  shown : 2 ≤ k → ∀ old, getOrders dates ⟨some user⟩ true before = some (.ok old) →
    ∃ this shown, ShownAs dates order this ∧
      getOrders dates ⟨some user⟩ true cut = some (.ok shown) ∧ shown.Perm (this :: old)
  others : ∀ other ≠ user,
    getOrders dates ⟨some other⟩ true cut = getOrders dates ⟨some other⟩ true before
  collected : ∀ restaurantName old, loadAllOrders restaurantName before = some old →
    ∃ collected, loadAllOrders restaurantName cut = some collected ∧
      collected.Perm (if 2 ≤ k ∧ SameText order.restaurantName restaurantName then order :: old
        else old)
  basket : getBasket ⟨some user⟩ true cut =
    if k < 3 then getBasket ⟨some user⟩ true before else some (.ok ∅)

/-- A new value of the user's subtree is none of the other users' business. -/
theorem getOrders_of_other {Date : Type} (dates : DateLibrary Date) (database : Json)
    {user other : String} (hother : other ≠ user) (changed : Json) :
    getOrders dates ⟨some other⟩ true (database.set ["Users", user] changed) =
      getOrders dates ⟨some other⟩ true database := by
  have hsame : (database.set ["Users", user] changed).get (ordersPath other) =
      database.get (ordersPath other) :=
    get_set_of_ne database ["Users"] hother [] ["orders"] changed
  rw [getOrders_eq, getOrders_eq, hsame]

section Cuts

variable [TextLibrary] {Date : Type} {dates : DateLibrary Date} {database : Json} {user : String}
  {hash : String} {order : OrderInfo}

/-- The readers at a cut after which the user's subtree has one more entry. -/
theorem readersAtCut_of_entry (hshape : OrdersShape database user)
    (hnew : hash ∉ (database.get (ordersPath user)).fields.map Prod.fst) {k : Nat} (hk : 0 < k)
    {changed entry : Json} (hchanged : changed.IsObject)
    (hchild : changed.child "orders" =
      ((database.get ["Users", user]).child "orders").setChild hash entry)
    (hentry : entry ≠ .null) (htorn : k = 1 → entry.child "info" = .null)
    (hread : 2 ≤ k → getOrdersEntry entry = some order) (hdates : ReadableDates dates order)
    (hbasket : changed.child "basket" =
      if k < 3 then database.get (basketPath user) else .null) :
    ReadersAtCut dates user order database k (database.set ["Users", user] changed) := by
  have horders : (database.set ["Users", user] changed).get (ordersPath user) =
      (database.get (ordersPath user)).setChild hash entry := by
    rw [show (database.set ["Users", user] changed).get (ordersPath user) =
      changed.child "orders" from get_set_append database ["Users", user] ["orders"] changed,
      hchild]
    exact congrArg (fun orders => setChild orders hash entry)
      (get_append database ["Users", user] ["orders"]).symm
  refine ⟨fun hzero => absurd hzero (by omega), fun hone => ?_, fun htwo old hold => ?_,
    fun other hother => getOrders_of_other dates database hother changed,
    fun restaurantName old hold => ?_, ?_⟩
  · rw [getOrders_eq, horders, getOrdersResponse_without_info dates _ hash hentry (htorn hone)]
    rfl
  · obtain ⟨result, hresult, hok⟩ := Option.map_eq_some_iff.mp hold
    obtain rfl := Except.ok.inj hok
    obtain ⟨this, shown, hthis, hshown, hperm⟩ :=
      getOrdersResponse_setChild hshape.orders hnew hentry (hread htwo) hdates hresult
    refine ⟨this, shown, hthis, ?_, hperm⟩
    rw [getOrders_eq, horders, hshown]
    rfl
  · rcases Nat.lt_or_ge k 2 with hone | htwo
    · rw [if_neg (by omega)]
      exact loadAllOrders_setUser hshape hnew hchanged hchild hentry
        (loadAllOrdersEntry_without_info restaurantName (htorn (by omega))) hold
    · have hfound := loadAllOrdersEntry_of_record restaurantName
        (getOrdersEntry_eq_some.mp (hread htwo))
      obtain ⟨collected, hcollected, hperm⟩ :=
        loadAllOrders_setUser hshape hnew hchanged hchild hentry hfound hold
      refine ⟨collected, hcollected, ?_⟩
      by_cases hname : SameText order.restaurantName restaurantName
      · rw [if_pos ⟨htwo, hname⟩]
        rwa [if_pos hname] at hperm
      · rw [if_neg fun h => hname h.2]
        rwa [if_neg hname] at hperm
  · rw [getBasket_eq, getBasket_eq,
      show (database.set ["Users", user] changed).get (basketPath user) = changed.child "basket"
        from get_set_append database ["Users", user] ["basket"] changed, hbasket]
    split
    · rfl
    · rfl

/-- The readers at each cut of an order under a new key. -/
theorem readersAtCut_take (hlawful : dates.Lawful) (hshape : OrdersShape database user)
    (number : Int64) (restaurant : Restaurant) {basket : List (ProductInfo × Int64)}
    (hbasket : basket ≠ []) (hcategories : ∀ entry ∈ basket, entry.1.category ≠ [])
    (later readyDate : Date)
    (hnew : getTimestamp dates later ∉ (database.get (ordersPath user)).fields.map Prod.fst)
    (k : Nat) :
    let hash := getTimestamp dates later
    let ready := getTimestamp dates readyDate
    ReadersAtCut dates user (placedOrder number restaurant basket hash ready) database k
      (Write.applyAll database
        ((orderWrites user number restaurant basket hash ready).take k)) := by
  intro hash ready
  have habsent : database.get (orderPath user hash) = .null := by
    rw [show database.get (orderPath user hash) = (database.get (ordersPath user)).child hash from
      get_append database (ordersPath user) [hash]]
    by_contra hne
    exact hnew (List.mem_map_of_mem (mem_fields_of_child_ne_null hne))
  have hdates := readableDates_placedOrder hlawful number restaurant basket later readyDate
  have hread := getOrdersEntry_orderEntry .null number restaurant basket hash ready hbasket
    hcategories
  have hne := orderEntry_ne_null .null number restaurant basket hash ready
  have hchild : ∀ entry : Json,
      ((database.get ["Users", user]).set ["orders", hash] entry).child "orders" =
        ((database.get ["Users", user]).child "orders").setChild hash entry :=
    fun entry => child_setChild_same _ "orders" _
  have hobject : ∀ {entry : Json}, entry ≠ .null →
      ((database.get ["Users", user]).set ["orders", hash] entry).IsObject :=
    fun hentry => isObject_setChild_of_ne_null _ "orders" (set_ne_null _ [hash] hentry)
  have hkept : ∀ entry : Json,
      ((database.get ["Users", user]).set ["orders", hash] entry).child "basket" =
        database.get (basketPath user) :=
    fun entry => (child_setChild_of_ne _ (by decide) _).trans
      (get_append database ["Users", user] ["basket"]).symm
  match k with
  | 0 =>
      refine ⟨fun _ => rfl, nofun, fun hle => absurd hle (by omega), fun _ _ => rfl,
        fun restaurantName old hold => ⟨old, hold, ?_⟩, rfl⟩
      rw [if_neg (by omega)]
  | 1 =>
      have hproducts : productsEntry .null basket ≠ .null := by
        apply ne_null_of_child_ne_null "products"
        rw [productsEntry_products]
        exact fun h => hbasket (pruned_encodeItems_eq_null.mp h)
      rw [applyAll_productsWrite, habsent,
        show database.set (orderPath user hash) (productsEntry .null basket) = _ from
          set_append database ["Users", user] ["orders", hash] _]
      exact readersAtCut_of_entry hshape hnew Nat.one_pos (hobject hproducts) (hchild _) hproducts
        (fun _ => productsEntry_info .null basket) (fun hle => absurd hle (by omega)) hdates
        (hkept _)
  | 2 =>
      rw [applyAll_infoWrite _ _ _ _ _ _ _ hbasket, habsent,
        show database.set (orderPath user hash) _ = _ from
          set_append database ["Users", user] ["orders", hash] _]
      exact readersAtCut_of_entry hshape hnew Nat.two_pos (hobject hne) (hchild _) hne nofun
        (fun _ => hread) hdates (hkept _)
  | k + 3 =>
      rw [take_orderWrites, applyAll_orderWrites _ _ _ _ _ _ _ hbasket, habsent]
      refine readersAtCut_of_entry hshape hnew (Nat.succ_pos _)
        (subtreeAfterOrder_isObject _ hash hne) (subtreeAfterOrder_orders _ hash _) hne
        (fun hone => absurd hone (by omega)) (fun _ => hread) hdates ?_
      rw [subtreeAfterOrder_basket, if_neg (by omega)]

end Cuts

/-! ## All or nothing -/

/-- After the first `k` writes of an order the database is, where the order writes, as
before it or as after it, exactly when none or all of them were made or the rest of
them changes nothing.  If no entry has the key of the order, `getOrders` traps after
the first write, shows the order from the second one on, and `loadAllOrders` has found
it from then on, while the basket is there until the third. -/
theorem allOrNothing_after_writes [TextLibrary] {Date : Type} (dates : DateLibrary Date)
    (user : String) (database : Json) {number : Int64} {restaurants : List Restaurant}
    {restaurant : Restaurant} {basket : List (ProductInfo × Int64)} {now later readyDate : Date}
    {writes : List Write} (hrestaurant : orderRestaurant restaurants basket = some restaurant)
    (hready : dates.addingMinutes 30 now = some readyDate)
    (hmake : makeOrderResponse dates user number restaurants basket now later = some writes)
    (k : Nat) :
    let hash := getTimestamp dates later
    let ready := getTimestamp dates readyDate
    let cut := Write.applyAll database (writes.take k)
    (AllOrNothing database (Write.applyAll database writes) cut user hash ↔
      k = 0 ∨ 3 ≤ k ∨
      k = 1 ∧ (StoresProducts database user hash basket ∨
        StoresInfo database user hash restaurant ready number ∧
          database.get (basketPath user) = .null) ∨
      k = 2 ∧ (StoresProducts database user hash basket ∧
          StoresInfo database user hash restaurant ready number ∨
        database.get (basketPath user) = .null)) ∧
    (dates.Lawful → OrdersShape database user → (∀ entry ∈ basket, entry.1.category ≠ []) →
      hash ∉ (database.get (ordersPath user)).fields.map Prod.fst →
      ReadersAtCut dates user (placedOrder number restaurant basket hash ready) database k
        cut) := by
  obtain ⟨chosen, time, hchosen, htime, rfl⟩ := orderWrites_of_makeOrderResponse hmake
  obtain rfl := Option.some.inj (hrestaurant.symm.trans hchosen)
  obtain rfl := Option.some.inj (hready.symm.trans htime)
  have hbasket := ne_nil_of_orderRestaurant hrestaurant
  refine ⟨allOrNothing_take_iff _ _ _ _ _ _ _ hbasket k, fun hlawful hshape hcategories hnew => ?_⟩
  exact readersAtCut_take hlawful hshape number restaurant hbasket hcategories later readyDate
    hnew k

theorem sampleDatabase_shape : OrdersShape sampleDatabase "user@mail" :=
  ⟨.inr ⟨_, rfl⟩, .inr ⟨_, rfl⟩, .inl rfl⟩

/-- The first order of this user, cut after its info: the order is shown, and the
basket is still there. -/
theorem allOrNothing_after_writes_sample :
    ∃ writes, makeOrderResponse utcDates "user@mail" 17 [sampleRestaurant] sampleBasket 6294876000
        6294876005 = some writes ∧
      ¬AllOrNothing sampleDatabase (Write.applyAll sampleDatabase writes)
        (Write.applyAll sampleDatabase (writes.take 2)) "user@mail"
        (getTimestamp utcDates 6294876005) ∧
      (∃ this, getOrders utcDates ⟨some "user@mail"⟩ true
        (Write.applyAll sampleDatabase (writes.take 2)) = some (.ok [this])) ∧
      getBasket ⟨some "user@mail"⟩ true (Write.applyAll sampleDatabase (writes.take 2)) =
        some (.ok (Dictionary.ofEntries sampleBasket)) := by
  obtain ⟨hiff, hreaders⟩ := allOrNothing_after_writes utcDates "user@mail" sampleDatabase
    (show orderRestaurant [sampleRestaurant] sampleBasket = some sampleRestaurant by decide) rfl
    (show makeOrderResponse utcDates "user@mail" 17 [sampleRestaurant] sampleBasket 6294876000
      6294876005 = some _ from rfl) 2
  have hcut := hreaders utcDates_lawful sampleDatabase_shape (by decide) (by decide)
  have hold : getOrders utcDates ⟨some "user@mail"⟩ true sampleDatabase = some (.ok []) := by
    have hnone : sampleDatabase.get (ordersPath "user@mail") = .null := rfl
    rw [getOrders_eq, hnone]
    simp [getOrdersResponse, getOrdersEntries, asDictionary, sortOrdersInfo]
  refine ⟨_, rfl, fun hall => ?_, ?_, ?_⟩
  · rcases hiff.mp hall with hzero | hthree | ⟨hone, -⟩ | ⟨-, ⟨hproducts, -⟩ | hbasket⟩
    · cases hzero
    · omega
    · cases hone
    · cases hproducts
    · cases hbasket
  · obtain ⟨this, shown, -, hshown, hperm⟩ := hcut.shown le_rfl [] hold
    rw [List.perm_singleton.mp hperm] at hshown
    exact ⟨this, hshown⟩
  · rw [hcut.basket, if_pos (by decide), getBasket_eq]
    obtain ⟨entries, hentries, hstored⟩ := sampleDatabase_stores
    rw [hstored, getBasketResponse_categorized hentries sampleBasket_categorized]
    rfl

/-- The same order cut after its products. -/
theorem order_cut_after_products :
    ∃ writes, makeOrderResponse utcDates "user@mail" 17 [sampleRestaurant] sampleBasket 6294876000
        6294876005 = some writes ∧
      ¬AllOrNothing sampleDatabase (Write.applyAll sampleDatabase writes)
        (Write.applyAll sampleDatabase (writes.take 1)) "user@mail"
        (getTimestamp utcDates 6294876005) ∧
      getOrders utcDates ⟨some "user@mail"⟩ true
        (Write.applyAll sampleDatabase (writes.take 1)) = none := by
  refine ⟨_, rfl, ?_, ?_⟩
  · rintro (hbefore | hafter)
    · cases congrArg OrderPlaces.products hbefore
    · cases congrArg OrderPlaces.info hafter
  · rfl

end QFree.FirebaseHandler
