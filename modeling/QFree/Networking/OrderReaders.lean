/-
  Networking/OrderReaders.lean --- the two readers of orders agree.

  `getOrders` reads the orders of one user and forces every cast; `loadAllOrders`
  reads the orders of one restaurant from the subtrees of all users and skips what
  it cannot cast.  On a tree of complete orders no cast fails, so nothing is
  skipped: the second reader returns what the first one reads for all the users,
  restricted to the restaurant.

  `getOrders` sorts and formats the dates at the end, so the orders are compared
  as they are before that, `ordersRead`.  Orders that are stored under different
  readings of the clock come out of the sort the newest first
  (`getOrdersResponse_of_dated`).
-/
import QFree.Foundation.Descending
import QFree.Networking.BasketRoundTrip
import QFree.Networking.Records
import Mathlib.Data.List.Perm.Basic

set_option autoImplicit false

namespace QFree

open QFree.Foundation QFree.Foundation.Json

namespace FirebaseHandler

/-! ## Trees of complete orders -/

/-- Both dates of the order can be read. -/
def ReadableDates {Date : Type} (dates : DateLibrary Date) (order : OrderInfo) : Prop :=
  parseTimestamp dates order.date ≠ none ∧ parseTimestamp dates order.readyDate ≠ none

/-- The entry is a complete order. -/
def CompleteOrder {Date : Type} (dates : DateLibrary Date) (entry : Json) : Prop :=
  ∃ order, OrderRecord entry order ∧ ReadableDates dates order

/-- The subtree of a user, with or without orders; its other children are free. -/
structure UserSubtree {Date : Type} (dates : DateLibrary Date) (subtree : Json) : Prop where
  isObject : subtree.IsObject
  orders : subtree.child "orders" = .null ∨ (subtree.child "orders").IsObject
  complete : ∀ order ∈ (subtree.child "orders").fields, CompleteOrder dates order.2

/-- The value of `Users`. -/
structure UsersTree {Date : Type} (dates : DateLibrary Date) (tree : Json) : Prop where
  shape : tree = .null ∨ tree.IsObject
  distinct : (tree.fields.map Prod.fst).Nodup
  users : ∀ user ∈ tree.fields, UserSubtree dates user.2

/-! ## What `getOrders` shows -/

/-- The orders `getOrders` reads for a user, before they are sorted and their
dates are formatted. -/
def ordersRead (database : Json) (user : String) : List OrderInfo :=
  (getOrdersEntries (database.get (ordersPath user))).getD []

/-- The shown order is the order with its dates formatted. -/
structure ShownAs {Date : Type} (dates : DateLibrary Date) (order shown : OrderInfo) : Prop where
  date : getFormattedDate dates order.date = some shown.date
  readyDate : getFormattedDate dates order.readyDate = some shown.readyDate
  others : shown = { order with date := shown.date, readyDate := shown.readyDate }

/-- All the orders are shown, each once, with its dates formatted, and the newest
first. -/
def ShownNewestFirst {α Date : Type} (dates : DateLibrary Date) (reading : α → Date)
    (info : α → OrderInfo) (orders : List α) (shown : List OrderInfo) : Prop :=
  ∃ history : List α, history.Perm orders ∧
    history.Pairwise (fun newer older => dates.later (reading newer) (reading older) = true) ∧
    List.Forall₂ (fun order shown => ShownAs dates (info order) shown) history shown

section Dates

variable {Date : Type} {dates : DateLibrary Date}

/-- Sorting keeps the orders. -/
theorem sortOrdersInfo_perm {ordersInfo sorted : List OrderInfo}
    (h : sortOrdersInfo dates ordersInfo = some sorted) : sorted.Perm ordersInfo := by
  unfold sortOrdersInfo at h
  simp only [Option.bind_eq_bind, Option.bind_eq_some_iff, Option.pure_def,
    Option.some.injEq] at h
  obtain ⟨dated, hdated, rfl⟩ := h
  have hsnd : dated.map Prod.snd = ordersInfo := by
    induction ordersInfo generalizing dated with
    | nil =>
        rw [List.mapM_nil] at hdated
        rw [← Option.some.inj hdated]
        rfl
    | cons order rest ih =>
        obtain ⟨entry, entries, hentry, hentries, rfl⟩ := mapM_cons_eq_some.mp hdated
        obtain ⟨date, -, hpair⟩ := Option.bind_eq_some_iff.mp hentry
        rw [List.map_cons, ih entries hentries, ← Option.some.inj hpair]
  exact hsnd ▸ (List.mergeSort_perm dated _).map Prod.snd

theorem formatOrderInfo_eq_some {order shown : OrderInfo} :
    formatOrderInfo dates order = some shown ↔ ShownAs dates order shown := by
  simp only [formatOrderInfo, Option.bind_eq_bind, Option.bind_eq_some_iff, Option.pure_def,
    Option.some.injEq]
  constructor
  · rintro ⟨date, hdate, readyDate, hreadyDate, rfl⟩
    exact ⟨hdate, hreadyDate, rfl⟩
  · rintro ⟨hdate, hreadyDate, hothers⟩
    exact ⟨_, hdate, _, hreadyDate, hothers.symm⟩

theorem formatOrderInfo_ne_none {order : OrderInfo} (h : ReadableDates dates order) :
    formatOrderInfo dates order ≠ none := by
  obtain ⟨date, hdate⟩ := Option.ne_none_iff_exists'.mp h.1
  obtain ⟨readyDate, hreadyDate⟩ := Option.ne_none_iff_exists'.mp h.2
  simp [formatOrderInfo, getFormattedDate, hdate, hreadyDate]

theorem readableDates_of_format {order shown : OrderInfo}
    (h : formatOrderInfo dates order = some shown) : ReadableDates dates order := by
  have hshown := formatOrderInfo_eq_some.mp h
  constructor
  · intro hnone
    have hdate := hshown.date
    rw [getFormattedDate, hnone] at hdate
    cases hdate
  · intro hnone
    have hdate := hshown.readyDate
    rw [getFormattedDate, hnone] at hdate
    cases hdate

theorem sortOrdersInfo_ne_none {ordersInfo : List OrderInfo}
    (h : ∀ order ∈ ordersInfo, ReadableDates dates order) :
    sortOrdersInfo dates ordersInfo ≠ none := by
  have hdated : (ordersInfo.mapM fun order => do
      let date ← parseTimestamp dates order.date
      return (date, order)) ≠ none := by
    refine mapM_ne_none fun order hmem => ?_
    obtain ⟨date, hdate⟩ := Option.ne_none_iff_exists'.mp (h order hmem).1
    simp [hdate]
  obtain ⟨dated, hdated⟩ := Option.ne_none_iff_exists'.mp hdated
  unfold sortOrdersInfo
  rw [hdated]
  nofun

/-- Orders with readable dates are all formatted. -/
theorem exists_formatted {ordersInfo : List OrderInfo}
    (h : ∀ order ∈ ordersInfo, ReadableDates dates order) :
    ∃ shown, ordersInfo.mapM (formatOrderInfo dates) = some shown ∧
      List.Forall₂ (ShownAs dates) ordersInfo shown := by
  obtain ⟨shown, hshown⟩ := Option.ne_none_iff_exists'.mp
    (mapM_ne_none fun order hmem => formatOrderInfo_ne_none (h order hmem))
  refine ⟨shown, hshown, ?_⟩
  simpa only [formatOrderInfo_eq_some] using mapM_eq_some_iff_forall₂.mp hshown

/-- Orders with readable dates are all shown, each once. -/
theorem getOrdersResponse_of_entries {value : Json} {ordersInfo : List OrderInfo}
    (hread : getOrdersEntries value = some ordersInfo)
    (hdates : ∀ order ∈ ordersInfo, ReadableDates dates order) :
    ∃ sorted shown, getOrdersResponse dates value = some shown ∧ sorted.Perm ordersInfo ∧
      List.Forall₂ (ShownAs dates) sorted shown := by
  obtain ⟨sorted, hsorted⟩ := Option.ne_none_iff_exists'.mp (sortOrdersInfo_ne_none hdates)
  have hperm := sortOrdersInfo_perm hsorted
  obtain ⟨shown, hshown, hforall⟩ :=
    exists_formatted fun order hmem => hdates order (hperm.mem_iff.mp hmem)
  refine ⟨sorted, shown, ?_, hperm, hforall⟩
  unfold getOrdersResponse
  rw [hread, Option.bind_eq_bind, Option.bind_some, hsorted]
  exact hshown

/-- Orders stored under different readings of the clock are shown the newest first,
in whatever order they are met. -/
theorem getOrdersResponse_of_dated {α : Type} (hlawful : dates.Lawful) {value : Json}
    {ordersInfo : List OrderInfo} (hread : getOrdersEntries value = some ordersInfo)
    {reading : α → Date} {info : α → OrderInfo} {orders : List α}
    (hinfo : ordersInfo.Perm (orders.map info))
    (hdates : ∀ order ∈ orders, (info order).date = getTimestamp dates (reading order) ∧
      ∃ readyDate, (info order).readyDate = getTimestamp dates readyDate)
    (hdistinct : (orders.map reading).Nodup) :
    ∃ shown, getOrdersResponse dates value = some shown ∧
      ShownNewestFirst dates reading info orders shown := by
  have horders : (orders.map info).mapM (fun order => do
      let date ← parseTimestamp dates order.date
      return (date, order)) = some (orders.map fun order => (reading order, info order)) := by
    rw [mapM_map]
    refine mapM_eq_some_map fun order hmem => ?_
    rw [(hdates order hmem).1, hlawful.parse]
    rfl
  -- the sort reads each date back, and so meets the orders with their readings
  obtain ⟨dated, hdated, hperm⟩ := mapM_perm hinfo.symm horders
  have hsorted : sortOrdersInfo dates ordersInfo =
      some ((dated.mergeSort fun a b => !dates.later b.1 a.1).map Prod.snd) := by
    unfold sortOrdersInfo
    rw [hdated]
    rfl
  have hreadings : (dated.map Prod.fst).Nodup := by
    have hfirst := (hperm.map Prod.fst).nodup_iff
    rw [List.map_map] at hfirst
    exact hfirst.mpr hdistinct
  have hstrict := hlawful.order
  have hpairwise := pairwise_mergeSort_of_nodup dates.later Prod.fst hreadings
  -- the sorted pairs are those of a rearrangement of the orders
  have hpairs : (dated.mergeSort fun a b => !dates.later b.1 a.1).Perm
      (orders.map fun order => (reading order, info order)) :=
    (List.mergeSort_perm _ _).trans hperm
  obtain ⟨history, hhistory, horder⟩ := List.perm_comp_forall₂ hpairs
    (List.forall₂_map_left_iff.mpr (List.forall₂_same.mpr fun _ _ => rfl) :
      List.Forall₂ (fun pair order => pair = (reading order, info order))
        (orders.map fun order => (reading order, info order)) orders)
  have hsame : (dated.mergeSort fun a b => !dates.later b.1 a.1) =
      history.map fun order => (reading order, info order) :=
    List.forall₂_eq_eq_eq ▸ List.forall₂_map_right_iff.mpr hhistory
  rw [hsame, List.pairwise_map] at hpairwise
  rw [hsame, List.map_map] at hsorted
  have hreadable : ∀ order ∈ history.map info, ReadableDates dates order := by
    intro shown hmem
    obtain ⟨order, hkept, rfl⟩ := List.mem_map.mp hmem
    obtain ⟨hdate, readyDate, hready⟩ := hdates order (horder.mem_iff.mp hkept)
    refine ⟨?_, ?_⟩
    · rw [hdate, hlawful.parse]
      exact Option.some_ne_none _
    · rw [hready, hlawful.parse]
      exact Option.some_ne_none _
  obtain ⟨shown, hshown, hforall⟩ := exists_formatted hreadable
  refine ⟨shown, ?_, history, horder, hpairwise, List.forall₂_map_left_iff.mp hforall⟩
  unfold getOrdersResponse
  rw [hread, Option.bind_eq_bind, Option.bind_some, hsorted]
  exact hshown

end Dates

/-! ## One entry, one user -/

/-- On a complete order the two readers differ in the test of the name only. -/
theorem loadAllOrdersEntry_of_record [TextLibrary] (restaurantName : String) {entry : Json}
    {order : OrderInfo} (h : OrderRecord entry order) :
    loadAllOrdersEntry restaurantName entry =
      some (if SameText order.restaurantName restaurantName then some order else none) := by
  obtain ⟨fields, info, rfl, hproducts, hinfo, hrecord⟩ := h
  have hname := stringField_eq_some.mpr hrecord.name
  have hitems := decodeOrderProducts_eq_some.mpr hproducts
  have horder := decodeOrderInfo_eq_some.mpr ⟨hrecord, rfl⟩
  simp only [loadAllOrdersEntry, asDictionary, hinfo, hname, Option.bind_eq_bind,
    Option.bind_some]
  split
  · rw [hitems, Option.bind_some, horder]
    rfl
  · rfl

/-- The orders of a user, when there are none or all have a record. -/
theorem exists_orders_of_records {orders : Json} (hshape : orders = .null ∨ orders.IsObject)
    (hrecords : ∀ order ∈ orders.fields, ∃ info, OrderRecord order.2 info) :
    ∃ ordersInfo, getOrdersEntries orders = some ordersInfo ∧
      List.Forall₂ (fun order info => OrderRecord order.2 info) orders.fields ordersInfo := by
  rcases hshape with rfl | hobject
  · exact ⟨[], rfl, .nil⟩
  · rw [getOrdersEntries, asDictionary_of_isObject hobject]
    obtain ⟨ordersInfo, hordersInfo⟩ := Option.ne_none_iff_exists'.mp
      (mapM_ne_none (f := fun order : String × Json => getOrdersEntry order.2) fun order hmem => by
        obtain ⟨info, hinfo⟩ := hrecords order hmem
        rw [getOrdersEntry_eq_some.mpr hinfo]
        exact Option.some_ne_none info)
    refine ⟨ordersInfo, hordersInfo, ?_⟩
    simpa only [getOrdersEntry_eq_some] using mapM_eq_some_iff_forall₂.mp hordersInfo

/-- What describes a complete order has readable dates. -/
theorem readableDates_of_complete {Date : Type} {dates : DateLibrary Date} (orders : Json)
    (hcomplete : ∀ order ∈ orders.fields, CompleteOrder dates order.2)
    {ordersInfo : List OrderInfo}
    (hrecords : List.Forall₂ (fun order info => OrderRecord order.2 info)
      orders.fields ordersInfo) :
    ∀ order ∈ ordersInfo, ReadableDates dates order := by
  have hboth := (List.forall₂_and_left _ _).mpr ⟨hcomplete, hrecords⟩
  have hdated : List.Forall₂ (fun info (order : String × Json) =>
      ReadableDates dates info ∧ OrderRecord order.2 info) ordersInfo orders.fields := by
    refine (hboth.imp fun order info hboth => ?_).flip
    obtain ⟨⟨other, hother, hdates⟩, hrecord⟩ := hboth
    have hsame := getOrdersEntry_eq_some.mpr hother
    rw [getOrdersEntry_eq_some.mpr hrecord, Option.some.injEq] at hsame
    exact ⟨hsame ▸ hdates, hrecord⟩
  exact ((List.forall₂_and_left _ _).mp hdated).1

theorem filterMap_found [TextLibrary] (restaurantName : String) (ordersInfo : List OrderInfo) :
    (ordersInfo.map fun order =>
        if SameText order.restaurantName restaurantName then some order else none).filterMap id =
      ordersInfo.filter fun order => SameText order.restaurantName restaurantName := by
  induction ordersInfo with
  | nil => rfl
  | cons order rest ih =>
      rw [List.map_cons, List.filter_cons]
      by_cases h : SameText order.restaurantName restaurantName
      · rw [if_pos h, if_pos (decide_eq_true h)]
        exact congrArg (List.cons order) ih
      · rw [if_neg h, if_neg (by simpa using h)]
        exact ih

theorem loadAllOrdersUser_of_records [TextLibrary] (restaurantName : String) {subtree : Json}
    (hobject : subtree.IsObject)
    (horders : subtree.child "orders" = .null ∨ (subtree.child "orders").IsObject)
    {ordersInfo : List OrderInfo}
    (hrecords : List.Forall₂ (fun order info => OrderRecord order.2 info)
      (subtree.child "orders").fields ordersInfo) :
    loadAllOrdersUser restaurantName subtree =
      some (ordersInfo.filter fun order => SameText order.restaurantName restaurantName) := by
  obtain ⟨fields, rfl⟩ := hobject
  rw [child_object] at hrecords horders
  simp only [loadAllOrdersUser, asDictionary]
  rcases horders with hnull | ⟨orders, hobject⟩
  · rw [hnull] at hrecords ⊢
    rw [List.forall₂_nil_left_iff.mp hrecords]
    rfl
  · rw [hobject] at hrecords ⊢
    have hloop : orders.mapM (fun order => loadAllOrdersEntry restaurantName order.2) =
        some (ordersInfo.map fun order =>
          if SameText order.restaurantName restaurantName then some order else none) := by
      rw [mapM_eq_some_iff_forall₂, List.forall₂_map_right_iff]
      exact hrecords.imp fun order info hrecord => loadAllOrdersEntry_of_record _ hrecord
    simp only [hloop, Option.bind_eq_bind, Option.bind_some, Option.pure_def, filterMap_found]

/-! ## All users -/

/-- The orders of a user of the tree are the child `orders` of the user's field. -/
theorem get_ordersPath_of_mem {database : Json} {user : String × Json}
    (hnodup : ((database.get ["Users"]).fields.map Prod.fst).Nodup)
    (hmem : user ∈ (database.get ["Users"]).fields) :
    database.get (ordersPath user.1) = user.2.child "orders" := by
  have hsplit : database.get (ordersPath user.1) =
      (((database.get ["Users"]).child user.1).child "orders") :=
    get_append database ["Users"] [user.1, "orders"]
  have hchild : (database.get ["Users"]).child user.1 = user.2 := lookupField_of_mem hnodup hmem
  rw [hsplit, hchild]

/-- On every tree of complete orders `loadAllOrders` returns, for every name, the
orders of that name that `getOrders` reads for the users of the tree, each stored
order once.  What `getOrders` shows are these orders with their dates formatted. -/
theorem loadAllOrders_agrees_with_getOrders [TextLibrary] {Date : Type} (dates : DateLibrary Date)
    (database : Json) (htree : UsersTree dates (database.get ["Users"]))
    (restaurantName : String) :
    (∃ collected, loadAllOrders restaurantName database = some collected ∧
      collected.Perm (((database.get ["Users"]).fields.flatMap fun user =>
        ordersRead database user.1).filter fun order =>
          SameText order.restaurantName restaurantName)) ∧
    ∀ user ∈ (database.get ["Users"]).fields,
      List.Forall₂ (fun order info => OrderRecord order.2 info)
        (database.get (ordersPath user.1)).fields (ordersRead database user.1) ∧
      ∃ sorted shown, getOrders dates ⟨some user.1⟩ true database = some (.ok shown) ∧
        sorted.Perm (ordersRead database user.1) ∧ List.Forall₂ (ShownAs dates) sorted shown := by
  have hread : ∀ user ∈ (database.get ["Users"]).fields,
      getOrdersEntries (database.get (ordersPath user.1)) = some (ordersRead database user.1) ∧
      List.Forall₂ (fun order info => OrderRecord order.2 info)
        (user.2.child "orders").fields (ordersRead database user.1) := by
    intro user hmem
    have hsubtree := htree.users user hmem
    obtain ⟨ordersInfo, hordersInfo, hrecords⟩ := exists_orders_of_records hsubtree.orders
      fun order horder => (hsubtree.complete order horder).imp fun _ => And.left
    have hentries := get_ordersPath_of_mem htree.distinct hmem
    rw [ordersRead, hentries, hordersInfo]
    exact ⟨rfl, hrecords⟩
  constructor
  · have hloop : (database.get ["Users"]).fields.mapM
        (fun user => loadAllOrdersUser restaurantName user.2) =
        some ((database.get ["Users"]).fields.map fun user =>
          (ordersRead database user.1).filter fun order =>
            SameText order.restaurantName restaurantName) :=
      mapM_eq_some_map fun user hmem =>
        loadAllOrdersUser_of_records restaurantName (htree.users user hmem).isObject
          (htree.users user hmem).orders (hread user hmem).2
    refine ⟨_, ?_, List.Perm.refl _⟩
    rw [List.filter_flatMap, loadAllOrders, loadAllOrdersResponse]
    rcases htree.shape with hnull | hobject
    · rw [hnull]
      rfl
    · rw [asDictionary_of_isObject hobject]
      simp only [hloop, Option.bind_eq_bind, Option.bind_some, Option.pure_def]
      rfl
  · intro user hmem
    obtain ⟨hentries, hrecords⟩ := hread user hmem
    have hpath := get_ordersPath_of_mem htree.distinct hmem
    refine ⟨hpath ▸ hrecords, ?_⟩
    have hdates := readableDates_of_complete _ (htree.users user hmem).complete hrecords
    obtain ⟨sorted, shown, hshown, hperm, hforall⟩ := getOrdersResponse_of_entries hentries hdates
    refine ⟨sorted, shown, ?_, hperm, hforall⟩
    exact Option.map_eq_some_iff.mpr ⟨shown, hshown, rfl⟩

/-- Two users, the first with an order of two lattes, the second with a basket. -/
def sampleUsers : Json :=
  .object [("Users", .object [
    ("user@mail", .object [("orders", .object [("629487600_5", .object [
      ("products", .array
        [.object (storedFields ⟨"Latte", 199, "l.png", [.coffee], "0"⟩ 2)]),
      ("info", .object
        (orderInfoFields sampleRestaurant "629487600_5" "629489400_0" 17))])])]),
    ("other@mail", .object [("basket", .array
      [.object (storedFields ⟨"Latte", 199, "l.png", [.coffee], "0"⟩ 1)])])])]

theorem sampleUsers_tree : UsersTree utcDates (sampleUsers.get ["Users"]) where
  shape := .inr ⟨_, rfl⟩
  distinct := by decide
  users := by
    refine List.forall_mem_cons.mpr ⟨⟨⟨_, rfl⟩, .inr ⟨_, rfl⟩, ?_⟩,
      List.forall_mem_singleton.mpr ⟨⟨_, rfl⟩, .inl rfl, nofun⟩⟩
    refine List.forall_mem_singleton.mpr ⟨⟨"g.png", "Groot", "629487600_5", "629489400_0",
      [(⟨"Latte", 199, "l.png", [.coffee], "0"⟩, 2)], "17", 0⟩, ?_, ?_⟩
    · exact getOrdersEntry_eq_some.mp (by decide)
    · exact ⟨by decide, by decide⟩

theorem loadAllOrders_agrees_with_getOrders_sample :
    ∃ collected, loadAllOrders "Groot" sampleUsers = some collected ∧
      collected.Perm (((sampleUsers.get ["Users"]).fields.flatMap fun user =>
        ordersRead sampleUsers user.1).filter fun order => order.restaurantName = "Groot") :=
  (loadAllOrders_agrees_with_getOrders utcDates sampleUsers sampleUsers_tree "Groot").1

end FirebaseHandler

end QFree
