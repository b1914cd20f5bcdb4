/-
  Account/OrderHistory.lean --- the order history of an account.

  `makeOrder` stores an order under the reading of the clock, with the dot of its
  text exchanged for an underscore; `getOrders` exchanges it back to compare the
  orders as numbers, and formats the dates last.

  A history is any list of orders of one account, with anything that leaves the
  account's orders alone in between.  If no two readings are equal, the keys are
  different, too, so every order has a place of its own, and `getOrders` shows all
  of them, strictly the newest first, however the dictionary of orders is iterated
  (`history_is_complete`).
-/
import QFree.Foundation.Run
import QFree.Networking.OrderRoundTrip
import QFree.Staff.StoredOrders

set_option autoImplicit false

namespace QFree

open QFree.Foundation QFree.FirebaseHandler

namespace OrderHistory

/-! ## Histories -/

/-- What happens to the orders of an account, and besides. -/
inductive HistoryEvent (Date : Type) where
  /-- `makeOrder`, with success: the list of restaurants, the value its inner
  `getBasket` was answered with, the entries of that basket in the order in which the
  loop met them, and the two readings of the clock -/
  | makeOrder (number : Int64) (restaurants : List Restaurant) (basketValue : Json)
      (entries : List (ProductInfo × Int64)) (now later : Date)
  /-- all the rest of the database is replaced -/
  | elsewhere (database : Json)

section History

variable {Date : Type} (dates : DateLibrary Date)

/-- The database after the event. -/
def handle (user : String) (database : Json) : HistoryEvent Date → Option Json
  | .makeOrder number restaurants basketValue entries now later => do
      let basket ← getBasketResponse basketValue.pruned
      if basket.Enumerates entries then
        let writes ← makeOrderResponse dates user number restaurants entries now later
        return Write.applyAll database writes
      else none
  | .elsewhere others => some (others.set (ordersPath user) (database.get (ordersPath user)))

/-- The order an event places, with the reading of the clock it is stored under. -/
def placed : HistoryEvent Date → Option (Date × OrderInfo)
  | .makeOrder number restaurants _ entries now later => do
      let restaurant ← orderRestaurant restaurants entries
      let readyDate ← dates.addingMinutes 30 now
      return (later, placedOrder number restaurant entries (getTimestamp dates later)
        (getTimestamp dates readyDate))
  | .elsewhere _ => none

/-- The orders a history places. -/
def ordersPlaced (events : List (HistoryEvent Date)) : List (Date × OrderInfo) :=
  events.filterMap (placed dates)

end History

/-- The readings of the clock the orders of a history are stored under. -/
def clockReadings {Date : Type} (events : List (HistoryEvent Date)) : List Date :=
  events.filterMap fun
    | .makeOrder _ _ _ _ _ later => some later
    | .elsewhere _ => none

/-- The value a dictionary is met as, when it is iterated in any order. -/
inductive IteratedAs : Json → Json → Prop
  | absent : IteratedAs .null .null
  | dictionary {fields met : List (String × Json)} (hperm : met.Perm fields) :
      IteratedAs (.object fields) (.object met)

/-! ## What a history leaves -/

section Orders

variable {Date : Type} {dates : DateLibrary Date} {user : String} {database : Json}
  {kept : List (Date × OrderInfo)}

/-- The place of an order of the account. -/
def storedAs (dates : DateLibrary Date) (user : String) (order : Date × OrderInfo) :
    StoredOrder := ⟨user, getTimestamp dates order.1, order.2⟩

/-- The account has these orders, each under its reading, and no others. -/
structure Holds (dates : DateLibrary Date) (user : String) (database : Json)
    (kept : List (Date × OrderInfo)) : Prop where
  readable : ReadableOrders (database.get (ordersPath user))
  stored : (ordersBelow user (database.get (ordersPath user))).Perm
    (kept.map (storedAs dates user))

theorem holds_nil (hnone : database.get (ordersPath user) = .null) :
    Holds dates user database [] := by
  refine ⟨?_, ?_⟩
  · rw [hnone]
    exact readableOrders_null
  · rw [hnone]
    exact List.Perm.refl []

/-- Both dates of a placed order are readings of the clock. -/
theorem dates_of_placed {event : HistoryEvent Date} {order : Date × OrderInfo}
    (h : placed dates event = some order) :
    order.2.date = getTimestamp dates order.1 ∧
      ∃ readyDate, order.2.readyDate = getTimestamp dates readyDate := by
  cases event with
  | makeOrder number restaurants basketValue entries now later =>
      obtain ⟨restaurant, -, hready⟩ := Option.bind_eq_some_iff.mp h
      obtain ⟨readyDate, -, horder⟩ := Option.bind_eq_some_iff.mp hready
      obtain rfl := Option.some.inj horder
      exact ⟨rfl, readyDate, rfl⟩
  | elsewhere others => cases h

/-- A successful `makeOrder` writes the order it places under its second reading. -/
theorem handle_makeOrder {number : Int64} {restaurants : List Restaurant} {basketValue : Json}
    {entries : List (ProductInfo × Int64)} {now later : Date} {next : Json}
    (hnext : handle dates user database
      (.makeOrder number restaurants basketValue entries now later) = some next) :
    ∃ order entry,
      placed dates (.makeOrder number restaurants basketValue entries now later) =
        some (later, order) ∧
      getOrdersEntry entry = some order ∧
      next.get (ordersPath user) =
        (database.get (ordersPath user)).setChild (getTimestamp dates later) entry := by
  obtain ⟨basket, hbasket, hread⟩ := Option.bind_eq_some_iff.mp hnext
  obtain ⟨hentries, hwrite⟩ := Option.ite_none_right_eq_some.mp hread
  obtain ⟨writes, hwrites, happlied⟩ := Option.bind_eq_some_iff.mp hwrite
  obtain rfl := Option.some.inj happlied
  obtain ⟨restaurant, readyDate, hrestaurant, hready, rfl⟩ :=
    orderWrites_of_makeOrderResponse hwrites
  have hnonempty := ne_nil_of_orderRestaurant hrestaurant
  have hcategories : ∀ entry ∈ entries, entry.1.category ≠ [] := fun entry hmem =>
    categorized_of_getBasketResponse hbasket entry.1 (hentries.key_mem hmem)
  refine ⟨_, _, ?_, getOrdersEntry_orderEntry
    (database.get (orderPath user (getTimestamp dates later))) number restaurant entries
    (getTimestamp dates later) (getTimestamp dates readyDate) hnonempty hcategories, ?_⟩
  · simp only [placed, hrestaurant, hready, Option.bind_eq_bind, Option.bind_some,
      Option.pure_def]
  · rw [applyAll_orderWrites _ _ _ _ _ _ _ hnonempty]
    exact orders_after_order

/-- A further order at a new reading is stored beside the others. -/
theorem holds_setChild (hlawful : dates.Lawful) (h : Holds dates user database kept)
    {order : Date × OrderInfo} (hnew : order.1 ∉ kept.map Prod.fst) {entry next : Json}
    (hentry : getOrdersEntry entry = some order.2)
    (hnext : next.get (ordersPath user) =
      (database.get (ordersPath user)).setChild (getTimestamp dates order.1) entry) :
    Holds dates user next (kept ++ [order]) := by
  have hothers : (ordersBelow user (database.get (ordersPath user))).filter
      (fun other => other.timestamp ≠ getTimestamp dates order.1) =
        ordersBelow user (database.get (ordersPath user)) := by
    refine List.filter_eq_self.mpr fun other hmem => decide_eq_true fun htimestamp => ?_
    obtain ⟨old, hold, rfl⟩ := List.mem_map.mp (h.stored.mem_iff.mp hmem)
    have hreading : old.1 = order.1 := hlawful.getTimestamp_injective htimestamp
    exact hnew (hreading ▸ List.mem_map_of_mem hold)
  have hwritten : (ordersBelow user ((database.get (ordersPath user)).setChild
      (getTimestamp dates order.1) entry)).Perm
        ((ordersBelow user (database.get (ordersPath user))).filter
          (fun other => other.timestamp ≠ getTimestamp dates order.1) ++
            [storedAs dates user order]) :=
    ordersBelow_setChild user h.readable.distinct hentry
  rw [hothers] at hwritten
  refine ⟨?_, ?_⟩
  · rw [hnext]
    exact readableOrders_setChild h.readable _ (getOrdersEntry_eq_some.mp hentry)
  · rw [hnext, List.map_append]
    exact hwritten.trans (h.stored.append_right _)

/-- A successful event places its order, unless it is no order at all. -/
theorem holds_handle (hlawful : dates.Lawful) {event : HistoryEvent Date} {next : Json}
    (h : Holds dates user database kept) (hnext : handle dates user database event = some next)
    (hnew : ∀ order ∈ placed dates event, order.1 ∉ kept.map Prod.fst) :
    Holds dates user next (kept ++ (placed dates event).toList) := by
  cases event with
  | makeOrder number restaurants basketValue entries now later =>
      obtain ⟨order, entry, hplaced, hentry, horders⟩ := handle_makeOrder hnext
      rw [hplaced]
      exact holds_setChild hlawful h (hnew _ hplaced) hentry horders
  | elsewhere others =>
      obtain rfl := Option.some.inj hnext
      have hsame : (others.set (ordersPath user) (database.get (ordersPath user))).get
          (ordersPath user) = database.get (ordersPath user) := Json.get_set_same _ _ _
      refine ⟨?_, ?_⟩
      · rw [hsame]
        exact h.readable
      · rw [hsame, show placed dates (.elsewhere others) = none from rfl]
        simpa using h.stored

/-- In a run every `makeOrder` places its order. -/
theorem readings_of_run {events : List (HistoryEvent Date)} {final : Json}
    (hrun : run (handle dates user) database events = some final) :
    (ordersPlaced dates events).map Prod.fst = clockReadings events := by
  induction events generalizing database with
  | nil => rfl
  | cons event rest ih =>
      obtain ⟨next, hnext, hrest⟩ := run_cons_eq_some.mp hrun
      have hothers := ih hrest
      cases event with
      | makeOrder number restaurants basketValue entries now later =>
          obtain ⟨order, entry, hplaced, -, -⟩ := handle_makeOrder hnext
          rw [ordersPlaced, List.filterMap_cons_some hplaced, List.map_cons]
          exact congrArg (List.cons later) hothers
      | elsewhere others => exact hothers

/-- After a history at different readings the account has the old orders and the
placed ones. -/
theorem holds_run (hlawful : dates.Lawful) {events : List (HistoryEvent Date)} {final : Json}
    (h : Holds dates user database kept)
    (hdistinct : ((kept ++ ordersPlaced dates events).map Prod.fst).Nodup)
    (hrun : run (handle dates user) database events = some final) :
    Holds dates user final (kept ++ ordersPlaced dates events) := by
  induction events generalizing database kept with
  | nil =>
      obtain rfl := Option.some.inj hrun
      rwa [ordersPlaced, List.filterMap_nil, List.append_nil]
  | cons event rest ih =>
      obtain ⟨next, hnext, hrest⟩ := run_cons_eq_some.mp hrun
      have hsplit : ordersPlaced dates (event :: rest) =
          (placed dates event).toList ++ ordersPlaced dates rest :=
        filterMap_log (placed dates) event rest
      rw [hsplit, ← List.append_assoc] at hdistinct ⊢
      refine ih (holds_handle hlawful h hnext fun order hplaced hmem => ?_) hdistinct hrest
      rw [show placed dates event = some order from hplaced, List.map_append,
        List.map_append] at hdistinct
      have hdisjoint := List.disjoint_of_nodup_append hdistinct.of_append_left
      exact hdisjoint hmem List.mem_cons_self

/-! ## What `getOrders` shows -/

theorem fields_perm_of_iteratedAs {stored met : Json} (h : IteratedAs stored met) :
    met.fields.Perm stored.fields := by
  cases h with
  | absent => exact List.Perm.refl []
  | dictionary hperm => exact hperm

theorem readableOrders_of_iteratedAs {stored met : Json} (h : IteratedAs stored met)
    (hstored : ReadableOrders stored) : ReadableOrders met := by
  have hperm := fields_perm_of_iteratedAs h
  refine ⟨?_, (hperm.map Prod.fst).nodup_iff.mpr hstored.distinct,
    fun order hmem => hstored.records order (hperm.mem_iff.mp hmem)⟩
  cases h with
  | absent => exact .inl rfl
  | dictionary _ => exact .inr ⟨_, rfl⟩

/-- Stored orders with different readings are shown each once, the newest first. -/
theorem getOrdersResponse_of_holds (hlawful : dates.Lawful) (h : Holds dates user database kept)
    (hdates : ∀ order ∈ kept, order.2.date = getTimestamp dates order.1 ∧
      ∃ readyDate, order.2.readyDate = getTimestamp dates readyDate)
    (hdistinct : (kept.map Prod.fst).Nodup) {met : Json}
    (hmet : IteratedAs (database.get (ordersPath user)) met) :
    ∃ shown, getOrdersResponse dates met = some shown ∧
      ShownNewestFirst dates Prod.fst Prod.snd kept shown := by
  have hreadable := readableOrders_of_iteratedAs hmet h.readable
  obtain ⟨ordersInfo, hordersInfo, hrecords⟩ :=
    exists_orders_of_records hreadable.shape hreadable.records
  have hinfo : ordersInfo.Perm (kept.map Prod.snd) := by
    have hbelow : (ordersBelow user met).Perm
        (ordersBelow user (database.get (ordersPath user))) :=
      (fields_perm_of_iteratedAs hmet).flatMap_right _
    have hmapped := (hbelow.trans h.stored).map StoredOrder.info
    rw [ordersBelow_info hrecords, List.map_map] at hmapped
    exact hmapped
  exact getOrdersResponse_of_dated hlawful hordersInfo hinfo hdates hdistinct

/-- After any history of an account that had no orders, with a different reading of
the clock at each order, every order is stored under its own key, and `getOrders` shows
each order once, by strictly decreasing reading, in whatever order it meets them. -/
theorem history_is_complete (hlawful : dates.Lawful) (user : String)
    (hnone : database.get (ordersPath user) = .null) {events : List (HistoryEvent Date)}
    (hreadings : (clockReadings events).Nodup) {final : Json}
    (hrun : run (handle dates user) database events = some final) :
    (ordersPlaced dates events).map Prod.fst = clockReadings events ∧
    (∀ order ∈ ordersPlaced dates events,
      getOrdersEntry (final.get (orderPath user (getTimestamp dates order.1))) =
        some order.2) ∧
    ∀ met, IteratedAs (final.get (ordersPath user)) met →
      ∃ history shown, history.Perm (ordersPlaced dates events) ∧
        history.Pairwise (fun newer older => dates.later newer.1 older.1 = true) ∧
        getOrdersResponse dates met = some shown ∧
        List.Forall₂ (fun order info => ShownAs dates order.2 info) history shown := by
  have hplaced := readings_of_run hrun
  have hdistinct : ((ordersPlaced dates events).map Prod.fst).Nodup := hplaced ▸ hreadings
  have hholds : Holds dates user final (ordersPlaced dates events) :=
    holds_run hlawful (holds_nil hnone) hdistinct hrun
  refine ⟨hplaced, fun order hmem => ?_, fun met hmet => ?_⟩
  · have hstored := hholds.stored.mem_iff.mpr (List.mem_map_of_mem hmem)
    obtain ⟨-, entry, hentry, hinfo⟩ := mem_ordersBelow.mp hstored
    have hchild : (final.get (ordersPath user)).child (getTimestamp dates order.1) = entry :=
      Json.lookupField_of_mem hholds.readable.distinct hentry
    have hpath : final.get (orderPath user (getTimestamp dates order.1)) =
        (final.get (ordersPath user)).child (getTimestamp dates order.1) :=
      Json.get_append final (ordersPath user) [getTimestamp dates order.1]
    rw [hpath, hchild]
    exact hinfo
  · have hdates : ∀ order ∈ ordersPlaced dates events,
        order.2.date = getTimestamp dates order.1 ∧
          ∃ readyDate, order.2.readyDate = getTimestamp dates readyDate := by
      intro order hmem
      obtain ⟨event, -, hevent⟩ := List.mem_filterMap.mp hmem
      exact dates_of_placed hevent
    obtain ⟨shown, hshown, history, hperm, hpairwise, hforall⟩ :=
      getOrdersResponse_of_holds hlawful hholds hdates hdistinct hmet
    exact ⟨history, shown, hperm, hpairwise, hshown, hforall⟩

end Orders

/-- Two lattes. -/
def latteEntries : List (ProductInfo × Int64) :=
  [(⟨"Latte", 199, "l.png", [.coffee], "0"⟩, 2)]

/-- Two orders, the second with an earlier reading of the clock than the first; in
between another account puts something into its basket. -/
def twoOrders : List (HistoryEvent Nat) :=
  [.makeOrder 17 [sampleRestaurant] (encodeItems latteEntries) latteEntries 6294876000 6294876005,
    .elsewhere sampleDatabase,
    .makeOrder 18 [sampleRestaurant] (encodeItems latteEntries) latteEntries 6294800000 6294800003]

theorem history_is_complete_sample :
    ∃ final, run (handle utcDates "other@mail") .null twoOrders = some final ∧
      ∀ met, IteratedAs (final.get (ordersPath "other@mail")) met →
        ∃ history shown, history.Perm (ordersPlaced utcDates twoOrders) ∧
          history.Pairwise (fun newer older => utcDates.later newer.1 older.1 = true) ∧
          getOrdersResponse utcDates met = some shown ∧
          List.Forall₂ (fun order info => ShownAs utcDates order.2 info) history shown := by
  have hsome : (run (handle utcDates "other@mail") .null twoOrders).isSome = true := by decide
  obtain ⟨final, hrun⟩ := Option.isSome_iff_exists.mp hsome
  exact ⟨final, hrun,
    (history_is_complete utcDates_lawful "other@mail" rfl (by decide) hrun).2.2⟩

end OrderHistory

end QFree
