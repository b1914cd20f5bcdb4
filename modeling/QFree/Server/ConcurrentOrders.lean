/-
  Server/ConcurrentOrders.lean --- orders placed at the same time.

  Orders at different places do not get in each other's way: whatever the order in
  which their writes arrive, each place holds as much of its own order as has
  arrived of it.  So at any moment

      the kitchen sees exactly the orders whose slip has arrived, each with its own
      products, and never loses one of them again (`kitchen_during_traffic`);

      `getOrders` of an account traps while one of its orders has its products and
      not yet its slip, and otherwise shows exactly the orders that have arrived,
      the newest first (`customer_during_traffic`).

  Both are read on devices that have no writes of their own on their way: the device
  that places an order has the whole of it in its cache at once.

  The place of an order is the account and the reading of the clock, so places are
  different as long as no account orders twice at one reading.
-/
import QFree.Server.Traffic

set_option autoImplicit false

namespace QFree

open QFree.Foundation QFree.FirebaseHandler

section Stages

variable {Date : Type}

/-- What has arrived of an order after this many of its writes. -/
def Placement.stage (issued : Placement Date) : Nat → LedgerOrder Date
  | 0 => .absent
  | 1 => ⟨issued.products, none⟩
  | _ + 2 => ⟨issued.products, some issued.slip⟩

/-- The order as both readers show it. -/
def Placement.info (dates : DateLibrary Date) (issued : Placement Date) : OrderInfo :=
  placedOrder issued.slip.number issued.slip.restaurant issued.products
    (getTimestamp dates issued.slip.date) (getTimestamp dates issued.slip.readyDate)

/-- The order with its place. -/
def Placement.stored (dates : DateLibrary Date) (issued : Placement Date) : StoredOrder :=
  ⟨issued.user, getTimestamp dates issued.slip.date, issued.info dates⟩

variable {dates : DateLibrary Date} {issued : Placement Date} {arrived : Nat}

theorem Placement.info_stage (issued : Placement Date) (arrived : Nat) :
    (issued.stage arrived).info dates = if 2 ≤ arrived then some (issued.info dates) else none := by
  match arrived with
  | 0 => rfl
  | 1 => rfl
  | _ + 2 => rw [if_pos (Nat.le_add_left 2 _)]; rfl

theorem Placement.products_stage (hne : issued.products ≠ []) :
    (issued.stage arrived).products ≠ [] ↔ 1 ≤ arrived := by
  match arrived with
  | 0 => exact iff_of_false (fun h => h rfl) (Nat.not_succ_le_zero 0)
  | 1 => exact iff_of_true hne (Nat.le_refl 1)
  | _ + 2 => exact iff_of_true hne (Nat.le_add_left 1 _)

theorem Placement.torn_stage (hne : issued.products ≠ []) :
    (issued.stage arrived).Torn ↔ arrived = 1 := by
  match arrived with
  | 0 => exact iff_of_false (fun h => h.1 rfl) Nat.zero_ne_one
  | 1 => exact iff_of_true ⟨hne, rfl⟩ rfl
  | _ + 2 => exact iff_of_false (fun h => nomatch h.2) (by omega)

/-- The next command of an order takes its place to the next stage. -/
theorem stage_perform {command : LedgerCommand Date}
    (hcommand : (issued.commands dates)[arrived]? = some command) {ledger : Ledger Date}
    (hstage : ledger.orders (issued.place dates) = issued.stage arrived) :
    (ledger.perform command).orders (issued.place dates) = issued.stage (arrived + 1) := by
  match arrived with
  | 0 =>
      obtain rfl := Option.some.inj hcommand
      rw [Ledger.perform, Ledger.setOrder_orders, Function.update_self, hstage]
      rfl
  | 1 =>
      obtain rfl := Option.some.inj hcommand
      rw [Ledger.perform, Ledger.setOrder_orders, Function.update_self, hstage]
      rfl
  | 2 =>
      obtain rfl := Option.some.inj hcommand
      exact hstage
  | arrived + 3 => cases hcommand

/-- It leaves the other places alone. -/
theorem other_perform {command : LedgerCommand Date}
    (hcommand : (issued.commands dates)[arrived]? = some command) (ledger : Ledger Date)
    {place : String × String} (hplace : place ≠ issued.place dates) :
    (ledger.perform command).orders place = ledger.orders place := by
  match arrived with
  | 0 | 1 =>
      obtain rfl := Option.some.inj hcommand
      rw [Ledger.perform, Ledger.setOrder_orders, Function.update_of_ne hplace]
  | 2 =>
      obtain rfl := Option.some.inj hcommand
      rfl
  | arrived + 3 => cases hcommand

end Stages

namespace Traffic

section Staged

variable {Date : Type} (dates : DateLibrary Date)

/-- The places of the orders issued so far. -/
def issuedPlaces (state : Traffic Date) : List (String × String) :=
  state.orders.map fun order => order.1.place dates

/-- Each place of the ledger holds what has arrived of the order issued for it. -/
structure Staged (state : Traffic Date) (ledger : Ledger Date) : Prop where
  orders : ∀ (index : Nat) (issued : Placement Date) (arrived : Nat),
    state.orders[index]? = some (issued, arrived) →
      ledger.orders (issued.place dates) = issued.stage arrived
  others : ∀ place, place ∉ state.issuedPlaces dates → ledger.orders place = .absent

variable {dates} {state : Traffic Date} {ledger : Ledger Date}

/-- Only deliveries and arrivals of writes concern the orders. -/
theorem staged_of_same {next : Traffic Date} {after : Ledger Date} (h : state.Staged dates ledger)
    (horders : next.orders = state.orders) (hledger : after.orders = ledger.orders) :
    next.Staged dates after := by
  refine ⟨fun index issued arrived horder => ?_, fun place hplace => ?_⟩
  · rw [hledger]
    exact h.orders index issued arrived (horders ▸ horder)
  · rw [hledger]
    refine h.others place fun hmem => hplace ?_
    rwa [issuedPlaces, horders]

/-- The place of an order stays where it is. -/
theorem places_set {index arrived : Nat} {issued : Placement Date}
    (horder : state.orders[index]? = some (issued, arrived)) :
    (state.orders.set index (issued, arrived + 1)).map (fun order => order.1.place dates) =
      state.issuedPlaces dates := by
  have hindex := (List.getElem?_eq_some_iff.mp horder).1
  rw [issuedPlaces, List.map_set]
  refine List.ext_getElem? fun other => ?_
  by_cases hother : index = other
  · subst hother
    rw [List.getElem?_set_self (by simpa using hindex), List.getElem?_map, horder]
    rfl
  · rw [List.getElem?_set_ne hother]

theorem staged_step {next : Traffic Date} {event : TrafficEvent Date}
    (h : (state.issuedPlaces dates).Nodup → state.Staged dates ledger)
    (hstep : state.step dates event = some next) (hdistinct : (next.issuedPlaces dates).Nodup) :
    next.Staged dates ((state.commands dates event).foldl Ledger.perform ledger) := by
  cases transition_of_step hstep with
  | posted hconnected hentries => exact staged_of_same (h hdistinct) rfl rfl
  | asked => exact staged_of_same (h hdistinct) rfl rfl
  | refused event hcommands =>
      rw [hcommands]
      exact h hdistinct
  | answered hread => exact staged_of_same (h hdistinct) rfl rfl
  | cancelled hread => exact staged_of_same (h hdistinct) rfl rfl
  | @saved id save hsave =>
      have hcommands : state.commands dates (.saveArrives id) =
          [.saveBasket save.user save.basket] := by
        rw [commands, hsave]
        rfl
      rw [hcommands]
      exact staged_of_same (h hdistinct) rfl rfl
  | @delivered id user value number restaurants basket entries now later readyDate restaurant
      hread hbasket hentries hrestaurant hready =>
      rw [issuedPlaces, List.map_append, List.nodup_append] at hdistinct
      obtain ⟨hold, -, hnew⟩ := hdistinct
      have hstaged := h hold
      refine ⟨fun index issued arrived horder => ?_, fun place hplace => ?_⟩
      · rcases List.mem_append.mp (List.mem_of_getElem? horder) with hmem | hlast
        · obtain ⟨before, hbefore⟩ := List.getElem?_of_mem hmem
          exact hstaged.orders before issued arrived hbefore
        · cases List.mem_singleton.mp hlast
          exact hstaged.others _ fun hmem => hnew _ hmem _ (List.mem_singleton.mpr rfl) rfl
      · refine hstaged.others place fun hmem => hplace ?_
        rw [issuedPlaces, List.map_append]
        exact List.mem_append_left _ hmem
  | @arrived index arrived issued write horder hwrite =>
      have hlength : arrived < (issued.commands dates).length :=
        (List.getElem?_eq_some_iff.mp hwrite).1
      obtain ⟨command, hcommand⟩ : ∃ command, (issued.commands dates)[arrived]? = some command :=
        ⟨_, List.getElem?_eq_getElem hlength⟩
      have hcommands : state.commands dates (.orderArrives index) = [command] := by
        rw [commands, horder, Option.bind_some, hcommand]
        rfl
      rw [hcommands]
      obtain ⟨hindex, hget⟩ := List.getElem?_eq_some_iff.mp horder
      have hplaces : (state.orders.set index (issued, arrived + 1)).map
          (fun order => order.1.place dates) = state.issuedPlaces dates := places_set horder
      rw [issuedPlaces, hplaces] at hdistinct
      have hstaged := h hdistinct
      refine ⟨fun other issuedOther arrivedOther hother => ?_, fun place hplace => ?_⟩
      · by_cases heq : index = other
        · subst heq
          rw [List.getElem?_set_self hindex, Option.some.injEq] at hother
          cases hother
          exact stage_perform hcommand (hstaged.orders index issued arrived horder)
        · rw [List.getElem?_set_ne heq] at hother
          have hne : issuedOther.place dates ≠ issued.place dates := by
            intro hsame
            have hfirst : (state.issuedPlaces dates)[index]? = some (issued.place dates) := by
              rw [issuedPlaces, List.getElem?_map, horder]
              rfl
            have hsecond : (state.issuedPlaces dates)[other]? = some (issued.place dates) := by
              rw [issuedPlaces, List.getElem?_map, hother, Option.map_some, hsame]
            exact heq ((List.getElem?_inj (by simpa [issuedPlaces] using hindex) hdistinct).mp
              (hfirst.trans hsecond.symm))
          exact (other_perform hcommand ledger hne).trans
            (hstaged.orders other issuedOther arrivedOther hother)
      · rw [issuedPlaces, hplaces] at hplace
        have hne : place ≠ issued.place dates := by
          rintro rfl
          exact hplace (List.mem_map_of_mem (List.mem_of_getElem? horder))
        exact (other_perform hcommand ledger hne).trans (hstaged.others place hplace)

/-- After a run without orders before it. -/
theorem staged_run {database : Json} (hempty : database.get ["Users"] = .null)
    {events : List (TrafficEvent Date)} {final : Traffic Date}
    (hrun : run (step dates) (quiet database) events = some final)
    (hdistinct : (final.issuedPlaces dates).Nodup) :
    ∃ ledger, final.Tracks dates ledger ∧ final.Staged dates ledger := by
  have hquiet : (quiet database).Tracks dates .empty ∧
      (((quiet database).issuedPlaces dates).Nodup → (quiet database).Staged dates .empty) :=
    ⟨tracks_quiet (represents_empty hempty) Ledger.sound_empty, fun _ => ⟨nofun, fun _ _ => rfl⟩⟩
  have hboth := represents_of_run Ledger.perform
    (fun state ledger => state.Tracks dates ledger ∧
      ((state.issuedPlaces dates).Nodup → state.Staged dates ledger))
    (fun _ _ _ _ h hstep => ⟨tracks_step h.1 hstep, staged_step h.2 hstep⟩) hquiet hrun
  exact ⟨_, hboth.1, hboth.2 hdistinct⟩

/-! ## What is shown of the orders -/

/-- The orders of a kind that have arrived completely, in the order in which they were
issued. -/
def arrivedOrders (state : Traffic Date) (kind : Placement Date → Prop) [DecidablePred kind] :
    List (Placement Date) :=
  (state.orders.filter fun order => kind order.1 ∧ 2 ≤ order.2).map Prod.fst

theorem kind_of_mem_arrivedOrders {kind : Placement Date → Prop} [DecidablePred kind]
    {issued : Placement Date} (hmem : issued ∈ state.arrivedOrders kind) : kind issued := by
  obtain ⟨order, horder, rfl⟩ := List.mem_map.mp hmem
  exact (of_decide_eq_true (List.mem_filter.mp horder).2).1

/-- The place of an issued order holds something as soon as its products have arrived. -/
theorem Staged.products_iff (hstaged : state.Staged dates ledger)
    (htracks : state.Tracks dates ledger) (place : String × String) :
    (ledger.orders place).products ≠ [] ↔
      ∃ order ∈ state.orders, order.1.place dates = place ∧ 1 ≤ order.2 := by
  constructor
  · intro hproducts
    by_cases hissued : place ∈ state.issuedPlaces dates
    · obtain ⟨⟨issued, arrived⟩, hmem, rfl⟩ := List.mem_map.mp hissued
      obtain ⟨index, horder⟩ := List.getElem?_of_mem hmem
      have hsound : issued.Sound := htracks.orders _ hmem
      rw [hstaged.orders index issued arrived horder,
        Placement.products_stage hsound.nonempty] at hproducts
      exact ⟨_, hmem, rfl, hproducts⟩
    · rw [hstaged.others place hissued] at hproducts
      exact absurd rfl hproducts
  · rintro ⟨order, hmem, rfl, hone⟩
    exact htracks.begun order hmem hone

/-- A list of the places of a kind of accounts rearranges the places of their orders. -/
theorem Staged.perm_issued (hstaged : state.Staged dates ledger)
    (htracks : state.Tracks dates ledger) (hdistinct : (state.issuedPlaces dates).Nodup)
    (account : String → Prop) [DecidablePred account] {met : List (String × String)}
    (hnodup : met.Nodup)
    (hmem : ∀ place, place ∈ met ↔ account place.1 ∧ (ledger.orders place).products ≠ []) :
    met.Perm ((state.orders.filter fun order => account order.1.user ∧ 1 ≤ order.2).map
      fun order => order.1.place dates) := by
  have hissued : ((state.orders.filter fun order => account order.1.user ∧ 1 ≤ order.2).map
      fun order => order.1.place dates).Nodup :=
    hdistinct.sublist (List.filter_sublist.map _)
  refine (List.perm_ext_iff_of_nodup hnodup hissued).mpr fun place => ?_
  rw [hmem, hstaged.products_iff htracks, List.mem_map]
  constructor
  · rintro ⟨haccount, order, horder, rfl, hone⟩
    exact ⟨order, List.mem_filter.mpr ⟨horder, decide_eq_true ⟨haccount, hone⟩⟩, rfl⟩
  · rintro ⟨order, horder, rfl⟩
    obtain ⟨hold, hkind⟩ := List.mem_filter.mp horder
    obtain ⟨haccount, hone⟩ := of_decide_eq_true hkind
    exact ⟨haccount, order, hold, rfl, hone⟩

/-- What is collected at these places is collected from the orders that have arrived. -/
theorem Staged.collected {α : Type} (hstaged : state.Staged dates ledger)
    (account : String → Prop) [DecidablePred account] (kind : Placement Date → Prop)
    [DecidablePred kind] (collect : String × String → Option α) (made : Placement Date → α)
    (hcollect : ∀ order ∈ state.orders,
      ledger.orders (order.1.place dates) = order.1.stage order.2 →
      (if account order.1.user then collect (order.1.place dates) else none) =
        if kind order.1 ∧ 2 ≤ order.2 then some (made order.1) else none) :
    ((state.orders.filter fun order => account order.1.user ∧ 1 ≤ order.2).map
      fun order => order.1.place dates).filterMap collect =
        (state.arrivedOrders kind).map made := by
  rw [List.filterMap_map, arrivedOrders, List.map_map, ← List.filterMap_eq_map,
    List.filterMap_filter, List.filterMap_filter]
  refine List.filterMap_congr fun order hmem => ?_
  obtain ⟨issued, arrived⟩ := order
  obtain ⟨index, horder⟩ := List.getElem?_of_mem hmem
  have hvalue := hcollect _ hmem (hstaged.orders index issued arrived horder)
  simp only [decide_eq_true_eq, Function.comp_apply] at hvalue ⊢
  by_cases hone : 1 ≤ arrived
  · simpa only [hone, and_true] using hvalue
  · have htwo : ¬2 ≤ arrived := by omega
    simp only [hone, htwo, and_false, if_false]

/-- The places met by `loadAllOrders` are those of the orders that have begun to arrive. -/
theorem Staged.perm_places (hstaged : state.Staged dates ledger)
    (htracks : state.Tracks dates ledger) (hdistinct : (state.issuedPlaces dates).Nodup) :
    (places state.database).Perm ((state.orders.filter fun order => True ∧ 1 ≤ order.2).map
      fun order => order.1.place dates) :=
  hstaged.perm_issued htracks hdistinct (fun _ => True) htracks.represents.nodup_places
    fun place => by rw [true_and, htracks.represents.mem_places_iff htracks.sound]

/-- What the kitchen sees are the orders of its name that have arrived. -/
theorem Staged.loadAllOrders_perm_arrived (hstaged : state.Staged dates ledger)
    (htracks : state.Tracks dates ledger) (hdistinct : (state.issuedPlaces dates).Nodup)
    (restaurantName : String) :
    ∃ shown, loadAllOrders restaurantName state.database = some shown ∧
      shown.Perm ((state.arrivedOrders fun issued =>
        issued.slip.restaurant.name = restaurantName).map (Placement.info dates)) := by
  have hcollected := hstaged.collected (fun _ => True)
    (fun issued => issued.slip.restaurant.name = restaurantName)
    (fun place => ((ledger.orders place).info dates).filter fun info =>
      info.restaurantName = restaurantName) (Placement.info dates) (fun order _ hstage => by
        rw [if_pos trivial, hstage, Placement.info_stage]
        by_cases htwo : 2 ≤ order.2 <;>
          simp [htwo, Option.filter_some, Placement.info, placedOrder])
  exact ⟨_, loadAllOrders_of_represents htracks.represents htracks.sound restaurantName,
    ((hstaged.perm_places htracks hdistinct).filterMap _).trans (List.Perm.of_eq hcollected)⟩

/-- The same with the places of the orders. -/
theorem Staged.storedOrders_perm_arrived (hstaged : state.Staged dates ledger)
    (htracks : state.Tracks dates ledger) (hdistinct : (state.issuedPlaces dates).Nodup)
    (restaurantName : String) :
    ((storedOrders state.database).filter fun order =>
        order.info.restaurantName = restaurantName).Perm
      ((state.arrivedOrders fun issued => issued.slip.restaurant.name = restaurantName).map
        (Placement.stored dates)) := by
  have hcollected := hstaged.collected (fun _ => True)
    (fun issued => issued.slip.restaurant.name = restaurantName)
    (fun place => ((((ledger.orders place).info dates).map
      (StoredOrder.mk place.1 place.2)).filter fun order =>
        order.info.restaurantName = restaurantName)) (Placement.stored dates)
      (fun order _ hstage => by
        rw [if_pos trivial, hstage, Placement.info_stage]
        by_cases htwo : 2 ≤ order.2 <;>
          simp [htwo, Option.filter_some, Placement.info, Placement.stored, Placement.place,
            placedOrder])
  rw [storedOrders_of_represents htracks.represents htracks.sound, List.filter_filterMap]
  exact ((hstaged.perm_places htracks hdistinct).filterMap _).trans (List.Perm.of_eq hcollected)

/-- An order is torn when its first write has arrived and its second has not. -/
theorem Staged.torn_iff (hstaged : state.Staged dates ledger) (htracks : state.Tracks dates ledger)
    (user : String) :
    (∃ hash, (ledger.orders (user, hash)).Torn) ↔
      ∃ issued, (issued, 1) ∈ state.orders ∧ issued.user = user := by
  constructor
  · rintro ⟨hash, hhash⟩
    obtain ⟨⟨issued, arrived⟩, hmem, hplace, -⟩ :=
      (hstaged.products_iff htracks (user, hash)).mp hhash.1
    obtain ⟨index, horder⟩ := List.getElem?_of_mem hmem
    rw [← hplace, hstaged.orders index issued arrived horder,
      Placement.torn_stage (htracks.orders _ hmem).nonempty] at hhash
    subst hhash
    exact ⟨issued, hmem, congrArg Prod.fst hplace⟩
  · rintro ⟨issued, hmem, rfl⟩
    obtain ⟨index, horder⟩ := List.getElem?_of_mem hmem
    refine ⟨getTimestamp dates issued.slip.date, ?_⟩
    have hstage := hstaged.orders index issued 1 horder
    rw [Placement.place] at hstage
    rw [hstage, Placement.torn_stage (htracks.orders _ hmem).nonempty]

/-- The list shows these orders, each once, as it was placed, and the newest first. -/
def Shows (dates : DateLibrary Date) (orders : List (Placement Date)) (shown : List OrderInfo) :
    Prop :=
  ShownNewestFirst dates (fun issued : Placement Date => issued.slip.date)
    (Placement.info dates) orders shown

/-- The orders of an account were placed at different readings of the clock. -/
theorem nodup_readings (hdistinct : (state.issuedPlaces dates).Nodup) (user : String) :
    ((state.arrivedOrders fun issued => issued.user = user).map
      fun issued => issued.slip.date).Nodup := by
  have hplaces : ((state.arrivedOrders fun issued => issued.user = user).map
      (Placement.place dates)).Nodup := by
    rw [arrivedOrders, List.map_map]
    exact hdistinct.sublist (List.filter_sublist.map _)
  have hsame : (state.arrivedOrders fun issued => issued.user = user).map
      (Placement.place dates) =
        ((state.arrivedOrders fun issued => issued.user = user).map
          fun issued => issued.slip.date).map fun date => (user, getTimestamp dates date) := by
    rw [List.map_map]
    refine List.map_congr_left fun issued hmem => ?_
    exact congrArg (·, getTimestamp dates issued.slip.date) (kind_of_mem_arrivedOrders hmem)
  exact List.Nodup.of_map _ (hsame ▸ hplaces)

/-- What `getOrders` decodes of an account without torn orders are its orders that have
arrived. -/
theorem Staged.entries_perm_arrived (hstaged : state.Staged dates ledger)
    (htracks : state.Tracks dates ledger) (hdistinct : (state.issuedPlaces dates).Nodup)
    (user : String) :
    ((state.database.get (ordersPath user)).keys.filterMap fun hash =>
        (ledger.orders (user, hash)).info dates).Perm
      ((state.arrivedOrders fun issued => issued.user = user).map (Placement.info dates)) := by
  -- the hashes of the account are its places
  have hkeys : ((state.database.get (ordersPath user)).keys.map (Prod.mk user)).filterMap
      (fun place => (ledger.orders place).info dates) =
        (state.database.get (ordersPath user)).keys.filterMap fun hash =>
          (ledger.orders (user, hash)).info dates := List.filterMap_map
  have hmet : ∀ place, place ∈ (state.database.get (ordersPath user)).keys.map (Prod.mk user) ↔
      place.1 = user ∧ (ledger.orders place).products ≠ [] := by
    rintro ⟨other, hash⟩
    rw [List.mem_map]
    constructor
    · rintro ⟨found, hmem, heq⟩
      cases heq
      exact ⟨rfl, (htracks.represents.mem_hashes_iff htracks.sound).mp hmem⟩
    · rintro ⟨rfl, hproducts⟩
      exact ⟨hash, (htracks.represents.mem_hashes_iff htracks.sound).mpr hproducts, rfl⟩
  have hnodup : ((state.database.get (ordersPath user)).keys.map (Prod.mk user)).Nodup :=
    (htracks.represents.orders user).distinct.map fun hash other heq => (Prod.mk.inj heq).2
  have hperm := hstaged.perm_issued htracks hdistinct (fun other => other = user) hnodup hmet
  have hcollected := hstaged.collected (fun other => other = user)
    (fun issued => issued.user = user) (fun place => (ledger.orders place).info dates)
    (Placement.info dates) (fun order _ hstage => by
      rw [hstage, Placement.info_stage, ite_and])
  rw [← hkeys]
  exact (hperm.filterMap _).trans (List.Perm.of_eq hcollected)

/-- What an account without torn orders is shown are its orders that have arrived. -/
theorem Staged.getOrders_arrived (hlawful : dates.Lawful)
    (hstaged : state.Staged dates ledger) (htracks : state.Tracks dates ledger)
    (hdistinct : (state.issuedPlaces dates).Nodup) {user : String}
    (hnone : ∀ issued, (issued, 1) ∈ state.orders → issued.user ≠ user) :
    ∃ shown, getOrders dates ⟨some user⟩ true state.database = some (.ok shown) ∧
      Shows dates (state.arrivedOrders fun issued => issued.user = user) shown := by
  have hwhole : ∀ hash, ¬(ledger.orders (user, hash)).Torn := fun hash hhash => by
    obtain ⟨issued, hmem, huser⟩ := (hstaged.torn_iff htracks user).mp ⟨hash, hhash⟩
    exact hnone issued hmem huser
  have hentries := getOrdersEntries_whole htracks.represents htracks.sound hwhole
  obtain ⟨shown, hshown, hnewest⟩ := getOrdersResponse_of_dated hlawful hentries
    (hstaged.entries_perm_arrived htracks hdistinct user)
    (fun issued _ => ⟨rfl, issued.slip.readyDate, rfl⟩) (nodup_readings hdistinct user)
  exact ⟨shown, by rw [getOrders_eq, hshown, Option.map_some], hnewest⟩

/-- `getOrders` traps exactly while an order of the account is torn. -/
theorem Staged.getOrders_eq_none_iff (hlawful : dates.Lawful)
    (hstaged : state.Staged dates ledger) (htracks : state.Tracks dates ledger)
    (hdistinct : (state.issuedPlaces dates).Nodup) (user : String) :
    getOrders dates ⟨some user⟩ true state.database = none ↔
      ∃ issued, (issued, 1) ∈ state.orders ∧ issued.user = user := by
  constructor
  · intro hnone
    by_contra hnot
    obtain ⟨shown, hsome, -⟩ := hstaged.getOrders_arrived hlawful htracks hdistinct
      fun issued hmem huser => hnot ⟨issued, hmem, huser⟩
    rw [hsome] at hnone
    cases hnone
  · intro h
    obtain ⟨hash, hhash⟩ := (hstaged.torn_iff htracks user).mpr h
    exact getOrders_of_torn htracks.represents htracks.sound hhash

/-- At any moment, `getOrders` of an account traps exactly when one of its orders has
its products and not its slip; otherwise it shows exactly the orders of the account that
have arrived, each once, and the newest first. -/
theorem customer_during_traffic (hlawful : dates.Lawful) {database : Json}
    (hempty : database.get ["Users"] = .null)
    {events : List (TrafficEvent Date)} {final : Traffic Date}
    (hrun : run (step dates) (quiet database) events = some final)
    (hdistinct : (final.issuedPlaces dates).Nodup) (user : String) :
    (getOrders dates ⟨some user⟩ true final.database = none ↔
      ∃ issued, (issued, 1) ∈ final.orders ∧ issued.user = user) ∧
    ((∀ issued, (issued, 1) ∈ final.orders → issued.user ≠ user) →
      ∃ shown, getOrders dates ⟨some user⟩ true final.database = some (.ok shown) ∧
        Shows dates (final.arrivedOrders fun issued => issued.user = user) shown) := by
  obtain ⟨ledger, htracks, hstaged⟩ := staged_run hempty hrun hdistinct
  exact ⟨hstaged.getOrders_eq_none_iff hlawful htracks hdistinct user,
    hstaged.getOrders_arrived hlawful htracks hdistinct⟩

/-! ## Orders stay -/

/-- Orders are issued one after another, and none is forgotten. -/
theorem issuedPlaces_step {next : Traffic Date} {event : TrafficEvent Date}
    (hstep : state.step dates event = some next) :
    (state.issuedPlaces dates).Sublist (next.issuedPlaces dates) := by
  cases transition_of_step hstep with
  | delivered hread hbasket hentries hrestaurant hready =>
      rw [issuedPlaces, issuedPlaces, List.map_append]
      exact List.sublist_append_left _ _
  | arrived horder hwrite =>
      rw [issuedPlaces, issuedPlaces, places_set horder]
      exact List.Sublist.refl _
  | posted | asked | refused | answered | cancelled | saved => exact List.Sublist.refl _

theorem issuedPlaces_run {events : List (TrafficEvent Date)} {final : Traffic Date}
    (hrun : run (step dates) state events = some final) :
    (state.issuedPlaces dates).Sublist (final.issuedPlaces dates) :=
  run_invariant (fun later => (state.issuedPlaces dates).Sublist (later.issuedPlaces dates))
    (fun _ _ _ h hstep => h.trans (issuedPlaces_step hstep)) (List.Sublist.refl _) hrun

/-- No event takes an order away from those that have arrived. -/
theorem arrivedOrders_step {next : Traffic Date} {event : TrafficEvent Date}
    (kind : Placement Date → Prop) [DecidablePred kind]
    (hstep : state.step dates event = some next) :
    (state.arrivedOrders kind).Sublist (next.arrivedOrders kind) := by
  cases transition_of_step hstep with
  | delivered hread hbasket hentries hrestaurant hready =>
      rw [arrivedOrders, arrivedOrders, List.filter_append]
      exact (List.sublist_append_left _ _).map _
  | @arrived index arrived issued write horder hwrite =>
      obtain ⟨hindex, hget⟩ := List.getElem?_eq_some_iff.mp horder
      have hbefore : state.orders =
          state.orders.take index ++ (issued, arrived) :: state.orders.drop (index + 1) := by
        rw [← hget, List.cons_getElem_drop_succ, List.take_append_drop]
      have hafter : state.orders.set index (issued, arrived + 1) =
          state.orders.take index ++ (issued, arrived + 1) :: state.orders.drop (index + 1) :=
        List.set_eq_take_append_cons_drop.trans (if_pos hindex)
      unfold arrivedOrders
      dsimp only
      rw [hafter]
      conv_lhs => rw [hbefore]
      rw [List.filter_append, List.filter_append, List.map_append, List.map_append]
      refine (List.Sublist.refl _).append ?_
      by_cases hin : kind issued ∧ 2 ≤ arrived
      · have hnext : kind issued ∧ 2 ≤ arrived + 1 := ⟨hin.1, by omega⟩
        rw [List.filter_cons_of_pos (by simpa using hin),
          List.filter_cons_of_pos (by simpa using hnext)]
        exact List.Sublist.refl _
      · rw [List.filter_cons_of_neg (by simpa using hin)]
        exact (List.Sublist.filter _ (List.sublist_cons_self _ _)).map _
  | posted | asked | refused | answered | cancelled | saved => exact List.Sublist.refl _

theorem arrivedOrders_run {events : List (TrafficEvent Date)} {final : Traffic Date}
    (kind : Placement Date → Prop) [DecidablePred kind]
    (hrun : run (step dates) state events = some final) :
    (state.arrivedOrders kind).Sublist (final.arrivedOrders kind) :=
  run_invariant (fun later => (state.arrivedOrders kind).Sublist (later.arrivedOrders kind))
    (fun _ _ _ h hstep => h.trans (arrivedOrders_step kind hstep)) (List.Sublist.refl _) hrun

/-- At any moment of any traffic at different places, the kitchen sees exactly the
orders of its name whose slip has arrived, each of them once, as it was placed; and what
it has once seen it sees, unchanged, at every later moment. -/
theorem kitchen_during_traffic {database : Json} (hempty : database.get ["Users"] = .null)
    {events later : List (TrafficEvent Date)} {middle final : Traffic Date}
    (hrun : run (step dates) (quiet database) events = some middle)
    (hlater : run (step dates) middle later = some final)
    (hdistinct : (final.issuedPlaces dates).Nodup) (restaurantName : String) :
    ∃ before after, loadAllOrders restaurantName middle.database = some before ∧
      loadAllOrders restaurantName final.database = some after ∧
      before.Perm ((middle.arrivedOrders fun issued =>
        issued.slip.restaurant.name = restaurantName).map (Placement.info dates)) ∧
      after.Perm ((final.arrivedOrders fun issued =>
        issued.slip.restaurant.name = restaurantName).map (Placement.info dates)) ∧
      before.Subperm after := by
  have hwhole : run (step dates) (quiet database) (events ++ later) = some final :=
    run_append.mpr ⟨middle, hrun, hlater⟩
  have hmiddle : (middle.issuedPlaces dates).Nodup :=
    hdistinct.sublist (issuedPlaces_run hlater)
  obtain ⟨ledger, htracks, hstaged⟩ := staged_run hempty hrun hmiddle
  obtain ⟨before, hbefore, hbeforePerm⟩ :=
    hstaged.loadAllOrders_perm_arrived htracks hmiddle restaurantName
  obtain ⟨ledgerAfter, htracksAfter, hstagedAfter⟩ := staged_run hempty hwhole hdistinct
  obtain ⟨after, hafter, hafterPerm⟩ :=
    hstagedAfter.loadAllOrders_perm_arrived htracksAfter hdistinct restaurantName
  have hkept := ((arrivedOrders_run (fun issued : Placement Date =>
    issued.slip.restaurant.name = restaurantName) hlater).map (Placement.info dates)).subperm
  exact ⟨before, after, hbefore, hafter, hbeforePerm, hafterPerm,
    hbeforePerm.subperm.trans (hkept.trans hafterPerm.symm.subperm)⟩

end Staged

/-! ## The two accounts -/

theorem customer_during_traffic_rushHour :
    ∃ final, run (step utcDates) (quiet .null) rushHour = some final ∧
      getOrders utcDates ⟨some "boris@mail"⟩ true final.database = none ∧
      ∃ shown, getOrders utcDates ⟨some "anna@mail"⟩ true final.database = some (.ok shown) ∧
        shown.length = 1 := by
  have hfinal : ((run (step utcDates) (quiet .null) rushHour).any fun final =>
      decide ((final.issuedPlaces utcDates).Nodup ∧
        (∃ order ∈ final.orders, order.2 = 1 ∧ order.1.user = "boris@mail") ∧
        (∀ order ∈ final.orders, order.2 = 1 → order.1.user ≠ "anna@mail") ∧
        (final.arrivedOrders fun issued => issued.user = "anna@mail").length = 1)) = true := by
    decide
  obtain ⟨final, hrun, hall⟩ := (Option.any_eq_true _ _).mp hfinal
  obtain ⟨hplaces, ⟨⟨issued, arrived⟩, hmem, rfl, huser⟩, hnone, hone⟩ := of_decide_eq_true hall
  obtain ⟨shown, hshown, history, hperm, -, hforall⟩ := (customer_during_traffic utcDates_lawful
    rfl hrun hplaces "anna@mail").2 fun issued hmem => hnone _ hmem rfl
  refine ⟨final, hrun, (customer_during_traffic utcDates_lawful rfl hrun hplaces
    "boris@mail").1.mpr ⟨issued, hmem, huser⟩, shown, hshown, ?_⟩
  rw [← hforall.length_eq, hperm.length_eq, hone]

/-- The rest of the writes. -/
def afterRushHour : List (TrafficEvent Nat) := [.orderArrives 0, .orderArrives 0, .orderArrives 1]

theorem kitchen_during_traffic_rushHour :
    ∃ middle final, run (step utcDates) (quiet .null) rushHour = some middle ∧
      run (step utcDates) middle afterRushHour = some final ∧
      ∃ before after, loadAllOrders "Groot" middle.database = some before ∧
        loadAllOrders "Groot" final.database = some after ∧ before.Subperm after := by
  have hdistinct : ((run (step utcDates) (quiet .null) (rushHour ++ afterRushHour)).any
      fun final => decide (final.issuedPlaces utcDates).Nodup) = true := by decide
  obtain ⟨final, hwhole, hplaces⟩ := (Option.any_eq_true _ _).mp hdistinct
  obtain ⟨middle, hrun, hlater⟩ := run_append.mp hwhole
  obtain ⟨before, after, hbefore, hafter, -, -, hkept⟩ :=
    kitchen_during_traffic rfl hrun hlater (of_decide_eq_true hplaces) "Groot"
  exact ⟨middle, final, hrun, hlater, before, after, hbefore, hafter, hkept⟩

end Traffic

end QFree
