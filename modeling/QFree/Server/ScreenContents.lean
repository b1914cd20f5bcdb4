/-
  Server/ScreenContents.lean --- what the order screens of both apps can show.

  A list of orders is delivered as a whole, so a screen always shows the orders of
  one moment: those that had arrived when the answer was made
  (`screens_show_one_moment`).  Everything on a screen is therefore an order that
  was placed, by the customer of the tab or for the name of the split screen; and
  since the status is written by `makeOrder` only, a customer is told that an order
  will be ready, whatever was pressed in the kitchen
  (`screens_show_placed_orders`).

  Of the events of the order screens two can stop an app: when a customer's orders are answered
  while one of them is torn, and when an order is selected in the kitchen whose
  total leaves the range of `Int` (`screens_trap_iff`).  The cells that show the
  products of a selected order are not among these events.
-/
import QFree.Server.Apps

set_option autoImplicit false

namespace QFree

open QFree.Foundation QFree.FirebaseHandler

/-! ## The order screen of the kitchen -/

/-- The panel has the order of the screen, or its completed copy, and could add it up. -/
structure OrderViewController.Consistent (screen : OrderViewController) : Prop where
  copy : screen.bottomPanelView.order = screen.order ∨
    ∃ order, screen.order = some order ∧
      screen.bottomPanelView.order = some { order with info := { order.info with status := 1 } }
  priced : ∀ order, screen.bottomPanelView.order = some order → order.info.totalPrice ≠ none

namespace OrderViewController

theorem consistent_initial : initial.Consistent := ⟨.inl rfl, nofun⟩

theorem totalPrice_of_setOrder {panel next : OrderInfoBottomPanel} {order : StoredOrder}
    (h : panel.setOrder order = some next) : order.info.totalPrice ≠ none := by
  obtain ⟨totalPrice, htotal, -⟩ := Option.bind_eq_some_iff.mp h
  rw [htotal]
  exact Option.some_ne_none totalPrice

/-- A panel takes every order that can be added up. -/
theorem setOrder_eq_none_iff (panel : OrderInfoBottomPanel) (order : StoredOrder) :
    panel.setOrder order = none ↔ order.info.totalPrice = none := by
  cases htotal : order.info.totalPrice <;>
    simp [OrderInfoBottomPanel.setOrder, OrderInfoBottomPanel.updateUI, htotal]

variable {screen next : OrderViewController}

theorem updateOrderInfo_eq_none_iff (screen : OrderViewController) (order : StoredOrder) :
    screen.updateOrderInfo order = none ↔ order.info.totalPrice = none := by
  rw [← setOrder_eq_none_iff screen.bottomPanelView order]
  cases hpanel : screen.bottomPanelView.setOrder order <;> simp [updateOrderInfo, hpanel]

theorem order_of_updateOrderInfo {order : StoredOrder}
    (h : screen.updateOrderInfo order = some next) : next.order = some order := by
  obtain ⟨panel, -, hnext⟩ := Option.bind_eq_some_iff.mp h
  rw [← Option.some.inj hnext]

theorem consistent_updateOrderInfo {order : StoredOrder}
    (h : screen.updateOrderInfo order = some next) : next.Consistent := by
  obtain ⟨panel, hpanel, hnext⟩ := Option.bind_eq_some_iff.mp h
  obtain rfl := Option.some.inj hnext
  have hshown := OrderInfoBottomPanel.setOrder_order hpanel
  refine ⟨.inl hshown, fun other hother => ?_⟩
  obtain rfl : order = other := Option.some.inj (hshown.symm.trans hother)
  exact totalPrice_of_setOrder hpanel

theorem consistent_completeOrder (h : screen.Consistent) {panel : OrderInfoBottomPanel}
    (hpressed : screen.bottomPanelView.completeOrder = some panel) :
    { screen with bottomPanelView := panel }.Consistent := by
  unfold OrderInfoBottomPanel.completeOrder at hpressed
  split at hpressed
  · obtain rfl := Option.some.inj hpressed
    exact h
  · rename_i shown hshown
    have hpanel := OrderInfoBottomPanel.setOrder_order hpressed
    refine ⟨.inr ?_, fun other hother => ?_⟩
    · rcases h.copy with hsame | ⟨order, horder, hcompleted⟩
      · exact ⟨shown, hsame.symm.trans hshown, hpanel⟩
      · obtain rfl := Option.some.inj (hshown.symm.trans hcompleted)
        exact ⟨order, horder, hpanel⟩
    · obtain rfl := Option.some.inj (hpanel.symm.trans hother)
      exact totalPrice_of_setOrder hpressed

/-- The button of a consistent panel can be pressed. -/
theorem completeOrder_ne_none (h : screen.Consistent) :
    screen.bottomPanelView.completeOrder ≠ none := by
  unfold OrderInfoBottomPanel.completeOrder
  split
  · exact Option.some_ne_none _
  · rename_i shown hshown
    rw [ne_eq, setOrder_eq_none_iff]
    exact h.priced shown hshown

end OrderViewController

/-! ## Screens and moments -/

section Screens

variable {Date : Type} (dates : DateLibrary Date) (database : Json)

/-- The condition held at a moment of the traffic. -/
abbrev Traffic.Once (condition : Traffic Date → Prop) (traffic : Traffic Date) : Prop :=
  Foundation.Once (Traffic.step dates) (Traffic.quiet database) condition traffic

/-- The tab shows the orders of one moment, and each screen above it an order of one. -/
structure OrdersTab.Recorded (traffic : Traffic Date) (screen : OrdersTab) : Prop where
  orders : traffic.Once dates database fun moment =>
    getOrdersResponse dates (moment.database.get (ordersPath screen.user)) = some screen.orders
  pushed : ∀ order ∈ screen.pushed, traffic.Once dates database fun moment =>
    ∃ shown, getOrdersResponse dates (moment.database.get (ordersPath screen.user)) =
      some shown ∧ order ∈ shown

/-- The split screen shows the orders of one moment, and the order screen one of them. -/
structure SplitScreen.Recorded (traffic : Traffic Date) (screen : SplitScreen) : Prop where
  orders : traffic.Once dates database fun moment =>
    screen.orders.Perm ((storedOrders moment.database).filter fun order =>
      order.info.restaurantName = screen.restaurantName)
  selected : ∀ order, screen.orderScreen.order = some order →
    traffic.Once dates database fun moment =>
      order ∈ (storedOrders moment.database).filter fun order =>
        order.info.restaurantName = screen.restaurantName
  consistent : screen.orderScreen.Consistent

/-- Everything on the screens, and everything on its way to them, is of a moment. -/
structure Apps.Recorded (state : Apps Date) : Prop where
  now : Through (Traffic.step dates) (.quiet database) state.traffic state.traffic
  answers : ∀ fetch task value, state.fetches fetch = some (.answered task value) →
    ∃ path, state.path task = some path ∧
      state.traffic.Once dates database fun moment => value = moment.database.get path
  tabs : ∀ tab screen, state.tabs tab = some screen → screen.Recorded dates database state.traffic
  splits : ∀ split screen, state.splits split = some screen →
    screen.Recorded dates database state.traffic

variable {dates database} {state next : Apps Date}

theorem OrdersTab.Recorded.later {traffic after : Traffic Date} {event : TrafficEvent Date}
    {screen : OrdersTab} (h : screen.Recorded dates database traffic)
    (hstep : traffic.step dates event = some after) : screen.Recorded dates database after :=
  ⟨h.orders.later hstep, fun order hmem => (h.pushed order hmem).later hstep⟩

theorem SplitScreen.Recorded.later {traffic after : Traffic Date} {event : TrafficEvent Date}
    {screen : SplitScreen} (h : screen.Recorded dates database traffic)
    (hstep : traffic.step dates event = some after) : screen.Recorded dates database after :=
  ⟨h.orders.later hstep, fun order horder => (h.selected order horder).later hstep, h.consistent⟩

/-- Whatever a customer sees of an order was shown at a moment. -/
theorem OrdersTab.Recorded.once {traffic : Traffic Date} {screen : OrdersTab}
    (h : screen.Recorded dates database traffic) {order : OrderInfo}
    (horder : order ∈ screen.orders ∨ order ∈ screen.pushed) :
    traffic.Once dates database fun moment =>
      ∃ shown, getOrdersResponse dates (moment.database.get (ordersPath screen.user)) =
        some shown ∧ order ∈ shown := by
  rcases horder with hlisted | hpushed
  · exact h.orders.imp fun moment hshown => ⟨screen.orders, hshown, hlisted⟩
  · exact h.pushed order hpushed

theorem SplitScreen.Recorded.once {traffic : Traffic Date} {screen : SplitScreen}
    (h : screen.Recorded dates database traffic) {order : StoredOrder}
    (horder : order ∈ screen.orders ∨ screen.orderScreen.order = some order) :
    traffic.Once dates database fun moment =>
      order ∈ (storedOrders moment.database).filter fun order =>
        order.info.restaurantName = screen.restaurantName := by
  rcases horder with hlisted | hselected
  · exact h.orders.imp fun moment hperm => hperm.mem_iff.mp hlisted
  · exact h.selected order hselected

namespace Apps

/-- A read goes on being for the same path. -/
theorem path_step {event : AppsEvent Date} (hstep : state.step dates event = some next)
    {task : OrdersTask} {path : List String} (hpath : state.path task = some path) :
    next.path task = some path := by
  cases task with
  | getOrders tab =>
      obtain ⟨screen, hscreen, rfl⟩ := Option.map_eq_some_iff.mp hpath
      refine Option.map_eq_some_iff.mpr ?_
      cases transition_of_step hstep with
      | @loaded other user htab =>
          refine ⟨screen, ?_, rfl⟩
          have hne : tab ≠ other := fun heq => nomatch (heq ▸ hscreen).symm.trans htab
          exact (Function.update_of_ne hne _ _).trans hscreen
      | @shown fetch other value old ordersInfo hfetch hother hresponse =>
          by_cases heq : tab = other
          · subst heq
            obtain rfl := Option.some.inj (hscreen.symm.trans hother)
            exact ⟨_, Function.update_self _ _ _, rfl⟩
          · exact ⟨screen, (Function.update_of_ne heq _ _).trans hscreen, rfl⟩
      | @pushed other row old currentOrder hother hrow =>
          by_cases heq : tab = other
          · subst heq
            obtain rfl := Option.some.inj (hscreen.symm.trans hother)
            exact ⟨_, Function.update_self _ _ _, rfl⟩
          · exact ⟨screen, (Function.update_of_ne heq _ _).trans hscreen, rfl⟩
      | traffic | asked | refused | opened | answered | shownAll | selected | completed | closed =>
          exact ⟨screen, hscreen, rfl⟩
  | loadOrders split =>
      obtain ⟨screen, hscreen, rfl⟩ := Option.map_eq_some_iff.mp hpath
      have hkept : ∀ (other : Nat) (screen' : SplitScreen),
          ∃ kept, Function.update state.splits other (some screen') split = some kept := by
        intro other screen'
        by_cases heq : split = other
        · subst heq
          exact ⟨screen', Function.update_self _ _ _⟩
        · exact ⟨screen, (Function.update_of_ne heq _ _).trans hscreen⟩
      suffices hnext : ∃ kept, next.splits split = some kept by
        obtain ⟨kept, hkept⟩ := hnext
        exact Option.map_eq_some_iff.mpr ⟨kept, hkept, rfl⟩
      cases transition_of_step hstep with
      | opened | shownAll | selected | completed | closed => exact hkept _ _
      | traffic | loaded | asked | refused | answered | shown | pushed => exact ⟨screen, hscreen⟩

/-- Before the first order there is nothing to show. -/
theorem getOrdersResponse_of_empty (hempty : database.get ["Users"] = .null) (user : String) :
    getOrdersResponse dates (database.get (ordersPath user)) = some [] := by
  have hpath : database.get (ordersPath user) = .null :=
    (Json.get_append database ["Users"] [user, "orders"]).trans (by rw [hempty]; rfl)
  rw [hpath]
  simp [getOrdersResponse, getOrdersEntries, asDictionary, sortOrdersInfo]

theorem recorded_launched : (launched database).Recorded dates database :=
  ⟨.refl _, nofun, nofun, nofun⟩

/-- A screen that is put into a table. -/
theorem forall_update {α : Type} {table : Nat → Option α} {condition : α → Prop}
    (h : ∀ id value, table id = some value → condition value) (id : Nat) {new : α}
    (hnew : condition new) :
    ∀ other value, Function.update table id (some new) other = some value → condition value := by
  intro other value hvalue
  rcases of_update_eq_some hvalue with ⟨-, heq⟩ | hold
  · exact Option.some.inj heq ▸ hnew
  · exact h other value hold

/-- Every event leaves on the screens what was there at a moment. -/
theorem recorded_step (hempty : database.get ["Users"] = .null)
    (h : state.Recorded dates database) {event : AppsEvent Date}
    (hstep : state.step dates event = some next) : next.Recorded dates database := by
  have hanswers : ∀ fetch task value, state.fetches fetch = some (.answered task value) →
      ∃ path, next.path task = some path ∧
        state.traffic.Once dates database fun moment => value = moment.database.get path := by
    intro fetch task value hfetch
    obtain ⟨path, hpath, honce⟩ := h.answers fetch task value hfetch
    exact ⟨path, path_step hstep hpath, honce⟩
  cases transition_of_step hstep with
  | traffic htraffic =>
      refine ⟨(h.now.later htraffic).now, fun fetch task value hfetch => ?_,
        fun tab screen htab => (h.tabs tab screen htab).later htraffic,
        fun split screen hsplit => (h.splits split screen hsplit).later htraffic⟩
      obtain ⟨path, hpath, honce⟩ := hanswers fetch task value hfetch
      exact ⟨path, hpath, honce.later htraffic⟩
  | @loaded tab user htab =>
      exact ⟨h.now, hanswers, forall_update h.tabs tab
        ⟨once_of_start h.now (getOrdersResponse_of_empty hempty user), nofun⟩, h.splits⟩
  | asked htab =>
      refine ⟨h.now, fun fetch task value hfetch => ?_, h.tabs, h.splits⟩
      rcases of_update_eq_some hfetch with ⟨-, hnew⟩ | hold
      · cases hnew
      · exact hanswers fetch task value hold
  | refused => exact h
  | @opened split fetch restaurantName hsplit =>
      refine ⟨h.now, fun other task value hfetch => ?_, h.tabs, forall_update h.splits split ⟨?_,
        nofun, OrderViewController.consistent_initial⟩⟩
      · rcases of_update_eq_some hfetch with ⟨-, hnew⟩ | hold
        · cases hnew
        · exact hanswers other task value hold
      · refine once_of_start h.now ?_
        rw [Traffic.quiet, storedOrders, hempty]
        exact List.Perm.refl []
  | @answered fetch task path hfetch hpath =>
      refine ⟨h.now, fun other asked value hother => ?_, h.tabs, h.splits⟩
      rcases of_update_eq_some hother with ⟨-, hnew⟩ | hold
      · cases hnew
        exact ⟨path, path_step hstep hpath, once_of_now h.now rfl⟩
      · exact hanswers other asked value hold
  | @shown fetch tab value screen ordersInfo hfetch htab hresponse =>
      refine ⟨h.now, fun other asked answer hother => ?_, forall_update h.tabs tab ?_, h.splits⟩
      · rcases of_update_eq_some hother with ⟨-, hnew⟩ | hold
        · cases hnew
        · exact hanswers other asked answer hold
      · obtain ⟨path, hpath, honce⟩ := h.answers fetch _ value hfetch
        rw [Apps.path, htab, Option.map_some, Option.some.injEq] at hpath
        subst hpath
        refine ⟨honce.imp fun moment hvalue => ?_, (h.tabs tab screen htab).pushed⟩
        rw [← hvalue, hresponse]
  | @shownAll fetch split value screen orders hfetch hsplit horders =>
      have hold := h.splits split screen hsplit
      refine ⟨h.now, fun other asked answer hother => ?_, h.tabs, forall_update h.splits split ?_⟩
      · rcases of_update_eq_some hother with ⟨-, hnew⟩ | hold
        · cases hnew
        · exact hanswers other asked answer hold
      · obtain ⟨path, hpath, honce⟩ := h.answers fetch _ value hfetch
        rw [Apps.path, hsplit, Option.map_some, Option.some.injEq] at hpath
        subst hpath
        split
        · refine ⟨honce.imp fun moment hvalue => ?_, hold.selected, hold.consistent⟩
          rwa [storedOrders, ← hvalue]
        · exact hold
  | @pushed tab row screen currentOrder htab hrow =>
      have hold := h.tabs tab screen htab
      refine ⟨h.now, hanswers, forall_update h.tabs tab ⟨hold.orders, fun order hmem => ?_⟩,
        h.splits⟩
      rcases List.mem_append.mp hmem with hbefore | hnew
      · exact hold.pushed order hbefore
      · rw [List.mem_singleton.mp hnew]
        exact hold.orders.imp fun moment hshown => ⟨_, hshown, List.mem_of_getElem? hrow⟩
  | @selected split row screen currentOrder orderScreen hsplit hrow hupdate =>
      have hold := h.splits split screen hsplit
      refine ⟨h.now, hanswers, h.tabs, forall_update h.splits split ⟨hold.orders,
        fun order horder => ?_, OrderViewController.consistent_updateOrderInfo hupdate⟩⟩
      obtain rfl := Option.some.inj
        ((OrderViewController.order_of_updateOrderInfo hupdate).symm.trans horder)
      exact hold.orders.imp fun moment hperm => hperm.mem_iff.mp (List.mem_of_getElem? hrow)
  | @completed split screen bottomPanelView hsplit hpressed =>
      have hold := h.splits split screen hsplit
      exact ⟨h.now, hanswers, h.tabs, forall_update h.splits split ⟨hold.orders, hold.selected,
        OrderViewController.consistent_completeOrder hold.consistent hpressed⟩⟩
  | @closed split screen hsplit =>
      have hold := h.splits split screen hsplit
      exact ⟨h.now, hanswers, h.tabs,
        forall_update h.splits split ⟨hold.orders, hold.selected, hold.consistent⟩⟩

theorem recorded_run (hempty : database.get ["Users"] = .null) {events : List (AppsEvent Date)}
    {final : Apps Date} (hrun : run (step dates) (launched database) events = some final) :
    final.Recorded dates database :=
  run_invariant (Apps.Recorded dates database) (fun _ _ _ h hstep => recorded_step hempty h hstep)
    recorded_launched hrun

/-! ## What a moment shows -/

/-- The orders at a moment of a traffic at different places. -/
theorem staged_of_through (hempty : database.get ["Users"] = .null) {moment traffic : Traffic Date}
    (hthrough : Through (Traffic.step dates) (.quiet database) moment traffic)
    (hdistinct : (traffic.issuedPlaces dates).Nodup) :
    (moment.issuedPlaces dates).Nodup ∧
      ∃ ledger, moment.Tracks dates ledger ∧ moment.Staged dates ledger := by
  obtain ⟨⟨before, hbefore⟩, after, hafter⟩ := hthrough
  have hmoment := hdistinct.sublist (Traffic.issuedPlaces_run hafter)
  exact ⟨hmoment, Traffic.staged_run hempty hbefore hmoment⟩

/-- What has arrived at a moment has arrived at the end. -/
theorem mem_arrived_of_through {moment traffic : Traffic Date}
    (hthrough : Through (Traffic.step dates) (.quiet database) moment traffic)
    {kind : Placement Date → Prop} [DecidablePred kind] {issued : Placement Date}
    (hmem : issued ∈ moment.arrivedOrders kind) : issued ∈ traffic.arrivedOrders kind := by
  obtain ⟨-, after, hafter⟩ := hthrough
  exact (Traffic.arrivedOrders_run kind hafter).subset hmem

/-- The orders a customer is shown at a moment. -/
theorem orders_of_moment (hlawful : dates.Lawful) {moment : Traffic Date} {ledger : Ledger Date}
    (htracks : moment.Tracks dates ledger) (hstaged : moment.Staged dates ledger)
    (hdistinct : (moment.issuedPlaces dates).Nodup) {user : String} {shown : List OrderInfo}
    (hshown : getOrdersResponse dates (moment.database.get (ordersPath user)) = some shown) :
    Traffic.Shows dates (moment.arrivedOrders fun issued => issued.user = user) shown := by
  have hread : getOrders dates ⟨some user⟩ true moment.database = some (.ok shown) := by
    rw [getOrders_eq, hshown, Option.map_some]
  have hnone : ∀ issued, (issued, 1) ∈ moment.orders → issued.user ≠ user := by
    intro issued hmem huser
    rw [(hstaged.getOrders_eq_none_iff hlawful htracks hdistinct user).mpr
      ⟨issued, hmem, huser⟩] at hread
    cases hread
  obtain ⟨found, hfound, hshows⟩ := hstaged.getOrders_arrived hlawful htracks hdistinct hnone
  rw [hread] at hfound
  obtain rfl := Except.ok.inj (Option.some.inj hfound)
  exact hshows

section Contents

variable {events : List (AppsEvent Date)} {final : Apps Date}

/-- In every run at different places, each customer is shown exactly the orders of the
account that had arrived at one moment, and each split screen exactly the orders of its
name that had. -/
theorem screens_show_one_moment (hlawful : dates.Lawful) (hempty : database.get ["Users"] = .null)
    (hrun : run (step dates) (launched database) events = some final)
    (hdistinct : (final.traffic.issuedPlaces dates).Nodup) :
    (∀ tab screen, final.tabs tab = some screen →
      final.traffic.Once dates database fun moment =>
        Traffic.Shows dates (moment.arrivedOrders fun issued => issued.user = screen.user)
          screen.orders) ∧
    ∀ split screen, final.splits split = some screen →
      final.traffic.Once dates database fun moment =>
        screen.orders.Perm ((moment.arrivedOrders fun issued =>
          issued.slip.restaurant.name = screen.restaurantName).map (Placement.stored dates)) := by
  have hrecorded := recorded_run hempty hrun
  refine ⟨fun tab screen htab => ?_, fun split screen hsplit => ?_⟩
  · obtain ⟨moment, hthrough, hshown⟩ := (hrecorded.tabs tab screen htab).orders
    obtain ⟨hmoment, ledger, htracks, hstaged⟩ := staged_of_through hempty hthrough hdistinct
    exact ⟨moment, hthrough, orders_of_moment hlawful htracks hstaged hmoment hshown⟩
  · obtain ⟨moment, hthrough, hperm⟩ := (hrecorded.splits split screen hsplit).orders
    obtain ⟨hmoment, ledger, htracks, hstaged⟩ := staged_of_through hempty hthrough hdistinct
    exact ⟨moment, hthrough,
      hperm.trans (hstaged.storedOrders_perm_arrived htracks hmoment screen.restaurantName)⟩

/-- An order a customer has seen was placed by the account. -/
theorem placed_of_shown (hlawful : dates.Lawful) (hempty : database.get ["Users"] = .null)
    {traffic : Traffic Date} (hdistinct : (traffic.issuedPlaces dates).Nodup)
    {user : String} {order : OrderInfo}
    (honce : traffic.Once dates database fun moment =>
      ∃ shown, getOrdersResponse dates (moment.database.get (ordersPath user)) = some shown ∧
        order ∈ shown) :
    ∃ issued ∈ traffic.arrivedOrders fun issued => issued.user = user,
      ShownAs dates (issued.info dates) order := by
  obtain ⟨moment, hthrough, shown, hshown, hmem⟩ := honce
  obtain ⟨hmoment, ledger, htracks, hstaged⟩ := staged_of_through hempty hthrough hdistinct
  obtain ⟨history, hperm, -, hforall⟩ :=
    orders_of_moment hlawful htracks hstaged hmoment hshown
  obtain ⟨issued, hissued, hshownAs⟩ := exists_of_forall₂_right hforall hmem
  exact ⟨issued, mem_arrived_of_through hthrough (hperm.mem_iff.mp hissued), hshownAs⟩

/-- An order the kitchen has seen was placed for its name. -/
theorem placed_of_stored (hempty : database.get ["Users"] = .null) {traffic : Traffic Date}
    (hdistinct : (traffic.issuedPlaces dates).Nodup) {restaurantName : String}
    {order : StoredOrder}
    (honce : traffic.Once dates database fun moment =>
      order ∈ (storedOrders moment.database).filter fun order =>
        order.info.restaurantName = restaurantName) :
    ∃ issued ∈ traffic.arrivedOrders fun issued => issued.slip.restaurant.name = restaurantName,
      order = issued.stored dates := by
  obtain ⟨moment, hthrough, hmem⟩ := honce
  obtain ⟨hmoment, ledger, htracks, hstaged⟩ := staged_of_through hempty hthrough hdistinct
  have hperm := hstaged.storedOrders_perm_arrived htracks hmoment restaurantName
  obtain ⟨issued, hissued, heq⟩ := List.mem_map.mp (hperm.mem_iff.mp hmem)
  exact ⟨issued, mem_arrived_of_through hthrough hissued, heq.symm⟩

/-- An order shown to a customer is not ready yet. -/
theorem completionMessage_of_shownAs {issued : Placement Date} {order : OrderInfo}
    (h : ShownAs dates (issued.info dates) order) :
    order.completionMessage = "Будет готов к " ++ order.readyDate := by
  have hstatus : order.status = 0 := by
    rw [h.others]
    rfl
  rw [OrderInfo.completionMessage, hstatus]
  rfl

/-- In every run at different places, the customer of a tab is shown, and has opened,
only orders of the account that have arrived, each of them as not ready yet; and a split
screen has only orders placed for its name, of which the panel alone may call its own
completed. -/
theorem screens_show_placed_orders (hlawful : dates.Lawful)
    (hempty : database.get ["Users"] = .null)
    (hrun : run (step dates) (launched database) events = some final)
    (hdistinct : (final.traffic.issuedPlaces dates).Nodup) :
    (∀ tab screen order, final.tabs tab = some screen →
      order ∈ screen.orders ∨ order ∈ screen.pushed →
        (∃ issued ∈ final.traffic.arrivedOrders fun issued => issued.user = screen.user,
          ShownAs dates (issued.info dates) order) ∧
        order.completionMessage = "Будет готов к " ++ order.readyDate) ∧
    ∀ split screen, final.splits split = some screen →
      (∀ order, order ∈ screen.orders ∨ screen.orderScreen.order = some order →
        ∃ issued ∈ final.traffic.arrivedOrders fun issued =>
            issued.slip.restaurant.name = screen.restaurantName,
          order = issued.stored dates) ∧
      (screen.orderScreen.bottomPanelView.order = screen.orderScreen.order ∨
        screen.orderScreen.bottomPanelView.order = screen.orderScreen.order.map fun order =>
          { order with info := { order.info with status := 1 } }) := by
  have hrecorded := recorded_run hempty hrun
  refine ⟨fun tab screen order htab horder => ?_, fun split screen hsplit => ⟨?_, ?_⟩⟩
  · obtain ⟨issued, hissued, hshownAs⟩ := placed_of_shown hlawful hempty hdistinct
      ((hrecorded.tabs tab screen htab).once horder)
    exact ⟨⟨issued, hissued, hshownAs⟩, completionMessage_of_shownAs hshownAs⟩
  · intro order horder
    exact placed_of_stored hempty hdistinct ((hrecorded.splits split screen hsplit).once horder)
  · rcases (hrecorded.splits split screen hsplit).consistent.copy with
      hsame | ⟨order, horder, hcompleted⟩
    · exact .inl hsame
    · exact .inr (by rw [hcompleted, horder, Option.map_some])

/-! ## Where an app can stop -/

/-- A price that leaves the range, when nothing is negative. -/
theorem totalPrice_eq_none_iff {order : OrderInfo}
    (hnonneg : ∀ entry ∈ order.products, 0 ≤ entry.1.price.toInt ∧ 0 ≤ entry.2.toInt) :
    order.totalPrice = none ↔
      2 ^ 63 ≤ sumOfProducts (order.products.map fun entry => (entry.1.price, entry.2)) := by
  have hterms : ∀ term ∈ order.products.map (fun entry => (entry.1.price, entry.2)),
      0 ≤ term.1.toInt ∧ 0 ≤ term.2.toInt := by
    intro term hterm
    obtain ⟨entry, hentry, rfl⟩ := List.mem_map.mp hterm
    exact hnonneg entry hentry
  have hstart : (0 : Int64).toInt = 0 := by decide
  have hsum := sumOfProducts_nonneg hterms
  rw [OrderInfo.totalPrice, sumTrapping_eq (le_of_eq hstart.symm) hterms, hstart, zero_add,
    exactly_eq_none]
  omega

/-- In every run at different places: the delivery of a customer's orders traps exactly
when an order of the account was torn at the moment they were answered; the delivery of
the kitchen's orders never traps, and neither do the cells of its list; the selection of a
row traps exactly when the order cannot be added up; and the button never does. -/
theorem screens_trap_iff (hlawful : dates.Lawful) (hempty : database.get ["Users"] = .null)
    (hrun : run (step dates) (launched database) events = some final)
    (hdistinct : (final.traffic.issuedPlaces dates).Nodup) :
    (∀ fetch tab value, final.fetches fetch = some (.answered (.getOrders tab) value) →
      ∃ screen, final.tabs tab = some screen ∧
        final.traffic.Once dates database fun moment =>
          value = moment.database.get (ordersPath screen.user) ∧
          (final.step dates (.ordersDelivered fetch) = none ↔
            ∃ issued, (issued, 1) ∈ moment.orders ∧ issued.user = screen.user)) ∧
    (∀ fetch split value, final.fetches fetch = some (.answered (.loadOrders split) value) →
      ∃ listed : List StoredOrder, ∀ orders, orders.Perm listed →
        final.step dates (.allOrdersDelivered fetch orders) ≠ none) ∧
    ∀ split screen, final.splits split = some screen → screen.isOpen = true →
      (∀ order ∈ screen.orders, previewTexts dates order.info ≠ none) ∧
      (∀ row order, screen.orders[row]? = some order →
        ((final.step dates (.updateOrderInfo split row) = none ↔ order.info.totalPrice = none) ∧
        ((∀ entry ∈ order.info.products, 0 ≤ entry.1.price.toInt ∧ 0 ≤ entry.2.toInt) →
          (order.info.totalPrice = none ↔ 2 ^ 63 ≤
            sumOfProducts (order.info.products.map fun entry => (entry.1.price, entry.2)))))) ∧
      (screen.orderScreen.bottomPanelView.buttonIsHidden = false →
        final.step dates (.completeOrder split) ≠ none) := by
  have hrecorded := recorded_run hempty hrun
  refine ⟨fun fetch tab value hfetch => ?_, fun fetch split value hfetch => ?_,
    fun split screen hsplit hopen => ⟨fun order hmem => ?_, fun row order hrow => ⟨?_, ?_⟩, ?_⟩⟩
  · obtain ⟨path, hpath, moment, hthrough, rfl⟩ := hrecorded.answers fetch _ value hfetch
    obtain ⟨screen, htab, rfl⟩ := Option.map_eq_some_iff.mp hpath
    obtain ⟨hmoment, ledger, htracks, hstaged⟩ := staged_of_through hempty hthrough hdistinct
    refine ⟨screen, htab, moment, hthrough, rfl, ?_⟩
    rw [← hstaged.getOrders_eq_none_iff hlawful htracks hmoment screen.user, getOrders_eq,
      Option.map_eq_none_iff, step, hfetch]
    cases hresponse : getOrdersResponse dates (moment.database.get (ordersPath screen.user)) <;>
      simp [htab, hresponse]
  · obtain ⟨path, hpath, moment, hthrough, rfl⟩ := hrecorded.answers fetch _ value hfetch
    obtain ⟨screen, hsplit, rfl⟩ := Option.map_eq_some_iff.mp hpath
    obtain ⟨hmoment, ledger, htracks, hstaged⟩ := staged_of_through hempty hthrough hdistinct
    obtain ⟨found, hfound, -⟩ :=
      hstaged.loadAllOrders_perm_arrived htracks hmoment screen.restaurantName
    have hresponse : loadAllOrdersResponse screen.restaurantName (moment.database.get ["Users"]) =
        some found := hfound
    refine ⟨(treeOrders (moment.database.get ["Users"])).filter fun order =>
      order.info.restaurantName = screen.restaurantName, fun orders hperm => ?_⟩
    rw [step, hfetch]
    simp only [hsplit, hresponse, Option.bind_eq_bind, Option.bind_some]
    rw [if_pos hperm]
    exact Option.some_ne_none _
  · obtain ⟨issued, -, rfl⟩ := placed_of_stored hempty hdistinct
      ((hrecorded.splits split screen hsplit).once (.inl hmem))
    have hdate : parseTimestamp dates (issued.stored dates).info.date = some issued.slip.date :=
      hlawful.parse issued.slip.date
    rw [previewTexts, hdate]
    exact Option.some_ne_none _
  · rw [← OrderViewController.updateOrderInfo_eq_none_iff screen.orderScreen order, step]
    cases hupdate : screen.orderScreen.updateOrderInfo order <;>
      simp [hsplit, hopen, hrow, hupdate]
  · exact totalPrice_eq_none_iff
  · intro hvisible
    have hpress := OrderViewController.completeOrder_ne_none
      (hrecorded.splits split screen hsplit).consistent
    obtain ⟨panel, hpanel⟩ := Option.ne_none_iff_exists'.mp hpress
    rw [step]
    simp [hsplit, hopen, hvisible, hpanel]

end Contents

/-! ## An evening -/

/-- Of the two orders of the rush hour one has arrived: its customer opens it, and the
kitchen completes it. The customer of the other one asks for orders too. -/
def evening : List (AppsEvent Nat) :=
  let arrived : Placement Nat :=
    ⟨"anna@mail", Traffic.twoLattes, ⟨18, sampleRestaurant, 6294876005, 6294894000⟩⟩
  Traffic.rushHour.map .traffic ++
    [ .viewDidLoad 0 "anna@mail", .viewWillAppear 0 0 true, .didSelectItemAt 0 1 "Groot",
      .answer 1, .answer 0, .ordersDelivered 0, .didSelectRowAt 0 0,
      .allOrdersDelivered 1 [arrived.stored utcDates], .updateOrderInfo 0 0, .completeOrder 0,
      .viewDidLoad 1 "boris@mail", .viewWillAppear 1 0 true, .answer 0]

/-- The first screens of the evening are there, and the second tab has its answer. -/
theorem evening_runs :
    ∃ final, run (step utcDates) (launched .null) evening = some final ∧
      (final.traffic.issuedPlaces utcDates).Nodup ∧ (∃ screen, final.tabs 0 = some screen) ∧
      (∃ screen, final.splits 0 = some screen ∧ screen.isOpen = true) ∧
      ∃ value, final.fetches 0 = some (.answered (.getOrders 1) value) := by
  have hany : (run (step utcDates) (launched .null) evening).any (fun final =>
      decide ((final.traffic.issuedPlaces utcDates).Nodup) && (final.tabs 0).isSome &&
        (final.splits 0).any (fun screen => screen.isOpen) &&
        (final.fetches 0).any (fun fetch =>
          decide (fetch.answeredTask = some (.getOrders 1)))) = true := by decide +kernel
  obtain ⟨final, hrun, hfinal⟩ := (Option.any_eq_true _ _).mp hany
  simp only [Bool.and_eq_true, decide_eq_true_eq] at hfinal
  obtain ⟨⟨⟨hdistinct, htab⟩, hsplit⟩, hfetch⟩ := hfinal
  refine ⟨final, hrun, hdistinct, Option.isSome_iff_exists.mp htab,
    (Option.any_eq_true _ _).mp hsplit, ?_⟩
  obtain ⟨fetch, hfetch, hanswered⟩ := (Option.any_eq_true _ _).mp hfetch
  obtain ⟨value, rfl⟩ := OrdersFetch.answeredTask_eq_some (of_decide_eq_true hanswered)
  exact ⟨value, hfetch⟩

theorem screens_show_one_moment_evening :
    ∃ final tab screen, run (step utcDates) (launched .null) evening = some final ∧
      final.tabs 0 = some tab ∧ final.splits 0 = some screen ∧
      (final.traffic.Once utcDates .null fun moment =>
        Traffic.Shows utcDates (moment.arrivedOrders fun issued => issued.user = tab.user)
          tab.orders) ∧
      final.traffic.Once utcDates .null fun moment =>
        screen.orders.Perm ((moment.arrivedOrders fun issued =>
          issued.slip.restaurant.name = screen.restaurantName).map
            (Placement.stored utcDates)) := by
  obtain ⟨final, hrun, hdistinct, ⟨tab, htab⟩, ⟨screen, hsplit, -⟩, -⟩ := evening_runs
  obtain ⟨htabs, hsplits⟩ := screens_show_one_moment utcDates_lawful rfl hrun hdistinct
  exact ⟨final, tab, screen, hrun, htab, hsplit, htabs 0 tab htab, hsplits 0 screen hsplit⟩

theorem screens_show_placed_orders_evening :
    ∃ final screen, run (step utcDates) (launched .null) evening = some final ∧
      final.tabs 0 = some screen ∧ ∀ order ∈ screen.pushed,
        order.completionMessage = "Будет готов к " ++ order.readyDate := by
  obtain ⟨final, hrun, hdistinct, ⟨screen, htab⟩, -, -⟩ := evening_runs
  exact ⟨final, screen, hrun, htab, fun order hmem =>
    ((screens_show_placed_orders utcDates_lawful rfl hrun hdistinct).1 0 screen order htab
      (.inr hmem)).2⟩

theorem screens_trap_iff_evening :
    ∃ final, run (step utcDates) (launched .null) evening = some final ∧
      final.step utcDates (.ordersDelivered 0) = none ∧
      ∃ screen, final.tabs 1 = some screen ∧ final.traffic.Once utcDates .null fun moment =>
        ∃ issued, (issued, 1) ∈ moment.orders ∧ issued.user = screen.user := by
  obtain ⟨final, hrun, hdistinct, -, -, value, hfetch⟩ := evening_runs
  have htrap : (run (step utcDates) (launched .null) evening).any (fun final =>
      (final.step utcDates (.ordersDelivered 0)).isNone) = true := by decide +kernel
  rw [hrun, Option.any_some, Option.isNone_iff_eq_none] at htrap
  obtain ⟨screen, htab, honce⟩ :=
    (screens_trap_iff utcDates_lawful rfl hrun hdistinct).1 0 1 value hfetch
  exact ⟨final, hrun, htrap, screen, htab, honce.imp fun _ hmoment => hmoment.2.mp htrap⟩

end Apps

end Screens

end QFree
