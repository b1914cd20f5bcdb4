/-
  Staff/OrderStatus.lean --- the statuses in which an order is shown.

  The staff app loads the orders of a restaurant, hands the selected one to the
  order screen, and that to the panel at its bottom.  `OrderInfo` is a struct:
  each of the three keeps a copy, and `completeOrder` sets the status of the last
  one.  The stored status is written by `makeOrder` only.

  So a press shows 1 and every other display shows what is stored.  Displays move
  forward and stay completed exactly when no press is made on an order that was
  loaded with a status above 1, and no order pressed on is shown again while its
  stored status is below 1 (`status_moves_forward_iff`).
-/
import QFree.Foundation.Run
import QFree.Networking.OrderRoundTrip
import QFree.Staff.StoredOrders

set_option autoImplicit false

namespace QFree

open QFree.Foundation QFree.FirebaseHandler

/-! ## The texts of a status -/

/-- The title of the button of the panel. -/
def OrderInfo.buttonTitle (order : OrderInfo) : String :=
  if order.isCompleted then "  Выдан  " else "  Завершить заказ  "

/-- The `completionMessage` of `OrderInteractor.getOrderStatus`. -/
def OrderInfo.completionMessage (order : OrderInfo) : String :=
  if order.status = 1 then "Готов"
  else if order.status = 2 then "Получен"
  else "Будет готов к " ++ order.readyDate

/-- What is seen of the orders, in the order in which it happens. -/
inductive Display where
  /-- the order is shown, in one of the two apps -/
  | shown (place : String × String) (status : Int64) (text : String)
  /-- the button is pressed on the order -/
  | completed (place : String × String)
  deriving DecidableEq, Repr

/-! ## The panel -/

/-- `class OrderInfoBottomPanel`. -/
structure OrderInfoBottomPanel where
  order : Option StoredOrder
  sumText : Option String
  buttonTitle : Option String
  buttonIsHidden : Bool
  deriving DecidableEq

namespace OrderInfoBottomPanel

def initial : OrderInfoBottomPanel := ⟨none, none, none, true⟩

/-- `updateUI()`. -/
def updateUI (panel : OrderInfoBottomPanel) : Option OrderInfoBottomPanel :=
  match panel.order with
  | none => some { panel with buttonIsHidden := true }
  | some order => do
      let totalPrice ← order.info.totalPrice
      return { panel with
        sumText := some ("Итого: " ++ intText totalPrice)
        buttonIsHidden := false
        buttonTitle := some order.info.buttonTitle }

/-- `order`, with its `didSet`. -/
def setOrder (panel : OrderInfoBottomPanel) (order : StoredOrder) : Option OrderInfoBottomPanel :=
  updateUI { panel with order := some order }

/-- `completeOrder()`, the action of the button: `order?.status = 1`. -/
def completeOrder (panel : OrderInfoBottomPanel) : Option OrderInfoBottomPanel :=
  match panel.order with
  | none => some panel
  | some order => panel.setOrder { order with info := { order.info with status := 1 } }

/-- What the panel shows. -/
def displayed (panel : OrderInfoBottomPanel) : List Display :=
  panel.order.toList.map fun order =>
    .shown order.place order.info.status order.info.buttonTitle

theorem setOrder_order {panel next : OrderInfoBottomPanel} {order : StoredOrder}
    (h : panel.setOrder order = some next) : next.order = some order := by
  obtain ⟨totalPrice, -, hnext⟩ := Option.bind_eq_some_iff.mp h
  rw [← Option.some.inj hnext]

theorem displayed_of_order {panel : OrderInfoBottomPanel} {order : StoredOrder}
    (h : panel.order = some order) :
    panel.displayed = [.shown order.place order.info.status order.info.buttonTitle] := by
  rw [displayed, h]
  rfl

end OrderInfoBottomPanel

/-! ## The order screen -/

/-- `class OrderViewController` of the staff app. -/
structure OrderViewController where
  order : Option StoredOrder
  bottomPanelView : OrderInfoBottomPanel
  deriving DecidableEq

namespace OrderViewController

def initial : OrderViewController := ⟨none, .initial⟩

/-- `updateOrderInfo(_:)`: `order`, with its `didSet`. -/
def updateOrderInfo (screen : OrderViewController) (order : StoredOrder) :
    Option OrderViewController := do
  let bottomPanelView ← screen.bottomPanelView.setOrder order
  return { screen with order := some order, bottomPanelView := bottomPanelView }

end OrderViewController

/-! ## The two apps -/

/-- The screens of the staff app, the database, and what was seen so far. -/
structure StaffApp where
  database : Json
  restaurantName : String
  /-- `OrdersViewController.orders` -/
  orders : List StoredOrder
  orderScreen : OrderViewController
  displays : List Display

/-- What is done with the orders. -/
inductive StaffEvent where
  /-- another restaurant is opened, with new screens -/
  | didSelectItemAt (restaurantName : String)
  /-- `loadOrders`, and the orders in the order in which the loops met them -/
  | loadOrders (orders : List StoredOrder)
  | didSelectRowAt (row : Nat)
  | completeOrder
  /-- the customer opens an order of those `getOrders` returned -/
  | openedByCustomer (order : StoredOrder)
  deriving DecidableEq

namespace StaffApp

/-- The app after a restaurant was opened. -/
def opened (database : Json) (restaurantName : String) : StaffApp where
  database := database
  restaurantName := restaurantName
  orders := []
  orderScreen := .initial
  displays := []

section Step

variable {Date : Type} (dates : DateLibrary Date)

/-- One event. -/
def step (state : StaffApp) : StaffEvent → Option StaffApp
  | .didSelectItemAt restaurantName =>
      some { state with
        restaurantName := restaurantName
        orders := []
        orderScreen := .initial }
  | .loadOrders orders =>
      if orders.Perm ((storedOrders state.database).filter fun order =>
          order.info.restaurantName = state.restaurantName) then
        some { state with orders := orders }
      else none
  | .didSelectRowAt row => do
      let currentOrder ← state.orders[row]?
      let orderScreen ← state.orderScreen.updateOrderInfo currentOrder
      return { state with
        orderScreen := orderScreen
        displays := state.displays ++ orderScreen.bottomPanelView.displayed }
  | .completeOrder =>
      if state.orderScreen.bottomPanelView.buttonIsHidden then none
      else do
        let order ← state.orderScreen.bottomPanelView.order
        let bottomPanelView ← state.orderScreen.bottomPanelView.completeOrder
        return { state with
          orderScreen := { state.orderScreen with bottomPanelView := bottomPanelView }
          displays := state.displays ++ .completed order.place :: bottomPanelView.displayed }
  | .openedByCustomer order =>
      if order ∈ storedOrders state.database then do
        let shown ← formatOrderInfo dates order.info
        return { state with
          displays := state.displays ++
            [.shown order.place shown.status shown.completionMessage] }
      else none

/-! ## What an event does -/

/-- The effect of an event on what is shown. -/
inductive Transition (state : StaffApp) : StaffEvent → StaffApp → Prop where
  | opened (restaurantName : String) :
      Transition state (.didSelectItemAt restaurantName)
        { state with restaurantName := restaurantName, orders := [], orderScreen := .initial }
  | loaded {orders : List StoredOrder}
      (horders : ∀ order ∈ orders, order ∈ storedOrders state.database) :
      Transition state (.loadOrders orders) { state with orders := orders }
  | selected {row : Nat} {order : StoredOrder} {orderScreen : OrderViewController}
      (hrow : state.orders[row]? = some order) (horder : orderScreen.order = some order)
      (hpanel : orderScreen.bottomPanelView.order = some order) :
      Transition state (.didSelectRowAt row)
        { state with
          orderScreen := orderScreen
          displays := state.displays ++
            [.shown order.place order.info.status order.info.buttonTitle] }
  | pressed {order : StoredOrder} {bottomPanelView : OrderInfoBottomPanel} {text : String}
      (horder : state.orderScreen.bottomPanelView.order = some order)
      (hpanel : bottomPanelView.order.map StoredOrder.place = some order.place) :
      Transition state .completeOrder
        { state with
          orderScreen := { state.orderScreen with bottomPanelView := bottomPanelView }
          displays := state.displays ++ [.completed order.place, .shown order.place 1 text] }
  | shownToCustomer {order : StoredOrder} {text : String}
      (horder : order ∈ storedOrders state.database) :
      Transition state (.openedByCustomer order)
        { state with
          displays := state.displays ++ [.shown order.place order.info.status text] }

variable {dates}

theorem transition_of_step {state next : StaffApp} {event : StaffEvent}
    (h : state.step dates event = some next) : Transition state event next := by
  cases event with
  | didSelectItemAt restaurantName =>
      obtain rfl := Option.some.inj h
      exact .opened restaurantName
  | loadOrders orders =>
      obtain ⟨hperm, hnext⟩ := Option.ite_none_right_eq_some.mp h
      obtain rfl := Option.some.inj hnext
      exact .loaded fun order hmem => (List.mem_filter.mp (hperm.mem_iff.mp hmem)).1
  | didSelectRowAt row =>
      obtain ⟨order, hrow, hscreen⟩ := Option.bind_eq_some_iff.mp h
      obtain ⟨orderScreen, hupdate, hnext⟩ := Option.bind_eq_some_iff.mp hscreen
      obtain rfl := Option.some.inj hnext
      obtain ⟨panel, hpanel, hupdated⟩ := Option.bind_eq_some_iff.mp hupdate
      obtain rfl := Option.some.inj hupdated
      have hshown := OrderInfoBottomPanel.setOrder_order hpanel
      rw [OrderInfoBottomPanel.displayed_of_order hshown]
      exact .selected hrow rfl hshown
  | completeOrder =>
      obtain ⟨-, hpress⟩ := Option.ite_none_left_eq_some.mp h
      obtain ⟨order, horder, hpress⟩ := Option.bind_eq_some_iff.mp hpress
      obtain ⟨panel, hpanel, hnext⟩ := Option.bind_eq_some_iff.mp hpress
      obtain rfl := Option.some.inj hnext
      simp only [OrderInfoBottomPanel.completeOrder, horder] at hpanel
      have hshown := OrderInfoBottomPanel.setOrder_order hpanel
      rw [OrderInfoBottomPanel.displayed_of_order hshown]
      exact .pressed horder (congrArg (Option.map StoredOrder.place) hshown)
  | openedByCustomer order =>
      obtain ⟨horder, hshown⟩ := Option.ite_none_right_eq_some.mp h
      obtain ⟨shown, hformat, hnext⟩ := Option.bind_eq_some_iff.mp hshown
      obtain rfl := Option.some.inj hnext
      have hstatus : shown.status = order.info.status := by
        rw [(formatOrderInfo_eq_some.mp hformat).others]
      rw [hstatus]
      exact .shownToCustomer horder

end Step

end StaffApp

/-! ## Displays that move forward -/

/-- A later display of the order has no lower status, and none below 1 after a
press. -/
def Display.Respects : Display → Display → Prop
  | .shown place status _, .shown other later _ => place = other → status ≤ later
  | .completed place, .shown other later _ => place = other → 1 ≤ later
  | _, .completed _ => True

instance : DecidableRel Display.Respects
  | .shown place status _, .shown other later _ =>
      inferInstanceAs (Decidable (place = other → status ≤ later))
  | .completed place, .shown other later _ =>
      inferInstanceAs (Decidable (place = other → 1 ≤ later))
  | .shown .., .completed _ | .completed _, .completed _ => .isTrue trivial

/-- The displays show what is stored, or 1 after a press, and move forward. -/
structure Tracked (stored : List StoredOrder) (displays : List Display) : Prop where
  shown : ∀ place status text, .shown place status text ∈ displays →
    ∃ order ∈ stored, order.place = place ∧
      (status = order.info.status ∨ status = 1 ∧ .completed place ∈ displays)
  forward : displays.Pairwise Display.Respects

section Tracked

variable {stored : List StoredOrder} {displays : List Display}

theorem tracked_nil : Tracked stored [] := ⟨nofun, .nil⟩

/-- More displays, of stored orders. -/
theorem Tracked.append (h : Tracked stored displays) {more : List Display}
    (hshown : ∀ place status text, .shown place status text ∈ more →
      ∃ order ∈ stored, order.place = place ∧
        (status = order.info.status ∨ status = 1 ∧ .completed place ∈ displays ++ more))
    (hmore : more.Pairwise Display.Respects)
    (hlater : ∀ earlier ∈ displays, ∀ later ∈ more, earlier.Respects later) :
    Tracked stored (displays ++ more) := by
  refine ⟨fun place status text hmem => ?_,
    List.pairwise_append.mpr ⟨h.forward, hmore, hlater⟩⟩
  rcases List.mem_append.mp hmem with hold | hnew
  · obtain ⟨order, horder, hplace, hstatus⟩ := h.shown place status text hold
    exact ⟨order, horder, hplace, hstatus.imp_right fun ⟨hone, hpressed⟩ =>
      ⟨hone, List.mem_append_left _ hpressed⟩⟩
  · exact hshown place status text hnew

/-- A status as high as the stored one, and at least 1 after a press, respects
every display before it. -/
theorem Tracked.respects_shown (h : Tracked stored displays)
    (hplaces : ∀ order ∈ stored, ∀ other ∈ stored, order.place = other.place → order = other)
    {order : StoredOrder} (horder : order ∈ stored) {status : Int64}
    (hstatus : order.info.status ≤ status)
    (hpressed : .completed order.place ∈ displays → 1 ≤ status) (text : String) :
    ∀ earlier ∈ displays, earlier.Respects (.shown order.place status text) := by
  intro earlier hearlier
  cases earlier with
  | completed place =>
      rintro rfl
      exact hpressed hearlier
  | shown place before text =>
      rintro rfl
      obtain ⟨other, hother, hplace, hbefore⟩ := h.shown _ before text hearlier
      obtain rfl := hplaces other hother order horder hplace
      rcases hbefore with rfl | ⟨rfl, hmem⟩
      · exact hstatus
      · exact hpressed hmem

/-- A display of the stored status. -/
theorem tracked_shown (hplaces : ∀ order ∈ stored, ∀ other ∈ stored,
      order.place = other.place → order = other)
    (h : Tracked stored displays) {order : StoredOrder} (horder : order ∈ stored)
    (hguard : .completed order.place ∈ displays → 1 ≤ order.info.status) (text : String) :
    Tracked stored (displays ++ [.shown order.place order.info.status text]) := by
  refine h.append ?_ (List.pairwise_singleton _ _) ?_
  · intro place status text hmem
    cases List.mem_singleton.mp hmem
    exact ⟨order, horder, rfl, .inl rfl⟩
  · intro earlier hearlier later hlater
    rw [List.mem_singleton.mp hlater]
    exact h.respects_shown hplaces horder (Int64.le_refl _) hguard text earlier hearlier

/-- A press, and the display of status 1 that it leads to. -/
theorem tracked_pressed (h : Tracked stored displays) {order : StoredOrder}
    (hplaces : ∀ order ∈ stored, ∀ other ∈ stored, order.place = other.place → order = other)
    (horder : order ∈ stored) (hguard : order.info.status ≤ 1) (text : String) :
    Tracked stored (displays ++ [.completed order.place, .shown order.place 1 text]) := by
  refine h.append ?_ (List.pairwise_pair.mpr fun _ => Int64.le_refl _) ?_
  · intro place status text hmem
    cases List.mem_singleton.mp ((List.mem_cons.mp hmem).resolve_left nofun)
    exact ⟨order, horder, rfl, .inr ⟨rfl, List.mem_append_right _ List.mem_cons_self⟩⟩
  · intro earlier hearlier later hlater
    rcases List.mem_cons.mp hlater with rfl | hlast
    · cases earlier <;> trivial
    · rw [List.mem_singleton.mp hlast]
      exact h.respects_shown hplaces horder hguard (fun _ => Int64.le_refl _) text earlier
        hearlier

end Tracked

namespace StaffApp

/-! ## Runs -/

/-- The displays so far. -/
def MovesForward (state : StaffApp) : Prop := state.displays.Pairwise Display.Respects

instance (state : StaffApp) : Decidable state.MovesForward :=
  inferInstanceAs (Decidable (state.displays.Pairwise Display.Respects))

/-- No press on an order that was loaded with a status above 1; no display of an
order with a stored status below 1 after a press on it. -/
def StaysForward (state : StaffApp) : StaffEvent → Prop
  | .completeOrder => ∀ order ∈ state.orderScreen.order, order.info.status ≤ 1
  | .didSelectRowAt row => ∀ order ∈ state.orders[row]?,
      .completed order.place ∈ state.displays → 1 ≤ order.info.status
  | .openedByCustomer order => .completed order.place ∈ state.displays → 1 ≤ order.info.status
  | .didSelectItemAt _ | .loadOrders _ => True

instance (state : StaffApp) : ∀ event : StaffEvent, Decidable (state.StaysForward event)
  | .completeOrder =>
      inferInstanceAs (Decidable (∀ order ∈ state.orderScreen.order, order.info.status ≤ 1))
  | .didSelectRowAt row => inferInstanceAs (Decidable (∀ order ∈ state.orders[row]?,
      Display.completed order.place ∈ state.displays → 1 ≤ order.info.status))
  | .openedByCustomer order => inferInstanceAs (Decidable
      (Display.completed order.place ∈ state.displays → 1 ≤ order.info.status))
  | .didSelectItemAt _ | .loadOrders _ => .isTrue trivial

/-- The copies in the screens and the displays, as they are in runs that keep to
the condition. -/
structure Followed (database : Json) (state : StaffApp) : Prop where
  database_eq : state.database = database
  rows : ∀ order ∈ state.orders, order ∈ storedOrders database
  panel : ∀ order ∈ state.orderScreen.bottomPanelView.order,
    ∃ selected ∈ storedOrders database, state.orderScreen.order = some selected ∧
      order.place = selected.place ∧
      ∃ text, .shown selected.place selected.info.status text ∈ state.displays
  displays : Tracked (storedOrders database) state.displays

theorem followed_opened (database : Json) (restaurantName : String) :
    (opened database restaurantName).Followed database :=
  ⟨rfl, nofun, nofun, tracked_nil⟩

section Step

variable {Date : Type} {dates : DateLibrary Date} {database : Json}

theorem followed_step (htree : OrdersTree (database.get ["Users"])) {state next : StaffApp}
    {event : StaffEvent} (h : state.Followed database) (hguard : state.StaysForward event)
    (hstep : state.step dates event = some next) : next.Followed database := by
  have hplaces : ∀ order ∈ storedOrders database, ∀ other ∈ storedOrders database,
      order.place = other.place → order = other :=
    fun order horder other hother => eq_of_place_eq htree horder hother
  cases transition_of_step hstep with
  | opened restaurantName => exact ⟨h.database_eq, nofun, nofun, h.displays⟩
  | loaded horders => exact ⟨h.database_eq, h.database_eq ▸ horders, h.panel, h.displays⟩
  | @selected row order orderScreen hrow horder hpanel =>
      have hmem := h.rows order (List.mem_of_getElem? hrow)
      refine ⟨h.database_eq, h.rows, ?_, tracked_shown hplaces h.displays hmem
        (hguard order hrow) _⟩
      intro shown hshown
      obtain rfl : order = shown := Option.some.inj (hpanel.symm.trans hshown)
      exact ⟨order, hmem, horder, rfl, _, List.mem_append_right _ List.mem_cons_self⟩
  | @pressed order bottomPanelView text horder hpanel =>
      obtain ⟨selected, hmem, hselected, hplace, shownText, hshown⟩ := h.panel order horder
      rw [hplace] at hpanel ⊢
      refine ⟨h.database_eq, h.rows, ?_, tracked_pressed h.displays hplaces hmem
        (hguard selected hselected) _⟩
      intro other hother
      obtain ⟨found, hfound, hfoundPlace⟩ := Option.map_eq_some_iff.mp hpanel
      obtain rfl : found = other := Option.some.inj (hfound.symm.trans hother)
      exact ⟨selected, hmem, hselected, hfoundPlace, shownText, List.mem_append_left _ hshown⟩
  | @shownToCustomer order text horder =>
      have hmem := h.database_eq ▸ horder
      refine ⟨h.database_eq, h.rows, ?_, tracked_shown hplaces h.displays hmem hguard text⟩
      intro panelOrder hpanel
      obtain ⟨selected, hselected, hscreen, hplace, shownText, hshown⟩ := h.panel panelOrder hpanel
      exact ⟨selected, hselected, hscreen, hplace, shownText, List.mem_append_left _ hshown⟩

/-- What follows a display respects it. -/
theorem respects_of_append {displays later : List Display}
    (h : (displays ++ later).Pairwise Display.Respects) {first second : Display}
    (hfirst : first ∈ displays) (hsecond : second ∈ later) : first.Respects second :=
  (List.pairwise_append.mp h).2.2 first hfirst second hsecond

theorem staysForward_of_step {state next : StaffApp} {event : StaffEvent}
    (h : state.Followed database) (hstep : state.step dates event = some next)
    (hforward : next.MovesForward) : state.StaysForward event := by
  cases transition_of_step hstep with
  | opened restaurantName => trivial
  | loaded horders => trivial
  | @selected row order orderScreen hrow horder hpanel =>
      intro other hother hpressed
      obtain rfl : order = other := Option.some.inj (hrow.symm.trans hother)
      exact respects_of_append hforward hpressed List.mem_cons_self rfl
  | @pressed order bottomPanelView text horder hpanel =>
      intro selected hselected
      obtain ⟨other, -, hother, hplace, shownText, hshown⟩ := h.panel order horder
      obtain rfl : other = selected := Option.some.inj (hother.symm.trans hselected)
      exact respects_of_append hforward hshown (List.mem_cons_of_mem _ List.mem_cons_self)
        hplace.symm
  | @shownToCustomer order text horder =>
      exact fun hpressed => respects_of_append hforward hpressed List.mem_cons_self rfl

/-- In every run, the displays move forward and stay completed exactly when the
run keeps to the condition. -/
theorem status_moves_forward_iff (htree : OrdersTree (database.get ["Users"]))
    (restaurantName : String) {events : List StaffEvent} {final : StaffApp}
    (hrun : run (step dates) (opened database restaurantName) events = some final) :
    (∀ k reached, run (step dates) (opened database restaurantName) (events.take k) =
        some reached → reached.MovesForward) ↔
      Along (step dates) StaysForward (opened database restaurantName) events :=
  forall_take_iff_along StaysForward (Followed database) MovesForward
    (fun _ _ _ h hguard hstep => followed_step htree h hguard hstep)
    (fun _ h => h.displays.forward)
    (fun _ _ _ h hstep hforward => staysForward_of_step h hstep hforward)
    (followed_opened database restaurantName) hrun

end Step

/-- The stored order of the sample database. -/
def sampleOrder : StoredOrder :=
  ⟨"user@mail", "629487600_5", placedOrder 17 sampleRestaurant
    [(⟨"Latte", 199, "l.png", [.coffee], "0"⟩, 2)] "629487600_5" "629489400_0"⟩

theorem sampleUsers_ordersTree : OrdersTree (sampleUsers.get ["Users"]) where
  shape := .inr ⟨_, rfl⟩
  distinct := by decide
  users := List.forall_mem_cons.mpr ⟨⟨_, rfl⟩, List.forall_mem_singleton.mpr ⟨_, rfl⟩⟩
  orders := by
    refine List.forall_mem_cons.mpr ⟨⟨.inr ⟨_, rfl⟩, by decide, ?_⟩,
      List.forall_mem_singleton.mpr readableOrders_null⟩
    exact List.forall_mem_singleton.mpr
      ⟨sampleOrder.info, getOrdersEntry_eq_some.mp (by decide)⟩

/-- The order is selected and completed. -/
theorem status_moves_forward_iff_sample :
    ∃ final, run (step utcDates) (opened sampleUsers sampleRestaurant.name)
        [.loadOrders [sampleOrder], .didSelectRowAt 0, .completeOrder] = some final ∧
      final.MovesForward := by
  have hsome : (run (step utcDates) (opened sampleUsers sampleRestaurant.name)
      [.loadOrders [sampleOrder], .didSelectRowAt 0, .completeOrder]).isSome = true := by decide
  obtain ⟨final, hrun⟩ := Option.isSome_iff_exists.mp hsome
  exact ⟨final, hrun, (status_moves_forward_iff sampleUsers_ordersTree _ hrun).mpr (by decide) 3
    final hrun⟩

/-- Selected again after the press, the order is shown as it was before. -/
theorem completion_forgotten :
    OrdersTree (sampleUsers.get ["Users"]) ∧
      ∃ final, run (step utcDates) (opened sampleUsers sampleRestaurant.name)
          [.loadOrders [sampleOrder], .didSelectRowAt 0, .completeOrder, .didSelectRowAt 0] =
            some final ∧
        ¬final.MovesForward := by
  have hany : (run (step utcDates) (opened sampleUsers sampleRestaurant.name)
      [.loadOrders [sampleOrder], .didSelectRowAt 0, .completeOrder, .didSelectRowAt 0]).any
        (fun final => decide ¬final.MovesForward) = true := by
    decide
  obtain ⟨final, hrun, hfinal⟩ := (Option.any_eq_true _ _).mp hany
  exact ⟨sampleUsers_ordersTree, final, hrun, of_decide_eq_true hfinal⟩

end StaffApp

end QFree
