/-
  Server/Apps.lean --- the order screens of both apps over the traffic.

  Any number of customers have their orders tab open, and any number of restaurants
  their split screen.  `getOrders` and `loadAllOrders` are reads: each is answered
  with what the database holds at that moment, and delivered to its screen later,
  in any order, while orders go on arriving.  The tabs are on devices that have no
  writes of their own on their way, which would be layered over the answers.

  `OrderInfo` is a struct, so every screen keeps a copy of its own: the row that is
  selected is copied to the order screen, and from there to the panel, whose button
  sets the status of the last copy.  The presenter of a split screen refers to its
  screen weakly, so an answer that comes after `closeOrders` is dropped.
-/
import QFree.Server.ConcurrentOrders
import QFree.Staff.OrderStatus

set_option autoImplicit false

namespace QFree

open QFree.Foundation QFree.FirebaseHandler

/-! ## State -/

/-- A read of orders, and the screen it is for. -/
inductive OrdersTask where
  | getOrders (tab : Nat)
  | loadOrders (split : Nat)
  deriving DecidableEq

/-- A read of orders on its way. -/
inductive OrdersFetch where
  | waiting (task : OrdersTask)
  | answered (task : OrdersTask) (value : Json)

/-- The task whose answer has come. -/
def OrdersFetch.answeredTask : OrdersFetch → Option OrdersTask
  | .waiting _ => none
  | .answered task _ => some task

theorem OrdersFetch.answeredTask_eq_some {fetch : OrdersFetch} {task : OrdersTask}
    (h : fetch.answeredTask = some task) : ∃ value, fetch = .answered task value := by
  cases fetch with
  | waiting asked => cases h
  | answered asked value => exact ⟨value, by rw [Option.some.inj h]⟩

/-- `class OrdersViewController` of the customer's app, with the orders whose screens
were pushed. -/
structure OrdersTab where
  user : String
  orders : List OrderInfo
  pushed : List OrderInfo

/-- What `SplitModuleBuilder.build` makes: the orders of a restaurant, and the order
screen beside them, until it is dismissed. -/
structure SplitScreen where
  restaurantName : String
  orders : List StoredOrder
  orderScreen : OrderViewController
  isOpen : Bool

/-- `OrderPreviewCell.configure(orderInfo:)`: the texts of the two labels of a row. -/
def previewTexts {Date : Type} (dates : DateLibrary Date) (orderInfo : OrderInfo) :
    Option (String × String) := do
  let date ← parseTimestamp dates orderInfo.date
  return ("№" ++ orderInfo.number, dates.format "hh:mm" date)

/-- The traffic and the screens. -/
structure Apps (Date : Type) where
  traffic : Traffic Date
  tabs : Nat → Option OrdersTab
  splits : Nat → Option SplitScreen
  fetches : Nat → Option OrdersFetch

/-- What can happen. -/
inductive AppsEvent (Date : Type) where
  | traffic (event : TrafficEvent Date)
  /-- a customer's tab is made -/
  | viewDidLoad (tab : Nat) (user : String)
  /-- `getRestaurantsInfo` of `viewWillAppear` succeeded, and `getOrders` is called -/
  | viewWillAppear (tab fetch : Nat) (isConnected : Bool)
  /-- a restaurant is opened, and `loadOrders` called -/
  | didSelectItemAt (split fetch : Nat) (restaurantName : String)
  | answer (fetch : Nat)
  /-- the completion of `getOrders` -/
  | ordersDelivered (fetch : Nat)
  /-- the completion of `loadAllOrders`, with the orders as the loops met them -/
  | allOrdersDelivered (fetch : Nat) (orders : List StoredOrder)
  /-- a customer selects a row -/
  | didSelectRowAt (tab row : Nat)
  /-- the kitchen selects a row -/
  | updateOrderInfo (split row : Nat)
  | completeOrder (split : Nat)
  | closeOrders (split : Nat)

namespace Apps

/-- No screen is open. -/
def launched {Date : Type} (database : Json) : Apps Date where
  traffic := .quiet database
  tabs := fun _ => none
  splits := fun _ => none
  fetches := fun _ => none

section Step

variable {Date : Type} (dates : DateLibrary Date)

/-- The path a read of orders is answered from. -/
def path (state : Apps Date) : OrdersTask → Option (List String)
  | .getOrders tab => (state.tabs tab).map fun screen => ordersPath screen.user
  | .loadOrders split => (state.splits split).map fun _ => ["Users"]

/-- One event. -/
def step (state : Apps Date) : AppsEvent Date → Option (Apps Date)
  | .traffic event => do
      let traffic ← state.traffic.step dates event
      return { state with traffic := traffic }
  | .viewDidLoad tab user =>
      if (state.tabs tab).isNone then
        some { state with tabs := Function.update state.tabs tab (some ⟨user, [], []⟩) }
      else none
  | .viewWillAppear tab fetch isConnected => do
      let screen ← state.tabs tab
      if (state.fetches fetch).isNone then
        match getOrdersRequest ⟨some screen.user⟩ isConnected with
        | .ok _ =>
            return { state with
              fetches := Function.update state.fetches fetch (some (.waiting (.getOrders tab))) }
        | .error _ => return state
      else none
  | .didSelectItemAt split fetch restaurantName =>
      if (state.splits split).isNone ∧ (state.fetches fetch).isNone then
        some { state with
          splits := Function.update state.splits split
            (some ⟨restaurantName, [], .initial, true⟩)
          fetches := Function.update state.fetches fetch (some (.waiting (.loadOrders split))) }
      else none
  | .answer fetch =>
      match state.fetches fetch with
      | some (.waiting task) => do
          let path ← state.path task
          return { state with
            fetches := Function.update state.fetches fetch
              (some (.answered task (state.traffic.database.get path))) }
      | _ => none
  | .ordersDelivered fetch =>
      match state.fetches fetch with
      | some (.answered (.getOrders tab) value) => do
          let screen ← state.tabs tab
          let ordersInfo ← getOrdersResponse dates value
          return { state with
            fetches := Function.update state.fetches fetch none
            tabs := Function.update state.tabs tab (some { screen with orders := ordersInfo }) }
      | _ => none
  | .allOrdersDelivered fetch orders =>
      match state.fetches fetch with
      | some (.answered (.loadOrders split) value) => do
          let screen ← state.splits split
          let _ ← loadAllOrdersResponse screen.restaurantName value
          if orders.Perm ((treeOrders value).filter fun order =>
              order.info.restaurantName = screen.restaurantName) then
            return { state with
              fetches := Function.update state.fetches fetch none
              splits := Function.update state.splits split
                (some (if screen.isOpen then { screen with orders := orders } else screen)) }
          else none
      | _ => none
  | .didSelectRowAt tab row => do
      let screen ← state.tabs tab
      let currentOrder ← screen.orders[row]?
      return { state with
        tabs := Function.update state.tabs tab
          (some { screen with pushed := screen.pushed ++ [currentOrder] }) }
  | .updateOrderInfo split row => do
      let screen ← state.splits split
      if screen.isOpen then
        let currentOrder ← screen.orders[row]?
        let orderScreen ← screen.orderScreen.updateOrderInfo currentOrder
        return { state with
          splits := Function.update state.splits split
            (some { screen with orderScreen := orderScreen }) }
      else none
  | .completeOrder split => do
      let screen ← state.splits split
      if screen.isOpen ∧ screen.orderScreen.bottomPanelView.buttonIsHidden = false then
        let bottomPanelView ← screen.orderScreen.bottomPanelView.completeOrder
        return { state with
          splits := Function.update state.splits split
            (some { screen with
              orderScreen := { screen.orderScreen with bottomPanelView := bottomPanelView } }) }
      else none
  | .closeOrders split => do
      let screen ← state.splits split
      return { state with
        splits := Function.update state.splits split (some { screen with isOpen := false }) }

/-! ## What an event does -/

/-- The outcomes of an event. -/
inductive Transition (state : Apps Date) : AppsEvent Date → Apps Date → Prop where
  | traffic {event : TrafficEvent Date} {traffic : Traffic Date}
      (htraffic : state.traffic.step dates event = some traffic) :
      Transition state (.traffic event) { state with traffic := traffic }
  | loaded {tab : Nat} {user : String} (htab : state.tabs tab = none) :
      Transition state (.viewDidLoad tab user)
        { state with tabs := Function.update state.tabs tab (some ⟨user, [], []⟩) }
  | asked {tab fetch : Nat} {isConnected : Bool} {screen : OrdersTab}
      (htab : state.tabs tab = some screen) :
      Transition state (.viewWillAppear tab fetch isConnected)
        { state with
          fetches := Function.update state.fetches fetch (some (.waiting (.getOrders tab))) }
  | refused {tab fetch : Nat} {isConnected : Bool} :
      Transition state (.viewWillAppear tab fetch isConnected) state
  | opened {split fetch : Nat} {restaurantName : String} (hsplit : state.splits split = none) :
      Transition state (.didSelectItemAt split fetch restaurantName)
        { state with
          splits := Function.update state.splits split
            (some ⟨restaurantName, [], .initial, true⟩)
          fetches := Function.update state.fetches fetch (some (.waiting (.loadOrders split))) }
  | answered {fetch : Nat} {task : OrdersTask} {path : List String}
      (hfetch : state.fetches fetch = some (.waiting task)) (hpath : state.path task = some path) :
      Transition state (.answer fetch)
        { state with
          fetches := Function.update state.fetches fetch
            (some (.answered task (state.traffic.database.get path))) }
  | shown {fetch tab : Nat} {value : Json} {screen : OrdersTab} {ordersInfo : List OrderInfo}
      (hfetch : state.fetches fetch = some (.answered (.getOrders tab) value))
      (htab : state.tabs tab = some screen)
      (hresponse : getOrdersResponse dates value = some ordersInfo) :
      Transition state (.ordersDelivered fetch)
        { state with
          fetches := Function.update state.fetches fetch none
          tabs := Function.update state.tabs tab (some { screen with orders := ordersInfo }) }
  | shownAll {fetch split : Nat} {value : Json} {screen : SplitScreen} {orders : List StoredOrder}
      (hfetch : state.fetches fetch = some (.answered (.loadOrders split) value))
      (hsplit : state.splits split = some screen)
      (horders : orders.Perm ((treeOrders value).filter fun order =>
        order.info.restaurantName = screen.restaurantName)) :
      Transition state (.allOrdersDelivered fetch orders)
        { state with
          fetches := Function.update state.fetches fetch none
          splits := Function.update state.splits split
            (some (if screen.isOpen then { screen with orders := orders } else screen)) }
  | pushed {tab row : Nat} {screen : OrdersTab} {currentOrder : OrderInfo}
      (htab : state.tabs tab = some screen) (hrow : screen.orders[row]? = some currentOrder) :
      Transition state (.didSelectRowAt tab row)
        { state with
          tabs := Function.update state.tabs tab
            (some { screen with pushed := screen.pushed ++ [currentOrder] }) }
  | selected {split row : Nat} {screen : SplitScreen} {currentOrder : StoredOrder}
      {orderScreen : OrderViewController} (hsplit : state.splits split = some screen)
      (hrow : screen.orders[row]? = some currentOrder)
      (hupdate : screen.orderScreen.updateOrderInfo currentOrder = some orderScreen) :
      Transition state (.updateOrderInfo split row)
        { state with
          splits := Function.update state.splits split
            (some { screen with orderScreen := orderScreen }) }
  | completed {split : Nat} {screen : SplitScreen} {bottomPanelView : OrderInfoBottomPanel}
      (hsplit : state.splits split = some screen)
      (hpressed : screen.orderScreen.bottomPanelView.completeOrder = some bottomPanelView) :
      Transition state (.completeOrder split)
        { state with
          splits := Function.update state.splits split
            (some { screen with
              orderScreen := { screen.orderScreen with bottomPanelView := bottomPanelView } }) }
  | closed {split : Nat} {screen : SplitScreen} (hsplit : state.splits split = some screen) :
      Transition state (.closeOrders split)
        { state with
          splits := Function.update state.splits split (some { screen with isOpen := false }) }

variable {dates}

theorem transition_of_step {state next : Apps Date} {event : AppsEvent Date}
    (h : state.step dates event = some next) : state.Transition dates event next := by
  cases event with
  | traffic event =>
      obtain ⟨traffic, htraffic, hnext⟩ := Option.bind_eq_some_iff.mp h
      exact Option.some.inj hnext ▸ .traffic htraffic
  | viewDidLoad tab user =>
      obtain ⟨htab, hnext⟩ := Option.ite_none_right_eq_some.mp h
      exact Option.some.inj hnext ▸ .loaded (Option.isNone_iff_eq_none.mp htab)
  | viewWillAppear tab fetch isConnected =>
      obtain ⟨screen, htab, hask⟩ := Option.bind_eq_some_iff.mp h
      obtain ⟨-, hnext⟩ := Option.ite_none_right_eq_some.mp hask
      split at hnext
      · exact Option.some.inj hnext ▸ .asked htab
      · exact Option.some.inj hnext ▸ .refused
  | didSelectItemAt split fetch restaurantName =>
      obtain ⟨⟨hsplit, -⟩, hnext⟩ := Option.ite_none_right_eq_some.mp h
      exact Option.some.inj hnext ▸ .opened (Option.isNone_iff_eq_none.mp hsplit)
  | answer fetch =>
      simp only [step] at h
      split at h
      · rename_i task hfetch
        obtain ⟨path, hpath, hnext⟩ := Option.bind_eq_some_iff.mp h
        exact Option.some.inj hnext ▸ .answered hfetch hpath
      · cases h
  | ordersDelivered fetch =>
      simp only [step] at h
      split at h
      · rename_i tab value hfetch
        obtain ⟨screen, htab, hdeliver⟩ := Option.bind_eq_some_iff.mp h
        obtain ⟨ordersInfo, hresponse, hnext⟩ := Option.bind_eq_some_iff.mp hdeliver
        exact Option.some.inj hnext ▸ .shown hfetch htab hresponse
      · cases h
  | allOrdersDelivered fetch orders =>
      simp only [step] at h
      split at h
      · rename_i split value hfetch
        obtain ⟨screen, hsplit, hdeliver⟩ := Option.bind_eq_some_iff.mp h
        obtain ⟨found, -, hguard⟩ := Option.bind_eq_some_iff.mp hdeliver
        obtain ⟨horders, hnext⟩ := Option.ite_none_right_eq_some.mp hguard
        exact Option.some.inj hnext ▸ .shownAll hfetch hsplit horders
      · cases h
  | didSelectRowAt tab row =>
      obtain ⟨screen, htab, hselect⟩ := Option.bind_eq_some_iff.mp h
      obtain ⟨currentOrder, hrow, hnext⟩ := Option.bind_eq_some_iff.mp hselect
      exact Option.some.inj hnext ▸ .pushed htab hrow
  | updateOrderInfo split row =>
      obtain ⟨screen, hsplit, hselect⟩ := Option.bind_eq_some_iff.mp h
      obtain ⟨-, hopen⟩ := Option.ite_none_right_eq_some.mp hselect
      obtain ⟨currentOrder, hrow, hupdated⟩ := Option.bind_eq_some_iff.mp hopen
      obtain ⟨orderScreen, hupdate, hnext⟩ := Option.bind_eq_some_iff.mp hupdated
      exact Option.some.inj hnext ▸ .selected hsplit hrow hupdate
  | completeOrder split =>
      obtain ⟨screen, hsplit, hpress⟩ := Option.bind_eq_some_iff.mp h
      obtain ⟨-, hvisible⟩ := Option.ite_none_right_eq_some.mp hpress
      obtain ⟨bottomPanelView, hpressed, hnext⟩ := Option.bind_eq_some_iff.mp hvisible
      exact Option.some.inj hnext ▸ .completed hsplit hpressed
  | closeOrders split =>
      obtain ⟨screen, hsplit, hnext⟩ := Option.bind_eq_some_iff.mp h
      exact Option.some.inj hnext ▸ .closed hsplit

end Step

end Apps

end QFree
