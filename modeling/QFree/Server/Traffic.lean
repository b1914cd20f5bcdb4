/-
  Server/Traffic.lean --- the calls of all accounts on their way to the server.

  Any number of accounts call `postBasket` and `makeOrder`.  A `postBasket` is one
  write.  A `makeOrder` first reads the basket; when the answer is delivered it
  issues three writes, and they reach the server one at a time.  Between any two of
  these events there may be events of other calls, and a call may stop for good
  anywhere.

  A read is answered with what the server has.  The client library layers the writes
  of its own device that are not acknowledged over every read of this device, so the
  readers here are devices with no such writes.

  Every write that arrives is one command of the ledger, so after any run the
  database stands for the ledger that the arrived commands lead to
  (`traffic_represents_ledger`).
-/
import QFree.Foundation.Refinement
import QFree.Server.Readers

set_option autoImplicit false

namespace QFree

open QFree.Foundation QFree.FirebaseHandler

/-! ## Orders on their way -/

/-- An order as `makeOrder` issues it. -/
structure Placement (Date : Type) where
  user : String
  products : List (ProductInfo × Int64)
  slip : OrderSlip Date

section Placement

variable {Date : Type} (dates : DateLibrary Date)

namespace Placement

/-- The place the order is written to. -/
def place (placement : Placement Date) : String × String :=
  (placement.user, getTimestamp dates placement.slip.date)

/-- The writes of the order. -/
def writes (placement : Placement Date) : List Write :=
  orderWrites placement.user placement.slip.number placement.slip.restaurant placement.products
    (getTimestamp dates placement.slip.date) (getTimestamp dates placement.slip.readyDate)

/-- What the writes mean for the ledger. -/
def commands (placement : Placement Date) : List (LedgerCommand Date) :=
  [ .storeProducts (placement.place dates) placement.products,
    .storeSlip (placement.place dates) placement.slip,
    .saveBasket placement.user ∅]

end Placement

/-- The order of the success branch of `makeOrder`. -/
def placement (user : String) (number : Int64) (restaurants : List Restaurant)
    (basket : List (ProductInfo × Int64)) (now later : Date) : Option (Placement Date) := do
  let restaurant ← orderRestaurant restaurants basket
  let readyDate ← dates.addingMinutes 30 now
  return ⟨user, basket, ⟨number, restaurant, later, readyDate⟩⟩

/-- Its writes are those of `makeOrder`. -/
theorem writes_of_placement (user : String) (number : Int64) (restaurants : List Restaurant)
    (basket : List (ProductInfo × Int64)) (now later : Date) :
    (placement dates user number restaurants basket now later).map (Placement.writes dates) =
      makeOrderResponse dates user number restaurants basket now later := by
  unfold placement makeOrderResponse
  cases orderRestaurant restaurants basket with
  | none => rfl
  | some restaurant => cases dates.addingMinutes 30 now <;> rfl

variable {dates}

theorem placement_eq_some {user : String} {number : Int64} {restaurants : List Restaurant}
    {basket : List (ProductInfo × Int64)} {now later : Date} {issued : Placement Date}
    (h : placement dates user number restaurants basket now later = some issued) :
    ∃ restaurant readyDate, orderRestaurant restaurants basket = some restaurant ∧
      dates.addingMinutes 30 now = some readyDate ∧
      issued = ⟨user, basket, ⟨number, restaurant, later, readyDate⟩⟩ := by
  obtain ⟨restaurant, hrestaurant, hready⟩ := Option.bind_eq_some_iff.mp h
  obtain ⟨readyDate, hreadyDate, hissued⟩ := Option.bind_eq_some_iff.mp hready
  exact ⟨restaurant, readyDate, hrestaurant, hreadyDate, (Option.some.inj hissued).symm⟩

end Placement

/-! ## State -/

/-- The `getBasket` of a `makeOrder`. -/
inductive BasketRead where
  | waiting (user : String)
  | answered (user : String) (value : Json)

/-- A `postBasket` whose write has not arrived. -/
structure BasketSave where
  user : String
  basket : Basket
  write : Write

/-- A call is named by its account and a number. -/
abbrev CallId : Type := String × Nat

/-- The database and the calls that are not finished.  Each order is kept with the
number of its writes that have arrived. -/
structure Traffic (Date : Type) where
  database : Json
  reads : CallId → Option BasketRead
  saves : CallId → Option BasketSave
  orders : List (Placement Date × Nat)

/-- What can happen.  Orders are named by their position; a list of entries is the order in
which a loop meets a dictionary. -/
inductive TrafficEvent (Date : Type) where
  | postBasket (id : CallId) (user : String) (basket : Basket)
      (entries : List (ProductInfo × Int64)) (isConnected : Bool)
  | makeOrder (id : CallId) (user : String) (isConnected stillConnected : Bool)
  | answer (id : CallId)
  /-- the read is cancelled, and the order is not made -/
  | cancel (id : CallId)
  | deliver (id : CallId) (number : Int64) (restaurants : List Restaurant)
      (entries : List (ProductInfo × Int64)) (now later : Date)
  | saveArrives (id : CallId)
  | orderArrives (index : Nat)

namespace Traffic

/-- No call is on its way. -/
def quiet {Date : Type} (database : Json) : Traffic Date where
  database := database
  reads := fun _ => none
  saves := fun _ => none
  orders := []

section Step

variable {Date : Type} (dates : DateLibrary Date)

/-- One event. -/
def step (state : Traffic Date) : TrafficEvent Date → Option (Traffic Date)
  | .postBasket id user basket entries isConnected =>
      if (state.saves id).isNone ∧ basket.Enumerates entries then
        match FirebaseHandler.postBasket ⟨some user⟩ isConnected entries with
        | .ok write =>
            some { state with
              saves := Function.update state.saves id (some ⟨user, basket, write⟩) }
        | .error _ => some state
      else none
  | .makeOrder id user isConnected stillConnected =>
      if (state.reads id).isNone then
        match makeOrderRequest ⟨some user⟩ isConnected stillConnected with
        | .ok _ =>
            some { state with reads := Function.update state.reads id (some (.waiting user)) }
        | .error _ => some state
      else none
  | .answer id =>
      match state.reads id with
      | some (.waiting user) =>
          some { state with
            reads := Function.update state.reads id
              (some (.answered user (state.database.get (basketPath user)))) }
      | _ => none
  | .cancel id =>
      match state.reads id with
      | some (.waiting _) => some { state with reads := Function.update state.reads id none }
      | _ => none
  | .deliver id number restaurants entries now later =>
      match state.reads id with
      | some (.answered user value) => do
          let basket ← getBasketResponse value
          if basket.Enumerates entries ∧ 1 ≤ number ∧ number < 100 then
            let issued ← placement dates user number restaurants entries now later
            return { state with
              reads := Function.update state.reads id none
              orders := state.orders ++ [(issued, 0)] }
          else none
      | _ => none
  | .saveArrives id =>
      match state.saves id with
      | some save =>
          some { state with
            saves := Function.update state.saves id none
            database := save.write.apply state.database }
      | none => none
  | .orderArrives index => do
      let (issued, arrived) ← state.orders[index]?
      let write ← (issued.writes dates)[arrived]?
      return { state with
        orders := state.orders.set index (issued, arrived + 1)
        database := write.apply state.database }

/-- What an event does to the ledger. -/
def commands (state : Traffic Date) : TrafficEvent Date → List (LedgerCommand Date)
  | .saveArrives id => (state.saves id).toList.map fun save => .saveBasket save.user save.basket
  | .orderArrives index =>
      (state.orders[index]?.bind fun order => (order.1.commands dates)[order.2]?).toList
  | _ => []

/-! ## What an event does -/

/-- The outcomes of an event. -/
inductive Transition (state : Traffic Date) : TrafficEvent Date → Traffic Date → Prop where
  | posted {id : CallId} {user : String} {basket : Basket} {entries : List (ProductInfo × Int64)}
      {isConnected : Bool} (hconnected : isConnected = true)
      (hentries : basket.Enumerates entries) :
      Transition state (.postBasket id user basket entries isConnected)
        { state with
          saves := Function.update state.saves id
            (some ⟨user, basket, ⟨basketPath user, encodeItems entries⟩⟩) }
  | asked {id : CallId} {user : String} {isConnected stillConnected : Bool} :
      Transition state (.makeOrder id user isConnected stillConnected)
        { state with reads := Function.update state.reads id (some (.waiting user)) }
  | refused (event : TrafficEvent Date) (hcommands : state.commands dates event = []) :
      Transition state event state
  | answered {id : CallId} {user : String} (hread : state.reads id = some (.waiting user)) :
      Transition state (.answer id)
        { state with
          reads := Function.update state.reads id
            (some (.answered user (state.database.get (basketPath user)))) }
  | cancelled {id : CallId} {user : String} (hread : state.reads id = some (.waiting user)) :
      Transition state (.cancel id)
        { state with reads := Function.update state.reads id none }
  | delivered {id : CallId} {user : String} {value : Json} {number : Int64}
      {restaurants : List Restaurant} {basket : Basket} {entries : List (ProductInfo × Int64)}
      {now later readyDate : Date} {restaurant : Restaurant}
      (hread : state.reads id = some (.answered user value))
      (hbasket : getBasketResponse value = some basket) (hentries : basket.Enumerates entries)
      (hrestaurant : orderRestaurant restaurants entries = some restaurant)
      (hready : dates.addingMinutes 30 now = some readyDate) :
      Transition state (.deliver id number restaurants entries now later)
        { state with
          reads := Function.update state.reads id none
          orders := state.orders ++
            [(⟨user, entries, ⟨number, restaurant, later, readyDate⟩⟩, 0)] }
  | saved {id : CallId} {save : BasketSave} (hsave : state.saves id = some save) :
      Transition state (.saveArrives id)
        { state with
          saves := Function.update state.saves id none
          database := save.write.apply state.database }
  | arrived {index arrived : Nat} {issued : Placement Date} {write : Write}
      (horder : state.orders[index]? = some (issued, arrived))
      (hwrite : (issued.writes dates)[arrived]? = some write) :
      Transition state (.orderArrives index)
        { state with
          orders := state.orders.set index (issued, arrived + 1)
          database := write.apply state.database }

variable {dates}

theorem transition_of_step {state next : Traffic Date} {event : TrafficEvent Date}
    (h : state.step dates event = some next) : state.Transition dates event next := by
  cases event with
  | postBasket id user basket entries isConnected =>
      obtain ⟨⟨-, hentries⟩, hpost⟩ := Option.ite_none_right_eq_some.mp h
      cases isConnected with
      | false => exact Option.some.inj hpost ▸ .refused _ rfl
      | true => exact Option.some.inj hpost ▸ .posted rfl hentries
  | makeOrder id user isConnected stillConnected =>
      obtain ⟨-, hmake⟩ := Option.ite_none_right_eq_some.mp h
      split at hmake
      · exact Option.some.inj hmake ▸ .asked
      · exact Option.some.inj hmake ▸ .refused _ rfl
  | answer id =>
      simp only [step] at h
      split at h
      · rename_i user hread
        exact Option.some.inj h ▸ .answered hread
      · cases h
  | cancel id =>
      simp only [step] at h
      split at h
      · rename_i user hread
        exact Option.some.inj h ▸ .cancelled hread
      · cases h
  | deliver id number restaurants entries now later =>
      simp only [step] at h
      split at h
      · rename_i user value hread
        obtain ⟨basket, hbasket, hdeliver⟩ := Option.bind_eq_some_iff.mp h
        obtain ⟨⟨hentries, -⟩, hissue⟩ := Option.ite_none_right_eq_some.mp hdeliver
        obtain ⟨issued, hissued, hnext⟩ := Option.bind_eq_some_iff.mp hissue
        obtain ⟨restaurant, readyDate, hrestaurant, hready, rfl⟩ := placement_eq_some hissued
        exact Option.some.inj hnext ▸ .delivered hread hbasket hentries hrestaurant hready
      · cases h
  | saveArrives id =>
      simp only [step] at h
      split at h
      · rename_i save hsave
        exact Option.some.inj h ▸ .saved hsave
      · cases h
  | orderArrives index =>
      obtain ⟨⟨issued, arrived⟩, horder, hwrite⟩ := Option.bind_eq_some_iff.mp h
      obtain ⟨write, hwrite, hnext⟩ := Option.bind_eq_some_iff.mp hwrite
      exact Option.some.inj hnext ▸ .arrived horder hwrite

end Step

end Traffic

/-! ## The ledger behind the traffic -/

/-- The order has products, and each of them has a category. -/
structure Placement.Sound {Date : Type} (issued : Placement Date) : Prop where
  nonempty : issued.products ≠ []
  categorized : ∀ entry ∈ issued.products, entry.1.category ≠ []

namespace Traffic

section Tracks

variable {Date : Type} (dates : DateLibrary Date)

/-- The database stands for the ledger, and what is on its way fits to it. -/
structure Tracks (state : Traffic Date) (ledger : Ledger Date) : Prop where
  represents : Represents dates state.database ledger
  sound : ledger.Sound
  reads : ∀ id user value, state.reads id = some (.answered user value) →
    ∃ basket, HoldsBasket value basket
  saves : ∀ id save, state.saves id = some save → ∃ entries, save.basket.Enumerates entries ∧
    save.write = ⟨basketPath save.user, encodeItems entries⟩
  orders : ∀ order ∈ state.orders, order.1.Sound
  begun : ∀ order ∈ state.orders, 1 ≤ order.2 →
    (ledger.orders (order.1.place dates)).products ≠ []

variable {dates} {state : Traffic Date} {ledger : Ledger Date}

theorem tracks_quiet {database : Json} (h : Represents dates database ledger)
    (hsound : ledger.Sound) : (quiet database).Tracks dates ledger :=
  ⟨h, hsound, nofun, nofun, nofun, nofun⟩

/-- A basket that is read back from the database has a category for each product. -/
theorem categorized_of_answer {value : Json} {held basket : Basket} (h : HoldsBasket value held)
    (hread : getBasketResponse value = some basket) : basket.Categorized := by
  obtain ⟨entries, -, rfl⟩ := h
  exact categorized_of_getBasketResponse hread

/-- Products that arrive do not make a ledger unsound. -/
theorem sound_storeProducts (hsound : ledger.Sound) (place : String × String)
    {products : List (ProductInfo × Int64)} (hnonempty : products ≠ [])
    (hcategorized : ∀ entry ∈ products, entry.1.category ≠ []) :
    (ledger.perform (.storeProducts place products)).Sound := by
  intro other
  rw [Ledger.perform, Ledger.setOrder_orders]
  by_cases hother : other = place
  · subst hother
    rw [Function.update_self]
    exact ⟨fun _ => hnonempty, hcategorized⟩
  · rw [Function.update_of_ne hother]
    exact hsound other

/-- Neither does a slip after the products. -/
theorem sound_storeSlip (hsound : ledger.Sound) {place : String × String}
    (hproducts : (ledger.orders place).products ≠ []) (slip : OrderSlip Date) :
    (ledger.perform (.storeSlip place slip)).Sound := by
  intro other
  rw [Ledger.perform, Ledger.setOrder_orders]
  by_cases hother : other = place
  · subst hother
    rw [Function.update_self]
    exact ⟨fun _ => hproducts, (hsound other).categorized⟩
  · rw [Function.update_of_ne hother]
    exact hsound other

/-- Products that have arrived stay. -/
theorem products_perform (command : LedgerCommand Date) {place : String × String}
    (hcommand : ∀ other products, command = .storeProducts other products → products ≠ [])
    (h : (ledger.orders place).products ≠ []) :
    ((ledger.perform command).orders place).products ≠ [] := by
  cases command with
  | saveBasket user basket => exact h
  | storeProducts other products =>
      rw [Ledger.perform, Ledger.setOrder_orders]
      by_cases hplace : place = other
      · subst hplace
        rw [Function.update_self]
        exact hcommand place products rfl
      · rwa [Function.update_of_ne hplace]
  | storeSlip other slip =>
      rw [Ledger.perform, Ledger.setOrder_orders]
      by_cases hplace : place = other
      · subst hplace
        rwa [Function.update_self]
      · rwa [Function.update_of_ne hplace]

variable (dates) in
/-- One write of an order, and its command. -/
structure WriteOf (issued : Placement Date) (arrived : Nat) (write : Write)
    (command : LedgerCommand Date) : Prop where
  command_eq : (issued.commands dates)[arrived]? = some command
  represents : ∀ database ledger, Represents dates database ledger →
    Represents dates (write.apply database) (ledger.perform command)
  sound : ∀ ledger : Ledger Date, ledger.Sound →
    (1 ≤ arrived → (ledger.orders (issued.place dates)).products ≠ []) →
    (ledger.perform command).Sound
  products : ∀ other products, command = .storeProducts other products → products ≠ []
  begun : ∀ ledger : Ledger Date,
    (1 ≤ arrived → (ledger.orders (issued.place dates)).products ≠ []) →
    ((ledger.perform command).orders (issued.place dates)).products ≠ []

/-- Each of the three writes of an order is a command of the ledger. -/
theorem exists_writeOf {issued : Placement Date} (hissued : issued.Sound) {arrived : Nat}
    {write : Write} (hwrite : (issued.writes dates)[arrived]? = some write) :
    ∃ command, WriteOf dates issued arrived write command := by
  match arrived with
  | 0 =>
      obtain rfl := Option.some.inj hwrite
      refine ⟨.storeProducts (issued.place dates) issued.products, rfl,
        fun _ _ h => represents_storeProducts h _ _ hissued.nonempty,
        fun _ hsound _ => sound_storeProducts hsound _ hissued.nonempty hissued.categorized, ?_,
        fun ledger _ => ?_⟩
      · intro other products heq
        cases heq
        exact hissued.nonempty
      · rw [Ledger.perform, Ledger.setOrder_orders, Function.update_self]
        exact hissued.nonempty
  | 1 =>
      obtain rfl := Option.some.inj hwrite
      refine ⟨.storeSlip (issued.place dates) issued.slip, rfl,
        fun _ _ h => represents_storeSlip h _ _ _,
        fun _ hsound hbegun => sound_storeSlip hsound (hbegun (Nat.le_refl 1)) _, nofun,
        fun ledger hbegun => ?_⟩
      rw [Ledger.perform, Ledger.setOrder_orders, Function.update_self]
      exact hbegun (Nat.le_refl 1)
  | 2 =>
      obtain rfl := Option.some.inj hwrite
      exact ⟨.saveBasket issued.user ∅, rfl,
        fun _ _ h => represents_saveBasket h _ (Dictionary.Enumerates.empty_iff.mpr rfl),
        fun _ hsound _ => hsound, nofun, fun _ hbegun => hbegun (by omega)⟩
  | arrived + 3 => cases hwrite

/-- Every event keeps the ledger in step with the database. -/
theorem tracks_step {next : Traffic Date} {event : TrafficEvent Date}
    (h : state.Tracks dates ledger) (hstep : state.step dates event = some next) :
    next.Tracks dates ((state.commands dates event).foldl Ledger.perform ledger) := by
  cases transition_of_step hstep with
  | @posted id user basket entries isConnected hconnected hentries =>
      refine ⟨h.represents, h.sound, h.reads, fun other save hsave => ?_, h.orders, h.begun⟩
      rcases of_update_eq_some hsave with ⟨-, hnew⟩ | hold
      · cases hnew
        exact ⟨entries, hentries, rfl⟩
      · exact h.saves other save hold
  | asked =>
      refine ⟨h.represents, h.sound, fun other user value hread => ?_, h.saves, h.orders, h.begun⟩
      rcases of_update_eq_some hread with ⟨-, hnew⟩ | hold
      · cases hnew
      · exact h.reads other user value hold
  | refused event hcommands =>
      rw [hcommands]
      exact h
  | @answered id user hwaiting =>
      refine ⟨h.represents, h.sound, fun other reader value hread => ?_, h.saves, h.orders,
        h.begun⟩
      rcases of_update_eq_some hread with ⟨-, hnew⟩ | hold
      · cases hnew
        exact ⟨_, h.represents.baskets user⟩
      · exact h.reads other reader value hold
  | cancelled hread =>
      refine ⟨h.represents, h.sound, fun other reader value hread => ?_, h.saves, h.orders,
        h.begun⟩
      rcases of_update_eq_some hread with ⟨-, hnew⟩ | hold
      · cases hnew
      · exact h.reads other reader value hold
  | @delivered id user value number restaurants basket entries now later readyDate restaurant
      hread hbasket hentries hrestaurant hready =>
      obtain ⟨held, hheld⟩ := h.reads id user value hread
      have hcategorized := categorized_of_answer hheld hbasket
      refine ⟨h.represents, h.sound, fun other reader answer hanswer => ?_, h.saves,
        fun order hmem => ?_, fun order hmem hbegun => ?_⟩
      · rcases of_update_eq_some hanswer with ⟨-, hnew⟩ | hold
        · cases hnew
        · exact h.reads other reader answer hold
      · rcases List.mem_append.mp hmem with hold | hnew
        · exact h.orders order hold
        · rw [List.mem_singleton.mp hnew]
          exact ⟨ne_nil_of_orderRestaurant hrestaurant,
            fun entry hentry => hcategorized entry.1 (hentries.key_mem hentry)⟩
      · rcases List.mem_append.mp hmem with hold | hnew
        · exact h.begun order hold hbegun
        · rw [List.mem_singleton.mp hnew] at hbegun
          exact absurd hbegun (by simp)
  | @saved id save hsave =>
      obtain ⟨entries, hentries, hwrite⟩ := h.saves id save hsave
      have hcommands : state.commands dates (.saveArrives id) =
          [.saveBasket save.user save.basket] := by
        rw [commands, hsave]
        rfl
      rw [hcommands, hwrite]
      refine ⟨represents_saveBasket h.represents save.user hentries, h.sound, h.reads,
        fun other saved hsaved => ?_, h.orders, h.begun⟩
      rcases of_update_eq_some hsaved with ⟨-, hnew⟩ | hold
      · cases hnew
      · exact h.saves other saved hold
  | @arrived index arrived issued write horder hwrite =>
      have hmem := List.mem_of_getElem? horder
      have hissued : issued.Sound := h.orders _ hmem
      obtain ⟨command, hof⟩ := exists_writeOf hissued hwrite
      have hcommands : state.commands dates (.orderArrives index) = [command] := by
        rw [commands, horder, Option.bind_some, hof.command_eq]
        rfl
      rw [hcommands]
      have hbegun := h.begun _ hmem
      refine ⟨hof.represents _ _ h.represents, hof.sound _ h.sound hbegun, h.reads, h.saves,
        fun order hset => ?_, fun order hset hone => ?_⟩
      · rcases List.mem_or_eq_of_mem_set hset with hold | rfl
        · exact h.orders order hold
        · exact hissued
      · rcases List.mem_or_eq_of_mem_set hset with hold | rfl
        · exact products_perform command hof.products (h.begun order hold hone)
        · exact hof.begun ledger hbegun

/-- The ledger the writes that arrived lead to. -/
def ledgerAfter (dates : DateLibrary Date) (ledger : Ledger Date) (database : Json)
    (events : List (TrafficEvent Date)) : Ledger Date :=
  (carriedOut (step dates) (commands dates) (quiet database) events).foldl Ledger.perform ledger

theorem tracks_run {database : Json} (h : Represents dates database ledger)
    (hsound : ledger.Sound) {events : List (TrafficEvent Date)} {final : Traffic Date}
    (hrun : run (step dates) (quiet database) events = some final) :
    final.Tracks dates (ledgerAfter dates ledger database events) :=
  represents_of_run Ledger.perform (Tracks dates)
    (fun _ _ _ _ htracks hstep => tracks_step htracks hstep) (tracks_quiet h hsound) hrun

/-- After any traffic the readers show the ledger that the arrived writes lead to:
the basket of each account; of each name the complete orders, every place once; and
of each account its orders, unless one of them is torn. -/
theorem traffic_represents_ledger (hlawful : dates.Lawful) {database : Json}
    (h : Represents dates database ledger) (hsound : ledger.Sound)
    {events : List (TrafficEvent Date)} {final : Traffic Date}
    (hrun : run (step dates) (quiet database) events = some final) :
    (∀ user basket, getBasket ⟨some user⟩ true final.database = some (.ok basket) ↔
      basket = (ledgerAfter dates ledger database events).baskets user ∧ basket.Categorized) ∧
    (∃ places : List (String × String), places.Nodup ∧
      (∀ place, place ∈ places ↔
        ((ledgerAfter dates ledger database events).orders place).products ≠ []) ∧
      ∀ restaurantName, loadAllOrders restaurantName final.database =
        some (places.filterMap fun place =>
          (((ledgerAfter dates ledger database events).orders place).info dates).filter
            fun info => info.restaurantName = restaurantName)) ∧
    ∀ user, getOrders dates ⟨some user⟩ true final.database = none ↔
      ∃ hash, ((ledgerAfter dates ledger database events).orders (user, hash)).Torn := by
  have htracks := tracks_run h hsound hrun
  refine ⟨getBasket_of_represents htracks.represents,
    ⟨places final.database, htracks.represents.nodup_places,
      fun place => htracks.represents.mem_places_iff htracks.sound,
      loadAllOrders_of_represents htracks.represents htracks.sound⟩, fun user => ?_⟩
  constructor
  · intro hnone
    by_contra hwhole
    obtain ⟨shown, hshown⟩ := getOrders_of_represents hlawful htracks.represents
      htracks.sound (not_exists.mp hwhole)
    rw [hshown] at hnone
    cases hnone
  · rintro ⟨hash, htorn⟩
    exact getOrders_of_torn htracks.represents htracks.sound htorn

end Tracks

/-! ## Two accounts at once -/

/-- Two lattes. -/
def twoLattes : List (ProductInfo × Int64) := [(⟨"Latte", 199, "l.png", [.coffee], "0"⟩, 2)]

/-- Two accounts save two lattes each and order them; the slip of the second order is
still on its way. -/
def rushHour : List (TrafficEvent Nat) :=
  let two := Dictionary.ofEntries twoLattes
  let anna : CallId := ("anna@mail", 0)
  let boris : CallId := ("boris@mail", 0)
  [ .postBasket anna anna.1 two twoLattes true, .postBasket boris boris.1 two twoLattes true,
    .saveArrives boris, .saveArrives anna,
    .makeOrder anna anna.1 true true, .makeOrder boris boris.1 true true,
    .answer anna, .answer boris,
    .deliver boris 17 [sampleRestaurant] twoLattes 6294876000 6294876005,
    .orderArrives 0,
    .deliver anna 18 [sampleRestaurant] twoLattes 6294876000 6294876005,
    .orderArrives 1, .orderArrives 1 ]

theorem traffic_represents_ledger_rushHour :
    ∃ final, run (step utcDates) (quiet .null) rushHour = some final ∧
      getOrders utcDates ⟨some "boris@mail"⟩ true final.database = none ∧
      getBasket ⟨some "anna@mail"⟩ true final.database =
        some (.ok (Dictionary.ofEntries twoLattes)) := by
  have hsome : (run (step utcDates) (quiet .null) rushHour).isSome = true := by decide
  obtain ⟨final, hrun⟩ := Option.isSome_iff_exists.mp hsome
  obtain ⟨hbaskets, -, horders⟩ := traffic_represents_ledger utcDates_lawful
    (represents_empty rfl) Ledger.sound_empty hrun
  have htorn : ((ledgerAfter utcDates .empty .null rushHour).orders
      ("boris@mail", getTimestamp utcDates 6294876005)).Torn :=
    ⟨by decide, by decide⟩
  have hstored : (ledgerAfter utcDates .empty .null rushHour).baskets "anna@mail" =
      Dictionary.ofEntries twoLattes := by decide
  have hentries : Dictionary.Enumerates (Dictionary.ofEntries twoLattes) twoLattes :=
    Dictionary.enumerates_ofEntries (by decide)
  have hcategorized : Basket.Categorized (Dictionary.ofEntries twoLattes) := by
    intro product hmem
    rw [← hentries.mem_keys_iff] at hmem
    revert product
    decide
  exact ⟨final, hrun, (horders "boris@mail").mpr ⟨_, htorn⟩,
    (hbaskets "anna@mail" _).mpr ⟨hstored.symm, hcategorized⟩⟩

end Traffic

end QFree
