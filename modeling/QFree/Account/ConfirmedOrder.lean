/-
  Account/ConfirmedOrder.lean --- whether an order is the basket that was
  confirmed.

  `makeOrder` is passed the basket of the Basket screen, and orders the basket
  that its own `getBasket` reads, under the same name.  Between the read of the
  screen and this one other screens and devices may write.

  `StoredConfirmed` is the condition that the basket the server has stored, when it
  answers the second read, is the one that was passed.  Throughout a run it makes
  every order the confirmed basket, and it is needed, up to answers that are never
  delivered.  Where the passed basket comes from is followed through the run by
  `Traced`: it is what the server had stored when it answered the first read.  So
  the order is the confirmed basket if no write arrives between the two answers.
-/
import QFree.Account.System

set_option autoImplicit false

namespace QFree

open QFree.Foundation QFree.FirebaseHandler

/-- The order writes exactly the products and amounts of the basket that was
passed to `makeOrder`. -/
structure IssuedOrder.IsConfirmed (user : String) (order : IssuedOrder) : Prop where
  entries_confirmed : order.confirmed.Enumerates order.entries
  writes_entries : ∃ hash, order.writes.head? =
    some ⟨orderPath user hash ++ ["products"], encodeItems order.entries⟩

namespace AccountState

/-! ## The condition -/

/-- What `getBasket` would read at this moment. -/
def storedBasket (user : String) (state : AccountState) : Option Basket :=
  getBasketResponse (state.database.get (basketPath user))

/-- The basket that was passed to the `makeOrder` whose read is waiting. -/
def passedBasket (state : AccountState) (id : Nat) : Option Basket :=
  match state.requests id with
  | some (.waiting (.order _ _ confirmed _)) => some confirmed
  | _ => none

/-- When the server answers the read of a `makeOrder`, the stored basket is the one
that was passed, unless it cannot be read at all. -/
def StoredConfirmed {Date : Type} (user : String) (state : AccountState) :
    AccountEvent Date → Prop
  | .answer id => ∀ confirmed ∈ state.passedBasket id,
      state.storedBasket user = none ∨ state.storedBasket user = some confirmed
  | _ => True

instance {Date : Type} (user : String) (state : AccountState) (event : AccountEvent Date) :
    Decidable (state.StoredConfirmed user event) :=
  match event with
  | .answer id => inferInstanceAs (Decidable (∀ confirmed ∈ state.passedBasket id, _ ∨ _))
  | .pushMenuVC .. | .menuWillAppear .. | .menuTapped .. | .menuWillDisappear ..
  | .screenGetsBasket .. | .orderButtonPressed .. | .okButtonPressed _ | .cancel _
  | .menuBasketDelivered _ | .menuProductsDelivered _ | .screenBasketDelivered ..
  | .restaurantsDelivered .. | .orderDelivered .. | .write _ => .isTrue trivial

/-- No answer to a `makeOrder` is on its way. -/
def NoOrderAnswered (state : AccountState) : Prop :=
  ∀ id screen number confirmed restaurants value,
    state.requests id ≠ some (.answered (.order screen number confirmed restaurants) value)

theorem passedBasket_eq_some {state : AccountState} {id : Nat} {confirmed : Basket} :
    state.passedBasket id = some confirmed ↔
      ∃ screen number restaurants,
        state.requests id = some (.waiting (.order screen number confirmed restaurants)) := by
  unfold passedBasket
  split
  · rename_i hrequest
    rw [hrequest]
    simp
  · rename_i hother
    refine iff_of_false nofun ?_
    rintro ⟨screen, number, restaurants, hrequest⟩
    exact hother _ _ _ _ hrequest

/-! ## The two reads of an order -/

section Reads

variable {Date : Type} (dates : DateLibrary Date) (user : String) (start : AccountState)

/-- After these events the server is asked for the basket of a Basket screen, and
this is the one it has stored. -/
def LoadsAfter (before : List (AccountEvent Date)) (id : Nat) (basket : Basket) : Prop :=
  ∃ state screen, run (step dates user) start before = some state ∧
    state.requests id = some (.waiting (.screenBasket screen)) ∧
    state.storedBasket user = some basket

/-- After these events the server is asked for the basket by a `makeOrder` that was
passed this one, and it has stored a value. -/
def OrdersAfter (before : List (AccountEvent Date)) (id : Nat) (confirmed : Basket)
    (value : Json) : Prop :=
  ∃ state, run (step dates user) start before = some state ∧
    state.passedBasket id = some confirmed ∧ state.database.get (basketPath user) = value

/-- Among the events the server answered a Basket screen with this basket. -/
def Loaded (events : List (AccountEvent Date)) (basket : Basket) : Prop :=
  ∃ before id rest, events = before ++ .answer id :: rest ∧
    LoadsAfter dates user start before id basket

/-- Among the events the server answered, with this value, a `makeOrder` that had been
passed the basket. -/
def OrderAnswered (events : List (AccountEvent Date)) (confirmed : Basket) (value : Json) : Prop :=
  ∃ before id rest, events = before ++ .answer id :: rest ∧
    OrdersAfter dates user start before id confirmed value ∧
    (confirmed ≠ ∅ → Loaded dates user start before confirmed)

/-- The baskets a request carries or brings were read where they should have been. -/
def RequestTraced (events : List (AccountEvent Date)) : Request → Prop
  | .waiting (.order _ _ confirmed _) => confirmed ≠ ∅ → Loaded dates user start events confirmed
  | .answered (.screenBasket _) value =>
      ∀ basket, getBasketResponse value = some basket → Loaded dates user start events basket
  | .answered (.order _ _ confirmed _) value =>
      OrderAnswered dates user start events confirmed value
  | _ => True

/-- Every basket of a screen was read from the server, and every order was answered. -/
structure Traced (events : List (AccountEvent Date)) (state : AccountState) : Prop where
  screens : ∀ screen, (state.screens screen).basket ≠ ∅ →
    Loaded dates user start events (state.screens screen).basket
  requests : ∀ id request, state.requests id = some request →
    RequestTraced dates user start events request
  issued : ∀ order ∈ state.issued, ∃ value basket,
    OrderAnswered dates user start events order.confirmed value ∧
    getBasketResponse value = some basket ∧ (order.IsConfirmed user ↔ basket = order.confirmed)

end Reads

section Confirmed

variable {Date : Type} {dates : DateLibrary Date} {user : String} {start : AccountState}

/-! ## What keeps the trace -/

theorem Loaded.later {events : List (AccountEvent Date)} {basket : Basket}
    (h : Loaded dates user start events basket) (event : AccountEvent Date) :
    Loaded dates user start (events ++ [event]) basket := by
  obtain ⟨before, id, rest, rfl, hloads⟩ := h
  exact ⟨before, id, rest ++ [event], by simp, hloads⟩

theorem OrderAnswered.later {events : List (AccountEvent Date)} {confirmed : Basket} {value : Json}
    (h : OrderAnswered dates user start events confirmed value) (event : AccountEvent Date) :
    OrderAnswered dates user start (events ++ [event]) confirmed value := by
  obtain ⟨before, id, rest, rfl, horders⟩ := h
  exact ⟨before, id, rest ++ [event], by simp, horders⟩

theorem RequestTraced.later {events : List (AccountEvent Date)} {request : Request}
    (h : RequestTraced dates user start events request) (event : AccountEvent Date) :
    RequestTraced dates user start (events ++ [event]) request := by
  cases request with
  | waiting task =>
      cases task with
      | order screen number confirmed restaurants => exact fun hne => (h hne).later event
      | _ => trivial
  | answered task value =>
      cases task with
      | screenBasket screen => exact fun basket hbasket => (h basket hbasket).later event
      | order screen number confirmed restaurants => exact OrderAnswered.later h event
      | _ => trivial
  | writing writes => trivial

theorem Traced.later {events : List (AccountEvent Date)} {state : AccountState}
    (h : Traced dates user start events state) (event : AccountEvent Date) :
    Traced dates user start (events ++ [event]) state where
  screens := fun screen hne => (h.screens screen hne).later event
  requests := fun id request hrequest => (h.requests id request hrequest).later event
  issued := fun order hmem => by
    obtain ⟨value, basket, hordered, hread⟩ := h.issued order hmem
    exact ⟨value, basket, hordered.later event, hread⟩

section Updates

variable {events : List (AccountEvent Date)} {state : AccountState}

theorem traced_setMenu (h : Traced dates user start events state) (menu : Nat)
    (controller : MenuController) :
    Traced dates user start events (state.setMenu menu controller) :=
  ⟨h.screens, h.requests, h.issued⟩

theorem traced_setScreen (h : Traced dates user start events state) (screen : Nat)
    {controller : BasketViewController}
    (hbasket : controller.basket ≠ ∅ → Loaded dates user start events controller.basket) :
    Traced dates user start events (state.setScreen screen controller) := by
  refine ⟨fun other => ?_, h.requests, h.issued⟩
  rw [setScreen_screens, Function.update_apply]
  split
  · exact hbasket
  · exact h.screens other

theorem traced_setRequest (h : Traced dates user start events state) (id : Nat)
    {request : Option Request}
    (hrequest : ∀ r, request = some r → RequestTraced dates user start events r) :
    Traced dates user start events (state.setRequest id request) := by
  refine ⟨h.screens, fun other r hother => ?_, h.issued⟩
  rcases of_update_eq_some hother with ⟨-, hnew⟩ | hold
  · exact hrequest r hnew
  · exact h.requests other r hold

theorem traced_finish (h : Traced dates user start events state) (id : Nat) :
    Traced dates user start events (state.setRequest id none) :=
  traced_setRequest h id fun _ hnone => nomatch hnone

theorem traced_read {next : AccountState} {id : Nat} {task : ReadTask}
    {guards : Except NetworkingError (List String)}
    (hread : state.read id task guards = some next) (h : Traced dates user start events state)
    (htask : RequestTraced dates user start events (.waiting task)) :
    Traced dates user start events next := by
  rcases read_eq_some hread with rfl | ⟨-, rfl⟩
  · exact h
  · exact traced_setRequest h id fun r hr => Option.some.inj hr ▸ htask

/-- What the server answers is what it has stored. -/
theorem requestTraced_answer (h : Traced dates user start events state)
    (hrun : run (step dates user) start events = some state) {id : Nat} {task : ReadTask}
    (hrequest : state.requests id = some (.waiting task)) :
    RequestTraced dates user start (events ++ [.answer id])
      (.answered task (state.database.get (path user task))) := by
  have hwaiting := h.requests id _ hrequest
  cases task with
  | screenBasket screen =>
      intro basket hbasket
      exact ⟨events, id, [], rfl, state, screen, hrun, hrequest, hbasket⟩
  | order screen number confirmed restaurants =>
      have hpassed := passedBasket_eq_some.mpr ⟨screen, number, restaurants, hrequest⟩
      exact ⟨events, id, [], rfl, ⟨state, hrun, hpassed, rfl⟩, hwaiting⟩
  | _ => trivial

end Updates

/-- An order whose entries enumerate the basket that was read is the confirmed one if
the baskets are. -/
theorem isConfirmed_iff {confirmed basket : Basket} {entries : List (ProductInfo × Int64)}
    (hentries : basket.Enumerates entries) (number : Int64) (restaurant : Restaurant)
    (hash readyDate : String) :
    IssuedOrder.IsConfirmed user
        ⟨confirmed, entries, orderWrites user number restaurant entries hash readyDate⟩ ↔
      basket = confirmed := by
  constructor
  · exact fun h => hentries.unique h.entries_confirmed
  · rintro rfl
    exact ⟨hentries, hash, rfl⟩

/-- Every event keeps the trace. -/
theorem traced_step {events : List (AccountEvent Date)} {state next : AccountState}
    {event : AccountEvent Date} (h : Traced dates user start events state)
    (hrun : run (step dates user) start events = some state)
    (hstep : state.step dates user event = some next) :
    Traced dates user start (events ++ [event]) next := by
  have hlater := h.later event
  cases transition_of_step hstep with
  | menuOpened hnew => exact traced_setMenu hlater _ _
  | menuAppeared hbasket hproducts =>
      exact traced_read hproducts (traced_read hbasket hlater trivial) trivial
  | menuTapped _ hmenu hchanged => exact traced_setMenu hlater _ _
  | posted hmenu hentries hpost hfree =>
      exact traced_setRequest hlater _ fun r hr => Option.some.inj hr ▸ trivial
  | notPosted => exact hlater
  | screenAsked hread => exact traced_read hread hlater trivial
  | orderPressed hcan hread => exact traced_read hread hlater trivial
  | okPressed => exact traced_setScreen hlater _ fun hne => absurd rfl hne
  | answered hrequest =>
      exact traced_setRequest hlater _ fun r hr =>
        Option.some.inj hr ▸ requestTraced_answer h hrun hrequest
  | cancelled hrequest => exact traced_finish hlater _
  | menuBasketDelivered hrequest hbasket hmenu hchanged =>
      exact traced_setMenu (traced_finish hlater _) _ _
  | menuProductsDelivered hrequest hmenu hproducts hchanged =>
      exact traced_setMenu (traced_finish hlater _) _ _
  | screenBasketDelivered hrequest hbasket =>
      exact traced_setScreen (traced_finish hlater _) _ fun _ =>
        hlater.requests _ _ hrequest _ hbasket
  | restaurantsDelivered hrequest hread =>
      exact traced_read hread (traced_finish hlater _) (hlater.screens _)
  | orderDelivered hrequest hbasket hentries hwrites =>
      obtain ⟨restaurant, readyDate, -, -, rfl⟩ := orderWrites_of_makeOrderResponse hwrites
      have hanswered := hlater.requests _ _ hrequest
      refine ⟨?_, ?_, fun order hmem => ?_⟩
      · refine (traced_setScreen hlater _ fun hne => ?_).screens
        rw [BasketViewController.orderCompletion_basket] at hne ⊢
        exact hlater.screens _ hne
      · refine (traced_setRequest hlater _ fun r hr => ?_).requests
        exact Option.some.inj hr ▸ trivial
      · rcases List.mem_append.mp hmem with hold | hnew
        · exact hlater.issued order hold
        · rw [List.mem_singleton.mp hnew]
          exact ⟨_, _, hanswered, hbasket, isConfirmed_iff hentries _ _ _ _⟩
  | written hrequest =>
      refine ⟨hlater.screens, (traced_setRequest hlater _ fun r hr => ?_).requests,
        hlater.issued⟩
      split at hr
      · cases hr
      · exact Option.some.inj hr ▸ trivial

theorem traced_initial (database : Json) :
    Traced dates user (initial database) [] (initial database) := by
  refine ⟨fun _ hne => absurd rfl hne, ?_, ?_⟩
  · intro id request hnone
    cases hnone
  · intro order hmem
    cases hmem

theorem traced_of_run {database : Json} {events : List (AccountEvent Date)} {state : AccountState}
    (hrun : run (step dates user) (initial database) events = some state) :
    Traced dates user (initial database) events state :=
  run_traced (Traced dates user (initial database)) (traced_initial database)
    (fun _ _ _ _ h hbefore hstep => traced_step h hbefore hstep) hrun

/-! ## What stays wrong -/

/-- An order is not the confirmed basket, or will not be when the answer that is on its
way is delivered. -/
def Mistaken (user : String) (state : AccountState) : Prop :=
  (∃ id screen number confirmed restaurants value basket,
    state.requests id = some (.answered (.order screen number confirmed restaurants) value) ∧
      getBasketResponse value = some basket ∧ basket ≠ confirmed) ∨
    ∃ order ∈ state.issued, ¬order.IsConfirmed user

theorem requests_setRequest_of_ne {state : AccountState} {id other : Nat} {request : Request}
    (h : state.requests id = some request) (hother : state.requests other ≠ some request)
    (new : Option Request) : (state.setRequest other new).requests id = some request := by
  have hne : id ≠ other := fun heq => hother (heq ▸ h)
  rw [setRequest_requests, Function.update_of_ne hne, h]

theorem requests_read {state next : AccountState} {id other : Nat} {request : Request}
    {task : ReadTask} {guards : Except NetworkingError (List String)}
    (hread : state.read other task guards = some next) (h : state.requests id = some request) :
    next.requests id = some request := by
  rcases read_eq_some hread with rfl | ⟨hfree, rfl⟩
  · exact h
  · exact requests_setRequest_of_ne h (by rw [hfree]; nofun) _

/-- An answer to a `makeOrder` stays until it is delivered. -/
theorem answered_or_delivered {state next : AccountState} {event : AccountEvent Date} {id : Nat}
    {screen : Nat} {number : Int64} {confirmed : Basket} {restaurants : List Restaurant}
    {value : Json} (hstep : state.step dates user event = some next)
    (h : state.requests id =
      some (.answered (.order screen number confirmed restaurants) value)) :
    next.requests id = some (.answered (.order screen number confirmed restaurants) value) ∨
      ∃ entries now later, event = .orderDelivered id entries now later := by
  cases transition_of_step hstep with
  | menuOpened | menuTapped | notPosted | okPressed => exact .inl h
  | menuAppeared hbasket hproducts =>
      exact .inl (requests_read hproducts (requests_read hbasket h))
  | posted _ _ _ hfree => exact .inl (requests_setRequest_of_ne h (by rw [hfree]; nofun) _)
  | screenAsked hread | orderPressed _ hread => exact .inl (requests_read hread h)
  | answered hrequest | cancelled hrequest | menuBasketDelivered hrequest
  | menuProductsDelivered hrequest | screenBasketDelivered hrequest | written hrequest =>
      exact .inl (requests_setRequest_of_ne h (by rw [hrequest]; nofun) _)
  | restaurantsDelivered hrequest hread =>
      exact .inl (requests_read hread (requests_setRequest_of_ne h (by rw [hrequest]; nofun) _))
  | @orderDelivered other _ _ _ _ _ _ entries now later _ hrequest _ _ _ =>
      by_cases hother : id = other
      · exact .inr ⟨entries, now, later, hother ▸ rfl⟩
      · refine .inl ?_
        change Function.update state.requests other _ id = _
        rw [Function.update_of_ne hother, h]

/-- Orders stay issued, and the one that is delivered is issued. -/
theorem issued_step {state next : AccountState} {event : AccountEvent Date}
    (hstep : state.step dates user event = some next) :
    (∀ order ∈ state.issued, order ∈ next.issued) ∧
      ∀ id entries now later, event = .orderDelivered id entries now later →
        ∀ screen number confirmed restaurants value basket,
          state.requests id =
            some (.answered (.order screen number confirmed restaurants) value) →
          getBasketResponse value = some basket →
          ∃ order ∈ next.issued, (order.IsConfirmed user ↔ basket = confirmed) := by
  cases transition_of_step hstep with
  | orderDelivered hrequest hbasket hentries hwrites =>
      obtain ⟨restaurant, readyDate, -, -, rfl⟩ := orderWrites_of_makeOrderResponse hwrites
      refine ⟨fun order hmem => List.mem_append_left _ hmem, ?_⟩
      intro id entries now later hevent screen number confirmed restaurants value basket hother
        hread
      obtain ⟨rfl, rfl, -, -⟩ := AccountEvent.orderDelivered.inj hevent
      obtain ⟨htask, rfl⟩ := Request.answered.inj (Option.some.inj (hrequest.symm.trans hother))
      obtain ⟨-, -, rfl, -⟩ := ReadTask.order.inj htask
      obtain rfl := Option.some.inj (hbasket.symm.trans hread)
      exact ⟨_, List.mem_append_right _ (List.mem_singleton_self _),
        isConfirmed_iff hentries _ _ _ _⟩
  | menuAppeared hbasket hproducts =>
      refine ⟨fun order hmem => ?_, nofun⟩
      rwa [read_issued hproducts, read_issued hbasket]
  | screenAsked hread | orderPressed _ hread =>
      refine ⟨fun order hmem => ?_, nofun⟩
      rwa [read_issued hread]
  | restaurantsDelivered _ hread =>
      refine ⟨fun order hmem => ?_, nofun⟩
      rw [read_issued hread]
      exact hmem
  | _ => exact ⟨fun order hmem => hmem, nofun⟩

theorem mistaken_step {state next : AccountState} {event : AccountEvent Date}
    (h : state.Mistaken user) (hstep : state.step dates user event = some next) :
    next.Mistaken user := by
  rcases h with ⟨id, screen, number, confirmed, restaurants, value, basket, hrequest, hread, hne⟩ |
    ⟨order, hmem, hnot⟩
  · rcases answered_or_delivered hstep hrequest with hkept | ⟨entries, now, later, hevent⟩
    · exact .inl ⟨id, screen, number, confirmed, restaurants, value, basket, hkept, hread, hne⟩
    · obtain ⟨order, hmem, hiff⟩ := (issued_step hstep).2 id entries now later hevent screen number
        confirmed restaurants value basket hrequest hread
      exact .inr ⟨order, hmem, fun hconfirmed => hne (hiff.mp hconfirmed)⟩
  · exact .inr ⟨order, (issued_step hstep).1 order hmem, hnot⟩

/-- An answer against the condition is a mistake. -/
theorem mistaken_of_answer {state next : AccountState} {event : AccountEvent Date}
    (hnot : ¬state.StoredConfirmed user event)
    (hstep : state.step dates user event = some next) : next.Mistaken user := by
  cases transition_of_step hstep with
  | @answered id task hrequest =>
      rw [StoredConfirmed] at hnot
      push Not at hnot
      obtain ⟨confirmed, hpassed, hsome, hne⟩ := hnot
      obtain ⟨screen, number, restaurants, horder⟩ := passedBasket_eq_some.mp hpassed
      obtain ⟨basket, hbasket⟩ := Option.ne_none_iff_exists'.mp hsome
      obtain rfl := Request.waiting.inj (Option.some.inj (hrequest.symm.trans horder))
      refine .inl ⟨id, screen, number, confirmed, restaurants, _, basket,
        Function.update_self id _ _, hbasket, fun heq => hne ?_⟩
      rw [hbasket, heq]
  | _ => exact absurd trivial hnot

/-! ## The confirmed basket -/

/-- Where no write arrives the database stays as it is. -/
theorem database_of_no_write {events : List (AccountEvent Date)} {state final : AccountState}
    (hrun : run (step dates user) state events = some final) (hnone : ∀ id, .write id ∉ events) :
    final.database = state.database := by
  have halong : Along (step dates user) (fun _ event => ∀ id, event ≠ .write id) state events :=
    along_of_forall_mem state fun event hmem id heq => hnone id (heq ▸ hmem)
  refine run_invariant_of_along (fun _ event => ∀ id, event ≠ .write id)
    (fun reached => reached.database = state.database) (fun _ _ _ h hevent hstep => ?_) rfl halong
    hrun
  exact (database_of_ne_write hevent hstep).trans h

/-- In every run from an account of which no screen is open: if, whenever the server
answered the read of a `makeOrder`, the stored basket was the one that was passed, every
order is the basket that was passed to `makeOrder`; and only if, when no such answer is
left to be delivered.  Each order was passed what the server had stored when it answered
an earlier read of a Basket screen, unless it was passed the basket emptied by the OK
button, and it is this basket if no write arrived in between. -/
theorem orders_confirmed_iff {database : Json} {events : List (AccountEvent Date)}
    {state : AccountState} (hrun : run (step dates user) (initial database) events = some state) :
    (Along (step dates user) (StoredConfirmed user) (initial database) events →
      ∀ order ∈ state.issued, order.IsConfirmed user) ∧
    (state.NoOrderAnswered →
      ((∀ order ∈ state.issued, order.IsConfirmed user) ↔
        Along (step dates user) (StoredConfirmed user) (initial database) events)) ∧
    ∀ order ∈ state.issued, order.confirmed ≠ ∅ →
      ∃ first loadId between orderId rest value,
        events = first ++ .answer loadId :: (between ++ .answer orderId :: rest) ∧
        LoadsAfter dates user (initial database) first loadId order.confirmed ∧
        OrdersAfter dates user (initial database) (first ++ .answer loadId :: between) orderId
          order.confirmed value ∧
        (order.IsConfirmed user ↔ getBasketResponse value = some order.confirmed) ∧
        ((∀ id, .write id ∉ between) → order.IsConfirmed user) := by
  have htraced := traced_of_run hrun
  have henough : Along (step dates user) (StoredConfirmed user) (initial database) events →
      ∀ order ∈ state.issued, order.IsConfirmed user := by
    intro halong order hmem
    obtain ⟨value, basket, ⟨before, id, rest, rfl, ⟨asked, hbefore, hpassed, rfl⟩, -⟩, hread,
      hiff⟩ := htraced.issued order hmem
    refine hiff.mpr ?_
    have hstored : asked.storedBasket user = some basket := hread
    rcases halong.at_event hbefore _ hpassed with hnone | hsome
    · rw [hstored] at hnone
      cases hnone
    · exact Option.some.inj (hstored.symm.trans hsome)
  refine ⟨henough, fun hdelivered => ⟨fun hall => ?_, henough⟩, fun order hmem hne => ?_⟩
  · refine along_of_not (StoredConfirmed user) (Mistaken user)
      (fun _ _ _ hnot hstep => mistaken_of_answer hnot hstep)
      (fun _ _ _ h hstep => mistaken_step h hstep) hrun ?_
    rintro (⟨id, screen, number, confirmed, restaurants, value, -, hrequest, -⟩ |
      ⟨order, hmem, hnot⟩)
    · exact hdelivered id screen number confirmed restaurants value hrequest
    · exact hnot (hall order hmem)
  · obtain ⟨value, basket, ⟨before, orderId, rest, rfl, horders, hloaded⟩, hread, hiff⟩ :=
      htraced.issued order hmem
    obtain ⟨first, loadId, between, rfl, hloads⟩ := hloaded hne
    have hsame : order.IsConfirmed user ↔ getBasketResponse value = some order.confirmed := by
      rw [hiff, hread, Option.some.injEq]
    refine ⟨first, loadId, between, orderId, rest, value, by simp, hloads, horders, hsame,
      fun hnone => hsame.mpr ?_⟩
    obtain ⟨loading, screen, hfirst, hrequest, hstored⟩ := hloads
    obtain ⟨asked, hbefore, -, rfl⟩ := horders
    obtain ⟨middle, hmiddle, hbetween⟩ := run_append.mp hbefore
    obtain rfl := Option.some.inj (hfirst.symm.trans hmiddle)
    have hkept : asked.database = loading.database := by
      refine database_of_no_write hbetween fun id hwrite => ?_
      rcases List.mem_cons.mp hwrite with hanswer | hmem
      · cases hanswer
      · exact hnone id hmem
    rw [hkept]
    exact hstored

end Confirmed

/-- One order, and nobody else writes. -/
theorem orders_confirmed_iff_sample :
    ∃ state, run (step utcDates "user@mail") (initial sampleAccount) sampleOrder = some state ∧
      state.issued ≠ [] ∧ ∀ order ∈ state.issued, order.IsConfirmed "user@mail" := by
  have hsome : (run (step utcDates "user@mail") (initial sampleAccount) sampleOrder).any
      (fun state => !state.issued.isEmpty) = true := by decide
  obtain ⟨state, hrun, hissued⟩ := (Option.any_eq_true _ _).mp hsome
  refine ⟨state, hrun, fun hnone => ?_, (orders_confirmed_iff hrun).1 (by decide)⟩
  rw [hnone] at hissued
  cases hissued

/-- While an order of the sample basket is on its way, a menu on another device
adds a latte and is left. -/
def changedMeanwhile : List (AccountEvent Nat) :=
  [ .screenGetsBasket 0 0 true, .answer 0,
    .screenBasketDelivered 0 (sampleBasket.map Prod.fst),
    .pushMenuVC 0 "0", .menuWillAppear 0 1 2 true true, .answer 1, .answer 2,
    .menuBasketDelivered 1, .menuProductsDelivered 2,
    .menuTapped 0 (.add 0 (sampleBasket.map Prod.fst)),
    .orderButtonPressed 0 3 true, .answer 3, .restaurantsDelivered 3 4 17 true true,
    .menuWillDisappear 0 5 changedBasket true, .write 5,
    .answer 4, .orderDelivered 4 changedBasket 6294876000 6294876005]
where
  /-- the sample basket with one more latte -/
  changedBasket : List (ProductInfo × Int64) :=
    sampleBasket.map fun entry => (entry.1, if entry.2 = 2 then 3 else entry.2)

theorem order_not_confirmed :
    ∃ state, run (step utcDates "user@mail") (initial sampleAccount) changedMeanwhile =
        some state ∧
      ∃ order ∈ state.issued, ¬ order.IsConfirmed "user@mail" := by
  have hissued : ((run (step utcDates "user@mail") (initial sampleAccount) changedMeanwhile).any
      fun state => state.issued.any fun order =>
        ¬ order.confirmed.Enumerates order.entries) = true := by decide
  obtain ⟨state, hrun, hany⟩ := (Option.any_eq_true _ _).mp hissued
  obtain ⟨order, hmem, hne⟩ := List.any_eq_true.mp hany
  exact ⟨state, hrun, order, hmem, fun h => of_decide_eq_true hne h.entries_confirmed⟩

end AccountState

end QFree
