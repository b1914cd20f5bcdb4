/-
  Server/Calls.lean --- the requests of the screens as calls on their way.

  The screens of an account send requests.  Three kinds of them matter to the other
  accounts: the `getBasket` of a `makeOrder`, the write of a `postBasket`, and the
  writes of a `makeOrder`.  The traffic has a call for each of these; the remaining
  requests are silent, they only read.

  The traffic names an order by its position, the screens by a request.  The relation
  between the two, `slot`, is chosen along the run: an order takes the next position
  when its writes are issued.  No two requests share one, so the arrival of a write
  leaves the other orders alone.  With it, every step of an account is a run of the
  traffic (`carries_step`).
-/
import QFree.Account.System
import QFree.Server.Settling

set_option autoImplicit false

namespace QFree

open QFree.Foundation QFree.FirebaseHandler

/-! ## Silent requests -/

/-- The read belongs to a `makeOrder`. -/
def ReadTask.IsOrder : ReadTask → Prop
  | .order .. => True
  | _ => False

/-- The request only reads, for a screen. -/
inductive Request.Silent : Option Request → Prop where
  | free : Silent none
  | waiting {task : ReadTask} (htask : ¬ task.IsOrder) : Silent (some (.waiting task))
  | answered {task : ReadTask} {value : Json} (htask : ¬ task.IsOrder) :
      Silent (some (.answered task value))

/-- Only silent requests of the account changed. -/
structure AccountState.SameCalls (state next : AccountState) : Prop where
  database : next.database = state.database
  issued : next.issued = state.issued
  requests : ∀ id, next.requests id = state.requests id ∨
    Request.Silent (state.requests id) ∧ Request.Silent (next.requests id)

namespace AccountState

variable {state middle next : AccountState}

theorem SameCalls.trans (h : state.SameCalls middle) (hnext : middle.SameCalls next) :
    state.SameCalls next := by
  refine ⟨hnext.database.trans h.database, hnext.issued.trans h.issued, fun id => ?_⟩
  rcases hnext.requests id with hsame | ⟨hbefore, hafter⟩
  · rcases h.requests id with hfirst | ⟨hold, hmiddle⟩
    · exact .inl (hsame.trans hfirst)
    · exact .inr ⟨hold, hsame ▸ hmiddle⟩
  · rcases h.requests id with hfirst | ⟨hold, -⟩
    · exact .inr ⟨hfirst ▸ hbefore, hafter⟩
    · exact .inr ⟨hold, hafter⟩

/-- What leaves the requests alone changes no call. -/
theorem sameCalls_of_eq (hdatabase : next.database = state.database)
    (hissued : next.issued = state.issued) (hrequests : next.requests = state.requests) :
    state.SameCalls next :=
  ⟨hdatabase, hissued, fun id => .inl (congrFun hrequests id)⟩

theorem sameCalls_setRequest {id : Nat} {request : Option Request}
    (hold : Request.Silent (state.requests id)) (hnew : Request.Silent request) :
    state.SameCalls (state.setRequest id request) := by
  refine ⟨rfl, rfl, fun other => ?_⟩
  rw [setRequest_requests]
  by_cases hother : other = id
  · subst hother
    exact .inr ⟨hold, by rwa [Function.update_self]⟩
  · exact .inl (Function.update_of_ne hother _ _)

/-- A read for a screen changes no call. -/
theorem sameCalls_read {id : Nat} {task : ReadTask}
    {guards : Except NetworkingError (List String)} (htask : ¬ task.IsOrder)
    (h : state.read id task guards = some next) : state.SameCalls next := by
  rcases read_eq_some h with rfl | ⟨hfree, rfl⟩
  · exact sameCalls_of_eq rfl rfl rfl
  · exact sameCalls_setRequest (hfree ▸ .free) (.waiting htask)

end AccountState

/-! ## Calls -/

/-- What the traffic has for a request of an account: a read, a save, the position of an
order.  The number of an order is the one that was drawn for it. -/
inductive Carried {Date : Type} (dates : DateLibrary Date) (orders : List (Placement Date × Nat))
    (user : String) :
    Option Request → Option BasketRead → Option BasketSave → Option Nat → Prop where
  | silent {request : Option Request} (hsilent : Request.Silent request) :
      Carried dates orders user request none none none
  | asked {screen : Nat} {number : Int64} {confirmed : Basket} {restaurants : List Restaurant}
      (hnumber : 1 ≤ number ∧ number < 100) :
      Carried dates orders user (some (.waiting (.order screen number confirmed restaurants)))
        (some (.waiting user)) none none
  | answered {screen : Nat} {number : Int64} {confirmed : Basket}
      {restaurants : List Restaurant} {value : Json} (hnumber : 1 ≤ number ∧ number < 100) :
      Carried dates orders user
        (some (.answered (.order screen number confirmed restaurants) value))
        (some (.answered user value)) none none
  | saving {basket : Basket} {write : Write} :
      Carried dates orders user (some (.writing [write])) none (some ⟨user, basket, write⟩) none
  | ordering {index arrived : Nat} {issued : Placement Date} {first : Write} {rest : List Write}
      (horder : orders[index]? = some (issued, arrived))
      (hrest : (issued.writes dates).drop arrived = first :: rest) :
      Carried dates orders user (some (.writing (first :: rest))) none none (some index)

section Calls

variable {Date : Type} {dates : DateLibrary Date} {orders after : List (Placement Date × Nat)}
  {user : String} {request : Option Request} {read : Option BasketRead}
  {save : Option BasketSave} {position : Option Nat}

/-- A call does not see the orders of other calls. -/
theorem Carried.congr (h : Carried dates orders user request read save position)
    (hsame : ∀ index, position = some index → after[index]? = orders[index]?) :
    Carried dates after user request read save position := by
  cases h with
  | silent hsilent => exact .silent hsilent
  | asked hnumber => exact .asked hnumber
  | answered hnumber => exact .answered hnumber
  | saving => exact .saving
  | ordering horder hrest => exact .ordering ((hsame _ rfl).trans horder) hrest

/-- The traffic has nothing for a silent request. -/
theorem Carried.of_silent (h : Carried dates orders user request read save position)
    (hsilent : Request.Silent request) : read = none ∧ save = none ∧ position = none := by
  cases h with
  | silent _ => exact ⟨rfl, rfl, rfl⟩
  | asked _ => cases hsilent with | waiting htask => exact absurd trivial htask
  | answered _ => cases hsilent with | answered htask => exact absurd trivial htask
  | saving => cases hsilent
  | ordering _ _ => cases hsilent

/-- A read that waits is silent, or the traffic has it too. -/
theorem Carried.of_waiting {task : ReadTask}
    (h : Carried dates orders user (some (.waiting task)) read save position) :
    save = none ∧ position = none ∧ (¬ task.IsOrder ∨ read = some (.waiting user) ∧
      ∃ screen number confirmed restaurants,
        task = .order screen number confirmed restaurants ∧ 1 ≤ number ∧ number < 100) := by
  cases h with
  | silent hsilent =>
      cases hsilent with
      | waiting htask => exact ⟨rfl, rfl, .inl htask⟩
  | asked hnumber => exact ⟨rfl, rfl, .inr ⟨rfl, _, _, _, _, rfl, hnumber⟩⟩

/-- The `getBasket` of an order is answered in the traffic too. -/
theorem Carried.of_answered {screen : Nat} {number : Int64} {confirmed : Basket}
    {restaurants : List Restaurant} {value : Json}
    (h : Carried dates orders user
      (some (.answered (.order screen number confirmed restaurants) value)) read save position) :
    read = some (.answered user value) ∧ save = none ∧ position = none ∧
      1 ≤ number ∧ number < 100 := by
  cases h with
  | silent hsilent =>
      cases hsilent with
      | answered htask => exact absurd trivial htask
  | answered hnumber => exact ⟨rfl, rfl, rfl, hnumber⟩

/-- A write belongs to a save or to an order of the traffic. -/
theorem Carried.of_writing {first : Write} {rest : List Write}
    (h : Carried dates orders user (some (.writing (first :: rest))) read save position) :
    read = none ∧
      ((rest = [] ∧ position = none ∧ ∃ basket, save = some ⟨user, basket, first⟩) ∨
        save = none ∧ ∃ index arrived issued, position = some index ∧
          orders[index]? = some (issued, arrived) ∧
          (issued.writes dates).drop arrived = first :: rest) := by
  cases h with
  | silent hsilent => cases hsilent
  | saving => exact ⟨rfl, .inl ⟨rfl, rfl, _, rfl⟩⟩
  | ordering horder hrest => exact ⟨rfl, .inr ⟨rfl, _, _, _, rfl, horder, hrest⟩⟩

theorem Carried.lt_length {index : Nat}
    (h : Carried dates orders user request read save (some index)) : index < orders.length := by
  cases h with
  | ordering horder _ => exact (List.getElem?_eq_some_iff.mp horder).1

theorem Carried.writing {index : Nat}
    (h : Carried dates orders user request read save (some index)) :
    ∃ writes, request = some (.writing writes) := by
  cases h with
  | ordering _ _ => exact ⟨_, rfl⟩

end Calls

/-! ## All accounts -/

/-- The account over another database. -/
def AccountState.on (state : AccountState) (database : Json) : AccountState :=
  { state with database := database }

@[simp] theorem AccountState.on_database (state : AccountState) (database : Json) :
    (state.on database).database = database := rfl

@[simp] theorem AccountState.on_requests (state : AccountState) (database : Json) :
    (state.on database).requests = state.requests := rfl

@[simp] theorem AccountState.on_issued (state : AccountState) (database : Json) :
    (state.on database).issued = state.issued := rfl

/-- What is written for an order. -/
def IssuedOrder.content (issued : IssuedOrder) : List (ProductInfo × Int64) × List Write :=
  (issued.entries, issued.writes)

/-- Where the products of an order are written. -/
def IssuedOrder.place (issued : IssuedOrder) : Option (List String) :=
  issued.writes.head?.map Write.path

/-- What is written for the orders of an account, in the order of the calls. -/
def Traffic.contents {Date : Type} (dates : DateLibrary Date) (traffic : Traffic Date)
    (user : String) : List (List (ProductInfo × Int64) × List Write) :=
  (traffic.placements.filter fun issued => issued.user = user).map fun issued =>
    (issued.products, issued.writes dates)

/-- The traffic has the calls of all accounts, each order at a position of its own, and has
issued the same orders. -/
structure Carries {Date : Type} (dates : DateLibrary Date) (accounts : String → AccountState)
    (traffic : Traffic Date) (slot : CallId → Option Nat) : Prop where
  calls : ∀ call, Carried dates traffic.orders call.1 ((accounts call.1).requests call.2)
    (traffic.reads call) (traffic.saves call) (slot call)
  distinct : ∀ call other index, slot call = some index → slot other = some index → call = other
  kept : ∀ index issued arrived, traffic.orders[index]? = some (issued, arrived) → arrived < 3 →
    ∃ call, slot call = some index
  issued : ∀ user, (accounts user).issued.map IssuedOrder.content = traffic.contents dates user

section Carries

variable {Date : Type} {dates : DateLibrary Date} {accounts : String → AccountState}
  {traffic after : Traffic Date} {slot : CallId → Option Nat} {user : String}
  {next : AccountState} {id : Nat} {request : Option Request}

/-- A change of one request, as the traffic sees it. -/
theorem requests_update
    (hrequests : next.requests = Function.update (accounts user).requests id request)
    {call : CallId} (hcall : call ≠ (user, id)) :
    (Function.update accounts user next call.1).requests call.2 =
      (accounts call.1).requests call.2 := by
  by_cases hname : call.1 = user
  · have hid : call.2 ≠ id := fun hid => hcall (Prod.ext hname hid)
    rw [hname, Function.update_self, hrequests, Function.update_of_ne hid]
  · rw [Function.update_of_ne hname]

theorem Carries.issued_update (h : Carries dates accounts traffic slot)
    (hissued : next.issued = (accounts user).issued) (name : String) :
    (Function.update accounts user next name).issued.map IssuedOrder.content =
      traffic.contents dates name := by
  by_cases hname : name = user
  · subst hname
    rw [Function.update_self, hissued, h.issued]
  · rw [Function.update_of_ne hname, h.issued]

/-- Silent requests need no event. -/
theorem Carries.of_sameCalls (h : Carries dates accounts traffic slot)
    (hsame : ((accounts user).on traffic.database).SameCalls next) :
    Carries dates (Function.update accounts user next) traffic slot := by
  refine ⟨fun call => ?_, h.distinct, h.kept, h.issued_update hsame.issued⟩
  have hcall := h.calls call
  obtain ⟨name, id⟩ := call
  by_cases hname : name = user
  · subst hname
    rw [Function.update_self]
    rcases hsame.requests id with hunchanged | ⟨hbefore, hafter⟩
    · rw [hunchanged]
      exact hcall
    · obtain ⟨hread, hsave, hposition⟩ := hcall.of_silent hbefore
      rw [hread, hsave, hposition]
      exact .silent hafter
  · rw [Function.update_of_ne hname]
    exact hcall

/-- One call changes, and the orders of the others stay where they are. -/
theorem Carries.of_change (h : Carries dates accounts traffic slot) (position : Option Nat)
    (hrequests : next.requests = Function.update (accounts user).requests id request)
    (hissued : ∀ name, (Function.update accounts user next name).issued.map IssuedOrder.content =
      after.contents dates name)
    (hreads : ∀ call, call ≠ (user, id) → after.reads call = traffic.reads call)
    (hsaves : ∀ call, call ≠ (user, id) → after.saves call = traffic.saves call)
    (horders : ∀ call index, call ≠ (user, id) → slot call = some index →
      after.orders[index]? = traffic.orders[index]?)
    (hcall : Carried dates after.orders user request (after.reads (user, id))
      (after.saves (user, id)) position)
    (hfresh : ∀ call index, call ≠ (user, id) → slot call = some index → position ≠ some index)
    (hkept : ∀ index issued arrived, after.orders[index]? = some (issued, arrived) → arrived < 3 →
      position = some index ∨ ∃ call, call ≠ (user, id) ∧ slot call = some index) :
    Carries dates (Function.update accounts user next) after
      (Function.update slot (user, id) position) where
  calls call := by
    by_cases hself : call = (user, id)
    · subst hself
      rw [Function.update_self, Function.update_self, hrequests, Function.update_self]
      exact hcall
    · rw [requests_update hrequests hself, hreads call hself, hsaves call hself,
        Function.update_of_ne hself]
      exact (h.calls call).congr fun index hslot => horders call index hself hslot
  distinct call other index := by
    intro hslot hother
    by_cases hself : call = (user, id)
    · by_cases hsame : other = (user, id)
      · exact hself.trans hsame.symm
      · rw [hself, Function.update_self] at hslot
        rw [Function.update_of_ne hsame] at hother
        exact absurd hslot (hfresh other index hsame hother)
    · rw [Function.update_of_ne hself] at hslot
      by_cases hsame : other = (user, id)
      · rw [hsame, Function.update_self] at hother
        exact absurd hother (hfresh call index hself hslot)
      · rw [Function.update_of_ne hsame] at hother
        exact h.distinct call other index hslot hother
  kept index issued arrived := by
    intro horder hthree
    rcases hkept index issued arrived horder hthree with hposition | ⟨call, hself, hslot⟩
    · exact ⟨(user, id), by rw [Function.update_self, hposition]⟩
    · exact ⟨call, by rw [Function.update_of_ne hself, hslot]⟩
  issued := hissued

/-- One call changes that is no order. -/
theorem Carries.of_change_call (h : Carries dates accounts traffic slot)
    (hslot : slot (user, id) = none)
    (hrequests : next.requests = Function.update (accounts user).requests id request)
    (hissued : next.issued = (accounts user).issued)
    (hreads : ∀ call, call ≠ (user, id) → after.reads call = traffic.reads call)
    (hsaves : ∀ call, call ≠ (user, id) → after.saves call = traffic.saves call)
    (horders : after.orders = traffic.orders)
    (hcall : Carried dates traffic.orders user request (after.reads (user, id))
      (after.saves (user, id)) none) :
    Carries dates (Function.update accounts user next) after
      (Function.update slot (user, id) none) := by
  refine h.of_change none hrequests (fun name => ?_) hreads hsaves (fun _ _ _ _ => by rw [horders])
    (horders ▸ hcall) (fun _ _ _ _ => nofun) fun index issued arrived horder hthree => .inr ?_
  · rw [h.issued_update hissued, Traffic.contents, Traffic.contents, Traffic.placements,
      Traffic.placements, horders]
  · obtain ⟨call, hindex⟩ := h.kept index issued arrived (horders ▸ horder) hthree
    refine ⟨call, fun hself => ?_, hindex⟩
    rw [hself, hslot] at hindex
    cases hindex

/-! ## Steps of an account -/

/-- The traffic can do what the account did. -/
def Simulated (dates : DateLibrary Date) (accounts : String → AccountState)
    (traffic : Traffic Date) (user : String) (next : AccountState) : Prop :=
  ∃ events reached slot, run (Traffic.step dates) traffic events = some reached ∧
    reached.database = next.database ∧
    Carries dates (Function.update accounts user next) reached slot

theorem simulated_of_sameCalls (h : Carries dates accounts traffic slot)
    (hsame : ((accounts user).on traffic.database).SameCalls next) :
    Simulated dates accounts traffic user next :=
  ⟨[], traffic, slot, rfl, hsame.database.symm, h.of_sameCalls hsame⟩

theorem simulated_of_step {event : TrafficEvent Date}
    (hstep : traffic.step dates event = some after) (hdatabase : after.database = next.database)
    (hcarries : Carries dates (Function.update accounts user next) after slot) :
    Simulated dates accounts traffic user next :=
  ⟨[event], after, slot, run_cons_eq_some.mpr ⟨after, hstep, rfl⟩, hdatabase, hcarries⟩

/-- A `postBasket` is issued. -/
theorem simulated_posted (h : Carries dates accounts traffic slot) {basket : Basket}
    {entries : List (ProductInfo × Int64)} {isConnected : Bool} {write : Write}
    (hentries : basket.Enumerates entries)
    (hpost : postBasket ⟨some user⟩ isConnected entries = .ok write)
    (hfree : (accounts user).requests id = none) :
    Simulated dates accounts traffic user
      (((accounts user).on traffic.database).setRequest id (some (.writing [write]))) := by
  obtain ⟨hread, hsave, hslot⟩ := (h.calls (user, id)).of_silent (hfree ▸ .free)
  have hstep : traffic.step dates (.postBasket (user, id) user basket entries isConnected) =
      some { traffic with
        saves := Function.update traffic.saves (user, id) (some ⟨user, basket, write⟩) } := by
    rw [Traffic.step, if_pos ⟨by rw [hsave]; rfl, hentries⟩, hpost]
  refine simulated_of_step hstep rfl (h.of_change_call hslot rfl rfl (fun _ _ => rfl)
    (fun call hcall => Function.update_of_ne hcall _ _) rfl ?_)
  dsimp only
  rw [hread, Function.update_self]
  exact .saving

/-- The `getBasket` of an order is asked for, or refused. -/
theorem simulated_asked (h : Carries dates accounts traffic slot) {state : AccountState}
    (hstate : accounts user = state) {screen : Nat} {number : Int64} {confirmed : Basket}
    {restaurants : List Restaurant} {isConnected stillConnected : Bool}
    (hnumber : 1 ≤ number ∧ number < 100)
    (hread : (state.on traffic.database).read id
      (.order screen number confirmed restaurants)
      (makeOrderRequest ⟨some user⟩ isConnected stillConnected) = some next) :
    Simulated dates accounts traffic user next := by
  subst hstate
  cases hguards : makeOrderRequest ⟨some user⟩ isConnected stillConnected with
  | error error =>
      rw [hguards] at hread
      exact Option.some.inj hread ▸
        simulated_of_sameCalls h (AccountState.sameCalls_of_eq rfl rfl rfl)
  | ok path =>
      rw [hguards, AccountState.read, AccountState.start, AccountState.on_requests] at hread
      split at hread
      · rename_i hfree
        obtain rfl := Option.some.inj hread
        obtain ⟨hnone, hsave, hslot⟩ := (h.calls (user, id)).of_silent (hfree ▸ .free)
        have hstep : traffic.step dates (.makeOrder (user, id) user isConnected stillConnected) =
            some { traffic with
              reads := Function.update traffic.reads (user, id) (some (.waiting user)) } := by
          rw [Traffic.step, if_pos (by rw [hnone]; rfl), hguards]
        refine simulated_of_step hstep rfl (h.of_change_call hslot rfl rfl
          (fun call hcall => Function.update_of_ne hcall _ _) (fun _ _ => rfl) rfl ?_)
        dsimp only
        rw [hsave, Function.update_self]
        exact .asked hnumber
      · cases hread

/-- A read is answered. -/
theorem simulated_answered (h : Carries dates accounts traffic slot) {task : ReadTask}
    (hrequest : (accounts user).requests id = some (.waiting task)) :
    Simulated dates accounts traffic user
      (((accounts user).on traffic.database).setRequest id
        (some (.answered task (traffic.database.get (AccountState.path user task))))) := by
  have hcall := h.calls (user, id)
  dsimp only at hcall
  rw [hrequest] at hcall
  obtain ⟨hsave, hslot, hsilent | ⟨hread, screen, number, confirmed, restaurants, rfl, hnumber⟩⟩ :=
    hcall.of_waiting
  · exact simulated_of_sameCalls h (AccountState.sameCalls_setRequest
      (by rw [AccountState.on_requests, hrequest]; exact .waiting hsilent) (.answered hsilent))
  · have hstep : traffic.step dates (.answer (user, id)) = some { traffic with
        reads := Function.update traffic.reads (user, id)
          (some (.answered user (traffic.database.get (basketPath user)))) } := by
      rw [Traffic.step, hread]
    refine simulated_of_step hstep rfl (h.of_change_call hslot rfl rfl
      (fun call hother => Function.update_of_ne hother _ _) (fun _ _ => rfl) rfl ?_)
    dsimp only
    rw [hsave, Function.update_self]
    exact .answered hnumber

/-- A read is cancelled. -/
theorem simulated_cancelled (h : Carries dates accounts traffic slot) {task : ReadTask}
    (hrequest : (accounts user).requests id = some (.waiting task)) :
    Simulated dates accounts traffic user
      (((accounts user).on traffic.database).setRequest id none) := by
  have hcall := h.calls (user, id)
  dsimp only at hcall
  rw [hrequest] at hcall
  obtain ⟨hsave, hslot, hsilent | ⟨hread, -⟩⟩ := hcall.of_waiting
  · exact simulated_of_sameCalls h (AccountState.sameCalls_setRequest
      (by rw [AccountState.on_requests, hrequest]; exact .waiting hsilent) .free)
  · have hstep : traffic.step dates (.cancel (user, id)) = some { traffic with
        reads := Function.update traffic.reads (user, id) none } := by
      rw [Traffic.step, hread]
    refine simulated_of_step hstep rfl (h.of_change_call hslot rfl rfl
      (fun call hother => Function.update_of_ne hother _ _) (fun _ _ => rfl) rfl ?_)
    dsimp only
    rw [hsave, Function.update_self]
    exact .silent .free

/-- The orders of an account after it issued one more. -/
theorem Carries.issued_append (h : Carries dates accounts traffic slot) {issued : Placement Date}
    {confirmed : Basket} (huser : issued.user = user)
    (hissued : next.issued =
      (accounts user).issued ++ [⟨confirmed, issued.products, issued.writes dates⟩])
    (horders : after.orders = traffic.orders ++ [(issued, 0)]) (name : String) :
    (Function.update accounts user next name).issued.map IssuedOrder.content =
      after.contents dates name := by
  have hplacements : after.placements = traffic.placements ++ [issued] := by
    rw [Traffic.placements, horders, List.map_append]
    rfl
  rw [Traffic.contents, hplacements, List.filter_append, List.map_append, ← Traffic.contents,
    ← h.issued name]
  by_cases hname : name = user
  · have hown : [issued].filter (fun issued => issued.user = name) = [issued] := by
      simp [huser, hname]
    rw [hown, hname, Function.update_self, hissued, List.map_append]
    rfl
  · have hother : [issued].filter (fun issued => issued.user = name) = [] := by
      simp [huser, Ne.symm hname]
    rw [hother, Function.update_of_ne hname, List.map_nil, List.append_nil]

/-- The basket of an order is delivered, and its writes are issued. -/
theorem simulated_delivered (h : Carries dates accounts traffic slot) {screen : Nat}
    {number : Int64} {confirmed basket : Basket} {restaurants : List Restaurant} {value : Json}
    {entries : List (ProductInfo × Int64)} {now later : Date} {writes : List Write}
    (hrequest : (accounts user).requests id =
      some (.answered (.order screen number confirmed restaurants) value))
    (hbasket : getBasketResponse value = some basket) (hentries : basket.Enumerates entries)
    (hwrites : makeOrderResponse dates user number restaurants entries now later = some writes)
    (hrequests : next.requests =
      Function.update (accounts user).requests id (some (.writing writes)))
    (hissued : next.issued = (accounts user).issued ++ [⟨confirmed, entries, writes⟩])
    (hdatabase : next.database = traffic.database) :
    Simulated dates accounts traffic user next := by
  have hcall := h.calls (user, id)
  dsimp only at hcall
  rw [hrequest] at hcall
  obtain ⟨hread, hsave, hslot, hnumber⟩ := hcall.of_answered
  rw [← writes_of_placement, Option.map_eq_some_iff] at hwrites
  obtain ⟨issued, hplaced, rfl⟩ := hwrites
  obtain ⟨restaurant, readyDate, -, -, rfl⟩ := placement_eq_some hplaced
  have hstep : traffic.step dates (.deliver (user, id) number restaurants entries now later) =
      some { traffic with
        reads := Function.update traffic.reads (user, id) none
        orders := traffic.orders ++
          [(⟨user, entries, ⟨number, restaurant, later, readyDate⟩⟩, 0)] } := by
    simp only [Traffic.step, hread, hbasket, Option.bind_eq_bind, Option.bind_some, hplaced]
    exact if_pos ⟨hentries, hnumber⟩
  have hlength : ∀ call index, slot call = some index → index < traffic.orders.length := by
    intro call index hindex
    have hcarried := h.calls call
    rw [hindex] at hcarried
    exact hcarried.lt_length
  refine simulated_of_step hstep hdatabase.symm (h.of_change
    (some traffic.orders.length) hrequests (h.issued_append rfl hissued rfl)
    (fun call hother => Function.update_of_ne hother _ _) (fun _ _ => rfl)
    (fun call index _ hindex => List.getElem?_append_left (hlength call index hindex)) ?_
    (fun call index _ hindex hsame => ?_) fun index issued arrived horder hthree => ?_)
  · dsimp only
    rw [hsave, Function.update_self]
    exact .ordering List.getElem?_concat_length rfl
  · exact absurd (hlength call index hindex) (by rw [Option.some.inj hsame]; exact lt_irrefl _)
  · rcases Nat.lt_or_ge index traffic.orders.length with hold | hnew
    · rw [List.getElem?_append_left hold] at horder
      obtain ⟨call, hindex⟩ := h.kept index issued arrived horder hthree
      refine .inr ⟨call, fun hself => ?_, hindex⟩
      rw [hself, hslot] at hindex
      cases hindex
    · have hlast := (List.getElem?_eq_some_iff.mp horder).1
      rw [List.length_append, List.length_singleton] at hlast
      exact .inl (congrArg some (by omega))

/-- A write arrives. -/
theorem simulated_written (h : Carries dates accounts traffic slot) {first : Write}
    {rest : List Write} (hrequest : (accounts user).requests id = some (.writing (first :: rest)))
    (hrequests : next.requests = Function.update (accounts user).requests id
      (if rest = [] then none else some (.writing rest)))
    (hissued : next.issued = (accounts user).issued)
    (hdatabase : next.database = first.apply traffic.database) :
    Simulated dates accounts traffic user next := by
  have hcall := h.calls (user, id)
  dsimp only at hcall
  rw [hrequest] at hcall
  obtain ⟨hread, ⟨rfl, hslot, basket, hsave⟩ |
    ⟨hsave, index, arrived, issued, hslot, horder, hrest⟩⟩ := hcall.of_writing
  · have hstep : traffic.step dates (.saveArrives (user, id)) = some { traffic with
        saves := Function.update traffic.saves (user, id) none
        database := first.apply traffic.database } := by
      rw [Traffic.step, hsave]
    refine simulated_of_step hstep hdatabase.symm (h.of_change_call hslot hrequests hissued
      (fun _ _ => rfl) (fun call hother => Function.update_of_ne hother _ _) rfl ?_)
    dsimp only
    rw [hread, Function.update_self, if_pos rfl]
    exact .silent .free
  · have hwrite : (issued.writes dates)[arrived]? = some first := by
      rw [← List.head?_drop, hrest, List.head?_cons]
    have hdrop : (issued.writes dates).drop (arrived + 1) = rest := by
      rw [← List.tail_drop, hrest, List.tail_cons]
    have hindex := (List.getElem?_eq_some_iff.mp horder).1
    have hstep : traffic.step dates (.orderArrives index) = some { traffic with
        orders := traffic.orders.set index (issued, arrived + 1)
        database := first.apply traffic.database } := by
      simp only [Traffic.step, horder, Option.bind_eq_bind, Option.bind_some, hwrite]
      rfl
    have hothers : ∀ call other, call ≠ (user, id) → slot call = some other → index ≠ other :=
      fun call other hother hposition hsame =>
        hother (h.distinct call (user, id) other hposition (hslot.trans (congrArg some hsame)))
    refine simulated_of_step hstep hdatabase.symm (h.of_change
      (if rest = [] then none else some index) hrequests (fun name => ?_) (fun _ _ => rfl)
      (fun _ _ => rfl) (fun call other hother hposition =>
        List.getElem?_set_ne (hothers call other hother hposition)) ?_
      (fun call other hother hposition hsame => ?_) fun other later count hlater hthree => ?_)
    · rw [h.issued_update hissued, Traffic.contents, Traffic.contents,
        Traffic.placements_arrives hstep]
    · dsimp only
      rw [hread, hsave]
      cases hempty : rest with
      | nil => exact .silent .free
      | cons second others =>
          exact .ordering (List.getElem?_set_self hindex) (hdrop.trans hempty)
    · split at hsame
      · cases hsame
      · exact hothers call other hother hposition (Option.some.inj hsame)
    · by_cases hself : index = other
      · subst hself
        rw [List.getElem?_set_self hindex] at hlater
        obtain ⟨rfl, rfl⟩ := Prod.mk.inj (Option.some.inj hlater)
        left
        refine if_neg fun hempty => ?_
        have hlength := congrArg List.length (hdrop.trans hempty)
        rw [List.length_drop, Traffic.length_writes, List.length_nil] at hlength
        omega
      · rw [List.getElem?_set_ne hself] at hlater
        obtain ⟨call, hposition⟩ := h.kept other later count hlater hthree
        refine .inr ⟨call, fun hcall => hself ?_, hposition⟩
        rw [hcall, hslot] at hposition
        exact Option.some.inj hposition

/-- Silent requests may change first. -/
theorem Simulated.of_middle {middle : AccountState}
    (h : Simulated dates (Function.update accounts user middle) traffic user next) :
    Simulated dates accounts traffic user next := by
  obtain ⟨events, reached, slot, hrun, hdatabase, hcarries⟩ := h
  rw [Function.update_idem] at hcarries
  exact ⟨events, reached, slot, hrun, hdatabase, hcarries⟩

/-- The number of an order is drawn from `1..<100`. -/
theorem AccountState.number_of_restaurantsDelivered {state : AccountState} {nextId : Nat}
    {number : Int64} {isConnected stillConnected : Bool}
    (hstep : state.step dates user
      (.restaurantsDelivered id nextId number isConnected stillConnected) = some next) :
    1 ≤ number ∧ number < 100 := by
  simp only [step] at hstep
  split at hstep
  · obtain ⟨restaurants, -, hguard⟩ := Option.bind_eq_some_iff.mp hstep
    exact (Option.ite_none_right_eq_some.mp hguard).1
  · cases hstep

/-- Every step of an account is a run of the traffic. -/
theorem simulated_of_accountStep (h : Carries dates accounts traffic slot)
    {event : AccountEvent Date}
    (hstep : ((accounts user).on traffic.database).step dates user event = some next) :
    Simulated dates accounts traffic user next := by
  -- a delivery to a screen frees its request
  have hfreed : ∀ {id task value}, ¬ ReadTask.IsOrder task →
      (accounts user).requests id = some (.answered task value) →
      ((accounts user).on traffic.database).SameCalls
        (((accounts user).on traffic.database).setRequest id none) :=
    fun htask hrequest => AccountState.sameCalls_setRequest
      (by rw [AccountState.on_requests, hrequest]; exact .answered htask) .free
  cases AccountState.transition_of_step hstep with
  | menuOpened hnew => exact simulated_of_sameCalls h (AccountState.sameCalls_of_eq rfl rfl rfl)
  | menuAppeared hbasket hproducts =>
      exact simulated_of_sameCalls h
        ((AccountState.sameCalls_read id hbasket).trans (AccountState.sameCalls_read id hproducts))
  | menuTapped htap hmenu hchanged =>
      exact simulated_of_sameCalls h (AccountState.sameCalls_of_eq rfl rfl rfl)
  | posted hmenu hentries hpost hfree => exact simulated_posted h hentries hpost hfree
  | notPosted => exact simulated_of_sameCalls h (AccountState.sameCalls_of_eq rfl rfl rfl)
  | screenAsked hread => exact simulated_of_sameCalls h (AccountState.sameCalls_read id hread)
  | orderPressed hcan hread =>
      exact simulated_of_sameCalls h (AccountState.sameCalls_read id hread)
  | okPressed => exact simulated_of_sameCalls h (AccountState.sameCalls_of_eq rfl rfl rfl)
  | answered hrequest => exact simulated_answered h hrequest
  | cancelled hrequest => exact simulated_cancelled h hrequest
  | menuBasketDelivered hrequest hbasket hmenu hchanged =>
      exact simulated_of_sameCalls h
        ((hfreed id hrequest).trans (AccountState.sameCalls_of_eq rfl rfl rfl))
  | menuProductsDelivered hrequest hmenu hproducts hchanged =>
      exact simulated_of_sameCalls h
        ((hfreed id hrequest).trans (AccountState.sameCalls_of_eq rfl rfl rfl))
  | screenBasketDelivered hrequest hbasket =>
      exact simulated_of_sameCalls h
        ((hfreed id hrequest).trans (AccountState.sameCalls_of_eq rfl rfl rfl))
  | restaurantsDelivered hrequest hread =>
      have hsame := hfreed id hrequest
      exact Simulated.of_middle (simulated_asked (h.of_sameCalls hsame) (Function.update_self ..)
        (AccountState.number_of_restaurantsDelivered hstep) hread)
  | orderDelivered hrequest hbasket hentries hwrites =>
      exact simulated_delivered h hrequest hbasket hentries hwrites rfl rfl rfl
  | written hrequest => exact simulated_written h hrequest rfl rfl rfl

end Carries

end QFree
