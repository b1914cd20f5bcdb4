/-
  Menu/Visit.lean --- one visit to a menu, from `viewWillAppear` to
  `viewWillDisappear`.

  The controller asks for the stored basket and for its products, handles the
  responses and the taps in whatever order they come, and writes its copy of the
  basket back when it is left.  Nobody else writes the stored basket meanwhile.

  The log of a visit has the accepted actions and the arrival of the basket, in
  order.  `replay` is what the log makes of the controller's copy, `intended`
  what the actions alone make of the stored basket.  `visit_replay` says that
  the copy is the replayed one in every run; the visit loses and invents nothing
  when the two agree, which `InOrder` ensures.
-/
import QFree.Foundation.Run
import QFree.Menu.Controller
import QFree.Networking.BasketRoundTrip

set_option autoImplicit false

namespace QFree

open QFree.Foundation QFree.FirebaseHandler

/-! ## Actions -/

/-- What a user does to a basket. -/
inductive Action where
  | add (product : ProductInfo)
  | minus (product : ProductInfo)
  | clear
  deriving DecidableEq

/-- The basket after an action.  An amount at the limit of `Int` stays. -/
def Action.apply (basket : Basket) : Action → Basket
  | .add product =>
      match addTrapping ((basket.lookup product).getD 0) 1 with
      | some amount => basket.insert product amount
      | none => basket
  | .minus product =>
      match basket.lookup product with
      | none => basket
      | some amount =>
          if amount = 0 then basket
          else
            match subTrapping amount 1 with
            | some less => basket.insert product less
            | none => basket
  | .clear => ∅

/-- An entry of the log of a visit. -/
inductive LogEntry where
  | action (action : Action)
  | loaded
  deriving DecidableEq

/-- The copy of the basket after a log entry. -/
def replayEntry (stored : Basket) (basket : Basket) : LogEntry → Basket
  | .action action => action.apply basket
  | .loaded => stored

/-- The copy of the basket after a log, from the copy kept at the start. -/
def replay (stored kept : Basket) (log : List LogEntry) : Basket :=
  log.foldl (replayEntry stored) kept

/-- The basket the actions of a log make of the stored one. -/
def intended (stored : Basket) (log : List LogEntry) : Basket :=
  log.foldl (fun basket entry =>
    match entry with
    | .action action => action.apply basket
    | .loaded => basket) stored

/-! ## The visit -/

/-- A visit in progress. -/
structure Visit where
  database : Json
  menu : MenuController
  basketPending : Bool
  productsPending : Bool
  log : List LogEntry

/-- What can happen during a visit. -/
inductive VisitEvent where
  | basketArrives
  | basketFails
  | productsArrive
  | productsFail
  | add (row : Nat) (keys : List ProductInfo)
  | minus (row : Nat)
  | clear
  | cancel

namespace Visit

/-- `viewWillAppear`: two requests, each refused at once without a connection. -/
def viewWillAppear (database : Json) (menu : MenuController)
    (isConnected stillConnected : Bool) : Visit where
  database := database
  menu := menu
  basketPending := isConnected
  productsPending := stillConnected
  log := []

/-- What the event is to the controller. -/
def menuEvent (user : String) (visit : Visit) : VisitEvent → Option MenuEvent
  | .basketArrives =>
      if visit.basketPending then
        (getBasketResponse (visit.database.get (basketPath user))).map fun basket =>
          .basketResult (.ok basket)
      else none
  | .basketFails =>
      if visit.basketPending then some (.basketResult (.error .invalidResponse)) else none
  | .productsArrive =>
      if visit.productsPending then
        (getProductsByIDRestaurantResponse visit.menu.restaurantID
          (visit.database.get ["Products"])).map fun products => .productsResult (.ok products)
      else none
  | .productsFail =>
      if visit.productsPending then some (.productsResult (.error .invalidResponse)) else none
  | .add row keys => some (.add row keys)
  | .minus row => some (.minus row)
  | .clear => some .clear
  | .cancel => some .cancel

/-- What the controller's handling of the event adds to the log: an add that is
not refused, a minus that takes something away, a clear, or the arrival. -/
def logged (menu : MenuController) : MenuEvent → List LogEntry
  | .basketResult (.ok _) => [.loaded]
  | .add row keys =>
      if menu.checkRestaurantId keys then
        (menu.products[row]?).toList.map fun product => .action (.add product)
      else []
  | .minus row =>
      ((menu.products[row]?).toList.filter fun product =>
        menu.basket.lookup product ≠ some 0).map fun product => .action (.minus product)
  | .clear => [.action .clear]
  | _ => []

/-- One event of the visit. -/
def step (user : String) (visit : Visit) (event : VisitEvent) : Option Visit := do
  let delivered ← visit.menuEvent user event
  let menu ← visit.menu.handle delivered
  return {
    database := visit.database
    menu := menu
    basketPending :=
      match event with
      | .basketArrives | .basketFails => false
      | _ => visit.basketPending
    productsPending :=
      match event with
      | .productsArrive | .productsFail => false
      | _ => visit.productsPending
    log := visit.log ++ logged visit.menu delivered
  }

/-! ## The copy is the replayed one -/

/-- A handled event changes the copy as its log entries say. -/
theorem handle_replay {menu next : MenuController} {delivered : MenuEvent} {stored : Basket}
    (hstored : ∀ basket, delivered = .basketResult (.ok basket) → basket = stored)
    (h : menu.handle delivered = some next) :
    next.basket = replay stored menu.basket (logged menu delivered) := by
  cases MenuController.outcome_of_handle h with
  | basketLoaded basket => exact hstored basket rfl
  | basketFailed | productsLoaded | productsFailed | cancelled => rfl
  | added hkeys hcheck hproduct hamount =>
      simp [logged, hcheck, hproduct, replay, replayEntry, Action.apply, hamount]
  | asked hkeys hcheck => simp [logged, hcheck, replay]
  | lessened hproduct hamount hne hless =>
      simp [logged, hproduct, hamount, hne, replay, replayEntry, Action.apply, hless]
  | noneLeft hproduct hamount => simp [logged, hproduct, hamount, replay]
  | cleared halert => rfl

theorem step_eq_some {user : String} {visit next : Visit} {event : VisitEvent}
    (h : visit.step user event = some next) :
    ∃ delivered, visit.menuEvent user event = some delivered ∧
      visit.menu.handle delivered = some next.menu ∧ next.database = visit.database ∧
      next.log = visit.log ++ logged visit.menu delivered := by
  unfold step at h
  simp only [Option.bind_eq_bind, Option.bind_eq_some_iff, Option.pure_def,
    Option.some.injEq] at h
  obtain ⟨delivered, hdelivered, menu, hmenu, rfl⟩ := h
  exact ⟨delivered, hdelivered, hmenu, rfl, rfl⟩

/-- A basket that is delivered is the one the server read. -/
theorem read_of_menuEvent {user : String} {visit : Visit} {event : VisitEvent} {basket : Basket}
    (h : visit.menuEvent user event = some (.basketResult (.ok basket))) :
    event = .basketArrives ∧ visit.basketPending = true ∧
      getBasketResponse (visit.database.get (basketPath user)) = some basket := by
  cases event <;> simp_all [menuEvent]

/-- In every state of a visit the database is the one it began with, and the copy
is the replayed one. -/
theorem visit_replay {user : String} {database : Json} {menu : MenuController}
    {isConnected stillConnected : Bool} {stored : Basket}
    (hstored : StoresBasket database user stored) {events : List VisitEvent} {visit : Visit}
    (hrun : run (step user) (viewWillAppear database menu isConnected stillConnected) events =
      some visit) :
    visit.database = database ∧ visit.menu.basket = replay stored menu.basket visit.log := by
  refine run_invariant
    (fun visit : Visit =>
      visit.database = database ∧ visit.menu.basket = replay stored menu.basket visit.log)
    ?_ ⟨rfl, rfl⟩ hrun
  rintro visit event next ⟨hdatabase, hreplay⟩ hstep
  obtain ⟨delivered, hdelivered, hmenu, hsame, hlog⟩ := step_eq_some hstep
  refine ⟨hsame.trans hdatabase, ?_⟩
  have hread : ∀ basket, delivered = .basketResult (.ok basket) → basket = stored := by
    rintro basket rfl
    exact eq_of_holdsBasket hstored (hdatabase ▸ (read_of_menuEvent hdelivered).2.2)
  rw [handle_replay hread hmenu, hreplay, hlog, replay, replay, replay, List.foldl_append]

/-! ## The basket arrives at most once -/

/-- The arrivals in the log and the outstanding response are at most one. -/
def ArrivesOnce (visit : Visit) : Prop :=
  visit.log.count .loaded + visit.basketPending.toNat ≤ 1

theorem count_logged (menu : MenuController) {delivered : MenuEvent}
    (h : ∀ basket, delivered ≠ .basketResult (.ok basket)) :
    (logged menu delivered).count .loaded = 0 := by
  rw [List.count_eq_zero]
  cases delivered with
  | basketResult result =>
      cases result with
      | ok basket => exact absurd rfl (h basket)
      | error error => exact List.not_mem_nil
  | add row keys =>
      simp only [logged]
      split <;> simp
  | minus row => simp [logged]
  | _ => simp [logged]

theorem arrivesOnce_step {user : String} {visit next : Visit} {event : VisitEvent}
    (hinv : visit.ArrivesOnce) (h : visit.step user event = some next) : next.ArrivesOnce := by
  obtain ⟨delivered, hdelivered, -, -, hlog⟩ := step_eq_some h
  have hpending : next.basketPending = true → visit.basketPending = true ∧
      event ≠ .basketArrives := by
    unfold step at h
    simp only [Option.bind_eq_bind, Option.bind_eq_some_iff, Option.pure_def,
      Option.some.injEq] at h
    obtain ⟨-, -, -, -, rfl⟩ := h
    cases event <;> simp
  unfold ArrivesOnce at hinv ⊢
  rw [hlog, List.count_append]
  by_cases harrives : ∃ basket, delivered = .basketResult (.ok basket)
  · obtain ⟨basket, rfl⟩ := harrives
    obtain ⟨rfl, hwas, -⟩ := read_of_menuEvent hdelivered
    have hnone : next.basketPending = false := by
      by_contra hne
      exact (hpending (Bool.not_eq_false _ ▸ hne)).2 rfl
    rw [hwas] at hinv
    simp only [Bool.toNat_true] at hinv
    simp only [logged, hnone, Bool.toNat_false, List.count_singleton_self]
    omega
  · rw [count_logged visit.menu fun basket heq => harrives ⟨basket, heq⟩]
    cases hnext : next.basketPending with
    | false => simp only [Bool.toNat_false]; omega
    | true =>
        rw [(hpending hnext).1] at hinv
        simp only [Bool.toNat_true] at hinv ⊢
        omega

/-! ## Visits in order -/

/-- Nothing was accepted before the basket arrived, or a clear was accepted and
the basket did not arrive after it, or the basket never arrived and the copy kept
was the stored basket already. -/
inductive InOrder (stored kept : Basket) : List LogEntry → Prop where
  | loadedFirst (rest : List LogEntry) : InOrder stored kept (.loaded :: rest)
  | clearedLast (front rest : List LogEntry) (hrest : .loaded ∉ rest) :
      InOrder stored kept (front ++ .action .clear :: rest)
  | neverLoaded (log : List LogEntry) (hlog : .loaded ∉ log) (hkept : kept = stored) :
      InOrder stored kept log

/-- Without an arrival the log is its actions. -/
theorem replay_eq_intended_of_not_mem (stored : Basket) {log : List LogEntry}
    (h : .loaded ∉ log) : ∀ basket, replay stored basket log = intended basket log := by
  induction log with
  | nil => exact fun basket => rfl
  | cons entry rest ih =>
      intro basket
      have hrest := ih fun hmem => h (List.mem_cons_of_mem entry hmem)
      cases entry with
      | action action => exact hrest (action.apply basket)
      | loaded => exact absurd List.mem_cons_self h

/-- In order, the copy is the intended basket. -/
theorem replay_eq_intended {stored kept : Basket} {log : List LogEntry}
    (honce : log.count .loaded ≤ 1) (h : InOrder stored kept log) :
    replay stored kept log = intended stored log := by
  cases h with
  | loadedFirst rest =>
      rw [List.count_cons_self] at honce
      have hrest : .loaded ∉ rest := List.count_eq_zero.mp (by omega)
      exact replay_eq_intended_of_not_mem stored hrest stored
  | clearedLast front rest hrest =>
      have hreplay := replay_eq_intended_of_not_mem stored hrest ∅
      unfold replay intended at hreplay ⊢
      rw [List.foldl_append, List.foldl_append, List.foldl_cons, List.foldl_cons]
      exact hreplay
  | neverLoaded log hlog hkept =>
      rw [hkept]
      exact replay_eq_intended_of_not_mem stored hlog stored

/-- After every visit that is in order the stored basket is the one that was
stored before with exactly the accepted actions applied. -/
theorem visit_stores_intended {user : String} {database : Json} {menu : MenuController}
    {isConnected stillConnected : Bool} {stored : Basket}
    (hstored : StoresBasket database user stored) {events : List VisitEvent} {visit : Visit}
    (hrun : run (step user) (viewWillAppear database menu isConnected stillConnected) events =
      some visit)
    (horder : InOrder stored menu.basket visit.log) {entries : List (ProductInfo × Int64)}
    (hentries : visit.menu.basket.Enumerates entries) :
    ∃ write, postBasket ⟨some user⟩ true entries = .ok write ∧
      StoresBasket (write.apply visit.database) user (intended stored visit.log) := by
  have honce : visit.ArrivesOnce :=
    run_invariant ArrivesOnce (fun _ _ _ hinv hstep => arrivesOnce_step hinv hstep)
      (by cases isConnected <;> simp [ArrivesOnce, viewWillAppear]) hrun
  have hcopy := (visit_replay hstored hrun).2
  rw [replay_eq_intended (le_trans (Nat.le_add_right _ _) honce) horder] at hcopy
  have hpost : postBasket ⟨some user⟩ true entries =
      .ok ⟨basketPath user, encodeItems entries⟩ := rfl
  exact ⟨_, hpost, storesBasket_of_postBasket (hcopy ▸ hentries) hpost⟩

/-- A latte that is in the sample basket. -/
def sampleProduct : ProductInfo := ⟨"Latte", 199, "l.png", [.coffee], "0"⟩

/-- The menu with its product loaded in an earlier visit. -/
def sampleMenu (basket : Basket) : MenuController := ⟨"0", [sampleProduct], basket, false⟩

/-- The basket arrives, then the latte is added. -/
theorem visit_stores_intended_sample :
    ∃ visit, run (step "user@mail") (viewWillAppear sampleDatabase (sampleMenu ∅) true true)
        [.basketArrives, .add 0 (sampleBasket.map Prod.fst)] = some visit ∧
      ∃ entries, visit.menu.basket.Enumerates entries ∧
        ∃ write, postBasket ⟨some "user@mail"⟩ true entries = .ok write ∧
          StoresBasket (write.apply visit.database) "user@mail"
            (intended (Dictionary.ofEntries sampleBasket) visit.log) := by
  have hread : getBasketResponse (sampleDatabase.get (basketPath "user@mail")) =
      some (Dictionary.ofEntries sampleBasket) :=
    (congrArg getBasketResponse (Json.get_set_same _ _ _)).trans
      (getBasketResponse_categorized sampleBasket_enumerated sampleBasket_categorized)
  have hadd : (sampleMenu (Dictionary.ofEntries sampleBasket)).handle
      (.add 0 (sampleBasket.map Prod.fst)) =
        some (sampleMenu ((Dictionary.ofEntries sampleBasket).insert sampleProduct 3)) := by decide
  have hrun : run (step "user@mail") (viewWillAppear sampleDatabase (sampleMenu ∅) true true)
      [.basketArrives, .add 0 (sampleBasket.map Prod.fst)] =
        some ⟨sampleDatabase,
          sampleMenu ((Dictionary.ofEntries sampleBasket).insert sampleProduct 3), false, true,
          [.loaded, .action (.add sampleProduct)]⟩ := by
    have harrival : step "user@mail" (viewWillAppear sampleDatabase (sampleMenu ∅) true true)
        .basketArrives = some ⟨sampleDatabase, sampleMenu (Dictionary.ofEntries sampleBasket),
          false, true, [.loaded]⟩ := by
      simp [step, menuEvent, viewWillAppear, hread, MenuController.handle,
        MenuController.basketCompletion, logged, sampleMenu]
    rw [run_cons, harrival, Option.bind_some, run_cons]
    unfold step
    simp only [menuEvent, hadd, Option.bind_eq_bind, Option.bind_some]
    rfl
  refine ⟨_, hrun, (Dictionary.exists_enumerates _).imp fun entries hentries => ⟨hentries, ?_⟩⟩
  exact visit_stores_intended sampleDatabase_stores hrun (.loadedFirst _) hentries

/-- A new controller that is left before the basket arrives stores its empty copy. -/
theorem visit_erases_basket :
    ∃ visit, run (step "user@mail") (viewWillAppear sampleDatabase (.opened "0") true true) [] =
        some visit ∧
      visit.menu.basket.Enumerates [] ∧
      ∃ write, postBasket ⟨some "user@mail"⟩ true [] = .ok write ∧
        ¬ StoresBasket (write.apply visit.database) "user@mail"
          (intended (Dictionary.ofEntries sampleBasket) visit.log) := by
  refine ⟨_, rfl, Dictionary.Enumerates.empty_iff.mpr rfl, _, rfl, fun hstored => ?_⟩
  have hempty : StoresBasket (Write.apply sampleDatabase ⟨basketPath "user@mail", encodeItems []⟩)
      "user@mail" ∅ :=
    ⟨[], Dictionary.Enumerates.empty_iff.mpr rfl, Json.get_set_same _ (basketPath "user@mail") _⟩
  have hequal := storesBasket_unique hempty Basket.categorized_empty hstored
  revert hequal
  decide

end Visit

end QFree
