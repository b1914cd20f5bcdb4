/-
  Server/Program.lean --- both apps over one server.

  The state is the database, every account with its menus and Basket screens, and the
  order screens of both apps.  An event is an event of the screens of one account, or
  one of the order screens; between any two of them there may be events of others.

  Orders are issued from Basket screens only, and a screen that shows orders knows
  nothing of where they come from: every run of the program is a run of the order
  screens over the traffic, with the same database and the same screens
  (`program_refines_apps`).  So everything that holds of those runs holds of the
  program.
-/
import QFree.Server.Calls
import QFree.Server.Provenance

set_option autoImplicit false

namespace QFree

open QFree.Foundation QFree.FirebaseHandler

/-! ## Order screens over another traffic -/

namespace Apps

section WithTraffic

variable {Date : Type} {dates : DateLibrary Date}

/-- The screens over another traffic. -/
def withTraffic (state : Apps Date) (traffic : Traffic Date) : Apps Date :=
  { state with traffic := traffic }

/-- Of the traffic, an event of a screen sees the database only. -/
theorem step_withTraffic {state : Apps Date} {traffic : Traffic Date} {event : AppsEvent Date}
    (hscreen : event.traffics = []) (hdatabase : traffic.database = state.traffic.database) :
    (state.withTraffic traffic).step dates event =
      (state.step dates event).map fun next => next.withTraffic traffic := by
  cases event with
  | traffic event => cases hscreen
  | viewWillAppear tab fetch isConnected =>
      cases htab : state.tabs tab with
      | none =>
          simp only [step, withTraffic, htab]
          rfl
      | some screen =>
          cases hrequest : getOrdersRequest ⟨some screen.user⟩ isConnected <;>
            simp [step, withTraffic, htab, hrequest, apply_ite (Option.map _)]
  | answer fetch =>
      cases hfetch : state.fetches fetch with
      | none => simp only [step, withTraffic, hfetch, Option.map_none]
      | some asked =>
          cases asked with
          | waiting task =>
              cases task <;> simp [step, withTraffic, path, hfetch, hdatabase, Option.map_bind]
          | answered task value => simp only [step, withTraffic, hfetch, Option.map_none]
  | ordersDelivered fetch | allOrdersDelivered fetch orders =>
      simp only [step, withTraffic]
      split <;> simp [Option.map_bind, apply_ite (Option.map _)]
  | viewDidLoad tab user | didSelectItemAt split fetch restaurantName =>
      simp only [step, withTraffic, apply_ite (Option.map _), Option.map_some, Option.map_none]
      rfl
  | _ =>
      simp only [step, withTraffic, Option.bind_eq_bind, Option.map_bind, Function.comp_def,
        apply_ite (Option.map _), Option.map_some, Option.map_none, Option.pure_def]

/-- A run of the traffic is a run of the apps in which no screen moves. -/
theorem run_withTraffic {events : List (TrafficEvent Date)} {reached : Traffic Date}
    {state : Apps Date} (hrun : run (Traffic.step dates) state.traffic events = some reached) :
    run (step dates) state (events.map .traffic) = some (state.withTraffic reached) := by
  induction events generalizing state with
  | nil =>
      obtain rfl := Option.some.inj hrun
      rfl
  | cons event rest ih =>
      obtain ⟨next, hstep, hrest⟩ := run_cons_eq_some.mp hrun
      have hscreens : step dates state (.traffic event) = some (state.withTraffic next) := by
        rw [step, hstep]
        rfl
      have hreached : run (step dates) (state.withTraffic next) (rest.map .traffic) =
          some (state.withTraffic reached) :=
        ih (show run _ (state.withTraffic next).traffic rest = _ from hrest)
      exact run_cons_eq_some.mpr ⟨state.withTraffic next, hscreens, hreached⟩

end WithTraffic

end Apps

/-! ## State -/

/-- The database, the accounts and the order screens. -/
structure Program where
  database : Json
  accounts : String → AccountState
  tabs : Nat → Option OrdersTab
  splits : Nat → Option SplitScreen
  fetches : Nat → Option OrdersFetch

/-- What can happen: something on the screens of an account, or on the order screens. -/
inductive ProgramEvent (Date : Type) where
  | account (user : String) (event : AccountEvent Date)
  | orders (event : AppsEvent Date)

namespace Program

/-- No screen is open. -/
def launched (database : Json) : Program where
  database := database
  accounts := fun _ => .initial database
  tabs := fun _ => none
  splits := fun _ => none
  fetches := fun _ => none

section Step

variable {Date : Type} (dates : DateLibrary Date)

/-- The order screens, over the database. -/
def orderScreens (state : Program) : Apps Date where
  traffic := .quiet state.database
  tabs := state.tabs
  splits := state.splits
  fetches := state.fetches

/-- One event. -/
def step (state : Program) : ProgramEvent Date → Option Program
  | .account user event => do
      let next ← ((state.accounts user).on state.database).step dates user event
      return { state with
        database := next.database
        accounts := Function.update state.accounts user next }
  | .orders event =>
      if event.traffics.isEmpty then do
        let next ← state.orderScreens.step dates event
        return { state with tabs := next.tabs, splits := next.splits, fetches := next.fetches }
      else none

/-! ## The apps behind the program -/

/-- The apps have the database and the screens of the program, and its calls on their way. -/
structure RunsAs (state : Program) (apps : Apps Date) : Prop where
  database : apps.traffic.database = state.database
  tabs : apps.tabs = state.tabs
  splits : apps.splits = state.splits
  fetches : apps.fetches = state.fetches
  carries : ∃ slot, Carries dates state.accounts apps.traffic slot

theorem runsAs_launched (database : Json) :
    (launched database).RunsAs dates (Apps.launched database) where
  database := rfl
  tabs := rfl
  splits := rfl
  fetches := rfl
  carries := ⟨fun _ => none,
    { calls := fun _ => .silent .free
      distinct := nofun
      kept := nofun
      issued := fun _ => rfl }⟩

variable {dates}

/-- Every step of the program is a run of the apps. -/
theorem runsAs_step {state next : Program} {event : ProgramEvent Date} {apps : Apps Date}
    (h : state.RunsAs dates apps) (hstep : state.step dates event = some next) :
    ∃ events reached, run (Apps.step dates) apps events = some reached ∧
      next.RunsAs dates reached := by
  cases event with
  | account user event =>
      obtain ⟨account, haccount, hnext⟩ := Option.bind_eq_some_iff.mp hstep
      obtain rfl := Option.some.inj hnext
      obtain ⟨slot, hcarries⟩ := h.carries
      rw [← h.database] at haccount
      obtain ⟨events, traffic, after, hrun, hdatabase, hafter⟩ :=
        simulated_of_accountStep hcarries haccount
      exact ⟨events.map .traffic, apps.withTraffic traffic, Apps.run_withTraffic hrun,
        ⟨hdatabase, h.tabs, h.splits, h.fetches, after, hafter⟩⟩
  | orders event =>
      obtain ⟨hscreen, hmoved⟩ := Option.ite_none_right_eq_some.mp hstep
      obtain ⟨moved, horders, hnext⟩ := Option.bind_eq_some_iff.mp hmoved
      obtain rfl := Option.some.inj hnext
      have happs : apps = state.orderScreens.withTraffic apps.traffic := by
        cases apps
        cases h.tabs
        cases h.splits
        cases h.fetches
        rfl
      have hscreens : (state.orderScreens.withTraffic apps.traffic).step dates event =
          (state.orderScreens.step dates event).map fun next => next.withTraffic apps.traffic :=
        Apps.step_withTraffic (List.isEmpty_iff.mp hscreen) h.database
      rw [horders, ← happs] at hscreens
      exact ⟨[event], moved.withTraffic apps.traffic, run_cons_eq_some.mpr ⟨_, hscreens, rfl⟩,
        ⟨h.database, rfl, rfl, rfl, h.carries⟩⟩

theorem runsAs_run {database : Json} {events : List (ProgramEvent Date)} {final : Program}
    (hrun : run (step dates) (launched database) events = some final) :
    ∃ matching apps, run (Apps.step dates) (.launched database) matching = some apps ∧
      final.RunsAs dates apps :=
  exists_run_of_simulation (RunsAs dates) (fun _ _ _ _ h hstep => runsAs_step h hstep)
    (runsAs_launched dates database) hrun

/-- Every run of the program is a run of the order screens over the traffic, with the same
database and screens, in which every account issues the orders that it issues on its Basket
screens, in the same order. -/
theorem program_refines_apps {database : Json} {events : List (ProgramEvent Date)}
    {final : Program} (hrun : run (step dates) (launched database) events = some final) :
    ∃ matching apps, run (Apps.step dates) (.launched database) matching = some apps ∧
      apps.traffic.database = final.database ∧ apps.tabs = final.tabs ∧
      apps.splits = final.splits ∧ apps.fetches = final.fetches ∧
      ∀ user, (final.accounts user).issued.map IssuedOrder.content =
        apps.traffic.contents dates user := by
  obtain ⟨matching, apps, happs, hruns⟩ := runsAs_run hrun
  obtain ⟨slot, hcarries⟩ := hruns.carries
  exact ⟨matching, apps, happs, hruns.database, hruns.tabs, hruns.splits, hruns.fetches,
    hcarries.issued⟩

end Step

/-- An account of which no screen is used stays as it was. -/
theorem accounts_of_unused {Date : Type} {dates : DateLibrary Date} {database : Json}
    {events : List (ProgramEvent Date)} {final : Program} {user : String}
    (hrun : run (step dates) (launched database) events = some final)
    (hunused : ∀ name event, .account name event ∈ events → name ≠ user) :
    final.accounts user = .initial database := by
  refine run_invariant_of_along (fun _ event => event ∈ events)
    (fun state => state.accounts user = .initial database)
    (fun state event next h hmem hstep => ?_) rfl
    (along_of_forall_mem (launched database) fun _ hevent => hevent) hrun
  cases event with
  | account name event =>
      obtain ⟨account, -, hnext⟩ := Option.bind_eq_some_iff.mp hstep
      obtain rfl := Option.some.inj hnext
      exact (Function.update_of_ne (hunused name event hmem).symm _ _).trans h
  | orders event =>
      obtain ⟨-, hmoved⟩ := Option.ite_none_right_eq_some.mp hstep
      obtain ⟨moved, -, hnext⟩ := Option.bind_eq_some_iff.mp hmoved
      obtain rfl := Option.some.inj hnext
      exact h

/-- So is every request of an account that no event is about. -/
theorem requests_of_unused {Date : Type} {dates : DateLibrary Date} {database : Json}
    {events : List (ProgramEvent Date)} {final : Program} {user : String} {id : Nat}
    (hrun : run (step dates) (launched database) events = some final)
    (hunused : ∀ event, .account user event ∈ events → id ∉ AccountState.requestsOf event) :
    (final.accounts user).requests id = none := by
  refine run_invariant_of_along (fun _ event => event ∈ events)
    (fun state => (state.accounts user).requests id = none)
    (fun state event next h hmem hstep => ?_) rfl
    (along_of_forall_mem (launched database) fun _ hevent => hevent) hrun
  cases event with
  | account name event =>
      obtain ⟨account, haccount, hnext⟩ := Option.bind_eq_some_iff.mp hstep
      obtain rfl := Option.some.inj hnext
      by_cases hname : user = name
      · subst hname
        dsimp only
        rw [Function.update_self]
        exact (AccountState.requests_of_step haccount (hunused event hmem)).trans h
      · dsimp only
        rw [Function.update_of_ne hname]
        exact h
  | orders event =>
      obtain ⟨-, hmoved⟩ := Option.ite_none_right_eq_some.mp hstep
      obtain ⟨moved, -, hnext⟩ := Option.bind_eq_some_iff.mp hmoved
      obtain rfl := Option.some.inj hnext
      exact h

/-! ## A lunch -/

/-- A restaurant with one product, and no users yet. -/
def oneMenu : Json :=
  (Json.set .null ["Restaurants"] (.array [.object [
    ("category", .array [.string "Кофе", .string "Пицца"]), ("name", .string "Groot"),
    ("image", .string "g.png"), ("lat", .string "55.75"), ("long", .string "37.64")]])).set
  ["Products"] (.array [.object [
    ("category", .array [.string "Кофе"]), ("name", .string "Latte"),
    ("image", .string "l.png"), ("price", .string "199"), ("restaurantID", .string "0")]])

/-- A customer picks two lattes in the menu and orders them on the Basket screen. -/
def twoLattesToGo : List (AccountEvent Nat) :=
  let latte : ProductInfo := ⟨"Latte", 199, "l.png", [.coffee], "0"⟩
  [ .pushMenuVC 0 "0", .menuWillAppear 0 0 1 true true, .answer 0, .menuBasketDelivered 0,
    .answer 1, .menuProductsDelivered 1, .menuTapped 0 (.add 0 []),
    .menuTapped 0 (.add 0 [latte]), .menuWillDisappear 0 2 Traffic.twoLattes true, .write 2,
    .screenGetsBasket 0 3 true, .answer 3, .screenBasketDelivered 3 [latte],
    .orderButtonPressed 0 4 true, .answer 4, .restaurantsDelivered 4 5 17 true true, .answer 5,
    .orderDelivered 5 Traffic.twoLattes 6294876000 6294876005, .write 5, .write 5, .write 5]

/-- The customer and the kitchen look at their orders. -/
def lookedUp : List (AppsEvent Nat) :=
  let placed : Placement Nat :=
    ⟨"anna@mail", Traffic.twoLattes, ⟨17, sampleRestaurant, 6294876005, 6294894000⟩⟩
  [ .viewDidLoad 0 "anna@mail", .viewWillAppear 0 0 true, .didSelectItemAt 0 1 "Groot",
    .answer 0, .answer 1, .ordersDelivered 0, .didSelectRowAt 0 0,
    .allOrdersDelivered 1 [placed.stored utcDates], .updateOrderInfo 0 0]

/-- One after the other. -/
def lunch : List (ProgramEvent Nat) :=
  twoLattesToGo.map (.account "anna@mail") ++ lookedUp.map .orders

theorem user_of_mem_lunch {name : String} {event : AccountEvent Nat}
    (hmem : .account name event ∈ lunch) : name = "anna@mail" := by
  rcases List.mem_append.mp hmem with hchosen | hlooked
  · obtain ⟨chosen, -, hsame⟩ := List.mem_map.mp hchosen
    cases hsame
    rfl
  · obtain ⟨looked, -, hsame⟩ := List.mem_map.mp hlooked
    cases hsame

/-- The customer has a number, and has opened an order. -/
theorem lunch_runs :
    ∃ final, run (step utcDates) (launched oneMenu) lunch = some final ∧
      (∀ user, ((final.accounts user).issued.map IssuedOrder.place).Nodup) ∧
      (∃ screen, final.tabs 0 = some screen ∧ screen.pushed ≠ []) ∧
      ∃ number, ((final.accounts "anna@mail").screens 0).confirmation = some number := by
  have hany : (run (step utcDates) (launched oneMenu) lunch).any (fun final =>
      decide ((final.accounts "anna@mail").issued.map IssuedOrder.place).Nodup &&
        (final.tabs 0).any (fun screen => !screen.pushed.isEmpty) &&
        ((final.accounts "anna@mail").screens 0).confirmation.isSome) = true := by
    decide +kernel
  obtain ⟨final, hrun, hfinal⟩ := (Option.any_eq_true _ _).mp hany
  simp only [Bool.and_eq_true, decide_eq_true_eq] at hfinal
  obtain ⟨⟨hanna, htab⟩, hnumber⟩ := hfinal
  obtain ⟨screen, htab, hpushed⟩ := (Option.any_eq_true _ _).mp htab
  refine ⟨final, hrun, fun user => ?_, ⟨screen, htab, fun hempty => ?_⟩,
    Option.isSome_iff_exists.mp hnumber⟩
  · by_cases huser : user = "anna@mail"
    · rwa [huser]
    · rw [accounts_of_unused hrun fun name event hmem => user_of_mem_lunch hmem ▸ Ne.symm huser]
      exact List.nodup_nil
  · rw [hempty] at hpushed
    cases hpushed

theorem program_refines_apps_lunch :
    ∃ final matching apps, run (step utcDates) (launched oneMenu) lunch = some final ∧
      run (Apps.step utcDates) (.launched oneMenu) matching = some apps ∧
      apps.splits = final.splits := by
  obtain ⟨final, hrun, -⟩ := lunch_runs
  obtain ⟨matching, apps, happs, -, -, hsplits, -⟩ := program_refines_apps hrun
  exact ⟨final, matching, apps, hrun, happs, hsplits⟩

end Program

end QFree
