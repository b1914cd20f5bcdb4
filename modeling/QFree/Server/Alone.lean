/-
  Server/Alone.lean --- an account does not notice the others.

  The screens of an account read its subtree of `Users`, the products and the
  restaurants, and they write below its subtree only.  So whatever the other accounts
  and the kitchens do in between, the screens, requests and orders of an account are
  those of a run in which it is alone on the server (`account_runs_alone`), and what is
  known of such runs holds of every account of the program.
-/
import QFree.Server.Program

set_option autoImplicit false

namespace QFree

open QFree.Foundation QFree.FirebaseHandler

/-! ## What an account reads and writes -/

/-- The write goes below the subtree of the account. -/
def Write.Under (user : String) (write : Write) : Prop :=
  ∃ below, write.path = "Users" :: user :: below

/-- The two databases have the same for the account. -/
structure SameFor (user : String) (first second : Json) : Prop where
  own : first.get ["Users", user] = second.get ["Users", user]
  products : first.get ["Products"] = second.get ["Products"]
  restaurants : first.get ["Restaurants"] = second.get ["Restaurants"]

section SameFor

variable {user other : String} {first second : Json} {write : Write}

theorem SameFor.refl (user : String) (database : Json) : SameFor user database database :=
  ⟨rfl, rfl, rfl⟩

theorem SameFor.get_own (h : SameFor user first second) (below : List String) :
    first.get ("Users" :: user :: below) = second.get ("Users" :: user :: below) := by
  have hsplit : ∀ database : Json,
      database.get ("Users" :: user :: below) = (database.get ["Users", user]).get below :=
    fun database => Json.get_append database ["Users", user] below
  rw [hsplit, hsplit, h.own]

/-- Every read of the account is answered alike. -/
theorem SameFor.get_path (h : SameFor user first second) (task : ReadTask) :
    first.get (AccountState.path user task) = second.get (AccountState.path user task) := by
  cases task with
  | menuBasket menu => exact h.get_own ["basket"]
  | menuProducts menu => exact h.products
  | screenBasket screen => exact h.get_own ["basket"]
  | restaurants screen => exact h.restaurants
  | order screen number basket restaurants => exact h.get_own ["basket"]

/-- A write below `Users` leaves products and restaurants alone. -/
theorem get_apply_of_ne (hunder : write.Under user) {key : String} (hkey : key ≠ "Users")
    (database : Json) : (write.apply database).get [key] = database.get [key] := by
  obtain ⟨below, hpath⟩ := hunder
  rw [Write.apply, hpath]
  exact Json.get_set_of_ne database [] hkey (user :: below) [] write.value.pruned

theorem SameFor.apply_own (h : SameFor user first second) (hunder : write.Under user) :
    SameFor user (write.apply first) (write.apply second) := by
  refine ⟨?_, ?_, ?_⟩
  · obtain ⟨below, hpath⟩ := hunder
    have hbelow : ∀ database : Json, (write.apply database).get ["Users", user] =
        (database.get ["Users", user]).set below write.value.pruned := by
      intro database
      rw [Write.apply, hpath]
      exact Json.get_set_below database ["Users", user] below write.value.pruned
    rw [hbelow, hbelow, h.own]
  · rw [get_apply_of_ne hunder (by decide), get_apply_of_ne hunder (by decide), h.products]
  · rw [get_apply_of_ne hunder (by decide), get_apply_of_ne hunder (by decide), h.restaurants]

theorem SameFor.apply_other (h : SameFor user first second) (hunder : write.Under other)
    (hne : user ≠ other) : SameFor user (write.apply first) second := by
  refine ⟨?_, ?_, ?_⟩
  · obtain ⟨below, hpath⟩ := hunder
    rw [← h.own, Write.apply, hpath]
    exact Json.get_set_of_ne first ["Users"] hne below [] write.value.pruned
  · rw [get_apply_of_ne hunder (by decide), h.products]
  · rw [get_apply_of_ne hunder (by decide), h.restaurants]

end SameFor

/-! ## Every request -/

/-- The writes of the request go below the subtree of the account. -/
def Request.WritesUnder (user : String) : Request → Prop
  | .writing writes => ∀ write ∈ writes, write.Under user
  | _ => True

namespace AccountState

section EveryRequest

variable {Good : Request → Prop} {state next : AccountState}

/-- Every request of the state has the property. -/
def EveryRequest (Good : Request → Prop) (state : AccountState) : Prop :=
  ∀ id request, state.requests id = some request → Good request

theorem everyRequest_initial (database : Json) : (initial database).EveryRequest Good := by
  intro id request hrequest
  cases hrequest

theorem EveryRequest.setRequest (h : state.EveryRequest Good) (id : Nat)
    {request : Option Request} (hrequest : ∀ new, request = some new → Good new) :
    (state.setRequest id request).EveryRequest Good := by
  intro other found hfound
  rcases of_update_eq_some hfound with ⟨-, hnew⟩ | hold
  · exact hrequest found hnew
  · exact h other found hold

theorem EveryRequest.put (h : state.EveryRequest Good) (id : Nat) {request : Request}
    (hrequest : Good request) : (state.setRequest id (some request)).EveryRequest Good :=
  h.setRequest id fun _ hnew => Option.some.inj hnew ▸ hrequest

theorem EveryRequest.finish (h : state.EveryRequest Good) (id : Nat) :
    (state.setRequest id none).EveryRequest Good :=
  h.setRequest id fun _ hnone => nomatch hnone

theorem EveryRequest.read (h : state.EveryRequest Good) {id : Nat} {task : ReadTask}
    {guards : Except NetworkingError (List String)}
    (hread : state.read id task guards = some next) (htask : Good (.waiting task)) :
    next.EveryRequest Good := by
  rcases read_eq_some hread with rfl | ⟨-, rfl⟩
  · exact h
  · exact h.put id htask

/-- Of a list of writes, those that remain. -/
theorem EveryRequest.rest (h : state.EveryRequest Good) (id : Nat) {rest : List Write}
    (hrest : Good (.writing rest)) :
    (state.setRequest id (if rest = [] then none else some (.writing rest))).EveryRequest
      Good := by
  split
  · exact h.finish id
  · exact h.put id hrest

/-- Every write of the account goes below its subtree. -/
def WritesOwn (user : String) (state : AccountState) : Prop :=
  state.EveryRequest (Request.WritesUnder user)

end EveryRequest

end AccountState

/-! ## The same step over another database -/

namespace AccountState


section On

variable {Date : Type} {dates : DateLibrary Date} {user : String} {state next : AccountState}
  {event : AccountEvent Date}

@[simp] theorem on_menus (database : Json) : (state.on database).menus = state.menus := rfl

@[simp] theorem on_screens (database : Json) : (state.on database).screens = state.screens := rfl

theorem setRequest_on (database : Json) (id : Nat) (request : Option Request) :
    (state.on database).setRequest id request = (state.setRequest id request).on database := rfl

theorem setMenu_on (database : Json) (menu : Nat) (controller : MenuController) :
    (state.on database).setMenu menu controller = (state.setMenu menu controller).on database :=
  rfl

theorem setScreen_on (database : Json) (screen : Nat) (controller : BasketViewController) :
    (state.on database).setScreen screen controller =
      (state.setScreen screen controller).on database := rfl

theorem start_on (database : Json) (id : Nat) (request : Request) :
    (state.on database).start id request =
      (state.start id request).map fun next => next.on database := by
  simp only [start, on_requests]
  cases state.requests id <;> rfl

theorem read_on (database : Json) (id : Nat) (task : ReadTask)
    (guards : Except NetworkingError (List String)) :
    (state.on database).read id task guards =
      (state.read id task guards).map fun next => next.on database := by
  cases guards with
  | error error => rfl
  | ok path => exact start_on database id _

theorem handleInMenu_on (database : Json) (menu : Nat) (event : MenuEvent) :
    (state.on database).handleInMenu menu event =
      (state.handleInMenu menu event).map fun next => next.on database := by
  simp only [handleInMenu, on_menus, setMenu_on, Option.bind_eq_bind, Option.map_bind,
    Function.comp_def, Option.pure_def, Option.map_some]

/-- Of the database, an event that is no write sees what it has for the account. -/
theorem step_on {database : Json} (hsame : SameFor user state.database database)
    (hevent : ∀ id, event ≠ .write id) :
    (state.on database).step dates user event =
      (state.step dates user event).map fun next => next.on database := by
  cases event with
  | write id => exact absurd rfl (hevent id)
  | pushMenuVC menu restaurantID =>
      simp only [step, on_menus]
      cases state.menus menu <;> rfl
  | menuWillAppear menu basketRequest productsRequest isConnected stillConnected =>
      simp only [step, read_on, on_menus, Option.bind_eq_bind, Option.map_bind,
        Option.bind_map, Function.comp_def]
  | menuTapped menu tap =>
      simp only [step, handleInMenu_on, apply_ite (Option.map _), Option.map_none]
  | menuWillDisappear menu id entries isConnected =>
      simp only [step, on_menus, Option.bind_eq_bind, Option.map_bind, Function.comp_def,
        apply_ite (Option.map _), Option.map_none, start_on]
      cases postBasket ⟨some user⟩ isConnected entries <;> rfl
  | screenGetsBasket screen id isConnected => exact read_on database id _ _
  | orderButtonPressed screen id isConnected =>
      simp only [step, read_on, on_screens, apply_ite (Option.map _), Option.map_none]
  | okButtonPressed screen =>
      simp only [step, on_screens, setScreen_on, apply_ite (Option.map _), Option.map_some,
        Option.map_none]
      rfl
  | answer id =>
      cases hrequest : state.requests id with
      | none => simp [step, hrequest]
      | some request =>
          cases request <;>
            simp [step, hrequest, hsame.get_path, AccountState.on, setRequest]
  | cancel id =>
      cases hrequest : state.requests id with
      | none => simp [step, hrequest]
      | some request => cases request <;> simp [step, hrequest, setRequest_on]
  | menuBasketDelivered id =>
      simp only [step, on_requests]
      split
      · simp only [setRequest_on, handleInMenu_on, Option.bind_eq_bind, Option.map_bind,
          Function.comp_def]
      · rfl
  | menuProductsDelivered id =>
      simp only [step, on_requests]
      split
      · simp only [setRequest_on, handleInMenu_on, on_menus, Option.bind_eq_bind,
          Option.map_bind, Function.comp_def]
      · rfl
  | screenBasketDelivered id keys =>
      simp only [step, on_requests]
      split
      · simp only [setRequest_on, setScreen_on, on_screens, Option.bind_eq_bind, Option.map_bind,
          Function.comp_def, apply_ite (Option.map _), Option.map_none, Option.pure_def,
          Option.map_some]
      · rfl
  | restaurantsDelivered id next number isConnected stillConnected =>
      simp only [step, on_requests]
      split
      · simp only [setRequest_on, read_on, on_screens, Option.bind_eq_bind, Option.map_bind,
          Function.comp_def, apply_ite (Option.map _), Option.map_none]
      · rfl
  | orderDelivered id entries now later =>
      simp only [step, on_requests]
      split
      · simp only [setRequest_on, setScreen_on, on_screens, Option.bind_eq_bind, Option.map_bind,
          Function.comp_def, apply_ite (Option.map _), Option.map_none, Option.pure_def,
          Option.map_some, on_issued]
        rfl
      · rfl

end On

/-! ## Writes of an account -/

section Writes

variable {Date : Type} {dates : DateLibrary Date} {user : String} {state next : AccountState}
  {event : AccountEvent Date}

theorem under_of_postBasket {isConnected : Bool} {entries : List (ProductInfo × Int64)}
    {write : Write} (hpost : postBasket ⟨some user⟩ isConnected entries = .ok write) :
    write.Under user := by
  cases isConnected with
  | false => cases hpost
  | true =>
      rw [← Except.ok.inj hpost]
      exact ⟨["basket"], rfl⟩

theorem under_of_mem_orderWrites {number : Int64} {restaurant : Restaurant}
    {basket : List (ProductInfo × Int64)} {hash readyDate : String} {write : Write}
    (hmem : write ∈ orderWrites user number restaurant basket hash readyDate) :
    write.Under user := by
  simp only [orderWrites, List.mem_cons, List.not_mem_nil, or_false] at hmem
  rcases hmem with rfl | rfl | rfl
  · exact ⟨["orders", hash, "products"], rfl⟩
  · exact ⟨["orders", hash, "info"], rfl⟩
  · exact ⟨["basket"], rfl⟩

theorem writesOwn_step (h : state.WritesOwn user)
    (hstep : state.step dates user event = some next) : next.WritesOwn user := by
  cases transition_of_step hstep with
  | menuAppeared hbasket hproducts => exact (h.read hbasket trivial).read hproducts trivial
  | posted hmenu hentries hpost hfree =>
      refine h.put _ fun write hmem => ?_
      exact List.mem_singleton.mp hmem ▸ under_of_postBasket hpost
  | screenAsked hread | orderPressed _ hread => exact h.read hread trivial
  | answered _ => exact h.put _ trivial
  | cancelled _ | menuBasketDelivered _ _ _ _ | screenBasketDelivered _ _ => exact h.finish _
  | menuProductsDelivered _ _ _ _ => exact h.finish _
  | restaurantsDelivered hrequest hread => exact (h.finish _).read hread trivial
  | orderDelivered hrequest hbasket hentries hwrites =>
      obtain ⟨restaurant, readyDate, -, -, rfl⟩ := orderWrites_of_makeOrderResponse hwrites
      exact h.put _ fun (write : Write) hmem => under_of_mem_orderWrites hmem
  | written hrequest =>
      have hunder := h _ _ hrequest
      exact h.rest _ fun write hmem => hunder write (List.mem_cons_of_mem _ hmem)
  | menuOpened _ | menuTapped _ _ _ | notPosted | okPressed => exact h

/-- A step leaves the database alone, or applies a write of the account. -/
theorem database_step (h : state.WritesOwn user)
    (hstep : state.step dates user event = some next) :
    next.database = state.database ∨
      ∃ write : Write, write.Under user ∧ next.database = write.apply state.database := by
  cases event with
  | write id =>
      cases transition_of_step hstep with
      | written hrequest => exact .inr ⟨_, h _ _ hrequest _ List.mem_cons_self, rfl⟩
  | _ =>
      refine .inl (database_of_ne_write (fun id hwrite => ?_) hstep)
      cases hwrite

/-- Over a database that has the same for the account, the same step can be performed,
and leads to the same screens and a database that has the same again. -/
theorem step_alone {database : Json} (h : state.WritesOwn user)
    (hsame : SameFor user state.database database)
    (hstep : state.step dates user event = some next) :
    ∃ reached, (state.on database).step dates user event = some (next.on reached) ∧
      SameFor user next.database reached := by
  have hread : (∀ id, event ≠ .write id) →
      ∃ reached, (state.on database).step dates user event = some (next.on reached) ∧
        SameFor user next.database reached := fun hevent =>
    ⟨database, by rw [step_on hsame hevent, hstep, Option.map_some],
      database_of_ne_write hevent hstep ▸ hsame⟩
  cases event with
  | write id =>
      cases transition_of_step hstep with
      | @written _ first rest hrequest =>
          refine ⟨first.apply database, ?_,
            hsame.apply_own (h id _ hrequest first List.mem_cons_self)⟩
          simp only [step, on_requests, hrequest]
          rfl
  | _ =>
      refine hread fun id hwrite => ?_
      cases hwrite

end Writes

end AccountState

/-! ## An account among others -/

/-- The events of the account. -/
def ProgramEvent.of {Date : Type} (user : String) :
    ProgramEvent Date → List (AccountEvent Date)
  | .account name event => if name = user then [event] else []
  | .orders _ => []

namespace Program

section Alone

variable {Date : Type} {dates : DateLibrary Date} {user : String}

/-- The account has the screens that it has alone, over a database that has the same for
it, and no account has a write on its way to the subtree of another. -/
structure AsAlone (user : String) (state : Program) (alone : AccountState) : Prop where
  account : (state.accounts user).on alone.database = alone
  database : SameFor user state.database alone.database
  own : ∀ name, (state.accounts name).WritesOwn name

/-- What does not depend on the database is as it is alone. -/
theorem AsAlone.field {β : Type} {state : Program} {alone : AccountState}
    (h : state.AsAlone user alone) (field : AccountState → β)
    (hon : ∀ account database, field (AccountState.on account database) = field account) :
    field (state.accounts user) = field alone :=
  (hon _ alone.database).symm.trans (congrArg field h.account)

theorem asAlone_step {state next : Program} {event : ProgramEvent Date} {alone : AccountState}
    (h : state.AsAlone user alone) (hstep : state.step dates event = some next) :
    ∃ reached, run (AccountState.step dates user) alone (event.of user) = some reached ∧
      next.AsAlone user reached := by
  cases event with
  | account name event =>
      obtain ⟨account, haccount, hnext⟩ := Option.bind_eq_some_iff.mp hstep
      obtain rfl := Option.some.inj hnext
      have hown : ((state.accounts name).on state.database).WritesOwn name := h.own name
      have howns : ∀ other,
          (Function.update state.accounts name account other).WritesOwn other := by
        intro other
        rcases eq_or_ne other name with rfl | hother
        · rw [Function.update_self]
          exact AccountState.writesOwn_step hown haccount
        · rw [Function.update_of_ne hother]
          exact h.own other
      rcases eq_or_ne name user with rfl | hname
      · obtain ⟨reached, hreached, hsame⟩ := AccountState.step_alone hown h.database haccount
        rw [ProgramEvent.of, if_pos rfl]
        have hscreens : (Function.update state.accounts name account name).on reached =
            account.on reached := by rw [Function.update_self]
        refine ⟨account.on reached, run_cons_eq_some.mpr ⟨_, ?_, rfl⟩, hscreens, hsame, howns⟩
        rw [← h.account]
        exact hreached
      · rw [ProgramEvent.of, if_neg hname]
        refine ⟨alone, rfl, ?_, ?_, howns⟩
        · dsimp only
          rw [Function.update_of_ne hname.symm]
          exact h.account
        · rcases AccountState.database_step hown haccount with hkept | ⟨write, hunder, hwritten⟩
          · rw [hkept]
            exact h.database
          · rw [hwritten]
            exact h.database.apply_other hunder hname.symm
  | orders event =>
      obtain ⟨-, hmoved⟩ := Option.ite_none_right_eq_some.mp hstep
      obtain ⟨moved, -, hnext⟩ := Option.bind_eq_some_iff.mp hmoved
      obtain rfl := Option.some.inj hnext
      exact ⟨alone, rfl, h.account, h.database, h.own⟩

theorem asAlone_launched (user : String) (database : Json) :
    (launched database).AsAlone user (.initial database) where
  account := rfl
  database := SameFor.refl user database
  own := fun _ => AccountState.everyRequest_initial database

theorem asAlone_run {database : Json} {events : List (ProgramEvent Date)} {final : Program}
    (hrun : run (step dates) (launched database) events = some final) (user : String) :
    ∃ alone, run (AccountState.step dates user) (.initial database)
        (events.flatMap (ProgramEvent.of user)) = some alone ∧ final.AsAlone user alone :=
  run_of_simulation (AsAlone user) (ProgramEvent.of user)
    (fun _ _ _ _ h hstep => asAlone_step h hstep)
    (asAlone_launched user database) hrun

/-- In every run of the program, an account has the menus, Basket screens, requests and
orders that it has when its own events happen alone, and the database holds for it what
it holds then. -/
theorem account_runs_alone {database : Json} {events : List (ProgramEvent Date)}
    {final : Program} (hrun : run (step dates) (launched database) events = some final)
    (user : String) :
    ∃ alone, run (AccountState.step dates user) (.initial database)
        (events.flatMap (ProgramEvent.of user)) = some alone ∧
      (final.accounts user).menus = alone.menus ∧
      (final.accounts user).screens = alone.screens ∧
      (final.accounts user).requests = alone.requests ∧
      (final.accounts user).issued = alone.issued ∧
      SameFor user final.database alone.database := by
  obtain ⟨alone, halone, h⟩ := asAlone_run hrun user
  have hmenus := h.field AccountState.menus fun _ _ => rfl
  have hscreens := h.field AccountState.screens fun _ _ => rfl
  have hrequests := h.field AccountState.requests fun _ _ => rfl
  have hissued := h.field AccountState.issued fun _ _ => rfl
  exact ⟨alone, halone, hmenus, hscreens, hrequests, hissued, h.database⟩

end Alone

/-! ## Two customers -/

/-- Two customers do the same, in turns. -/
def inTurns : List (ProgramEvent Nat) :=
  twoLattesToGo.flatMap fun event => [.account "anna@mail" event, .account "boris@mail" event]

theorem account_runs_alone_inTurns :
    ∃ final alone, run (step utcDates) (launched oneMenu) inTurns = some final ∧
      run (AccountState.step utcDates "boris@mail") (.initial oneMenu) twoLattesToGo =
        some alone ∧
      (final.accounts "boris@mail").issued = alone.issued := by
  have hsome : (run (step utcDates) (launched oneMenu) inTurns).isSome = true := by
    decide +kernel
  obtain ⟨final, hrun⟩ := Option.isSome_iff_exists.mp hsome
  obtain ⟨alone, halone, -, -, -, hissued, -⟩ := account_runs_alone hrun "boris@mail"
  have hown : inTurns.flatMap (ProgramEvent.of "boris@mail") = twoLattesToGo := rfl
  exact ⟨final, alone, hrun, hown ▸ halone, hissued⟩

end Program

end QFree
