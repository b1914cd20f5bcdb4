/-
  Server/EndToEnd.lean --- from the order button to the screens of both apps.

  An order begins on a Basket screen.  What both apps show of it later is exactly what
  was issued there: no screen has an order that no Basket screen of its account issued
  (`screens_show_issued_orders`); and a number that was shown to a customer belongs to
  an order that was issued, which everybody is shown as soon as nothing is on its way
  any more (`confirmed_orders_reach_everyone`).

  Two orders of one account at one time would have one place, so the places are
  assumed to be different.
-/
import QFree.Server.Program

set_option autoImplicit false

namespace QFree

open QFree.Foundation QFree.FirebaseHandler

/-! ## Orders issued on Basket screens -/

section Issued

variable {Date : Type} (dates : DateLibrary Date)

/-- The order was issued on a Basket screen of the account. -/
def AccountState.Issued (state : AccountState) (placement : Placement Date) : Prop :=
  ∃ issued ∈ state.issued, issued.content = (placement.products, placement.writes dates)

namespace Program

/-- The order was issued on a Basket screen of its account. -/
def Issued (state : Program) (placement : Placement Date) : Prop :=
  (state.accounts placement.user).Issued dates placement

/-- No write of an account is on its way. -/
def Settled (state : Program) : Prop :=
  ∀ user id writes, (state.accounts user).requests id ≠ some (.writing writes)

variable {dates} {state : Program} {apps : Apps Date}

theorem RunsAs.issued_of_mem (h : state.RunsAs dates apps) {placement : Placement Date}
    (hmem : placement ∈ apps.traffic.placements) : state.Issued dates placement := by
  obtain ⟨slot, hcarries⟩ := h.carries
  have hcontent : (placement.products, placement.writes dates) ∈
      apps.traffic.contents dates placement.user :=
    List.mem_map.mpr ⟨placement, List.mem_filter.mpr ⟨hmem, decide_eq_true rfl⟩, rfl⟩
  rw [← hcarries.issued] at hcontent
  exact List.mem_map.mp hcontent

theorem mem_placements_of_arrived {traffic : Traffic Date} {kind : Placement Date → Prop}
    [DecidablePred kind] {placement : Placement Date}
    (hmem : placement ∈ traffic.arrivedOrders kind) : placement ∈ traffic.placements := by
  obtain ⟨order, horder, rfl⟩ := List.mem_map.mp hmem
  exact List.mem_map_of_mem (List.mem_filter.mp horder).1

/-- The places of the orders, as their writes have them. -/
theorem place_of_content {user : String} {placements : List (Placement Date)}
    {issued : List IssuedOrder}
    (hsame : issued.map IssuedOrder.content =
      placements.map fun placement => (placement.products, placement.writes dates))
    (huser : ∀ placement ∈ placements, placement.user = user) :
    issued.map IssuedOrder.place = placements.map fun placement =>
      some (orderPath user (placement.place dates).2 ++ ["products"]) := by
  have hplace : issued.map IssuedOrder.place =
      (issued.map IssuedOrder.content).map fun content => content.2.head?.map Write.path := by
    rw [List.map_map]
    rfl
  rw [hplace, hsame, List.map_map]
  exact List.map_congr_left fun placement hmem => by rw [← huser placement hmem]; rfl

/-- Different places for each account are different places for all. -/
theorem RunsAs.nodup_issuedPlaces (h : state.RunsAs dates apps)
    (hdistinct : ∀ user, ((state.accounts user).issued.map IssuedOrder.place).Nodup) :
    (apps.traffic.issuedPlaces dates).Nodup := by
  obtain ⟨slot, hcarries⟩ := h.carries
  have hpairs : ∀ user, apps.traffic.placements.Pairwise fun first second =>
      first.user = user → second.user = user → first.place dates ≠ second.place dates := by
    intro user
    have hnodup := hdistinct user
    rw [place_of_content (hcarries.issued user) fun placement hmem =>
      of_decide_eq_true (List.mem_filter.mp hmem).2] at hnodup
    rw [List.Nodup, List.pairwise_map, List.pairwise_filter] at hnodup
    refine hnodup.imp fun hne hfirst hsecond hsame => ?_
    exact hne (decide_eq_true hfirst) (decide_eq_true hsecond) (by rw [hsame])
  rw [Traffic.issuedPlaces_eq, List.Nodup, List.pairwise_map, List.pairwise_iff_getElem]
  intro i j hi hj hlt hsame
  exact List.pairwise_iff_getElem.mp (hpairs (apps.traffic.placements[i]).user) i j hi hj hlt rfl
    (congrArg Prod.fst hsame).symm hsame

/-- When no account is writing, nothing is on its way. -/
theorem RunsAs.pending_eq_zero (h : state.RunsAs dates apps) (hsettled : state.Settled) :
    apps.traffic.pending = 0 := by
  obtain ⟨slot, hcarries⟩ := h.carries
  refine List.sum_eq_zero_iff_forall_eq_nat.mpr fun missing hmem => ?_
  obtain ⟨⟨issued, arrived⟩, horder, rfl⟩ := List.mem_map.mp hmem
  obtain ⟨index, hindex⟩ := List.getElem?_of_mem horder
  refine Nat.sub_eq_zero_of_le (Nat.le_of_not_lt fun hthree => ?_)
  obtain ⟨call, hslot⟩ := hcarries.kept index issued arrived hindex hthree
  have hcall := hcarries.calls call
  rw [hslot] at hcall
  obtain ⟨writes, hwriting⟩ := hcall.writing
  exact hsettled call.1 call.2 writes hwriting

end Program

end Issued

/-! ## Only issued orders are shown -/

namespace Program

section Screens

variable {Date : Type} {dates : DateLibrary Date} {database : Json}
  {events : List (ProgramEvent Date)} {final : Program}

/-- An order on a customer's screens was issued on a Basket screen of the account. -/
theorem RunsAs.issued_of_tab {apps : Apps Date} {matching : List (AppsEvent Date)}
    (h : final.RunsAs dates apps) (hlawful : dates.Lawful)
    (hempty : database.get ["Users"] = .null)
    (happs : run (Apps.step dates) (.launched database) matching = some apps)
    (hplaces : (apps.traffic.issuedPlaces dates).Nodup) {tab : Nat} {screen : OrdersTab}
    {order : OrderInfo} (htab : final.tabs tab = some screen)
    (horder : order ∈ screen.orders ∨ order ∈ screen.pushed) :
    ∃ placement, placement.user = screen.user ∧ final.Issued dates placement ∧
      ShownAs dates (placement.info dates) order := by
  rw [← h.tabs] at htab
  have honce := ((Apps.recorded_run hempty happs).tabs tab screen htab).once horder
  obtain ⟨issued, hissued, hshown⟩ := Apps.placed_of_shown hlawful hempty hplaces honce
  exact ⟨issued, Traffic.kind_of_mem_arrivedOrders hissued,
    h.issued_of_mem (mem_placements_of_arrived hissued), hshown⟩

/-- An order on a split screen was issued for its name. -/
theorem RunsAs.issued_of_split {apps : Apps Date} {matching : List (AppsEvent Date)}
    (h : final.RunsAs dates apps) (hempty : database.get ["Users"] = .null)
    (happs : run (Apps.step dates) (.launched database) matching = some apps)
    (hplaces : (apps.traffic.issuedPlaces dates).Nodup) {split : Nat} {screen : SplitScreen}
    {order : StoredOrder} (hsplit : final.splits split = some screen)
    (horder : order ∈ screen.orders ∨ screen.orderScreen.order = some order) :
    ∃ placement, placement.slip.restaurant.name = screen.restaurantName ∧
      final.Issued dates placement ∧ order = placement.stored dates := by
  rw [← h.splits] at hsplit
  have honce := ((Apps.recorded_run hempty happs).splits split screen hsplit).once horder
  obtain ⟨issued, hissued, hstored⟩ := Apps.placed_of_stored hempty hplaces honce
  exact ⟨issued, Traffic.kind_of_mem_arrivedOrders hissued,
    h.issued_of_mem (mem_placements_of_arrived hissued), hstored⟩

/-- In every run in which the orders of each account have different places, every order
on a customer's screens was issued on a Basket screen of the account, and every order on
a split screen on one of the account it is stored under, for the name of the split
screen; each is shown as it was issued. -/
theorem screens_show_issued_orders (hlawful : dates.Lawful)
    (hempty : database.get ["Users"] = .null)
    (hrun : run (step dates) (launched database) events = some final)
    (hdistinct : ∀ user, ((final.accounts user).issued.map IssuedOrder.place).Nodup) :
    (∀ tab screen order, final.tabs tab = some screen →
      order ∈ screen.orders ∨ order ∈ screen.pushed →
        ∃ placement, placement.user = screen.user ∧ final.Issued dates placement ∧
          ShownAs dates (placement.info dates) order) ∧
    ∀ split screen order, final.splits split = some screen →
      order ∈ screen.orders ∨ screen.orderScreen.order = some order →
        ∃ placement, placement.slip.restaurant.name = screen.restaurantName ∧
          final.Issued dates placement ∧ order = placement.stored dates := by
  obtain ⟨matching, apps, happs, hruns⟩ := runsAs_run hrun
  have hplaces := hruns.nodup_issuedPlaces hdistinct
  exact ⟨fun tab screen order htab horder =>
      hruns.issued_of_tab hlawful hempty happs hplaces htab horder,
    fun split screen order hsplit horder =>
      hruns.issued_of_split hempty happs hplaces hsplit horder⟩

end Screens

end Program

/-! ## Numbers that were shown -/

namespace AccountState

section Told

variable {Date : Type} (dates : DateLibrary Date) (user : String)

/-- A number on a Basket screen belongs to an order that was issued. -/
def Told (state : AccountState) : Prop :=
  ∀ screen number, (state.screens screen).confirmation = some number →
    ∃ placement, placement.user = user ∧ placement.slip.number = number ∧
      state.Issued dates placement

variable {dates user} {state next : AccountState}

theorem Issued.append {placement : Placement Date} (h : state.Issued dates placement)
    {more : List IssuedOrder} (hissued : next.issued = state.issued ++ more) :
    next.Issued dates placement := by
  obtain ⟨issued, hmem, hcontent⟩ := h
  exact ⟨issued, hissued ▸ List.mem_append_left more hmem, hcontent⟩

/-- Unless a screen shows a new number, nothing has to be looked for. -/
theorem Told.of_same (h : state.Told dates user) (hissued : next.issued = state.issued)
    (hscreens : ∀ screen number, (next.screens screen).confirmation = some number →
      (state.screens screen).confirmation = some number) : next.Told dates user := by
  intro screen number hnumber
  obtain ⟨placement, huser, hslip, hplaced⟩ := h screen number (hscreens screen number hnumber)
  exact ⟨placement, huser, hslip, hplaced.append (hissued.trans (List.append_nil _).symm)⟩

theorem Told.of_screens (h : state.Told dates user) (hissued : next.issued = state.issued)
    (hscreens : next.screens = state.screens) : next.Told dates user :=
  h.of_same hissued fun _ _ hnumber => hscreens ▸ hnumber

theorem Told.of_setRequest (h : state.Told dates user) (id : Nat) (request : Option Request) :
    (state.setRequest id request).Told dates user :=
  h.of_screens rfl rfl

theorem Told.of_read (h : state.Told dates user) {id : Nat} {task : ReadTask}
    {guards : Except NetworkingError (List String)}
    (hread : state.read id task guards = some next) : next.Told dates user := by
  rcases read_eq_some hread with rfl | ⟨-, rfl⟩
  · exact h
  · exact h.of_screens rfl rfl

theorem confirmation_setScreen {screen other : Nat} {shown : BasketViewController}
    {number : Int64}
    (h : ((state.setScreen screen shown).screens other).confirmation = some number) :
    (state.screens other).confirmation = some number ∨
      other = screen ∧ shown.confirmation = some number := by
  rw [setScreen_screens] at h
  by_cases hother : other = screen
  · subst hother
    rw [Function.update_self] at h
    exact .inr ⟨rfl, h⟩
  · rw [Function.update_of_ne hother] at h
    exact .inl h

theorem told_step {event : AccountEvent Date} (h : state.Told dates user)
    (hstep : state.step dates user event = some next) : next.Told dates user := by
  cases transition_of_step hstep with
  | menuOpened hnew => exact h.of_screens rfl rfl
  | menuAppeared hbasket hproducts => exact (h.of_read hbasket).of_read hproducts
  | menuTapped htap hmenu hchanged => exact h.of_screens rfl rfl
  | posted hmenu hentries hpost hfree => exact h.of_screens rfl rfl
  | notPosted => exact h
  | screenAsked hread => exact h.of_read hread
  | orderPressed hcan hread => exact h.of_read hread
  | okPressed =>
      refine h.of_same rfl fun other number hnumber => ?_
      rcases confirmation_setScreen hnumber with hsame | ⟨rfl, hnone⟩
      · exact hsame
      · cases hnone
  | answered hrequest => exact h.of_screens rfl rfl
  | cancelled hrequest => exact h.of_screens rfl rfl
  | menuBasketDelivered hrequest hbasket hmenu hchanged => exact h.of_screens rfl rfl
  | menuProductsDelivered hrequest hmenu hproducts hchanged => exact h.of_screens rfl rfl
  | screenBasketDelivered hrequest hbasket =>
      refine h.of_same rfl fun other number hnumber => ?_
      rcases confirmation_setScreen hnumber with hsame | ⟨rfl, hkept⟩
      · exact hsame
      · exact hkept
  | restaurantsDelivered hrequest hread =>
      exact (h.of_setRequest _ none).of_read hread
  | @orderDelivered id screen number confirmed basket restaurants value entries now later writes
      hrequest hbasket hentries hwrites =>
      intro other shown hshown
      rcases confirmation_setScreen hshown with hsame | ⟨rfl, hnew⟩
      · obtain ⟨placement, huser, hslip, hplaced⟩ := h other shown hsame
        exact ⟨placement, huser, hslip, hplaced.append rfl⟩
      · cases hbefore : (state.screens other).confirmation with
        | some before =>
            rw [BasketViewController.orderCompletion, hbefore] at hnew
            obtain ⟨placement, huser, hslip, hplaced⟩ := h other shown (hbefore.trans hnew)
            exact ⟨placement, huser, hslip, hplaced.append rfl⟩
        | none =>
            rw [BasketViewController.orderCompletion, hbefore] at hnew
            rw [← writes_of_placement, Option.map_eq_some_iff] at hwrites
            obtain ⟨issued, hplaced, rfl⟩ := hwrites
            obtain ⟨restaurant, readyDate, -, -, rfl⟩ := placement_eq_some hplaced
            refine ⟨⟨user, entries, number, restaurant, later, readyDate⟩, rfl,
              Option.some.inj hnew, _, List.mem_append_right _ (List.mem_singleton_self _), rfl⟩
  | written hrequest => exact h.of_screens rfl rfl

end Told

end AccountState

/-- The writes of an order have everything that is shown of it. -/
theorem Placement.info_of_writes {Date : Type} {dates : DateLibrary Date}
    {first second : Placement Date} (hproducts : first.products = second.products)
    (hwrites : first.writes dates = second.writes dates) :
    first.info dates = second.info dates := by
  have hinfo := congrArg (fun writes : List Write => writes[1]?.map Write.value) hwrites
  simp only [writes, orderWrites, List.getElem?_cons_succ, List.getElem?_cons_zero,
    Option.map_some, Option.some.injEq, Json.object.injEq, orderInfoFields, List.cons.injEq,
    Prod.mk.injEq, Json.string.injEq, true_and, and_true] at hinfo
  obtain ⟨himage, hname, hdate, hready, hnumber⟩ := hinfo
  rw [info, info, placedOrder, placedOrder, himage, hname, hdate, hready, hnumber, hproducts]

namespace Program

section Reaches

variable {Date : Type} {dates : DateLibrary Date} {database : Json}
  {events : List (ProgramEvent Date)} {final : Program}

theorem told_run (hrun : run (step dates) (launched database) events = some final)
    (user : String) : (final.accounts user).Told dates user := by
  refine run_invariant (fun state => ∀ user, (state.accounts user).Told dates user)
    (fun state event next h hstep name => ?_) (fun _ => nofun) hrun user
  cases event with
  | account user event =>
      obtain ⟨account, haccount, hnext⟩ := Option.bind_eq_some_iff.mp hstep
      obtain rfl := Option.some.inj hnext
      by_cases hname : name = user
      · subst hname
        have hon : ((state.accounts name).on state.database).Told dates name :=
          (h name).of_screens rfl rfl
        dsimp only
        rw [Function.update_self]
        exact AccountState.told_step hon haccount
      · dsimp only
        rw [Function.update_of_ne hname]
        exact h name
  | orders event =>
      obtain ⟨-, hmoved⟩ := Option.ite_none_right_eq_some.mp hstep
      obtain ⟨moved, -, hnext⟩ := Option.bind_eq_some_iff.mp hmoved
      obtain rfl := Option.some.inj hnext
      exact h name

/-- In every run in which the orders of each account have different places: a number on a
Basket screen belongs to an order that was issued for the account; and when no write is
on its way, each customer is shown exactly the orders that were issued for the account,
and each kitchen exactly those that were issued for its name. -/
theorem confirmed_orders_reach_everyone (hlawful : dates.Lawful)
    (hempty : database.get ["Users"] = .null)
    (hrun : run (step dates) (launched database) events = some final)
    (hdistinct : ∀ user, ((final.accounts user).issued.map IssuedOrder.place).Nodup) :
    (∀ user screen number,
      ((final.accounts user).screens screen).confirmation = some number →
        ∃ placement, placement.user = user ∧ placement.slip.number = number ∧
          final.Issued dates placement) ∧
    (final.Settled → ∃ placements : List (Placement Date),
      (∀ user, (final.accounts user).issued.map IssuedOrder.content =
        (placements.filter fun placed => placed.user = user).map fun placed =>
          (placed.products, placed.writes dates)) ∧
      (∀ user, ∃ shown, getOrders dates ⟨some user⟩ true final.database = some (.ok shown) ∧
        Traffic.Shows dates (placements.filter fun placed => placed.user = user) shown) ∧
      ∀ restaurantName, ∃ shown, loadAllOrders restaurantName final.database = some shown ∧
        shown.Perm ((placements.filter fun placed =>
          placed.slip.restaurant.name = restaurantName).map (Placement.info dates))) := by
  refine ⟨fun user screen number hnumber => ?_, fun hsettled => ?_⟩
  · obtain ⟨placement, rfl, hslip, hissued⟩ := told_run hrun user screen number hnumber
    exact ⟨placement, rfl, hslip, hissued⟩
  · obtain ⟨matching, apps, happs, hruns⟩ := runsAs_run hrun
    have hshown := Traffic.shown_of_settled hlawful hempty (Apps.traffic_run happs)
      (hruns.nodup_issuedPlaces hdistinct) (hruns.pending_eq_zero hsettled)
    rw [hruns.database] at hshown
    obtain ⟨slot, hcarries⟩ := hruns.carries
    exact ⟨apps.traffic.placements, hcarries.issued, hshown⟩

end Reaches

theorem screens_show_issued_orders_lunch :
    ∃ final screen, run (step utcDates) (launched oneMenu) lunch = some final ∧
      final.tabs 0 = some screen ∧ screen.pushed ≠ [] ∧ ∀ order ∈ screen.pushed,
        ∃ placement, final.Issued utcDates placement ∧
          ShownAs utcDates (placement.info utcDates) order := by
  obtain ⟨final, hrun, hdistinct, ⟨screen, htab, hpushed⟩, -⟩ := lunch_runs
  refine ⟨final, screen, hrun, htab, hpushed, fun order hmem => ?_⟩
  obtain ⟨placement, -, hissued, hshown⟩ :=
    (screens_show_issued_orders utcDates_lawful rfl hrun hdistinct).1 0 screen order htab
      (.inr hmem)
  exact ⟨placement, hissued, hshown⟩

/-- Every write of the lunch has arrived. -/
theorem lunch_settled {final : Program}
    (hrun : run (step utcDates) (launched oneMenu) lunch = some final) : final.Settled := by
  intro user id writes hwriting
  by_cases huser : user = "anna@mail"
  · subst huser
    by_cases hid : id ∈ List.range 6
    · have hdone : (run (step utcDates) (launched oneMenu) lunch).any (fun final =>
          (List.range 6).all fun id => ((final.accounts "anna@mail").requests id).isNone) =
            true := by
        decide +kernel
      rw [hrun, Option.any_some, List.all_eq_true] at hdone
      rw [Option.isNone_iff_eq_none.mp (hdone id hid)] at hwriting
      cases hwriting
    · have hunused : ∀ event ∈ twoLattesToGo, id ∉ AccountState.requestsOf event := by
        intro event hmem hused
        have hsmall : ∀ event ∈ twoLattesToGo,
            ∀ id ∈ AccountState.requestsOf event, id ∈ List.range 6 := by decide
        exact hid (hsmall event hmem id hused)
      rw [requests_of_unused hrun fun event hmem => ?_] at hwriting
      · cases hwriting
      · rcases List.mem_append.mp hmem with hchosen | hlooked
        · obtain ⟨chosen, hchosen, hsame⟩ := List.mem_map.mp hchosen
          cases hsame
          exact hunused _ hchosen
        · obtain ⟨looked, -, hsame⟩ := List.mem_map.mp hlooked
          cases hsame
  · rw [accounts_of_unused hrun fun name event hmem => user_of_mem_lunch hmem ▸ Ne.symm huser]
      at hwriting
    cases hwriting

theorem confirmed_orders_reach_everyone_lunch :
    ∃ final placement shown, run (step utcDates) (launched oneMenu) lunch = some final ∧
      ((final.accounts "anna@mail").screens 0).confirmation = some placement.slip.number ∧
      final.Issued utcDates placement ∧
      getOrders utcDates ⟨some "anna@mail"⟩ true final.database = some (.ok shown) ∧
      shown.length = 1 := by
  obtain ⟨final, hrun, hdistinct, -, number, hnumber⟩ := lunch_runs
  have hone : (run (step utcDates) (launched oneMenu) lunch).any (fun final =>
      decide ((final.accounts "anna@mail").issued.length = 1)) = true := by
    decide +kernel
  rw [hrun, Option.any_some, decide_eq_true_eq] at hone
  obtain ⟨htold, hsettled⟩ := confirmed_orders_reach_everyone utcDates_lawful rfl hrun hdistinct
  obtain ⟨placement, -, hslip, hissued⟩ := htold "anna@mail" 0 number hnumber
  obtain ⟨placements, hcontents, hcustomers, -⟩ := hsettled (lunch_settled hrun)
  obtain ⟨shown, hshown, history, hperm, -, hforall⟩ := hcustomers "anna@mail"
  have hlength := congrArg List.length (hcontents "anna@mail")
  rw [List.length_map, List.length_map, hone] at hlength
  refine ⟨final, placement, shown, hrun, hslip ▸ hnumber, hissued, hshown, ?_⟩
  rw [← hforall.length_eq, hperm.length_eq, hlength]

end Program

end QFree
