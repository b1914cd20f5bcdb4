/-
  Server/Provenance.lean --- where the products of an order come from.

  A `makeOrder` writes what its `getBasket` was answered with, the database holds for
  an account what one of its saves left or an order emptied, and a save is a
  `postBasket` of the account.  So the products of every order are those of a basket
  that its account has posted, and this goes for every order on any screen, however
  the calls and the screens interleave (`screens_show_posted_baskets`).
-/
import QFree.Server.ScreenContents

set_option autoImplicit false

namespace QFree

open QFree.Foundation QFree.FirebaseHandler

namespace Traffic

section Posts

variable {Date : Type} (dates : DateLibrary Date) (events : List (TrafficEvent Date))

/-- The account has posted the basket, with a connection. -/
def Posted (user : String) (basket : Basket) : Prop :=
  ∃ id entries, .postBasket id user basket entries true ∈ events

/-- Whatever is stored, on its way or ordered was posted. -/
structure FromPosts (state : Traffic Date) (ledger : Ledger Date) : Prop where
  tracks : state.Tracks dates ledger
  baskets : ∀ user, ledger.baskets user = ∅ ∨ Posted events user (ledger.baskets user)
  saves : ∀ id save, state.saves id = some save → Posted events save.user save.basket
  reads : ∀ id user value, state.reads id = some (.answered user value) →
    ∃ basket, HoldsBasket value basket ∧ (basket = ∅ ∨ Posted events user basket)
  orders : ∀ order ∈ state.orders,
    ∃ basket, Posted events order.1.user basket ∧ basket.Enumerates order.1.products

variable {dates events} {state : Traffic Date} {ledger : Ledger Date}

/-- A write of an order empties a basket, if any. -/
theorem baskets_perform {issued : Placement Date} {arrived : Nat} {command : LedgerCommand Date}
    (hcommand : (issued.commands dates)[arrived]? = some command) (ledger : Ledger Date)
    (user : String) :
    (ledger.perform command).baskets user = ∅ ∨
      (ledger.perform command).baskets user = ledger.baskets user := by
  match arrived with
  | 0 | 1 =>
      obtain rfl := Option.some.inj hcommand
      exact .inr rfl
  | 2 =>
      obtain rfl := Option.some.inj hcommand
      rw [Ledger.saveBasket_baskets]
      by_cases huser : user = issued.user
      · subst huser
        exact .inl (Function.update_self _ _ _)
      · exact .inr (Function.update_of_ne huser _ _)
  | arrived + 3 => cases hcommand

/-- An order of a posted basket: what was read is that basket, and it is not empty. -/
theorem posted_of_delivered {user : String} {value : Json} {held basket : Basket}
    {entries : List (ProductInfo × Int64)} {restaurants : List Restaurant}
    {restaurant : Restaurant} (hheld : HoldsBasket value held)
    (hposted : held = ∅ ∨ Posted events user held)
    (hbasket : getBasketResponse value = some basket) (hentries : basket.Enumerates entries)
    (hrestaurant : orderRestaurant restaurants entries = some restaurant) :
    ∃ found, Posted events user found ∧ found.Enumerates entries := by
  obtain ⟨stored, hstored, rfl⟩ := hheld
  obtain rfl := getBasketResponse_enumerated hstored hbasket
  rcases hposted with rfl | hposted
  · exact absurd (Dictionary.Enumerates.empty_iff.mp hentries)
      (ne_nil_of_orderRestaurant hrestaurant)
  · exact ⟨_, hposted, hentries⟩

theorem fromPosts_step {next : Traffic Date} {event : TrafficEvent Date}
    (h : state.FromPosts dates events ledger) (hevent : event ∈ events)
    (hstep : state.step dates event = some next) :
    next.FromPosts dates events ((state.commands dates event).foldl Ledger.perform ledger) := by
  have htracks := tracks_step h.tracks hstep
  cases transition_of_step hstep with
  | @posted id user basket entries isConnected hconnected hentries =>
      subst hconnected
      refine ⟨htracks, h.baskets, fun other save hsave => ?_, h.reads, h.orders⟩
      rcases of_update_eq_some hsave with ⟨-, hnew⟩ | hold
      · cases hnew
        exact ⟨id, entries, hevent⟩
      · exact h.saves other save hold
  | asked =>
      refine ⟨htracks, h.baskets, h.saves, fun other user value hread => ?_, h.orders⟩
      rcases of_update_eq_some hread with ⟨-, hnew⟩ | hold
      · cases hnew
      · exact h.reads other user value hold
  | refused event hcommands =>
      rw [hcommands]
      exact h
  | @answered id user hwaiting =>
      refine ⟨htracks, h.baskets, h.saves, fun other reader value hread => ?_, h.orders⟩
      rcases of_update_eq_some hread with ⟨-, hnew⟩ | hold
      · cases hnew
        exact ⟨_, h.tracks.represents.baskets user, h.baskets user⟩
      · exact h.reads other reader value hold
  | cancelled hread =>
      refine ⟨htracks, h.baskets, h.saves, fun other user value hread => ?_, h.orders⟩
      rcases of_update_eq_some hread with ⟨-, hnew⟩ | hold
      · cases hnew
      · exact h.reads other user value hold
  | @delivered id user value number restaurants basket entries now later readyDate restaurant
      hread hbasket hentries hrestaurant hready =>
      refine ⟨htracks, h.baskets, h.saves, fun other reader answer hanswer => ?_,
        fun order hmem => ?_⟩
      · rcases of_update_eq_some hanswer with ⟨-, hnew⟩ | hold
        · cases hnew
        · exact h.reads other reader answer hold
      · rcases List.mem_append.mp hmem with hold | hnew
        · exact h.orders order hold
        · rw [List.mem_singleton.mp hnew]
          obtain ⟨held, hheld, hposted⟩ := h.reads id user value hread
          exact posted_of_delivered hheld hposted hbasket hentries hrestaurant
  | @saved id save hsave =>
      have hcommands : state.commands dates (.saveArrives id) =
          [.saveBasket save.user save.basket] := by
        rw [commands, hsave]
        rfl
      rw [hcommands] at htracks ⊢
      refine ⟨htracks, fun user => ?_, fun other saved hsaved => ?_, h.reads, h.orders⟩
      · rw [List.foldl_cons, List.foldl_nil, Ledger.saveBasket_baskets]
        by_cases huser : user = save.user
        · subst huser
          rw [Function.update_self]
          exact .inr (h.saves id save hsave)
        · rw [Function.update_of_ne huser]
          exact h.baskets user
      · rcases of_update_eq_some hsaved with ⟨-, hnew⟩ | hold
        · cases hnew
        · exact h.saves other saved hold
  | @arrived index arrived issued write horder hwrite =>
      have hlength : arrived < (issued.commands dates).length :=
        (List.getElem?_eq_some_iff.mp hwrite).1
      obtain ⟨command, hcommand⟩ : ∃ command, (issued.commands dates)[arrived]? = some command :=
        ⟨_, List.getElem?_eq_getElem hlength⟩
      have hcommands : state.commands dates (.orderArrives index) = [command] := by
        rw [commands, horder, Option.bind_some, hcommand]
        rfl
      rw [hcommands] at htracks ⊢
      refine ⟨htracks, fun user => ?_, h.saves, h.reads, fun order hset => ?_⟩
      · rcases baskets_perform hcommand ledger user with hempty | hsame
        · exact .inl hempty
        · exact (hsame ▸ h.baskets user : _)
      · rcases List.mem_or_eq_of_mem_set hset with hold | rfl
        · exact h.orders order hold
        · exact h.orders (issued, arrived) (List.mem_of_getElem? horder)

/-- After a run without baskets and orders before it. -/
theorem fromPosts_run {database : Json} (hempty : database.get ["Users"] = .null)
    {final : Traffic Date} (hrun : run (step dates) (quiet database) events = some final) :
    ∃ ledger, final.FromPosts dates events ledger := by
  have hquiet : (quiet database).FromPosts dates events .empty :=
    ⟨tracks_quiet (represents_empty hempty) Ledger.sound_empty, fun _ => .inl rfl, nofun, nofun,
      nofun⟩
  have hmem : Along (step dates) (fun _ event => event ∈ events) (quiet database) events :=
    along_of_forall_mem (quiet database) fun _ hevent => hevent
  exact run_invariant_of_along (fun _ event => event ∈ events)
    (fun state => ∃ ledger, state.FromPosts dates events ledger)
    (fun _ _ _ ⟨_, h⟩ hevent hstep => ⟨_, fromPosts_step h hevent hstep⟩) ⟨_, hquiet⟩ hmem hrun

end Posts

end Traffic

/-! ## On the screens -/

/-- The events of the traffic. -/
def AppsEvent.traffics {Date : Type} : AppsEvent Date → List (TrafficEvent Date)
  | .traffic event => [event]
  | _ => []

namespace Apps

section Screens

variable {Date : Type} {dates : DateLibrary Date} {database : Json}
  {events : List (AppsEvent Date)} {final : Apps Date}

/-- The traffic below the screens is a traffic of its own. -/
theorem traffic_run {state : Apps Date} (hrun : run (step dates) state events = some final) :
    run (Traffic.step dates) state.traffic (events.flatMap AppsEvent.traffics) =
      some final.traffic := by
  refine run_part Apps.traffic AppsEvent.traffics (fun state event next hstep => ?_) hrun
  cases transition_of_step hstep with
  | traffic htraffic => exact run_cons_eq_some.mpr ⟨_, htraffic, rfl⟩
  | loaded | asked | refused | opened | answered | shown | shownAll | pushed | selected
  | completed | closed => rfl

/-- The account has posted the basket, with a connection. -/
def Posted (events : List (AppsEvent Date)) (user : String) (basket : Basket) : Prop :=
  ∃ id entries, .traffic (.postBasket id user basket entries true) ∈ events

/-- An order that has arrived is of a posted basket. -/
theorem posted_of_arrived (hempty : database.get ["Users"] = .null)
    (hrun : run (step dates) (launched database) events = some final)
    {kind : Placement Date → Prop} [DecidablePred kind] {issued : Placement Date}
    (hmem : issued ∈ final.traffic.arrivedOrders kind) :
    ∃ basket, Posted events issued.user basket ∧ basket.Enumerates issued.products := by
  obtain ⟨ledger, hposts⟩ := Traffic.fromPosts_run hempty (traffic_run hrun)
  obtain ⟨order, horder, rfl⟩ := List.mem_map.mp hmem
  obtain ⟨basket, ⟨id, entries, hposted⟩, hproducts⟩ :=
    hposts.orders order (List.mem_filter.mp horder).1
  obtain ⟨event, hevent, hin⟩ := List.mem_flatMap.mp hposted
  cases event with
  | traffic inner =>
      obtain rfl := List.mem_singleton.mp hin
      exact ⟨basket, ⟨id, entries, hevent⟩, hproducts⟩
  | _ => cases hin

/-- In every run at different places, every order on a customer's screens has the
products of a basket that the account of the tab has posted; and every order on a split
screen those of a basket that the account it is stored under has posted, and its price,
if nothing in it is negative. -/
theorem screens_show_posted_baskets (hlawful : dates.Lawful)
    (hempty : database.get ["Users"] = .null)
    (hrun : run (step dates) (launched database) events = some final)
    (hdistinct : (final.traffic.issuedPlaces dates).Nodup) :
    (∀ tab screen order, final.tabs tab = some screen →
      order ∈ screen.orders ∨ order ∈ screen.pushed →
        ∃ basket, Posted events screen.user basket ∧ basket.Enumerates order.products) ∧
    ∀ split screen order, final.splits split = some screen →
      order ∈ screen.orders ∨ screen.orderScreen.order = some order →
        ∃ basket, Posted events order.user basket ∧ basket.Enumerates order.info.products ∧
          (basket.NonNegative → order.info.totalPrice = exactly basket.exactPrice) := by
  have hrecorded := recorded_run hempty hrun
  refine ⟨fun tab screen order htab horder => ?_, fun split screen order hsplit horder => ?_⟩
  · obtain ⟨issued, hissued, hshownAs⟩ := placed_of_shown hlawful hempty hdistinct
      ((hrecorded.tabs tab screen htab).once horder)
    obtain ⟨basket, hposted, hproducts⟩ := posted_of_arrived hempty hrun hissued
    have huser : issued.user = screen.user := Traffic.kind_of_mem_arrivedOrders hissued
    refine ⟨basket, huser ▸ hposted, ?_⟩
    rw [hshownAs.others]
    exact hproducts
  · obtain ⟨issued, hissued, rfl⟩ := placed_of_stored hempty hdistinct
      ((hrecorded.splits split screen hsplit).once horder)
    obtain ⟨basket, hposted, hproducts⟩ := posted_of_arrived hempty hrun hissued
    have horderOf : (issued.stored dates).info.IsOrderOf issued.slip.number basket :=
      ⟨rfl, rfl, hproducts⟩
    exact ⟨basket, hposted, hproducts, fun hnonneg =>
      OrderInfo.totalPrice_of_isOrderOf horderOf hnonneg⟩

end Screens

theorem screens_show_posted_baskets_evening :
    ∃ final screen, run (step utcDates) (launched .null) evening = some final ∧
      final.splits 0 = some screen ∧ ∀ order ∈ screen.orders,
        ∃ basket, Posted evening order.user basket ∧ basket.Enumerates order.info.products := by
  obtain ⟨final, hrun, hdistinct, -, ⟨screen, hsplit, -⟩, -⟩ := evening_runs
  refine ⟨final, screen, hrun, hsplit, fun order hmem => ?_⟩
  obtain ⟨basket, hposted, hproducts, -⟩ :=
    (screens_show_posted_baskets utcDates_lawful rfl hrun hdistinct).2 0 screen order hsplit
      (.inl hmem)
  exact ⟨basket, hposted, hproducts⟩

end Apps

end QFree
