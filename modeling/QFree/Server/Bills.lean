/-
  Server/Bills.lean --- the sums that the kitchens read.

  The panel adds up an order when it is selected and again when its status is set, in
  arithmetic that traps; between the two the text stays.  Whatever comes in between,
  the text is the exact price of the order that is selected, at the prices that are
  stored for its products, and the order is one that was issued; and if no stored price
  is negative, an order can be selected exactly if its price is in range
  (`panels_add_up`).
-/
import QFree.Server.Stops

set_option autoImplicit false

namespace QFree

open QFree.Foundation QFree.FirebaseHandler

/-! ## The price of an order -/

/-- The mathematical price of an order. -/
def OrderInfo.exactPrice (order : OrderInfo) : Int :=
  sumOfProducts (order.products.map fun entry => (entry.1.price, entry.2))

theorem OrderInfo.exactPrice_of_totalPrice {order : OrderInfo} {total : Int64}
    (h : order.totalPrice = some total) : total.toInt = order.exactPrice := by
  have hstart : (0 : Int64).toInt = 0 := by decide
  have hsum := toInt_of_sumTrapping h
  rwa [hstart, zero_add] at hsum

/-- The text says the exact price of the order. -/
def OrderInfo.Says (order : OrderInfo) (text : String) : Prop :=
  ∃ total : Int64, text = "Итого: " ++ intText total ∧ total.toInt = order.exactPrice

/-! ## What the panel says -/

/-- The panel belongs to the order of the screen, and says its price. -/
structure OrderViewController.Billed (screen : OrderViewController) : Prop where
  consistent : screen.Consistent
  unselected : screen.order = none → screen.bottomPanelView.sumText = none
  selected : ∀ order, screen.order = some order →
    ∃ text, screen.bottomPanelView.sumText = some text ∧ order.info.Says text

namespace OrderViewController

theorem billed_initial : initial.Billed := ⟨consistent_initial, fun _ => rfl, nofun⟩

theorem says_of_setOrder {panel next : OrderInfoBottomPanel} {order : StoredOrder}
    (h : panel.setOrder order = some next) :
    ∃ text, next.sumText = some text ∧ order.info.Says text := by
  obtain ⟨total, htotal, hnext⟩ := Option.bind_eq_some_iff.mp h
  rw [← Option.some.inj hnext]
  exact ⟨_, rfl, total, rfl, OrderInfo.exactPrice_of_totalPrice htotal⟩

variable {screen next : OrderViewController}

theorem billed_updateOrderInfo {order : StoredOrder}
    (h : screen.updateOrderInfo order = some next) : next.Billed := by
  have hnext := order_of_updateOrderInfo h
  refine ⟨consistent_updateOrderInfo h, fun hnone => ?_, fun other hother => ?_⟩
  · rw [hnext] at hnone
    cases hnone
  · obtain rfl := Option.some.inj (hnext.symm.trans hother)
    obtain ⟨panel, hpanel, hscreen⟩ := Option.bind_eq_some_iff.mp h
    rw [← Option.some.inj hscreen]
    exact says_of_setOrder hpanel

/-- The copy in the panel costs what the order costs. -/
theorem exactPrice_of_copy (h : screen.Consistent) {order shown : StoredOrder}
    (horder : screen.order = some order) (hshown : screen.bottomPanelView.order = some shown) :
    shown.info.exactPrice = order.info.exactPrice := by
  rcases h.copy with hsame | ⟨copied, hcopied, hcompleted⟩
  · obtain rfl := Option.some.inj (hshown.symm.trans (hsame.trans horder))
    rfl
  · obtain rfl := Option.some.inj (hcopied.symm.trans horder)
    obtain rfl := Option.some.inj (hshown.symm.trans hcompleted)
    rfl

theorem billed_completeOrder (h : screen.Billed) {panel : OrderInfoBottomPanel}
    (hpressed : screen.bottomPanelView.completeOrder = some panel) :
    { screen with bottomPanelView := panel }.Billed := by
  have hconsistent := consistent_completeOrder h.consistent hpressed
  unfold OrderInfoBottomPanel.completeOrder at hpressed
  split at hpressed
  · obtain rfl := Option.some.inj hpressed
    exact h
  · rename_i shown hshown
    refine ⟨hconsistent, fun hnone => ?_, fun order horder => ?_⟩
    · -- the panel has no order of its own
      rcases h.consistent.copy with hsame | ⟨copied, hcopied, -⟩
      · cases hshown.symm.trans (hsame.trans hnone)
      · cases hcopied.symm.trans hnone
    · have hprice := exactPrice_of_copy h.consistent horder hshown
      obtain ⟨text, htext, total, hsays, htotal⟩ := says_of_setOrder hpressed
      exact ⟨text, htext, total, hsays, htotal.trans hprice⟩

end OrderViewController

namespace Apps

section Screens

variable {Date : Type} {dates : DateLibrary Date} {database : Json}

/-- What the order screens have from the beginning and keep when an order is selected or
completed, they always have. -/
theorem orderScreen_of_run (condition : OrderViewController → Prop)
    (hinitial : condition .initial)
    (hselected : ∀ (screen : OrderViewController) order next,
      screen.updateOrderInfo order = some next → condition next)
    (hcompleted : ∀ screen panel, condition screen →
      screen.bottomPanelView.completeOrder = some panel →
        condition { screen with bottomPanelView := panel })
    {events : List (AppsEvent Date)} {final : Apps Date}
    (hrun : run (step dates) (launched database) events = some final) :
    ∀ split screen, final.splits split = some screen → condition screen.orderScreen := by
  refine run_invariant (fun state => ∀ split screen, state.splits split = some screen →
    condition screen.orderScreen) (fun state event next h hstep => ?_) nofun hrun
  cases transition_of_step hstep with
  | traffic | loaded | asked | refused | answered | shown | pushed => exact h
  | opened hsplit => exact forall_update h _ hinitial
  | @shownAll fetch split value screen orders hfetch hsplit horders =>
      refine forall_update h split ?_
      split <;> exact h split screen hsplit
  | @selected split row screen order orderScreen hsplit hrow hupdate =>
      exact forall_update h split (hselected screen.orderScreen order orderScreen hupdate)
  | @completed split screen panel hsplit hpressed =>
      exact forall_update h split
        (hcompleted screen.orderScreen panel (h split screen hsplit) hpressed)
  | @closed split screen hsplit => exact forall_update h split (h split screen hsplit)

theorem billed_run {events : List (AppsEvent Date)} {final : Apps Date}
    (hrun : run (step dates) (launched database) events = some final) {split : Nat}
    {screen : SplitScreen} (hsplit : final.splits split = some screen) :
    screen.orderScreen.Billed :=
  orderScreen_of_run OrderViewController.Billed OrderViewController.billed_initial
    (fun _ _ _ => OrderViewController.billed_updateOrderInfo)
    (fun _ _ h hpressed => OrderViewController.billed_completeOrder h hpressed) hrun split screen
    hsplit

end Screens

end Apps

/-! ## Bills of the program -/

/-- On a menu without negative prices, no order has a negative term. -/
theorem OnMenuOf.nonneg {catalogue : Json} {restaurantName : String}
    {entries : List (ProductInfo × Int64)} (h : OnMenuOf catalogue restaurantName entries)
    (hprices : ∀ product, Offered catalogue product → 0 ≤ product.price.toInt) :
    ∀ entry ∈ entries, 0 ≤ entry.1.price.toInt ∧ 0 ≤ entry.2.toInt := by
  obtain ⟨-, restaurantID, index, restaurants, restaurant, products, -, -, -, -, hproducts, hall⟩ :=
    h
  intro entry hentry
  obtain ⟨hmem, hamount⟩ := hall entry hentry
  exact ⟨hprices entry.1 (offered_of_getProductsResponse hproducts entry.1 hmem), hamount⟩

namespace Program

section Bills

variable {Date : Type} {dates : DateLibrary Date} {database : Json}
  {events : List (ProgramEvent Date)} {final : Program}

/-- A row can be selected unless its order cannot be added up. -/
theorem updateOrderInfo_eq_none_iff {split row : Nat} {screen : SplitScreen}
    {order : StoredOrder} (hsplit : final.splits split = some screen)
    (hopen : screen.isOpen = true) (hrow : screen.orders[row]? = some order) :
    final.step dates (.orders (.updateOrderInfo split row)) = none ↔
      order.info.totalPrice = none := by
  rw [← OrderViewController.updateOrderInfo_eq_none_iff screen.orderScreen order]
  cases hupdate : screen.orderScreen.updateOrderInfo order <;>
    simp [step, Apps.step, AppsEvent.traffics, orderScreens, hsplit, hopen, hrow, hupdate]

/-- In every run of the program over a server without users in which the orders of each
account have different places: on a split screen without a selected order the panel says
nothing, and on any other it says the exact price of the selected order, which was issued
for the name of the split screen from its menu; and if no price of the menus is negative,
a row of an open split screen can be selected exactly if the price of its order is below
`2 ^ 63`. -/
theorem panels_add_up (hempty : database.get ["Users"] = .null)
    (hrun : run (step dates) (launched database) events = some final)
    (hdistinct : ∀ user, ((final.accounts user).issued.map IssuedOrder.place).Nodup) :
    (∀ split screen, final.splits split = some screen →
      (screen.orderScreen.order = none → screen.orderScreen.bottomPanelView.sumText = none) ∧
      ∀ order, screen.orderScreen.order = some order →
        (∃ text, screen.orderScreen.bottomPanelView.sumText = some text ∧
          order.info.Says text) ∧
        OnMenuOf database screen.restaurantName order.info.products ∧
        ∃ placement, placement.slip.restaurant.name = screen.restaurantName ∧
          final.Issued dates placement ∧ order = placement.stored dates) ∧
    ((∀ product, Offered database product → 0 ≤ product.price.toInt) →
      ∀ split screen row order, final.splits split = some screen → screen.isOpen = true →
        screen.orders[row]? = some order →
          (final.step dates (.orders (.updateOrderInfo split row)) ≠ none ↔
            order.info.exactPrice < 2 ^ 63)) := by
  obtain ⟨matching, apps, happs, hruns⟩ := runsAs_run hrun
  have hplaces := hruns.nodup_issuedPlaces hdistinct
  refine ⟨fun split screen hsplit => ?_, fun hprices split screen row order hsplit hopen hrow => ?_⟩
  · have hbilled : screen.orderScreen.Billed := by
      rw [← hruns.splits] at hsplit
      exact Apps.billed_run happs hsplit
    refine ⟨hbilled.unselected, fun order horder => ⟨hbilled.selected order horder, ?_⟩⟩
    obtain ⟨placement, hname, hissued, hstored⟩ :=
      hruns.issued_of_split hempty happs hplaces hsplit (.inr horder)
    refine ⟨?_, placement, hname, hissued, hstored⟩
    rw [hstored, ← hname]
    exact onMenuOf_of_issued hempty hrun hissued
  · obtain ⟨placement, hname, hissued, rfl⟩ :=
      hruns.issued_of_split hempty happs hplaces hsplit (.inl (List.mem_of_getElem? hrow))
    have hnonneg := (onMenuOf_of_issued hempty hrun hissued).nonneg hprices
    rw [ne_eq, updateOrderInfo_eq_none_iff hsplit hopen hrow, Apps.totalPrice_eq_none_iff hnonneg,
      not_le]
    rfl

end Bills

/-- The kitchen has an order of the lunch on its screen. -/
theorem panels_add_up_lunch :
    ∃ final screen order text, run (step utcDates) (launched oneMenu) lunch = some final ∧
      final.splits 0 = some screen ∧ screen.orderScreen.order = some order ∧
      screen.orderScreen.bottomPanelView.sumText = some text ∧ order.info.Says text ∧
      (final.step utcDates (.orders (.updateOrderInfo 0 0)) ≠ none ↔
        order.info.exactPrice < 2 ^ 63) := by
  have hany : (run (step utcDates) (launched oneMenu) lunch).any (fun final =>
      (final.splits 0).any fun screen => screen.isOpen && screen.orderScreen.order.any fun order =>
        decide (screen.orders[0]? = some order)) = true := by
    decide +kernel
  obtain ⟨final, hrun, hfinal⟩ := (Option.any_eq_true _ _).mp hany
  obtain ⟨screen, hsplit, hscreen⟩ := (Option.any_eq_true _ _).mp hfinal
  obtain ⟨hopen, hselected⟩ := Bool.and_eq_true_iff.mp hscreen
  obtain ⟨order, horder, hrow⟩ := (Option.any_eq_true _ _).mp hselected
  obtain ⟨reached, hreached, hdistinct, -⟩ := lunch_runs
  obtain rfl := Option.some.inj (hrun.symm.trans hreached)
  have hprices : ∀ product, Offered oneMenu product → 0 ≤ product.price.toInt := by
    intro product hoffered
    rw [List.mem_singleton.mp (mem_of_offered_oneMenu hoffered)]
    decide
  obtain ⟨hpanels, hrows⟩ := panels_add_up rfl hrun hdistinct
  obtain ⟨⟨text, htext, hsays⟩, -⟩ := (hpanels 0 screen hsplit).2 order horder
  exact ⟨final, screen, order, text, hrun, hsplit, horder, htext, hsays,
    hrows hprices 0 screen 0 order hsplit hopen (of_decide_eq_true hrow)⟩

end Program

end QFree
