/-
  Account/NoEmptyLines.lean --- entries of amount 0.

  Whether there is anything in a basket is asked in two ways: `checkRestaurantId`
  and the Basket screen ask for keys, the rows of a menu show amounts.  They agree
  as long as no entry has the amount 0.  A minus tap never removes an entry, so it
  leaves one of amount 0 when it takes the last piece.

  `no_empty_lines_iff`: from an empty stored basket, all states of a run are free
  of empty lines exactly when no tap took a last piece.
-/
import QFree.Account.EveryBasket

set_option autoImplicit false

namespace QFree

open QFree.Foundation QFree.FirebaseHandler

/-! ## Baskets without empty lines -/

namespace Basket

/-- A product has an entry exactly when its amount is at least 1. -/
def NoEmptyLine (basket : Basket) : Prop :=
  ∀ product, product ∈ basket ↔ 1 ≤ basket.amount product

theorem noEmptyLine_iff {basket : Basket} :
    basket.NoEmptyLine ↔
      ∀ product amount, basket.lookup product = some amount → 1 ≤ amount.toInt := by
  constructor
  · intro h product amount hlookup
    rw [← amount_of_lookup hlookup]
    exact (h product).mp (Finmap.mem_of_lookup_eq_some hlookup)
  · intro h product
    cases hlookup : basket.lookup product with
    | none =>
        have hmem := Finmap.lookup_eq_none.mp hlookup
        rw [amount_of_notMem hmem]
        exact iff_of_false hmem (by decide)
    | some amount =>
        rw [amount_of_lookup hlookup]
        exact iff_of_true (Finmap.mem_of_lookup_eq_some hlookup) (h product amount hlookup)

theorem noEmptyLine_empty : NoEmptyLine ∅ := by
  refine noEmptyLine_iff.mpr fun product amount hlookup => ?_
  rw [Finmap.lookup_empty] at hlookup
  cases hlookup

theorem noEmptyLine_insert {basket : Basket} (h : basket.NoEmptyLine) (product : ProductInfo)
    {amount : Int64} (hamount : 1 ≤ amount.toInt) :
    NoEmptyLine (basket.insert product amount) := by
  rw [noEmptyLine_iff] at h ⊢
  exact Dictionary.forall_lookup_insert h hamount

theorem amount_nonneg {basket : Basket} (h : basket.NoEmptyLine) (product : ProductInfo) :
    0 ≤ basket.amount product := by
  by_cases hmem : product ∈ basket
  · exact le_trans (by decide) ((h product).mp hmem)
  · exact (amount_of_notMem hmem).ge

/-- A basket from which everything was taken out has no keys. -/
theorem eq_empty_of_taken_out {basket : Basket} (h : basket.NoEmptyLine)
    (hout : ∀ product, basket.amount product = 0) : basket = ∅ := by
  refine Finmap.ext_lookup fun product => ?_
  rw [Finmap.lookup_empty, Finmap.lookup_eq_none, h product, hout product]
  decide

end Basket

/-! ## Taps -/

namespace MenuController

variable {menu next : MenuController}

/-- The tap takes the last piece of a product. -/
def TakesLast (menu : MenuController) : MenuEvent → Prop
  | .minus row => ∃ product ∈ menu.products[row]?, menu.basket.lookup product = some 1
  | _ => False

instance (menu : MenuController) : DecidablePred menu.TakesLast
  | .minus row => inferInstanceAs (Decidable
      (∃ product ∈ menu.products[row]?, menu.basket.lookup product = some 1))
  | .add _ _ | .basketResult _ | .productsResult _ | .clear | .cancel => .isFalse id

theorem noEmptyLine_of_tap {tap : MenuEvent} (htap : tap.isTap = true)
    (h : menu.basket.NoEmptyLine) (hlast : ¬menu.TakesLast tap)
    (hchanged : menu.handle tap = some next) : next.basket.NoEmptyLine := by
  cases outcome_of_handle hchanged with
  | basketLoaded | productsLoaded | basketFailed | productsFailed => cases htap
  | @added row keys product amount hkeys hcheck hproduct hamount =>
      refine Basket.noEmptyLine_insert h product ?_
      have hsum := exactly_eq_some.mp hamount
      have hnonneg := Basket.amount_nonneg h product
      rw [Int64.toInt_one] at hsum
      exact hsum ▸ Int.add_le_add_right hnonneg 1
  | asked => exact h
  | @lessened row product amount less hproduct hamount hne hless =>
      refine Basket.noEmptyLine_insert h product ?_
      have hpos := Basket.noEmptyLine_iff.mp h product amount hamount
      have hnew : less.toInt = amount.toInt - 1 := Int64.toInt_one ▸ exactly_eq_some.mp hless
      have hlast : amount.toInt ≠ 1 := by
        intro heq
        rw [← Int64.toInt_one, Int64.toInt_inj] at heq
        exact hlast ⟨product, hproduct, heq ▸ hamount⟩
      omega
  | noneLeft => exact h
  | cleared => exact Basket.noEmptyLine_empty
  | cancelled => exact h

/-- Taking the last piece leaves an empty line. -/
theorem not_noEmptyLine_of_takesLast {tap : MenuEvent} (hlast : menu.TakesLast tap)
    (hchanged : menu.handle tap = some next) : ¬next.basket.NoEmptyLine := by
  intro h
  cases outcome_of_handle hchanged with
  | @lessened row product amount less hproduct hamount hne hless =>
      obtain ⟨other, hother, hlookup⟩ := hlast
      obtain rfl : product = other := Option.some.inj (hproduct.symm.trans hother)
      rw [hamount, Option.some.injEq] at hlookup
      have hpos := Basket.noEmptyLine_iff.mp h product less (Finmap.lookup_insert _)
      have hzero := exactly_eq_some.mp hless
      rw [hlookup] at hzero
      omega
  | @noneLeft row product hproduct hamount =>
      obtain ⟨other, hother, hlookup⟩ := hlast
      obtain rfl : product = other := Option.some.inj (hproduct.symm.trans hother)
      rw [hamount, Option.some.injEq] at hlookup
      exact absurd hlookup (by decide)
  | _ => cases hlast

end MenuController

/-! ## The account -/

namespace AccountState

/-- No basket and no order of the state has an empty line, and a basket from which
everything was taken out counts as empty: a menu of any restaurant accepts taps on
it, and the Basket screen hides the order button. -/
structure NoEmptyLines (user : String) (state : AccountState) : Prop where
  menus : ∀ menu controller, state.menus menu = some controller → controller.basket.NoEmptyLine
  screens : ∀ screen, (state.screens screen).basket.NoEmptyLine
  stored : ∃ basket, StoresBasket state.database user basket ∧ basket.NoEmptyLine
  menus_taken_out : ∀ menu controller keys, state.menus menu = some controller →
    (∀ product, controller.basket.amount product = 0) → controller.basket.ListsKeys keys →
      controller.checkRestaurantId keys = true
  screens_taken_out : ∀ screen keys,
    (∀ product, (state.screens screen).basket.amount product = 0) →
      ((state.screens screen).updateUI keys).orderButtonIsHidden = true
  orders : ∀ order ∈ state.issued, order.entries ≠ [] ∧ ∀ entry ∈ order.entries, 1 ≤ entry.2.toInt

/-- The event is no tap that takes a last piece. -/
def TakesNoLast {Date : Type} (state : AccountState) : AccountEvent Date → Prop
  | .menuTapped menu tap => ∀ controller ∈ state.menus menu, ¬controller.TakesLast tap
  | _ => True

instance {Date : Type} (state : AccountState) :
    ∀ event : AccountEvent Date, Decidable (state.TakesNoLast event)
  | .menuTapped menu tap =>
      inferInstanceAs (Decidable (∀ controller ∈ state.menus menu, ¬controller.TakesLast tap))
  | .pushMenuVC .. | .menuWillAppear .. | .menuWillDisappear .. | .screenGetsBasket ..
  | .orderButtonPressed .. | .okButtonPressed .. | .answer .. | .cancel ..
  | .menuBasketDelivered .. | .menuProductsDelivered .. | .screenBasketDelivered ..
  | .restaurantsDelivered .. | .orderDelivered .. | .write .. => .isTrue trivial

section Step

variable {Date : Type} {dates : DateLibrary Date} {user : String}

/-- The invariant of runs that keep to the condition. -/
structure Lined (user : String) (state : AccountState) : Prop where
  baskets : state.EveryBasket Basket.NoEmptyLine user
  orders : ∀ order ∈ state.issued, order.entries ≠ [] ∧ ∀ entry ∈ order.entries, 1 ≤ entry.2.toInt

theorem lined_step {state next : AccountState} {event : AccountEvent Date}
    (h : state.Lined user) (hguard : state.TakesNoLast event)
    (hstep : state.step dates user event = some next) : next.Lined user := by
  constructor
  · refine everyBasket_step Basket.noEmptyLine_empty ?_ h.baskets hstep
    rintro menu tap controller changed rfl hmenu hchanged
    cases transition_of_step hstep with
    | menuTapped htap _ _ =>
        exact MenuController.noEmptyLine_of_tap htap (h.baskets.menus _ _ hmenu)
          (hguard controller hmenu) hchanged
  · cases transition_of_step hstep with
    | orderDelivered hrequest hbasket hentries hwrites =>
        have hkept := kept_of_read ((h.baskets.requests _ _ hrequest).2 rfl) hbasket
        intro order hmem
        rcases List.mem_append.mp hmem with hold | hnew
        · exact h.orders order hold
        · obtain ⟨restaurant, readyDate, hrestaurant, -, -⟩ :=
            orderWrites_of_makeOrderResponse hwrites
          rw [List.mem_singleton.mp hnew]
          exact ⟨ne_nil_of_orderRestaurant hrestaurant, fun entry hentry =>
            Basket.noEmptyLine_iff.mp hkept entry.1 entry.2 (hentries.mem_iff.mp hentry)⟩
    | menuAppeared hbasket hproducts =>
        rw [read_issued hproducts, read_issued hbasket]
        exact h.orders
    | screenAsked hread | orderPressed _ hread | restaurantsDelivered _ hread =>
        rw [read_issued hread]
        exact h.orders
    | _ => exact h.orders

theorem noEmptyLines_of_lined {state : AccountState} (h : state.Lined user) :
    state.NoEmptyLines user := by
  refine ⟨h.baskets.menus, h.baskets.screens, h.baskets.database, ?_, ?_, h.orders⟩
  · intro menu controller keys hmenu hout hkeys
    have hempty := Basket.eq_empty_of_taken_out (h.baskets.menus menu controller hmenu) hout
    cases keys with
    | nil => rfl
    | cons p rest =>
        have hmem := hkeys.mem_iff.mp (List.mem_cons_self (a := p) (l := rest))
        rw [hempty] at hmem
        exact absurd hmem Finmap.notMem_empty
  · intro screen keys hout
    exact decide_eq_true (Basket.eq_empty_of_taken_out (h.baskets.screens screen) hout)

theorem takesNoLast_of_step {state next : AccountState} {event : AccountEvent Date}
    (hstep : state.step dates user event = some next) (h : next.NoEmptyLines user) :
    state.TakesNoLast event := by
  cases transition_of_step hstep with
  | @menuTapped menu tap controller changed htap hmenu hchanged =>
      intro other hother hlast
      obtain rfl : controller = other := Option.some.inj (hmenu.symm.trans hother)
      refine MenuController.not_noEmptyLine_of_takesLast hlast hchanged (h.menus menu changed ?_)
      exact Function.update_self menu (some changed) state.menus
  | _ => trivial

/-- From an empty stored basket, every state of the run is free of empty lines
exactly when no tap takes a last piece. -/
theorem no_empty_lines_iff {database : Json} (hempty : StoresBasket database user ∅)
    {events : List (AccountEvent Date)} {final : AccountState}
    (hrun : run (step dates user) (initial database) events = some final) :
    (∀ k reached, run (step dates user) (initial database) (events.take k) = some reached →
        reached.NoEmptyLines user) ↔
      Along (step dates user) TakesNoLast (initial database) events :=
  forall_take_iff_along TakesNoLast (Lined user) (NoEmptyLines user)
    (fun _ _ _ h hguard hstep => lined_step h hguard hstep)
    (fun _ h => noEmptyLines_of_lined h)
    (fun _ _ _ _ hstep h => takesNoLast_of_step hstep h)
    ⟨everyBasket_initial hempty Basket.noEmptyLine_empty Basket.noEmptyLine_empty, nofun⟩ hrun

end Step

/-- A database with one product and no basket. -/
def emptyAccount : Json :=
  .object [("Products", .array [.object [
    ("category", .array [.string "Кофе"]), ("name", .string "Latte"),
    ("image", .string "l.png"), ("price", .string "199"), ("restaurantID", .string "0")]])]

theorem emptyAccount_stores : StoresBasket emptyAccount "user@mail" ∅ := by
  have hnull : emptyAccount.get (basketPath "user@mail") = .null := rfl
  rw [StoresBasket, hnull]
  exact holdsBasket_null

/-- A menu of restaurant 0 loads the product. -/
def openMenu : List (AccountEvent Nat) :=
  [ .pushMenuVC 0 "0", .menuWillAppear 0 0 1 true true, .answer 1, .menuProductsDelivered 1]

/-- Two add taps and a minus tap. -/
theorem no_empty_lines_iff_sample :
    ∃ final, run (step utcDates "user@mail") (initial emptyAccount)
        (openMenu ++ [.menuTapped 0 (.add 0 []),
          .menuTapped 0 (.add 0 [⟨"Latte", 199, "l.png", [.coffee], "0"⟩]),
          .menuTapped 0 (.minus 0)]) = some final ∧
      final.NoEmptyLines "user@mail" := by
  have hsome : (run (step utcDates "user@mail") (initial emptyAccount)
      (openMenu ++ [.menuTapped 0 (.add 0 []),
        .menuTapped 0 (.add 0 [⟨"Latte", 199, "l.png", [.coffee], "0"⟩]),
        .menuTapped 0 (.minus 0)])).isSome = true := by decide
  obtain ⟨final, hrun⟩ := Option.isSome_iff_exists.mp hsome
  exact ⟨final, hrun, (no_empty_lines_iff emptyAccount_stores hrun).mpr (by decide) 7 final hrun⟩

/-- One add tap and one minus tap leave an entry of amount 0. -/
theorem last_piece_leaves_empty_line :
    ∃ database events final,
      StoresBasket database "user@mail" ∅ ∧
        run (step utcDates "user@mail") (initial database) events = some final ∧
        ¬final.NoEmptyLines "user@mail" := by
  have hany : (run (step utcDates "user@mail") (initial emptyAccount)
      (openMenu ++ [.menuTapped 0 (.add 0 []), .menuTapped 0 (.minus 0)])).any (fun final =>
        (final.menus 0).any fun controller =>
          controller.basket.lookup ⟨"Latte", 199, "l.png", [.coffee], "0"⟩ = some 0) = true := by
    decide
  obtain ⟨final, hrun, hfinal⟩ := (Option.any_eq_true _ _).mp hany
  obtain ⟨controller, hmenu, hzero⟩ := (Option.any_eq_true _ _).mp hfinal
  refine ⟨emptyAccount, _, final, emptyAccount_stores, hrun, fun h => ?_⟩
  have hpos := Basket.noEmptyLine_iff.mp (h.menus 0 controller hmenu) _ 0 (of_decide_eq_true hzero)
  exact absurd hpos (by decide)

end AccountState

end QFree
