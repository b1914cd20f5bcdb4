/-
  Menu/Taps.lean --- taps on the rows of a loaded menu.

  The amounts of a basket are meant to be counters: an add tap counts up, a minus
  tap counts down and stays at 0.  `counter` is that reading of a list of taps;
  `Lands` says when the callback of a tap does not trap, from the taps before it:

      add      the counter of the product is below the largest integer
      minus    the product has an entry: one that was loaded, or one that an
               earlier add tap made

  `taps_are_counters_iff`: after both loads, a list of taps is performed and
  leaves the counters exactly when every tap of it lands.
-/
import QFree.Foundation.Run
import QFree.Menu.Controller

set_option autoImplicit false

namespace QFree

open QFree.Foundation

/-! ## Counters -/

namespace MenuEvent

/-- The event is an add tap on a row of the product. -/
def Adds (products : List ProductInfo) (product : ProductInfo) : MenuEvent → Prop
  | .add row _ => products[row]? = some product
  | _ => False

instance (products : List ProductInfo) (product : ProductInfo) :
    DecidablePred (Adds products product)
  | .add row _ => inferInstanceAs (Decidable (products[row]? = some product))
  | .minus _ | .basketResult _ | .productsResult _ | .clear | .cancel => .isFalse id

/-- The counter of the product after the event. -/
def count (products : List ProductInfo) (product : ProductInfo) (n : Int) : MenuEvent → Int
  | .add row _ => if products[row]? = some product then n + 1 else n
  | .minus row => if products[row]? = some product then max 0 (n - 1) else n
  | _ => n

end MenuEvent

namespace MenuController

/-- The amount of the product followed through the taps. -/
def counter (menu : MenuController) (taps : List MenuEvent) (product : ProductInfo) : Int :=
  taps.foldl (MenuEvent.count menu.products product) (menu.basket.amount product)

/-- A tap on a row of the table; `checkRestaurantId` meets the keys in any order. -/
def IsRowTap (menu : MenuController) : MenuEvent → Prop
  | .add row keys => row < menu.products.length ∧ menu.basket.ListsKeys keys
  | .minus row => row < menu.products.length
  | _ => False

instance (menu : MenuController) : DecidablePred menu.IsRowTap
  | .add row keys =>
      inferInstanceAs (Decidable (row < menu.products.length ∧ menu.basket.ListsKeys keys))
  | .minus row => inferInstanceAs (Decidable (row < menu.products.length))
  | .basketResult _ | .productsResult _ | .clear | .cancel => .isFalse id

/-- The tap can be performed after the taps `before`. -/
def Lands (menu : MenuController) (before : List MenuEvent) : MenuEvent → Prop
  | .add row _ => ∀ product ∈ menu.products[row]?, menu.counter before product < 2 ^ 63 - 1
  | .minus row => ∀ product ∈ menu.products[row]?,
      product ∈ menu.basket ∨ ∃ tap ∈ before, tap.Adds menu.products product
  | _ => True

instance (menu : MenuController) (before : List MenuEvent) : DecidablePred (menu.Lands before)
  | .add row _ => inferInstanceAs (Decidable
      (∀ product ∈ menu.products[row]?, menu.counter before product < 2 ^ 63 - 1))
  | .minus row => inferInstanceAs (Decidable (∀ product ∈ menu.products[row]?,
      product ∈ menu.basket ∨ ∃ tap ∈ before, tap.Adds menu.products product))
  | .basketResult _ | .productsResult _ | .clear | .cancel => .isTrue trivial

/-! ## One tap -/

/-- Both loads have been answered: the menu shows products of its restaurant, and
the basket is empty or of this restaurant too, with no negative amount. -/
structure Loaded (menu : MenuController) : Prop where
  no_alert : menu.alert = false
  products_belong : ∀ product ∈ menu.products, product.restaurantID = menu.restaurantID
  basket_belongs : menu.basket.BelongsTo menu.restaurantID
  amounts_nonneg : ∀ product amount, menu.basket.lookup product = some amount → 0 ≤ amount.toInt

/-- What a performed tap leaves behind. -/
structure Counted (menu : MenuController) (tap : MenuEvent) (next : MenuController) : Prop where
  loaded : next.Loaded
  same_products : next.products = menu.products
  amount_eq : ∀ product, next.basket.amount product =
    tap.count menu.products product (menu.basket.amount product)
  mem_iff : ∀ product,
    product ∈ next.basket ↔ product ∈ menu.basket ∨ tap.Adds menu.products product

variable {menu next : MenuController}

namespace Loaded

theorem amount_nonneg (hloaded : menu.Loaded) (product : ProductInfo) :
    0 ≤ menu.basket.amount product := by
  cases hlookup : menu.basket.lookup product with
  | none => exact (Basket.amount_of_notMem (Finmap.lookup_eq_none.mp hlookup)).ge
  | some amount =>
      rw [Basket.amount_of_lookup hlookup]
      exact hloaded.amounts_nonneg product amount hlookup

theorem checkRestaurantId_eq_true (hloaded : menu.Loaded) {keys : List ProductInfo}
    (hkeys : menu.basket.ListsKeys keys) : menu.checkRestaurantId keys = true := by
  cases keys with
  | nil => rfl
  | cons p rest =>
      exact decide_eq_true (hloaded.basket_belongs p (hkeys.mem_iff.mp List.mem_cons_self))

/-- A new amount of a product of the menu keeps the menu loaded. -/
theorem insert (hloaded : menu.Loaded) {product : ProductInfo} {amount : Int64}
    (hproduct : product ∈ menu.products) (hamount : 0 ≤ amount.toInt) :
    Loaded { menu with basket := menu.basket.insert product amount } where
  no_alert := hloaded.no_alert
  products_belong := hloaded.products_belong
  basket_belongs :=
    Basket.belongsTo_insert hloaded.basket_belongs (hloaded.products_belong product hproduct) _
  amounts_nonneg := Dictionary.forall_lookup_insert hloaded.amounts_nonneg hamount

end Loaded

/-- An add tap is performed unless the amount is the largest integer. -/
theorem handle_add_ne_none_iff (hloaded : menu.Loaded) {row : Nat} {keys : List ProductInfo}
    (htap : menu.IsRowTap (.add row keys)) :
    menu.handle (.add row keys) ≠ none ↔ menu.Lands [] (.add row keys) := by
  obtain ⟨hrow, hkeys⟩ := htap
  have hproduct := List.getElem?_eq_getElem hrow
  have hnonneg := hloaded.amount_nonneg menu.products[row]
  have hlands : menu.Lands [] (.add row keys) ↔
      menu.basket.amount menu.products[row] < 2 ^ 63 - 1 := by
    simp only [Lands, counter, hproduct, Option.mem_some_iff, forall_eq', List.foldl_nil]
  have hhandle : menu.handle (.add row keys) =
      (exactly (menu.basket.amount menu.products[row] + 1)).bind fun n =>
        some { menu with basket := menu.basket.insert menu.products[row] n } := by
    rw [handle, if_pos ⟨hloaded.no_alert, hkeys⟩, buttonAddCallback,
      if_pos (hloaded.checkRestaurantId_eq_true hkeys), hproduct, ← Int64.toInt_one]
    rfl
  rw [hlands, hhandle]
  cases hsum : exactly (menu.basket.amount menu.products[row] + 1) with
  | none =>
      rw [exactly_eq_none] at hsum
      simp only [Option.bind_none, ne_eq, not_true_eq_false, false_iff]
      omega
  | some n =>
      have hrange := n.toInt_lt
      rw [exactly_eq_some] at hsum
      simp only [Option.bind_some, ne_eq, reduceCtorEq, not_false_eq_true, true_iff]
      omega

/-- A minus tap is performed exactly when the product has an entry. -/
theorem handle_minus_ne_none_iff (hloaded : menu.Loaded) {row : Nat}
    (htap : menu.IsRowTap (.minus row)) :
    menu.handle (.minus row) ≠ none ↔ menu.Lands [] (.minus row) := by
  have hproduct := List.getElem?_eq_getElem htap
  have hlands : menu.Lands [] (.minus row) ↔ menu.products[row] ∈ menu.basket := by
    simp [Lands, hproduct]
  rw [hlands, handle, if_pos hloaded.no_alert, Option.ne_none_iff_exists']
  constructor
  · rintro ⟨next, hnext⟩
    obtain ⟨product, amount, hrow, hamount, -⟩ := buttonMinusCallback_eq_some.mp hnext
    rw [hproduct, Option.some.injEq] at hrow
    rw [hrow]
    exact Finmap.mem_of_lookup_eq_some hamount
  · intro hmem
    obtain ⟨amount, hamount⟩ := Finmap.mem_iff.mp hmem
    have hnonneg := hloaded.amounts_nonneg _ _ hamount
    have hrange := amount.toInt_lt
    by_cases hzero : amount = 0
    · exact ⟨menu, buttonMinusCallback_eq_some.mpr
        ⟨_, _, hproduct, hamount, .inl ⟨hzero, rfl⟩⟩⟩
    · cases hless : subTrapping amount 1 with
      | none =>
          rw [subTrapping, exactly_eq_none, Int64.toInt_one] at hless
          omega
      | some less =>
          exact ⟨_, buttonMinusCallback_eq_some.mpr
            ⟨_, _, hproduct, hamount, .inr ⟨hzero, less, hless, rfl⟩⟩⟩

theorem handle_tap_ne_none_iff (hloaded : menu.Loaded) {tap : MenuEvent}
    (htap : menu.IsRowTap tap) : menu.handle tap ≠ none ↔ menu.Lands [] tap := by
  cases tap with
  | add row keys => exact handle_add_ne_none_iff hloaded htap
  | minus row => exact handle_minus_ne_none_iff hloaded htap
  | _ => cases htap

/-- A performed tap counts. -/
theorem counted_of_handle (hloaded : menu.Loaded) {tap : MenuEvent} (htap : menu.IsRowTap tap)
    (h : menu.handle tap = some next) : Counted menu tap next := by
  cases outcome_of_handle h with
  | @added row keys product amount hkeys hcheck hproduct hamount =>
      have hold : amount.toInt = menu.basket.amount product + 1 := by
        rw [Basket.amount, ← Int64.toInt_one]
        exact exactly_eq_some.mp hamount
      have hnonneg := hloaded.amount_nonneg product
      refine ⟨hloaded.insert (List.mem_of_getElem? hproduct) (by omega), rfl, ?_, ?_⟩
      · intro other
        by_cases heq : other = product
        · rw [heq, Basket.amount_insert_self, MenuEvent.count, if_pos hproduct, hold]
        · rw [Basket.amount_insert_of_ne _ heq, MenuEvent.count, if_neg]
          exact fun h => heq (Option.some.inj (h.symm.trans hproduct))
      · intro other
        rw [Finmap.mem_insert, MenuEvent.Adds, hproduct, Option.some.injEq, or_comm, eq_comm]
  | asked hkeys hcheck =>
      rw [hloaded.checkRestaurantId_eq_true hkeys] at hcheck
      cases hcheck
  | @lessened row product amount less hproduct hamount hne hless =>
      have hnonneg := hloaded.amounts_nonneg product amount hamount
      have hold := Basket.amount_of_lookup hamount
      have hnew : less.toInt = amount.toInt - 1 := Int64.toInt_one ▸ exactly_eq_some.mp hless
      have hpos : amount.toInt ≠ 0 := fun hzero => hne (Int64.toInt_inj.mp hzero)
      refine ⟨hloaded.insert (List.mem_of_getElem? hproduct) (by omega), rfl, ?_, ?_⟩
      · intro other
        by_cases heq : other = product
        · rw [heq, Basket.amount_insert_self, MenuEvent.count, if_pos hproduct, hold, hnew,
            max_eq_right (by omega)]
        · rw [Basket.amount_insert_of_ne _ heq, MenuEvent.count, if_neg]
          exact fun h => heq (Option.some.inj (h.symm.trans hproduct))
      · intro other
        rw [Finmap.mem_insert, or_iff_left (show ¬(MenuEvent.minus row).Adds _ other from id)]
        constructor
        · rintro (rfl | hmem)
          · exact Finmap.mem_of_lookup_eq_some hamount
          · exact hmem
        · exact .inr
  | @noneLeft row product hproduct hamount =>
      refine ⟨hloaded, rfl, fun other => ?_, fun other => (or_iff_left id).symm⟩
      rw [MenuEvent.count]
      split
      · rename_i hother
        rw [hproduct, Option.some.injEq] at hother
        rw [← hother, Basket.amount_of_lookup hamount]
        decide
      · rfl
  | _ => cases htap

/-! ## A list of taps -/

theorem counter_cons {tap : MenuEvent} (hcounted : Counted menu tap next)
    (before : List MenuEvent) (product : ProductInfo) :
    menu.counter (tap :: before) product = next.counter before product := by
  rw [counter, counter, List.foldl_cons, hcounted.same_products, hcounted.amount_eq]

/-- What was tapped before may be counted into the loaded basket. -/
theorem lands_cons_iff {tap : MenuEvent} (hcounted : Counted menu tap next)
    (before : List MenuEvent) (later : MenuEvent) :
    menu.Lands (tap :: before) later ↔ next.Lands before later := by
  cases later with
  | add row keys =>
      simp only [Lands, counter_cons hcounted, hcounted.same_products]
  | minus row =>
      simp only [Lands, hcounted.same_products, hcounted.mem_iff, List.exists_mem_cons_iff,
        or_assoc]
  | _ => exact Iff.rfl

theorem run_taps (taps : List MenuEvent) :
    ∀ {menu : MenuController}, menu.Loaded → Along handle IsRowTap menu taps →
      ((∃ final, run handle menu taps = some final) ↔
        ∀ i (hi : i < taps.length), menu.Lands (taps.take i) taps[i]) ∧
      ∀ final, run handle menu taps = some final →
        ∀ product, final.basket.amount product = menu.counter taps product := by
  induction taps with
  | nil =>
      intro menu _ _
      refine ⟨⟨fun _ i hi => absurd hi (Nat.not_lt_zero i), fun _ => ⟨menu, rfl⟩⟩, ?_⟩
      intro final hrun product
      rw [← Option.some.inj hrun]
      rfl
  | cons tap rest ih =>
      intro menu hloaded halong
      have hfirst := handle_tap_ne_none_iff hloaded halong.1
      cases hstep : menu.handle tap with
      | none =>
          have hstuck : ∀ final, run handle menu (tap :: rest) ≠ some final := by
            intro final hrun
            obtain ⟨next, hnext, -⟩ := run_cons_eq_some.mp hrun
            rw [hstep] at hnext
            cases hnext
          refine ⟨⟨fun ⟨final, hrun⟩ => absurd hrun (hstuck final), fun hlands => ?_⟩,
            fun final hrun => absurd hrun (hstuck final)⟩
          exact absurd hstep (hfirst.mpr (hlands 0 (Nat.zero_lt_succ _)))
      | some next =>
          have hcounted := counted_of_handle hloaded halong.1 hstep
          have hlands : menu.Lands [] tap := hfirst.mp (by rw [hstep]; nofun)
          have hrun : run handle menu (tap :: rest) = run handle next rest := by
            rw [run_cons, hstep, Option.bind_some]
          obtain ⟨hiff, hcounters⟩ := ih hcounted.loaded (halong.2 next hstep)
          rw [hrun]
          constructor
          · rw [hiff]
            constructor
            · intro hrest i hi
              cases i with
              | zero => exact hlands
              | succ i =>
                  exact (lands_cons_iff hcounted _ _).mpr (hrest i (Nat.lt_of_succ_lt_succ hi))
            · intro hall i hi
              exact (lands_cons_iff hcounted _ _).mp (hall (i + 1) (Nat.succ_lt_succ hi))
          · intro final hfinal product
            rw [counter_cons hcounted]
            exact hcounters final hfinal product

/-- After both loads, taps on rows of the menu are performed and leave saturating
counters exactly when every one of them lands. -/
theorem taps_are_counters_iff {menu : MenuController} {taps : List MenuEvent}
    (hloaded : menu.Loaded) (htaps : Along handle IsRowTap menu taps) :
    (∃ final, run handle menu taps = some final ∧
        ∀ product, final.basket.amount product = menu.counter taps product) ↔
      ∀ i (hi : i < taps.length), menu.Lands (taps.take i) taps[i] := by
  obtain ⟨hiff, hcounters⟩ := run_taps taps hloaded htaps
  rw [← hiff]
  constructor
  · rintro ⟨final, hrun, -⟩
    exact ⟨final, hrun⟩
  · rintro ⟨final, hrun⟩
    exact ⟨final, hrun, hcounters final hrun⟩

/-- A menu of two products over an empty basket. -/
def freshMenu : MenuController where
  restaurantID := "0"
  products :=
    [⟨"Latte", 199, "l.png", [.coffee], "0"⟩, ⟨"Margherita", 450, "m.png", [.pizza], "0"⟩]
  basket := ∅
  alert := false

theorem freshMenu_loaded : freshMenu.Loaded where
  no_alert := rfl
  products_belong := by decide
  basket_belongs := Basket.belongsTo_empty _
  amounts_nonneg := by
    intro product amount hlookup
    rw [freshMenu, Finmap.lookup_empty] at hlookup
    cases hlookup

/-- An add tap and two minus taps on the first row. -/
theorem taps_are_counters_iff_sample :
    ∃ final, run handle freshMenu [.add 0 [], .minus 0, .minus 0] = some final ∧
      ∀ product, final.basket.amount product =
        freshMenu.counter [.add 0 [], .minus 0, .minus 0] product :=
  (taps_are_counters_iff freshMenu_loaded (by decide)).mpr (by decide)

/-- A minus tap on a product that was never added traps. -/
theorem minus_before_add_traps :
    ∃ menu taps, Loaded menu ∧ Along handle IsRowTap menu taps ∧
      ¬∃ final, run handle menu taps = some final ∧
        ∀ product, final.basket.amount product = menu.counter taps product := by
  refine ⟨freshMenu, [.minus 0], freshMenu_loaded, by decide, ?_⟩
  rintro ⟨final, hrun, -⟩
  have hnone : run handle freshMenu [.minus 0] = none := by decide
  rw [hnone] at hrun
  cases hrun

end MenuController

end QFree
