/-
  Networking/OrderOutcome.lean --- how a call of `makeOrder` ends.

  `makeOrder` passes on the errors of its guards and of the inner `getBasket`.
  Its success branch takes the first key of the basket it was given, reads its
  restaurant identifier as a number and looks the restaurant up, all three by
  force, and writes under the present time whatever is stored there.

  So the call ends cleanly exactly when it does not get that far, or when the
  basket can be placed (`makeOrder_ends_cleanly_iff`).
-/
import QFree.Networking.OrderWrites

set_option autoImplicit false

namespace QFree.FirebaseHandler

open QFree.Foundation QFree.Foundation.Json

/-- The end of a call. -/
structure OrderOutcome where
  /-- the arguments of the calls of `completion`, in order -/
  completions : List (Option NetworkingError)
  database : Json

section Call

variable {Date : Type} (dates : DateLibrary Date) (handler : FirebaseHandler)
  (isConnected : Bool) (number : Int64) (restaurants : List Restaurant)
  (result : Except NetworkingError Basket) (now later : Date) (database : Json)

/-- `makeOrder`, where the inner `getBasket` completes with `result` and the loop
over its basket meets these entries. -/
def makeOrder (entries : List (ProductInfo × Int64)) : Option OrderOutcome :=
  match handler.guardUser isConnected with
  | .error error => some ⟨[some error], database⟩
  | .ok user =>
      match result with
      | .ok _ => do
          let writes ← makeOrderResponse dates user number restaurants entries now later
          return ⟨[none], Write.applyAll database writes⟩
      | .error error => some ⟨[some error], database⟩

/-! ## Clean ends -/

/-- `completion` was called once, with an error, and nothing was written. -/
def OrderOutcome.Failed (before : Json) (outcome : OrderOutcome) : Prop :=
  ∃ error, outcome.completions = [some error] ∧ outcome.database = before

/-- `completion` was called once, with `nil`; one entry was written, where there was
none, and the basket removed. -/
def OrderOutcome.PlacedOne (before : Json) (entries : List (ProductInfo × Int64))
    (outcome : OrderOutcome) : Prop :=
  outcome.completions = [none] ∧
    ∃ user hash restaurant readyDate, handler.user = some user ∧
      before.get (orderPath user hash) = .null ∧
      outcome.database = (before.set (orderPath user hash)
        (orderEntry .null number restaurant entries hash readyDate)).set (basketPath user) .null

/-- In whatever order the basket is met, the call does not trap, and it fails or
places one order. -/
def EndsCleanly : Prop :=
  ∀ entries, (∀ basket, result = .ok basket → basket.Enumerates entries) →
    ∃ outcome, makeOrder dates handler isConnected number restaurants result now later database
        entries = some outcome ∧
      (outcome.Failed database ∨ outcome.PlacedOne handler number database entries)

/-- The text is the number of a restaurant of the list. -/
def NamesRestaurant (restaurantID : String) : Prop :=
  ∃ index, parseInt restaurantID = some index ∧ 0 ≤ index.toInt ∧
    index.toInt < restaurants.length

/-- The basket is not empty, its products are of restaurants of the list, and the
user has no order under the present time. -/
structure CanBePlaced (user : String) (basket : Basket) : Prop where
  nonempty : basket ≠ ∅
  restaurant : ∀ product ∈ basket, NamesRestaurant restaurants product.restaurantID
  readyDate : dates.addingMinutes 30 now ≠ none
  no_entry : database.get (orderPath user (getTimestamp dates later)) = .null

end Call

/-! ## The success branch -/

theorem restaurantAt_ne_none_iff {restaurants : List Restaurant} {index : Int64} :
    restaurantAt restaurants index ≠ none ↔
      0 ≤ index.toInt ∧ index.toInt < restaurants.length := by
  unfold restaurantAt
  split
  · rename_i hnonneg
    rw [ne_eq, List.getElem?_eq_none_iff]
    omega
  · rename_i hneg
    exact iff_of_false (fun h => h rfl) fun h => hneg h.1

/-- The first product decides whether there is a restaurant. -/
theorem orderRestaurant_cons_ne_none_iff {restaurants : List Restaurant}
    {first : ProductInfo × Int64} {rest : List (ProductInfo × Int64)} :
    orderRestaurant restaurants (first :: rest) ≠ none ↔
      NamesRestaurant restaurants first.1.restaurantID := by
  rw [orderRestaurant, List.head?_cons, Option.bind_eq_bind, Option.bind_some]
  cases hindex : parseInt first.1.restaurantID with
  | none =>
      refine iff_of_false (fun h => h rfl) ?_
      rintro ⟨index, hparse, -⟩
      rw [hindex] at hparse
      cases hparse
  | some index =>
      rw [Option.bind_eq_bind, Option.bind_some, restaurantAt_ne_none_iff]
      constructor
      · exact fun h => ⟨index, hindex, h⟩
      · rintro ⟨other, hother, h⟩
        rw [hindex, Option.some.injEq] at hother
        exact hother ▸ h

section Success

variable {Date : Type} {dates : DateLibrary Date} {user : String} {number : Int64}
  {restaurants : List Restaurant} {entries : List (ProductInfo × Int64)} {now later : Date}

/-- The branch does not trap when there is a restaurant and a date. -/
theorem makeOrderResponse_ne_none_iff :
    makeOrderResponse dates user number restaurants entries now later ≠ none ↔
      orderRestaurant restaurants entries ≠ none ∧ dates.addingMinutes 30 now ≠ none := by
  rw [makeOrderResponse]
  cases orderRestaurant restaurants entries <;> cases dates.addingMinutes 30 now <;> simp

/-- What the three writes leave, as two changes. -/
theorem applyAll_orderWrites_eq_set (database : Json) (user : String) (number : Int64)
    (restaurant : Restaurant) (hentries : entries ≠ []) (hash readyDate : String) :
    Write.applyAll database (orderWrites user number restaurant entries hash readyDate) =
      (database.set (orderPath user hash) (orderEntry (database.get (orderPath user hash)) number
        restaurant entries hash readyDate)).set (basketPath user) .null := by
  rw [← applyAll_infoWrite database user number restaurant entries hash readyDate hentries]
  rfl

/-- Two such ends with the same database are of the same order. -/
theorem no_entry_of_same_database {before entry other : Json} {hash otherHash : String}
    (hother : other ≠ .null) (hfree : before.get (orderPath user otherHash) = .null)
    (hsame : (before.set (orderPath user hash) entry).set (basketPath user) .null =
      (before.set (orderPath user otherHash) other).set (basketPath user) .null) :
    before.get (orderPath user hash) = .null := by
  have hread : ∀ json : Json, (json.set (basketPath user) .null).get (orderPath user otherHash) =
      json.get (orderPath user otherHash) :=
    fun json => get_set_of_ne json ["Users", user] (by decide) [] [otherHash] .null
  by_cases heq : otherHash = hash
  · exact heq ▸ hfree
  · have hentry := congrArg (fun json => json.get (orderPath user otherHash)) hsame
    have hold : (before.set (orderPath user hash) entry).get (orderPath user otherHash) =
        before.get (orderPath user otherHash) :=
      get_set_of_ne before ["Users", user, "orders"] heq [] [] entry
    simp only [hread, hold, hfree, get_set_same] at hentry
    exact absurd hentry.symm hother

end Success

/-! ## The whole call -/

section Ends

variable {Date : Type} {dates : DateLibrary Date} {handler : FirebaseHandler}
  {isConnected : Bool} {number : Int64} {restaurants : List Restaurant} {now later : Date}
  {database : Json}

/-- Every product of a basket comes first in some order. -/
theorem exists_enumerates_cons {basket : Basket} {product : ProductInfo}
    (hmem : product ∈ basket) :
    ∃ amount rest, basket.Enumerates ((product, amount) :: rest) := by
  obtain ⟨entries, hentries⟩ := Dictionary.exists_enumerates basket
  rw [← hentries.mem_keys_iff] at hmem
  obtain ⟨entry, hentry, rfl⟩ := List.mem_map.mp hmem
  exact ⟨entry.2, entries.erase entry, hentries.of_perm (List.perm_cons_erase hentry)⟩

/-- A basket that can be placed is placed in every order. -/
theorem endsCleanly_of_canBePlaced {user : String} {basket : Basket}
    (huser : handler.guardUser isConnected = .ok user) (hhandler : handler.user = some user)
    (h : CanBePlaced dates restaurants now later database user basket) :
    EndsCleanly dates handler isConnected number restaurants (.ok basket) now later database := by
  intro entries hentries
  have henumerates := hentries basket rfl
  have hnonempty : entries ≠ [] := fun hnil => h.nonempty (henumerates.eq_empty_iff.mpr hnil)
  obtain ⟨first, rest, rfl⟩ := List.exists_cons_of_ne_nil hnonempty
  have hfirst : first.1 ∈ basket := henumerates.key_mem List.mem_cons_self
  have hmake : makeOrderResponse dates user number restaurants (first :: rest) now later ≠ none :=
    makeOrderResponse_ne_none_iff.mpr
      ⟨orderRestaurant_cons_ne_none_iff.mpr (h.restaurant first.1 hfirst), h.readyDate⟩
  obtain ⟨writes, hwrites⟩ := Option.ne_none_iff_exists'.mp hmake
  obtain ⟨restaurant, readyDate, -, -, rfl⟩ := orderWrites_of_makeOrderResponse hwrites
  have hafter := applyAll_orderWrites_eq_set database user number restaurant hnonempty
    (getTimestamp dates later) (getTimestamp dates readyDate)
  rw [h.no_entry] at hafter
  refine ⟨⟨[none], Write.applyAll database (orderWrites user number restaurant (first :: rest)
    (getTimestamp dates later) (getTimestamp dates readyDate))⟩, ?_, .inr ⟨rfl, user, _, _, _,
      hhandler, h.no_entry, hafter⟩⟩
  simp only [makeOrder, huser, hwrites, Option.bind_eq_bind, Option.bind_some, Option.pure_def]

/-- A basket all of whose orders of entries end cleanly can be placed. -/
theorem canBePlaced_of_endsCleanly {user : String} {basket : Basket}
    (huser : handler.guardUser isConnected = .ok user)
    (h : EndsCleanly dates handler isConnected number restaurants (.ok basket) now later
      database) :
    CanBePlaced dates restaurants now later database user basket := by
  have hplaced : ∀ entries, basket.Enumerates entries → ∃ writes,
      makeOrderResponse dates user number restaurants entries now later = some writes ∧
        (OrderOutcome.mk [none] (Write.applyAll database writes)).PlacedOne handler number
          database entries := by
    intro entries hentries
    obtain ⟨outcome, houtcome, hends⟩ := h entries fun other hother =>
      Except.ok.inj hother ▸ hentries
    simp only [makeOrder, huser] at houtcome
    obtain ⟨writes, hwrites, hreturned⟩ := Option.bind_eq_some_iff.mp houtcome
    obtain rfl := Option.some.inj hreturned
    rcases hends with ⟨error, herror, -⟩ | hone
    · cases herror
    · exact ⟨writes, hwrites, hone⟩
  have hnonempty : basket ≠ ∅ := by
    rintro rfl
    obtain ⟨writes, hwrites, -⟩ := hplaced [] (Dictionary.Enumerates.empty_iff.mpr rfl)
    cases hwrites
  have hmade : ∀ entries, basket.Enumerates entries →
      orderRestaurant restaurants entries ≠ none ∧ dates.addingMinutes 30 now ≠ none := by
    intro entries hentries
    obtain ⟨writes, hwrites, -⟩ := hplaced entries hentries
    exact makeOrderResponse_ne_none_iff.mp (by rw [hwrites]; exact Option.some_ne_none writes)
  obtain ⟨entries, hentries⟩ := Dictionary.exists_enumerates basket
  refine ⟨hnonempty, fun product hmem => ?_, (hmade entries hentries).2, ?_⟩
  · obtain ⟨amount, rest, hfirst⟩ := exists_enumerates_cons hmem
    exact orderRestaurant_cons_ne_none_iff.mp (hmade _ hfirst).1
  · have hlisted : entries ≠ [] := fun hnil => hnonempty (hentries.eq_empty_iff.mpr hnil)
    obtain ⟨writes, hwrites, -, other, hash, chosen, ready, hother, hfree, hsame⟩ :=
      hplaced entries hentries
    obtain ⟨restaurant, readyDate, -, -, rfl⟩ := orderWrites_of_makeOrderResponse hwrites
    have hone : user = other := by
      rw [guardUser, hother] at huser
      split at huser
      · exact (Except.ok.inj huser).symm
      · cases huser
    subst hone
    rw [applyAll_orderWrites_eq_set database user number restaurant hlisted] at hsame
    exact no_entry_of_same_database (orderEntry_ne_null _ _ _ _ _ _) hfree hsame

/-- A call ends cleanly, in whatever order the basket is met, exactly when it does
not come to its success branch or the basket it read there can be placed. -/
theorem makeOrder_ends_cleanly_iff (dates : DateLibrary Date) (handler : FirebaseHandler)
    (isConnected : Bool) (number : Int64) (restaurants : List Restaurant)
    (result : Except NetworkingError Basket) (now later : Date) (database : Json) :
    EndsCleanly dates handler isConnected number restaurants result now later database ↔
      ∀ user basket, isConnected = true → handler.user = some user → result = .ok basket →
        CanBePlaced dates restaurants now later database user basket := by
  constructor
  · rintro h user basket rfl huser rfl
    exact canBePlaced_of_endsCleanly (by rw [guardUser, if_pos rfl, huser]) h
  · intro h
    cases hguard : handler.guardUser isConnected with
    | error error =>
        intro entries _
        exact ⟨⟨[some error], database⟩, by rw [makeOrder, hguard], .inl ⟨error, rfl, rfl⟩⟩
    | ok user =>
        cases hresult : result with
        | error error =>
            intro entries _
            exact ⟨⟨[some error], database⟩, by rw [makeOrder, hguard], .inl ⟨error, rfl, rfl⟩⟩
        | ok basket =>
            obtain ⟨hconnected, huser⟩ : isConnected = true ∧ handler.user = some user := by
              unfold guardUser at hguard
              split at hguard
              · rename_i hconnected
                split at hguard
                · rename_i other huser
                  exact ⟨hconnected, Except.ok.inj hguard ▸ huser⟩
                · cases hguard
              · cases hguard
            exact endsCleanly_of_canBePlaced hguard huser
              (h user basket hconnected huser hresult)

/-- With an empty basket, as a second press of the order button meets it, the call
traps. -/
theorem empty_basket_traps :
    makeOrder utcDates ⟨some "user@mail"⟩ true 17 [sampleRestaurant] (.ok ∅) 6294876000
        6294876005 .null [] = none ∧
      ¬EndsCleanly utcDates ⟨some "user@mail"⟩ true 17 [sampleRestaurant] (.ok ∅) 6294876000
        6294876005 .null := by
  refine ⟨rfl, fun h => ?_⟩
  obtain ⟨outcome, houtcome, -⟩ := h [] fun basket hbasket =>
    Except.ok.inj hbasket ▸ Dictionary.Enumerates.empty_iff.mpr rfl
  cases houtcome

end Ends

end QFree.FirebaseHandler
