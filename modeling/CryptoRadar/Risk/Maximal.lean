import CryptoRadar.Lib.DecimalExact
import CryptoRadar.Risk.Passes
import Mathlib.Tactic.IntervalCases

/-!
# The largest quantity that fits

What a sizing decides about a quantity, its minimums (`Meets`) and its limits (`Fits`), reads the
value of the quantity only. So while every pass takes exactly one lot off, the loop stops at the
first of the quantities 0, 1, 2 and 3 lots below the least candidate that fits, unless one before it
is below a minimum (`sizing_is_maximal`). Where a pass rounds, it may stop at a smaller one
(`a_pass_can_take_four_lots`).
-/

set_option autoImplicit false

namespace CryptoRadar.Risk

open Checked Decimal

/-! ## Minimums and limits -/

/-- A positive quantity that meets the order minimum and whose cost meets the cost minimum. -/
structure Meets (terms : SizingTerms) (quantity : Decimal) : Prop where
  positive : 0 < quantity.toRat
  ordermin : terms.rules.ordermin.toRat ≤ quantity.toRat
  costmin : ∃ cost, Decimal.mul riskContext quantity terms.ask = .ok cost ∧
    terms.rules.costmin.toRat ≤ cost.toRat

structure Within (room : Budget) (costs : FinalCosts) : Prop where
  perEntryLoss : costs.plannedLoss.toRat ≤ room.perEntryLossCap.toRat
  aggregateLoss : costs.plannedLoss.toRat ≤ room.aggregateLossRemaining.toRat
  notional : costs.notional.toRat ≤ room.notionalRemaining.toRat
  cash : ∃ needed, Decimal.add riskContext costs.notional costs.entryFee = .ok needed ∧
    needed.toRat ≤ room.cashRoom.toRat

/-- A quantity whose final costs are within the limits. -/
def Fits (terms : SizingTerms) (quantity : Decimal) : Prop :=
  ∃ costs, finalCosts quantity terms.ask terms.stressed terms.feeBps = .ok costs ∧
    Within terms.room costs

theorem belowMinimum_eq_none {terms : SizingTerms} {quantity : Decimal} :
    belowMinimum quantity terms.ask terms.rules = .ok none ↔ Meets terms quantity := by
  have zero : Paper.zero.toRat = 0 := by simp [Paper.zero, toRat_ofNat]
  unfold belowMinimum
  split
  next below =>
    constructor
    · intro none
      obtain ⟨_, _, made⟩ := bind_eq_ok.mp none
      cases made
    · intro meets
      rw [Bool.or_eq_true, le_iff, lt_iff, zero] at below
      rcases below with negative | few
      · exact absurd meets.positive (not_lt.mpr negative)
      · exact absurd meets.ordermin (not_le.mpr few)
  next above =>
    rw [Bool.or_eq_true, le_iff, lt_iff, zero, not_or, not_le, not_lt] at above
    constructor
    · intro none
      obtain ⟨cost, isCost, none⟩ := bind_eq_ok.mp none
      split at none
      next =>
        obtain ⟨_, _, made⟩ := bind_eq_ok.mp none
        cases made
      next enough =>
        rw [lt_iff, not_lt] at enough
        exact ⟨above.1, above.2, cost, isCost, enough⟩
    · intro meets
      obtain ⟨cost, isCost, enough⟩ := meets.costmin
      refine bind_eq_ok.mpr ⟨cost, isCost, ?_⟩
      rw [if_neg (by rwa [lt_iff, not_lt])]
      rfl

theorem fits_eq_true {room : Budget} {costs : FinalCosts} :
    fits costs room = .ok true ↔ Within room costs := by
  unfold fits
  split
  next limits =>
    simp only [Bool.and_eq_true, le_iff] at limits
    constructor
    · intro fitting
      obtain ⟨needed, isNeeded, enough⟩ := bind_eq_ok.mp fitting
      refine ⟨limits.1.1, limits.1.2, limits.2, needed, isNeeded, ?_⟩
      simpa [pure, Except.pure, le_iff] using enough
    · intro within
      obtain ⟨needed, isNeeded, enough⟩ := within.cash
      refine bind_eq_ok.mpr ⟨needed, isNeeded, ?_⟩
      simpa [pure, Except.pure, le_iff] using enough
  next beyond =>
    constructor
    · intro fitting
      cases fitting
    · intro within
      rw [Bool.and_eq_true, Bool.and_eq_true, le_iff, le_iff, le_iff] at beyond
      exact absurd ⟨⟨within.perEntryLoss, within.aggregateLoss⟩, within.notional⟩ beyond

/-! ## Only the value is read -/

section Values

variable {terms : SizingTerms} {quantity other : Decimal}

theorem eq_ok_of_alike {first second : Except DecimalError Decimal}
    (alike : Alike id SameValue first second) {value : Decimal} (isFirst : first = .ok value) :
    ∃ same, second = .ok same ∧ same.toRat = value.toRat := by
  rw [isFirst] at alike
  cases alike with
  | ok equal => exact ⟨_, rfl, equal.symm⟩

theorem Meets.of_sameValue (same : SameValue quantity other) (meets : Meets terms quantity) :
    Meets terms other := by
  obtain ⟨cost, isCost, enough⟩ := meets.costmin
  obtain ⟨otherCost, isOther, equal⟩ := eq_ok_of_alike (mul_alike riskContext same rfl) isCost
  refine ⟨?_, ?_, otherCost, isOther, by rwa [equal]⟩
  · rw [← same]
    exact meets.positive
  · rw [← same]
    exact meets.ordermin

structure SameCosts (first second : FinalCosts) : Prop where
  notional : SameValue first.notional second.notional
  entryFee : SameValue first.entryFee second.entryFee
  exitFee : SameValue first.exitFee second.exitFee
  plannedLoss : SameValue first.plannedLoss second.plannedLoss

theorem finalCosts_alike (ask stressed feeBps : Decimal) (same : SameValue quantity other) :
    Alike id SameCosts (finalCosts quantity ask stressed feeBps)
      (finalCosts other ask stressed feeBps) := by
  unfold finalCosts
  refine Alike.bind_self fun fee _ => ?_
  refine (mul_alike riskContext same rfl).bind fun notional _ notionals => ?_
  refine (mul_alike riskContext notionals rfl).bind fun _ _ charges => ?_
  refine (quantize_alike riskContext .ceiling charges _).bind fun entryFee _ entryFees => ?_
  refine (mul_alike riskContext same rfl).bind fun _ _ exits => ?_
  refine (mul_alike riskContext exits rfl).bind fun _ _ charges => ?_
  refine (quantize_alike riskContext .ceiling charges _).bind fun exitFee _ exitFees => ?_
  refine Alike.bind_self fun distance _ => ?_
  refine (mul_alike riskContext same rfl).bind fun _ _ losses => ?_
  refine (add_alike riskContext losses entryFees).bind fun _ _ sums => ?_
  refine (add_alike riskContext sums exitFees).bind fun planned _ plans => ?_
  exact .ok ⟨notionals, entryFees, exitFees, plans⟩

theorem Within.of_sameCosts {room : Budget} {costs otherCosts : FinalCosts}
    (same : SameCosts costs otherCosts) (within : Within room costs) : Within room otherCosts := by
  obtain ⟨needed, isNeeded, enough⟩ := within.cash
  obtain ⟨otherNeeded, isOther, equal⟩ :=
    eq_ok_of_alike (add_alike riskContext same.notional same.entryFee) isNeeded
  refine ⟨?_, ?_, ?_, otherNeeded, isOther, by rwa [equal]⟩
  · rw [← same.plannedLoss]
    exact within.perEntryLoss
  · rw [← same.plannedLoss]
    exact within.aggregateLoss
  · rw [← same.notional]
    exact within.notional

theorem Fits.of_sameValue (same : SameValue quantity other) (fitting : Fits terms quantity) :
    Fits terms other := by
  obtain ⟨costs, isCosts, within⟩ := fitting
  have alike := finalCosts_alike terms.ask terms.stressed terms.feeBps same
  rw [isCosts] at alike
  generalize isOther : finalCosts other terms.ask terms.stressed terms.feeBps = otherCosts at alike
  cases alike with
  | ok equal => exact ⟨_, isOther, within.of_sameCosts equal⟩

end Values

/-! ## The loop -/

/-- The quantity without some lots, exactly. -/
def lotsLess (rules : PairRules) (quantity : Decimal) (lots : ℕ) : Decimal :=
  wholeSum quantity ⟨true, lots, -rules.lotDecimals⟩

theorem lotsLess_toRat (rules : PairRules) (quantity : Decimal) (lots : ℕ) :
    (lotsLess rules quantity lots).toRat = quantity.toRat - lots * rules.lot.toRat := by
  rw [lotsLess, toRat_wholeSum, lot_toRat, sub_eq_add_neg]
  rfl

/-- The quantities before some number of lots less are above the minimums, and none of them fits. -/
def Passed (terms : SizingTerms) (first : Decimal) (lots : ℕ) : Prop :=
  ∀ less < lots, Meets terms (lotsLess terms.rules first less) ∧
    ¬ Fits terms (lotsLess terms.rules first less)

/-- Every pass that is made leaves a number of lots that the context of the thread holds. -/
def HeldPasses (terms : SizingTerms) (first : Decimal) : Prop :=
  ∀ less < maxDownwardPasses, Passed terms first (less + 1) →
    LeavesHeldLots terms.rules (lotsLess terms.rules first less)

def OpensAt (terms : SizingTerms) (plan : EntryPlan) (quantity : Decimal) : Prop :=
  plan.noTrade = none ∧ plan.quantity = some quantity ∧
    ∃ costs, plan.costs = some costs ∧
      finalCosts quantity terms.ask terms.stressed terms.feeBps = .ok costs ∧ Within terms.room costs

theorem not_fits {terms : SizingTerms} {quantity : Decimal} {costs : FinalCosts}
    (isCosts : finalCosts quantity terms.ask terms.stressed terms.feeBps = .ok costs)
    (tooMuch : fits costs terms.room = .ok false) : ¬ Fits terms quantity := by
  rintro ⟨other, isOther, within⟩
  cases isOther.symm.trans isCosts
  cases (fits_eq_true.mpr within).symm.trans tooMuch

/-- Where the loop stops: at the first quantity that is below a minimum or fits, or after the last
pass. -/
theorem sizingLoop_stops {terms : SizingTerms} {first : Decimal} (few : terms.rules.lotDecimals ≤ 18)
    (held : HeldPasses terms first) (remaining : ℕ) :
    ∀ {plan result : EntryPlan} {quantity : Decimal} {passes : ℕ},
      passes + remaining = maxDownwardPasses →
      SameValue (lotsLess terms.rules first passes) quantity → IsLots terms.rules quantity →
      Passed terms first passes → plan.noTrade = none →
      sizingLoop terms plan quantity passes remaining = .ok result →
      ∃ last ≤ maxDownwardPasses, Passed terms first last ∧
        ((Meets terms (lotsLess terms.rules first last) ∧
            ∃ other, OpensAt terms result other ∧ IsLots terms.rules other ∧
              SameValue (lotsLess terms.rules first last) other) ∨
          (result.noTrade ≠ none ∧ (¬ Meets terms (lotsLess terms.rules first last) ∨
            last = maxDownwardPasses ∧ ¬ Fits terms (lotsLess terms.rules first last)))) := by
  induction remaining using Nat.strong_induction_on with
  | _ remaining ih =>
      intro plan result quantity passes count same lots passed unrefused run
      cases sizingLoop_turn run with
      | below minimum isMinimum =>
          have below : ¬ Meets terms quantity := fun meets => by
            cases (belowMinimum_eq_none.mpr meets).symm.trans isMinimum
          exact ⟨passes, by omega, passed, .inr ⟨by simp [EntryPlan.refuse],
            .inl fun meets => below (meets.of_sameValue same)⟩⟩
      | fitting isMinimum isCosts isFitting =>
          have meets := belowMinimum_eq_none.mp isMinimum
          exact ⟨passes, by omega, passed, .inl ⟨meets.of_sameValue same.symm, quantity,
            ⟨unrefused, rfl, _, rfl, isCosts, fits_eq_true.mp isFitting⟩, lots, same⟩⟩
      | spent isCosts tooMuch =>
          exact ⟨passes, by omega, passed, .inr ⟨by simp [EntryPlan.refuse],
            .inr ⟨by omega, fun fitting => not_fits isCosts tooMuch (fitting.of_sameValue same)⟩⟩⟩
      | @pass fewer _ tried smaller isPass run =>
          obtain ⟨costs, isCosts, tooMuch⟩ := isPass.tooMuch
          have meets := belowMinimum_eq_none.mp isPass.minimum
          have passedMore : Passed terms first (passes + 1) := by
            intro less before
            rcases Nat.lt_succ_iff_lt_or_eq.mp before with earlier | rfl
            · exact passed less earlier
            · exact ⟨meets.of_sameValue same.symm,
                fun fitting => not_fits isCosts tooMuch (fitting.of_sameValue same)⟩
          have leaves : LeavesHeldLots terms.rules quantity := by
            obtain ⟨left, isLeft, whole⟩ := held passes (by omega) passedMore
            exact ⟨left, same.symm.trans isLeft, whole⟩
          have removes := (pass_exact_iff few isPass lots).mpr leaves
          have sameLess : SameValue (lotsLess terms.rules first (passes + 1)) smaller := by
            rw [SameValue, lotsLess_toRat, removes.oneLess, ← same, lotsLess_toRat]
            push_cast
            ring
          have open_ : (plan.trying quantity passes (some tried)).noTrade = none := unrefused
          exact ih fewer fewer.lt_succ_self (by omega) sameLess removes.multiple passedMore open_ run

/-! ## The plan -/

/-- A number of lots less that fits, with every quantity down to it above the minimums. -/
def FitsAfter (terms : SizingTerms) (first : Decimal) (lots : ℕ) : Prop :=
  (∀ less ≤ lots, Meets terms (lotsLess terms.rules first less)) ∧
    Fits terms (lotsLess terms.rules first lots)

/-- What the plan of an entry is to be, from what its loop starts with. -/
structure Maximal (terms : SizingTerms) (candidates : Candidates) (first : Decimal)
    (plan : EntryPlan) : Prop where
  opens : plan.opened = true ↔ ∃ lots ≤ maxDownwardPasses, FitsAfter terms first lots
  least : ∀ lots ≤ maxDownwardPasses, FitsAfter terms first lots →
    (∀ less < lots, ¬ FitsAfter terms first less) →
    ∃ quantity, plan.quantity = some quantity ∧
      quantity.toRat = first.toRat - lots * terms.rules.lot.toRat
  opened : plan.opened = true → ∃ quantity, OpensAt terms plan quantity ∧ 0 < quantity.toRat ∧
    IsLots terms.rules quantity ∧ quantity.toRat ≤ candidates.perEntryLoss.toRat ∧
    quantity.toRat ≤ candidates.aggregateLoss.toRat ∧ quantity.toRat ≤ candidates.notional.toRat ∧
    quantity.toRat ≤ candidates.cash.toRat

theorem least_toRat (first second : Decimal) :
    (least first second).toRat = min first.toRat second.toRat := by
  unfold least
  split
  next less =>
    rw [lt_iff] at less
    rw [min_eq_right less.le]
  next more =>
    rw [lt_iff, not_lt] at more
    rw [min_eq_left more]

/-- The lots of an entry are not above any candidate. -/
theorem floored_le {candidates : Candidates} {lotDecimals : ℕ} {floored : Decimal}
    (isFloor : floorToLot candidates.quantity lotDecimals = .ok floored) :
    floored.toRat ≤ candidates.perEntryLoss.toRat ∧ floored.toRat ≤ candidates.aggregateLoss.toRat ∧
      floored.toRat ≤ candidates.notional.toRat ∧ floored.toRat ≤ candidates.cash.toRat := by
  have below : floored.toRat ≤ candidates.quantity.toRat := by
    rw [toRat_quantize isFloor]
    exact rescale_floor_le _ _
  rw [Candidates.quantity, least_toRat, least_toRat, least_toRat] at below
  simpa only [le_min_iff, and_assoc] using below

/-- **The sizing is maximal**: where every pass that is made leaves a number of lots that the context
of the thread holds, the plan opens exactly when one of the quantities up to three lots below the
least candidate fits and none down to it is below a minimum, and then it opens at the first of
them. -/
theorem sizing_is_maximal (runtime : Runtime) (envelope : Envelope) (offer : EntryOffer)
    (account : SizingAccount) (feeBps : Decimal)
    (start : SizingStart runtime envelope offer account feeBps) (plan : EntryPlan)
    (planned : planLongEntry runtime envelope offer account feeBps = .ok plan)
    (held : HeldPasses start.terms start.quantity) :
    Maximal start.terms start.candidates start.quantity plan := by
  have isFirst : SameValue (lotsLess start.terms.rules start.quantity 0) start.quantity := by
    rw [SameValue, lotsLess_toRat]
    simp
  have run := start.loops.symm.trans planned
  obtain ⟨last, within, passed, stops⟩ := sizingLoop_stops (lotDecimals_le start.rules) held _
    (by decide) isFirst (floorToLot_isLots start.floored) (by intro less before; cases before)
    start.recorded.1 run
  have fitsAfter_last : ∀ lots, FitsAfter start.terms start.quantity lots → last ≤ lots := by
    intro lots fitsAfter
    by_contra before
    exact (passed lots (not_le.mp before)).2 fitsAfter.2
  rcases stops with ⟨meets, quantity, opens, lots, same⟩ | ⟨refused, ends⟩
  · have unrefused : plan.noTrade = none := opens.1
    have isLast : FitsAfter start.terms start.quantity last := by
      refine ⟨?_, ?_⟩
      · intro less before
        rcases Nat.lt_or_eq_of_le before with earlier | rfl
        · exact (passed less earlier).1
        · exact meets
      · obtain ⟨costs, _, isCosts, fitting⟩ := opens.2.2
        exact Fits.of_sameValue same.symm ⟨costs, isCosts, fitting⟩
    have value : quantity.toRat = start.quantity.toRat - last * start.terms.rules.lot.toRat := by
      rw [← same, lotsLess_toRat]
    refine ⟨?_, ?_, ?_⟩
    · simp only [EntryPlan.opened, unrefused, Option.isNone_none, true_iff]
      exact ⟨last, within, isLast⟩
    · intro lots _ fitsAfter first
      have isLots : lots = last := by
        refine le_antisymm ?_ (fitsAfter_last lots fitsAfter)
        by_contra after
        exact first last (not_le.mp after) isLast
      exact ⟨quantity, opens.2.1, by rw [isLots, value]⟩
    · intro _
      have fewer : quantity.toRat ≤ start.quantity.toRat := by
        rw [value]
        have lot := lot_pos start.terms.rules
        have some : 0 ≤ last * start.terms.rules.lot.toRat := by positivity
        linarith
      obtain ⟨perEntry, aggregate, notional, cash⟩ := floored_le start.floored
      refine ⟨quantity, opens, ?_, lots, fewer.trans perEntry, fewer.trans aggregate,
        fewer.trans notional, fewer.trans cash⟩
      exact (meets.of_sameValue same).positive
  · have none : ∀ lots ≤ maxDownwardPasses, ¬ FitsAfter start.terms start.quantity lots := by
      intro lots few fitsAfter
      have atLeast := fitsAfter_last lots fitsAfter
      rcases ends with below | ⟨all, tooMuch⟩
      · exact below (fitsAfter.1 last atLeast)
      · have isLast : lots = last := by omega
        rw [isLast] at fitsAfter
        exact tooMuch fitsAfter.2
    have closed : plan.opened = false := by
      cases isRefused : plan.noTrade with
      | none => exact absurd isRefused refused
      | some refusal => simp [EntryPlan.opened, isRefused]
    refine ⟨?_, ?_, ?_⟩
    · rw [closed]
      constructor
      · intro opened
        cases opened
      · rintro ⟨lots, few, fitsAfter⟩
        exact absurd fitsAfter (none lots few)
    · intro lots few fitsAfter
      exact absurd fitsAfter (none lots few)
    · intro opened
      rw [closed] at opened
      cases opened

/-! ## Samples -/

theorem lotDecimals_eq {runtime : Runtime} {envelope : Envelope} {offer : EntryOffer}
    {account : SizingAccount} {feeBps : Decimal} {decimals : ℕ}
    (start : SizingStart runtime envelope offer account feeBps)
    (check : (parsePairRules runtime offer.pairEntry).toOption.map PairRules.lotDecimals =
      some decimals) : start.terms.rules.lotDecimals = decimals := by
  rw [start.rules] at check
  exact Option.some_inj.mp check

/-- The plain entry opens at one lot below its least candidate. -/
theorem sizing_is_maximal_plain :
    ∃ (start : SizingStart sampleRuntime sampleEnvelope plainOffer
        (sampleAccount ⟨false, 10000, -2⟩) (.ofNat 26)) (plan : EntryPlan),
      samplePlan plainOffer ⟨false, 10000, -2⟩ = .ok plan ∧ plan.passes = 1 ∧
        Maximal start.terms start.candidates start.quantity plan := by
  obtain ⟨plan, planned, isLots⟩ := show ∃ plan, samplePlan plainOffer ⟨false, 10000, -2⟩ = .ok plan ∧
      plan.lots = (some ⟨false, 8, -2⟩, 1, some ⟨false, 7, -2⟩) from plan_of_map (by decide +kernel)
  obtain ⟨start, isFirst, _⟩ := tried_of_lots planned isLots
  have decimals := lotDecimals_eq start (show _ = some 2 by decide +kernel)
  have held : HeldPasses start.terms start.quantity := by
    intro less before _
    refine ⟨7 - less, ?_, ?_⟩
    · rw [lotsLess_toRat, lot_toRat, isFirst, decimals]
      unfold maxDownwardPasses at before
      interval_cases less <;> norm_num [toRat, magnitude]
    · unfold maxDownwardPasses at before
      interval_cases less <;> decide
  simp only [EntryPlan.lots, Prod.mk.injEq] at isLots
  exact ⟨start, plan, planned, isLots.2.1,
    sizing_is_maximal sampleRuntime sampleEnvelope plainOffer _ _ start plan planned held⟩

/-- 1.08 USD in whole lots. -/
def wholeOffer : EntryOffer := sampleOffer ⟨false, 108, -2⟩ ⟨false, 5, -2⟩ 0

/-- With 29 digits the first pass takes four lots off, and the plan opens below the three lots that
passes may take. -/
theorem a_pass_can_take_four_lots :
    ∃ (start : SizingStart sampleRuntime sampleEnvelope wholeOffer
        (sampleAccount ⟨false, 1, 30⟩) (.ofNat 26)) (plan : EntryPlan),
      samplePlan wholeOffer ⟨false, 1, 30⟩ = .ok plan ∧
        ¬ Maximal start.terms start.candidates start.quantity plan := by
  obtain ⟨plan, planned, isPlan⟩ := show ∃ plan, samplePlan wholeOffer ⟨false, 1, 30⟩ = .ok plan ∧
      (plan.opened, plan.lots) = (true, some ⟨false, 22677123299873389085192146894, 0⟩, 1,
        some ⟨false, 2267712329987338908519214689, 1⟩) from plan_of_map (by decide +kernel)
  obtain ⟨opened, isLots⟩ := Prod.mk.inj isPlan
  obtain ⟨start, isFirst, _⟩ := tried_of_lots planned isLots
  refine ⟨start, plan, planned, ?_⟩
  intro maximal
  have decimals := lotDecimals_eq start (show _ = some 0 by decide +kernel)
  have some := maximal.opens.mp opened
  classical
  obtain ⟨few, fitsAfter⟩ := Nat.find_spec some
  obtain ⟨quantity, isQuantity, value⟩ := maximal.least _ few fitsAfter (by
    intro less before earlier
    exact Nat.find_min some before ⟨before.le.trans few, earlier⟩)
  generalize Nat.find some = lots at few value
  simp only [EntryPlan.lots, Prod.mk.injEq] at isLots
  rw [isLots.2.2, Option.some_inj] at isQuantity
  rw [← isQuantity, isFirst, lot_toRat, decimals] at value
  unfold maxDownwardPasses at few
  interval_cases lots <;> norm_num [toRat, magnitude] at value

end CryptoRadar.Risk
