import CryptoRadar.Costs.Agreement
import CryptoRadar.Lib.DecimalBounds
import Mathlib.Tactic.Linarith

/-!
# The fee lower bound is a bound

A leg costs at least its fee rate, whatever its book was: a buy fills at the mid or above it, and a
sell that fills below the mid saves less on its fee than it loses on its price (`rate_le_leg`). The
rates of the inputs are below one (`FeeInput.rate_bounds`, `SpreadInput.half_bounds`), so the total of
a complete scenario is not below the bound from the fees alone
(`fee_lower_bound_is_a_bound`).
-/

set_option autoImplicit false

namespace CryptoRadar.Costs

open Checked Decimal

/-! ## The ranges of the inputs -/

theorem zero_toRat : zero.toRat = 0 := by simp [zero, toRat_ofNat]

theorem requireBelow_eq_ok {field detail : String} {limit value : Decimal}
    (checked : requireBelow field detail limit value = .ok ()) :
    0 ≤ value.toRat ∧ value.toRat < limit.toRat := by
  obtain ⟨notNegative, below⟩ := ensure_eq_ok.mp checked
  rw [Bool.eq_false_iff, ne_eq, lt_iff, zero_toRat, not_lt] at notNegative
  rw [Bool.eq_false_iff, ne_eq, le_iff, not_le] at below
  exact ⟨notNegative, below⟩

/-- The size of a number is rounded from the number without its sign. -/
theorem magnitudeOf_eq_ok {value size : Decimal} (isSize : magnitudeOf value = .ok size) :
    ∃ number : Decimal, number.negative = false ∧ number.magnitude = value.magnitude ∧
      fit .default number = .ok size := by
  unfold magnitudeOf at isSize
  cases negative : value.negative with
  | false =>
      rw [negative] at isSize
      exact ⟨value, negative, rfl, isSize⟩
  | true =>
      rw [negative, if_pos rfl] at isSize
      unfold neg at isSize
      split at isSize
      · exact ⟨{ value with negative := false }, rfl, rfl, isSize⟩
      · exact ⟨value.copyNegate, by simp [copyNegate, negative], rfl, isSize⟩

/-- A rate whose rounded size is below 10,000 is below 10,000 itself. -/
theorem requireRate_eq_ok {field : String} {value : Decimal}
    (checked : requireRate field value = .ok ()) : |value.toRat| < 10000 := by
  obtain ⟨size, isSize, checked⟩ := bind_eq_ok.mp checked
  have below := ensure_eq_ok.mp checked
  rw [Bool.eq_false_iff, ne_eq, le_iff, bps_toRat, not_le] at below
  obtain ⟨number, sign, isMagnitude, isFit⟩ := magnitudeOf_eq_ok (mapError_eq_ok.mp isSize)
  have absolute : |value.toRat| = value.magnitude := by
    cases negative : value.negative <;> simp [toRat, negative, abs_of_nonneg (magnitude_nonneg value)]
  by_contra above
  rw [not_lt, absolute, ← isMagnitude] at above
  have reached : (10 : ℚ) ^ (4 : ℤ) ≤ number.magnitude := by
    norm_num
    exact above
  have kept := pow_le_fit (by decide) (by decide) reached isFit
  have nonzero : number.coeff ≠ 0 := by
    intro zero
    rw [magnitude_eq_zero.mpr zero] at reached
    norm_num at reached
  have sizeSign := (fit_bracket (by decide) nonzero isFit).1
  have same : size.toRat = size.magnitude := by simp [toRat, sizeSign, sign]
  rw [same] at below
  norm_num at kept
  linarith

theorem FeeInput.rate_bounds (fee : FeeInput) :
    -1 < fee.bps.toRat / 10000 ∧ fee.bps.toRat / 10000 < 1 := by
  obtain ⟨_, checked, _⟩ := bind_eq_ok.mp fee.checked
  obtain ⟨above, below⟩ := abs_lt.mp (requireRate_eq_ok checked)
  constructor
  · linarith
  · linarith

theorem SlippageInput.rate_bounds (slippage : SlippageInput) :
    0 ≤ slippage.bps.toRat / 10000 ∧ slippage.bps.toRat / 10000 < 1 := by
  obtain ⟨_, checked, _⟩ := bind_eq_ok.mp slippage.checked
  obtain ⟨notNegative, below⟩ := requireBelow_eq_ok checked
  rw [bps_toRat] at below
  exact ⟨by positivity, (div_lt_one (by norm_num)).mpr below⟩

theorem SpreadInput.half_bounds (spread : SpreadInput) :
    0 ≤ spread.bps.toRat / 2 / 10000 ∧ spread.bps.toRat / 2 / 10000 < 1 := by
  obtain ⟨_, checked, _⟩ := bind_eq_ok.mp spread.checked
  obtain ⟨notNegative, below⟩ := requireBelow_eq_ok checked
  rw [toRat_ofNat] at below
  push_cast at below
  refine ⟨by positivity, ?_⟩
  rw [div_div, div_lt_one (by norm_num)]
  linarith

/-! ## The parts -/

/-- The value of a half spread; there is none where it is part of the slippage. -/
theorem spreadPart_value {scenario : CostScenarioInput} {part : Part (Option Decimal)}
    (isPart : spreadPart scenario = .ok part) {half : Decimal} (isHalf : part.value = some half) :
    ∃ spread, scenario.spread = .given spread ∧ half.toRat = spread.bps.toRat / 2 / 10000 := by
  unfold spreadPart at isPart
  split at isPart
  next => cases isPart
  next =>
    cases isPart
    cases isHalf
  next spread _ supplied =>
    obtain ⟨fraction, isFraction, made⟩ := bind_eq_ok.mp isPart
    cases made
    cases isHalf
    obtain ⟨halved, isHalved, isRate⟩ := bind_eq_ok.mp (exact_eq_ok.mp isFraction)
    have twoValue : two.toRat = 2 := by simp [two, toRat_ofNat]
    refine ⟨spread, supplied, ?_⟩
    rw [rate_toRat isRate, divExact_toRat (by rw [twoValue]; norm_num) isHalved, twoValue]
  next =>
    cases isPart
    cases isHalf

/-- A half spread is part of the touch. -/
theorem spreadPart_bounds {scenario : CostScenarioInput} {part : Part (Option Decimal)}
    (isPart : spreadPart scenario = .ok part) {half : Decimal} (isHalf : part.value = some half) :
    0 ≤ half.toRat ∧ half.toRat < 1 := by
  obtain ⟨spread, _, value⟩ := spreadPart_value isPart isHalf
  rw [value]
  exact spread.half_bounds

/-- A leg of a scenario without a missing component has a fill. -/
theorem legPart_filled {scenario : CostScenarioInput} {spread : Part (Option Decimal)} {leg : Leg}
    {part : Part (Option Fill)} (isPart : legPart scenario spread leg = .ok part)
    (isObserved : spread.missing = []) (complete : part.missing = []) :
    ∃ slippage : SlippageInput, scenario.slippage (legDirection scenario.side leg) = .given slippage ∧
      ∃ fraction fill, fraction.toRat = slippage.bps.toRat / 10000 ∧
      fillOf (legDirection scenario.side leg) spread.value fraction = .ok fill ∧
      part.value = some fill := by
  unfold legPart at isPart
  simp only at isPart
  split at isPart
  next =>
    cases isPart
    cases complete
  next slippage supplied =>
    split at isPart
    next =>
      cases isPart
      cases complete
    next =>
      split at isPart
      next unobserved => exact absurd isObserved unobserved
      next =>
        obtain ⟨fraction, isFraction, isPart⟩ := bind_eq_ok.mp isPart
        obtain ⟨fill, isFill, made⟩ := bind_eq_ok.mp isPart
        cases made
        exact ⟨slippage, supplied, fraction, fill, rate_toRat (exact_eq_ok.mp isFraction), isFill, rfl⟩

theorem feePart_charged {scenario : CostScenarioInput} {leg : Leg} {fill : Fill}
    {part : Part (Option Decimal)} (isPart : feePart scenario leg (some fill) = .ok part)
    (complete : part.missing = []) :
    ∃ fee charged, scenario.fee leg = .given fee ∧ part.value = some charged ∧
      charged.toRat = fee.bps.toRat / 10000 * fill.notionalFraction.toRat := by
  unfold feePart at isPart
  split at isPart
  next =>
    cases isPart
    cases complete
  next fee isFee =>
    obtain ⟨fraction, isFraction, made⟩ := bind_eq_ok.mp isPart
    cases made
    obtain ⟨rate, isRate, isProduct⟩ := bind_eq_ok.mp (exact_eq_ok.mp isFraction)
    exact ⟨fee, fraction, isFee, rfl, by rw [mulExact_toRat isProduct, rate_toRat isRate]⟩

/-! ## One leg -/

/-- A leg costs at least its fee rate. -/
theorem rate_le_leg (direction : TradeDirection) {half slippage rate : ℚ} (halfBounds : 0 ≤ half ∧ half < 1)
    (slippageBounds : 0 ≤ slippage ∧ slippage < 1) (rateBounds : 0 ≤ rate ∧ rate ≤ 1) {fill : ℚ}
    (isFill : fill = (1 + direction.factor * half) * (1 + direction.factor * slippage)) :
    rate ≤ direction.factor * (fill - 1) + rate * fill := by
  obtain ⟨halfSome, halfBelow⟩ := halfBounds
  obtain ⟨slippageSome, slippageBelow⟩ := slippageBounds
  obtain ⟨rateSome, rateBelow⟩ := rateBounds
  cases direction with
  | buy =>
      have above : 1 ≤ fill := by
        rw [isFill, TradeDirection.factor]
        nlinarith [mul_nonneg halfSome slippageSome]
      have cost : 0 ≤ (fill - 1) * (1 + rate) := mul_nonneg (by linarith) (by linarith)
      rw [TradeDirection.factor]
      linarith
  | sell =>
      have below : fill ≤ 1 := by
        rw [isFill, TradeDirection.factor]
        nlinarith [mul_nonneg halfSome (sub_nonneg.mpr slippageBelow.le)]
      have cost : 0 ≤ (1 - fill) * (1 - rate) := mul_nonneg (by linarith) (by linarith)
      rw [TradeDirection.factor]
      linarith

/-- The lines of a leg and of its fee add up to its fee rate or more. -/
theorem rate_le_lines {scenario : CostScenarioInput} {spread : Part (Option Decimal)} {leg : Leg}
    {part : Part (Option Fill)} {feePart_ : Part (Option Decimal)}
    (isSpread : spreadPart scenario = .ok spread) (isPart : legPart scenario spread leg = .ok part)
    (isFee : feePart scenario leg part.value = .ok feePart_) (observed : spread.missing = [])
    (filled : part.missing = []) (charged : feePart_.missing = []) {fee : FeeInput}
    (isGiven : scenario.fee leg = .given fee) (notNegative : 0 ≤ fee.bps.toRat) :
    fee.bps.toRat / 10000 ≤ linesTotal part.lines + linesTotal feePart_.lines := by
  obtain ⟨slippage, _, fraction, fill, isFraction, isFill, isValue⟩ :=
    legPart_filled isPart observed filled
  rw [isValue] at isFee
  obtain ⟨other, amount, isOther, isAmount, product⟩ := feePart_charged isFee charged
  cases isGiven.symm.trans isOther
  obtain ⟨_, notional, _⟩ := fillOf_toRat isFill
  have halfBounds : 0 ≤ spread.value.elim 0 toRat ∧ spread.value.elim 0 toRat < 1 := by
    cases isHalf : spread.value with
    | none => exact ⟨le_refl _, by norm_num⟩
    | some half => exact spreadPart_bounds isSpread isHalf
  rw [isFraction] at notional
  rw [legPart_lines isPart isValue, feePart_lines isFee isAmount, product]
  exact rate_le_leg _ halfBounds slippage.rate_bounds ⟨by positivity, fee.rate_bounds.2.le⟩ notional

/-! ## The bound -/

theorem feeBound_eq_ok {scenario : CostScenarioInput} {leg : Leg} {bound : FeeInput × CostLine}
    (isBound : feeBound scenario leg = .ok bound) :
    scenario.fee leg = .given bound.1 ∧ 0 ≤ bound.1.bps.toRat ∧
      bound.2.fraction.toRat = bound.1.bps.toRat / 10000 := by
  unfold feeBound at isBound
  split at isBound
  next => cases isBound
  next other isGiven =>
    obtain ⟨_, notNegative, isBound⟩ := bind_eq_ok.mp isBound
    obtain ⟨fraction, isFraction, made⟩ := bind_eq_ok.mp isBound
    cases made
    have atLeast := ensure_eq_ok.mp notNegative
    rw [Bool.eq_false_iff, ne_eq, lt_iff, zero_toRat, not_lt] at atLeast
    exact ⟨isGiven, atLeast, rate_toRat (exact_eq_ok.mp isFraction)⟩

/-- What the bound was computed from. -/
theorem roundTripCostLowerBound_eq_ok {scenario : CostScenarioInput} {bound : CostLowerBound}
    (isBound : roundTripCostLowerBound scenario = .ok bound) :
    (∃ line, noFunding scenario = .ok line) ∧
      ∃ entry exit : FeeInput, scenario.entryFee = .given entry ∧ scenario.exitFee = .given exit ∧
        0 ≤ entry.bps.toRat ∧ 0 ≤ exit.bps.toRat ∧
        bound.lowerBoundFraction.toRat = entry.bps.toRat / 10000 + exit.bps.toRat / 10000 := by
  obtain ⟨_, _, isBound⟩ := bind_eq_ok.mp isBound
  obtain ⟨_, _, isBound⟩ := bind_eq_ok.mp isBound
  obtain ⟨fees, isFees, isBound⟩ := bind_eq_ok.mp isBound
  obtain ⟨line, isLine, isBound⟩ := bind_eq_ok.mp isBound
  obtain ⟨sum, isSum, made⟩ := bind_eq_ok.mp isBound
  cases made
  refine ⟨⟨line, isLine⟩, ?_⟩
  cases mapM_eq_ok.mp isFees with
  | @cons _ first _ _ isEntry others =>
      cases others with
      | @cons _ second _ _ isExit none =>
          cases none
          obtain ⟨entryGiven, entryAtLeast, entryRate⟩ := feeBound_eq_ok isEntry
          obtain ⟨exitGiven, exitAtLeast, exitRate⟩ := feeBound_eq_ok isExit
          refine ⟨first.1, second.1, entryGiven, exitGiven, entryAtLeast, exitAtLeast, ?_⟩
          rw [sumExact_toRat (exact_eq_ok.mp isSum)]
          simp [entryRate, exitRate]

/-- Without funding intervals there are no funding lines. -/
theorem fundingPart_none {scenario : CostScenarioInput} {line : NotApplicableLine}
    (isLine : noFunding scenario = .ok line) {part : Part Decimal}
    (isPart : fundingPart scenario = .ok part) : linesTotal part.lines = 0 := by
  unfold noFunding at isLine
  unfold fundingPart at isPart
  cases kind : scenario.instrument.kind with
  | spot =>
      rw [kind] at isLine isPart
      cases funding : scenario.funding <;> rw [funding] at isLine isPart
      · cases isLine
      · cases isPart
        rfl
      · cases isPart
        rfl
  | futures =>
      rw [kind] at isLine isPart
      by_cases none : scenario.fundingIntervals = 0
      · simp only [if_pos none] at isPart
        cases isPart
        rfl
      · simp only [if_neg none] at isLine
        cases isLine

/-- **The fee lower bound is a bound**: a scenario whose spread and slippages are observed after
all, and which is then complete, does not cost less than the bound of the scenario without
them. -/
theorem fee_lower_bound_is_a_bound (scenario : CostScenarioInput) (bound : CostLowerBound)
    (isBound : roundTripCostLowerBound scenario = .ok bound) (spread : Supplied SpreadInput)
    (buy sell : Required SlippageInput) (priced : CostScenario)
    (isPriced : priceRoundTrip { scenario with
      spread := spread, buySlippage := buy, sellSlippage := sell } = .ok priced)
    (complete : priced.status = .complete) :
    ∃ total, priced.totalFraction = some total ∧
      Decimal.le bound.lowerBoundFraction total = true := by
  obtain ⟨⟨line, isLine⟩, entryFee, exitFee, entryGiven, exitGiven, entryAtLeast, exitAtLeast, value⟩ :=
    roundTripCostLowerBound_eq_ok isBound
  obtain ⟨⟨spreadPart_, entry, exit, entryCharge, exitCharge, funding, fx, total, money, isSpread,
    isEntry, isExit, isEntryFee, isExitFee, isFunding, _, none, lines, isSum, isTotal, _⟩, _⟩ :=
    pricedFrom_of_complete isPriced complete
  obtain ⟨noSpread, noEntry, noExit, noEntryFee, noExitFee, _⟩ := none
  have entryCost := rate_le_lines isSpread isEntry isEntryFee noSpread noEntry noEntryFee entryGiven
    entryAtLeast
  have exitCost := rate_le_lines isSpread isExit isExitFee noSpread noExit noExitFee exitGiven
    exitAtLeast
  have noLines : linesTotal funding.lines = 0 := fundingPart_none isLine isFunding
  have sum := total_toRat isSum
  rw [lines, linesTotal_append, linesTotal_append, linesTotal_append, linesTotal_append, noLines] at sum
  refine ⟨total, isTotal, ?_⟩
  rw [le_iff, value, sum]
  linarith

/-- The spot round trip with its book costs what its fees alone cost, or more. -/
theorem fee_lower_bound_is_a_bound_spot :
    ∃ bound priced total, roundTripCostLowerBound spotScenario = .ok bound ∧
      priceRoundTrip observedScenario = .ok priced ∧ priced.totalFraction = some total ∧
      Decimal.le bound.lowerBoundFraction total = true := by
  obtain ⟨priced, isPriced, complete⟩ := observedScenario_priced
  have check : (roundTripCostLowerBound spotScenario).isOk = true := by decide +kernel
  cases isBound : roundTripCostLowerBound spotScenario with
  | error failure =>
      rw [isBound] at check
      cases check
  | ok bound =>
      obtain ⟨total, isTotal, atLeast⟩ :=
        fee_lower_bound_is_a_bound spotScenario bound isBound tenBps fiveBps fiveBps priced isPriced complete
      exact ⟨bound, priced, total, rfl, isPriced, isTotal, atLeast⟩

end CryptoRadar.Costs
