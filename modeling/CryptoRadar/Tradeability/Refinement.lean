import CryptoRadar.Costs.LowerBound
import CryptoRadar.Tradeability.Scenarios

/-!
# The rational scenarios are those of the decimals

The scenarios of the preview are in rational numbers; the program computes them in decimals, in a
context that traps rounding. A scenario of decimals, as a venue of the preview has it (`OfVenue`),
has one of rational numbers with the values of its inputs (`valuesOf`), and what the program makes
of the first is what is made of the second (`priceRoundTrip_values`): the same lines with the values
of their fractions, the same missing components and the value of the total.
-/

set_option autoImplicit false

namespace CryptoRadar.Tradeability

open Checked Decimal
open Costs (CostFailure Leg MissingLine Required Supplied TradeDirection exact_eq_ok legDirection
  outOfRange rate_toRat requireText)

/-! ## The values of inputs -/

theorem positive_of_checked (size : Costs.ScenarioSize) : ensure (0 < size.notional.toRat)
    (outOfRange "ScenarioSize.notional" "must be > 0") = .ok () := by
  have above := Bool.eq_false_iff.mp (ensure_eq_ok.mp size.checked)
  rw [ne_eq, le_iff, Costs.zero, toRat_ofNat, not_le] at above
  exact ensure_of (by exact_mod_cast above)

theorem checkSpread_of_checked (spread : Costs.SpreadInput) :
    checkSpread spread.bps.toRat spread.source = .ok () := by
  obtain ⟨_, checked, named⟩ := bind_eq_ok.mp spread.checked
  obtain ⟨notNegative, below⟩ := Costs.requireBelow_eq_ok checked
  rw [toRat_ofNat] at below
  exact bind_eq_ok.mpr ⟨(), ensure_of ⟨notNegative, by exact_mod_cast below⟩, named⟩

theorem checkSlippage_of_checked (slippage : Costs.SlippageInput) :
    checkSlippage slippage.bps.toRat slippage.measuredNotional.toRat slippage.source = .ok () := by
  obtain ⟨_, checked, rest⟩ := bind_eq_ok.mp slippage.checked
  obtain ⟨_, measured, named⟩ := bind_eq_ok.mp rest
  obtain ⟨notNegative, below⟩ := Costs.requireBelow_eq_ok checked
  rw [Costs.bps_toRat] at below
  have above := Bool.eq_false_iff.mp (ensure_eq_ok.mp measured)
  rw [ne_eq, le_iff, Costs.zero, toRat_ofNat, not_le] at above
  exact bind_eq_ok.mpr ⟨(), ensure_of ⟨notNegative, below⟩,
    bind_eq_ok.mpr ⟨(), ensure_of (by exact_mod_cast above), named⟩⟩

theorem checkFee_of_checked (fee : Costs.FeeInput) : checkFee fee.bps.toRat fee.source = .ok () := by
  obtain ⟨_, checked, named⟩ := bind_eq_ok.mp fee.checked
  exact bind_eq_ok.mpr ⟨(), ensure_of (Costs.requireRate_eq_ok checked), named⟩

def sizeValue (size : Costs.ScenarioSize) : ScenarioSize :=
  ⟨size.notional.toRat, size.provenance, positive_of_checked size⟩

def spreadValue (spread : Costs.SpreadInput) : SpreadInput :=
  ⟨spread.bps.toRat, spread.source, checkSpread_of_checked spread⟩

def slippageValue (slippage : Costs.SlippageInput) : SlippageInput :=
  ⟨slippage.bps.toRat, slippage.basis, slippage.measuredNotional.toRat, slippage.coverage,
    slippage.source, checkSlippage_of_checked slippage⟩

def feeValue (fee : Costs.FeeInput) : FeeInput :=
  ⟨fee.bps.toRat, fee.basis, fee.source, checkFee_of_checked fee⟩

/-- An input that is known has a value. -/
def requiredValue {Input Value : Type} (value : Input → Value) : Required Input → Required Value
  | .given input => .given (value input)
  | .missing why => .missing why

/-- A spread that is left out is missing. -/
def suppliedValue {Input Value : Type} (value : Input → Value) : Supplied Input → Required Value
  | .given input => .given (value input)
  | .missing why => .missing why
  | .absent => .missing ⟨.notObserved, "spread not supplied"⟩

/-- The scenario of rational numbers with the values of a scenario of decimals. -/
def valuesOf (scenario : Costs.CostScenarioInput) : CostScenarioInput where
  kind := scenario.instrument.kind
  side := scenario.side
  size := sizeValue scenario.size
  spread := suppliedValue spreadValue scenario.spread
  buySlippage := requiredValue slippageValue scenario.buySlippage
  sellSlippage := requiredValue slippageValue scenario.sellSlippage
  entryFee := requiredValue feeValue scenario.entryFee
  exitFee := requiredValue feeValue scenario.exitFee

theorem slippage_valuesOf (scenario : Costs.CostScenarioInput) (direction : TradeDirection) :
    (valuesOf scenario).slippage direction =
      requiredValue slippageValue (scenario.slippage direction) := by
  cases direction <;> rfl

theorem fee_valuesOf (scenario : Costs.CostScenarioInput) (leg : Leg) :
    (valuesOf scenario).fee leg = requiredValue feeValue (scenario.fee leg) := by
  cases leg <;> rfl

/-- A scenario as a venue of the preview has it: the slippage is from the touch, no funding interval
is crossed and no report currency is asked for. -/
structure OfVenue (scenario : Costs.CostScenarioInput) : Prop where
  convention : scenario.spreadConvention = .halfSpreadPlusTouchSlippage
  intervals : scenario.fundingIntervals = 0
  report : scenario.reportCurrency = none

/-! ## The values of parts -/

/-- A line with the value of its fraction. -/
def lineValue (line : Costs.CostLine) : CostLine :=
  ⟨line.component, line.leg, line.direction, line.fraction.toRat, line.source⟩

/-- What is missing and why; the text of the reason may show a decimal. -/
def kindOf (item : MissingLine) : Costs.CostComponent × Option Leg × Costs.MissingReason :=
  (item.component, item.leg, item.why.reason)

/-- The same lines and missing components, and the value of the value. -/
structure PartValues {Value Other : Type} (part : Costs.Part Value) (values : Part Other)
    (value : Value → Other) : Prop where
  value : values.value = value part.value
  lines : values.lines = part.lines.map lineValue
  missing : values.missing.map kindOf = part.missing.map kindOf

def fillValue (fill : Costs.Fill) : Fill :=
  ⟨fill.notionalFraction.toRat, fill.spread.elim 0 toRat, fill.slippage.toRat⟩

variable {scenario : Costs.CostScenarioInput}

theorem spreadPart_values (venue : OfVenue scenario) {part : Costs.Part (Option Decimal)}
    (isPart : Costs.spreadPart scenario = .ok part) :
    PartValues part (spreadPart (valuesOf scenario)) (Option.map toRat) := by
  unfold Costs.spreadPart at isPart
  rw [venue.convention] at isPart
  unfold spreadPart valuesOf
  cases supplied : scenario.spread with
  | given spread =>
      rw [supplied] at isPart
      obtain ⟨half, isHalf, made⟩ := bind_eq_ok.mp isPart
      cases made
      obtain ⟨halved, isHalved, isRate⟩ := bind_eq_ok.mp (exact_eq_ok.mp isHalf)
      have two : Costs.two.toRat = 2 := by simp [Costs.two, toRat_ofNat]
      have half_toRat : half.toRat = spread.bps.toRat / 2 / 10000 := by
        rw [rate_toRat isRate, divExact_toRat (by rw [two]; norm_num) isHalved, two]
      exact ⟨by simp [suppliedValue, spreadValue, half_toRat], rfl, rfl⟩
  | missing why =>
      rw [supplied] at isPart
      cases isPart
      exact ⟨rfl, rfl, rfl⟩
  | absent =>
      rw [supplied] at isPart
      cases isPart
      exact ⟨rfl, rfl, rfl⟩

theorem fillOf_values {direction : TradeDirection} {half slippage : Decimal} {fill : Costs.Fill}
    (isFill : Costs.fillOf direction (some half) slippage = .ok fill) :
    fillOf direction half.toRat slippage.toRat = fillValue fill := by
  obtain ⟨isSpread, notional, slip⟩ := Costs.fillOf_toRat isFill
  have same : sign direction = direction.factor := by cases direction <;> rfl
  unfold fillOf fillValue
  rw [isSpread, notional, slip, same]
  rfl

section Written

variable (written : ℚ → String)

theorem matchSlippage_values (venue : OfVenue scenario) {direction : TradeDirection}
    (checked : Costs.checkSlippage scenario direction = .ok ()) :
    matchSlippage written (valuesOf scenario) direction = .ok () := by
  unfold Costs.checkSlippage at checked
  unfold matchSlippage
  rw [slippage_valuesOf]
  cases supplied : scenario.slippage direction with
  | missing why => rfl
  | given slippage =>
      rw [supplied] at checked
      obtain ⟨_, based, checked⟩ := bind_eq_ok.mp checked
      have measured := eq_iff.mp (ensure_eq_ok.mp checked)
      have basis := ensure_eq_ok.mp based
      rw [venue.convention] at basis
      exact bind_eq_ok.mpr ⟨(), ensure_of basis, ensure_of measured⟩

/-- A spread that is given has a half; of any other there is none, and it is missing. -/
theorem spreadPart_cases (venue : OfVenue scenario) {part : Costs.Part (Option Decimal)}
    (isPart : Costs.spreadPart scenario = .ok part) :
    (∃ spread half, scenario.spread = .given spread ∧ part.value = some half ∧ part.missing = []) ∨
      (∀ spread, scenario.spread ≠ .given spread) ∧ part.missing ≠ [] := by
  unfold Costs.spreadPart at isPart
  rw [venue.convention] at isPart
  cases supplied : scenario.spread with
  | given spread =>
      rw [supplied] at isPart
      obtain ⟨half, _, made⟩ := bind_eq_ok.mp isPart
      cases made
      exact .inl ⟨spread, half, rfl, rfl, rfl⟩
  | missing why =>
      rw [supplied] at isPart
      cases isPart
      exact .inr ⟨by simp, by simp [Leg.all]⟩
  | absent =>
      rw [supplied] at isPart
      cases isPart
      exact .inr ⟨by simp, by simp [Leg.all]⟩

theorem legPart_values (venue : OfVenue scenario) {spread : Costs.Part (Option Decimal)}
    (isSpread : Costs.spreadPart scenario = .ok spread) {leg : Leg}
    {part : Costs.Part (Option Costs.Fill)} (isPart : Costs.legPart scenario spread leg = .ok part) :
    PartValues part (legPart written (valuesOf scenario) (spreadPart (valuesOf scenario)).value leg)
      (Option.map fillValue) := by
  rw [(spreadPart_values venue isSpread).value]
  have sameSide : (valuesOf scenario).side = scenario.side := rfl
  unfold Costs.legPart at isPart
  unfold legPart
  rw [sameSide]
  generalize legDirection scenario.side leg = direction at isPart ⊢
  simp only [slippage_valuesOf] at isPart ⊢
  cases given : scenario.slippage direction with
  | missing why =>
      rw [given] at isPart
      cases isPart
      exact ⟨rfl, rfl, rfl⟩
  | given slippage =>
      rw [given] at isPart
      simp only [requiredValue] at isPart ⊢
      by_cases uncovered : slippage.coverage = .partialDepth
      · rw [if_pos uncovered] at isPart
        cases isPart
        rw [if_pos (show (slippageValue slippage).coverage = .partialDepth from uncovered)]
        exact ⟨rfl, rfl, rfl⟩
      · rw [if_neg uncovered] at isPart
        rw [if_neg (show ¬ (slippageValue slippage).coverage = .partialDepth from uncovered)]
        rcases spreadPart_cases venue isSpread with
          ⟨given, half, isGiven, isHalf, nothing⟩ | ⟨others, some⟩
        · have supplied : (valuesOf scenario).spread = .given (spreadValue given) := by
            rw [valuesOf, isGiven, suppliedValue]
          rw [if_neg (not_not_intro nothing), isHalf] at isPart
          obtain ⟨fraction, isFraction, isPart⟩ := bind_eq_ok.mp isPart
          obtain ⟨fill, isFill, made⟩ := bind_eq_ok.mp isPart
          have bps := rate_toRat (exact_eq_ok.mp isFraction)
          have isSpread := (Costs.fillOf_toRat isFill).1
          cases made
          rw [isHalf, supplied]
          simp only [Option.map_some, slippageValue, spreadValue, ← bps, fillOf_values isFill, isGiven,
            isSpread]
          exact ⟨rfl, by simp [lineValue, fillValue, isSpread], rfl⟩
        · rw [if_pos some] at isPart
          cases isPart
          have unknown : ∀ spread, (valuesOf scenario).spread ≠ .given spread := by
            intro spread isGiven
            cases supplied : scenario.spread with
            | given other => exact others other supplied
            | missing why => simp [valuesOf, supplied, suppliedValue] at isGiven
            | absent => simp [valuesOf, supplied, suppliedValue] at isGiven
          cases supplied : (valuesOf scenario).spread with
          | given other => exact absurd supplied (unknown other)
          | missing why => cases spread.value <;> exact ⟨rfl, rfl, rfl⟩

end Written

theorem feePart_values {leg : Leg} {fill : Option Costs.Fill} {part : Costs.Part (Option Decimal)}
    (isPart : Costs.feePart scenario leg fill = .ok part) :
    PartValues part (feePart (valuesOf scenario) leg (fill.map fillValue)) fun _ => () := by
  have sameSide : (valuesOf scenario).side = scenario.side := rfl
  unfold Costs.feePart at isPart
  unfold feePart
  rw [sameSide, fee_valuesOf]
  cases given : scenario.fee leg with
  | missing why =>
      rw [given] at isPart
      cases isPart
      exact ⟨rfl, rfl, rfl⟩
  | given fee =>
      rw [given] at isPart
      cases fill with
      | none =>
          cases isPart
          exact ⟨rfl, rfl, rfl⟩
      | some fill =>
          obtain ⟨fraction, isFraction, made⟩ := bind_eq_ok.mp isPart
          obtain ⟨rate, isRate, isProduct⟩ := bind_eq_ok.mp (exact_eq_ok.mp isFraction)
          have value := mulExact_toRat isProduct
          rw [rate_toRat isRate] at value
          cases made
          refine ⟨rfl, ?_, rfl⟩
          simp [requiredValue, feeValue, fillValue, lineValue, value]

/-- Without a funding interval, funding adds nothing. -/
theorem fundingPart_quiet (venue : OfVenue scenario) {part : Costs.Part Decimal}
    (isPart : Costs.fundingPart scenario = .ok part) : part.lines = [] ∧ part.missing = [] := by
  unfold Costs.fundingPart at isPart
  rw [if_pos venue.intervals] at isPart
  split at isPart
  next =>
    split at isPart
    next => cases isPart
    next =>
      cases isPart
      exact ⟨rfl, rfl⟩
  next =>
    cases isPart
    exact ⟨rfl, rfl⟩

theorem fxPart_quiet (venue : OfVenue scenario) {part : Costs.Part (Option Decimal)}
    (isPart : Costs.fxPart scenario = .ok part) : part.lines = [] ∧ part.missing = [] := by
  unfold Costs.fxPart at isPart
  rw [venue.report] at isPart
  cases isPart
  exact ⟨rfl, rfl⟩

/-! ## The price -/

/-- **The price in decimals has the price in rational numbers as its value.** -/
theorem priceRoundTrip_values (written : ℚ → String) (venue : OfVenue scenario)
    {priced : Costs.CostScenario} (isPriced : Costs.priceRoundTrip scenario = .ok priced) :
    ∃ values, priceRoundTrip written (valuesOf scenario) = .ok values ∧
      values.status = priced.status ∧ values.lines = priced.lines.map lineValue ∧
      values.missing.map kindOf = priced.missing.map kindOf ∧
      values.totalFraction = priced.totalFraction.map toRat := by
  obtain ⟨spread, isSpread, isPriced⟩ := bind_eq_ok.mp isPriced
  obtain ⟨_, buys, isPriced⟩ := bind_eq_ok.mp isPriced
  obtain ⟨_, sells, isPriced⟩ := bind_eq_ok.mp isPriced
  obtain ⟨entry, isEntry, isPriced⟩ := bind_eq_ok.mp isPriced
  obtain ⟨exit, isExit, isPriced⟩ := bind_eq_ok.mp isPriced
  obtain ⟨entryFee, isEntryFee, isPriced⟩ := bind_eq_ok.mp isPriced
  obtain ⟨exitFee, isExitFee, isPriced⟩ := bind_eq_ok.mp isPriced
  obtain ⟨funding, isFunding, isPriced⟩ := bind_eq_ok.mp isPriced
  obtain ⟨fx, isFx, isPriced⟩ := bind_eq_ok.mp isPriced
  have spreadValues := spreadPart_values venue isSpread
  have entryValues := legPart_values written venue isSpread isEntry
  have exitValues := legPart_values written venue isSpread isExit
  have entryFeeValues := feePart_values isEntryFee
  have exitFeeValues := feePart_values isExitFee
  obtain ⟨noFundingLine, noFunding⟩ := fundingPart_quiet venue isFunding
  have noFx := (fxPart_quiet venue isFx).2
  rw [← entryValues.value] at entryFeeValues
  rw [← exitValues.value] at exitFeeValues
  unfold priceRoundTrip
  rw [matchSlippage_values written venue buys, matchSlippage_values written venue sells]
  dsimp only [bind, Except.bind]
  generalize spreadPart (valuesOf scenario) = spreadPart' at *
  generalize legPart written (valuesOf scenario) spreadPart'.value .entry = entry' at *
  generalize legPart written (valuesOf scenario) spreadPart'.value .exit = exit' at *
  generalize feePart (valuesOf scenario) .entry entry'.value = entryFee' at *
  generalize feePart (valuesOf scenario) .exit exit'.value = exitFee' at *
  have lines : entry'.lines ++ exit'.lines ++ entryFee'.lines ++ exitFee'.lines =
      (entry.lines ++ exit.lines ++ entryFee.lines ++ exitFee.lines ++ funding.lines).map lineValue := by
    simp [entryValues.lines, exitValues.lines, entryFeeValues.lines, exitFeeValues.lines, noFundingLine]
  have missing : (spreadPart'.missing ++ entry'.missing ++ exit'.missing ++ entryFee'.missing ++
        exitFee'.missing).map kindOf =
      (spread.missing ++ entry.missing ++ exit.missing ++ entryFee.missing ++ exitFee.missing ++
        funding.missing ++ fx.missing).map kindOf := by
    simp [spreadValues.missing, entryValues.missing, exitValues.missing, entryFeeValues.missing,
      exitFeeValues.missing, noFunding, noFx]
  generalize entry'.lines ++ exit'.lines ++ entryFee'.lines ++ exitFee'.lines = lines' at *
  generalize spreadPart'.missing ++ entry'.missing ++ exit'.missing ++ entryFee'.missing ++
    exitFee'.missing = missing' at *
  generalize entry.lines ++ exit.lines ++ entryFee.lines ++ exitFee.lines ++ funding.lines =
    decimalLines at *
  generalize spread.missing ++ entry.missing ++ exit.missing ++ entryFee.missing ++ exitFee.missing ++
    funding.missing ++ fx.missing = decimalMissing at *
  have empty : missing' = [] ↔ decimalMissing = [] := by
    rw [← List.map_eq_nil_iff (f := kindOf), missing, List.map_eq_nil_iff]
  subst lines
  simp only at isPriced
  by_cases complete : decimalMissing = []
  · rw [if_neg (not_not_intro complete)] at isPriced
    rw [if_neg (not_not_intro (empty.mpr complete))]
    obtain ⟨total, isTotal, isPriced⟩ := bind_eq_ok.mp isPriced
    obtain ⟨money, _, made⟩ := bind_eq_ok.mp isPriced
    cases made
    refine ⟨_, rfl, rfl, rfl, rfl, ?_⟩
    simp only [Option.map_some, sumExact_toRat (exact_eq_ok.mp isTotal), List.map_map]
    rfl
  · rw [if_pos complete] at isPriced
    cases isPriced
    rw [if_pos (mt empty.mp complete)]
    exact ⟨_, rfl, rfl, rfl, missing, rfl⟩

end CryptoRadar.Tradeability
