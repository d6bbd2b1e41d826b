import CryptoRadar.Costs.Completeness
import CryptoRadar.Costs.LowerBound

/-!
# The cost of a round trip is monotone

More slippage on a sell lowers the notional its fee is charged on, so the fee line of a leg may
fall. Its price lines rise by more than that: a leg costs `fill * (1 + rate) - 1` on a buy and
`1 - fill * (1 - rate)` on a sell, fills are positive, and a rate is between -1 and 1
(`legCost_mono`). A complete scenario that is dearer in its inputs is not cheaper in total
(`round_trip_cost_is_monotone`).
-/

set_option autoImplicit false

namespace CryptoRadar.Costs

open Checked Decimal

/-! ## One leg -/

/-- The fill of a leg as a fraction of the mid, half a spread and a slippage away from it. -/
def fillAt (direction : TradeDirection) (half slippage : ℚ) : ℚ :=
  (1 + direction.factor * half) * (1 + direction.factor * slippage)

/-- What a leg costs: its distance from the mid and the fee on its fill. -/
def legCost (direction : TradeDirection) (half slippage rate : ℚ) : ℚ :=
  direction.factor * (fillAt direction half slippage - 1) + rate * fillAt direction half slippage

/-- A fill is positive, and a dearer one is further from the mid. -/
theorem fillAt_mono (direction : TradeDirection) {half dearerHalf slippage dearerSlippage : ℚ}
    (halfBounds : 0 ≤ half ∧ half ≤ dearerHalf ∧ dearerHalf < 1)
    (slippageBounds : 0 ≤ slippage ∧ slippage ≤ dearerSlippage ∧ dearerSlippage < 1) :
    0 < fillAt direction half slippage ∧ 0 < fillAt direction dearerHalf dearerSlippage ∧
      direction.factor * fillAt direction half slippage ≤
        direction.factor * fillAt direction dearerHalf dearerSlippage := by
  obtain ⟨halfSome, halfLe, halfBelow⟩ := halfBounds
  obtain ⟨slippageSome, slippageLe, slippageBelow⟩ := slippageBounds
  cases direction with
  | buy =>
      simp only [fillAt, TradeDirection.factor, one_mul]
      refine ⟨?_, ?_, ?_⟩
      · apply mul_pos <;> linarith
      · apply mul_pos <;> linarith
      · apply mul_le_mul <;> linarith
  | sell =>
      simp only [fillAt, TradeDirection.factor, neg_mul, one_mul, neg_le_neg_iff]
      refine ⟨?_, ?_, ?_⟩
      · apply mul_pos <;> linarith
      · apply mul_pos <;> linarith
      · apply mul_le_mul <;> linarith

/-- A leg with a wider spread, more slippage and a higher fee does not cost less. -/
theorem legCost_mono (direction : TradeDirection)
    {half dearerHalf slippage dearerSlippage rate dearerRate : ℚ}
    (halfBounds : 0 ≤ half ∧ half ≤ dearerHalf ∧ dearerHalf < 1)
    (slippageBounds : 0 ≤ slippage ∧ slippage ≤ dearerSlippage ∧ dearerSlippage < 1)
    (rateBounds : -1 < rate ∧ rate ≤ dearerRate ∧ rate < 1) :
    legCost direction half slippage rate ≤ legCost direction dearerHalf dearerSlippage dearerRate := by
  obtain ⟨fillSome, dearerSome, further⟩ := fillAt_mono direction halfBounds slippageBounds
  obtain ⟨rateAbove, rateLe, rateBelow⟩ := rateBounds
  unfold legCost
  generalize fillAt direction half slippage = fill at *
  generalize fillAt direction dearerHalf dearerSlippage = dearer at *
  have fee : rate * dearer ≤ dearerRate * dearer := mul_le_mul_of_nonneg_right rateLe dearerSome.le
  cases direction with
  | buy =>
      simp only [TradeDirection.factor, one_mul] at further ⊢
      have price : fill * (1 + rate) ≤ dearer * (1 + rate) :=
        mul_le_mul_of_nonneg_right further (by linarith)
      linarith
  | sell =>
      simp only [TradeDirection.factor, neg_mul, one_mul, neg_le_neg_iff] at further ⊢
      have price : dearer * (1 - rate) ≤ fill * (1 - rate) :=
        mul_le_mul_of_nonneg_right further (by linarith)
      linarith

def halfOf (spread : Part (Option Decimal)) : ℚ := spread.value.elim 0 toRat

/-- The lines of a leg and of its fee add up to what the leg costs. -/
theorem lines_eq_legCost {scenario : CostScenarioInput} {spread : Part (Option Decimal)} {leg : Leg}
    {part : Part (Option Fill)} {feePart_ : Part (Option Decimal)}
    (isPart : legPart scenario spread leg = .ok part)
    (isFee : feePart scenario leg part.value = .ok feePart_) (observed : spread.missing = [])
    (filled : part.missing = []) (charged : feePart_.missing = []) :
    ∃ slippage fee, scenario.slippage (legDirection scenario.side leg) = .given slippage ∧
      scenario.fee leg = .given fee ∧
      linesTotal part.lines + linesTotal feePart_.lines =
        legCost (legDirection scenario.side leg) (halfOf spread) (slippage.bps.toRat / 10000)
          (fee.bps.toRat / 10000) := by
  obtain ⟨slippage, supplied, fraction, fill, isFraction, isFill, isValue⟩ :=
    legPart_filled isPart observed filled
  rw [isValue] at isFee
  obtain ⟨fee, amount, isGiven, isAmount, product⟩ := feePart_charged isFee charged
  obtain ⟨_, notional, _⟩ := fillOf_toRat isFill
  rw [isFraction] at notional
  refine ⟨slippage, fee, supplied, isGiven, ?_⟩
  rw [legPart_lines isPart isValue, feePart_lines isFee isAmount, product, notional]
  rfl

def fundingCost (side : Side) (funding : FundingInput) : ℚ :=
  (legDirection side .entry).factor * funding.bpsPerInterval.toRat

/-- The lines of funding add up to the rate of a side for each interval, and to nothing where no
interval is paid for. -/
theorem fundingPart_total {scenario : CostScenarioInput} {part : Part Decimal}
    (isPart : fundingPart scenario = .ok part) (known : part.missing = []) :
    (∃ funding, scenario.instrument.kind = .futures ∧ scenario.fundingIntervals ≠ 0 ∧
        scenario.funding = .given funding ∧
        linesTotal part.lines =
          fundingCost scenario.side funding / 10000 * scenario.fundingIntervals) ∨
      ((scenario.instrument.kind = .spot ∨ scenario.fundingIntervals = 0) ∧
        linesTotal part.lines = 0) := by
  unfold fundingPart at isPart
  split at isPart
  next kind =>
    split at isPart
    next => cases isPart
    next =>
      cases isPart
      exact .inr ⟨.inl kind, rfl⟩
  next kind =>
    split at isPart
    next none =>
      cases isPart
      exact .inr ⟨.inr none, rfl⟩
    next some =>
      split at isPart
      next funding supplied =>
        obtain ⟨fraction, isFraction, made⟩ := bind_eq_ok.mp isPart
        cases made
        obtain ⟨signed, isSigned, isFraction⟩ := bind_eq_ok.mp (exact_eq_ok.mp isFraction)
        obtain ⟨rate, isRate, isProduct⟩ := bind_eq_ok.mp isFraction
        refine .inl ⟨funding, kind, some, supplied, ?_⟩
        have value : linesTotal [(⟨.funding, Option.none, Option.none, fraction, funding.source⟩ :
            CostLine)] = fraction.toRat := by simp [linesTotal]
        rw [value, mulExact_toRat isProduct, rate_toRat isRate, mulExact_toRat isSigned, toRat_ofNat,
          fundingCost]
        cases side : scenario.side with
        | long => rw [legDirection, TradeDirection.factor, one_toRat]
        | short => rw [legDirection, TradeDirection.factor, minusOne_toRat]
      next =>
        cases isPart
        cases known

/-! ## The round trip -/

/-- A scenario that differs from another in its spread, slippages, fees and funding rate only, and
in which each of them is as dear or dearer. -/
structure Dearer (scenario dearer : CostScenarioInput) : Prop where
  instrument : dearer.instrument = scenario.instrument
  side : dearer.side = scenario.side
  size : dearer.size = scenario.size
  spreadConvention : dearer.spreadConvention = scenario.spreadConvention
  fundingIntervals : dearer.fundingIntervals = scenario.fundingIntervals
  reportCurrency : dearer.reportCurrency = scenario.reportCurrency
  fx : dearer.fx = scenario.fx
  spread : ∀ first second, scenario.spread = .given first → dearer.spread = .given second →
    Decimal.le first.bps second.bps = true
  slippage : ∀ direction first second, scenario.slippage direction = .given first →
    dearer.slippage direction = .given second → Decimal.le first.bps second.bps = true
  fee : ∀ leg first second, scenario.fee leg = .given first → dearer.fee leg = .given second →
    Decimal.le first.bps second.bps = true
  -- A positive rate is paid by LONG and received by SHORT.
  funding : ∀ first second, scenario.funding = .given first → dearer.funding = .given second →
    match scenario.side with
    | .long => Decimal.le first.bpsPerInterval second.bpsPerInterval = true
    | .short => Decimal.le second.bpsPerInterval first.bpsPerInterval = true

theorem toRat_mono {first second : Decimal} (isLe : Decimal.le first second = true) :
    first.toRat ≤ second.toRat := by
  rwa [le_iff] at isLe

theorem rate_mono {first second : Decimal} (isLe : Decimal.le first second = true) :
    first.toRat / 10000 ≤ second.toRat / 10000 :=
  div_le_div_of_nonneg_right (toRat_mono isLe) (by norm_num)

/-- The half spread of a dearer scenario is as wide or wider. -/
theorem halfOf_mono {scenario dearer : CostScenarioInput} (isDearer : Dearer scenario dearer)
    {spread other : Part (Option Decimal)} (isSpread : spreadPart scenario = .ok spread)
    (isOther : spreadPart dearer = .ok other) (observed : spread.missing = [])
    (otherObserved : other.missing = []) :
    0 ≤ halfOf spread ∧ halfOf spread ≤ halfOf other ∧ halfOf other < 1 := by
  have places := spreadPart_places isSpread observed .entry
  have otherPlaces := spreadPart_places isOther otherObserved .entry
  rw [isDearer.spreadConvention, ← places] at otherPlaces
  cases half : spread.value with
  | none =>
      cases otherHalf : other.value with
      | none => simp [halfOf, half, otherHalf]
      | some _ => simp [half, otherHalf] at otherPlaces
  | some value =>
      cases otherHalf : other.value with
      | none => simp [half, otherHalf] at otherPlaces
      | some otherValue =>
          obtain ⟨first, isFirst, isValue⟩ := spreadPart_value isSpread half
          obtain ⟨second, isSecond, isOtherValue⟩ := spreadPart_value isOther otherHalf
          have isLe := isDearer.spread first second isFirst isSecond
          rw [le_iff] at isLe
          simp only [halfOf, half, otherHalf, Option.elim_some]
          refine ⟨?_, ?_, ?_⟩
          · exact (spreadPart_bounds isSpread half).1
          · rw [isValue, isOtherValue]
            linarith
          · exact (spreadPart_bounds isOther otherHalf).2

/-- The lines of a leg and of its fee do not add up to less in a dearer scenario. -/
theorem leg_mono {scenario dearer : CostScenarioInput} (isDearer : Dearer scenario dearer) {leg : Leg}
    {spread otherSpread fee otherFee : Part (Option Decimal)} {part other : Part (Option Fill)}
    (isPart : legPart scenario spread leg = .ok part) (isOther : legPart dearer otherSpread leg = .ok other)
    (isFee : feePart scenario leg part.value = .ok fee)
    (isOtherFee : feePart dearer leg other.value = .ok otherFee)
    (known : spread.missing = [] ∧ part.missing = [] ∧ fee.missing = [])
    (otherKnown : otherSpread.missing = [] ∧ other.missing = [] ∧ otherFee.missing = [])
    (half : 0 ≤ halfOf spread ∧ halfOf spread ≤ halfOf otherSpread ∧ halfOf otherSpread < 1) :
    linesTotal part.lines + linesTotal fee.lines ≤
      linesTotal other.lines + linesTotal otherFee.lines := by
  obtain ⟨slippage, rate, isSlippage, isRate, total⟩ :=
    lines_eq_legCost isPart isFee known.1 known.2.1 known.2.2
  obtain ⟨otherSlippage, otherRate, isOtherSlippage, isOtherRate, otherTotal⟩ :=
    lines_eq_legCost isOther isOtherFee otherKnown.1 otherKnown.2.1 otherKnown.2.2
  rw [isDearer.side] at isOtherSlippage otherTotal
  rw [total, otherTotal]
  apply legCost_mono _ half
  · refine ⟨slippage.rate_bounds.1, ?_, otherSlippage.rate_bounds.2⟩
    exact rate_mono (isDearer.slippage _ _ _ isSlippage isOtherSlippage)
  · refine ⟨rate.rate_bounds.1, ?_, rate.rate_bounds.2⟩
    exact rate_mono (isDearer.fee _ _ _ isRate isOtherRate)

theorem funding_mono {scenario dearer : CostScenarioInput} (isDearer : Dearer scenario dearer)
    {part other : Part Decimal} (isPart : fundingPart scenario = .ok part)
    (isOther : fundingPart dearer = .ok other) (known : part.missing = []) (otherKnown : other.missing = []) :
    linesTotal part.lines ≤ linesTotal other.lines := by
  have otherTotal := fundingPart_total isOther otherKnown
  rw [isDearer.instrument, isDearer.side, isDearer.fundingIntervals] at otherTotal
  obtain ⟨first, futures, some, isFirst, total⟩ | ⟨without, total⟩ := fundingPart_total isPart known
  · obtain ⟨second, _, _, isSecond, otherTotal⟩ | ⟨spot | none, _⟩ := otherTotal
    · have cost : fundingCost scenario.side first ≤ fundingCost scenario.side second := by
        have isLe := isDearer.funding first second isFirst isSecond
        unfold fundingCost
        cases side : scenario.side with
        | long =>
            rw [side] at isLe
            rw [legDirection, TradeDirection.factor, one_mul, one_mul]
            exact toRat_mono isLe
        | short =>
            rw [side] at isLe
            rw [legDirection, TradeDirection.factor, neg_one_mul, neg_one_mul, neg_le_neg_iff]
            exact toRat_mono isLe
      rw [total, otherTotal]
      apply mul_le_mul_of_nonneg_right _ (Nat.cast_nonneg _)
      exact div_le_div_of_nonneg_right cost (by norm_num)
    · rw [futures] at spot
      cases spot
    · exact absurd none some
  · obtain ⟨second, futures, some, _⟩ | ⟨_, otherTotal⟩ := otherTotal
    · obtain spot | none := without
      · rw [futures] at spot
        cases spot
      · exact absurd none some
    · rw [total, otherTotal]

/-- **The cost of a round trip is monotone**: where two complete scenarios differ in spread,
slippages, fees and funding rate only, and each of them is as dear or dearer in the second, the
total of the second is not below the total of the first. -/
theorem round_trip_cost_is_monotone (scenario dearer : CostScenarioInput)
    (isDearer : Dearer scenario dearer) (priced other : CostScenario)
    (isPriced : priceRoundTrip scenario = .ok priced) (isOther : priceRoundTrip dearer = .ok other)
    (complete : priced.status = .complete) (otherComplete : other.status = .complete) :
    ∃ total otherTotal, priced.totalFraction = some total ∧ other.totalFraction = some otherTotal ∧
      Decimal.le total otherTotal = true := by
  obtain ⟨⟨spread, entry, exit, entryFee, exitFee, funding, _, total, _, isSpread, isEntry, isExit,
    isEntryFee, isExitFee, isFunding, _, known, lines, isSum, isTotal, _⟩, _⟩ :=
    pricedFrom_of_complete isPriced complete
  obtain ⟨⟨spread', entry', exit', entryFee', exitFee', funding', _, total', _, isSpread', isEntry',
    isExit', isEntryFee', isExitFee', isFunding', _, known', lines', isSum', isTotal', _⟩, _⟩ :=
    pricedFrom_of_complete isOther otherComplete
  obtain ⟨noSpread, noEntry, noExit, noEntryFee, noExitFee, noFunding⟩ := known
  obtain ⟨noSpread', noEntry', noExit', noEntryFee', noExitFee', noFunding'⟩ := known'
  have half := halfOf_mono isDearer isSpread isSpread' noSpread noSpread'
  have entryCost := leg_mono isDearer isEntry isEntry' isEntryFee isEntryFee'
    ⟨noSpread, noEntry, noEntryFee⟩ ⟨noSpread', noEntry', noEntryFee'⟩ half
  have exitCost := leg_mono isDearer isExit isExit' isExitFee isExitFee'
    ⟨noSpread, noExit, noExitFee⟩ ⟨noSpread', noExit', noExitFee'⟩ half
  have fundingCost := funding_mono isDearer isFunding isFunding' noFunding noFunding'
  refine ⟨total, total', isTotal, isTotal', ?_⟩
  rw [le_iff, total_toRat isSum, total_toRat isSum', lines, lines']
  simp only [linesTotal_append]
  linarith

/-- The spot round trip with a spread of 20 bps, 8 bps of slippage and fees of 40 bps. -/
def dearerScenario : CostScenarioInput :=
  { observedScenario with
    spread := .given ⟨.ofNat 20, "book", by decide +kernel⟩
    buySlippage := .given ⟨.ofNat 8, .fromTouch, .ofNat 1000, .full, "book", by decide +kernel⟩
    sellSlippage := .given ⟨.ofNat 8, .fromTouch, .ofNat 1000, .full, "book", by decide +kernel⟩
    entryFee := .given ⟨.ofNat 40, .uncalibratedAssumption, "config", by decide +kernel⟩
    exitFee := .given ⟨.ofNat 40, .uncalibratedAssumption, "config", by decide +kernel⟩ }

/-- The dearer round trip in spot does not cost less. -/
theorem round_trip_cost_is_monotone_spot : ∃ priced other total otherTotal,
    priceRoundTrip observedScenario = .ok priced ∧ priceRoundTrip dearerScenario = .ok other ∧
      priced.totalFraction = some total ∧ other.totalFraction = some otherTotal ∧
      Decimal.le total otherTotal = true := by
  obtain ⟨priced, isPriced, complete⟩ := observedScenario_priced
  obtain ⟨other, isOther, otherComplete⟩ : ∃ other, priceRoundTrip dearerScenario = .ok other ∧
      other.status = .complete := priced_of_complete (by decide +kernel)
  have isDearer : Dearer observedScenario dearerScenario := by
    refine ⟨rfl, rfl, rfl, rfl, rfl, rfl, rfl, ?_, ?_, ?_, ?_⟩
    · rintro _ _ ⟨⟩ ⟨⟩
      decide +kernel
    · rintro (_ | _) _ _ ⟨⟩ ⟨⟩ <;> decide +kernel
    · rintro (_ | _) _ _ ⟨⟩ ⟨⟩ <;> decide +kernel
    · rintro _ _ ⟨⟩
  obtain ⟨total, otherTotal, isTotal, isOtherTotal, isLe⟩ := round_trip_cost_is_monotone
    observedScenario dearerScenario isDearer priced other isPriced isOther complete otherComplete
  exact ⟨priced, other, total, otherTotal, isPriced, isOther, isTotal, isOtherTotal, isLe⟩

end CryptoRadar.Costs
