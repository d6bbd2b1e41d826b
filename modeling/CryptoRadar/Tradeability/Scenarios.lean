import CryptoRadar.Costs.Domain
import CryptoRadar.Lib.ExactNumber
import CryptoRadar.Lib.Timedelta
import CryptoRadar.Microstructure.Book

/-!
# Cost scenarios of an order book

`_venue_scenarios` and `build_cost_preview` of `tradeability.py`, with the part of `domain/costs.py` that they
use, in exact arithmetic: a float, its decimal and a decimal without its context are one rational number. A
scenario has the half spread and the slippage from the touch, no funding interval and no identified currency.

The inputs of a scenario are records of values that passed their constructor. `written` is the text of a
decimal.
-/

set_option autoImplicit false

namespace CryptoRadar.Tradeability

open Checked ExactNumber
open Costs (CostFailure CostComponent CostStatus DepthCoverage FeeBasis Leg Missing MissingLine MissingReason
  MoneyUnavailableReason NotApplicableLine NotApplicableReason Required Side SizeProvenance SlippageBasis
  SpreadConvention TradeDirection legDirection outOfRange requireText)
open Invocation (InstrumentKind)
open Microstructure (DepthMetrics)

/-- What a constructor makes of values that pass its check. -/
def construct {Input : Type} :
    (check : Except CostFailure Unit) → (make : check = .ok () → Input) → Except CostFailure Input
  | .ok (), make => .ok (make rfl)
  | .error failure, _ => .error failure

/-! ## Inputs -/

/-- The reference notional in the quote currency, with where it came from. -/
structure ScenarioSize where
  notional : ℚ
  provenance : SizeProvenance
  positive : ensure (0 < notional) (outOfRange "ScenarioSize.notional" "must be > 0") = .ok ()

/-- The checks of `SpreadInput`. -/
def checkSpread (bps : ℚ) (source : String) : Except CostFailure Unit := do
  ensure (0 ≤ bps ∧ bps < 20000) (outOfRange "SpreadInput.bps" "must be in [0, 20000)")
  requireText "SpreadInput.source" source

/-- The quoted spread, in bps of the mid. -/
structure SpreadInput where
  bps : ℚ
  source : String
  checked : checkSpread bps source = .ok ()

/-- The checks of `SlippageInput`. -/
def checkSlippage (bps measuredNotional : ℚ) (source : String) : Except CostFailure Unit := do
  ensure (0 ≤ bps ∧ bps < 10000) (outOfRange "SlippageInput.bps" "must be in [0, 10000)")
  ensure (0 < measuredNotional) (outOfRange "SlippageInput.measured_notional" "must be > 0")
  requireText "SlippageInput.source" source

/-- The slippage of one direction at a notional, in bps of its basis price. -/
structure SlippageInput where
  bps : ℚ
  basis : SlippageBasis
  measuredNotional : ℚ
  coverage : DepthCoverage
  source : String
  checked : checkSlippage bps measuredNotional source = .ok ()

/-- The checks of `FeeInput`. -/
def checkFee (bps : ℚ) (source : String) : Except CostFailure Unit := do
  ensure (|bps| < 10000) (outOfRange "FeeInput.bps" "must be in (-10000, 10000)")
  requireText "FeeInput.source" source

/-- The fee rate of one leg, in bps of its fill notional. -/
structure FeeInput where
  bps : ℚ
  basis : FeeBasis
  source : String
  checked : checkFee bps source = .ok ()

/-- What `_venue_scenarios` leaves open of a `CostScenarioInput`. -/
structure CostScenarioInput where
  kind : InstrumentKind
  side : Side
  size : ScenarioSize
  spread : Required SpreadInput
  buySlippage : Required SlippageInput
  sellSlippage : Required SlippageInput
  entryFee : Required FeeInput
  exitFee : Required FeeInput

namespace CostScenarioInput

/-- The slippage of a direction. -/
def slippage (scenario : CostScenarioInput) : TradeDirection → Required SlippageInput
  | .buy => scenario.buySlippage
  | .sell => scenario.sellSlippage

/-- The fee of a leg. -/
def fee (scenario : CostScenarioInput) : Leg → Required FeeInput
  | .entry => scenario.entryFee
  | .exit => scenario.exitFee

end CostScenarioInput

/-! ## The price of a round trip -/

/-- One known cost, as a fraction of the reference notional. -/
structure CostLine where
  component : CostComponent
  leg : Option Leg
  direction : Option TradeDirection
  fraction : ℚ
  source : String

/-- The cost of a line in bps. -/
def CostLine.bps (line : CostLine) : ℚ := line.fraction * 10000

/-- What was priced; without a missing component it has a total. -/
structure CostScenario where
  policyVersion : String
  kind : InstrumentKind
  side : Side
  size : ScenarioSize
  spreadConvention : SpreadConvention
  fundingIntervals : ℕ
  status : CostStatus
  lines : List CostLine
  missing : List MissingLine
  notApplicable : List NotApplicableLine
  totalFraction : Option ℚ
  moneyUnavailable : MoneyUnavailableReason

/-- The total in bps. -/
def CostScenario.totalBps (scenario : CostScenario) : Option ℚ := scenario.totalFraction.map (· * 10000)

/-- What a component adds to the scenario. -/
structure Part (Value : Type) where
  value : Value
  lines : List CostLine := []
  missing : List MissingLine := []

/-- `_Fill`. -/
structure Fill where
  notionalFraction : ℚ
  spread : ℚ
  slippage : ℚ

/-- A buy fills above the mid, a sell below it. -/
def sign : TradeDirection → ℚ
  | .buy => 1
  | .sell => -1

/-- `_fill`, from the touch. -/
def fillOf (direction : TradeDirection) (half slippage : ℚ) : Fill :=
  let touch := 1 + sign direction * half
  ⟨touch * (1 + sign direction * slippage), half, touch * slippage⟩

/-- The half spread as a fraction, if there is a spread. -/
def spreadPart (scenario : CostScenarioInput) : Part (Option ℚ) :=
  match scenario.spread with
  | .given spread => { value := some (spread.bps / 2 / 10000) }
  | .missing why => { value := none, missing := Leg.all.map fun leg => ⟨.spread, some leg, why⟩ }

section Written

variable (written : ℚ → String)

/-- The slippage of a direction has the basis of the convention and the size of the scenario. -/
def matchSlippage (scenario : CostScenarioInput) (direction : TradeDirection) : Except CostFailure Unit :=
  match scenario.slippage direction with
  | .missing _ => .ok ()
  | .given slippage => do
      ensure (slippage.basis = .fromTouch)
        (.input .conventionMismatch (direction.text ++ "_slippage")
          ("basis " ++ slippage.basis.text ++ " does not match convention " ++
            SpreadConvention.halfSpreadPlusTouchSlippage.text))
      ensure (slippage.measuredNotional = scenario.size.notional)
        (.input .sizeMismatch (direction.text ++ "_slippage")
          ("measured at " ++ written slippage.measuredNotional ++ ", scenario size " ++
            written scenario.size.notional))

/-- The fill of a leg, if nothing it needs is missing. -/
def legPart (scenario : CostScenarioInput) (half : Option ℚ) (leg : Leg) : Part (Option Fill) :=
  let direction := legDirection scenario.side leg
  match scenario.slippage direction with
  | .missing why => { value := none, missing := [⟨.slippage, some leg, why⟩] }
  | .given slippage =>
      if slippage.coverage = .partialDepth then
        { value := none, missing := [⟨.slippage, some leg, .sizeNotCovered, "book did not cover " ++
            written scenario.size.notional ++ " on the " ++ direction.text ++ " side"⟩] }
      else
        match half, scenario.spread with
        | some half, .given spread =>
            let fill := fillOf direction half (slippage.bps / 10000)
            { value := some fill
              lines := [⟨.spread, some leg, some direction, fill.spread, spread.source⟩,
                ⟨.slippage, some leg, some direction, fill.slippage, slippage.source⟩] }
        | _, _ => { value := none }

/-- The fee of a leg on its fill notional; without one its base is unknown. -/
def feePart (scenario : CostScenarioInput) (leg : Leg) (fill : Option Fill) : Part Unit :=
  match scenario.fee leg, fill with
  | .missing why, _ => { value := (), missing := [⟨.fee, some leg, why⟩] }
  | .given _, none => { value := () }
  | .given fee, some fill =>
      { value := (), lines := [⟨.fee, some leg, some (legDirection scenario.side leg),
          fee.bps / 10000 * fill.notionalFraction, fee.basis.text ++ ": " ++ fee.source⟩] }

/-- No funding timestamp is crossed. -/
def fundingReason : InstrumentKind → NotApplicableReason
  | .spot => .spotHasNoFunding
  | .futures => .zeroFundingIntervals

/-- `price_round_trip`. -/
def priceRoundTrip (scenario : CostScenarioInput) : Except CostFailure CostScenario := do
  let spread := spreadPart scenario
  matchSlippage written scenario .buy
  matchSlippage written scenario .sell
  let entry := legPart written scenario spread.value .entry
  let exit := legPart written scenario spread.value .exit
  let entryFee := feePart scenario .entry entry.value
  let exitFee := feePart scenario .exit exit.value
  let lines := entry.lines ++ exit.lines ++ entryFee.lines ++ exitFee.lines
  let missing := spread.missing ++ entry.missing ++ exit.missing ++ entryFee.missing ++ exitFee.missing
  let notApplicable : List NotApplicableLine :=
    [⟨.funding, none, fundingReason scenario.kind⟩, ⟨.fx, none, .noMoneyProjection⟩]
  if missing ≠ [] then
    return ⟨Costs.costPolicyVersion, scenario.kind, scenario.side, scenario.size,
      .halfSpreadPlusTouchSlippage, 0, .incomplete, lines, missing, notApplicable, none,
      .scenarioIncomplete⟩
  else
    return ⟨Costs.costPolicyVersion, scenario.kind, scenario.side, scenario.size,
      .halfSpreadPlusTouchSlippage, 0, .complete, lines, [], notApplicable,
      some (lines.map CostLine.fraction).sum, .quoteCurrencyUnidentified⟩

/-! ## The scenarios of a venue -/

/-- `_SLIPPAGE_FLOAT_NOISE_BPS`. -/
def slippageFloatNoiseBps : ℚ := 1 / 1000000000

/-- A slippage below zero is noise, which is none, or unusable. -/
def usableSlippage (raw : Option ℚ) : Option ℚ :=
  raw.bind fun value =>
    if value < 0 then if -slippageFloatNoiseBps ≤ value then some 0 else none else some value

/-- Why the inputs of a venue without a book are missing. -/
def unavailable : Missing := ⟨.notObserved, "order book unavailable for this venue"⟩

/-- `walked[name]` of an observed book. -/
def walkedSlippage (size : ScenarioSize) (coverage : DepthCoverage) (name bookSide : String)
    (raw : Option ℚ) : Except CostFailure (Required SlippageInput) :=
  match usableSlippage raw with
  | none =>
      .ok (.missing ⟨.notObserved, "no usable " ++ name ++ " slippage from the " ++ bookSide⟩)
  | some bps => do
      let source := "order book walk of the " ++ bookSide ++
        " from the touch (legacy float measurement)"
      let input ← construct (checkSlippage bps size.notional source)
        fun checked => ⟨bps, .fromTouch, size.notional, coverage, source, checked⟩
      return .given input

/-- The spread of a book, if its touch has two sides. -/
def touchSpread (raw : Option ℚ) : Except CostFailure (Required SpreadInput) :=
  match raw with
  | none => .ok (.missing unavailable)
  | some bps => do
      let source := "order book touch spread (legacy float measurement)"
      let input ← construct (checkSpread bps source) fun checked => ⟨bps, source, checked⟩
      return .given input

/-- What a venue observes of its book: the spread, and the slippage of a buy and of a sell. -/
def observeBook (size : ScenarioSize) (depth : Option (DepthMetrics ℚ)) :
    Except CostFailure (Required SpreadInput × Required SlippageInput × Required SlippageInput) :=
  match depth with
  | none => .ok (.missing unavailable, .missing unavailable, .missing unavailable)
  | some depth => do
      let coverage := if depth.depthAvailableAtReference then .full else .partialDepth
      let spread ← touchSpread depth.spreadBps
      let buy ← walkedSlippage size coverage "buy" "asks" depth.slippageBuyBps
      let sell ← walkedSlippage size coverage "sell" "bids" depth.slippageSellBps
      return (spread, buy, sell)

/-- The sides in the order of `Side`. -/
def Side.all : List Side := [.long, .short]

/-- `_venue_scenarios`, of each side; `referenceUsd` is the reference order size of the configuration. -/
def venueScenarios (referenceUsd : ℚ) (kind : InstrumentKind) (depth : Option (DepthMetrics ℚ))
    (takerFeeBps : ℚ) : Except CostFailure (List (Side × CostScenario)) := do
  let size ← construct (ensure (0 < referenceUsd) (outOfRange "ScenarioSize.notional" "must be > 0"))
    fun positive => ⟨referenceUsd, .referenceConfig, positive⟩
  let (spread, buy, sell) ← observeBook size depth
  let source := "config.UNCALIBRATED_FEES taker rate"
  let fee ← construct (checkFee takerFeeBps source)
    fun checked => (⟨takerFeeBps, .uncalibratedAssumption, source, checked⟩ : FeeInput)
  Side.all.mapM fun side => do
    let scenario ← priceRoundTrip written
      ⟨kind, side, size, spread, buy, sell, .given fee, .given fee⟩
    return (side, scenario)

/-- `venue_cost_scenarios`. -/
def venueCostScenarios (referenceUsd : ℚ) (kind : InstrumentKind) (depth : Option (DepthMetrics ℚ))
    (takerFeeBps : ℚ) : Except CostFailure (List (Side × CostScenario)) :=
  venueScenarios written referenceUsd kind depth takerFeeBps

/-! ## The preview -/

/-- `present`: toward more cost, to a number of places. -/
def present (value : ℚ) (places : ℕ) : ℚ := ⌈value * 10 ^ places⌉ / 10 ^ places

/-- `round`, to a number of places. -/
def roundPlaces (value : ℚ) (places : ℕ) : ℚ :=
  roundHalfEven (value * 10 ^ places) / 10 ^ places

/-- Presented bps have three places. -/
def presentedBps (value : ℚ) : ℚ := present value 3

/-- The text of a component. -/
def componentText : CostComponent → String
  | .spread => "spread"
  | .slippage => "slippage"
  | .fee => "fee"
  | .funding => "funding"
  | .fx => "fx"

/-- The text of a reason. -/
def reasonText : MissingReason → String
  | .notObserved => "not_observed"
  | .sizeNotCovered => "size_not_covered"
  | .feeUnknown => "fee_unknown"
  | .fundingSemanticsUnverified => "funding_semantics_unverified"
  | .fxRateUnavailable => "fx_rate_unavailable"

/-- How the preview names a missing component. -/
def missingText (item : MissingLine) : String :=
  componentText item.component ++ ":" ++ (item.leg.map Leg.text).getD "-" ++ ":" ++
    reasonText item.why.reason

/-- The larger of two optional totals, where both are known. -/
def worseOf (totals : List (Option ℚ)) : Option ℚ :=
  (totals.mapM id).bind fun known => known.max?

/-- What the slippage lines of a scenario add up to, in bps. -/
def slippageOf (scenario : CostScenario) : ℚ :=
  ((scenario.lines.filter fun line => line.component = .slippage).map CostLine.bps).sum

/-- The preview of one venue. -/
structure VenuePreview where
  spreadBps : Option ℚ
  feeBps : ℚ
  slippageBps : Option ℚ
  slippageBuyBps : Option ℚ
  slippageSellBps : Option ℚ
  slippageSource : String
  totalCostBps : Option ℚ
  netMoveRequiredPct : Option ℚ
  feeStatus : String
  costStatus : CostStatus
  missingComponents : List String
  totalCostBpsBySide : List (Side × Option ℚ)

/-- `_venue_preview`. -/
def venuePreview (referenceUsd : ℚ) (kind : InstrumentKind) (spreadBps : Option ℚ)
    (depth : Option (DepthMetrics ℚ)) (takerFeeBps : ℚ) : Except CostFailure VenuePreview := do
  let scenarios ← venueScenarios written referenceUsd kind depth takerFeeBps
  let worst := worseOf (scenarios.map fun (_, scenario) => scenario.totalBps)
  let buyBps := depth.bind DepthMetrics.slippageBuyBps
  let sellBps := depth.bind DepthMetrics.slippageSellBps
  let missing := scenarios.flatMap fun (_, scenario) => scenario.missing.map missingText
  return {
    spreadBps := spreadBps.map (roundPlaces · 3)
    feeBps := roundPlaces (takerFeeBps * 2) 3
    slippageBps := worst.bind fun _ =>
      (scenarios.map fun (_, scenario) => slippageOf scenario).max?.map presentedBps
    slippageBuyBps := buyBps.map (roundPlaces · 3)
    slippageSellBps := sellBps.map (roundPlaces · 3)
    slippageSource := if buyBps.isSome || sellBps.isSome then "order_book" else "UNAVAILABLE"
    totalCostBps := worst.map presentedBps
    netMoveRequiredPct := worst.map fun worst => present (worst / 100) 4
    feeStatus := "UNCALIBRATED"
    costStatus := if worst.isSome then .complete else .incomplete
    missingComponents := missing.dedup.insertionSort (· ≤ ·)
    totalCostBpsBySide := scenarios.map fun (side, scenario) => (side, scenario.totalBps.map presentedBps) }

/-- The taker rates of `UNCALIBRATED_FEES`. -/
structure TakerFees where
  spotTakerBps : ℚ
  futuresTakerBps : ℚ

/-- The preview of the futures venue, with its raw funding rate. -/
structure FuturesPreview where
  venue : VenuePreview
  fundingRaw : Option ℚ
  fundingSemantics : String

/-- What `build_cost_preview` returns. -/
structure CostPreview where
  spot : VenuePreview
  futures : Option FuturesPreview
  preferredVenue : String

/-- `build_cost_preview`. -/
def buildCostPreview (referenceUsd : ℚ) (fees : TakerFees) (market : String) (spotSpreadBps : Option ℚ)
    (spotDepth : Option (DepthMetrics ℚ)) (futuresAvailable : Bool) (futuresSpreadBps : Option ℚ)
    (futuresDepth : Option (DepthMetrics ℚ)) (fundingRateRaw : Option ℚ) :
    Except CostFailure CostPreview := do
  let spot ← venuePreview written referenceUsd .spot spotSpreadBps spotDepth fees.spotTakerBps
  if futuresAvailable then
    let futures ← venuePreview written referenceUsd .futures futuresSpreadBps futuresDepth
      fees.futuresTakerBps
    return ⟨spot, some ⟨futures, fundingRateRaw, "RAW_UNVERIFIED"⟩, market⟩
  else return ⟨spot, none, market⟩

end Written

end CryptoRadar.Tradeability
