import CryptoRadar.Costs.Domain

/-!
# The price of a round trip

`price_round_trip` and `round_trip_cost_lower_bound` of `domain/costs.py`. The price is made of
parts, one for each component: the lines it adds, what is missing for it and what does not apply.
A missing component leaves the scenario incomplete; the lower bound is the price of the fees alone,
for a scenario whose book was not observed.
-/

set_option autoImplicit false

namespace CryptoRadar.Costs

open Checked

/-- `_exact`: a computation in the context of costs. -/
def exact_ {α : Type} (field : String) : Except TrapError α → Except CostFailure α
  | .ok result => .ok result
  | .error .inexact =>
      .error (.input .precisionExceeded field "exact result exceeds COST_CONTEXT precision")
  | .error (.invalid .divisionByZero) =>
      .error (outOfRange field "[<class 'decimal.DivisionByZero'>]")
  | .error (.invalid _) => .error (outOfRange field "[<class 'decimal.InvalidOperation'>]")

/-- The sign of a direction: a buy fills above the mid, a sell below it. -/
def TradeDirection.sign : TradeDirection → Decimal
  | .buy => one
  | .sell => minusOne

/-- What a component adds to the scenario. -/
structure Part (Value : Type) where
  value : Value
  lines : List CostLine := []
  missing : List MissingLine := []
  notApplicable : List NotApplicableLine := []

/-! ## Spread and slippage -/

/-- `_Fill`: the fill notional of one leg as a fraction of the reference notional, and its lines.
There is no spread where the slippage is from the mid. -/
structure Fill where
  notionalFraction : Decimal
  spread : Option Decimal
  slippage : Decimal

/-- `1 + sign * rate`. -/
def moved (field : String) (direction : TradeDirection) (rate : Decimal) :
    Except CostFailure Decimal :=
  exact_ field do
    let step ← Decimal.mulExact costContext direction.sign rate
    Decimal.addExact costContext one step

/-- `_fill`: from the mid without a half spread, else from the touch. -/
def fillOf (direction : TradeDirection) (half : Option Decimal) (slippage : Decimal) :
    Except CostFailure Fill :=
  match half with
  | none => do
      let fill ← moved "fill" direction slippage
      return ⟨fill, none, slippage⟩
  | some half => do
      let touch ← moved "touch" direction half
      let fill ← exact_ "fill" do
        let step ← Decimal.mulExact costContext direction.sign slippage
        let beyond ← Decimal.addExact costContext one step
        Decimal.mulExact costContext touch beyond
      let slip ← exact_ "slip" (Decimal.mulExact costContext touch slippage)
      return ⟨fill, some half, slip⟩

def SpreadConvention.basis : SpreadConvention → SlippageBasis
  | .slippageFromMid => .fromMid
  | .halfSpreadPlusTouchSlippage => .fromTouch

/-- The half spread, and none where it is part of the slippage or missing. -/
def spreadPart (scenario : CostScenarioInput) : Except CostFailure (Part (Option Decimal)) :=
  match scenario.spreadConvention, scenario.spread with
  | .slippageFromMid, .given _ =>
      .error (.input .doubleCountedSpread "spread"
        "slippage measured from the mid already contains the half spread")
  | .slippageFromMid, _ =>
      .ok { value := none, notApplicable := Leg.all.map fun leg =>
        ⟨.spread, some leg, .spreadIncludedInSlippageFromMid⟩ }
  | .halfSpreadPlusTouchSlippage, .given spread => do
      let half ← exact_ "spread" do
        let halved ← Decimal.divExact costContext spread.bps two
        Decimal.divExact costContext halved bps
      return { value := some half }
  | .halfSpreadPlusTouchSlippage, other =>
      .ok { value := none, missing := Leg.all.map fun leg =>
        ⟨.spread, some leg, other.why ⟨.notObserved, "spread not supplied"⟩⟩ }

/-- The slippage of a direction has the basis of the convention and the size of the scenario. -/
def checkSlippage (scenario : CostScenarioInput) (direction : TradeDirection) :
    Except CostFailure Unit :=
  match scenario.slippage direction with
  | .missing _ => .ok ()
  | .given slippage => do
      ensure (slippage.basis = scenario.spreadConvention.basis)
        (.input .conventionMismatch (direction.text ++ "_slippage")
          ("basis " ++ slippage.basis.text ++ " does not match convention " ++
            scenario.spreadConvention.text))
      ensure (Decimal.eq slippage.measuredNotional scenario.size.notional = true)
        (.input .sizeMismatch (direction.text ++ "_slippage")
          ("measured at " ++ slippage.measuredNotional.text ++ ", scenario size " ++
            scenario.size.notional.text))

/-- The fill of a leg, if nothing it needs is missing. -/
def legPart (scenario : CostScenarioInput) (spread : Part (Option Decimal)) (leg : Leg) :
    Except CostFailure (Part (Option Fill)) :=
  let direction := legDirection scenario.side leg
  match scenario.slippage direction with
  | .missing why => .ok { value := none, missing := [⟨.slippage, some leg, why⟩] }
  | .given slippage =>
      if slippage.coverage = .partialDepth then
        .ok { value := none, missing := [⟨.slippage, some leg, .sizeNotCovered,
          "book did not cover " ++ scenario.size.notional.text ++ " on the " ++ direction.text ++
            " side"⟩] }
      else if spread.missing ≠ [] then .ok { value := none }
      else do
        let fraction ← exact_ "slippage" (Decimal.divExact costContext slippage.bps bps)
        let fill ← fillOf direction spread.value fraction
        let source := match scenario.spread with
          | .given spread => spread.source
          | _ => ""
        let spreadLine := fill.spread.toList.map fun spread =>
          (⟨.spread, some leg, some direction, spread, source⟩ : CostLine)
        return {
          value := some fill
          lines := spreadLine ++ [⟨.slippage, some leg, some direction, fill.slippage, slippage.source⟩] }

/-! ## Fees, funding and the report currency -/

/-- The fee of a leg on its fill notional; without one its base is unknown. -/
def feePart (scenario : CostScenarioInput) (leg : Leg) (fill : Option Fill) :
    Except CostFailure (Part (Option Decimal)) :=
  match scenario.fee leg with
  | .missing why => .ok { value := none, missing := [⟨.fee, some leg, why⟩] }
  | .given fee =>
      match fill with
      | none => .ok { value := none }
      | some fill => do
          let fraction ← exact_ "fee" do
            let rate ← Decimal.divExact costContext fee.bps bps
            Decimal.mulExact costContext rate fill.notionalFraction
          return {
            value := some fraction
            lines := [⟨.fee, some leg, some (legDirection scenario.side leg), fraction,
              fee.basis.text ++ ": " ++ fee.source⟩] }

/-- Funding of the declared intervals on the reference notional. -/
def fundingPart (scenario : CostScenarioInput) : Except CostFailure (Part Decimal) :=
  match scenario.instrument.kind with
  | .spot =>
      match scenario.funding with
      | .given _ => .error (.input .fundingNotApplicable "funding" "spot has no funding")
      | _ => .ok { value := zero, notApplicable := [⟨.funding, none, .spotHasNoFunding⟩] }
  | .futures =>
      if scenario.fundingIntervals = 0 then
        .ok { value := zero, notApplicable := [⟨.funding, none, .zeroFundingIntervals⟩] }
      else
        match scenario.funding with
        | .given funding => do
            let sign := match scenario.side with
              | .long => one
              | .short => minusOne
            let fraction ← exact_ "funding" do
              let signed ← Decimal.mulExact costContext sign funding.bpsPerInterval
              let rate ← Decimal.divExact costContext signed bps
              Decimal.mulExact costContext rate (.ofNat scenario.fundingIntervals)
            return { value := fraction, lines := [⟨.funding, none, none, fraction, funding.source⟩] }
        | other =>
            .ok { value := zero, missing := [⟨.funding, none,
              other.why ⟨.notObserved, "funding not supplied"⟩⟩] }

/-- The rate to the report currency, where money is reported in another one than the quote. -/
def fxPart (scenario : CostScenarioInput) : Except CostFailure (Part (Option Decimal)) :=
  match scenario.reportCurrency, scenario.instrument.quoteCurrency with
  | some report, some quote =>
      if report = quote then
        .ok { value := none, notApplicable := [⟨.fx, none, .reportInQuoteCurrency⟩] }
      else
        match scenario.fx with
        | .given fx => do
            ensure (fx.fromCurrency = quote ∧ fx.toCurrency = report)
              (.input .currencyMismatch "fx" ("rate is " ++ fx.fromCurrency ++ "->" ++
                fx.toCurrency ++ ", need " ++ quote ++ "->" ++ report))
            return { value := some fx.rate }
        | other =>
            .ok { value := none, missing := [⟨.fx, none,
              other.why ⟨.fxRateUnavailable, "no " ++ quote ++ "->" ++ report ++ " rate"⟩⟩] }
  | _, _ => .ok { value := none, notApplicable := [⟨.fx, none, .noMoneyProjection⟩] }

/-! ## The scenario -/

/-- The signed notional of a leg: a buy pays its fill notional, a sell receives it. -/
def tradeOf (direction : TradeDirection) (fill : Fill) : Except CostFailure Decimal :=
  let sign := match direction with
    | .buy => minusOne
    | .sell => one
  exact_ "trade" (Decimal.mulExact costContext sign fill.notionalFraction)

/-- `_cashflow`. -/
def cashflowOf (scenario : CostScenarioInput) (entry exit : Fill)
    (entryFeeFraction exitFeeFraction fundingFraction : Decimal) (currency : String) :
    Except CostFailure HypotheticalCashflow := do
  let money (field : String) (value : Decimal) : Except CostFailure Money := do
    let amount ← exact_ field (Decimal.mulExact costContext value scenario.size.notional)
    return ⟨amount, currency⟩
  let entryTrade ← tradeOf (legDirection scenario.side .entry) entry
  let exitTrade ← tradeOf (legDirection scenario.side .exit) exit
  let entryFee ← exact_ "entry_fee" (Decimal.negExact costContext entryFeeFraction)
  let exitFee ← exact_ "exit_fee" (Decimal.negExact costContext exitFeeFraction)
  let funding ← exact_ "funding_cash" (Decimal.negExact costContext fundingFraction)
  let net ← exact_ "net" do
    let trades ← Decimal.addExact costContext entryTrade exitTrade
    let withEntry ← Decimal.addExact costContext trades entryFee
    let withExit ← Decimal.addExact costContext withEntry exitFee
    Decimal.addExact costContext withExit funding
  return {
    entryTrade := ← money "entry_trade" entryTrade
    entryFee := ← money "entry_fee" entryFee
    exitTrade := ← money "exit_trade" exitTrade
    exitFee := ← money "exit_fee" exitFee
    funding := ← money "funding" funding
    net := ← money "net" net }

/-- The money of a complete scenario, where its quote currency is identified. -/
structure MoneyOf where
  totalQuote : Option Money
  totalReport : Option Money
  cashflow : Option HypotheticalCashflow
  unavailable : Option MoneyUnavailableReason

/-- The total in the currency of the report, if one is asked. -/
def reportOf (total : Money) (report : Option String) (rate : Option Decimal) :
    Except CostFailure (Option Money) :=
  match report, rate with
  | none, _ => .ok none
  | some _, none => .ok (some total)
  | some report, some rate => do
      let amount ← exact_ "total_report" (Decimal.mulExact costContext total.amount rate)
      return some ⟨amount, report⟩

/-- The amounts in money, where the quote currency is known. -/
def moneyOf (scenario : CostScenarioInput) (entry exit : Option Fill)
    (entryFee exitFee : Option Decimal) (funding total : Decimal) (rate : Option Decimal) :
    Except CostFailure MoneyOf :=
  match scenario.instrument.quoteCurrency with
  | none => .ok ⟨none, none, none, some .quoteCurrencyUnidentified⟩
  | some quote => do
      let amount ← exact_ "total_quote" (Decimal.mulExact costContext total scenario.size.notional)
      let report ← reportOf ⟨amount, quote⟩ scenario.reportCurrency rate
      let entry ← require .assertion entry
      let exit ← require .assertion exit
      let entryFee ← require .assertion entryFee
      let exitFee ← require .assertion exitFee
      let cashflow ← cashflowOf scenario entry exit entryFee exitFee funding quote
      return ⟨some ⟨amount, quote⟩, report, some cashflow, none⟩

/-- `price_round_trip`. -/
def priceRoundTrip (scenario : CostScenarioInput) : Except CostFailure CostScenario := do
  let spread ← spreadPart scenario
  checkSlippage scenario .buy
  checkSlippage scenario .sell
  let entry ← legPart scenario spread .entry
  let exit ← legPart scenario spread .exit
  let entryFee ← feePart scenario .entry entry.value
  let exitFee ← feePart scenario .exit exit.value
  let funding ← fundingPart scenario
  let fx ← fxPart scenario
  let lines := entry.lines ++ exit.lines ++ entryFee.lines ++ exitFee.lines ++ funding.lines
  let missing := spread.missing ++ entry.missing ++ exit.missing ++ entryFee.missing ++
    exitFee.missing ++ funding.missing ++ fx.missing
  let notApplicable := spread.notApplicable ++ funding.notApplicable ++ fx.notApplicable
  if missing ≠ [] then
    return ⟨costPolicyVersion, scenario.instrument, scenario.side, scenario.size,
      scenario.spreadConvention, scenario.fundingIntervals, .incomplete, lines, missing,
      notApplicable, none, none, none, none, some .scenarioIncomplete⟩
  else
    let total ← exact_ "total" (Decimal.sumExact costContext (lines.map CostLine.fraction))
    let money ← moneyOf scenario entry.value exit.value entryFee.value exitFee.value funding.value
      total fx.value
    return ⟨costPolicyVersion, scenario.instrument, scenario.side, scenario.size,
      scenario.spreadConvention, scenario.fundingIntervals, .complete, lines, [], notApplicable,
      some total, money.totalQuote, money.totalReport, money.cashflow, money.unavailable⟩

/-! ## The lower bound -/

/-- The known minimum of a round trip whose spread and slippage were not observed. -/
structure CostLowerBound where
  policyVersion : String
  status : CostStatus
  instrument : CostInstrument
  side : Side
  size : ScenarioSize
  spreadConvention : SpreadConvention
  feeLines : List CostLine
  fees : List FeeInput
  missing : List MissingLine
  notApplicable : List NotApplicableLine
  lowerBoundFraction : Decimal

/-- The spread of a scenario whose book was not observed. -/
def unobservedSpread (scenario : CostScenarioInput) : Except CostFailure (Part Unit) :=
  match scenario.spreadConvention, scenario.spread with
  | .slippageFromMid, .given _ =>
      .error (.input .doubleCountedSpread "spread"
        "slippage measured from the mid already contains the half spread")
  | .slippageFromMid, _ =>
      .ok { value := (), notApplicable := Leg.all.map fun leg =>
        ⟨.spread, some leg, .spreadIncludedInSlippageFromMid⟩ }
  | .halfSpreadPlusTouchSlippage, .given _ =>
      .error (.bound .componentObserved "spread" "observed: use price_round_trip")
  | .halfSpreadPlusTouchSlippage, other =>
      .ok { value := (), missing := Leg.all.map fun leg =>
        ⟨.spread, some leg, other.why ⟨.notObserved, "spread not supplied"⟩⟩ }

/-- The slippage of a leg whose book was not observed. -/
def unobservedSlippage (scenario : CostScenarioInput) (leg : Leg) :
    Except CostFailure MissingLine :=
  let direction := legDirection scenario.side leg
  match scenario.slippage direction with
  | .missing why => .ok ⟨.slippage, some leg, why⟩
  | .given _ =>
      .error (.bound .componentObserved (direction.text ++ "_slippage")
        "observed: use price_round_trip")

def feeBound (scenario : CostScenarioInput) (leg : Leg) : Except CostFailure (FeeInput × CostLine) :=
  match scenario.fee leg with
  | .missing _ => .error (.bound .feeMissing (leg.text ++ "_fee") "a fee rate is required")
  | .given fee => do
      ensure (Decimal.lt fee.bps zero = false)
        (.bound .feeNegative (leg.text ++ "_fee") (fee.bps.text ++ " bps is a rebate"))
      let fraction ← exact_ "fee_lower_bound" (Decimal.divExact costContext fee.bps bps)
      return (fee, ⟨.fee, some leg, some (legDirection scenario.side leg), fraction,
        fee.basis.text ++ ": " ++ fee.source⟩)

/-- Without funding intervals there is no funding. -/
def noFunding (scenario : CostScenarioInput) : Except CostFailure NotApplicableLine :=
  match scenario.instrument.kind with
  | .spot =>
      match scenario.funding with
      | .given _ => .error (.input .fundingNotApplicable "funding" "spot has no funding")
      | _ => .ok ⟨.funding, none, .spotHasNoFunding⟩
  | .futures =>
      if scenario.fundingIntervals = 0 then .ok ⟨.funding, none, .zeroFundingIntervals⟩
      else .error (.bound .fundingNotBounded "funding"
        "funding can be received: no fee-only lower bound")

/-- `round_trip_cost_lower_bound`. -/
def roundTripCostLowerBound (scenario : CostScenarioInput) : Except CostFailure CostLowerBound := do
  let spread ← unobservedSpread scenario
  let slippage ← Leg.all.mapM (unobservedSlippage scenario)
  let fees ← Leg.all.mapM (feeBound scenario)
  let funding ← noFunding scenario
  let bound ← exact_ "lower_bound"
    (Decimal.sumExact costContext (fees.map fun fee => fee.2.fraction))
  return ⟨costPolicyVersion, .incomplete, scenario.instrument, scenario.side, scenario.size,
    scenario.spreadConvention, fees.map Prod.snd, fees.map Prod.fst, spread.missing ++ slippage,
    spread.notApplicable ++ [funding, ⟨.fx, none, .noMoneyProjection⟩], bound⟩

end CryptoRadar.Costs
