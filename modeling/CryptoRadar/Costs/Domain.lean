import CryptoRadar.Invocation.Domain
import CryptoRadar.Lib.DecimalExact

/-!
# Cost scenarios

The inputs and the results of `domain/costs.py`. A scenario is a hypothetical round trip of one
size on one instrument: for each component of its cost there is an observed input, or a reason why
it is missing. An input is a record of values that passed its constructor, so a spread of 200 % or
a fee of 100 % cannot be built.
-/

set_option autoImplicit false

namespace CryptoRadar.Costs

open Checked
open Invocation (InstrumentKind)

/-- `COST_POLICY_VERSION`. -/
def costPolicyVersion : String := "COST-1"

/-- The context of every cost; it traps rounding. -/
def costContext : DecimalContext := ⟨200, .halfEven⟩

/-- Basis points in one. -/
def bps : Decimal := .ofNat 10000

def one : Decimal := .ofNat 1

def two : Decimal := .ofNat 2

def zero : Decimal := .ofNat 0

/-- `-_ONE`. -/
def minusOne : Decimal := .ofInt (-1)

/-! ## Errors -/

/-- The codes of a `CostInputError`. -/
inductive CostErrorCode where
  | notDecimal
  | nonFinite
  | outOfRange
  | emptyField
  | doubleCountedSpread
  | conventionMismatch
  | sizeMismatch
  | currencyMismatch
  | fundingNotApplicable
  | precisionExceeded
  deriving DecidableEq, Repr

/-- The codes of a `CostBoundError`. -/
inductive CostBoundErrorCode where
  | notAScenario
  | feeMissing
  | feeNegative
  | componentObserved
  | fundingNotBounded
  deriving DecidableEq, Repr

/-- What the module raises: a `CostInputError` or a `CostBoundError` of a field, a decimal signal
that is not caught, or a failed assertion. -/
inductive CostFailure where
  | input (code : CostErrorCode) (field detail : String)
  | bound (code : CostBoundErrorCode) (field detail : String)
  | decimal (error : DecimalError)
  | assertion
  deriving DecidableEq, Repr

/-- A `CostInputError` about a number that is out of range. -/
def outOfRange (field detail : String) : CostFailure := .input .outOfRange field detail

/-- `_require_text`. -/
def requireText (field value : String) : Except CostFailure Unit :=
  ensure (Text.strip value ≠ "") (.input .emptyField field "a non-empty string is required")

/-- `_require_optional_text`. -/
def requireOptionalText (field : String) : Option String → Except CostFailure Unit
  | none => .ok ()
  | some value => requireText field value

/-- `value <= 0` is refused. -/
def requirePositive (field : String) (value : Decimal) : Except CostFailure Unit :=
  ensure (Decimal.le value zero = false) (outOfRange field "must be > 0")

/-- `value < 0 or value >= limit` is refused. -/
def requireBelow (field detail : String) (limit value : Decimal) : Except CostFailure Unit :=
  ensure (Decimal.lt value zero = false ∧ Decimal.le limit value = false) (outOfRange field detail)

/-- `abs(value)`, in the context of the thread. -/
def magnitudeOf (value : Decimal) : Except DecimalError Decimal :=
  if value.negative then Decimal.neg .default value else Decimal.fit .default value

/-- `abs(value) >= _BPS` is refused. -/
def requireRate (field : String) (value : Decimal) : Except CostFailure Unit := do
  let size ← (magnitudeOf value).mapError .decimal
  ensure (Decimal.le bps size = false) (outOfRange field "must be in (-10000, 10000)")

/-! ## Vocabulary -/

/-- The side of the position. -/
inductive Side where
  | long
  | short
  deriving DecidableEq, Repr

/-- A round trip has two legs. -/
inductive Leg where
  | entry
  | exit
  deriving DecidableEq, Repr

namespace Leg

def text : Leg → String
  | .entry => "entry"
  | .exit => "exit"

/-- Both legs, in order. -/
def all : List Leg := [.entry, .exit]

end Leg

/-- What is done to the book. -/
inductive TradeDirection where
  | buy
  | sell
  deriving DecidableEq, Repr

def TradeDirection.text : TradeDirection → String
  | .buy => "buy"
  | .sell => "sell"

/-- The components of a cost. -/
inductive CostComponent where
  | spread
  | slippage
  | fee
  | funding
  | fx
  deriving DecidableEq, Repr

/-- Whether every component is known. -/
inductive CostStatus where
  | complete
  | incomplete
  deriving DecidableEq, Repr

/-- Where the spread is paid. -/
inductive SpreadConvention where
  | halfSpreadPlusTouchSlippage
  | slippageFromMid
  deriving DecidableEq, Repr

def SpreadConvention.text : SpreadConvention → String
  | .halfSpreadPlusTouchSlippage => "half_spread_plus_touch_slippage"
  | .slippageFromMid => "slippage_from_mid"

/-- What a slippage is measured from. -/
inductive SlippageBasis where
  | fromTouch
  | fromMid
  deriving DecidableEq, Repr

def SlippageBasis.text : SlippageBasis → String
  | .fromTouch => "from_touch"
  | .fromMid => "from_mid"

/-- Whether the book covered the size. -/
inductive DepthCoverage where
  | full
  | partialDepth
  deriving DecidableEq, Repr

/-- What a fee rests on. -/
inductive FeeBasis where
  | uncalibratedAssumption
  | publishedSchedule
  deriving DecidableEq, Repr

def FeeBasis.text : FeeBasis → String
  | .uncalibratedAssumption => "uncalibrated_assumption"
  | .publishedSchedule => "published_schedule"

/-- Where a size comes from. -/
inductive SizeProvenance where
  | referenceConfig
  | hypotheticalManual
  deriving DecidableEq, Repr

/-- Why a component is missing. -/
inductive MissingReason where
  | notObserved
  | sizeNotCovered
  | feeUnknown
  | fundingSemanticsUnverified
  | fxRateUnavailable
  deriving DecidableEq, Repr

/-- Why a component costs nothing. -/
inductive NotApplicableReason where
  | spreadIncludedInSlippageFromMid
  | spotHasNoFunding
  | zeroFundingIntervals
  | reportInQuoteCurrency
  | noMoneyProjection
  deriving DecidableEq, Repr

/-- Why there is no amount of money. -/
inductive MoneyUnavailableReason where
  | scenarioIncomplete
  | quoteCurrencyUnidentified
  deriving DecidableEq, Repr

/-- LONG: entry BUY, exit SELL. SHORT: entry SELL, exit BUY. -/
def legDirection : Side → Leg → TradeDirection
  | .long, .entry => .buy
  | .long, .exit => .sell
  | .short, .entry => .sell
  | .short, .exit => .buy

/-! ## Inputs -/

/-- An input that is not known. -/
structure Missing where
  reason : MissingReason
  detail : String := ""
  deriving DecidableEq, Repr

/-- What is priced; a text that is none is not identified. -/
structure CostInstrument where
  kind : InstrumentKind
  symbol : Option String
  quoteCurrency : Option String
  checked : (do
    requireOptionalText "CostInstrument.symbol" symbol
    requireOptionalText "CostInstrument.quote_currency" quoteCurrency) = .ok ()

/-- The reference notional in the quote currency, with where it came from. -/
structure ScenarioSize where
  notional : Decimal
  provenance : SizeProvenance
  checked : requirePositive "ScenarioSize.notional" notional = .ok ()

/-- The quoted spread, in bps of the mid. -/
structure SpreadInput where
  bps : Decimal
  source : String
  checked : (do
    requireBelow "SpreadInput.bps" "must be in [0, 20000)" (.ofNat 20000) bps
    requireText "SpreadInput.source" source) = .ok ()

/-- The slippage of one direction at a notional, in bps of its basis price. -/
structure SlippageInput where
  bps : Decimal
  basis : SlippageBasis
  measuredNotional : Decimal
  coverage : DepthCoverage
  source : String
  checked : (do
    requireBelow "SlippageInput.bps" "must be in [0, 10000)" Costs.bps bps
    requirePositive "SlippageInput.measured_notional" measuredNotional
    requireText "SlippageInput.source" source) = .ok ()

/-- The fee rate of one leg, in bps of its fill notional; a rebate is negative. -/
structure FeeInput where
  bps : Decimal
  basis : FeeBasis
  source : String
  checked : (do
    requireRate "FeeInput.bps" bps
    requireText "FeeInput.source" source) = .ok ()

/-- The funding rate per interval, in bps of the notional; a positive one is paid by LONG. -/
structure FundingInput where
  bpsPerInterval : Decimal
  source : String
  checked : (do
    requireRate "FundingInput.bps_per_interval" bpsPerInterval
    requireText "FundingInput.source" source) = .ok ()

/-- One unit of `fromCurrency` is `rate` units of `toCurrency`. -/
structure FxRate where
  fromCurrency : String
  toCurrency : String
  rate : Decimal
  source : String
  checked : (do
    requireText "FxRate.from_currency" fromCurrency
    requireText "FxRate.to_currency" toCurrency
    requirePositive "FxRate.rate" rate
    requireText "FxRate.source" source) = .ok ()

/-- An input that is given, or missing with its reason. -/
inductive Required (Input : Type) where
  | given (input : Input)
  | missing (why : Missing)

/-- An input that may be left out. -/
inductive Supplied (Input : Type) where
  | given (input : Input)
  | missing (why : Missing)
  | absent

/-- The reason of an input that is not given. -/
def Supplied.why {Input : Type} (supplied : Supplied Input) (default : Missing) : Missing :=
  match supplied with
  | .missing why => why
  | _ => default

/-- What `price_round_trip` prices. -/
structure CostScenarioInput where
  instrument : CostInstrument
  side : Side
  size : ScenarioSize
  spreadConvention : SpreadConvention
  spread : Supplied SpreadInput
  buySlippage : Required SlippageInput
  sellSlippage : Required SlippageInput
  entryFee : Required FeeInput
  exitFee : Required FeeInput
  fundingIntervals : ℕ
  funding : Supplied FundingInput
  reportCurrency : Option String
  fx : Supplied FxRate
  checked : requireOptionalText "CostScenarioInput.report_currency" reportCurrency = .ok ()

namespace CostScenarioInput

/-- The slippage of a direction. -/
def slippage (scenario : CostScenarioInput) : TradeDirection → Required SlippageInput
  | .buy => scenario.buySlippage
  | .sell => scenario.sellSlippage

/-- The fee of a leg. -/
def fee (scenario : CostScenarioInput) : Leg → Required FeeInput
  | .entry => scenario.entryFee
  | .exit => scenario.exitFee

end CostScenarioInput

/-! ## Results -/

/-- An amount in a currency. -/
structure Money where
  amount : Decimal
  currency : String
  deriving DecidableEq, Repr

/-- One known cost, as a fraction of the reference notional; a positive one is paid. -/
structure CostLine where
  component : CostComponent
  leg : Option Leg
  direction : Option TradeDirection
  fraction : Decimal
  source : String
  deriving DecidableEq, Repr

/-- A component that is missing, and why. -/
structure MissingLine where
  component : CostComponent
  leg : Option Leg
  why : Missing
  deriving DecidableEq, Repr

/-- A component that costs nothing, and why. -/
structure NotApplicableLine where
  component : CostComponent
  leg : Option Leg
  reason : NotApplicableReason
  deriving DecidableEq, Repr

/-- The signed cash of the round trip in the quote currency; what is received is positive. -/
structure HypotheticalCashflow where
  entryTrade : Money
  entryFee : Money
  exitTrade : Money
  exitFee : Money
  funding : Money
  net : Money
  deriving DecidableEq, Repr

/-- What was priced. A scenario with a missing component has no total and no money. -/
structure CostScenario where
  policyVersion : String
  instrument : CostInstrument
  side : Side
  size : ScenarioSize
  spreadConvention : SpreadConvention
  fundingIntervals : ℕ
  status : CostStatus
  lines : List CostLine
  missing : List MissingLine
  notApplicable : List NotApplicableLine
  totalFraction : Option Decimal
  totalQuote : Option Money
  totalReport : Option Money
  cashflow : Option HypotheticalCashflow
  moneyUnavailable : Option MoneyUnavailableReason

end CryptoRadar.Costs
