import CryptoRadar.Lib.Dict
import CryptoRadar.Lib.Json
import CryptoRadar.Lib.Runtime
import CryptoRadar.Paper.Domain

/-!
# The account envelope and the pair rules

The first half of `domain/risk.py`: amounts in the contexts of the Risk Engine, the EX-1
envelope, the budget it leaves at an equity, and the venue rules of a pair. An `Envelope` is a
record of values that passed the constructor, so nothing looser than EX-1 can be built.
-/

set_option autoImplicit false

namespace CryptoRadar.Risk

open Checked
open Paper (PaperFailure zero)

/-- `RISK_CONTEXT`. -/
def riskContext : DecimalContext := ⟨50, .halfEven⟩

/-- Divisions that give a quantity round down. -/
def quantityContext : DecimalContext := ⟨50, .floor⟩

/-- `HUNDRED`. -/
def hundred : Decimal := .ofNat 100

/-- The decimal 1. -/
def one : Decimal := .ofNat 1

/-- `ENVELOPE_POLICY_ID`. -/
def envelopePolicyId : String := "ex1_envelope_v1"

/-- `EX1_PER_ENTRY_LOSS_PCT`. -/
def ex1PerEntryLossPct : Decimal := ⟨false, 25, -2⟩
/-- `EX1_AGGREGATE_LOSS_PCT`. -/
def ex1AggregateLossPct : Decimal := ⟨false, 50, -2⟩
/-- `EX1_GROSS_NOTIONAL_PCT`. -/
def ex1GrossNotionalPct : Decimal := .ofNat 10
/-- `EX1_MIN_CASH_BUFFER_PCT`. -/
def ex1MinCashBufferPct : Decimal := .ofNat 10
/-- `EX1_DAILY_LOSS_PCT`. -/
def ex1DailyLossPct : Decimal := .ofNat 1
/-- `EX1_DRAWDOWN_PCT`. -/
def ex1DrawdownPct : Decimal := .ofNat 3
/-- `EX1_MAX_POSITIONS`. -/
def ex1MaxPositions : ℤ := 1
/-- `EX1_LEVERAGE`. -/
def ex1Leverage : ℤ := 0

/-- `MAX_PAIR_DECIMALS`. -/
def maxPairDecimals : ℤ := 18

/-- Why no position is opened. -/
inductive NoTradeReason where
  | unsupportedDirection
  | envelopeChanged
  | killSwitchEngaged
  | dailyLossLock
  | drawdownLock
  | positionAlreadyOpen
  | quoteCurrencyMismatch
  | invalidQuote
  | noValidAtr
  | missingPairRules
  | equityUnavailable
  | invalidLevels
  | stopInvalidAfterTick
  | noLossBudget
  | noNotionalRoom
  | insufficientCash
  | belowOrderMinimum
  | belowCostMinimum
  | sizingInconsistent
  deriving DecidableEq, Repr

/-- A refused entry. -/
structure NoTrade where
  reason : NoTradeReason
  detail : String
  deriving DecidableEq, Repr

/-- What the module raises: a `RiskInputError` or an `EnvelopeError` of a field, what
`domain.paper` raises, or a decimal signal. -/
inductive RiskFailure where
  | input (field detail : String)
  | envelope (field detail : String)
  /-- The `EnvelopeError` of `currency`: "must be a non-empty code, got" and the `repr` of the value. -/
  | currency (value : PyStr)
  | paper (failure : PaperFailure)
  | decimal (error : DecimalError)
  deriving DecidableEq, Repr

/-- A decimal operation inside the module. -/
def computed {α : Type} : Except DecimalError α → Except RiskFailure α := Except.mapError .decimal

theorem computed_eq_ok {α : Type} {result : Except DecimalError α} {value : α} :
    computed result = .ok value ↔ result = .ok value := mapError_eq_ok

/-! ## Amounts -/

/-- `value < 0` is refused. -/
def requireNonnegative (field : String) (value : Decimal) : Except RiskFailure Unit :=
  ensure (Decimal.lt value zero = false) (.input field ("must be >= 0, got " ++ value.text))

/-- `value <= 0` is refused. -/
def requirePositive (field : String) (value : Decimal) : Except RiskFailure Unit :=
  ensure (Decimal.le value zero = false) (.input field ("must be > 0, got " ++ value.text))

/-- The value is its cents. -/
def isWholeCents (value : Decimal) : Except DecimalError Bool :=
  (Decimal.quantize riskContext .halfEven value Paper.centExponent).map (Decimal.eq value)

/-- Plain text without exponent or trailing zeros. -/
def plain (value : Decimal) : Except DecimalError String :=
  (Decimal.normalize riskContext value).map Decimal.plainText

/-- The value in cents, rounded up. -/
def centsUp (value : Decimal) : Except DecimalError Decimal :=
  Decimal.quantize riskContext .ceiling value Paper.centExponent

/-- The largest multiple of a positive step that is not above the value. -/
def floorToStep (value step : Decimal) : Except DecimalError Decimal := do
  let steps ← Decimal.div quantityContext value step
  Decimal.mul quantityContext (steps.toIntegralValue .floor) step

/-- One lot: `Decimal(1).scaleb(-lot_decimals)`. -/
def lotStep (lotDecimals : ℕ) : Decimal := ⟨false, 1, -lotDecimals⟩

/-- Rounded down to `lot_decimals` decimals. -/
def floorToLot (quantity : Decimal) (lotDecimals : ℕ) : Except DecimalError Decimal :=
  Decimal.quantize quantityContext .floor quantity (lotStep lotDecimals).exponent

/-- `min(first, second)`: the first of two equal numbers. -/
def least (first second : Decimal) : Decimal := if Decimal.lt second first then second else first

/-- `max(first, second)`: the first of two equal numbers. -/
def greatest (first second : Decimal) : Decimal := if Decimal.lt first second then second else first

/-! ## Envelope -/

/-- White space of Python; a surrogate is none. -/
def isSpaceCode (code : ℕ) : Bool := Text.isSpace (Char.ofNat code)

/-- `str.strip` of a text that may hold surrogates. -/
def stripCodes (text : PyStr) : PyStr :=
  ((text.dropWhile isSpaceCode).reverse.dropWhile isSpaceCode).reverse

/-- The values as given. The currency is any text of Python, surrogates included. -/
structure EnvelopeValues where
  equity : Decimal
  currency : PyStr
  perEntryLossPct : Decimal := ex1PerEntryLossPct
  aggregateLossPct : Decimal := ex1AggregateLossPct
  grossNotionalPct : Decimal := ex1GrossNotionalPct
  cashBufferPct : Decimal := ex1MinCashBufferPct
  dailyLossPct : Decimal := ex1DailyLossPct
  drawdownPct : Decimal := ex1DrawdownPct
  perEntryAbsCap : Option Decimal := none
  maxPositions : ℤ := ex1MaxPositions
  leverage : ℤ := ex1Leverage
  deriving DecidableEq, Repr

/-- A positive amount in whole cents. -/
def requireWholeCents (field : String) (value : Decimal) : Except RiskFailure Unit :=
  let failure := RiskFailure.envelope field
    ("must be a positive amount in whole cents, got " ++ value.text)
  if Decimal.le value zero then .error failure
  else do
    let whole ← computed (isWholeCents value)
    ensure (whole = true) failure

/-- A positive percentage that is not looser than the ceiling. -/
def requireCeiling (field : String) (value ceiling : Decimal) : Except RiskFailure Unit := do
  ensure (Decimal.le value zero = false) (.envelope field ("must be > 0, got " ++ value.text))
  ensure (Decimal.lt ceiling value = false)
    (.envelope field (value.text ++ " is looser than the EX-1 ceiling " ++ ceiling.text))

namespace EnvelopeValues

variable (values : EnvelopeValues)

/-- The currency is a text without blanks around it. -/
def requireCurrency : Except RiskFailure Unit :=
  ensure (stripCodes values.currency ≠ [] ∧ values.currency = stripCodes values.currency)
    (.currency values.currency)

/-- The cash buffer is at least that of EX-1 and below all of the equity. -/
def requireBuffer : Except RiskFailure Unit := do
  ensure (Decimal.lt values.cashBufferPct ex1MinCashBufferPct = false)
    (.envelope "cash_buffer_pct" (values.cashBufferPct.text ++ " is below the EX-1 minimum " ++
      ex1MinCashBufferPct.text))
  ensure (Decimal.le hundred values.cashBufferPct = false)
    (.envelope "cash_buffer_pct" ("must be below 100, got " ++ values.cashBufferPct.text))

/-- `__post_init__`. -/
def check : Except RiskFailure Unit := do
  requireWholeCents "equity" values.equity
  values.requireCurrency
  requireCeiling "per_entry_loss_pct" values.perEntryLossPct ex1PerEntryLossPct
  requireCeiling "aggregate_loss_pct" values.aggregateLossPct ex1AggregateLossPct
  requireCeiling "gross_notional_pct" values.grossNotionalPct ex1GrossNotionalPct
  requireCeiling "daily_loss_pct" values.dailyLossPct ex1DailyLossPct
  requireCeiling "drawdown_pct" values.drawdownPct ex1DrawdownPct
  values.requireBuffer
  values.perEntryAbsCap.elim (.ok ()) (requireWholeCents "per_entry_abs_cap")
  ensure (values.maxPositions = ex1MaxPositions)
    (.envelope "max_positions" ("must be 1, got " ++ toString values.maxPositions))
  ensure (values.leverage = ex1Leverage)
    (.envelope "leverage" ("must be 0, got " ++ toString values.leverage))

end EnvelopeValues

/-- Values that passed the constructor. -/
structure Envelope extends EnvelopeValues where
  checked : toEnvelopeValues.check = .ok ()
  deriving DecidableEq

namespace Envelope

/-- A member of the canonical text: keys in order, no blanks. -/
def member (key value : String) : String := jsonQuoted key ++ ":" ++ value

/-- A code point of a JSON string; a surrogate is escaped by itself. -/
def jsonCode (code : ℕ) : String :=
  if code.isValidChar then jsonChar (Char.ofNat code) else "\\u" ++ hexDigits 4 code

/-- `json.dumps` of a text that may hold surrogates. -/
def jsonQuotedCodes (text : PyStr) : String :=
  String.ofList [doubleQuote] ++ String.join (text.map jsonCode) ++ String.ofList [doubleQuote]

/-- A stable text of every value. -/
def canonicalText (envelope : Envelope) : String :=
  let number (value : Decimal) := jsonQuoted value.text
  "\x7b" ++ ",".intercalate
    [member "aggregate_loss_pct" (number envelope.aggregateLossPct),
      member "cash_buffer_pct" (number envelope.cashBufferPct),
      member "currency" (jsonQuotedCodes envelope.currency),
      member "daily_loss_pct" (number envelope.dailyLossPct),
      member "drawdown_pct" (number envelope.drawdownPct),
      member "equity" (number envelope.equity),
      member "gross_notional_pct" (number envelope.grossNotionalPct),
      member "leverage" (toString envelope.leverage),
      member "max_positions" (toString envelope.maxPositions),
      member "per_entry_abs_cap" ((envelope.perEntryAbsCap.map number).getD "null"),
      member "per_entry_loss_pct" (number envelope.perEntryLossPct),
      member "policy_id" (jsonQuoted envelopePolicyId)] ++ "\x7d"

/-- An envelope allows one position. -/
theorem maxPositions_eq (envelope : Envelope) : envelope.maxPositions = 1 := by
  have checked := envelope.checked
  simp only [EnvelopeValues.check, bind_eq_ok, ensure_eq_ok, exists_and_left, exists_const] at checked
  tauto

end Envelope

/-! ## Budget -/

/-- `_percent_of`. -/
def percentOf (base pct : Decimal) : Except DecimalError Decimal := do
  let product ← Decimal.mul riskContext base pct
  Decimal.div riskContext product hundred

/-- What a new entry may lose and hold. -/
structure Budget where
  perEntryLossCap : Decimal
  aggregateLossCap : Decimal
  aggregateLossRemaining : Decimal
  notionalCap : Decimal
  notionalRemaining : Decimal
  cashBuffer : Decimal
  cashRoom : Decimal
  deriving DecidableEq, Repr

/-- The limits of the envelope at an equity, net of what is open. -/
def budget (envelope : Envelope) (equity cash openPlannedLoss openNotional : Decimal) :
    Except RiskFailure Budget := do
  requirePositive "equity" equity
  requireNonnegative "open_planned_loss" openPlannedLoss
  requireNonnegative "open_notional" openNotional
  let share ← computed (percentOf equity envelope.perEntryLossPct)
  let perEntry := envelope.perEntryAbsCap.elim share (least share)
  let aggregate ← computed (percentOf equity envelope.aggregateLossPct)
  let notional ← computed (percentOf equity envelope.grossNotionalPct)
  let buffer ← computed (percentOf equity envelope.cashBufferPct)
  let aggregateRemaining ← computed (Decimal.sub riskContext aggregate openPlannedLoss)
  let notionalRemaining ← computed (Decimal.sub riskContext notional openNotional)
  let cashRoom ← computed (Decimal.sub riskContext cash buffer)
  return ⟨perEntry, aggregate, aggregateRemaining, notional, notionalRemaining, buffer, cashRoom⟩

/-! ## Pair rules -/

/-- Where the tick of a pair comes from. -/
inductive TickSource where
  | tickSize
  | pairDecimals
  deriving DecidableEq, Repr

/-- The trading rules of a pair. -/
structure PairRules where
  lotDecimals : ℕ
  ordermin : Decimal
  costmin : Decimal
  tick : Decimal
  tickSource : TickSource
  deriving DecidableEq, Repr

/-- The smallest step of a quantity. -/
def PairRules.lot (rules : PairRules) : Decimal := lotStep rules.lotDecimals

/-- A value of the metadata of a pair. -/
inductive RawValue where
  | null
  | bool
  | float
  | integer (number : ℤ)
  | text (given : String)
  | decimal (number : Option Decimal)
  | other
  deriving DecidableEq, Repr

/-- The metadata of a pair, if there is any. -/
abbrev PairEntry := Option (Dict String RawValue)

/-- `_missing`. -/
def missing (field problem : String) : NoTrade := ⟨.missingPairRules, field ++ ":" ++ problem⟩

/-- A field that is there and is not null. -/
def present (entry : Dict String RawValue) (field : String) : Except NoTrade RawValue :=
  match entry.get? field with
  | none => .error (missing field "missing")
  | some .null => .error (missing field "missing")
  | some value => .ok value

/-- `_decimals_field`. -/
def decimalsField (entry : Dict String RawValue) (field : String) : Except NoTrade ℕ := do
  match ← present entry field with
  | .integer number =>
      if number < 0 then .error (missing field "negative")
      else if maxPairDecimals < number then .error (missing field "too_large")
      else .ok number.toNat
  | _ => .error (missing field "not_an_integer")

/-- A number that is not negative. -/
def notNegative (field : String) (number : Decimal) : Except NoTrade Decimal :=
  if Decimal.lt number zero then .error (missing field "negative") else .ok number

section Parsing

variable (runtime : Runtime)

/-- `_decimal_text_field`: exact numbers only. -/
def decimalTextField (entry : Dict String RawValue) (field : String) : Except NoTrade Decimal := do
  match ← present entry field with
  | .text given =>
      if Text.strip given = "" then .error (missing field "missing")
      else
        match Decimal.read runtime.digit? (Text.strip given) with
        | .finite number => notNegative field number
        | .infiniteOrNan => .error (missing field "not_finite")
        | .notANumber => .error (missing field "not_a_number")
  | .integer number => notNegative field (.ofInt number)
  | .decimal (some number) => notNegative field number
  | .decimal none => .error (missing field "not_finite")
  | .bool => .error (missing field "not_exact")
  | .float => .error (missing field "not_exact")
  | .null => .error (missing field "missing")
  | .other => .error (missing field "not_a_number")

/-- The tick: `tick_size` when it is there, else a power of ten. -/
def parseTick (entry : Dict String RawValue) : Except NoTrade (Decimal × TickSource) :=
  match entry.get? "tick_size" with
  | some (.integer _) | some (.text _) | some (.decimal _) | some .bool | some .float
  | some .other => do
      let tick ← decimalTextField runtime entry "tick_size"
      if tick.isZero then .error (missing "tick_size" "not_positive") else return (tick, .tickSize)
  | some .null | none =>
      match decimalsField entry "pair_decimals" with
      | .ok decimals => .ok (lotStep decimals, .pairDecimals)
      | .error problem =>
          .error (if (entry.get? "pair_decimals").isNone then missing "tick_size" "missing"
            else problem)

/-- `parse_pair_rules`. -/
def parsePairRules : PairEntry → Except NoTrade PairRules
  | none => .error (missing "entry" "missing")
  | some entry => do
      let lotDecimals ← decimalsField entry "lot_decimals"
      let ordermin ← decimalTextField runtime entry "ordermin"
      let costmin ← decimalTextField runtime entry "costmin"
      let (tick, source) ← parseTick runtime entry
      return ⟨lotDecimals, ordermin, costmin, tick, source⟩

end Parsing

end CryptoRadar.Risk
