import CryptoRadar.Lib.Decimal
import CryptoRadar.Lib.DecimalValue
import CryptoRadar.Lib.ZonedTime

/-!
# Observations and results

`domain/integrity.py`: the observations of a market, the limits of a policy and what the checks
say of an observation. A time is naive or aware (`Stamp`), and an aware one has a time zone: two of one
zone are compared and subtracted by their wall clocks. The time that the checks are given is aware by its
type.

The detail of a reason is kept as what its text shows (`Detail`), not as the text. That the status
of a result is that of its reasons, which the constructor of the source checks, is a field of
`CapabilityResult`.
-/

set_option autoImplicit false

namespace CryptoRadar.Integrity

/-! ## Numbers and times -/

/-- What the module raises: an integer that is too large for a float, a division by zero, an aware
and a naive time in one expression, a sum of decimals outside its context, a time outside the
calendar, a subject without a result. -/
inductive IntegrityFailure where
  | overflow
  | zeroDivision
  | type
  | decimal (error : DecimalError)
  | time (error : TimeError)
  | key
  deriving DecidableEq, Repr

/-- `float | int | Decimal`, and the booleans that are integers of the runtime. A decimal that is
not finite keeps its name. -/
inductive Number where
  | flag (value : Bool)
  | int (value : ℤ)
  | float (value : Double)
  | decimal (value : Decimal)
  | special (name : String)
  deriving DecidableEq

namespace Number

/-- `_finite`. -/
def finite : Number → Except IntegrityFailure Bool
  | .flag _ => .ok false
  | .int value =>
      match (PyFloat.ofInt value : Except NumberError Double) with
      | .ok _ => .ok true
      | .error _ => .error .overflow
  | .float value => .ok (PyFloat.isFinite value)
  | .decimal _ => .ok true
  | .special _ => .ok false

/-- The value of a finite number. Numbers of different types are compared by it. -/
def value : Number → ℚ
  | .flag true => 1
  | .flag false => 0
  | .int number => number
  | .float number => number.toRat
  | .decimal number => number.toRat
  | .special _ => 0

/-- `_as_decimal`; the decimal of a float is its exact value. -/
def asDecimal : Number → Decimal
  | .flag true => Decimal.ofInt 1
  | .flag false => Decimal.ofInt 0
  | .int number => Decimal.ofInt number
  | .float number =>
      let places := Nat.log2 number.toRat.den
      ⟨number.isNegative, number.toRat.num.natAbs * 5 ^ places, -places⟩
  | .decimal number => number
  | .special _ => Decimal.ofInt 0

end Number

/-- A time: naive, with its wall clock, or aware. A time whose zone gives no offset is naive. -/
inductive Stamp where
  | naive (wall : Moment)
  | aware (time : ZonedTime)
  deriving DecidableEq

namespace Stamp

/-- `stamp + difference`. -/
def shift (stamp : Stamp) (difference : Timedelta) : Except IntegrityFailure Stamp :=
  match stamp with
  | .naive wall => ((wall.shift difference).mapError .time).map .naive
  | .aware time => ((time.shift difference).mapError .time).map .aware

/-- `later - earlier`. -/
def minus [Zones] (later earlier : Stamp) : Except IntegrityFailure Timedelta :=
  match later, earlier with
  | .naive later, .naive earlier => .ok (.between later earlier)
  | .aware later, .aware earlier => .ok (later.minus earlier)
  | _, _ => .error .type

end Stamp

/-! ## Vocabulary -/

/-- The outcome of a check. -/
inductive CheckStatus where
  | pass
  | fail
  | unknown
  | notApplicable
  deriving DecidableEq, Repr

/-- What a subject can be used for. -/
inductive Capability where
  | spotTicker
  | pairOhlc
  | atr
  | book
  | trades
  | futures
  | clock
  | metadata
  deriving DecidableEq, Repr

/-- What the age of an observation is measured from. -/
inductive TimeBasis where
  | source
  | receiptOnly
  | none
  deriving DecidableEq, Repr

/-- Spot or futures. -/
inductive InstrumentKind where
  | spot
  | futures
  deriving DecidableEq, Repr

/-- Whether an instrument trades. -/
inductive TradingStatus where
  | online
  | restricted
  | offline
  deriving DecidableEq, Repr

/-- The side of the taker. -/
inductive TradeSide where
  | buy
  | sell
  deriving DecidableEq, Repr

/-- A side of an order book. -/
inductive BookSide where
  | bid
  | ask
  deriving DecidableEq, Repr

/-- The field of a snapshot that holds the levels of a side. -/
def BookSide.levels : BookSide → String
  | .bid => "bids"
  | .ask => "asks"

/-- The timeframes of the average true range. -/
inductive AtrTimeframe where
  | m5
  | h1
  deriving DecidableEq, Repr

/-- The text of a timeframe. -/
def AtrTimeframe.value : AtrTimeframe → String
  | .m5 => "5m"
  | .h1 => "1h"

/-- The length of a bar, in microseconds. -/
def AtrTimeframe.span : AtrTimeframe → ℤ
  | .m5 => Moment.seconds 300
  | .h1 => Moment.seconds 3600

/-- Why a check did not pass. -/
inductive ReasonCode where
  | invalidNumber
  | nonpositivePrice
  | invalidSize
  | unitMismatch
  | identityMismatch
  | ohlcIncoherent
  | barNotClosed
  | barMisaligned
  | barOrder
  | crossedQuote
  | bookSideUnordered
  | naiveTimestamp
  | futureDated
  | staleReceipt
  | staleSource
  | marketNotOnline
  | clockNotSynchronized
  | clockUncertaintyExceeded
  | clockBackwardJump
  | missingObservation
  | missingMetadata
  | emptyBookSide
  | sizeNotCovered
  | barGap
  | insufficientBars
  | noTrades
  | staleLastTrade
  | sourceTimeAbsent
  | clockSyncUnknown
  | clockUncertaintyUnknown
  | clockUntrusted
  deriving DecidableEq, Repr

namespace ReasonCode

/-- `code in HARD_REASONS`. -/
def hard : ReasonCode → Bool
  | .invalidNumber | .nonpositivePrice | .invalidSize | .unitMismatch | .identityMismatch
  | .ohlcIncoherent | .barNotClosed | .barMisaligned | .barOrder | .crossedQuote
  | .bookSideUnordered | .naiveTimestamp | .futureDated => true
  | _ => false

/-- `code in _READINESS_FAILURES`. -/
def readiness : ReasonCode → Bool
  | .staleReceipt | .staleSource | .marketNotOnline | .clockNotSynchronized
  | .clockUncertaintyExceeded | .clockBackwardJump => true
  | _ => false

/-- `code.status`. -/
def status (code : ReasonCode) : CheckStatus :=
  if code.hard || code.readiness then .fail else .unknown

end ReasonCode

/-! ## Observations -/

/-- A symbol of a venue. -/
structure InstrumentId where
  venue : String
  symbol : String
  kind : InstrumentKind
  base : String
  quote : String
  sizeUnit : String
  deriving DecidableEq, Repr

/-- When an observation was received, and its own time if the source gives one. -/
structure SourceTiming where
  receivedAt : Stamp
  sourceTime : Option Stamp

/-- The limits of a policy; every bound is inclusive. -/
structure IntegrityPolicy where
  version : String
  tickerMaxAge : Timedelta
  ohlcInterval : Timedelta
  ohlcLastCloseMaxAge : Timedelta
  atrPeriod : ℤ
  bookMaxAge : Timedelta
  tradesReceiptMaxAge : Timedelta
  lastTradeMaxAge : Timedelta
  futuresMaxAge : Timedelta
  clockMaxUncertainty : Timedelta
  sourceFutureTolerance : Timedelta

/-- An average true range needs one bar before its period. -/
def IntegrityPolicy.atrMinBars (policy : IntegrityPolicy) : ℤ := policy.atrPeriod + 1

theorem fifteenSeconds_inRange : Timedelta.least ≤ 15000000 ∧ 15000000 ≤ Timedelta.greatest := by
  decide

theorem minute_inRange : Timedelta.least ≤ 60000000 ∧ 60000000 ≤ Timedelta.greatest := by
  decide

theorem ninetySeconds_inRange : Timedelta.least ≤ 90000000 ∧ 90000000 ≤ Timedelta.greatest := by
  decide

theorem sixMinutes_inRange : Timedelta.least ≤ 360000000 ∧ 360000000 ≤ Timedelta.greatest := by
  decide

theorem halfSecond_inRange : Timedelta.least ≤ 500000 ∧ 500000 ≤ Timedelta.greatest := by
  decide

/-- `OC1_POLICY`. -/
def oc1Policy : IntegrityPolicy where
  version := "OC-1"
  tickerMaxAge := ⟨90000000, ninetySeconds_inRange⟩
  ohlcInterval := ⟨300000000, Timedelta.fiveMinutes_inRange⟩
  ohlcLastCloseMaxAge := ⟨360000000, sixMinutes_inRange⟩
  atrPeriod := 14
  bookMaxAge := ⟨15000000, fifteenSeconds_inRange⟩
  tradesReceiptMaxAge := ⟨15000000, fifteenSeconds_inRange⟩
  lastTradeMaxAge := ⟨60000000, minute_inRange⟩
  futuresMaxAge := ⟨60000000, minute_inRange⟩
  clockMaxUncertainty := ⟨500000, halfSecond_inRange⟩
  sourceFutureTolerance := ⟨500000, halfSecond_inRange⟩

/-- A quote of the spot market. -/
structure TickerObservation where
  instrument : InstrumentId
  bid : Number
  ask : Number
  last : Number
  priceUnit : String
  timing : SourceTiming
  status : Option TradingStatus

/-- A candle. -/
structure Bar where
  openTime : Stamp
  open_ : Number
  high : Number
  low : Number
  close : Number
  volume : Number

/-- Candles of one interval. -/
structure OhlcSeries where
  instrument : InstrumentId
  interval : Timedelta
  bars : List Bar
  priceUnit : String
  volumeUnit : String
  timing : SourceTiming

/-- A price and the size offered at it. -/
structure BookLevel where
  price : Number
  size : Number

/-- An order book. -/
structure BookSnapshot where
  instrument : InstrumentId
  bids : List BookLevel
  asks : List BookLevel
  priceUnit : String
  sizeUnit : String
  timing : SourceTiming

/-- A size that a side of the book has to hold. -/
structure RequiredDepth where
  side : BookSide
  size : Number

/-- One public trade. -/
structure Trade where
  time : Stamp
  price : Number
  size : Number
  side : TradeSide

/-- Recent public trades. -/
structure TradesObservation where
  instrument : InstrumentId
  trades : List Trade
  priceUnit : String
  sizeUnit : String
  timing : SourceTiming

/-- A quote of the futures market. -/
structure FuturesObservation where
  instrument : InstrumentId
  bid : Number
  ask : Number
  last : Number
  priceUnit : String
  timing : SourceTiming
  lastTradeTime : Option Stamp
  quoteTime : Option Stamp

/-- A futures contract that should have been observed. -/
structure FuturesExpectation where
  instrument : InstrumentId
  observation : Option FuturesObservation

/-- What the clock says of itself. -/
structure ClockSample where
  synchronized : Option Bool
  offsetUncertainty : Option Timedelta
  previousWallTime : Option Stamp
  backwardJump : Option Timedelta

/-- A claim of the metadata of an instrument. -/
structure MetadataValue where
  claim : String
  value : Option Number

/-! ## Results -/

/-- What a reason shows of the data. -/
inductive Detail where
  | text (text : String)
  | number (value : Number)
  | pair (first second : Number)
  | prices (values : List Number)
  | units (expected actual : String)
  | instruments (expected actual : InstrumentId)
  | intervals (expected actual : Timedelta)
  | moment (time : ZonedTime)
  | order (later earlier : ZonedTime)
  | age (age limit : Timedelta)
  | length (difference : Timedelta)
  | count (found required : ℤ)
  | depth (found : Decimal) (required : Number)
  | status (status : CheckStatus)

/-- Why a check failed or is not known. -/
structure Reason where
  code : ReasonCode
  field : String
  detail : Detail

/-- `status_from_reasons`. -/
def statusFromReasons (reasons : List Reason) : CheckStatus :=
  if reasons.any (·.code.status = .fail) then .fail
  else if reasons.any (·.code.status = .unknown) then .unknown
  else .pass

/-- The outcome of the checks of one capability of a subject. -/
structure CapabilityResult where
  capability : Capability
  subject : String
  status : CheckStatus
  reasons : List Reason
  timeBasis : TimeBasis
  receivedAt : Option Stamp
  sourceTime : Option Stamp
  consistent : if status = .notApplicable then reasons = [] else status = statusFromReasons reasons

theorem statusFromReasons_ne (reasons : List Reason) : statusFromReasons reasons ≠ .notApplicable := by
  unfold statusFromReasons
  split
  · exact nofun
  · split <;> exact nofun

/-- `_result`. -/
def result (capability : Capability) (subject : String) (reasons : List Reason)
    (timeBasis : TimeBasis) (receivedAt sourceTime : Option Stamp) : CapabilityResult where
  capability
  subject
  status := statusFromReasons reasons
  reasons
  timeBasis
  receivedAt
  sourceTime
  consistent := by rw [if_neg (statusFromReasons_ne reasons)]

/-- The result for a subject the capability is not about. -/
def notApplicable (capability : Capability) (subject : String) : CapabilityResult where
  capability
  subject
  status := .notApplicable
  reasons := []
  timeBasis := .none
  receivedAt := none
  sourceTime := none
  consistent := rfl

/-- `_missing`. -/
def missing (capability : Capability) (subject what : String) : CapabilityResult :=
  result capability subject [⟨.missingObservation, what, .text "not collected"⟩] .none none none

end CryptoRadar.Integrity
