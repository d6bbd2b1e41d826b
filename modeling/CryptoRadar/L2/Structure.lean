import CryptoRadar.Lib.Checked
import CryptoRadar.Lib.Moment
import CryptoRadar.Lib.Number

/-!
# Bars of five minutes and their true range

`structure.py` and the part of `compute_l2_features` that rests on the average true range: which bars are
closed, the window without a missing bar, the Wilder average of the true range, the bars of an hour, the
returns that are measured in that average, and the volatility of a day, which can raise. Nothing after it
can: every other division is by a number found above 0. A bar carries the time that its text says, in UTC,
and `as_of` is in UTC too; bars are ascending.
-/

set_option autoImplicit false

namespace CryptoRadar.L2

open Checked

/-! ## Configuration -/

/-- `OHLC_INTERVAL_MINUTES`. -/
def ohlcIntervalMinutes : ℕ := 5

/-- `ATR_PERIOD`. -/
def atrPeriod : ℕ := 14

/-- `ATR_1H_RESAMPLE_BARS`. -/
def atr1hResampleBars : ℕ := 12

/-- `L2_MIN_BARS`. -/
def l2MinBars : ℕ := atrPeriod + 1

/-- `STRUCTURE_24H_BARS`. -/
def structure24hBars : ℕ := 288

/-! ## Bars -/

/-- A candle. -/
structure Bar (F : Type) where
  barTime : Moment
  open_ : F
  high : F
  low : F
  close : F
  vwap : F
  volume : F
  trades : ℤ

/-- What the functions raise: an arithmetic error, an `OverflowError` of the calendar, or the
`AttributeError` of `statistics.pstdev`, which asks an infinite sum for its numerator. -/
inductive L2Failure where
  | number (error : NumberError)
  | overflow
  | attribute
  deriving DecidableEq, Repr

/-- `timedelta(minutes=count)` in microseconds. -/
def minutes (count : ℤ) : ℤ := Moment.seconds (60 * count)

/-- `datetime.minute`, `datetime.second` and `datetime.microsecond` of a UTC time. -/
def minuteOf (moment : Moment) : ℤ := moment.micros / Moment.seconds 60 % 60

/-- The second of a time. -/
def secondOf (moment : Moment) : ℤ := moment.micros / Moment.seconds 1 % 60

/-- The microsecond of a time. -/
def microsecondOf (moment : Moment) : ℤ := moment.micros % Moment.seconds 1

section Functions

variable {F : Type}

/-- The bars whose interval is over at `asOf`. -/
def closedBarsAsOf (bars : List (Bar F)) (asOf : Moment) (intervalMinutes : ℕ) :
    Except L2Failure (List (Bar F)) :=
  bars.filterM fun bar => do
    let close ← require .overflow (bar.barTime.plus? (minutes intervalMinutes))
    return decide (close ≤ asOf)

/-- Every bar opens one interval after the one before it. -/
def isContiguous (window : List (Bar F)) (intervalMinutes : ℤ) : Bool :=
  (window.zip window.tail).all fun (previous, current) =>
    current.barTime.micros - previous.barTime.micros = minutes intervalMinutes

/-- The last `count` bars, when none is missing. -/
def contiguousTail (bars : List (Bar F)) (count : ℕ) (intervalMinutes : ℤ) : List (Bar F) :=
  if bars.length < count then []
  else
    let window := bars.lastN count
    if isContiguous window intervalMinutes then window else []

variable [PyFloat F]

open PyFloat

/-- `true_range`. -/
def trueRange (bar : Bar F) (prevClose : F) : F :=
  larger (larger (bar.high - bar.low) (abs (bar.high - prevClose))) (abs (bar.low - prevClose))

/-- `true_range_series`. -/
def trueRangeSeries (bars : List (Bar F)) : List F :=
  (bars.zip bars.tail).map fun (previous, bar) => trueRange bar previous.close

/-- One turn of Wilder's smoothing. -/
def smoothed (period : ℕ) (atr trueRange : F) : Except NumberError F :=
  divide (atr * ofCount (period - 1) + trueRange) (ofCount period)

/-- Wilder's average of the true range; none of too few bars. -/
def wilderAtr (bars : List (Bar F)) (period : ℕ) : Except NumberError (Option F) :=
  let ranges := trueRangeSeries bars
  if ranges.length < period then .ok none
  else do
    let first ← divide (sum (ranges.take period)) (ofCount period)
    let atr ← (ranges.drop period).foldlM (smoothed period) first
    return some atr

/-- The start of a group: on the hour, for twelve bars of five minutes. -/
def isAligned (groupSize : ℕ) (moment : Moment) : Bool :=
  minuteOf moment % (ohlcIntervalMinutes * groupSize : ℕ) = 0 && secondOf moment = 0 &&
    microsecondOf moment = 0

/-- One bar for a group of bars. -/
def mergeBars (first : Bar F) (rest : List (Bar F)) : Except NumberError (Bar F) := do
  let group := first :: rest
  let high ← maximum (group.map Bar.high)
  let low ← minimum (group.map Bar.low)
  let volume := sum (group.map Bar.volume)
  let vwap ← divide (sum (group.map fun bar => bar.vwap * bar.volume)) (larger volume 1e-12)
  return ⟨first.barTime, first.open_, high, low, (rest.getLastD first).close, vwap, volume,
    (group.map Bar.trades).sum⟩

/-- The loop of `resample_bars`, from one bar on; the turns bound its length. -/
def resampleFrom (groupSize : ℕ) : ℕ → List (Bar F) → Except NumberError (List (Bar F))
  | 0, _ => .ok []
  | _, [] => .ok []
  | turns + 1, first :: rest =>
      let group := (first :: rest).take groupSize
      if (first :: rest).length < groupSize then .ok []
      else if isAligned groupSize first.barTime && isContiguous group ohlcIntervalMinutes then do
        let merged ← mergeBars first (rest.take (groupSize - 1))
        let others ← resampleFrom groupSize turns (rest.drop (groupSize - 1))
        return merged :: others
      else resampleFrom groupSize turns rest

/-- `resample_bars`. -/
def resampleBars (bars : List (Bar F)) (groupSize : ℕ) : Except NumberError (List (Bar F)) :=
  resampleFrom groupSize bars.length bars

/-- The returns from close to close, in percent; one from no positive close is left out. -/
def closeReturns (closes : List F) : Except NumberError (List F) :=
  ((closes.zip closes.tail).filter fun (previous, _) => lt (ofCount 0) previous).mapM
    fun (previous, current) => do
      let share ← divide current previous
      return (share - ofCount 1) * ofCount 100

/-- `realized_volatility`, as far as it raises: the deviation of finite returns is exact but for its root. -/
def realizedVolatility (bars : List (Bar F)) (window : ℕ) : Except L2Failure Unit := do
  let closes := (bars.map Bar.close).lastN (window + 1)
  if closes.length < 3 then return ()
  else do
    let returns ← (closeReturns closes).mapError .number
    if returns.length < 2 then return () else ensure (returns.all isFinite) .attribute

/-! ## Features -/

/-- `_atr_as_pct`. -/
def atrAsPct (atr : Option F) (price : F) : Except NumberError (Option F) :=
  match atr with
  | none => .ok none
  | some atr =>
      if le price (ofCount 0) then .ok none
      else do
        let share ← divide atr price
        return some (share * ofCount 100)

/-- `normalize_return_by_atr`. -/
def normalizeReturnByAtr (returnPct atrPct : Option F) : Except NumberError (Option F) :=
  match returnPct, atrPct with
  | some returnPct, some atrPct =>
      if le atrPct (ofCount 0) then .ok none
      else do
        let normalized ← divide returnPct atrPct
        return some normalized
  | _, _ => .ok none

/-- The features that rest on the average true range. -/
structure L2Features (F : Type) where
  l2Warmup : Bool := true
  ohlcBarCount : ℕ
  atr5m : Option F := none
  atr1h : Option F := none
  return5mAtr : Option F := none
  return15mAtr : Option F := none
  return1hAtr : Option F := none
  return4hAtr : Option F := none
  flags : List String

/-- The returns that the ticker gives, in percent. -/
structure L1Returns (F : Type) where
  return5mPct : Option F
  return15mPct : Option F
  return1hPct : Option F
  return4hPct : Option F

/-- The average of the last bars of a window; none when a bar is missing. -/
def tailAtr (bars : List (Bar F)) (intervalMinutes : ℕ) : Except NumberError (Option F) :=
  let tail := contiguousTail bars (atrPeriod + 1) intervalMinutes
  if tail.isEmpty then .ok none else wilderAtr tail atrPeriod

/-- The sums of `compute_l2_features` on the closed bars. -/
def atrFeatures (closedBars : List (Bar F)) (flags : List String) (currentLast : F) (l1 : L1Returns F) :
    Except NumberError (L2Features F) := do
  let atr5m ← tailAtr closedBars ohlcIntervalMinutes
  let hourlyBars ← resampleBars closedBars atr1hResampleBars
  let atr1h ← tailAtr hourlyBars 60
  let atr5mPct ← atrAsPct atr5m currentLast
  let atr1hPct ← atrAsPct atr1h currentLast
  let return5mAtr ← normalizeReturnByAtr l1.return5mPct atr5mPct
  let return15mAtr ← normalizeReturnByAtr l1.return15mPct atr5mPct
  let return1hAtr ← normalizeReturnByAtr l1.return1hPct atr1hPct
  let return4hAtr ← normalizeReturnByAtr l1.return4hPct atr1hPct
  let missing (value : Option F) (flag : String) : List String := if value.isNone then [flag] else []
  let unmeasured (given value : Option F) (flag : String) : List String :=
    if given.isSome && value.isNone then [flag] else []
  return {
    l2Warmup := false
    ohlcBarCount := closedBars.length
    atr5m, atr1h, return5mAtr, return15mAtr, return1hAtr, return4hAtr
    flags := flags ++ missing atr5m "atr_5m_unavailable_incomplete_closed_coverage" ++
      missing atr1h "atr_1h_unavailable_incomplete_closed_coverage" ++
      unmeasured l1.return1hPct return1hAtr "return_1h_atr_unavailable" ++
      unmeasured l1.return4hPct return4hAtr "return_4h_atr_unavailable" }

/-- `compute_l2_features`, without the features that rest on no average true range. -/
def computeL2Features (bars : List (Bar F)) (currentLast : F) (l1 : L1Returns F) (asOf : Moment) :
    Except L2Failure (L2Features F) := do
  let closedBars ← closedBarsAsOf bars asOf ohlcIntervalMinutes
  let flags := if closedBars.length ≠ bars.length then ["in_progress_ohlc_bars_excluded"] else []
  if closedBars.length < l2MinBars then
    return { ohlcBarCount := closedBars.length, flags := flags ++ ["l2_warmup"] }
  else do
    let features ← (atrFeatures closedBars flags currentLast l1).mapError .number
    let bars24h := contiguousTail closedBars structure24hBars ohlcIntervalMinutes
    if bars24h.isEmpty then return features
    else do
      realizedVolatility bars24h bars24h.length
      return features

end Functions

end CryptoRadar.L2
