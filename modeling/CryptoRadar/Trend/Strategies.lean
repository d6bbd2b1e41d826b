import CryptoRadar.Trend.Engine

/-!
# The ported trend rules

`domain/trend_strategies.py`: the signal arithmetic the rules and the paper trader share, and
the rules. A rule is a function of the history it is given. Every value a rule computes may
raise: a `StrategyError` where the history is too short or without volatility, and whatever
the arithmetic raises.
-/

set_option autoImplicit false

namespace CryptoRadar.Trend

open Checked PyFloat

/-- What computing a signal raises. -/
inductive SignalFailure where
  | strategy (text : String)
  | number (error : NumberError)
  | engine (failure : EngineFailure)
  | index
  deriving DecidableEq, Repr

/-- Arithmetic inside a signal. -/
def number {α : Type} : Except NumberError α → Except SignalFailure α :=
  Except.mapError SignalFailure.number

/-- An accessor of the history inside a signal. -/
def engine {α : Type} : Except EngineFailure α → Except SignalFailure α :=
  Except.mapError SignalFailure.engine

/-- The symbol of most registered rules. -/
def btcusdt : String := "BTCUSDT"

/-- `ENS_LOOKBACKS`. -/
def ensLookbacks : List ℕ := [20, 50, 100, 150, 200]

/-- `ENS_VOL_DAYS`. -/
def ensVolDays : ℕ := 30

/-- `TREND5_SMA`. -/
def trend5Sma : List ℕ := [100, 200]

/-- `TREND5_DONCHIAN`, each with its entry and exit channel. -/
def trend5Donchian : List (ℕ × ℕ) := [(20, 10), (50, 25), (100, 50)]

/-- `TREND5_VT_RETURNS`. -/
def trend5VtReturns : ℕ := 200

section Constants

variable {F : Type} [PyFloat F]

/-- `ENS_BAND`. -/
def ensBand : F := 0.2

/-- `ENS_VOL_TARGET`. -/
def ensVolTarget : F := 0.5

/-- `TREND5_BAND`. -/
def trend5Band : F := 0.15

/-- `TREND5_VT_BAND`. -/
def trend5VtBand : F := 0.10

/-- `TREND5_VT_TARGET`. -/
def trend5VtTarget : F := 0.30

/-- `BH_BAND`. -/
def bhBand : F := 0.01

/-- `ANNUALIZATION_DAYS`. -/
def annualizationDays : F := 365.0

end Constants

/-- Identity of a rule in the imported pre-registration registry. -/
structure RegisteredRule where
  name : String
  sha256 : String
  deriving DecidableEq, Repr

/-- The registration of `BuyAndHold`. -/
def bhBtc : RegisteredRule :=
  ⟨"bh_btc", "d9a2ebc28eef702a026e002242486fe8709119c4775f18f247171ed540e6e089"⟩

/-- The registration of `Ens`. -/
def ensBtc : RegisteredRule :=
  ⟨"ens_btc", "d56a80fd8c486fcbf960109229834423b9c4364ee54ca7016b68165fdba0a670"⟩

/-- The registration of `Ens` with a volatility target. -/
def ensVtBtc : RegisteredRule :=
  ⟨"ens_vt_btc", "094bb5b97af67f22d8c80d4413691af3396f9bd4ece603441a369a999af70126"⟩

/-- The registration of `BtcTrend5`. -/
def btcTrend5Rule : RegisteredRule :=
  ⟨"btc_trend5", "a96640fff254d088fe733ff0b01a7a3bb5a72158c3c8cf56ed4e933bf4e92253"⟩

/-- The registration of `BtcTrend5Vt`. -/
def btcTrend5VtRule : RegisteredRule :=
  ⟨"btc_trend5_vt", "28b1082d695b6662817360444e2f07569fa5a85daa187d51bc154c4ef848c412"⟩

/-! ## Signal arithmetic -/

section Votes

variable {F : Type} [PyFloat F]

/-- `_require`. -/
def requireCloses {α : Type} (closes : List α) (count : ℕ) (rule : String) :
    Except SignalFailure Unit :=
  ensure (count ≤ closes.length)
    (.strategy (rule ++ " needs " ++ toString count ++ " closes, got " ++ toString closes.length))

/-- The share of the votes that are for it. -/
def voteShare (votes : List Bool) : Except SignalFailure F :=
  number (divide (ofCount (votes.count true)) (ofCount votes.length))

/-- The last close is above the mean of the last `count` closes. -/
def aboveSma (closes : List F) (last : F) (count : ℕ) : Except SignalFailure Bool := do
  let mean ← number (divide (PyFloat.sum (closes.lastN count)) (ofCount count))
  return PyFloat.lt mean last

/-- Share of SMA lookbacks {20, 50, 100, 150, 200} with the last close above the SMA. -/
def ensFraction (closes : List F) : Except SignalFailure F := do
  requireCloses closes 200 "ENS"
  let last ← require .index closes.getLast?
  let votes ← ensLookbacks.mapM (aboveSma closes last)
  voteShare votes

/-- The scan of `donchian_long` over the `turns` days that are left, the latest first: `turns`
days stand after the first `start` closes. -/
def donchianScan (closes : List F) (entry exit start : ℕ) : ℕ → Except SignalFailure Bool
  | 0 => .ok false
  | turns + 1 => do
      let day := start + turns
      let close ← require .index closes[day]?
      let highest ← number (maximum ((closes.take day).drop (day - entry)))
      if PyFloat.lt highest close then return true
      let lowest ← number (minimum ((closes.take day).drop (day - exit)))
      if PyFloat.lt close lowest then return false
      donchianScan closes entry exit start turns

/-- Long after a close above the previous `entry` closes, flat after a close below the previous
`exit` closes; the most recent of the two events decides (flat if none). -/
def donchianLong (closes : List F) (entry exit : ℕ) : Except SignalFailure Bool :=
  donchianScan closes entry exit (max entry exit) (closes.length - max entry exit)

/-- btc_trend5: share of five long votes (SMA100, SMA200, Donchian 20/10, 50/25, 100/50). -/
def trendVotes (closes : List F) : Except SignalFailure F := do
  requireCloses closes 200 "btc_trend5"
  let last ← require .index closes.getLast?
  let averages ← trend5Sma.mapM (aboveSma closes last)
  let channels ← trend5Donchian.mapM fun (entry, exit) => donchianLong closes entry exit
  voteShare (averages ++ channels)

end Votes

section Volatility

variable {F : Type} [PyMath F]

/-- The logarithms of the daily returns. -/
def logReturns (closes : List F) : Except SignalFailure (List F) :=
  (closes.zip closes.tail).mapM fun (earlier, later) => do
    let ratio ← number (divide later earlier)
    number (PyMath.log ratio)

/-- Annualized sample volatility of the last `days` daily log returns. -/
def realizedVol (closes : List F) (days : ℕ) : Except SignalFailure F := do
  requireCloses closes (days + 1) "realized volatility"
  let returns ← logReturns (closes.lastN (days + 1))
  let mean ← number (divide (PyFloat.sum returns) (ofCount days))
  let squares ← returns.mapM fun value => number (PyMath.square (value - mean))
  let variance ← number (divide (PyFloat.sum squares) (ofCount (days - 1)))
  number (PyMath.sqrt (variance * annualizationDays))

/-- ENS, or ENS_VT = ENS x min(1, vol_target / 30-day realized vol) when there is a target. -/
def ensTarget (closes : List F) (volTarget : Option F) : Except SignalFailure F := do
  let target ← ensFraction closes
  match volTarget with
  | none => return target
  | some volTarget =>
      let vol ← realizedVol closes ensVolDays
      if PyFloat.le vol 0.0 then throw (.strategy "ENS_VT: zero realized volatility")
      let scale ← number (divide volTarget vol)
      return target * smaller 1.0 scale

/-- The open of the most recent Monday (UTC) on or before `today`. -/
def mondayMs (today : Date) : Except SignalFailure ℤ := do
  let monday ← require (.number .overflow) (today.plusDays? (-(today.weekday : ℤ)))
  return dayOpenMs monday

/-- btc_trend5_vt overlay: min(1, 0.30 / sigma), sigma the EWMA volatility of the closes before
this week's Monday. -/
def weeklyVolScale (bars : List (Bar F)) (today : Date) : Except SignalFailure F := do
  let monday ← mondayMs today
  let closes := (bars.filter fun bar => bar.openTimeMs < monday).map Bar.close
  let closes := closes.lastN (trend5VtReturns + 1)
  requireCloses closes 2 "btc_trend5_vt"
  let returns ← logReturns closes
  let alpha : F ← number (divide 2.0 21.0)
  let first ← require .index returns.head?
  let start ← number (PyMath.square first)
  let variance := returns.tail.foldl
    (fun variance value => (1.0 - alpha) * variance + alpha * value * value) start
  let sigma ← number (PyMath.sqrt (variance * annualizationDays))
  if PyFloat.lt 0.0 sigma then
    let scale ← number (divide trend5VtTarget sigma)
    return smaller 1.0 scale
  else return 1.0

end Volatility

/-! ## Rules -/

/-- The registered strategies. -/
inductive Strategy (F : Type) where
  | ens (asset : String) (volTarget : Option F)
  | btcTrend5
  | btcTrend5Vt
  | buyAndHold (asset : String)

namespace Strategy

variable {F : Type}

/-- A target within the band of the weight held is not traded. -/
def band [PyFloat F] : Strategy F → F
  | .ens _ _ => ensBand
  | .btcTrend5 => trend5Band
  | .btcTrend5Vt => trend5VtBand
  | .buyAndHold _ => bhBand

/-- The registered rule of a strategy, if its parameters are those registered. -/
def registration [PyFloat F] : Strategy F → Option RegisteredRule
  | .ens asset volTarget =>
      if asset ≠ btcusdt then none
      else
        match volTarget with
        | none => some ensBtc
        | some target => if PyFloat.eq target ensVolTarget then some ensVtBtc else none
  | .btcTrend5 => some btcTrend5Rule
  | .btcTrend5Vt => some btcTrend5VtRule
  | .buyAndHold asset => if asset = btcusdt then some bhBtc else none

/-- The weight of the rule's one instrument. -/
def weight [PyMath F] (history : History F) : Strategy F → Except SignalFailure F
  | .ens asset volTarget => do
      let closes ← engine (history.closes asset (some 200))
      ensTarget closes volTarget
  | .btcTrend5 => do
      let closes ← engine (history.closes btcusdt none)
      trendVotes closes
  | .btcTrend5Vt => do
      let bars ← engine (history.bars btcusdt (some ((trend5VtReturns : ℤ) + 8)))
      let scale ← weeklyVolScale bars history.today
      let closes ← engine (history.closes btcusdt none)
      let votes ← trendVotes closes
      return votes * scale
  | .buyAndHold _ => .ok 1.0

end Strategy

end CryptoRadar.Trend
