import CryptoRadar.Trend.Ledger

/-!
# Missing candles

`domain/trend_paper.py`: why a due day cannot be booked. A `Gap` is one candle a day needs that
the market does not hold; a `DayGap` is the first reason a day cannot be booked with its gaps,
of which there is at least one. `dayGap` looks for a fill candle first, then for the closes of
the day's signal, then for a price in EUR. `eurFallbacks` are the EUR pairs that a day would
price through EURUSDT.

A set of gaps is kept as the list of its members in the order of their days and symbols
(`insertGap`).
-/

set_option autoImplicit false

namespace CryptoRadar.Trend

open Checked

/-- One candle a due day needs that the market data do not hold. -/
structure Gap where
  symbol : String
  day : Date
  deriving DecidableEq

/-- Why a due day cannot be booked: the first blocking reason and its missing candles. -/
structure DayGap where
  day : Date
  reason : SkipReason
  gaps : List Gap
  blocking : gaps ≠ []

namespace DayGap

/-- The missing symbols, each once, in order. -/
def symbols (found : DayGap) : List PyStr :=
  (found.gaps.map fun gap => pyStr gap.symbol).dedup.mergeSort

/-- The earliest missing candle. -/
def gapDay (found : DayGap) : Date :=
  (found.gaps.map Gap.day).min (by simpa using found.blocking)

end DayGap

/-- `(gap.day, gap.symbol)` is before that of the other gap. -/
def Gap.before (gap other : Gap) : Bool :=
  gap.day < other.day || (gap.day = other.day && gap.symbol < other.symbol)

/-- The sorted set of gaps with one more. -/
def insertGap (gap : Gap) : List Gap → List Gap
  | [] => [gap]
  | other :: rest =>
      if gap.before other then gap :: other :: rest
      else if gap = other then other :: rest
      else other :: insertGap gap rest

/-- `signal.update(gaps)`. -/
def insertGaps (found gaps : List Gap) : List Gap :=
  gaps.foldl (fun found gap => insertGap gap found) found

/-- The first items, without those that stand earlier: `dict.fromkeys`. -/
def firstOnly (gaps : List Gap) : List Gap :=
  gaps.foldl (fun kept gap => if gap ∈ kept then kept else kept ++ [gap]) []

/-- 2017-08-17. -/
def btcusdtListingDay : Date := ⟨736558, by decide, by decide⟩

section Market

variable {F : Type} [PyFloat F]

def DailySeries.lastOpenDay (series : DailySeries F) : Option Date :=
  (series.opens.filterMap Prod.fst).max?

/-- `_has_later`. -/
def hasLater (market : Market F) (symbol : String) (day : Date) : Except PaperFailure Bool := do
  let series ← seriesOf market symbol
  return series.lastOpenDay.any fun last => day < last

/-- The series has no open that day. -/
def lacksOpen (market : Market F) (day : Date) (symbol : String) : Except PaperFailure Bool := do
  let series ← seriesOf market symbol
  return (series.openOn day).isNone

/-- The days of the window that ends with `previous`, the latest first. -/
def windowBack (previous : Date) : Except PaperFailure (List Date) :=
  (List.range ensWindow).mapM fun (back : ℕ) => plusDays previous (-back)

/-- The days of the symbol's ENS window without a close. -/
def windowGaps (market : Market F) (previous : Date) (symbol : String) :
    Except PaperFailure (List Gap) := do
  let series ← seriesOf market symbol
  let window ← windowBack previous
  return (window.filter fun day => (series.closeOn day).isNone).map (Gap.mk symbol)

/-- The days that two neighbouring bars leave out. -/
def daysBetween (pair : Bar F × Bar F) : Except PaperFailure (List Gap) := do
  let missing := (pair.2.openTimeMs - pair.1.openTimeMs) / msPerDay - 1
  let opened ← require (.engine .overflow) (utcDay? pair.1.openTimeMs)
  (List.range missing.toNat).mapM fun (count : ℕ) => do
    let day ← plusDays opened (count + 1)
    return ⟨btcusdt, day⟩

def startsAtListing (bars : List (Bar F)) : Bool :=
  bars.head?.any fun bar => utcDay? bar.openTimeMs = some btcusdtListingDay

/-- `signal_gaps`: the USDT closes the signals of the day need that the market does not hold. -/
def signalGaps (market : Market F) (day : Date) : Except PaperFailure (List Gap) := do
  let previous ← plusDays day (-1)
  let windows ← (Asset.all.map Asset.usdtSymbol).mapM (windowGaps market previous)
  let series ← seriesOf market btcusdt
  let bars := series.closedBefore day
  ensure (startsAtListing bars) (.paper .incompleteHistory
    ("BTCUSDT history must start at " ++ btcusdtListingDay.isoformat))
  let history ← (bars.zip bars.tail).mapM daysBetween
  return (windows ++ history).foldl insertGaps []

/-- The gaps of an asset that has neither its EUR pair nor EURUSDT on the day. -/
def eurGaps (market : Market F) (day : Date) (asset : Asset) : Except PaperFailure (List Gap) := do
  if ← lacksOpen market day asset.eurSymbol then
    if ← lacksOpen market day eurusdt then
      return [⟨asset.eurSymbol, day⟩, ⟨eurusdt, day⟩]
  return []

/-- A day with gaps is skipped for a reason. -/
def blocked (day : Date) (reason : SkipReason) (gaps : List Gap) : Option DayGap :=
  if blocking : gaps ≠ [] then some ⟨day, reason, gaps, blocking⟩ else none

/-- `day_gap`: the first reason the day cannot be booked (fill, then signal, then EUR price), or
none when every candle it needs is there. -/
def dayGap (market : Market F) (day : Date) : Except PaperFailure (Option DayGap) := do
  let fill ← select (lacksOpen market day) (Asset.all.map Asset.usdtSymbol)
  match blocked day .noFillCandle (fill.map fun symbol => ⟨symbol, day⟩) with
  | some found => return some found
  | none =>
      let signal ← signalGaps market day
      match blocked day .noSignalClose signal with
      | some found => return some found
      | none =>
          let eur ← Asset.all.mapM (eurGaps market day)
          return blocked day .noEurPrice (firstOnly eur.flatten)

/-- `eur_fallbacks`: the EUR pairs without an open on the day while EURUSDT has one. -/
def eurFallbacks (market : Market F) (day : Date) : Except PaperFailure (List Gap) := do
  if ← lacksOpen market day eurusdt then return []
  let missing ← select (lacksOpen market day) (Asset.all.map Asset.eurSymbol)
  return missing.map fun symbol => ⟨symbol, day⟩

end Market

end CryptoRadar.Trend
