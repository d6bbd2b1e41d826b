import CryptoRadar.Lib.Json
import CryptoRadar.Trend.Market

/-!
# The signals and the records of one paper day

`domain/trend_paper.py`: the signals of a day from the closes before it (`ensSignal`,
`trend5Signal`), the price of a fill (`fillPrice`), the accounting of one sleeve
(`stepFraction`, `stepUnits`) and the 24 records of a day with the new states of the books
(`bookDay`). A missing price or signal raises before anything is returned.
-/

set_option autoImplicit false

namespace CryptoRadar.Trend

open Checked PyFloat

/-! ## Signals -/

section Signals

variable {F : Type} [PyMath F]

/-- What the rules see for one asset on one day: the previous USDT close and the derived
values. -/
structure AssetSignal (F : Type) where
  asset : Asset
  symbol : String
  closeDate : Date
  close : F
  values : Dict String F

/-- The signals of one day. -/
structure DaySignals (F : Type) where
  day : Date
  ens : Dict Asset (AssetSignal F)
  trend5 : AssetSignal F

/-- `_finite_weight`. -/
def finiteWeight (value : F) (what : String) : Except PaperFailure F :=
  if PyFloat.isFinite value && PyFloat.le 0.0 value && PyFloat.le value 1.0 then .ok value
  else .error (.paper .invalidSignal (what ++ " = " ++ PyMath.repr value))

/-- The text of an arithmetic error that is caught. -/
def NumberError.text : NumberError → String
  | .zeroDivision => "float division by zero"
  | .domain => "math domain error"
  | .overflow => "(34, 'Numerical result out of range')"

/-- `except (StrategyError, ValueError, ZeroDivisionError)`: an overflow, a missing key and an
index out of range pass. -/
def caught {α : Type} (where_ : String) : Except SignalFailure α → Except PaperFailure α
  | .ok value => .ok value
  | .error (.strategy text) => .error (.paper .invalidSignal (where_ ++ ": " ++ text))
  | .error (.number .overflow) => .error (.number .overflow)
  | .error (.number error) => .error (.paper .invalidSignal (where_ ++ ": " ++ NumberError.text error))
  | .error (.engine (.engine code detail)) =>
      .error (.paper .invalidSignal (where_ ++ ": " ++ code.text ++ ": " ++ detail))
  | .error (.engine failure) => .error (.engine failure)
  | .error .index => .error .index

/-- The closes an ensemble signal is made from. -/
def ensWindow : ℕ := 201

/-- `day + timedelta(days=count)`. -/
def plusDays (day : Date) (count : ℤ) : Except PaperFailure Date :=
  require (.engine .overflow) (day.plusDays? count)

/-- The close of a day, or `MISSING_CANDLE` for the signal of `day`. -/
def closeFor (series : DailySeries F) (symbol : String) (day onDay : Date) : Except PaperFailure F :=
  require (.paper .missingCandle (symbol ++ ": no closed candle on " ++ onDay.isoformat ++
    " (needed for " ++ day.isoformat ++ ")")) (series.closeOn onDay)

/-- The days of the window that ends with `previous`, the earliest first. -/
def windowDays (previous : Date) : Except PaperFailure (List Date) :=
  ((List.range ensWindow).reverse).mapM fun (back : ℕ) => plusDays previous (-back)

/-- ENS and ENS_VT for `day`, decided on the close of the day before (201 consecutive closes). -/
def ensSignal (market : Market F) (asset : Asset) (day : Date) :
    Except PaperFailure (AssetSignal F) := do
  let symbol := asset.usdtSymbol
  let series ← seriesOf market symbol
  let previous ← plusDays day (-1)
  let window ← windowDays previous
  let closes ← window.mapM (closeFor series symbol day)
  let where_ := symbol ++ " " ++ day.isoformat
  let ens ← caught where_ (ensTarget closes none)
  let ensVt ← caught where_ (ensTarget closes (some ensVolTarget))
  let vol ← caught where_ (realizedVol closes ensVolDays)
  let ens ← finiteWeight ens "ENS"
  let ensVt ← finiteWeight ensVt "ENS_VT"
  let last ← require .index closes.getLast?
  return ⟨asset, symbol, previous, last, [("ENS", ens), ("ENS_VT", ensVt), ("vol30", vol)]⟩

/-- The history of the BTCUSDT bars that opened before the day's open. -/
def trend5History (bars : List (Bar F)) (day : Date) : Except EngineFailure (History F) := do
  let panel ← Panel.build [(btcusdt, bars)] [btcusdt] (some (dayOpenMs day))
  History.build panel (panel.times.length - 1)

/-- btc_trend5 and btc_trend5_vt for `day` from the BTCUSDT bars that opened before its open. -/
def trend5Signal (market : Market F) (day : Date) : Except PaperFailure (AssetSignal F) := do
  let series ← seriesOf market btcusdt
  let previous ← plusDays day (-1)
  let close ← closeFor series btcusdt day previous
  let history ← (trend5History (series.closedBefore day) day).mapError PaperFailure.engine
  let where_ := btcusdt ++ " " ++ day.isoformat
  let trend5 ← caught where_ (Strategy.btcTrend5.weight history)
  let trend5Vt ← caught where_ (Strategy.btcTrend5Vt.weight history)
  let closes ← caught where_ (engine (history.closes btcusdt none))
  let votes ← caught where_ (trendVotes closes)
  let bars ← caught where_ (engine (history.bars btcusdt (some 208)))
  let scale ← caught where_ (weeklyVolScale bars history.today)
  let trend5 ← finiteWeight trend5 "BTC_TREND5"
  let trend5Vt ← finiteWeight trend5Vt "BTC_TREND5_VT"
  return ⟨.btc, btcusdt, previous, close, [("votes", votes), ("vol_scale", scale),
    ("BTC_TREND5", trend5), ("BTC_TREND5_VT", trend5Vt)]⟩

/-- `day_signals`. -/
def daySignals (market : Market F) (day : Date) : Except PaperFailure (DaySignals F) := do
  let ens ← Asset.all.mapM fun asset => do
    let signal ← ensSignal market asset day
    return (asset, signal)
  let trend5 ← trend5Signal market day
  return ⟨day, ens, trend5⟩

end Signals

section Steps

variable {F : Type} [PyFloat F]

/-- `_signal_for`: the signal a book of the rule follows. -/
def signalFor (rule : Rule) (signals : DaySignals F) (asset : Asset) :
    Except PaperFailure (AssetSignal F) :=
  match rule.family with
  | .ens => require .key (signals.ens.get? asset)
  | .trend5 => .ok signals.trend5

/-- `_target`; a buy-and-hold rule has the target 1. -/
def targetOf (rule : Rule) (signals : DaySignals F) (asset : Asset) : Except PaperFailure F :=
  match rule with
  | .bh5050 => .ok 1.0
  | .bhBtc => .ok 1.0
  | _ => do
      let signal ← signalFor rule signals asset
      require .key (signal.values.get? rule.text)

/-! ## Prices -/

/-- The day's open in the book's quote currency and where it came from. -/
def fillPrice (market : Market F) (asset : Asset) (quote : Quote) (day : Date) :
    Except PaperFailure (F × String) := do
  let usdt ← seriesOf market asset.usdtSymbol
  let usdtOpen ← require
    (.paper .missingCandle (asset.usdtSymbol ++ ": no candle on " ++ day.isoformat)) (usdt.openOn day)
  match quote with
  | .usdt => return (usdtOpen, asset.usdtSymbol ++ " open")
  | _ =>
      let eur ← seriesOf market asset.eurSymbol
      match eur.openOn day with
      | some eurOpen => return (eurOpen, asset.eurSymbol ++ " open")
      | none =>
          let rate ← seriesOf market eurusdt
          match rate.openOn day with
          | some fx =>
              let price ← uncaught (divide usdtOpen fx)
              return (price, asset.usdtSymbol ++ " open / " ++ eurusdt ++ " open")
          | none =>
              throw (.paper .missingCandle
                ("no " ++ asset.eurSymbol ++ " or " ++ eurusdt ++ " candle on " ++ day.isoformat))

/-! ## Accounting -/

/-- `held` is the fraction set at the last rebalance (ENS) or the weight after trading
(TREND5). -/
structure Sleeve (F : Type) where
  cash : F
  units : F
  held : F
  deriving DecidableEq

/-- The sleeve of each asset of a book. -/
abbrev BookState (F : Type) := Dict String (Sleeve F)

/-- `CAPITAL`. -/
def capital : F := 7000.0

/-- `SLIPPAGE_BPS`. -/
def slippageBps : F := 0.0

/-- A book starts with its capital in equal shares. -/
def initialState (book : Book) : Except PaperFailure (BookState F) := do
  let share ← uncaught (divide capital (ofCount book.rule.assets.length))
  return book.rule.assets.map fun asset => (asset.text, ⟨share, 0.0, 0.0⟩)

/-- What a day makes of a sleeve. -/
structure Fill (F : Type) where
  sleeve : Sleeve F
  target : F
  heldBefore : F
  traded : Bool
  notional : F
  fee : F
  equityBefore : F
  equityAfter : F

/-- The target of a sleeve of the ENS family and whether it trades. -/
def fractionDecision (held target : F) (buyAndHold firstDay : Bool) : F × Bool :=
  if buyAndHold then
    (if firstDay || PyFloat.lt 0.0 held then 1.0 else 0.0, firstDay && PyFloat.eq held 0.0)
  else
    (target, PyFloat.le ensBand (PyFloat.abs (target - held)) ||
      (PyFloat.eq target 0.0 && PyFloat.lt 0.0 held))

/-- One day of one sleeve of the ENS family: the band is on the last rebalanced fraction. -/
def stepFraction (sleeve : Sleeve F) (price target fee : F) (buyAndHold firstDay : Bool) :
    Except NumberError (Fill F) := do
  let equity := sleeve.cash + sleeve.units * price
  let (target, trade) := fractionDecision sleeve.held target buyAndHold firstDay
  if trade then
    let wanted ← divide (target * equity) price
    let notional := PyFloat.abs (wanted - sleeve.units) * price
    let feePaid := notional * fee
    let cash := sleeve.cash - ((wanted - sleeve.units) * price + feePaid)
    return ⟨⟨cash, wanted, target⟩, target, sleeve.held, true, notional, feePaid, equity,
      cash + wanted * price⟩
  else
    return ⟨sleeve, target, sleeve.held, false, 0.0, 0.0, equity, equity⟩

/-- The part of a buy that the cash pays for with its fee. -/
def scaledBuy (cash price cost quantity : F) : Except NumberError F := do
  if PyFloat.lt 0.0 quantity then
    let need := 0.0 + quantity * price * (1.0 + cost)
    let available := larger cash 0.0
    if PyFloat.lt available need then
      let scale ← divide available need
      return quantity * smaller 1.0 scale
    else return quantity * 1.0
  else return quantity

/-- The weight of `units` in `equity`; 0 without equity. -/
def weightOf (units price equity : F) : Except NumberError F :=
  if PyFloat.lt 0.0 equity then divide (units * price) equity else .ok 0.0

/-- The quantity a sleeve of the TREND5 family trades, 0 inside the band. -/
def unitsTraded (sleeve : Sleeve F) (price target band cost equity current : F) :
    Except NumberError (Option F) := do
  let holdsOrWants := !PyFloat.eq sleeve.units 0.0 || !PyFloat.eq target 0.0
  if PyFloat.lt 0.0 equity && holdsOrWants then
    let outside := PyFloat.le band (PyFloat.abs (target - current))
    if outside || (PyFloat.eq target 0.0 && !PyFloat.eq current 0.0) then
      let wanted ← divide (target * equity) price
      let quantity ← scaledBuy sleeve.cash price cost (wanted - sleeve.units)
      return if PyFloat.eq quantity 0.0 then none else some quantity
    else return none
  else return none

/-- The engine's day for one spot instrument: drifted-weight band, buys scaled so fees never
borrow. -/
def stepUnits (sleeve : Sleeve F) (price target band cost : F) : Except NumberError (Fill F) := do
  let equity := sleeve.cash + sleeve.units * price
  let current ← weightOf sleeve.units price equity
  match ← unitsTraded sleeve price target band cost equity current with
  | none =>
      let held ← weightOf sleeve.units price equity
      return ⟨⟨sleeve.cash, sleeve.units, held⟩, target, current, false, 0.0, 0.0, equity, equity⟩
  | some quantity =>
      let tradeNotional := quantity * price
      let feePaid := PyFloat.abs tradeNotional * cost
      let cash := sleeve.cash - (tradeNotional + feePaid)
      let units := sleeve.units + quantity
      let equityAfter := cash + units * price
      let held ← weightOf units price equityAfter
      return ⟨⟨cash, units, held⟩, target, current, true, PyFloat.abs tradeNotional, feePaid,
        equity, equityAfter⟩

/-- One day of one sleeve, by the family of its book's rule. -/
def stepSleeve (book : Book) (strategy : Strategy F) (sleeve : Sleeve F) (price target : F)
    (firstDay : Bool) : Except NumberError (Fill F) :=
  match book.rule.family with
  | .ens => stepFraction sleeve price target book.fee.rate (book.rule = .bh5050) firstDay
  | .trend5 => do
      let slippage ← divide slippageBps 10000.0
      stepUnits sleeve price target strategy.band (book.fee.rate + slippage)

/-! ## Records -/

/-- A record of the ledger. -/
abbrev Record (F : Type) := Dict PyStr (Json F)

/-- A text in a record. -/
def text (value : String) : Json F := .str (pyStr value)

/-- A text in a record that may be missing. -/
def optionalText : Option String → Json F
  | none => .null
  | some value => text value

/-- What a day gives every book. -/
structure DayInputs (F : Type) where
  day : Date
  ts : PyStr
  firstDay : Bool
  signals : DaySignals F
  prices : Dict (Asset × Quote) (F × String)

/-- The record of an asset in a book. -/
def assetRecord (asset : Asset) (strategy : Strategy F) (signal : AssetSignal F) (openUsdt price : F)
    (source : String) (fill : Fill F) : Json F :=
  .object [(pyStr "symbol", text asset.usdtSymbol),
    (pyStr "registered_name", optionalText (strategy.registration.map RegisteredRule.name)),
    (pyStr "registered_sha256", optionalText (strategy.registration.map RegisteredRule.sha256)),
    (pyStr "signal_close_date", text signal.closeDate.isoformat),
    (pyStr "signal_close_usdt", .float signal.close),
    (pyStr "signal", .object (signal.values.map fun item => (pyStr item.1, .float item.2))),
    (pyStr "open_usdt", .float openUsdt), (pyStr "fill_price", .float price),
    (pyStr "fill_source", text source), (pyStr "target", .float fill.target),
    (pyStr "held_before", .float fill.heldBefore), (pyStr "held_after", .float fill.sleeve.held),
    (pyStr "traded", .bool fill.traded), (pyStr "traded_notional", .float fill.notional),
    (pyStr "fee", .float fill.fee), (pyStr "cash_after", .float fill.sleeve.cash),
    (pyStr "units_after", .float fill.sleeve.units), (pyStr "equity_after", .float fill.equityAfter)]

/-- The day of a sleeve of a book. -/
def sleeveDay (inputs : DayInputs F) (book : Book) (state : BookState F) (asset : Asset)
    (strategy : Strategy F) : Except PaperFailure (Json F × Fill F) := do
  let (price, source) ← require .key (inputs.prices.get? (asset, book.quote))
  let target ← targetOf book.rule inputs.signals asset
  let sleeve ← require .key (state.get? asset.text)
  let fill ← uncaught (stepSleeve book strategy sleeve price target inputs.firstDay)
  let signal ← signalFor book.rule inputs.signals asset
  let (openUsdt, _) ← require .key (inputs.prices.get? (asset, .usdt))
  return (assetRecord asset strategy signal openUsdt price source fill, fill)

/-- What the sleeves of a book add up to so far. -/
structure BookTotals (F : Type) where
  assets : Dict PyStr (Json F)
  sleeves : BookState F
  equity : F
  equityBefore : F
  cash : F

/-- One more sleeve of a book. -/
def addSleeve (inputs : DayInputs F) (book : Book) (state : BookState F) (totals : BookTotals F)
    (sleeve : Asset × Strategy F) : Except PaperFailure (BookTotals F) := do
  let (record, fill) ← sleeveDay inputs book state sleeve.1 sleeve.2
  return ⟨totals.assets ++ [(pyStr sleeve.1.text, record)],
    totals.sleeves ++ [(sleeve.1.text, fill.sleeve)], totals.equity + fill.equityAfter,
    totals.equityBefore + fill.equityBefore, totals.cash + fill.sleeve.cash⟩

/-- The record of a book. -/
def bookRecord (inputs : DayInputs F) (book : Book) (totals : BookTotals F) : Record F :=
  [(pyStr "ts", .str inputs.ts), (pyStr "date", text inputs.day.isoformat),
    (pyStr "book", text book.id), (pyStr "quote", text book.quote.text),
    (pyStr "rule", text book.rule.text), (pyStr "family", text book.rule.family.text),
    (pyStr "comparator", optionalText book.comparator), (pyStr "fee_rate", .float book.fee.rate),
    (pyStr "slippage_bps", .float slippageBps), (pyStr "assets", .object totals.assets),
    (pyStr "equity_before", .float totals.equityBefore), (pyStr "cash", .float totals.cash),
    (pyStr "equity", .float totals.equity)]

/-- The state of a book before the day; a book without sleeves starts anew. -/
def stateBefore (states : Dict String (BookState F)) (book : Book) :
    Except PaperFailure (BookState F) :=
  match states.get? book.id with
  | none => initialState book
  | some [] => initialState book
  | some state => .ok state

/-- One book of a day: its record and its new state, after those of the books before it. -/
def addBook (inputs : DayInputs F) (states : Dict String (BookState F))
    (done : List (Record F) × Dict String (BookState F)) (book : Book) :
    Except PaperFailure (List (Record F) × Dict String (BookState F)) := do
  let state ← stateBefore states book
  let totals ← book.rule.sleeves.foldlM (addSleeve inputs book state) ⟨[], [], 0.0, 0.0, 0.0⟩
  return (done.1 ++ [bookRecord inputs book totals], done.2.assign book.id totals.sleeves)

/-- The fill prices of a day, with their sources. -/
def dayPrices (market : Market F) (day : Date) :
    Except PaperFailure (Dict (Asset × Quote) (F × String)) :=
  (Asset.all.flatMap fun asset => Quote.all.map fun quote => (asset, quote)).mapM
    fun (asset, quote) => do
      let price ← fillPrice market asset quote day
      return ((asset, quote), price)

end Steps

/-- The 24 records of `day` and the books' new states. Raises before returning anything if a
price or signal is missing, so a day is booked whole or not at all. -/
def bookDay {F : Type} [PyMath F] (market : Market F) (day : Date)
    (states : Dict String (BookState F)) (ts : PyStr) (start : Date)
    (signals : Option (DaySignals F)) :
    Except PaperFailure (List (Record F) × Dict String (BookState F)) := do
  ensure (start ≤ day)
    (.paper .ledgerInvalid (day.isoformat ++ " is before the paper start " ++ start.isoformat))
  let signals ← signals.elim (daySignals market day) .ok
  let prices ← dayPrices market day
  let firstDay := !books.any fun book => (states.get? book.id).isSome
  books.foldlM (addBook ⟨day, ts, firstDay, signals, prices⟩ states) ([], [])

end CryptoRadar.Trend
