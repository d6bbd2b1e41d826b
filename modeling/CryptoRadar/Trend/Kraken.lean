import CryptoRadar.Trend.Booked
import CryptoRadar.Trend.CatchUp
import CryptoRadar.Trend.Format

/-!
# The Kraken books

`domain/trend_paper_kraken.py`: the six rules at two fees, filled at the Kraken opens of the day,
with their own ledger. The signals, the accounting and the chain are those of the main books. There
is no substitute for a missing Kraken open, and a day before the start of a history that Kraken cut
off is unknown, never missing.

The records of a day (`bookKrakenDay`) are written by `encodeDay`, a skipped day by
`encodeKrakenSkip`, and both are verified by the format of the ledger (`krakenFormat`). The
catch-up plans, confirms and settles the due days as the main one does (`catchUpKrakenDays`).
-/

set_option autoImplicit false

namespace CryptoRadar.Trend

open Checked

/-! ## Books -/

/-- `VENUE`. -/
def venue : String := "KRAKEN"

/-- The quote in the records of the Kraken books; their ids carry `KRAKEN_EUR`. -/
def krakenQuote : String := "EUR"

/-- `KRAKEN_FEES`. -/
def krakenFees : List Fee := [.fortyBps, .eightyBps]

/-- `FEE_LABELS`. -/
def feeLabels : Dict Fee String :=
  [(.fortyBps, "0.4% maker assumption"), (.eightyBps, "0.8% taker sensitivity")]

/-- The Kraken pair of an asset. -/
def krakenPair : Asset → String
  | .btc => "XBTEUR"
  | .eth => "ETHEUR"

/-- The Kraken pairs in the order of the assets. -/
def krakenPairs : List String := Asset.all.map krakenPair

/-- The 12 books of a Kraken day, in the order of their records. -/
def krakenBooks : List Book :=
  Rule.all.flatMap fun rule => krakenFees.map fun fee => ⟨.krakenEur, rule, fee⟩

/-- `Kraken XBTEUR` for a Kraken pair, else the symbol. -/
def krakenLabel (symbol : String) : String :=
  if symbol ∈ krakenPairs then "Kraken " ++ symbol else symbol

theorem krakenBooks_distinct : (krakenBooks.map Book.id).Nodup := by
  decide +kernel

/-! ## Records -/

section Records

variable {F : Type} [PyFloat F]

/-- The price a Kraken day is filled at. -/
def krakenOpen (market : Market F) (asset : Asset) (day : Date) : Except PaperFailure F := do
  let series ← seriesOf market (krakenPair asset)
  require (.paper .missingCandle
    ("Kraken " ++ krakenPair asset ++ ": no candle on " ++ day.isoformat)) (series.openOn day)

/-- The prices of all assets. -/
def krakenPrices (market : Market F) (day : Date) : Except PaperFailure (Dict Asset F) :=
  Asset.all.mapM fun asset => do
    let price ← krakenOpen market asset day
    return (asset, price)

/-- What the Kraken books of a day are made from. -/
structure KrakenInputs (F : Type) where
  day : Date
  ts : PyStr
  firstDay : Bool
  signals : DaySignals F
  prices : Dict Asset F

/-- The record of an asset in a Kraken book. -/
def krakenAssetRecord (asset : Asset) (strategy : Strategy F) (signal : AssetSignal F) (price : F)
    (fill : Fill F) : Json F :=
  .object [(pyStr "symbol", text asset.usdtSymbol), (pyStr "pair", text (krakenPair asset)),
    (pyStr "registered_name", optionalText (strategy.registration.map RegisteredRule.name)),
    (pyStr "registered_sha256", optionalText (strategy.registration.map RegisteredRule.sha256)),
    (pyStr "signal_close_date", text signal.closeDate.isoformat),
    (pyStr "signal_close_usdt", .float signal.close),
    (pyStr "signal", .object (signal.values.map fun item => (pyStr item.1, .float item.2))),
    (pyStr "fill_price", .float price),
    (pyStr "fill_source", text ("Kraken " ++ krakenPair asset ++ " open")),
    (pyStr "target", .float fill.target), (pyStr "held_before", .float fill.heldBefore),
    (pyStr "held_after", .float fill.sleeve.held), (pyStr "traded", .bool fill.traded),
    (pyStr "traded_notional", .float fill.notional), (pyStr "fee", .float fill.fee),
    (pyStr "cash_after", .float fill.sleeve.cash), (pyStr "units_after", .float fill.sleeve.units),
    (pyStr "equity_after", .float fill.equityAfter)]

/-- The day of a sleeve of a Kraken book. -/
def krakenSleeveDay (inputs : KrakenInputs F) (book : Book) (state : BookState F) (asset : Asset)
    (strategy : Strategy F) : Except PaperFailure (Json F × Fill F) := do
  let price ← require .key (inputs.prices.get? asset)
  let target ← targetOf book.rule inputs.signals asset
  let sleeve ← require .key (state.get? asset.text)
  let fill ← uncaught (stepSleeve book strategy sleeve price target inputs.firstDay)
  let signal ← signalFor book.rule inputs.signals asset
  return (krakenAssetRecord asset strategy signal price fill, fill)

/-- The record of a Kraken book; every one of them has a fee label. -/
def krakenRecord (inputs : KrakenInputs F) (book : Book) (totals : BookTotals F) : Record F :=
  [(pyStr "ts", .str inputs.ts), (pyStr "date", text inputs.day.isoformat),
    (pyStr "book", text book.id), (pyStr "venue", text venue), (pyStr "quote", text krakenQuote),
    (pyStr "rule", text book.rule.text), (pyStr "family", text book.rule.family.text),
    (pyStr "comparator", optionalText book.comparator), (pyStr "fee_rate", .float book.fee.rate),
    (pyStr "fee_label", optionalText (feeLabels.get? book.fee)),
    (pyStr "slippage_bps", .float slippageBps), (pyStr "assets", .object totals.assets),
    (pyStr "equity_before", .float totals.equityBefore), (pyStr "cash", .float totals.cash),
    (pyStr "equity", .float totals.equity)]

end Records

/-- `book_kraken_day`: the 12 records of `day` and the books' new states. -/
def bookKrakenDay {F : Type} [PyMath F] (market : Market F) (day : Date)
    (states : Dict String (BookState F)) (ts : PyStr) (start : Date)
    (signals : Option (DaySignals F)) :
    Except PaperFailure (List (Record F) × Dict String (BookState F)) := do
  ensure (start ≤ day)
    (.paper .ledgerInvalid (day.isoformat ++ " is before the paper start " ++ start.isoformat))
  let signals ← signals.elim (daySignals market day) .ok
  let prices ← krakenPrices market day
  let firstDay := !krakenBooks.any fun book => (states.get? book.id).isSome
  let inputs : KrakenInputs F := ⟨day, ts, firstDay, signals, prices⟩
  krakenBooks.foldlM (addBookWith (krakenSleeveDay inputs) (krakenRecord inputs) states) ([], [])

/-! ## The ledger -/

/-- The format of the Kraken ledger. -/
def krakenFormat : LedgerFormat where
  books := krakenBooks
  reasons := [.noKrakenOpen, .noSignalClose]
  fields := [("venue", venue), ("quote", krakenQuote)]
  notSkip := ": not a valid Kraken skip entry"
  incomplete := "a day does not hold all Kraken books"
  outOfOrder := ": books not in their fixed sequence or incomplete day"
  foreign := ": not a Kraken EUR record"
  someBook := by decide

section Ledger

variable {F : Type} [PyFloat F] (codec : LedgerCodec F) (start : Date)

/-- `encode_kraken_skip`. -/
def encodeKrakenSkip (ledger : Ledger F) (found : DayGap) (ts : PyStr) : Except PaperFailure Bytes :=
  encodeSkip codec ledger found ts

/-- `extend_kraken_ledger`. -/
def extendKrakenLedger (ledger : Ledger F) (data : Bytes) : Except PaperFailure (Ledger F) :=
  krakenFormat.extend codec start ledger data

/-- `parse_kraken_ledger`. -/
def parseKrakenLedger (data : Bytes) : Except PaperFailure (Ledger F) :=
  extendKrakenLedger codec start Ledger.empty data

end Ledger

/-! ## Plans -/

/-- A market with the first days of the histories that Kraken cut off. -/
structure KrakenMarket (F : Type) [PyFloat F] where
  series : Market F
  starts : Dict String Date

/-- How many days before a missing candle the second request starts. -/
def krakenLeadDays : ℕ := 7

section Plan

variable {F : Type} [PyFloat F]

/-- `history_start`. -/
def KrakenMarket.historyStart (market : KrakenMarket F) (symbol : String) : Option Date :=
  (market.series.get? symbol).bind fun _ => market.starts.get? symbol

/-- `kraken_day_gap`: the first reason the day cannot be booked (Kraken open, then signal close). -/
def krakenDayGap (market : Market F) (day : Date) : Except PaperFailure (Option DayGap) := do
  let fill ← select (lacksOpen market day) krakenPairs
  match blocked day .noKrakenOpen (fill.map fun symbol => ⟨symbol, day⟩) with
  | some found => return some found
  | none =>
      let signal ← signalGaps market day
      return blocked day .noSignalClose signal

/-- `_unsettled`: why the gap is not settled, if it is not. -/
def unsettled (market : KrakenMarket F) (gap : Gap) : Except PaperFailure (Option String) := do
  if ← hasLater market.series gap.symbol gap.day then
    match market.historyStart gap.symbol with
    | none => return none
    | some first =>
        if first ≤ gap.day then return none
        else return some ("Kraken " ++ gap.symbol ++ " history starts at " ++ first.isoformat ++
          " (its 720-candle cap): " ++ gap.day.isoformat ++
          " is unknown, never a confirmed missing candle")
  else return some ("no " ++ krakenLabel gap.symbol ++ " candle on " ++ gap.day.isoformat ++
    " yet (none after it either)")

/-- Why the first of the gaps that is not settled is not. -/
def firstUnsettledWhy (market : KrakenMarket F) : List Gap → Except PaperFailure (Option String)
  | [] => .ok none
  | gap :: rest => do
      match ← unsettled market gap with
      | some why => return some why
      | none => firstUnsettledWhy market rest

/-- The due Kraken days in order, the ones that cannot be booked and why nothing may be written. -/
structure KrakenPlan where
  days : List Date
  gaps : Dict Date DayGap
  waiting : Option String
  confirmed : Bool

namespace KrakenPlan

/-- A plan without gaps. -/
def ofDays (days : List Date) : KrakenPlan := ⟨days, [], none, false⟩

/-- A plan that waits. -/
def wait (days : List Date) (why : String) : KrakenPlan := ⟨days, [], some why, false⟩

/-- Every missing candle the plan relies on. -/
def missing (plan : KrakenPlan) : List Gap := plan.gaps.flatMap fun item => item.2.gaps

/-- Where the second request of each symbol with a missing candle starts. -/
def toConfirm (plan : KrakenPlan) : Except PaperFailure (Dict String Date) :=
  plan.missing.foldlM (fun since gap => do
    let day ← if gap.symbol ∈ krakenPairs then plusDays gap.day (-krakenLeadDays) else .ok gap.day
    return since.assign gap.symbol (min ((since.get? gap.symbol).getD day) day)) []

end KrakenPlan

/-- The plan goes through the due days until one of them has to wait. -/
def planKrakenDays (market : KrakenMarket F) (plan : KrakenPlan) :
    List Date → Except PaperFailure KrakenPlan
  | [] => .ok plan
  | day :: rest => do
      match ← krakenDayGap market.series day with
      | none => planKrakenDays market plan rest
      | some found =>
          match ← firstUnsettledWhy market found.gaps with
          | some why => return .wait plan.days why
          | none => planKrakenDays market { plan with gaps := plan.gaps.assign day found } rest

/-- `plan_kraken_catch_up`. -/
def planKrakenCatchUp (ledger : Ledger F) (market : KrakenMarket F) (start : Date)
    (today : Option Date) : Except PaperFailure KrakenPlan := do
  let first ← firstDayToBook ledger start
  let horizon ← lastBookableDay market.series
  match today.or horizon with
  | none => return .ofDays []
  | some last =>
      if last < first then return .ofDays []
      let days ← daysUpTo first last
      if horizon.all fun horizon => horizon < last then
        return .wait days
          ("the public USDT daily candles do not reach the " ++ last.isoformat ++ " open yet")
      planKrakenDays market (.ofDays days) days

/-- Why the second market does not confirm a gap, if it does not. -/
def krakenRefusal (second : KrakenMarket F) (gap : Gap) : Except PaperFailure (Option String) := do
  let unconfirmed := "the absence of " ++ krakenLabel gap.symbol ++ " on " ++ gap.day.isoformat ++
    " was not confirmed by a second request"
  match second.series.get? gap.symbol with
  | none => return some unconfirmed
  | some series =>
      if series.symbol ≠ gap.symbol then return some unconfirmed
      if (← unsettled second gap).isSome then return some unconfirmed
      return if (series.openOn gap.day).isSome then
        some ("two requests disagree on " ++ krakenLabel gap.symbol ++ " " ++ gap.day.isoformat ++
          "; nothing was booked")
      else none

/-- Why the first of the gaps that is not confirmed is not. -/
def firstKrakenRefusal (second : KrakenMarket F) : List Gap → Except PaperFailure (Option String)
  | [] => .ok none
  | gap :: rest => do
      match ← krakenRefusal second gap with
      | some why => return some why
      | none => firstKrakenRefusal second rest

/-- `confirm_kraken_plan`. -/
def confirmKrakenPlan (plan : KrakenPlan) (second : KrakenMarket F) :
    Except PaperFailure KrakenPlan := do
  match ← firstKrakenRefusal second plan.missing with
  | some why => return { plan with waiting := some why }
  | none => return { plan with confirmed := true }

/-- The plan of a Kraken catch-up, confirmed where it relies on missing candles and there is a
second market to ask. -/
def confirmedKrakenPlan (start : Date) (market : KrakenMarket F)
    (refetch : Option (Dict String Date → KrakenMarket F)) (ledger : Ledger F)
    (today : Option Date) : Except PaperFailure KrakenPlan := do
  let plan ← planKrakenCatchUp ledger market start today
  match refetch with
  | none => return plan
  | some refetch =>
      if plan.waiting = none ∧ plan.missing ≠ [] then
        let since ← plan.toConfirm
        confirmKrakenPlan plan (refetch since)
      else return plan

end Plan

/-! ## Settling the days -/

section Settle

variable {F : Type} [PyMath F] (codec : LedgerCodec F) (start : Date) (market : KrakenMarket F)
  (ts : PyStr)

/-- The lines of a Kraken day. -/
def krakenDayLines (gaps : Dict Date DayGap) (ledger : Ledger F) (day : Date) :
    Except PaperFailure Bytes :=
  match gaps.get? day with
  | some found => encodeKrakenSkip codec ledger found ts
  | none => do
      let (records, _) ← bookKrakenDay market.series day ledger.states ts start none
      encodeDay codec ledger records

/-- The days computed and verified in memory, each on the ledger the earlier ones lead to. -/
def prepareKraken (gaps : Dict Date DayGap) (pending : Ledger F) :
    List Date → Except PaperFailure (List Chunk)
  | [] => .ok []
  | day :: rest => do
      let data ← krakenDayLines codec start market ts gaps pending day
      let extended ← extendKrakenLedger codec start pending data
      let chunks ← prepareKraken gaps extended rest
      return ⟨day, data, (gaps.get? day).isSome⟩ :: chunks

/-- What `apply_kraken_plan` raises before it writes. -/
def checkKrakenPlan (plan : KrakenPlan) : Except PaperFailure Unit := do
  if let some why := plan.waiting then throw (.paper .waitingForData why)
  ensure (plan.missing = [] ∨ plan.confirmed)
    (.paper .waitingForData "a missing candle was seen in one response only")

variable {World : Type}

/-- `apply_kraken_plan`: the booked and the skipped days. -/
def applyKrakenPlan (append : Bytes → World → Except CatchUpFailure (Ledger F) × World)
    (ledger : Ledger F) (plan : KrakenPlan) (world : World) :
    Except CatchUpFailure (List Date × List Date) × World :=
  match checkKrakenPlan plan >>= fun _ =>
      prepareKraken codec start market ts plan.gaps ledger plan.days with
  | .error failure => (.error (.paper failure), world)
  | .ok chunks =>
      match appendChunks append chunks world with
      | (.error failure, after) => (.error failure, after)
      | (.ok _, after) => (.ok (((chunks.filter fun chunk => !chunk.skips).map Chunk.day),
          (chunks.filter Chunk.skips).map Chunk.day), after)

/-- `catch_up_kraken_days`: plan, confirm and settle every due day. -/
def catchUpKrakenDays (append : Bytes → World → Except CatchUpFailure (Ledger F) × World)
    (refetch : Option (Dict String Date → KrakenMarket F)) (ledger : Ledger F)
    (today : Option Date) (world : World) : Except CatchUpFailure (List Date) × World :=
  match confirmedKrakenPlan start market refetch ledger today with
  | .error failure => (.error (.paper failure), world)
  | .ok plan =>
      match applyKrakenPlan codec start market ts append ledger plan world with
      | (.error failure, after) => (.error failure, after)
      | (.ok settled, after) => (.ok settled.1, after)

end Settle

end CryptoRadar.Trend
