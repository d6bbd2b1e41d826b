import CryptoRadar.Integrity.Domain
import CryptoRadar.Lib.Checked
import CryptoRadar.Lib.Tally

/-!
# Checks of one observation

The checks of `domain/integrity.py`, one for each capability. A check of the source appends to a
list of reasons; here it returns what it would append. What a check says of times is pure; what it
says of numbers may raise.
-/

set_option autoImplicit false

namespace CryptoRadar.Integrity

open Checked

/-! ## Primitive checks -/

/-- `_price`: whether the number is a price. -/
def price (value : Number) (name : String) : Except IntegrityFailure (Bool × List Reason) := do
  let finite ← value.finite
  return if ¬ finite then (false, [⟨.invalidNumber, name, .number value⟩])
    else if value.value ≤ 0 then (false, [⟨.nonpositivePrice, name, .number value⟩])
    else (true, [])

/-- `_size`: whether the number is a size. -/
def size (value : Number) (name : String) (strictlyPositive : Bool) :
    Except IntegrityFailure (Bool × List Reason) := do
  let finite ← value.finite
  return if ¬ finite then (false, [⟨.invalidNumber, name, .number value⟩])
    else if value.value < 0 ∨ (strictlyPositive ∧ value.value = 0) then
      (false, [⟨.invalidSize, name, .number value⟩])
    else (true, [])

/-- `_identity`. -/
def identity (actual expected : InstrumentId) : List Reason :=
  if actual ≠ expected then [⟨.identityMismatch, "instrument", .instruments expected actual⟩] else []

/-- `_unit`. -/
def unit (actual expected name : String) : List Reason :=
  if actual ≠ expected then [⟨.unitMismatch, name, .units expected actual⟩] else []

variable [Zones]

/-- `_source_moment`: whether a reported time is aware and not in the future. -/
def sourceMoment (stamp : Stamp) (name : String) (now : ZonedTime) (policy : IntegrityPolicy)
    (maxAge : Option Timedelta) (staleCode : ReasonCode) : Bool × List Reason :=
  match stamp with
  | .naive _ => (false, [⟨.naiveTimestamp, name, .text "timestamp has no timezone"⟩])
  | .aware moment =>
      if policy.sourceFutureTolerance.micros < (moment.minus now).micros then
        (false, [⟨.futureDated, name, .order moment now⟩])
      else
        match maxAge with
        | some limit =>
            if limit.micros < (now.minus moment).micros then
              (true, [⟨staleCode, name, .age (now.minus moment) limit⟩])
            else (true, [])
        | none => (true, [])

/-- The part of `_timing` about the receipt. -/
def receipt (received : Stamp) (now : ZonedTime) (receiptMax : Option Timedelta) : List Reason :=
  match received with
  | .naive _ => [⟨.naiveTimestamp, "timing.received_at", .text "timestamp has no timezone"⟩]
  | .aware moment =>
      if now.lt moment then [⟨.futureDated, "timing.received_at", .order moment now⟩]
      else
        match receiptMax with
        | some limit =>
            if limit.micros < (now.minus moment).micros then
              [⟨.staleReceipt, "timing.received_at", .age (now.minus moment) limit⟩]
            else []
        | none => []

/-- `_timing`. -/
def timing (timing : SourceTiming) (now : ZonedTime) (policy : IntegrityPolicy)
    (receiptMax sourceMax : Option Timedelta) : TimeBasis × List Reason :=
  let received := receipt timing.receivedAt now receiptMax
  match timing.sourceTime with
  | none => (.receiptOnly, received)
  | some source =>
      (.source, received ++ (sourceMoment source "timing.source_time" now policy sourceMax .staleSource).2)

/-- `_bid_ask`. -/
def bidAsk (bid ask : Number) : Except IntegrityFailure (List Reason) := do
  let (bidOk, bidReasons) ← price bid "bid"
  let (askOk, askReasons) ← price ask "ask"
  return bidReasons ++ askReasons ++
    if bidOk ∧ askOk ∧ ask.value ≤ bid.value then [⟨.crossedQuote, "bid", .pair bid ask⟩] else []

/-- What is wrong with a quote and its last price. -/
def quoteReasons (bid ask last : Number) : Except IntegrityFailure (List Reason) := do
  let quoted ← bidAsk bid ask
  let (_, lastReasons) ← price last "last"
  return quoted ++ lastReasons

/-! ## Ticker -/

/-- What is wrong with a trading status. -/
def statusReasons : Option TradingStatus → List Reason
  | none => [⟨.missingMetadata, "status", .text "trading status not supplied"⟩]
  | some .online => []
  | some .restricted => [⟨.marketNotOnline, "status", .text "restricted"⟩]
  | some .offline => [⟨.marketNotOnline, "status", .text "offline"⟩]

/-- What is wrong with a quote of the spot market. -/
def tickerReasons (ticker : TickerObservation) (expected : InstrumentId) (now : ZonedTime)
    (policy : IntegrityPolicy) : Except IntegrityFailure (List Reason) := do
  let timed := (timing ticker.timing now policy policy.tickerMaxAge policy.tickerMaxAge).2
  let quoted ← quoteReasons ticker.bid ticker.ask ticker.last
  return identity ticker.instrument expected ++ unit ticker.priceUnit expected.quote "price_unit" ++
    timed ++ quoted ++ statusReasons ticker.status

/-- `evaluate_ticker`. -/
def evaluateTicker (ticker : Option TickerObservation) (expected : InstrumentId) (now : ZonedTime)
    (policy : IntegrityPolicy) : Except IntegrityFailure CapabilityResult :=
  match ticker with
  | none => .ok (missing .spotTicker expected.symbol "ticker")
  | some ticker => do
    let reasons ← tickerReasons ticker expected now policy
    let basis := (timing ticker.timing now policy policy.tickerMaxAge policy.tickerMaxAge).1
    return result .spotTicker expected.symbol reasons basis ticker.timing.receivedAt
      ticker.timing.sourceTime

/-! ## Bars -/

/-- The contiguous bars at the end, of bars in the reverse order. -/
def tailFrom (interval : Timedelta) : List Bar → Except IntegrityFailure (List Bar)
  | [] => .ok []
  | [bar] => .ok [bar]
  | bar :: previous :: rest => do
    let gap ← bar.openTime.minus previous.openTime
    if gap = interval then return bar :: (← tailFrom interval (previous :: rest)) else return [bar]

/-- `_contiguous_tail`. -/
def contiguousTail (bars : List Bar) (interval : Timedelta) : Except IntegrityFailure (List Bar) :=
  (tailFrom interval bars.reverse).map List.reverse

/-- What `_bar_reasons` says of the prices and the volume of a bar. -/
def barNumbers (field : String) (bar : Bar) : Except IntegrityFailure (List Reason) := do
  let (openOk, openReasons) ← price bar.open_ (field ++ ".open")
  let (highOk, highReasons) ← price bar.high (field ++ ".high")
  let (lowOk, lowReasons) ← price bar.low (field ++ ".low")
  let (closeOk, closeReasons) ← price bar.close (field ++ ".close")
  let (_, volumeReasons) ← size bar.volume (field ++ ".volume") false
  let coherent := bar.low.value ≤ min bar.open_.value bar.close.value ∧
    max bar.open_.value bar.close.value ≤ bar.high.value
  return openReasons ++ highReasons ++ lowReasons ++ closeReasons ++ volumeReasons ++
    if openOk ∧ highOk ∧ lowOk ∧ closeOk ∧ ¬ coherent then
      [⟨.ohlcIncoherent, field, .prices [bar.open_, bar.high, bar.low, bar.close]⟩]
    else []

/-- What `_bar_reasons` says of the time of a bar; `previous` is the time of the bar before. -/
def barTimes (series : OhlcSeries) (field : String) (openTime : Stamp) (previous : Option Stamp) :
    Except IntegrityFailure (List Reason) :=
  match openTime with
  | .naive _ => .ok [⟨.naiveTimestamp, field, .text "timestamp has no timezone"⟩]
  | .aware moment => do
    ensure (series.interval.micros ≠ 0) .zeroDivision
    let aligned := if (moment.minus .epoch).micros.fmod series.interval.micros ≠ 0 then
        [⟨.barMisaligned, field, .moment moment⟩]
      else []
    let close ← (moment.shift series.interval).mapError .time
    let closed := match series.timing.receivedAt with
      | .naive _ => []
      | .aware received =>
          if received.lt close then [⟨.barNotClosed, field, .order close received⟩] else []
    let ordered := match previous with
      | some (.aware previous) =>
          if moment.le previous then [⟨.barOrder, field, .text "not strictly increasing"⟩] else []
      | _ => []
    return aligned ++ closed ++ ordered

/-- `_bar_reasons`. -/
def barReasons (series : OhlcSeries) (place : Bar × ℕ) : Except IntegrityFailure (List Reason) := do
  let (bar, index) := place
  let field := s!"bars[{index}]"
  let previous := if 0 < index then (series.bars[index - 1]?).map Bar.openTime else none
  let numbers ← barNumbers field bar
  let times ← barTimes series (field ++ ".open_time") bar.openTime previous
  return numbers ++ times

/-- When the last bar closes. -/
def lastClose (series : OhlcSeries) : Except IntegrityFailure (Option Stamp) :=
  match series.bars.getLast? with
  | none => .ok none
  | some bar => (bar.openTime.shift series.interval).map some

/-- What `_series_reasons` says of the last close and of the contiguous bars. -/
def coverageReasons (series : OhlcSeries) (now : ZonedTime) (policy : IntegrityPolicy)
    (requiredBars : ℤ) : Except IntegrityFailure (List Reason) := do
  let close ← lastClose series
  let closed := match close with
    | some close =>
        (sourceMoment close "bars[-1].close_time" now policy policy.ohlcLastCloseMaxAge .staleSource).2
    | none => []
  let tail ← contiguousTail series.bars series.interval
  return closed ++
    if (tail.length : ℤ) < requiredBars then
      [⟨if (series.bars.length : ℤ) < requiredBars then .insufficientBars else .barGap, "bars",
        .count tail.length requiredBars⟩]
    else []

/-- What `_series_reasons` says before it looks at the bars. -/
def seriesReasons (series : OhlcSeries) (expected : InstrumentId) (now : ZonedTime)
    (policy : IntegrityPolicy) (requiredBars : ℤ) : Except IntegrityFailure (List Reason) :=
  let named := identity series.instrument expected ++
    unit series.priceUnit expected.quote "price_unit" ++
    unit series.volumeUnit expected.sizeUnit "volume_unit"
  if series.interval ≠ policy.ohlcInterval then
    .ok (named ++ [⟨.unitMismatch, "interval", .intervals policy.ohlcInterval series.interval⟩])
  else
    let timed := named ++ (timing series.timing now policy none none).2
    if series.bars = [] then .ok (timed ++ [⟨.missingObservation, "bars", .text "no bars"⟩])
    else do
      let bars ← series.bars.zipIdx.mapM (barReasons series)
      let reasons := timed ++ bars.flatten
      if reasons.any (·.code.hard) then
        return reasons
      else
        let covered ← coverageReasons series now policy requiredBars
        return reasons ++ covered

/-- `evaluate_ohlc`. -/
def evaluateOhlc (series : Option OhlcSeries) (expected : InstrumentId) (now : ZonedTime)
    (policy : IntegrityPolicy) (requiredBars : ℤ) : Except IntegrityFailure CapabilityResult :=
  match series with
  | none => .ok (missing .pairOhlc expected.symbol "ohlc")
  | some series => do
    let reasons ← seriesReasons series expected now policy requiredBars
    let close ← lastClose series
    return result .pairOhlc expected.symbol reasons .source series.timing.receivedAt close

/-- The start of the bucket of a bar. -/
def bucketStart (span : ℤ) (bar : Bar) : Except IntegrityFailure ZonedTime :=
  match bar.openTime with
  | .naive _ => .error .type
  | .aware moment => do
    ensure (span ≠ 0) .zeroDivision
    let start ← require (.time .overflow)
      (moment.wall.plus? (-((moment.minus .epoch).micros.fmod span)))
    return ⟨start, moment.zone, false⟩

/-- `complete_buckets`. -/
def completeBuckets (bars : List Bar) (interval : Timedelta) (span : ℤ) :
    Except IntegrityFailure ℕ :=
  if span < interval.micros then .ok 0
  else do
    ensure (interval.micros ≠ 0) .zeroDivision
    if span.fmod interval.micros ≠ 0 then
      return 0
    else
      let tail ← contiguousTail bars interval
      let starts ← tail.mapM (bucketStart span)
      let counts := tally ZonedTime.same starts
      return (counts.filter fun entry => (entry.2 : ℤ) = span.fdiv interval.micros).length

/-- `evaluate_atr`. -/
def evaluateAtr (series : Option OhlcSeries) (expected : InstrumentId) (now : ZonedTime)
    (timeframe : AtrTimeframe) (policy : IntegrityPolicy) :
    Except IntegrityFailure CapabilityResult :=
  match series with
  | none => .ok (missing .atr timeframe.value "ohlc")
  | some series => do
    let reasons ← seriesReasons series expected now policy 1
    let close ← lastClose series
    if statusFromReasons reasons = .pass then
      let buckets ← completeBuckets series.bars series.interval timeframe.span
      let short := if (buckets : ℤ) < policy.atrMinBars then
          [⟨.insufficientBars, "bars", .count buckets policy.atrMinBars⟩]
        else []
      return result .atr timeframe.value (reasons ++ short) .source series.timing.receivedAt close
    else
      return result .atr timeframe.value reasons .source series.timing.receivedAt close

/-! ## Book -/

/-- The numbers of the levels of a side: whether all are valid. -/
def levelNumbers (name : String) :
    List (BookLevel × ℕ) → Except IntegrityFailure (Bool × List Reason)
  | [] => .ok (true, [])
  | (level, index) :: rest => do
    let (priceOk, priceReasons) ← price level.price (name ++ s!"[{index}].price")
    let (sizeOk, sizeReasons) ← size level.size (name ++ s!"[{index}].size") false
    let (restOk, restReasons) ← levelNumbers name rest
    return (priceOk && sizeOk && restOk, priceReasons ++ sizeReasons ++ restReasons)

/-- The first level that is not better than the next, by its index. -/
def firstUnordered (side : BookSide) : ℕ → List BookLevel → Option (ℕ × Number × Number)
  | index, previous :: current :: rest =>
      let ordered : Bool := match side with
        | .bid => current.price.value < previous.price.value
        | .ask => previous.price.value < current.price.value
      if ordered then firstUnordered side (index + 1) (current :: rest)
      else some (index + 1, current.price, previous.price)
  | _, _ => none

/-- `_book_side`: whether the side is valid and ordered. -/
def bookSide (levels : List BookLevel) (side : BookSide) :
    Except IntegrityFailure (Bool × List Reason) :=
  if levels = [] then .ok (false, [⟨.emptyBookSide, side.levels, .text "no levels"⟩])
  else do
    let (valid, reasons) ← levelNumbers side.levels levels.zipIdx
    if ¬ valid then
      return (false, reasons)
    else
      match firstUnordered side 0 levels with
      | some (index, current, previous) =>
          return (false, reasons ++
            [⟨.bookSideUnordered, side.levels ++ s!"[{index}].price", .pair current previous⟩])
      | none => return (true, reasons)

/-- What is wrong with the depth of a side that is required. -/
def depthReasons (levels : List BookLevel) (sideOk : Bool) (required : RequiredDepth) :
    Except IntegrityFailure (List Reason) := do
  let (sizeOk, sizeReasons) ← size required.size "required_depth.size" true
  if sizeOk && sideOk then
    let depth ← (levels.foldlM (fun total level => Decimal.add .default total level.size.asDecimal)
      (Decimal.ofInt 0)).mapError .decimal
    return sizeReasons ++
      if Decimal.lt depth required.size.asDecimal then
        [⟨.sizeNotCovered, required.side.levels, .depth depth required.size⟩]
      else []
  else return sizeReasons

/-- What `evaluate_book` says of the levels. -/
def levelReasons (book : BookSnapshot) (requiredDepth : Option RequiredDepth) :
    Except IntegrityFailure (List Reason) := do
  let (bidsOk, bids) ← bookSide book.bids .bid
  let (asksOk, asks) ← bookSide book.asks .ask
  let crossed := match book.bids.head?, book.asks.head? with
    | some bid, some ask =>
        if bidsOk ∧ asksOk ∧ ask.price.value ≤ bid.price.value then
          [⟨.crossedQuote, "bids[0].price", .pair bid.price ask.price⟩]
        else []
    | _, _ => []
  let depth ← match requiredDepth with
    | none => .ok []
    | some required =>
        match required.side with
        | .bid => depthReasons book.bids bidsOk required
        | .ask => depthReasons book.asks asksOk required
  return bids ++ asks ++ crossed ++ depth

/-- What is wrong with a book. -/
def bookReasons (book : BookSnapshot) (expected : InstrumentId) (now : ZonedTime)
    (policy : IntegrityPolicy) (requiredDepth : Option RequiredDepth) :
    Except IntegrityFailure (List Reason) := do
  let timed := (timing book.timing now policy policy.bookMaxAge policy.bookMaxAge).2
  let levels ← levelReasons book requiredDepth
  return identity book.instrument expected ++ unit book.priceUnit expected.quote "price_unit" ++
    unit book.sizeUnit expected.sizeUnit "size_unit" ++ timed ++ levels

/-- `evaluate_book`. -/
def evaluateBook (book : Option BookSnapshot) (expected : InstrumentId) (now : ZonedTime)
    (policy : IntegrityPolicy) (requiredDepth : Option RequiredDepth) :
    Except IntegrityFailure CapabilityResult :=
  match book with
  | none => .ok (missing .book expected.symbol "book")
  | some book => do
    let reasons ← bookReasons book expected now policy requiredDepth
    let basis := (timing book.timing now policy policy.bookMaxAge policy.bookMaxAge).1
    return result .book expected.symbol reasons basis book.timing.receivedAt book.timing.sourceTime

/-! ## Trades -/

/-- What is said of the price and of the size of a trade. -/
def tradeNumbers (field : String) (trade : Trade) : Except IntegrityFailure (List Reason) := do
  let (_, prices) ← price trade.price (field ++ ".price")
  let (_, sizes) ← size trade.size (field ++ ".size") true
  return prices ++ sizes

/-- What is wrong with one trade. -/
def tradeReasons (now : ZonedTime) (policy : IntegrityPolicy) (place : Trade × ℕ) :
    Except IntegrityFailure (List Reason) := do
  let field := s!"trades[{place.2}]"
  let numbers ← tradeNumbers field place.1
  return numbers ++ (sourceMoment place.1.time (field ++ ".time") now policy none .staleSource).2

/-- The later of two times, the first of two that are the same. -/
def laterOf (latest : Option ZonedTime) (moment : ZonedTime) : Option ZonedTime :=
  match latest with
  | some found => if found.lt moment then some moment else some found
  | none => some moment

/-- The latest time of the trades that are aware and not in the future. -/
def latestTrade (now : ZonedTime) (policy : IntegrityPolicy) (trades : List Trade) : Option ZonedTime :=
  trades.foldl (fun latest trade =>
    match trade.time with
    | .naive _ => latest
    | .aware moment =>
        if policy.sourceFutureTolerance.micros < (moment.minus now).micros then latest
        else laterOf latest moment) none

/-- What `evaluate_trades` says of the latest trade. -/
def latestReasons (trades : TradesObservation) (now : ZonedTime) (policy : IntegrityPolicy)
    (activeTradeClaim : Bool) : List Reason :=
  if trades.trades = [] then [⟨.noTrades, "trades", .text "no trades: unavailable, not zero"⟩]
  else
    match latestTrade now policy trades.trades with
    | some latest =>
        if activeTradeClaim then
          (sourceMoment (.aware latest) "latest_trade" now policy policy.lastTradeMaxAge
            .staleLastTrade).2
        else []
    | none => []

/-- What is wrong with the trades. -/
def tradesReasons (trades : TradesObservation) (expected : InstrumentId) (now : ZonedTime)
    (policy : IntegrityPolicy) (activeTradeClaim : Bool) :
    Except IntegrityFailure (List Reason) := do
  let timed := (timing trades.timing now policy policy.tradesReceiptMaxAge none).2
  let each ← trades.trades.zipIdx.mapM (tradeReasons now policy)
  return identity trades.instrument expected ++
    unit trades.priceUnit expected.quote "price_unit" ++
    unit trades.sizeUnit expected.sizeUnit "size_unit" ++ timed ++ each.flatten ++
    latestReasons trades now policy activeTradeClaim

/-- `evaluate_trades`. -/
def evaluateTrades (trades : Option TradesObservation) (expected : InstrumentId) (now : ZonedTime)
    (policy : IntegrityPolicy) (activeTradeClaim : Bool) :
    Except IntegrityFailure CapabilityResult :=
  match trades with
  | none => .ok (missing .trades expected.symbol "trades")
  | some trades => do
    let reasons ← tradesReasons trades expected now policy activeTradeClaim
    let latest := latestTrade now policy trades.trades
    let basis : TimeBasis := if latest.isSome then .source else .receiptOnly
    return result .trades expected.symbol reasons basis trades.timing.receivedAt (latest.map .aware)

/-! ## Futures -/

/-- What is said of a reported time, and the time where it counts. -/
def reportedTime (name : String) (stamp : Option Stamp) (now : ZonedTime) (policy : IntegrityPolicy) :
    Option ZonedTime × List Reason :=
  match stamp with
  | none => (none, [])
  | some stamp =>
      let (counts, reasons) := sourceMoment stamp name now policy policy.futuresMaxAge .staleSource
      match stamp with
      | .aware moment => (if counts then some moment else none, reasons)
      | .naive _ => (none, reasons)

/-- The venue gives no time of its own. -/
def FuturesObservation.reportsNothing (futures : FuturesObservation) : Bool :=
  futures.quoteTime.isNone && futures.lastTradeTime.isNone && futures.timing.sourceTime.isNone

/-- What is wrong with a quote of the futures market. -/
def futuresReasons (futures : FuturesObservation) (expected : InstrumentId) (now : ZonedTime)
    (policy : IntegrityPolicy) : Except IntegrityFailure (List Reason) := do
  let timed := (timing futures.timing now policy policy.futuresMaxAge policy.futuresMaxAge).2
  let quoted ← quoteReasons futures.bid futures.ask futures.last
  let kind := if expected.kind ≠ .futures then
      [⟨.identityMismatch, "instrument.kind", .text "expected a futures instrument"⟩]
    else []
  let absent := if futures.reportsNothing then
      [⟨.sourceTimeAbsent, "quote_time", .text "no reported time: current activity unproven"⟩]
    else []
  return kind ++ identity futures.instrument expected ++
    unit futures.priceUnit expected.quote "price_unit" ++ timed ++ quoted ++
    (reportedTime "quote_time" futures.quoteTime now policy).2 ++
    (reportedTime "last_trade_time" futures.lastTradeTime now policy).2 ++ absent

/-- `evaluate_futures`. -/
def evaluateFutures (futures : Option FuturesObservation) (expected : InstrumentId) (now : ZonedTime)
    (policy : IntegrityPolicy) : Except IntegrityFailure CapabilityResult :=
  match futures with
  | none => .ok (missing .futures expected.symbol "futures")
  | some futures => do
    let reasons ← futuresReasons futures expected now policy
    let reported := [(reportedTime "quote_time" futures.quoteTime now policy).1,
      (reportedTime "last_trade_time" futures.lastTradeTime now policy).1].filterMap id
    let source := match reported.foldl laterOf none with
      | some latest => some (.aware latest)
      | none => futures.timing.sourceTime
    return result .futures expected.symbol reasons
      (if futures.reportsNothing then .receiptOnly else .source) futures.timing.receivedAt source

/-! ## Clock and metadata -/

/-- What is said of the synchronisation and of its uncertainty. -/
def synchronizationReasons (sample : ClockSample) (policy : IntegrityPolicy) : List Reason :=
  (match sample.synchronized with
    | none => [⟨.clockSyncUnknown, "synchronized", .text "synchronisation unknown"⟩]
    | some false => [⟨.clockNotSynchronized, "synchronized", .text "clock not synchronised"⟩]
    | some true => []) ++
  (match sample.offsetUncertainty with
    | none => [⟨.clockUncertaintyUnknown, "offset_uncertainty", .text "not measured"⟩]
    | some uncertainty =>
        if uncertainty.micros < 0 then
          [⟨.invalidNumber, "offset_uncertainty", .text "negative uncertainty"⟩]
        else if policy.clockMaxUncertainty.micros < uncertainty.micros then
          [⟨.clockUncertaintyExceeded, "offset_uncertainty",
            .age uncertainty policy.clockMaxUncertainty⟩]
        else [])

/-- What is said of the previous wall time. -/
def previousReasons (previous : Option Stamp) (now : ZonedTime) : List Reason :=
  match previous with
  | none => []
  | some (.naive _) => [⟨.naiveTimestamp, "previous_wall_time", .text "timestamp has no timezone"⟩]
  | some (.aware previous) =>
      if now.lt previous then [⟨.clockBackwardJump, "previous_wall_time", .order now previous⟩] else []

/-- The clock went backwards. -/
def jumpReasons : Option Timedelta → List Reason
  | none => []
  | some jump => [⟨.clockBackwardJump, "backward_jump", .length jump⟩]

/-- What is wrong with the clock. -/
def clockReasons (sample : ClockSample) (now : ZonedTime) (policy : IntegrityPolicy) : List Reason :=
  synchronizationReasons sample policy ++ previousReasons sample.previousWallTime now ++
    jumpReasons sample.backwardJump

/-- `evaluate_clock`. -/
def evaluateClock (sample : ClockSample) (now : ZonedTime) (policy : IntegrityPolicy) :
    CapabilityResult :=
  result .clock "utc" (clockReasons sample now policy) .none none none

/-- `evaluate_metadata`. -/
def evaluateMetadata (metadata : MetadataValue) : Except IntegrityFailure CapabilityResult :=
  match metadata.value with
  | none => .ok (result .metadata metadata.claim
      [⟨.missingMetadata, metadata.claim, .text "not supplied"⟩] .none none none)
  | some value => do
    let finite ← value.finite
    return result .metadata metadata.claim
      (if finite then [] else [⟨.invalidNumber, metadata.claim, .number value⟩]) .none none none

end CryptoRadar.Integrity
