import CryptoRadar.Trend.Strategies

/-!
# Books and market data of the paper trader

`domain/trend_paper.py`, its rules, its 24 books and its market data. A `DailySeries` holds
the closed daily bars of one symbol and, apart from them, the open of the day that is still
open. What its constructor checks is carried by the structure, so a series whose bars are out
of order, or whose live day is not after them, cannot be built; `DailySeries.make` is the
constructor with its errors.

`closeOn_eq` says which bars a close can come from: the close of a day before
another one is decided by the bars that opened before that other day.
-/

set_option autoImplicit false

namespace CryptoRadar.Trend

open Checked

/-- The codes of a `PaperError`. -/
inductive PaperErrorCode where
  | missingCandle
  | incompleteHistory
  | invalidMarket
  | invalidSignal
  | ledgerTorn
  | ledgerEdited
  | ledgerInvalid
  | waitingForData
  deriving DecidableEq, Repr

/-- What the paper trader raises: a `PaperError`, or a Python error it does not catch. -/
inductive PaperFailure where
  | paper (code : PaperErrorCode) (detail : String)
  | number (error : NumberError)
  | engine (failure : EngineFailure)
  | encoding
  | key
  | index
  deriving DecidableEq, Repr

/-- Arithmetic whose errors are not caught. -/
def uncaught {α : Type} : Except NumberError α → Except PaperFailure α :=
  Except.mapError PaperFailure.number

/-! ## Rules and books -/

/-- The rules of the books. -/
inductive Rule where
  | ens
  | ensVt
  | bh5050
  | btcTrend5
  | btcTrend5Vt
  | bhBtc
  deriving DecidableEq, Repr

namespace Rule

/-- The name of a rule in the ledger. -/
def text : Rule → String
  | .ens => "ENS"
  | .ensVt => "ENS_VT"
  | .bh5050 => "BH_5050"
  | .btcTrend5 => "BTC_TREND5"
  | .btcTrend5Vt => "BTC_TREND5_VT"
  | .bhBtc => "BH_BTC"

/-- The rules in the order of the books. -/
def all : List Rule := [.ens, .ensVt, .bh5050, .btcTrend5, .btcTrend5Vt, .bhBtc]

end Rule

/-- The signals a rule is made from. -/
inductive Family where
  | ens
  | trend5
  deriving DecidableEq, Repr

/-- The name of a family in the ledger. -/
def Family.text : Family → String
  | .ens => "ENS"
  | .trend5 => "TREND5"

/-- The assets that are traded. -/
inductive Asset where
  | btc
  | eth
  deriving DecidableEq, Repr

namespace Asset

/-- The name of an asset in the ledger. -/
def text : Asset → String
  | .btc => "BTC"
  | .eth => "ETH"

/-- The assets in their order. -/
def all : List Asset := [.btc, .eth]

/-- The symbol of the prices the signals are made from. -/
def usdtSymbol : Asset → String
  | .btc => "BTCUSDT"
  | .eth => "ETHUSDT"

/-- The symbol of the prices in EUR. -/
def eurSymbol : Asset → String
  | .btc => "BTCEUR"
  | .eth => "ETHEUR"

end Asset

/-- The symbol of the conversion rate. -/
def eurusdt : String := "EURUSDT"

/-- The quote a book is kept in; the books of the Kraken paper trader stand apart, under the name
of the venue and its quote. -/
inductive Quote where
  | eur
  | usdt
  | krakenEur
  deriving DecidableEq, Repr

namespace Quote

/-- The name of a quote in the ledger. -/
def text : Quote → String
  | .eur => "EUR"
  | .usdt => "USDT"
  | .krakenEur => "KRAKEN_EUR"

/-- The quotes of the main ledger. -/
def all : List Quote := [.eur, .usdt]

end Quote

/-- The fee rates per leg: two of them for the books, `eightyBps` for those of Kraken only. -/
inductive Fee where
  | tenBps
  | fortyBps
  | eightyBps
  deriving DecidableEq, Repr

namespace Fee

/-- The name of a fee in the ledger. -/
def text : Fee → String
  | .tenBps => "0.001"
  | .fortyBps => "0.004"
  | .eightyBps => "0.008"

/-- The fee as a fraction of what is traded. -/
def rate {F : Type} [PyFloat F] : Fee → F
  | .tenBps => 0.001
  | .fortyBps => 0.004
  | .eightyBps => 0.008

/-- The fees of the main ledger. -/
def all : List Fee := [.tenBps, .fortyBps]

end Fee

namespace Rule

/-- The family of a rule. -/
def family : Rule → Family
  | .ens => .ens
  | .ensVt => .ens
  | .bh5050 => .ens
  | .btcTrend5 => .trend5
  | .btcTrend5Vt => .trend5
  | .bhBtc => .trend5

/-- The rule that a rule is compared with. -/
def comparator : Rule → Option Rule
  | .ens => some .bh5050
  | .ensVt => some .bh5050
  | .bh5050 => none
  | .btcTrend5 => some .bhBtc
  | .btcTrend5Vt => some .bhBtc
  | .bhBtc => none

/-- The typed strategy ports of a rule, one for each asset it holds. -/
def sleeves {F : Type} [PyFloat F] : Rule → List (Asset × Strategy F)
  | .ens => [(.btc, .ens "BTCUSDT" none), (.eth, .ens "ETHUSDT" none)]
  | .ensVt => [(.btc, .ens "BTCUSDT" (some ensVolTarget)), (.eth, .ens "ETHUSDT" (some ensVolTarget))]
  | .bh5050 => [(.btc, .buyAndHold "BTCUSDT"), (.eth, .buyAndHold "ETHUSDT")]
  | .btcTrend5 => [(.btc, .btcTrend5)]
  | .btcTrend5Vt => [(.btc, .btcTrend5Vt)]
  | .bhBtc => [(.btc, .buyAndHold btcusdt)]

/-- The assets of a rule. -/
def assets : Rule → List Asset
  | .ens => [.btc, .eth]
  | .ensVt => [.btc, .eth]
  | .bh5050 => [.btc, .eth]
  | .btcTrend5 => [.btc]
  | .btcTrend5Vt => [.btc]
  | .bhBtc => [.btc]

end Rule

/-- `book_id`. -/
def bookId (quote : Quote) (rule : Rule) (fee : Fee) : String :=
  quote.text ++ "|" ++ rule.text ++ "|" ++ fee.text

/-- A rule traded in one quote at one fee. -/
structure Book where
  quote : Quote
  rule : Rule
  fee : Fee
  deriving DecidableEq, Repr

namespace Book

/-- The id of a book. -/
def id (book : Book) : String := bookId book.quote book.rule book.fee

/-- The id of the book that a book is compared with. -/
def comparator (book : Book) : Option String :=
  book.rule.comparator.map fun rule => bookId book.quote rule book.fee

end Book

/-- The 24 books of a day, in the order of their records. -/
def books : List Book :=
  Quote.all.flatMap fun quote => Rule.all.flatMap fun rule => Fee.all.map fun fee => ⟨quote, rule, fee⟩

/-! ## Market data -/

variable {F : Type} [PyFloat F]

/-- One symbol's closed daily bars (ascending) and, separately, the open of the still-open
day. -/
structure DailySeries (F : Type) [PyFloat F] where
  symbol : String
  closed : List (Bar F)
  live : Option (Date × F)
  ascending : closed.Pairwise fun earlier later => earlier.openTimeMs < later.openTimeMs
  livePriced : ∀ day price, live = some (day, price) →
    PyFloat.isFinite price = true ∧ PyFloat.lt 0.0 price = true
  liveLast : ∀ day price, live = some (day, price) → ∀ bar ∈ closed, bar.openTimeMs < dayOpenMs day
  dated : ∀ bar ∈ closed, (utcDay? bar.openTimeMs).isSome

namespace DailySeries

/-- A series without bars. -/
def empty (symbol : String) : DailySeries F where
  symbol := symbol
  closed := []
  live := none
  ascending := List.Pairwise.nil
  livePriced := by simp
  liveLast := by simp
  dated := by simp

/-- A live day has an open, and an open has a day. -/
def livePair (symbol : String) (liveDay : Option Date) (liveOpen : Option F) :
    Except PaperFailure (Option (Date × F)) :=
  match liveDay, liveOpen with
  | none, none => .ok none
  | some day, some price => .ok (some (day, price))
  | _, _ => .error (.paper .invalidMarket (symbol ++ ": live day and live open go together"))

/-- The constructor with its checks. -/
def make (symbol : String) (closed : List (Bar F)) (liveDay : Option Date) (liveOpen : Option F) :
    Except PaperFailure (DailySeries F) :=
  match livePair symbol liveDay liveOpen with
  | .error failure => .error failure
  | .ok live =>
      if ascending : closed.Pairwise fun earlier later => earlier.openTimeMs < later.openTimeMs then
        if livePriced : ∀ pair ∈ live,
            PyFloat.isFinite pair.2 = true ∧ PyFloat.lt 0.0 pair.2 = true then
          if liveLast : ∀ pair ∈ live, ∀ bar ∈ closed, bar.openTimeMs < dayOpenMs pair.1 then
            if dated : ∀ bar ∈ closed, (utcDay? bar.openTimeMs).isSome then
              .ok ⟨symbol, closed, live, ascending, fun day price found => livePriced (day, price) found,
                fun day price found => liveLast (day, price) found, dated⟩
            else .error (.engine .overflow)
          else .error (.paper .invalidMarket (symbol ++ ": live day is not after the closed bars"))
        else .error (.paper .invalidMarket (symbol ++ ": invalid live open"))
      else .error (.paper .invalidMarket (symbol ++ ": bars are not strictly ascending"))

/-- The closes by day; the last bar of a day decides. -/
def closes (series : DailySeries F) : Dict (Option Date) F :=
  Dict.ofItems (series.closed.map fun bar => (utcDay? bar.openTimeMs, bar.close))

/-- The opens by day, that of the live day included. -/
def opens (series : DailySeries F) : Dict (Option Date) F :=
  let closed := Dict.ofItems (series.closed.map fun bar => (utcDay? bar.openTimeMs, bar.openPrice))
  match series.live with
  | none => closed
  | some (day, price) => closed.assign (some day) price

/-- The close of a day. -/
def closeOn (series : DailySeries F) (day : Date) : Option F := series.closes.get? (some day)

/-- The open of a day. -/
def openOn (series : DailySeries F) (day : Date) : Option F := series.opens.get? (some day)

/-- The bars that opened before a day. -/
def closedBefore (series : DailySeries F) (day : Date) : List (Bar F) :=
  series.closed.filter fun bar => bar.openTimeMs < dayOpenMs day

/-- The close of a day before `day` is that of the last bar of that day among those that opened
before `day`. -/
theorem closeOn_eq (series : DailySeries F) {earlier day : Date} (before : earlier < day) :
    series.closeOn earlier =
      ((series.closedBefore day).reverse.find? fun bar => utcDay? bar.openTimeMs = some earlier).map
        Bar.close := by
  have sameBars : (fun bar : Bar F => decide (utcDay? bar.openTimeMs = some earlier)) =
      fun bar => decide (bar.openTimeMs < dayOpenMs day) &&
        decide (utcDay? bar.openTimeMs = some earlier) := by
    funext bar
    by_cases onDay : utcDay? bar.openTimeMs = some earlier
    · have opened := (lt_dayOpenMs_iff onDay).mpr before
      simp [onDay, opened]
    · simp [onDay]
  unfold closeOn closes closedBefore
  rw [Dict.get?_ofItems, ← List.map_reverse, List.find?_map, Option.map_map,
    ← List.filter_reverse, List.find?_filter]
  simp only [Function.comp_def]
  rw [sameBars]
  simp

/-- The open of a day is that of the live day, if it is the day, or else that of the last bar of
the day. -/
theorem openOn_eq (series : DailySeries F) (day : Date) :
    series.openOn day = ((series.live.filter fun pair => pair.1 = day).map Prod.snd).or
      ((series.closed.reverse.find? fun bar => utcDay? bar.openTimeMs = some day).map
        Bar.openPrice) := by
  have closed : (Dict.ofItems (series.closed.map fun bar =>
      (utcDay? bar.openTimeMs, bar.openPrice))).get? (some day) =
      (series.closed.reverse.find? fun bar => utcDay? bar.openTimeMs = some day).map
        Bar.openPrice := by
    rw [Dict.get?_ofItems, ← List.map_reverse, List.find?_map, Option.map_map]
    rfl
  unfold openOn opens
  cases series.live with
  | none => exact closed
  | some pair =>
      simp only [Dict.get?_assign, closed, Option.some.injEq, Option.filter_some, decide_eq_true_eq]
      split <;> rfl

end DailySeries

/-- The daily series of each symbol. -/
abbrev Market (F : Type) [PyFloat F] := Dict String (DailySeries F)

/-- `_series`: the series of the symbol, without bars if the market has none. -/
def seriesOf (market : Market F) (symbol : String) : Except PaperFailure (DailySeries F) :=
  match market.get? symbol with
  | none => .ok (DailySeries.empty symbol)
  | some series =>
      if series.symbol = symbol then .ok series
      else .error (.paper .invalidMarket (symbol ++ " holds " ++ series.symbol))

end CryptoRadar.Trend
