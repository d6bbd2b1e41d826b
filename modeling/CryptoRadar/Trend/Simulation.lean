import CryptoRadar.Trend.Strategies
import Mathlib.Data.List.Sort

/-!
# The backtest of a daily rule

`domain/trend_engine.py`: the price of a day (`Panel.price`), what the engine asks of a strategy
(`StrategyProtocol`), the FIFO lots of the tax (`FifoTax`), and the simulation in units
(`simulateUnits`): positions drift with the prices, an instrument trades when it is out of its
band, sells run before buys, and buys are scaled so that the fees never borrow.

One simulated day is `simulateDay`, and `simulateUnits` runs it over the days. What a day does is
told by the small definitions it is made of: the target (`targetsOf`, `validate`), the orders
(`orderFor`), one trade (`Account.trade`), and the scale of the buys (`buyScale`).
-/

set_option autoImplicit false

namespace CryptoRadar.Trend

open Checked PyFloat

/-! ## Prices and days -/

section Prices

variable {F : Type}

namespace Panel

/-- `open_at[instrument][index]`: the open of a day; none where the instrument has no bar. -/
def openOf (panel : Panel F) (instrument : String) (index : ℕ) : Except EngineFailure (Option F) := do
  let opens ← require .key (panel.openAt.get? instrument)
  require .index opens[index]?

/-- The close of the last bar that a decision sees. -/
def lastClose (panel : Panel F) (instrument : String) (index : ℕ) : Except EngineFailure F := do
  let times ← require .key (panel.openTimes.get? instrument)
  let now ← require .index panel.times[index]?
  let seen := bisectLeft times now
  if seen = 0 then
    let day ← require .index panel.dates[index]?
    throw (.engine .noBarToTrade (instrument ++ " has no price on " ++ day.isoformat))
  let rows ← require .key (panel.rows.get? instrument)
  let bar ← require .index rows[seen - 1]?
  return bar.close

/-- The open of a day, or the previous close where the instrument has no bar that day. -/
def price (panel : Panel F) (instrument : String) (index : ℕ) : Except EngineFailure F := do
  match ← panel.openOf instrument index with
  | some price => return price
  | none => panel.lastClose instrument index

end Panel

/-- A pure daily rule: same history, same weights. -/
structure StrategyProtocol (F : Type) where
  name : String
  universe_ : List String
  warmupDays : ℕ
  band : F
  maxGross : F
  weights : History F → Except SignalFailure (Dict String F)

end Prices

section Simulation

variable {F : Type} [PyFloat F]

/-- `GROSS_TOLERANCE`. -/
def grossTolerance : F := 1e-9

/-- `LOT_EPSILON`. -/
def lotEpsilon : F := 1e-15

/-- `PT_SHORT_TERM_RATE`. -/
def ptShortTermRate : F := 0.28

/-- `PT_EXEMPT_HOLDING_DAYS`. -/
def ptExemptHoldingDays : ℤ := 365

/-! ## Tax -/

/-- An open lot: signed quantity, unit cost with the buy fee, and the day it was acquired. -/
structure TaxLot (F : Type) where
  qty : F
  unitCost : F
  day : Date

/-- The open lots, and the taxable gains of each year. -/
structure FifoTax (F : Type) where
  lots : Dict String (List (TaxLot F))
  realized : Dict ℕ F

/-- No lots and no gains. -/
def FifoTax.empty : FifoTax F := ⟨[], []⟩

/-- `_book`. -/
def bookGain (realized : Dict ℕ F) (year : ℕ) (amount : F) : Dict ℕ F :=
  realized.assign year ((realized.get? year).getD 0.0 + amount)

/-- A trade that is matched with the open lots: the lots, the rest of the trade and the gains. -/
structure Matching (F : Type) where
  lots : List (TaxLot F)
  rest : F
  realized : Dict ℕ F

/-- The loop goes on: something is left, and the front lot is of the other side. -/
def Matching.continues (matching : Matching F) : Bool :=
  match matching.lots with
  | [] => false
  | lot :: _ => !PyFloat.eq matching.rest 0.0 &&
      (PyFloat.lt 0.0 lot.qty != PyFloat.lt 0.0 matching.rest)

/-- One turn of the loop: a part of the front lot is taken. -/
def Matching.turn (price feeUnit : F) (day : Date) (matching : Matching F) : Matching F :=
  match matching.lots with
  | [] => matching
  | lot :: later =>
      let sign : F := if PyFloat.lt 0.0 lot.qty then 1.0 else 0.0 - 1.0
      let take := smaller (PyFloat.abs matching.rest) (PyFloat.abs lot.qty)
      let gain := sign * take * (price - lot.unitCost) - take * feeUnit
      let realized := if day.daysSince lot.day < ptExemptHoldingDays
        then bookGain matching.realized day.ymd.1 gain else matching.realized
      let qty := lot.qty - sign * take
      let rest := matching.rest + sign * take
      ⟨if PyFloat.lt (PyFloat.abs qty) lotEpsilon then later else { lot with qty := qty } :: later,
        if PyFloat.lt (PyFloat.abs rest) lotEpsilon then 0.0 else rest, realized⟩

/-- The loop of at most so many turns. -/
def Matching.run (price feeUnit : F) (day : Date) : ℕ → Matching F → Matching F
  | 0, matching => matching
  | turns + 1, matching =>
      if matching.continues then Matching.run price feeUnit day turns (matching.turn price feeUnit day)
      else matching

/-- `FifoTax.trade`. A turn takes the front lot away or leaves nothing of the trade, so there is
one turn for each lot at most. -/
def FifoTax.trade (taxbook : FifoTax F) (instrument : String) (qty price feeCost : F) (day : Date) :
    Except NumberError (FifoTax F) := do
  if PyFloat.eq qty 0.0 then return taxbook
  let lots := (taxbook.lots.get? instrument).getD []
  let feeUnit ← divide feeCost (PyFloat.abs qty)
  let matched := Matching.run price feeUnit day (lots.length + 1) ⟨lots, qty, taxbook.realized⟩
  let lots :=
    if PyFloat.eq matched.rest 0.0 then matched.lots
    else
      let sign : F := if PyFloat.lt 0.0 matched.rest then 1.0 else 0.0 - 1.0
      matched.lots ++ [⟨matched.rest, price + sign * feeUnit, day⟩]
  return ⟨taxbook.lots.assign instrument lots, matched.realized⟩

/-- The tax on the gains of a year. -/
def FifoTax.taxFor (taxbook : FifoTax F) (year : ℕ) : F :=
  ptShortTermRate * larger 0.0 ((taxbook.realized.get? year).getD 0.0)

/-! ## Targets -/

/-- The weights that are not 0. -/
def targetsOf (strategy : StrategyProtocol F) (history : History F) :
    Except SignalFailure (Dict String F) := do
  let weights ← strategy.weights history
  return weights.filter fun item => !PyFloat.eq item.2 0.0

/-- The checks of one weight; the sum of the weights so far and this one. -/
def validateWeight (strategy : StrategyProtocol F) (panel : Panel F) (index : ℕ) (today : Date)
    (gross : F) (item : String × F) : Except SignalFailure F := do
  let (instrument, weight) := item
  let fail (code : EngineErrorCode) (detail : String) : SignalFailure :=
    .engine (.engine code (strategy.name ++ ": " ++ detail))
  ensure (instrument ∈ strategy.universe_)
    (fail .unknownInstrument ("weight for " ++ instrument ++ " outside its universe"))
  ensure (isSpot instrument = true) (fail .notSpot (instrument ++ " is not a spot instrument"))
  ensure (isFinite weight = true)
    (fail .invalidWeight ("non-finite weight for " ++ instrument ++ " on " ++ today.isoformat))
  ensure (PyFloat.lt weight 0.0 = false)
    (fail .invalidWeight ("negative spot weight for " ++ instrument))
  if PyFloat.eq weight 0.0 then return gross + PyFloat.abs weight
  let found ← engine (panel.openOf instrument index)
  ensure (found.isSome = true)
    (fail .noBarToTrade ("weight for " ++ instrument ++ " on " ++ today.isoformat ++ " without a bar"))
  return gross + PyFloat.abs weight

/-- `_validate`. The numbers in the text of `GROSS_EXCEEDED` are left out. -/
def validate (target : Dict String F) (strategy : StrategyProtocol F) (panel : Panel F) (index : ℕ)
    (today : Date) (maxGross : F) : Except SignalFailure Unit := do
  let gross ← target.foldlM (validateWeight strategy panel index today) 0.0
  ensure (PyFloat.lt (maxGross + grossTolerance) gross = false)
    (.engine (.engine .grossExceeded (strategy.name ++ ": gross")))

/-! ## Trading -/

/-- What a simulation is run with. -/
structure Backtest (F : Type) where
  strategy : StrategyProtocol F
  panel : Panel F
  band : F
  maxGross : F
  cost : F
  tax : Bool

/-- The cash, the positions and the lots. -/
structure Account (F : Type) where
  cash : F
  qty : Dict String F
  taxbook : FifoTax F
  trades : ℕ

/-- The quantity of an instrument. -/
def Account.held (account : Account F) (instrument : String) : F :=
  (account.qty.get? instrument).getD 0.0

/-- What the positions are worth at their opens. -/
def positionValues (panel : Panel F) (qty : Dict String F) (index : ℕ) :
    Except EngineFailure (List F) :=
  qty.mapM fun item => do
    let price ← panel.price item.1 index
    return item.2 * price

/-- `equity`: the cash and the value of the positions. -/
def Account.equity (account : Account F) (panel : Panel F) (index : ℕ) : Except EngineFailure F := do
  let values ← positionValues panel account.qty index
  return account.cash + PyFloat.sum values

/-- A trade is booked for tax, where there is tax. -/
def taxTrade (run : Backtest F) (index : ℕ) (taxbook : FifoTax F) (instrument : String)
    (quantity price feeCost : F) : Except SignalFailure (FifoTax F) := do
  if run.tax then
    let day ← engine (require .index run.panel.dates[index]?)
    number (taxbook.trade instrument quantity price feeCost day)
  else return taxbook

/-- `trade`: the account after it and the absolute notional. -/
def Account.trade (run : Backtest F) (index : ℕ) (account : Account F) (instrument : String)
    (quantity : F) : Except SignalFailure (Account F × F) := do
  let price ← engine (run.panel.price instrument index)
  let notional := quantity * price
  let feeCost := PyFloat.abs notional * run.cost
  let taxbook ← taxTrade run index account.taxbook instrument quantity price feeCost
  return (⟨account.cash - (notional + feeCost),
    account.qty.assign instrument (account.held instrument + quantity), taxbook,
    account.trades + 1⟩, PyFloat.abs notional)

/-- Trades one after the other, with the sum of their notionals. -/
def tradeAll (run : Backtest F) (index : ℕ) (done : Account F × F) (orders : List (String × F)) :
    Except SignalFailure (Account F × F) :=
  orders.foldlM (fun done order => do
    let (account, notional) ← done.1.trade run index order.1 order.2
    return (account, done.2 + notional)) done

/-- A quantity to trade at a price. -/
structure Order (F : Type) where
  instrument : String
  quantity : F
  price : F

/-- The order of an instrument: none inside its band, and none where it has no bar today. -/
def orderFor (run : Backtest F) (index : ℕ) (account : Account F) (equity : F)
    (target : Dict String F) (instrument : String) : Except SignalFailure (Option (Order F)) := do
  let weight := (target.get? instrument).getD 0.0
  let price ← engine (run.panel.price instrument index)
  let current ← number (divide (account.held instrument * price) equity)
  if PyFloat.le run.band (PyFloat.abs (weight - current)) ||
      (PyFloat.eq weight 0.0 && !PyFloat.eq current 0.0) then
    match ← engine (run.panel.openOf instrument index) with
    | none => return none
    | some _ =>
        let wanted ← number (divide (weight * equity) price)
        return some ⟨instrument, wanted - account.held instrument, price⟩
  else return none

/-- The instruments with a target or a position, in order. -/
def involved (target qty : Dict String F) : List String :=
  (target.map Prod.fst ++ (qty.filter fun item => !PyFloat.eq item.2 0.0).map Prod.fst).dedup
    |>.insertionSort (· ≤ ·)

/-- The part of the buys that the cash pays for with their fees. -/
def buyScale (cost cash : F) (buys : List (Order F)) : Except NumberError F := do
  let need := PyFloat.sum (buys.map fun order => order.quantity * order.price * (1.0 + cost))
  let available := larger cash 0.0
  if PyFloat.lt available need then
    let part ← divide available need
    return smaller 1.0 part
  else return 1.0

/-- The trades of a day: sells first, so that their cash funds the buys. -/
def rebalance (run : Backtest F) (index : ℕ) (account : Account F) (equity : F)
    (target : Dict String F) : Except SignalFailure (Account F × F) := do
  let found ← (involved target account.qty).mapM (orderFor run index account equity target)
  let orders := found.filterMap id
  let sells := orders.filter fun order => PyFloat.lt order.quantity 0.0
  let sold ← tradeAll run index (account, 0.0)
    (sells.map fun order => (order.instrument, order.quantity))
  let buys := orders.filter fun order => PyFloat.lt 0.0 order.quantity
  let scale ← number (buyScale run.cost sold.1.cash buys)
  tradeAll run index sold (buys.map fun order => (order.instrument, order.quantity * scale))

/-- An account that is worth something is brought to its target. -/
def tradeToday (run : Backtest F) (index : ℕ) (account : Account F) (equity : F)
    (target : Dict String F) : Except SignalFailure (Account F × F) :=
  if PyFloat.lt 0.0 equity then rebalance run index account equity target else .ok (account, 0.0)

/-! ## The simulation -/

/-- What a simulation carries from day to day. -/
structure SimState (F : Type) where
  account : Account F
  paidYears : List ℕ
  taxPaid : F
  turnover : F
  expo : F
  equityMarks : List F
  targets : List (Dict String F)

/-- An account with one unit of cash. -/
def SimState.start : SimState F := ⟨⟨1.0, [], .empty, 0⟩, [], 0.0, 0.0, 0.0, [], []⟩

/-- `pay_tax`: spot is sold pro rata when the cash is short. -/
def payTax (run : Backtest F) (state : SimState F) (year index : ℕ) :
    Except SignalFailure (SimState F) := do
  let due := state.account.taxbook.taxFor year
  let state := { state with paidYears := state.paidYears ++ [year] }
  if PyFloat.le due 0.0 then return state
  let account := { state.account with cash := state.account.cash - due }
  let state := { state with account := account, taxPaid := state.taxPaid + due }
  if PyFloat.lt account.cash 0.0 then
    let spot := account.qty.filter fun item => PyFloat.lt 0.0 item.2
    let values ← engine (positionValues run.panel spot index)
    let value := PyFloat.sum values
    if PyFloat.lt 0.0 value then
      let part ← number (divide (0.0 - account.cash) (value * (1.0 - run.cost)))
      let frac := smaller 1.0 part
      let sold ← tradeAll run index (account, 0.0)
        (spot.map fun item => (item.1, (0.0 - item.2) * frac))
      return { state with account := sold.1 }
    else return state
  else return state

/-- The tax of the year before, on the first day of a year that is not the first day of the run. -/
def yearEnd (run : Backtest F) (state : SimState F) (index : ℕ) :
    Except SignalFailure (SimState F) := do
  if run.tax && !state.equityMarks.isEmpty then
    let today ← engine (require .index run.panel.dates[index]?)
    let yesterday ← engine (require .index run.panel.dates[index - 1]?)
    if today.ymd.1 ≠ yesterday.ymd.1 then payTax run state yesterday.ymd.1 index else return state
  else return state

/-- A share of the equity, if there is any. -/
def share (amount equity : F) : Except SignalFailure F :=
  if PyFloat.lt 0.0 equity then number (divide amount equity) else .ok 0.0

/-- One day of a simulation. -/
def simulateDay (run : Backtest F) (state : SimState F) (index : ℕ) :
    Except SignalFailure (SimState F) := do
  let state ← yearEnd run state index
  let equity ← engine (state.account.equity run.panel index)
  let history ← engine (History.build run.panel index)
  let target ← targetsOf run.strategy history
  validate target run.strategy run.panel index history.today run.maxGross
  let (account, traded) ← tradeToday run index state.account equity target
  let turned ← share traded equity
  let values ← engine (positionValues run.panel account.qty index)
  let exposed ← share (PyFloat.sum (values.map PyFloat.abs)) equity
  return { state with
    account := account
    turnover := state.turnover + turned
    expo := state.expo + exposed
    equityMarks := state.equityMarks ++ [equity]
    targets := state.targets ++ [target] }

/-- Daily returns; `equity` holds the open marks, one more than the returns. -/
structure Simulation (F : Type) where
  rets : List F
  days : List Date
  turnover : F
  exposureSum : F
  taxPaid : F
  trades : ℕ
  realizedByYear : Dict ℕ F
  targets : List (Dict String F)
  equity : List F

/-- The taxes of the years that are not paid yet, at the end of the run. -/
def finalTaxes (run : Backtest F) (state : SimState F) (last : ℕ) :
    Except SignalFailure (SimState F) :=
  if run.tax then
    ((state.account.taxbook.realized.map Prod.fst).insertionSort (· ≤ ·)).foldlM (fun state year =>
      if year ∈ state.paidYears then pure state else payTax run state year last) state
  else .ok state

/-- `equity[k + 1] / equity[k] - 1` for each day. -/
def returnsOf (marks : List F) : Except NumberError (List F) :=
  (marks.zip marks.tail).mapM fun (earlier, later) => do
    let ratio ← divide later earlier
    return ratio - 1.0

/-- `_simulate_units`. -/
def simulateUnits (run : Backtest F) (daysIdx : List ℕ) : Except SignalFailure (Simulation F) := do
  let state ← daysIdx.foldlM (simulateDay run) .start
  let last ← engine (require .index daysIdx.getLast?)
  let state ← finalTaxes run state (last + 1)
  let equity ← engine (state.account.equity run.panel (last + 1))
  let marks := state.equityMarks ++ [equity]
  let rets ← number (returnsOf marks)
  let days ← daysIdx.mapM fun index => engine (require .index run.panel.dates[index]?)
  return {
    rets := rets
    days := days
    turnover := state.turnover
    exposureSum := state.expo
    taxPaid := state.taxPaid
    trades := state.account.trades
    realizedByYear := state.account.taxbook.realized
    targets := state.targets
    equity := marks }

end Simulation

end CryptoRadar.Trend
