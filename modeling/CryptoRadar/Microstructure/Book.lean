import CryptoRadar.Lib.Number

/-!
# Metrics of an order book

The first part of `microstructure.py`: the depth near the mid, the walk of one side for a reference amount
of dollars, and the slippage that `compute_depth_metrics` derives from it. A level is a price and a volume,
and a side lists its best level first.
-/

set_option autoImplicit false

namespace CryptoRadar.Microstructure

/-- The side names `"bid"` and `"ask"`. -/
inductive BookSide where
  | bid
  | ask
  deriving DecidableEq, Repr

inductive DepthQuality where
  | ok
  | thinBook
  | unavailable
  deriving DecidableEq, Repr

structure DepthMetrics (F : Type) where
  mid : F
  spreadBps : Option F
  bidDepthUsd05pct : F
  askDepthUsd05pct : F
  bidDepthUsd1pct : F
  askDepthUsd1pct : F
  /-- From `-1`, all on the ask side, to `+1`, all on the bid side, within one percent. -/
  imbalance : Option F
  slippageBuyBps : Option F
  slippageSellBps : Option F
  depthAvailableAtReference : Bool
  quality : DepthQuality
  deriving DecidableEq, Repr

section Functions

variable {F : Type} [PyFloat F]

/-- The dollars of the levels within `bandPct` percent of the mid. -/
def depthUsdWithinBand (levels : List (F × F)) (mid bandPct : F) (side : BookSide) :
    Except NumberError F :=
  if PyFloat.le mid 0.0 then return 0.0
  else do
    let band ← PyFloat.divide bandPct 100.0
    let lower := mid * (1.0 - band)
    let upper := mid * (1.0 + band)
    return levels.foldl (fun total (price, volume) =>
      match side with
      | .bid => if PyFloat.le lower price then total + price * volume else total
      | .ask => if PyFloat.le price upper then total + price * volume else total) 0.0

/-- `first / second if second > 0 else None`. -/
def ratioIfPositive (first second : F) : Except NumberError (Option F) :=
  if PyFloat.lt 0.0 second then return some (← PyFloat.divide first second) else return none

/-- The loop of `_walk_book_for_fill`, with what it has filled so far. -/
def walkLevels (referenceUsd : F) : List (F × F) → F → F → Except NumberError (Option F × Bool)
  | [], filledUsd, filledBase => return (← ratioIfPositive filledUsd filledBase, false)
  | (price, volume) :: rest, filledUsd, filledBase =>
      let levelUsd := price * volume
      if PyFloat.le referenceUsd (filledUsd + levelUsd) then do
        let remainingUsd := referenceUsd - filledUsd
        let remainingBase ←
          if PyFloat.lt 0.0 price then PyFloat.divide remainingUsd price else pure 0.0
        return (← ratioIfPositive (filledUsd + remainingUsd) (filledBase + remainingBase), true)
      else walkLevels referenceUsd rest (filledUsd + levelUsd) (filledBase + volume)

/-- The average price of a fill of `referenceUsd`, and whether the levels fill it. -/
def walkBookForFill (levels : List (F × F)) (referenceUsd : F) :
    Except NumberError (Option F × Bool) :=
  match levels with
  | [] => return (none, false)
  | _ :: _ => walkLevels referenceUsd levels 0.0 0.0

/-- `formula(price) if price else None`. -/
def slippage (price : Option F) (formula : F → Except NumberError F) :
    Except NumberError (Option F) :=
  match price with
  | none => return none
  | some price => if PyFloat.eq price 0.0 then return none else return some (← formula price)

/-- The metrics of a book, `none` where it has no usable best prices. -/
def computeDepthMetrics (bids asks : List (F × F)) (referenceUsd : F) :
    Except NumberError (Option (DepthMetrics F)) :=
  match bids, asks with
  | (bestBid, _) :: _, (bestAsk, _) :: _ =>
      if PyFloat.le bestBid 0.0 || PyFloat.le bestAsk 0.0 || PyFloat.lt bestAsk bestBid then
        return none
      else do
        let mid ← PyFloat.divide (bestBid + bestAsk) 2.0
        let spread ← ratioIfPositive (bestAsk - bestBid) mid
        let spreadBps := spread.map (· * 10000.0)
        let bid05 ← depthUsdWithinBand bids mid 0.5 .bid
        let ask05 ← depthUsdWithinBand asks mid 0.5 .ask
        let bid1 ← depthUsdWithinBand bids mid 1.0 .bid
        let ask1 ← depthUsdWithinBand asks mid 1.0 .ask
        let total1pct := bid1 + ask1
        let imbalance ← ratioIfPositive (bid1 - ask1) total1pct
        let (slipBuyPrice, buyFilled) ← walkBookForFill asks referenceUsd
        let (slipSellPrice, sellFilled) ← walkBookForFill bids referenceUsd
        let slippageBuyBps ← slippage slipBuyPrice fun price => do
          let ratio ← PyFloat.divide price bestAsk
          return (ratio - 1.0) * 10000.0
        let slippageSellBps ← slippage slipSellPrice fun price => do
          let ratio ← PyFloat.divide price bestBid
          return (1.0 - ratio) * 10000.0
        let depthAvailableAtReference := buyFilled && sellFilled
        return some
          { mid, spreadBps
            bidDepthUsd05pct := bid05
            askDepthUsd05pct := ask05
            bidDepthUsd1pct := bid1
            askDepthUsd1pct := ask1
            imbalance, slippageBuyBps, slippageSellBps, depthAvailableAtReference
            quality := if depthAvailableAtReference then .ok else .thinBook }
  | _, _ => return none

end Functions

end CryptoRadar.Microstructure
