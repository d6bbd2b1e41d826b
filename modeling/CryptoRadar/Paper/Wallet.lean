import CryptoRadar.Paper.Domain
import CryptoRadar.Risk.Sizing

/-!
# The wallet of the paper game and the result of a play

The rest of `domain/paper.py`: what a play earns between its entry and its exit, the balance of
the wallet, the cash its open plays leave, and the admission of a new play.
-/

set_option autoImplicit false

namespace CryptoRadar.Paper

open Checked
open Risk (DirectionValue)

inductive SkipReason where
  | alreadyRecorded
  | noDirection
  | invalidPrice
  | noValidAtr
  | invalidLevels
  | assetAlreadyOpen
  | maxOpen
  | insufficientCash
  deriving DecidableEq, Repr

/-- What admission needs to know about a play that has no close yet. -/
structure OpenPosition where
  asset : String
  stake : Decimal
  deriving DecidableEq

/-- `LONG` or `SHORT` exactly. -/
def parseDirection : DirectionValue → Option Direction
  | .text given =>
      if given = Direction.long.text then some .long
      else if given = Direction.short.text then some .short
      else none
  | _ => none

/-! ## Results -/

/-- The cent amounts of one closed play. -/
structure PlayResult where
  entryPrice : Decimal
  exitPrice : Decimal
  grossMid : Decimal
  spreadCost : Decimal
  fees : Decimal
  net : Decimal
  outcome : Outcome
  deriving DecidableEq

def Quote.mid (quote : Quote) : Except DecimalError Decimal := do
  let both ← Decimal.add paperContext quote.bid quote.ask
  Decimal.div paperContext both (.ofNat 2)

def touchPrices (direction : Direction) (entry exit : Quote) : Decimal × Decimal :=
  match direction with
  | .long => (entry.ask, exit.bid)
  | .short => (entry.bid, exit.ask)

/-- The gain at the mid and at the touch. -/
def gains (direction : Direction) (stake move entryPrice exitPrice : Decimal) :
    Except DecimalError (Decimal × Decimal) :=
  match direction with
  | .long => do
      let moved ← Decimal.sub paperContext move (.ofNat 1)
      let grossMid ← Decimal.mul paperContext stake moved
      let share ← Decimal.div paperContext exitPrice entryPrice
      let gained ← Decimal.sub paperContext share (.ofNat 1)
      let priceResult ← Decimal.mul paperContext stake gained
      return (grossMid, priceResult)
  | .short => do
      let moved ← Decimal.sub paperContext (.ofNat 1) move
      let grossMid ← Decimal.mul paperContext stake moved
      let difference ← Decimal.sub paperContext entryPrice exitPrice
      let product ← Decimal.mul paperContext stake difference
      let priceResult ← Decimal.div paperContext product entryPrice
      return (grossMid, priceResult)

/-- The sums of `settle`, after its checks. -/
def settleAmounts (direction : Direction) (stake feeBps : Decimal) (entry exit : Quote) :
    Except DecimalError PlayResult := do
  let fraction ← Decimal.div paperContext feeBps bps
  let exitMid ← exit.mid
  let entryMid ← entry.mid
  let move ← Decimal.div paperContext exitMid entryMid
  let (entryPrice, exitPrice) := touchPrices direction entry exit
  let (grossMid, priceResult) ← gains direction stake move entryPrice exitPrice
  let exitValue ← Decimal.mul paperContext stake exitPrice
  let exitNotional ← Decimal.div paperContext exitValue entryPrice
  let entryFee ← Decimal.mul paperContext stake fraction
  let exitFee ← Decimal.mul paperContext exitNotional fraction
  let fees ← Decimal.add paperContext entryFee exitFee
  let grossCents ← cents grossMid
  let spread ← Decimal.sub paperContext grossMid priceResult
  let spreadCents ← cents spread
  let feeCents ← cents fees
  let afterSpread ← Decimal.sub paperContext grossCents spreadCents
  let net ← Decimal.sub paperContext afterSpread feeCents
  let outcome := if Decimal.lt zero net then .win else if Decimal.lt net zero then .loss else .flat
  return ⟨entryPrice, exitPrice, grossCents, spreadCents, feeCents, net, outcome⟩

/-- The result of a play that entered on one quote and exits on another. -/
def settle (direction : Direction) (stake feeBps : Decimal) (entry exit : Quote) :
    Except PaperFailure PlayResult := do
  requireAmount "stake" stake false
  requireAmount "fee_bps" feeBps true
  calculated (settleAmounts direction stake feeBps entry exit)

/-! ## Balance and admission -/

/-- The recorded start plus the recorded net of every closed play. -/
def balance (startBalance : Decimal) (nets : List Decimal) : Except PaperFailure Decimal := do
  requireAmount "start_balance" startBalance false
  calculated (nets.foldlM (Decimal.add paperContext) startBalance)

/-- The balance minus the stakes of the plays still open. -/
def availableCash (currentBalance : Decimal) (openPositions : List OpenPosition) :
    Except DecimalError Decimal := do
  let tied ← (openPositions.map OpenPosition.stake).foldlM (Decimal.add paperContext) zero
  Decimal.sub paperContext currentBalance tied

/-- None when a new play may open, else the first rule it breaks. -/
def admitPlay (direction : DirectionValue) (asset : String) (openPositions : List OpenPosition)
    (currentBalance stake : Decimal) (maxOpen : ℤ) : Except PaperFailure (Option SkipReason) := do
  requireAmount "stake" stake false
  ensure (0 < maxOpen) (.input "max_open" ("must be a positive int, got " ++ toString maxOpen))
  if (parseDirection direction).isNone then return some .noDirection
  else if openPositions.any fun position => position.asset = asset then
    return some .assetAlreadyOpen
  else if maxOpen ≤ openPositions.length then return some .maxOpen
  else
    let cash ← calculated (availableCash currentBalance openPositions)
    return if Decimal.lt cash stake then some .insufficientCash else none

end CryptoRadar.Paper
