import CryptoRadar.Lib.DecimalValue
import CryptoRadar.Risk.Sizing

/-!
# Equity, locks and settlement

The last part of `domain/risk.py`: the equity and the cash of the account, the two loss locks and
the settlement of a closed position. A lock trips on an inequality of the equity, a reference and
a limit (`tripInequality`); the functions here only report it.

The inequality reads values: it does not change when its numbers are written as text and read
back (`tripInequality_alike`).
-/

set_option autoImplicit false

namespace CryptoRadar.Risk

open Checked
open Paper (Outcome bps cents zero)

/-! ## Equity -/

/-- What buying took from cash: the notional plus the entry fee in cents. -/
def entryCostBasis (quantity entryAsk feeBps : Decimal) : Except RiskFailure Decimal := do
  requirePositive "quantity" quantity
  requirePositive "entry_ask" entryAsk
  requireNonnegative "fee_bps" feeBps
  let notional ← computed (Decimal.mul riskContext quantity entryAsk)
  let product ← computed (Decimal.mul riskContext notional feeBps)
  let fee ← computed (Decimal.div riskContext product bps)
  let rounded ← computed (cents fee)
  computed (Decimal.add riskContext notional rounded)

/-- Conservative mark of an open position: the exit fee is rounded up. -/
def unrealizedMark (quantity bid costBasis feeBps : Decimal) : Except RiskFailure Decimal := do
  requirePositive "quantity" quantity
  requirePositive "bid" bid
  requirePositive "cost_basis" costBasis
  requireNonnegative "fee_bps" feeBps
  let proceeds ← computed (Decimal.mul riskContext quantity bid)
  let product ← computed (Decimal.mul riskContext proceeds feeBps)
  let fee ← computed (Decimal.div riskContext product bps)
  let rounded ← computed (centsUp fee)
  let left ← computed (Decimal.sub riskContext proceeds rounded)
  computed (Decimal.sub riskContext left costBasis)

/-- `_sum`. -/
def total (values : List Decimal) : Except DecimalError Decimal :=
  values.foldlM (Decimal.add riskContext) zero

/-- Assigned equity, every realized net and the mark of each open position. -/
def accountEquity (assigned : Decimal) (realizedNets marks : List Decimal) :
    Except RiskFailure Decimal := do
  requirePositive "assigned" assigned
  let realized ← computed (total realizedNets)
  let settled ← computed (Decimal.add riskContext assigned realized)
  let marked ← computed (total marks)
  computed (Decimal.add riskContext settled marked)

/-- Assigned equity and realized nets less the cost basis of each open position. -/
def availableCash (assigned : Decimal) (realizedNets openCostBases : List Decimal) :
    Except RiskFailure Decimal := do
  requirePositive "assigned" assigned
  let realized ← computed (total realizedNets)
  let settled ← computed (Decimal.add riskContext assigned realized)
  let tied ← computed (total openCostBases)
  computed (Decimal.sub riskContext settled tied)

/-! ## Locks -/

/-- `equity - day_start <= -daily% x day_start`. -/
def dailyInequality (limitPct equity dayStart : Decimal) : Except DecimalError Bool := do
  let change ← Decimal.sub riskContext equity dayStart
  let allowed ← percentOf dayStart limitPct
  let floor ← Decimal.neg riskContext allowed
  return Decimal.le change floor

/-- `equity <= high_water x (1 - drawdown%)`. -/
def drawdownInequality (limitPct equity highWater : Decimal) : Except DecimalError Bool := do
  let share ← Decimal.div riskContext limitPct hundred
  let kept ← Decimal.sub riskContext one share
  let floor ← Decimal.mul riskContext highWater kept
  return Decimal.le equity floor

def tripInequality : LockKind → Decimal → Decimal → Decimal → Except DecimalError Bool
  | .dailyLoss => dailyInequality
  | .drawdown => drawdownInequality

/-- `daily_lock_tripped`. -/
def dailyLockTripped (envelope : Envelope) (equity dayStart : Decimal) : Except RiskFailure Bool := do
  requirePositive "day_start_equity" dayStart
  computed (dailyInequality envelope.dailyLossPct equity dayStart)

/-- `drawdown_lock_tripped`. -/
def drawdownLockTripped (envelope : Envelope) (equity highWater : Decimal) :
    Except RiskFailure Bool := do
  requirePositive "high_water" highWater
  computed (drawdownInequality envelope.drawdownPct equity highWater)

/-- The limit of a kind of lock. -/
def Envelope.limitPct (envelope : Envelope) : LockKind → Decimal
  | .dailyLoss => envelope.dailyLossPct
  | .drawdown => envelope.drawdownPct

/-- `tripped_locks`. -/
def trippedLocks (envelope : Envelope) (equity dayStart highWater : Decimal) :
    Except RiskFailure (List LockKind) := do
  let daily ← dailyLockTripped envelope equity dayStart
  let drawdown ← drawdownLockTripped envelope equity highWater
  return (if daily then [.dailyLoss] else []) ++ (if drawdown then [.drawdown] else [])

/-- `next_high_water`. -/
def nextHighWater (highWater equity : Decimal) : Except RiskFailure Decimal := do
  requirePositive "high_water" highWater
  return greatest highWater equity

/-- The reference of a kind: the start of the day, or the high-water mark. -/
def referenceOf (dayStart highWater : Decimal) : LockKind → Decimal
  | .dailyLoss => dayStart
  | .drawdown => highWater

attribute [simp] computed_eq_ok

/-- A kind trips exactly when its inequality holds. -/
theorem mem_trippedLocks {envelope : Envelope} {equity dayStart highWater : Decimal}
    {tripped : List LockKind}
    (result : trippedLocks envelope equity dayStart highWater = .ok tripped) (kind : LockKind) :
    kind ∈ tripped ↔ tripInequality kind (envelope.limitPct kind) equity
      (referenceOf dayStart highWater kind) = .ok true := by
  unfold trippedLocks dailyLockTripped drawdownLockTripped at result
  obtain ⟨daily, dailyResult, result⟩ := bind_eq_ok.mp result
  obtain ⟨_, _, dailyResult⟩ := bind_eq_ok.mp dailyResult
  obtain ⟨drawdown, drawdownResult, result⟩ := bind_eq_ok.mp result
  obtain ⟨_, _, drawdownResult⟩ := bind_eq_ok.mp drawdownResult
  rw [computed_eq_ok] at dailyResult drawdownResult
  cases result
  cases kind with
  | dailyLoss =>
      simp only [tripInequality, Envelope.limitPct, referenceOf, dailyResult, Except.ok.injEq]
      cases daily <;> cases drawdown <;> simp
  | drawdown =>
      simp only [tripInequality, Envelope.limitPct, referenceOf, drawdownResult, Except.ok.injEq]
      cases daily <;> cases drawdown <;> simp

/-- No kind is reported twice. -/
theorem trippedLocks_nodup {envelope : Envelope} {equity dayStart highWater : Decimal}
    {tripped : List LockKind}
    (result : trippedLocks envelope equity dayStart highWater = .ok tripped) : tripped.Nodup := by
  unfold trippedLocks at result
  obtain ⟨daily, _, result⟩ := bind_eq_ok.mp result
  obtain ⟨drawdown, _, result⟩ := bind_eq_ok.mp result
  cases result
  cases daily <;> cases drawdown <;> decide

section Values

open Decimal

variable {limitPct otherLimit equity otherEquity reference otherReference : Decimal}

theorem dailyInequality_alike (limits : SameValue limitPct otherLimit)
    (equities : SameValue equity otherEquity) (references : SameValue reference otherReference) :
    Alike id Eq (dailyInequality limitPct equity reference)
      (dailyInequality otherLimit otherEquity otherReference) := by
  refine (sub_alike riskContext equities references).bind fun change otherChange changes => ?_
  have allowances : Alike id SameValue (percentOf reference limitPct)
      (percentOf otherReference otherLimit) :=
    (mul_alike riskContext references limits).bind fun _ _ products =>
      div_alike riskContext hundred products
  refine allowances.bind fun allowed otherAllowed allowances => ?_
  refine (neg_alike riskContext allowances).bind fun floor otherFloor floors => ?_
  exact .ok (le_congr changes floors)

theorem drawdownInequality_alike (limits : SameValue limitPct otherLimit)
    (equities : SameValue equity otherEquity) (references : SameValue reference otherReference) :
    Alike id Eq (drawdownInequality limitPct equity reference)
      (drawdownInequality otherLimit otherEquity otherReference) := by
  refine (div_alike riskContext hundred limits).bind fun share otherShare shares => ?_
  refine (sub_alike riskContext rfl shares).bind fun kept otherKept keeps => ?_
  refine (mul_alike riskContext references keeps).bind fun floor otherFloor floors => ?_
  exact .ok (le_congr equities floors)

/-- **The trip inequality reads values.** -/
theorem tripInequality_alike (kind : LockKind) (limits : SameValue limitPct otherLimit)
    (equities : SameValue equity otherEquity) (references : SameValue reference otherReference) :
    Alike id Eq (tripInequality kind limitPct equity reference)
      (tripInequality kind otherLimit otherEquity otherReference) := by
  cases kind with
  | dailyLoss => exact dailyInequality_alike limits equities references
  | drawdown => exact drawdownInequality_alike limits equities references

end Values

/-! ## Settlement -/

/-- The cent amounts of one closed position. -/
structure Settlement where
  quantity : Decimal
  entryPrice : Decimal
  exitPrice : Decimal
  gross : Decimal
  entryFee : Decimal
  exitFee : Decimal
  fees : Decimal
  net : Decimal
  outcome : Outcome
  deriving DecidableEq, Repr

/-- A net result of either sign, or none. -/
def outcomeOf (net : Decimal) : Outcome :=
  if Decimal.lt zero net then .win else if Decimal.lt net zero then .loss else .flat

/-- Buy at the entry ask, sell at the exit bid, with fees per leg. -/
def settleLong (quantity entryAsk exitBid feeBps : Decimal) : Except RiskFailure Settlement := do
  requirePositive "quantity" quantity
  requirePositive "entry_ask" entryAsk
  requirePositive "exit_bid" exitBid
  requireNonnegative "fee_bps" feeBps
  let fee ← computed (Decimal.div riskContext feeBps bps)
  let move ← computed (Decimal.sub riskContext exitBid entryAsk)
  let result ← computed (Decimal.mul riskContext quantity move)
  let gross ← computed (cents result)
  let entryNotional ← computed (Decimal.mul riskContext quantity entryAsk)
  let entryCost ← computed (Decimal.mul riskContext entryNotional fee)
  let entryFee ← computed (cents entryCost)
  let exitNotional ← computed (Decimal.mul riskContext quantity exitBid)
  let exitCost ← computed (Decimal.mul riskContext exitNotional fee)
  let exitFee ← computed (cents exitCost)
  let fees ← computed (Decimal.add riskContext entryFee exitFee)
  let net ← computed (Decimal.sub riskContext gross fees)
  return ⟨quantity, entryAsk, exitBid, gross, entryFee, exitFee, fees, net, outcomeOf net⟩

end CryptoRadar.Risk
