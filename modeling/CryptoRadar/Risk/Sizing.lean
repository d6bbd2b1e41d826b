import CryptoRadar.Risk.Envelope

/-!
# Admission and sizing of an entry

The middle of `domain/risk.py`: which entry may be sized (`admissionRefusal`) and how large it
may be (`planLongEntry`). The sizing keeps every value it reached, also when it refuses; its loop
takes one lot off the quantity at most `maxDownwardPasses` times.
-/

set_option autoImplicit false

namespace CryptoRadar.Risk

open Checked
open Paper (Direction ExitLevels PriceValue Quote StatusValue zero bps)

/-- `SIZING_POLICY_ID`. -/
def sizingPolicyId : String := "pilot_sizing_v1"

/-- `PILOT_STRESS_EXIT_SLIPPAGE_BPS`. -/
def pilotStressExitSlippageBps : Decimal := .ofNat 50

/-- `PILOT_STRESS_POLICY_ID`. -/
def pilotStressPolicyId : String := "pilot_stress_exit_slippage_50bps_v1"

/-- `MAX_DOWNWARD_PASSES`. -/
def maxDownwardPasses : ℕ := 3

/-- The kinds of locks. -/
inductive LockKind where
  | dailyLoss
  | drawdown
  deriving DecidableEq, Repr

/-- What bounds the quantity of an entry. -/
inductive BindingConstraint where
  | perEntryLoss
  | aggregateLoss
  | notional
  | cash
  deriving DecidableEq, Repr

/-- `LOCK_REASONS`. -/
def LockKind.reason : LockKind → NoTradeReason
  | .dailyLoss => .dailyLossLock
  | .drawdown => .drawdownLock

/-! ## Admission -/

/-- A direction as given: a member of the enumeration, a text, or another value with its `repr`
and its `str`. -/
inductive DirectionValue where
  | member (direction : Direction)
  | text (given : String)
  | other (shown written : String)
  deriving DecidableEq, Repr

/-- The direction is long. -/
def DirectionValue.isLong : DirectionValue → Bool
  | .member direction => direction = .long
  | .text given => given = Direction.long.text
  | .other _ _ => false

/-- `str(direction)`. -/
def DirectionValue.written : DirectionValue → String
  | .member .long => "Direction.LONG"
  | .member .short => "Direction.SHORT"
  | .text given => given
  | .other _ written => written

/-- The first rule a new entry breaks: long only, kill switch released, no active lock, fewer open
positions than the envelope allows. -/
def admissionRefusal (envelope : Envelope) (direction : DirectionValue) (killSwitchEngaged : Bool)
    (activeLocks : List LockKind) (openPositions : ℕ) : Option NoTrade :=
  if !direction.isLong then some ⟨.unsupportedDirection, direction.written⟩
  else if killSwitchEngaged then some ⟨.killSwitchEngaged, ""⟩
  else if .dailyLoss ∈ activeLocks then some ⟨LockKind.dailyLoss.reason, ""⟩
  else if .drawdown ∈ activeLocks then some ⟨LockKind.drawdown.reason, ""⟩
  else if envelope.maxPositions ≤ openPositions then
    some ⟨.positionAlreadyOpen, toString openPositions⟩
  else none

/-- An entry is admitted when the kill switch is released, no lock is active and nothing is
open. -/
theorem admissionRefusal_eq_none {envelope : Envelope} {direction : DirectionValue}
    {killSwitchEngaged : Bool} {activeLocks : List LockKind} {openPositions : ℕ} :
    admissionRefusal envelope direction killSwitchEngaged activeLocks openPositions = none ↔
      direction.isLong = true ∧ killSwitchEngaged = false ∧ activeLocks = [] ∧
        openPositions = 0 := by
  have one : envelope.maxPositions = 1 := envelope.maxPositions_eq
  have empty : activeLocks = [] ↔
      LockKind.dailyLoss ∉ activeLocks ∧ LockKind.drawdown ∉ activeLocks := by
    rw [List.eq_nil_iff_forall_not_mem]
    constructor
    · intro none
      exact ⟨none _, none _⟩
    · rintro ⟨daily, drawdown⟩ kind
      cases kind with
      | dailyLoss => exact daily
      | drawdown => exact drawdown
  rw [empty]
  unfold admissionRefusal
  rw [one]
  cases direction.isLong with
  | false => simp
  | true =>
      cases killSwitchEngaged with
      | true => simp
      | false =>
          simp only [Bool.not_true, Bool.false_eq_true, if_false]
          by_cases daily : LockKind.dailyLoss ∈ activeLocks
          · simp [daily]
          · by_cases drawdown : LockKind.drawdown ∈ activeLocks
            · simp [daily, drawdown]
            · simp only [daily, drawdown, if_false, not_false_eq_true, true_and]
              split
              next => simp; omega
              next => simp; omega

/-! ## Sizing -/

/-- The quantities that each limit admits. -/
structure Candidates where
  perEntryLoss : Decimal
  aggregateLoss : Decimal
  notional : Decimal
  cash : Decimal
  binding : BindingConstraint
  deriving DecidableEq, Repr

/-- The least of them. -/
def Candidates.quantity (candidates : Candidates) : Decimal :=
  least (least (least candidates.perEntryLoss candidates.aggregateLoss) candidates.notional)
    candidates.cash

/-- The planned amounts of one quantity; fees are rounded up to the cent. -/
structure FinalCosts where
  quantity : Decimal
  notional : Decimal
  entryFee : Decimal
  exitFee : Decimal
  plannedLoss : Decimal
  deriving DecidableEq, Repr

/-- The sizing of one entry, filled as far as it got. -/
structure EntryPlan where
  noTrade : Option NoTrade := none
  feeBps : Decimal
  stressBps : Decimal := pilotStressExitSlippageBps
  stressPolicyId : String := pilotStressPolicyId
  sizingPolicyId : String := sizingPolicyId
  quote : Option Quote := none
  atr : Option Decimal := none
  rules : Option PairRules := none
  levels : Option ExitLevels := none
  stop : Option Decimal := none
  target : Option Decimal := none
  stressExitPrice : Option Decimal := none
  lossPerUnit : Option Decimal := none
  budget : Option Budget := none
  candidates : Option Candidates := none
  lotQuantity : Option Decimal := none
  passes : ℕ := 0
  quantity : Option Decimal := none
  costs : Option FinalCosts := none

namespace EntryPlan

/-- The plan opens a position. -/
def opened (plan : EntryPlan) : Bool := plan.noTrade.isNone

/-- `refuse`: the plan as far as it got, with the reason. -/
def refuse (plan : EntryPlan) (reason : NoTradeReason) (detail : String) : EntryPlan :=
  { plan with noTrade := some ⟨reason, detail⟩ }

end EntryPlan

/-- The stop after the stress slippage. -/
def stressExitPrice (stop : Decimal) : Except DecimalError Decimal := do
  let share ← Decimal.div riskContext pilotStressExitSlippageBps bps
  let kept ← Decimal.sub riskContext one share
  Decimal.mul riskContext stop kept

/-- Worst-case loss of one unit: stop distance, stress slippage and both fees. -/
def lossPerUnit (ask stop feeBps : Decimal) : Except DecimalError Decimal := do
  let stressed ← stressExitPrice stop
  let fee ← Decimal.div riskContext feeBps bps
  let distance ← Decimal.sub riskContext ask stop
  let slippage ← Decimal.sub riskContext stop stressed
  let move ← Decimal.add riskContext distance slippage
  let entryFee ← Decimal.mul riskContext ask fee
  let withEntry ← Decimal.add riskContext move entryFee
  let exitFee ← Decimal.mul riskContext stressed fee
  Decimal.add riskContext withEntry exitFee

/-- The planned loss of a quantity: price loss to the stressed exit plus fees rounded up. -/
def finalCosts (quantity ask stressedExit feeBps : Decimal) : Except DecimalError FinalCosts := do
  let fee ← Decimal.div riskContext feeBps bps
  let notional ← Decimal.mul riskContext quantity ask
  let entryFee ← centsUp (← Decimal.mul riskContext notional fee)
  let exitNotional ← Decimal.mul riskContext quantity stressedExit
  let exitFee ← centsUp (← Decimal.mul riskContext exitNotional fee)
  let distance ← Decimal.sub riskContext ask stressedExit
  let priceLoss ← Decimal.mul riskContext quantity distance
  let withEntry ← Decimal.add riskContext priceLoss entryFee
  let planned ← Decimal.add riskContext withEntry exitFee
  return ⟨quantity, notional, entryFee, exitFee, planned⟩

/-- `_fits`: the cash is added up only when the other limits hold. -/
def fits (costs : FinalCosts) (room : Budget) : Except DecimalError Bool :=
  if Decimal.le costs.plannedLoss room.perEntryLossCap &&
      Decimal.le costs.plannedLoss room.aggregateLossRemaining &&
      Decimal.le costs.notional room.notionalRemaining then do
    let needed ← Decimal.add riskContext costs.notional costs.entryFee
    return Decimal.le needed room.cashRoom
  else .ok false

/-- `first<second` in plain texts. -/
def belowText (first second : Decimal) : Except DecimalError String := do
  let left ← plain first
  let right ← plain second
  return left ++ "<" ++ right

/-- `_below_minimum`. -/
def belowMinimum (quantity ask : Decimal) (rules : PairRules) :
    Except DecimalError (Option NoTrade) :=
  if Decimal.le quantity zero || Decimal.lt quantity rules.ordermin then do
    let detail ← belowText quantity rules.ordermin
    return some ⟨.belowOrderMinimum, detail⟩
  else do
    let cost ← Decimal.mul riskContext quantity ask
    if Decimal.lt cost rules.costmin then do
      let detail ← belowText cost rules.costmin
      return some ⟨.belowCostMinimum, detail⟩
    else return none

/-- The first least of the four. -/
def bindingOf (perEntryLoss aggregateLoss notional cash : Decimal) : BindingConstraint :=
  let pick (best next : BindingConstraint × Decimal) :=
    if Decimal.lt next.2 best.2 then next else best
  (pick (pick (pick (.perEntryLoss, perEntryLoss) (.aggregateLoss, aggregateLoss))
    (.notional, notional)) (.cash, cash)).1

/-- The quantities the budgets allow, each rounded toward zero. -/
def candidateQuantities (room : Budget) (ask perUnitLoss feeBps : Decimal) :
    Except DecimalError Candidates := do
  let fee ← Decimal.div quantityContext feeBps bps
  let perEntryLoss ← Decimal.div quantityContext room.perEntryLossCap perUnitLoss
  let aggregateLoss ← Decimal.div quantityContext room.aggregateLossRemaining perUnitLoss
  let notional ← Decimal.div quantityContext room.notionalRemaining ask
  let rate ← Decimal.add quantityContext one fee
  let unitCost ← Decimal.mul quantityContext ask rate
  let cash ← Decimal.div quantityContext room.cashRoom unitCost
  return ⟨perEntryLoss, aggregateLoss, notional, cash,
    bindingOf perEntryLoss aggregateLoss notional cash⟩

/-- What every stage of a sizing reads once the quote and the rules are checked. -/
structure SizingTerms where
  ask : Decimal
  stressed : Decimal
  feeBps : Decimal
  rules : PairRules
  room : Budget

/-- The sizing loop; `remaining` passes may still be made. The lot is taken off in the context of
the thread. -/
def sizingLoop (terms : SizingTerms) (plan : EntryPlan) (quantity : Decimal) (passes : ℕ)
    (remaining : ℕ) : Except RiskFailure EntryPlan := do
  let plan := { plan with passes := passes, quantity := some quantity, costs := none }
  match ← computed (belowMinimum quantity terms.ask terms.rules) with
  | some minimum => return plan.refuse minimum.reason minimum.detail
  | none =>
      let costs ← computed (finalCosts quantity terms.ask terms.stressed terms.feeBps)
      let plan := { plan with costs := some costs }
      match ← computed (fits costs terms.room) with
      | true => return plan
      | false =>
          match remaining with
          | 0 => return plan.refuse .sizingInconsistent ("passes:" ++ toString passes)
          | remaining + 1 =>
              let smaller ← computed (Decimal.sub DecimalContext.default quantity terms.rules.lot)
              sizingLoop terms plan smaller (passes + 1) remaining

/-- The budgets, the candidate quantities and the loop. -/
def sizeWithin (terms : SizingTerms) (plan : EntryPlan) (perUnit : Decimal) :
    Except RiskFailure EntryPlan :=
  let room := terms.room
  if Decimal.le room.perEntryLossCap zero || Decimal.le room.aggregateLossRemaining zero then do
    let left ← computed (plain room.aggregateLossRemaining)
    return plan.refuse .noLossBudget ("remaining:" ++ left)
  else if Decimal.le room.notionalRemaining zero then do
    let left ← computed (plain room.notionalRemaining)
    return plan.refuse .noNotionalRoom ("remaining:" ++ left)
  else if Decimal.le room.cashRoom zero then do
    let left ← computed (plain room.cashRoom)
    return plan.refuse .insufficientCash ("room:" ++ left)
  else do
    let candidates ← computed (candidateQuantities room terms.ask perUnit terms.feeBps)
    let quantity ← computed (floorToLot candidates.quantity terms.rules.lotDecimals)
    let plan := { plan with candidates := some candidates, lotQuantity := some quantity }
    sizingLoop terms plan quantity 0 maxDownwardPasses

/-- What an entry is sized on. -/
structure SizingAccount where
  equity : Option Decimal
  cash : Option Decimal
  openPlannedLoss : Decimal
  openNotional : Decimal

/-- From the levels on: the stop and the target on the tick, the stressed loss, the budgets. -/
def sizeAtLevels (envelope : Envelope) (account : SizingAccount) (equity cash feeBps : Decimal)
    (plan : EntryPlan) (quote : Quote) (rules : PairRules) (levels : ExitLevels) :
    Except RiskFailure EntryPlan := do
  let stop ← computed (floorToStep levels.stop rules.tick)
  let target ← computed (floorToStep levels.target rules.tick)
  let plan := { plan with levels := some levels, stop := some stop, target := some target }
  if Decimal.le stop zero || Decimal.le quote.ask stop then do
    let shown ← computed (plain stop)
    return plan.refuse .stopInvalidAfterTick ("stop:" ++ shown)
  else if Decimal.le target quote.ask then do
    let shown ← computed (plain target)
    return plan.refuse .invalidLevels ("target_not_above_entry:" ++ shown)
  else do
    let stressed ← computed (stressExitPrice stop)
    let perUnit ← computed (lossPerUnit quote.ask stop feeBps)
    let plan := { plan with stressExitPrice := some stressed, lossPerUnit := some perUnit }
    if Decimal.le stressed zero || Decimal.le perUnit zero then
      return plan.refuse .invalidLevels "nonpositive_denominator"
    else do
      let room ← budget envelope equity cash account.openPlannedLoss account.openNotional
      sizeWithin ⟨quote.ask, stressed, feeBps, rules, room⟩ { plan with budget := some room } perUnit

/-- The quote and the levels an entry is planned at. -/
structure EntryOffer where
  quoteCurrency : String
  bid : PriceValue
  ask : PriceValue
  status : StatusValue
  atr : PriceValue
  pairEntry : PairEntry

/-- From the checked quote on: the ATR, the rules, the equity and the cash, the levels. -/
def sizeQuoted (runtime : Runtime) (envelope : Envelope) (offer : EntryOffer)
    (account : SizingAccount) (feeBps : Decimal) (plan : EntryPlan) (quote : Quote) :
    Except RiskFailure EntryPlan :=
  match Paper.validateAtr offer.atr with
  | .error problem => return plan.refuse .noValidAtr problem.text
  | .ok atr =>
      let plan := { plan with atr := some atr }
      match parsePairRules runtime offer.pairEntry with
      | .error refusal => return plan.refuse refusal.reason refusal.detail
      | .ok rules =>
          let plan := { plan with rules := some rules }
          match account.equity with
          | none => return plan.refuse .equityUnavailable "equity:missing"
          | some equity =>
              if Decimal.le equity zero then
                return plan.refuse .equityUnavailable "equity:not_positive"
              else
                match account.cash with
                | none => return plan.refuse .equityUnavailable "cash:missing"
                | some cash => do
                    match ← (Paper.exitLevels .long quote atr).mapError .paper with
                    | none => return plan.refuse .invalidLevels "level_not_positive"
                    | some levels =>
                        sizeAtLevels envelope account equity cash feeBps plan quote rules levels

/-- `plan_long_entry`: size one long entry on the pair inside the envelope. -/
def planLongEntry (runtime : Runtime) (envelope : Envelope) (offer : EntryOffer)
    (account : SizingAccount) (feeBps : Decimal) : Except RiskFailure EntryPlan := do
  requireNonnegative "fee_bps" feeBps
  requireNonnegative "open_planned_loss" account.openPlannedLoss
  requireNonnegative "open_notional" account.openNotional
  let plan : EntryPlan := { feeBps := feeBps }
  if pyStr offer.quoteCurrency ≠ envelope.currency then
    return plan.refuse .quoteCurrencyMismatch offer.quoteCurrency
  else
    match Paper.validateQuote offer.bid offer.ask offer.status with
    | .error problem => return plan.refuse .invalidQuote problem.text
    | .ok quote =>
        sizeQuoted runtime envelope offer account feeBps { plan with quote := some quote } quote

end CryptoRadar.Risk
