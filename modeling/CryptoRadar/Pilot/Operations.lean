import CryptoRadar.Lib.Machine
import CryptoRadar.Pilot.Locks

/-!
# Opening and closing positions, and the machine of all calls

`open_candidates` evaluates the locks once and then decides every candidate in order, in one
transaction. `close_positions` looks for exits first, outside a transaction, and then writes the
closes and evaluates the locks in one: between the two other writers may commit, so the machine
takes them as two steps of one writer (`findExits`, then `closePositions`). Every other call is
one step. A call that raises changes nothing.
-/

set_option autoImplicit false

namespace CryptoRadar.Pilot

open Checked
open Paper (Direction ExitReason PriceValue StatusValue)
open Risk (DirectionValue Envelope EntryPlan NoTrade PairEntry)

/-! ## Candidates -/

/-- What a candidate names as its pair. -/
inductive PairValue where
  | missing
  | text (pair : String)
  | other (shown : String)
  deriving DecidableEq

/-- A candidate for a position. -/
structure PilotCandidate where
  eventId : String
  runId : String
  asset : String
  pair : String
  quote : String
  direction : DirectionValue
  bid : PriceValue
  ask : PriceValue
  snapshotTs : String
  status : StatusValue
  atr : PriceValue
  atrPair : PairValue
  pairEntry : PairEntry

section Opening

variable (runtime : Runtime)

/-- `_direction_text`. -/
def directionText : DirectionValue → String
  | .member direction => direction.text
  | .text given => if given = "" then runtime.reprText given else given
  | .other shown _ => shown

/-- How an error shows a pair. -/
def PairValue.shown : PairValue → String
  | .missing => "None"
  | .text pair => runtime.reprText pair
  | .other shown => shown

/-- `atr_pair` when it is a text that is not empty. -/
def PairValue.column : PairValue → Option String
  | .text pair => if pair = "" then none else some pair
  | _ => none

/-- `_check_candidate`: texts that are not blank, and a time with an offset. -/
def checkCandidate (candidate : PilotCandidate) (index : ℕ) : Except PilotFailure Moment := do
  let invalid (field detail : String) : PilotFailure :=
    .store .invalidRow ("candidate " ++ toString index ++ " " ++ field ++ ": " ++ detail)
  let required (item : String × String) : Except PilotFailure Unit :=
    ensure (isBlank item.2 = false)
      (invalid item.1 ("must be a non-empty string, got " ++ runtime.reprText item.2))
  [("event_id", candidate.eventId), ("run_id", candidate.runId), ("asset", candidate.asset),
    ("pair", candidate.pair), ("quote", candidate.quote),
    ("snapshot_ts", candidate.snapshotTs)].forM required
  let aware ← require (invalid "snapshot_ts" ("must be ISO-8601 text with a UTC offset, got " ++
    runtime.reprText candidate.snapshotTs)) (runtime.parseAware candidate.snapshotTs)
  return aware.moment

/-- `_sizing_inputs`. -/
def sizingInputs (state : AccountState) : Risk.SizingAccount :=
  ⟨some state.equity, some state.cash, state.openPlannedLoss, state.openNotional⟩

/-- `_plan`: the sizing of a candidate; an ATR of another pair is no ATR. -/
def planCandidate (candidate : PilotCandidate) (envelope : Envelope) (state : AccountState)
    (feeBps : Decimal) : Except PilotFailure EntryPlan := do
  let samePair := candidate.atrPair = .text candidate.pair
  let plan ← risked (Risk.planLongEntry runtime envelope
    ⟨candidate.quote, candidate.bid, candidate.ask, candidate.status,
      if samePair then candidate.atr else .missing, candidate.pairEntry⟩
    (sizingInputs state) feeBps)
  return if ¬ samePair ∧ plan.noTrade.any (fun refusal => refusal.reason = .noValidAtr) then
    { feeBps := plan.feeBps, quote := plan.quote, noTrade := some ⟨.noValidAtr,
      "pair_mismatch:" ++ candidate.atrPair.shown runtime ++ "!=" ++
        runtime.reprText candidate.pair⟩ }
  else plan

/-- A decimal column that may be empty. -/
def optionalText : Option Decimal → Option Decimal := Option.map Decimal.throughText

/-- A column of cents that may be empty. -/
def optionalCents : Option Decimal → Except PilotFailure (Option ℤ)
  | none => .ok none
  | some amount => (toCents amount).map some

/-- What a decision is made of. -/
structure Decided where
  refusal : Option NoTrade
  plan : Option EntryPlan

/-- An opened plan carries its costs. -/
def Decided.costs (decided : Decided) : Option Risk.FinalCosts :=
  decided.plan.bind fun plan => if plan.opened then plan.costs else none

/-- Why the decision opens nothing, if it does. -/
def Decided.noTrade (decided : Decided) : Option NoTrade :=
  decided.refusal.or (decided.plan.bind EntryPlan.noTrade)

/-- `_decision_values`. -/
def decisionValues (candidate : PilotCandidate) (decided : Decided) (state : AccountState)
    (feeBps : Decimal) (sha : String) (decidedAt : Moment) (decisionId : ℕ) :
    Except PilotFailure DecisionRow := do
  let plan := decided.plan
  let quote := (plan.bind EntryPlan.quote).or
    (Paper.validateQuote candidate.bid candidate.ask candidate.status).toOption
  let atr := (plan.bind EntryPlan.atr).or (Paper.validateAtr candidate.atr).toOption
  let rules := plan.bind EntryPlan.rules
  let room := plan.bind EntryPlan.budget
  let candidates := plan.bind EntryPlan.candidates
  let costs := decided.costs
  let noTrade := decided.noTrade
  let entryFeeCents ← optionalCents (costs.map Risk.FinalCosts.entryFee)
  let exitFeeCents ← optionalCents (costs.map Risk.FinalCosts.exitFee)
  return {
    decisionId := decisionId
    eventId := candidate.eventId
    runId := candidate.runId
    asset := candidate.asset
    pair := candidate.pair
    quote := candidate.quote
    direction := directionText runtime candidate.direction
    snapshotTs := candidate.snapshotTs
    bid := optionalText (quote.map Paper.Quote.bid)
    ask := optionalText (quote.map Paper.Quote.ask)
    atr := optionalText atr
    atrPair := candidate.atrPair.column
    ordermin := optionalText (rules.map Risk.PairRules.ordermin)
    costmin := optionalText (rules.map Risk.PairRules.costmin)
    tick := optionalText (rules.map Risk.PairRules.tick)
    tickSource := rules.map Risk.PairRules.tickSource
    equity := optionalText (sizingInputs state).equity
    cash := optionalText (sizingInputs state).cash
    stopPrice := optionalText (plan.bind EntryPlan.stop)
    targetPrice := optionalText (plan.bind EntryPlan.target)
    stressExitPrice := optionalText (plan.bind EntryPlan.stressExitPrice)
    lossPerUnit := optionalText (plan.bind EntryPlan.lossPerUnit)
    perEntryLossCap := optionalText (room.map Risk.Budget.perEntryLossCap)
    aggregateLossRemaining := optionalText (room.map Risk.Budget.aggregateLossRemaining)
    notionalRemaining := optionalText (room.map Risk.Budget.notionalRemaining)
    cashRoom := optionalText (room.map Risk.Budget.cashRoom)
    qtyPerEntryLoss := optionalText (candidates.map Risk.Candidates.perEntryLoss)
    qtyAggregateLoss := optionalText (candidates.map Risk.Candidates.aggregateLoss)
    qtyNotional := optionalText (candidates.map Risk.Candidates.notional)
    qtyCash := optionalText (candidates.map Risk.Candidates.cash)
    lotQuantity := optionalText (plan.bind EntryPlan.lotQuantity)
    quantity := optionalText (costs.map Risk.FinalCosts.quantity)
    notional := optionalText (costs.map Risk.FinalCosts.notional)
    plannedLoss := optionalText (costs.map Risk.FinalCosts.plannedLoss)
    lotDecimals := rules.map Risk.PairRules.lotDecimals
    binding := candidates.map Risk.Candidates.binding
    passes := (plan.map EntryPlan.passes).getD 0
    entryFeeCents := entryFeeCents
    exitFeeCents := exitFeeCents
    feeBps := feeBps.throughText
    stressBps := Risk.pilotStressExitSlippageBps.throughText
    envelopeSha256 := sha
    envelopePolicyId := Risk.envelopePolicyId
    sizingPolicyId := Risk.sizingPolicyId
    stressPolicyId := Risk.pilotStressPolicyId
    exitPolicyId := Paper.ex1PolicyId
    outcome := if noTrade.isNone then .opened else .noTrade
    reason := noTrade.map NoTrade.reason
    detail := (noTrade.map NoTrade.detail).getD ""
    decidedAt := decidedAt }

/-- What an entry plan that opens a position has. -/
structure OpenedPlan where
  quote : Paper.Quote
  levels : Paper.ExitLevels
  costs : Risk.FinalCosts
  stop : Decimal
  target : Decimal
  stressExitPrice : Decimal

/-- The parts of a plan that opens a position. -/
def openedPlan (plan : EntryPlan) : Except PilotFailure OpenedPlan :=
  match plan.quote, plan.levels, plan.costs, plan.stop, plan.target with
  | some quote, some levels, some costs, some stop, some target => do
      let stressed ← require (.store .invalidArgument
        "an opened plan must carry its stress exit price") plan.stressExitPrice
      return ⟨quote, levels, costs, stop, target, stressed⟩
  | _, _, _, _, _ => .error (.store .invalidArgument
      "an opened plan must carry its quote, levels and costs")

/-- The row of a position. -/
def positionRow (positionId decisionId : ℕ) (candidate : PilotCandidate) (entryTs : Moment)
    (plan : EntryPlan) (openedAt : Moment) : Except PilotFailure PositionRow := do
  let opened ← openedPlan plan
  let costBasis ← risked (Risk.entryCostBasis opened.costs.quantity opened.quote.ask plan.feeBps)
  let due ← (Paper.dueAt entryTs opened.levels.holdMinutes).mapError .paper
  return {
    positionId := positionId
    decisionId := decisionId
    eventId := candidate.eventId
    runId := candidate.runId
    asset := candidate.asset
    pair := candidate.pair
    quote := candidate.quote
    quantity := opened.costs.quantity.throughText
    entryBid := opened.quote.bid.throughText
    entryAsk := opened.quote.ask.throughText
    entryTs := entryTs
    dueAt := due
    feeBps := plan.feeBps.throughText
    exitPolicy := opened.levels.policyId
    atr := opened.levels.atr.throughText
    stop := opened.stop.throughText
    target := opened.target.throughText
    stressExitPrice := opened.stressExitPrice.throughText
    plannedLoss := opened.costs.plannedLoss.throughText
    notional := opened.costs.notional.throughText
    costBasis := costBasis.throughText
    openedAt := openedAt }

/-- `_write_position`. -/
def writePosition (decisionId : ℕ) (candidate : PilotCandidate) (entryTs : Moment) (plan : EntryPlan)
    (openedAt : Moment) (db : PilotDb) : Except PilotFailure PilotDb := do
  let row ← positionRow (db.positions.length + 1) decisionId candidate entryTs plan openedAt
  db.insertPosition row

/-! ## Opening -/

/-- The arguments of `open_candidates`. -/
structure OpenCall where
  candidates : List PilotCandidate
  envelope : Envelope
  feeBps : Decimal
  quotes : Quotes

/-- What the loop of `open_candidates` keeps. -/
structure OpenProgress where
  db : PilotDb
  state : AccountState
  recorded : List String
  decisionIds : List ℕ
  already : List String

/-- What is read once, before the loop. -/
structure OpenTerms where
  account : AccountRow
  locks : LockEvaluation
  engaged : Bool

/-- Why a candidate is refused before it is sized. -/
def refusalOf (call : OpenCall) (terms : OpenTerms) (state : AccountState)
    (candidate : PilotCandidate) : Option NoTrade :=
  let direction := directionText runtime candidate.direction
  if direction ≠ Direction.long.text then some ⟨.unsupportedDirection, direction⟩
  else if envelopeSha256 runtime call.envelope ≠ terms.account.envelopeSha256 then
    some ⟨.envelopeChanged, "recorded:" ++
      String.ofList (terms.account.envelopeSha256.toList.take 12)⟩
  else
    Risk.admissionRefusal terms.account.envelope (.member .long) terms.engaged
      terms.locks.activeKinds state.openPositions.length

/-- The refusal, or the plan of an admitted candidate. -/
def decideCandidate (call : OpenCall) (terms : OpenTerms) (state : AccountState)
    (candidate : PilotCandidate) : Except PilotFailure Decided :=
  match refusalOf runtime call terms state candidate with
  | some refusal => .ok ⟨some refusal, none⟩
  | none => do
      let plan ← planCandidate runtime candidate terms.account.envelope state call.feeBps
      return ⟨none, some plan⟩

/-- The plan to write a position of. -/
def Decided.opened (decided : Decided) : Option EntryPlan :=
  decided.plan.filter EntryPlan.opened

/-- The position of an opened plan, and the account read again. -/
def settleOpened (call : OpenCall) (terms : OpenTerms) (decisionId : ℕ) (candidate : PilotCandidate)
    (entryTs : Moment) (plan : EntryPlan) (progress : OpenProgress) :
    Except PilotFailure OpenProgress := do
  let after ← writePosition decisionId candidate entryTs plan call.quotes.now progress.db
  let state ← accountState runtime terms.account call.quotes after
  return { progress with db := after, state := state }

/-- One turn of the loop. -/
def openOne (call : OpenCall) (terms : OpenTerms) (progress : OpenProgress)
    (item : PilotCandidate × Moment) : Except PilotFailure OpenProgress :=
  let (candidate, entryTs) := item
  if candidate.eventId ∈ progress.recorded then
    .ok { progress with already := progress.already ++ [candidate.eventId] }
  else do
    let decided ← decideCandidate runtime call terms progress.state candidate
    let decisionId := progress.db.decisions.length + 1
    let row ← decisionValues runtime candidate decided progress.state call.feeBps
      (envelopeSha256 runtime call.envelope) call.quotes.now decisionId
    let after ← progress.db.insertDecision row
    let decidedProgress : OpenProgress := { progress with
      db := after
      decisionIds := progress.decisionIds ++ [decisionId]
      recorded := progress.recorded ++ [candidate.eventId] }
    match decided.opened with
    | some plan =>
        settleOpened runtime call terms decisionId candidate entryTs plan decidedProgress
    | none => return decidedProgress

/-- What `open_candidates` returns. -/
structure OpenReport where
  decisions : List DecisionRow
  alreadyRecorded : List String
  locks : LockEvaluation

/-- The candidates with their entry times, all checked before anything is written. -/
def checkOpenCall (call : OpenCall) : Except PilotFailure (List (PilotCandidate × Moment)) := do
  ensure (Decimal.lt call.feeBps Paper.zero = false)
    (.store .invalidArgument "fee_bps must be a finite Decimal >= 0")
  checkExtraQuotes call.quotes.extras
  call.candidates.zipIdx.mapM fun item => do
    let entryTs ← checkCandidate runtime item.1 item.2
    return (item.1, entryTs)

/-- `open_candidates`. -/
def openCandidates (call : OpenCall) (db : PilotDb) : Except PilotFailure (OpenReport × PilotDb) := do
  let checked ← checkOpenCall runtime call
  let account ← requireAccount runtime db
  let state ← accountState runtime account call.quotes db
  let (locks, evaluated) ← evaluateLocks account state call.quotes.now .entry db
  let terms : OpenTerms := ⟨account, locks, evaluated.killSwitchEngaged⟩
  let progress ← checked.foldlM (openOne runtime call terms)
    ⟨evaluated, state, evaluated.decisions.map DecisionRow.eventId, [], []⟩
  return (⟨progress.db.decisions.filter fun row => row.decisionId ∈ progress.decisionIds,
    progress.already, locks⟩, progress.db)

end Opening

/-! ## Closing -/

/-- An observation that closes a position. -/
structure Exit where
  position : PositionRow
  observation : Observation
  reason : ExitReason

/-- The first observation that closes a position. -/
def firstExit (position : PositionRow) : List Observation → Except PilotFailure (Option Exit)
  | [] => .ok none
  | observation :: rest => do
      match ← (Paper.exitDecision .long position.stop position.target position.dueAt
          observation.observedAt observation.quote).mapError .paper with
      | some reason => return some ⟨position, observation, reason⟩
      | none => firstExit position rest

/-- The arguments of `close_positions`. -/
structure CloseCall where
  quotes : Quotes
  positionIds : Option (List ℤ)

/-- What the first phase of `close_positions` found. -/
structure ClosePlan where
  call : CloseCall
  exits : List Exit
  pending : List ℕ

section Closing

variable (runtime : Runtime)

/-- `_find_exit`. -/
def findExit (quotes : Quotes) (position : PositionRow) : Except PilotFailure (Option Exit) := do
  let seen ← observations runtime quotes position false
  firstExit position (seen.insertionSort Observation.notAfter)

/-- One turn of the first phase. -/
def findOne (call : CloseCall) (plan : ClosePlan) (position : PositionRow) :
    Except PilotFailure ClosePlan :=
  if call.positionIds.any fun ids => (position.positionId : ℤ) ∉ ids then .ok plan
  else do
    match ← findExit runtime call.quotes position with
    | some found => return { plan with exits := plan.exits ++ [found] }
    | none =>
        return if position.dueAt ≤ call.quotes.now then
          { plan with pending := plan.pending ++ [position.positionId] }
        else plan

/-- The first phase of `close_positions`: the exits of the open positions. -/
def findExits (call : CloseCall) (db : PilotDb) : Except PilotFailure ClosePlan := do
  checkExtraQuotes call.quotes.extras
  db.openPositions.foldlM (findOne runtime call) ⟨call, [], []⟩

/-- The quote that closed a position is recorded when it is not a snapshot. -/
def recordExitQuote (found : Exit) (closedAt : Moment) (db : PilotDb) :
    Except PilotFailure (ℤ × String × PilotDb) :=
  match found.observation.extra with
  | none => .ok (found.observation.ident, spotSnapshotSource, db)
  | some extra => do
      let quoteId := db.exitQuotes.length + 1
      let after ← db.insertExitQuote ⟨quoteId, found.position.positionId, found.position.pair,
        found.observation.quote.bid.throughText, found.observation.quote.ask.throughText,
        found.observation.observedAt, extra.source, closedAt⟩
      return (quoteId, extra.source, after)

/-- The row of a close. -/
def closeRow (found : Exit) (now : Moment) (result : Risk.Settlement) (exitId : ℤ) (source : String)
    (closeId : ℕ) : Except PilotFailure CloseRow := do
  let position := found.position
  let bid := found.observation.quote.bid
  let slippage ← counted (Decimal.sub Risk.riskContext position.stop bid)
  let share ← counted (Decimal.div Risk.riskContext slippage position.stop)
  let slippageBps ← counted (Decimal.mul Risk.riskContext share Paper.bps)
  let observationId ← sqlInteger exitId
  let gross ← toCents result.gross
  let entryFee ← toCents result.entryFee
  let exitFee ← toCents result.exitFee
  let fees ← toCents result.fees
  let net ← toCents result.net
  return {
    closeId := closeId
    positionId := position.positionId
    exitReason := found.reason
    exitSource := source
    exitObservationId := observationId
    exitBid := bid.throughText
    exitAsk := found.observation.quote.ask.throughText
    exitTs := found.observation.observedAt
    recordLag := now.micros - found.observation.observedAt.micros
    quantity := position.quantity.throughText
    grossCents := gross
    entryFeeCents := entryFee
    exitFeeCents := exitFee
    feesCents := fees
    netCents := net
    outcome := result.outcome
    stop := position.stop.throughText
    stopSlippage := slippage.throughText
    stopSlippageBps := slippageBps.throughText
    closedAt := now }

/-- `_write_close`: nothing is written for a position that is closed already. -/
def writeClose (now : Moment) (progress : PilotDb × List ℕ) (found : Exit) :
    Except PilotFailure (PilotDb × List ℕ) :=
  let (db, closedIds) := progress
  if db.closes.any fun close => close.positionId = found.position.positionId then .ok progress
  else do
    let result ← risked (Risk.settleLong found.position.quantity found.position.entryAsk
      found.observation.quote.bid found.position.feeBps)
    let (exitId, source, quoted) ← recordExitQuote found now db
    let closeId := quoted.closes.length + 1
    let row ← closeRow found now result exitId source closeId
    let after ← quoted.insertClose row
    return (after, closedIds ++ [closeId])

/-- What a call that closes positions returns. -/
structure CloseReport where
  closed : List CloseRow
  pending : List ℕ
  locks : LockEvaluation

/-- The second phase of `close_positions`: write the closes, then evaluate the locks. The
snapshots may have grown since the first phase. -/
def closePositions (plan : ClosePlan) (snapshots : List SnapshotRow) (db : PilotDb) :
    Except PilotFailure (CloseReport × PilotDb) := do
  let quotes := { plan.call.quotes with snapshots := snapshots }
  let account ← requireAccount runtime db
  let (closed, closedIds) ← plan.exits.foldlM (writeClose quotes.now) (db, [])
  let state ← accountState runtime account quotes closed
  let (locks, after) ← evaluateLocks account state quotes.now .settle closed
  return (⟨after.closes.filter fun row => row.closeId ∈ closedIds, plan.pending, locks⟩, after)

end Closing

/-! ## The machine -/

/-- The tables, and for each writer what the first phase of its `close_positions` found. -/
structure System where
  db : PilotDb
  found : ℕ → Option ClosePlan

/-- A store in which nothing is written. -/
def System.empty : System := ⟨{}, fun _ => none⟩

/-- The calls, in the order the write lock serialises them. -/
inductive Operation where
  | ensureAccount (envelope : Envelope) (now : Moment)
  | engageKillSwitch (reason actor : String) (now : Moment)
  | releaseKillSwitch (reason actor : String) (now : Moment)
  | evaluateLocks (quotes : Quotes)
  | reviewLock (lockId : ℤ) (reviewer cause : String) (quotes : Quotes)
  | openCandidates (call : OpenCall)
  | findExits (writer : ℕ) (call : CloseCall)
  | closePositions (writer : ℕ) (snapshots : List SnapshotRow)

/-- What an operation returns. -/
inductive Answer where
  | account (row : AccountRow)
  | killSwitch (row : KillSwitchRow)
  | evaluation (reported : LockEvaluation)
  | review (row : ReviewRow)
  | opened (report : OpenReport)
  | found (plan : ClosePlan)
  | closed (report : CloseReport)
  | idle

/-- The evaluation a committed call reports. -/
def Answer.evaluation? : Answer → Option LockEvaluation
  | .evaluation reported => some reported
  | .opened report => some report.locks
  | .closed report => some report.locks
  | _ => none

/-- A transaction on the tables alone. -/
def onDb {α : Type} (system : System) (answer : α → Answer) :
    Except PilotFailure (α × PilotDb) → Except PilotFailure (Answer × System) :=
  Except.map fun result => (answer result.1, { system with db := result.2 })

section Machine

variable (runtime : Runtime)

/-- One call. A writer that found no exits has nothing to close; one whose second phase failed
may try it again, which is more than the code does. -/
def attempt (system : System) : Operation → Except PilotFailure (Answer × System)
  | .ensureAccount envelope now =>
      onDb system .account (ensureAccount runtime envelope now system.db)
  | .engageKillSwitch reason actor now =>
      onDb system .killSwitch (setKillSwitch .engaged reason actor now system.db)
  | .releaseKillSwitch reason actor now =>
      onDb system .killSwitch (setKillSwitch .released reason actor now system.db)
  | .evaluateLocks quotes => onDb system .evaluation (evaluateLocksCall runtime quotes system.db)
  | .reviewLock lockId reviewer cause quotes =>
      onDb system .review (reviewLock runtime lockId reviewer cause quotes system.db)
  | .openCandidates call => onDb system .opened (openCandidates runtime call system.db)
  | .findExits writer call => do
      let plan ← findExits runtime call system.db
      return (.found plan, { system with found := Function.update system.found writer (some plan) })
  | .closePositions writer snapshots =>
      match system.found writer with
      | none => .ok (.idle, system)
      | some plan => do
          let (report, after) ← closePositions runtime plan snapshots system.db
          return (.closed report, ⟨after, Function.update system.found writer none⟩)

/-- Operations of any number of writers, in any order. -/
def pilot : Runs.Machine System Operation (Except PilotFailure Answer) :=
  Runs.Machine.transactional (attempt runtime)

end Machine

end CryptoRadar.Pilot
