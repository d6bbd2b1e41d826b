import CryptoRadar.Risk.Account

/-!
# The tables of the pilot

The nine append-only tables of `adapters/pilot_store.py`. A table is the list of its rows, oldest
first; a row keeps its id, which is its place. An `insert` appends one row, or raises when a
constraint or a trigger of the schema refuses it. Decimal columns hold the number that their text
reads as, times are instants, a UTC day is counted from the epoch.
-/

set_option autoImplicit false

namespace CryptoRadar.Pilot

open Checked
open Paper (ExitReason Outcome PaperFailure)
open Risk (BindingConstraint Envelope LockKind NoTradeReason RiskFailure TickSource)

/-- The marks of the equity: at the start of a day, and its highest value. -/
inductive MarkKind where
  | dayStart
  | highWater
  deriving DecidableEq, Repr

/-- What recorded a mark. -/
inductive MarkSource where
  | assigned
  | evaluation
  | review
  deriving DecidableEq, Repr

/-- Where a lock evaluation ran. -/
inductive LockTrigger where
  | entry
  | settle
  | mark
  deriving DecidableEq, Repr

/-- A decision opens a position, or says why not. -/
inductive DecisionOutcome where
  | opened
  | noTrade
  deriving DecidableEq, Repr

/-- The states of the kill switch. -/
inductive SwitchState where
  | engaged
  | released
  deriving DecidableEq, Repr

/-- The codes of a `PilotStoreError`. -/
inductive PilotStoreFailure where
  | invalidRow
  | invalidArgument
  | noAccount
  | unknownLock
  | lockAlreadyReviewed
  | malformedRow
  deriving DecidableEq, Repr

/-- What a call raises: an error of the store, a constraint of the schema (`SQLITE_ERROR`), what
the domain raises, a decimal signal, or an `OverflowError`. -/
inductive PilotFailure where
  | store (code : PilotStoreFailure) (detail : String)
  | sqlite
  | risk (failure : RiskFailure)
  | paper (failure : PaperFailure)
  | decimal (error : DecimalError)
  | overflow
  /-- The `UnicodeEncodeError` of a text with surrogates. -/
  | encoding
  deriving DecidableEq, Repr

/-- `SPOT_SNAPSHOT_SOURCE`. -/
def spotSnapshotSource : String := "spot_snapshot"

/-! ## Rows -/

/-- The row of the table `pilot_account`. -/
structure AccountRow where
  envelope : Envelope
  envelopeSha256 : String
  equityCents : ℤ
  recordedAt : Moment
  deriving DecidableEq

/-- A row of the table `pilot_decisions`. -/
structure DecisionRow where
  decisionId : ℕ
  eventId : String
  runId : String
  asset : String
  pair : String
  quote : String
  direction : String
  snapshotTs : String
  bid : Option Decimal
  ask : Option Decimal
  atr : Option Decimal
  atrPair : Option String
  ordermin : Option Decimal
  costmin : Option Decimal
  tick : Option Decimal
  tickSource : Option TickSource
  equity : Option Decimal
  cash : Option Decimal
  stopPrice : Option Decimal
  targetPrice : Option Decimal
  stressExitPrice : Option Decimal
  lossPerUnit : Option Decimal
  perEntryLossCap : Option Decimal
  aggregateLossRemaining : Option Decimal
  notionalRemaining : Option Decimal
  cashRoom : Option Decimal
  qtyPerEntryLoss : Option Decimal
  qtyAggregateLoss : Option Decimal
  qtyNotional : Option Decimal
  qtyCash : Option Decimal
  lotQuantity : Option Decimal
  quantity : Option Decimal
  notional : Option Decimal
  plannedLoss : Option Decimal
  lotDecimals : Option ℕ
  binding : Option BindingConstraint
  passes : ℕ
  entryFeeCents : Option ℤ
  exitFeeCents : Option ℤ
  feeBps : Decimal
  stressBps : Decimal
  envelopeSha256 : String
  envelopePolicyId : String
  sizingPolicyId : String
  stressPolicyId : String
  exitPolicyId : String
  outcome : DecisionOutcome
  reason : Option NoTradeReason
  detail : String
  decidedAt : Moment
  deriving DecidableEq

/-- A position; its direction is always long. -/
structure PositionRow where
  positionId : ℕ
  decisionId : ℕ
  eventId : String
  runId : String
  asset : String
  pair : String
  quote : String
  quantity : Decimal
  entryBid : Decimal
  entryAsk : Decimal
  entryTs : Moment
  dueAt : Moment
  feeBps : Decimal
  exitPolicy : String
  atr : Decimal
  stop : Decimal
  target : Decimal
  stressExitPrice : Decimal
  plannedLoss : Decimal
  notional : Decimal
  costBasis : Decimal
  openedAt : Moment
  deriving DecidableEq

/-- A row of the table `pilot_exit_quotes`. -/
structure ExitQuoteRow where
  quoteId : ℕ
  positionId : ℕ
  pair : String
  bid : Decimal
  ask : Decimal
  observedAt : Moment
  source : String
  recordedAt : Moment
  deriving DecidableEq

/-- A close; the record lag is kept in microseconds. -/
structure CloseRow where
  closeId : ℕ
  positionId : ℕ
  exitReason : ExitReason
  exitSource : String
  exitObservationId : ℤ
  exitBid : Decimal
  exitAsk : Decimal
  exitTs : Moment
  recordLag : ℤ
  quantity : Decimal
  grossCents : ℤ
  entryFeeCents : ℤ
  exitFeeCents : ℤ
  feesCents : ℤ
  netCents : ℤ
  outcome : Outcome
  stop : Decimal
  stopSlippage : Decimal
  stopSlippageBps : Decimal
  closedAt : Moment
  deriving DecidableEq

/-- A row of the table `pilot_locks`. -/
structure LockRow where
  lockId : ℕ
  kind : LockKind
  equity : Decimal
  reference : Decimal
  limitPct : Decimal
  utcDay : ℤ
  evaluatedOn : LockTrigger
  trippedAt : Moment
  deriving DecidableEq

/-- A row of the table `pilot_lock_reviews`. -/
structure ReviewRow where
  reviewId : ℕ
  lockId : ℕ
  reviewer : String
  cause : String
  rebaseEquity : Decimal
  reviewedAt : Moment
  deriving DecidableEq

/-- A row of the table `pilot_equity_marks`. -/
structure MarkRow where
  markId : ℕ
  kind : MarkKind
  utcDay : Option ℤ
  equity : Decimal
  source : MarkSource
  lockId : Option ℕ
  recordedAt : Moment
  deriving DecidableEq

/-- A row of the table `pilot_kill_switch`. -/
structure KillSwitchRow where
  switchId : ℕ
  state : SwitchState
  reason : String
  actor : String
  recordedAt : Moment
  deriving DecidableEq

/-- The tables. -/
structure PilotDb where
  account : Option AccountRow := none
  decisions : List DecisionRow := []
  positions : List PositionRow := []
  exitQuotes : List ExitQuoteRow := []
  closes : List CloseRow := []
  locks : List LockRow := []
  reviews : List ReviewRow := []
  marks : List MarkRow := []
  killSwitches : List KillSwitchRow := []
  deriving DecidableEq

/-! ## Constraints -/

/-- `length(text)` of SQLite: up to the first null character. -/
def sqlLength (text : String) : ℕ := (text.toList.takeWhile fun char => char.toNat ≠ 0).length

/-- A text of Python without surrogates. -/
def string? (text : PyStr) : Option String :=
  if ∀ code ∈ text, code.isValidChar then some (String.ofList (text.map Char.ofNat)) else none

/-- An integer of SQLite has 64 bits; a larger one is an `OverflowError` of the binding. -/
def sqlInteger (number : ℤ) : Except PilotFailure ℤ :=
  if -2 ^ 63 ≤ number ∧ number < 2 ^ 63 then .ok number else .error .overflow

/-- The outcome of a close has the sign of its net amount. -/
def outcomeFits (outcome : Outcome) (net : ℤ) : Bool :=
  match outcome with
  | .win => 0 < net
  | .loss => net < 0
  | .flat => net = 0

namespace PilotDb

variable (db : PilotDb)

/-- The constraints of the table of decisions. -/
def decisionFits (row : DecisionRow) : Prop :=
  (∀ text ∈ [row.eventId, row.runId, row.asset, row.pair, row.quote, row.direction, row.snapshotTs],
    0 < sqlLength text) ∧
  (∀ text ∈ row.atrPair, 0 < sqlLength text) ∧
  (∀ earlier ∈ db.decisions, earlier.eventId ≠ row.eventId) ∧
  (∀ fee ∈ row.entryFeeCents, 0 ≤ fee) ∧ (∀ fee ∈ row.exitFeeCents, 0 ≤ fee) ∧
  sqlLength row.envelopeSha256 = 64 ∧
  ((row.outcome = .opened ∧ row.reason = none ∧ row.detail = "" ∧ row.quantity.isSome ∧
      row.notional.isSome ∧ row.plannedLoss.isSome ∧ row.stopPrice.isSome ∧ row.targetPrice.isSome ∧
      row.entryFeeCents.isSome ∧ row.exitFeeCents.isSome) ∨
    (row.outcome = .noTrade ∧ row.reason.isSome))

instance (row : DecisionRow) : Decidable (db.decisionFits row) :=
  inferInstanceAs (Decidable (_ ∧ _))

/-- The constraints of the table of positions. -/
def positionFits (row : PositionRow) : Prop :=
  (∀ text ∈ [row.eventId, row.runId, row.asset, row.pair, row.quote], 0 < sqlLength text) ∧
  (∀ earlier ∈ db.positions,
    earlier.decisionId ≠ row.decisionId ∧ earlier.eventId ≠ row.eventId) ∧
  row.entryTs < row.dueAt ∧
  ∃ decision ∈ db.decisions, decision.decisionId = row.decisionId ∧
    decision.eventId = row.eventId ∧ decision.outcome = .opened

instance (row : PositionRow) : Decidable (db.positionFits row) :=
  inferInstanceAs (Decidable (_ ∧ _))

/-- The constraints of the table of exit quotes. -/
def exitQuoteFits (row : ExitQuoteRow) : Prop :=
  0 < sqlLength row.pair ∧ 0 < sqlLength row.source ∧ row.source ≠ spotSnapshotSource ∧
  row.observedAt ≤ row.recordedAt ∧ ∃ position ∈ db.positions, position.positionId = row.positionId

instance (row : ExitQuoteRow) : Decidable (db.exitQuoteFits row) :=
  inferInstanceAs (Decidable (_ ∧ _))

/-- The constraints of the table of closes. -/
def closeFits (row : CloseRow) : Prop :=
  0 < sqlLength row.exitSource ∧ 0 ≤ row.recordLag ∧ 0 ≤ row.entryFeeCents ∧
  0 ≤ row.exitFeeCents ∧ 0 ≤ row.feesCents ∧
  row.feesCents = row.entryFeeCents + row.exitFeeCents ∧
  row.netCents = row.grossCents - row.feesCents ∧ outcomeFits row.outcome row.netCents = true ∧
  (∀ earlier ∈ db.closes, earlier.positionId ≠ row.positionId) ∧
  ∃ position ∈ db.positions, position.positionId = row.positionId

instance (row : CloseRow) : Decidable (db.closeFits row) :=
  inferInstanceAs (Decidable (_ ∧ _))

/-- The constraints of the table of reviews. -/
def reviewFits (row : ReviewRow) : Prop :=
  0 < sqlLength row.reviewer ∧ 0 < sqlLength row.cause ∧
  (∀ earlier ∈ db.reviews, earlier.lockId ≠ row.lockId) ∧
  ∃ lock ∈ db.locks, lock.lockId = row.lockId

instance (row : ReviewRow) : Decidable (db.reviewFits row) :=
  inferInstanceAs (Decidable (_ ∧ _))

/-- One evaluated day start for each day, one assigned high-water mark. -/
def markFits (row : MarkRow) : Prop :=
  (row.kind = .dayStart ↔ row.utcDay.isSome) ∧ (row.source = .review ↔ row.lockId.isSome) ∧
  (row.source = .assigned → row.kind = .highWater) ∧
  (row.kind = .dayStart ∧ row.source = .evaluation → ∀ earlier ∈ db.marks,
    earlier.kind = .dayStart → earlier.source = .evaluation → earlier.utcDay ≠ row.utcDay) ∧
  (row.source = .assigned → ∀ earlier ∈ db.marks, earlier.source ≠ .assigned)

instance (row : MarkRow) : Decidable (db.markFits row) :=
  inferInstanceAs (Decidable (_ ∧ _))

/-! ## Inserts -/

/-- There is one account, and SQLite can encode its currency. -/
def insertAccount (row : AccountRow) : Except PilotFailure PilotDb := do
  let currency ← require .encoding (string? row.envelope.currency)
  ensure (db.account = none ∧ sqlLength row.envelopeSha256 = 64 ∧ 0 < row.equityCents ∧
    0 < sqlLength currency) .sqlite
  return { db with account := some row }

/-- A decision that the constraints admit. -/
def insertDecision (row : DecisionRow) : Except PilotFailure PilotDb := do
  ensure (db.decisionFits row) .sqlite
  return { db with decisions := db.decisions ++ [row] }

/-- A position that the constraints admit. -/
def insertPosition (row : PositionRow) : Except PilotFailure PilotDb := do
  ensure (db.positionFits row) .sqlite
  return { db with positions := db.positions ++ [row] }

/-- An exit quote that the constraints admit. -/
def insertExitQuote (row : ExitQuoteRow) : Except PilotFailure PilotDb := do
  ensure (db.exitQuoteFits row) .sqlite
  return { db with exitQuotes := db.exitQuotes ++ [row] }

/-- A close that the constraints admit. -/
def insertClose (row : CloseRow) : Except PilotFailure PilotDb := do
  ensure (db.closeFits row) .sqlite
  return { db with closes := db.closes ++ [row] }

/-- No constraint of the lock table can refuse a row of these types. -/
def insertLock (row : LockRow) : PilotDb := { db with locks := db.locks ++ [row] }

/-- A review that the constraints admit. -/
def insertReview (row : ReviewRow) : Except PilotFailure PilotDb := do
  ensure (db.reviewFits row) .sqlite
  return { db with reviews := db.reviews ++ [row] }

/-- A mark that the constraints admit. -/
def insertMark (row : MarkRow) : Except PilotFailure PilotDb := do
  ensure (db.markFits row) .sqlite
  return { db with marks := db.marks ++ [row] }

/-- A change of the switch with a reason and an actor. -/
def insertKillSwitch (row : KillSwitchRow) : Except PilotFailure PilotDb := do
  ensure (0 < sqlLength row.reason ∧ 0 < sqlLength row.actor) .sqlite
  return { db with killSwitches := db.killSwitches ++ [row] }

/-! ## Reads -/

/-- Positions without a close, oldest first. -/
def openPositions : List PositionRow :=
  db.positions.filter fun position =>
    !db.closes.any fun close => close.positionId = position.positionId

/-- The review of a lock. -/
def reviewOf (lockId : ℕ) : Option ReviewRow :=
  db.reviews.reverse.find? fun review => review.lockId = lockId

/-- Locks without a review, oldest first. -/
def activeLocks : List LockRow := db.locks.filter fun lock => (db.reviewOf lock.lockId).isNone

/-- The equity a day started with. -/
def dayStart (day : ℤ) : Option Decimal :=
  ((db.marks.filter fun mark => mark.kind = .dayStart ∧ mark.utcDay = some day).getLast?).map
    MarkRow.equity

/-- The highest equity so far. -/
def highWater : Option Decimal :=
  ((db.marks.filter fun mark => mark.kind = .highWater).getLast?).map MarkRow.equity

/-- The latest row wins; without a row the switch is released. -/
def killSwitchEngaged : Bool :=
  match db.killSwitches.getLast? with
  | some row => row.state = .engaged
  | none => false

end PilotDb

end CryptoRadar.Pilot
