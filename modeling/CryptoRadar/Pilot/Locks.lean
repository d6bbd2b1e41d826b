import CryptoRadar.Lib.Calendar
import CryptoRadar.Pilot.Tables
import Mathlib.Data.List.Sort

/-!
# The account, its equity and its locks

The writes of `adapters/pilot_store.py` that record the account and the kill switch, the equity
of the account at a moment, and the lock evaluation with its reviews. Each function takes the
tables and returns them changed, or raises; the caller runs it in one transaction.

An evaluation reads the equity at the latest valid quotes: rows of `spot_snapshots`, which other
programs write, and quotes offered with the call.
-/

set_option autoImplicit false

namespace CryptoRadar.Pilot

open Checked
open Paper (PriceValue Quote StatusValue)
open Risk (Envelope LockKind)

/-- What `domain.risk` raises, as the caller sees it. -/
def risked {α : Type} : Except Risk.RiskFailure α → Except PilotFailure α := Except.mapError .risk

/-- A decimal operation of the store itself. -/
def counted {α : Type} : Except DecimalError α → Except PilotFailure α := Except.mapError .decimal

/-! ## Arguments -/

/-- Nothing is left of the text when it is stripped. -/
def isBlank (text : String) : Bool := Text.strip text = ""

/-- `_nonempty`. -/
def nonempty (field value : String) : Except PilotFailure Unit :=
  ensure (isBlank value = false) (.store .invalidArgument (field ++ " must be a non-empty string"))

/-- A quote observed outside `spot_snapshots`. -/
structure ObservedQuote where
  pair : String
  bid : PriceValue
  ask : PriceValue
  observedAt : Moment
  source : String
  deriving DecidableEq

/-- One item of `_check_extra_quotes`. -/
def checkExtraQuote (extra : ObservedQuote) (index : ℕ) : Except PilotFailure Unit := do
  let place := "extra_quotes[" ++ toString index ++ "]"
  nonempty (place ++ ".pair") extra.pair
  nonempty (place ++ ".source") extra.source
  ensure (extra.source ≠ spotSnapshotSource)
    (.store .invalidArgument (place ++ ".source must not be 'spot_snapshot'"))

/-- `_check_extra_quotes`. -/
def checkExtraQuotes (extras : List ObservedQuote) : Except PilotFailure Unit :=
  extras.zipIdx.forM fun item => checkExtraQuote item.1 item.2

/-- `_to_cents`, then the integer column. -/
def toCents (value : Decimal) : Except PilotFailure ℤ := do
  let rounded ← counted (Paper.cents value)
  ensure (Decimal.eq value rounded)
    (.store .invalidArgument (value.text ++ " is not whole cents"))
  let product ← counted (Decimal.mul DecimalContext.default value Risk.hundred)
  sqlInteger product.toInt

/-- `_from_cents`. -/
def fromCents (value : ℤ) : Except DecimalError Decimal :=
  Decimal.div DecimalContext.default (.ofInt value) Risk.hundred

/-! ## Account and kill switch -/

section Account

variable (runtime : Runtime)

/-- `envelope_sha256`. -/
def envelopeSha256 (envelope : Envelope) : String := runtime.sha256Hex envelope.canonicalText

/-- The recorded account: the envelope of its text, when its hash is the recorded one. -/
def readAccount (db : PilotDb) : Except PilotFailure (Option AccountRow) :=
  match db.account with
  | none => .ok none
  | some row =>
      if envelopeSha256 runtime row.envelope = row.envelopeSha256 then .ok (some row)
      else .error (.store .malformedRow
        ("stored envelope_sha256 is " ++ runtime.reprText row.envelopeSha256))

/-- The account has to be recorded. -/
def requireAccount (db : PilotDb) : Except PilotFailure AccountRow := do
  let account ← readAccount runtime db
  require (.store .noAccount "record the account (ensure_account) first") account

/-- Record the envelope once, with the high-water mark at the assigned equity. -/
def ensureAccount (envelope : Envelope) (now : Moment) (db : PilotDb) :
    Except PilotFailure (AccountRow × PilotDb) := do
  match ← readAccount runtime db with
  | some existing => return (existing, db)
  | none =>
      let cents ← toCents envelope.equity
      let row : AccountRow := ⟨envelope, envelopeSha256 runtime envelope, cents, now⟩
      let recorded ← db.insertAccount row
      let marked ← recorded.insertMark ⟨recorded.marks.length + 1, .highWater, none,
        envelope.equity.throughText, .assigned, none, now⟩
      return (row, marked)

end Account

/-- `_set_kill_switch`. -/
def setKillSwitch (state : SwitchState) (reason actor : String) (now : Moment) (db : PilotDb) :
    Except PilotFailure (KillSwitchRow × PilotDb) := do
  nonempty "reason" reason
  nonempty "actor" actor
  let row : KillSwitchRow := ⟨db.killSwitches.length + 1, state, reason, actor, now⟩
  let after ← db.insertKillSwitch row
  return (row, after)

/-! ## Observations -/

/-- A row of `spot_snapshots`; the id and the time are there when they have their type. -/
structure SnapshotRow where
  ident : Option ℤ
  pair : String
  ts : Option String
  bid : PriceValue
  ask : PriceValue
  status : StatusValue
  deriving DecidableEq

/-- The quotes a call can see, at a time of UTC: `now + margin` would lose the fold of another. -/
structure Quotes where
  snapshots : List SnapshotRow
  extras : List ObservedQuote
  now : Moment

/-- A valid quote of one pair at one time; a snapshot has rank 0, an extra quote rank 1. -/
structure Observation where
  observedAt : Moment
  rank : ℕ
  ident : ℤ
  quote : Quote
  extra : Option ObservedQuote

/-- The order of observations: time, rank, id. -/
def Observation.before (first second : Observation) : Bool :=
  first.observedAt < second.observedAt ||
    (first.observedAt = second.observedAt &&
      (first.rank < second.rank || (first.rank = second.rank && first.ident < second.ident)))

/-- The order in which observations are read. -/
def Observation.notAfter (first second : Observation) : Prop := second.before first = false

instance : DecidableRel Observation.notAfter := fun first second =>
  inferInstanceAs (Decidable (second.before first = false))

/-- Rows in the order `ts, id`. -/
def SnapshotRow.notAfter (first second : SnapshotRow) : Prop :=
  first.ts.getD "" < second.ts.getD "" ∨
    (first.ts.getD "" = second.ts.getD "" ∧ first.ident.getD 0 ≤ second.ident.getD 0)

instance : DecidableRel SnapshotRow.notAfter := fun _ _ => inferInstanceAs (Decidable (_ ∨ _))

/-- `SNAPSHOT_TEXT_MARGIN`. -/
def snapshotTextMargin : ℤ := Moment.seconds 60

/-- Observed after the start, or at it when it is included, and up to now. -/
def inWindow (start now : Moment) (includeStart : Bool) (moment : Moment) : Bool :=
  moment ≤ now && (start < moment || (start = moment && includeStart))

section Equity

variable (runtime : Runtime)

/-- The observation of one snapshot row, when it is a valid quote in the window. -/
def spotObservation (start now : Moment) (includeStart : Bool) (row : SnapshotRow) :
    Option Observation := do
  let ident ← row.ident
  let ts ← row.ts
  let aware ← runtime.parseAware ts
  if aware.offset = 0 && inWindow start now includeStart aware.moment then
    match Paper.validateQuote row.bid row.ask row.status with
    | .ok quote => some ⟨aware.moment, 0, ident, quote, none⟩
    | .error _ => none
  else none

/-- Valid spot quotes of a pair, in time order. The text bounds come first, as the query has
them. -/
def spotObservations (quotes : Quotes) (pair : String) (start : Moment) (includeStart : Bool) :
    Except PilotFailure (List Observation) := do
  let lower ← require .overflow (start.plus? (-snapshotTextMargin))
  let upper ← require .overflow (quotes.now.plus? snapshotTextMargin)
  let rows := (quotes.snapshots.filter fun row => row.pair = pair &&
    row.ts.any fun ts => utcText lower ≤ ts && ts ≤ utcText upper).insertionSort SnapshotRow.notAfter
  let found := rows.filterMap (spotObservation runtime start quotes.now includeStart)
  return found.insertionSort Observation.notAfter

/-- A quote from outside the snapshots, if it is inside the window. -/
def extraObservation (pair : String) (start now : Moment) (includeStart : Bool)
    (extra : ObservedQuote) (index : ℕ) : Option Observation :=
  if extra.pair = pair && inWindow start now includeStart extra.observedAt then
    match Paper.validateQuote extra.bid extra.ask .missing with
    | .ok quote => some ⟨extra.observedAt, 1, index, quote, some extra⟩
    | .error _ => none
  else none

/-- The quotes from outside the snapshots that are inside the window. -/
def extraObservations (quotes : Quotes) (pair : String) (start : Moment) (includeStart : Bool) :
    List Observation :=
  quotes.extras.zipIdx.filterMap fun item =>
    extraObservation pair start quotes.now includeStart item.1 item.2

/-- Snapshots and extra quotes of a position's pair. -/
def observations (quotes : Quotes) (position : PositionRow) (includeStart : Bool) :
    Except PilotFailure (List Observation) := do
  let spot ← spotObservations runtime quotes position.pair position.entryTs includeStart
  return spot ++ extraObservations quotes position.pair position.entryTs includeStart

/-- The entry quote of a position, which was valid when it was written. -/
def entryQuote (position : PositionRow) : Except PilotFailure Quote :=
  (Paper.validateQuote (.decimal (some position.entryBid)) (.decimal (some position.entryAsk))
    .missing).mapError fun _ => .store .malformedRow ("stored entry quote is (Decimal('" ++
      position.entryBid.text ++ "'), Decimal('" ++ position.entryAsk.text ++ "'))")

/-- The latest valid quote from entry up to now, else the entry quote. -/
def markQuote (quotes : Quotes) (position : PositionRow) : Except PilotFailure Quote := do
  match ← observations runtime quotes position true with
  | [] => entryQuote position
  | first :: rest =>
      return (rest.foldl (fun best next => if best.before next then next else best) first).quote

/-- What the account is worth. -/
structure AccountState where
  equity : Decimal
  cash : Decimal
  realized : Decimal
  openPositions : List PositionRow
  openPlannedLoss : Decimal
  openNotional : Decimal

/-- The gain of an open position at its mark. -/
def markPosition (quotes : Quotes) (position : PositionRow) : Except PilotFailure Decimal := do
  let quote ← markQuote runtime quotes position
  risked (Risk.unrealizedMark position.quantity quote.bid position.costBasis position.feeBps)

/-- `_account_state`. -/
def accountState (account : AccountRow) (quotes : Quotes) (db : PilotDb) :
    Except PilotFailure AccountState := do
  let nets ← counted (db.closes.mapM fun close => fromCents close.netCents)
  let positions := db.openPositions
  let marks ← positions.mapM (markPosition runtime quotes)
  let assigned := account.envelope.equity
  let equity ← risked (Risk.accountEquity assigned nets marks)
  let cash ← risked (Risk.availableCash assigned nets (positions.map PositionRow.costBasis))
  let realized ← counted (Risk.total nets)
  let openPlannedLoss ← counted (Risk.total (positions.map PositionRow.plannedLoss))
  let openNotional ← counted (Risk.total (positions.map PositionRow.notional))
  return ⟨equity, cash, realized, positions, openPlannedLoss, openNotional⟩

end Equity

/-! ## Lock evaluation -/

/-- The account at one evaluation: its equity, its references and the locks in force. -/
structure LockEvaluation where
  equity : Decimal
  dayStart : Decimal
  highWater : Decimal
  tripped : List LockRow
  active : List LockRow

/-- The kinds of the active locks. -/
def LockEvaluation.activeKinds (evaluation : LockEvaluation) : List LockKind :=
  (evaluation.active.map LockRow.kind).eraseDups

/-- The day reference: the recorded one, or the equity of the first evaluation of the day. -/
def dayReference (equity : Decimal) (now : Moment) (db : PilotDb) :
    Except PilotFailure (Decimal × PilotDb) :=
  match db.dayStart now.day with
  | some reference => .ok (reference, db)
  | none => do
      let after ← db.insertMark ⟨db.marks.length + 1, .dayStart, some now.day, equity.throughText,
        .evaluation, none, now⟩
      return (equity, after)

/-- The high-water mark after this equity, recorded when it rose. -/
def raiseHighWater (equity : Decimal) (now : Moment) (db : PilotDb) :
    Except PilotFailure (Decimal × PilotDb) := do
  let water ← require (.store .malformedRow "stored pilot_equity_marks is 'no high-water mark'")
    db.highWater
  let raised ← risked (Risk.nextHighWater water equity)
  if Decimal.eq raised water then return (water, db)
  else do
    let after ← db.insertMark ⟨db.marks.length + 1, .highWater, none, raised.throughText,
      .evaluation, none, now⟩
    return (raised, after)

/-- What trips a lock. -/
structure Trip where
  envelope : Envelope
  equity : Decimal
  dayStart : Decimal
  highWater : Decimal
  trigger : LockTrigger
  now : Moment

/-- The row of a lock. -/
def Trip.row (trip : Trip) (lockId : ℕ) (kind : LockKind) : LockRow where
  lockId := lockId
  kind := kind
  equity := trip.equity.throughText
  reference := (Risk.referenceOf trip.dayStart trip.highWater kind).throughText
  limitPct := (trip.envelope.limitPct kind).throughText
  utcDay := trip.now.day
  evaluatedOn := trip.trigger
  trippedAt := trip.now

/-- One turn of the loop over the tripped kinds: a kind that is active already is passed over. -/
def Trip.insert (trip : Trip) (already : List LockKind) (db : PilotDb) (kind : LockKind) : PilotDb :=
  if kind ∈ already then db else db.insertLock (trip.row (db.locks.length + 1) kind)

/-- `_evaluate_locks`. -/
def evaluateLocks (account : AccountRow) (state : AccountState) (now : Moment)
    (trigger : LockTrigger) (db : PilotDb) : Except PilotFailure (LockEvaluation × PilotDb) := do
  let equity := state.equity
  let (reference, dayed) ← dayReference equity now db
  let (water, marked) ← raiseHighWater equity now dayed
  let already := marked.activeLocks.map LockRow.kind
  let kinds ← risked (Risk.trippedLocks account.envelope equity reference water)
  let trip : Trip := ⟨account.envelope, equity, reference, water, trigger, now⟩
  let after := kinds.foldl (trip.insert already) marked
  return (⟨equity, reference, water, after.locks.drop marked.locks.length, after.activeLocks⟩, after)

section Calls

variable (runtime : Runtime)

/-- `evaluate_locks`. -/
def evaluateLocksCall (quotes : Quotes) (db : PilotDb) :
    Except PilotFailure (LockEvaluation × PilotDb) := do
  checkExtraQuotes quotes.extras
  let account ← requireAccount runtime db
  let state ← accountState runtime account quotes db
  evaluateLocks account state quotes.now .mark db

/-- The mark of a review: the new high-water mark, or the day reference for the rest of the day. -/
def reviewMark (lock : LockRow) (equity : Decimal) (now : Moment) (markId : ℕ) : MarkRow :=
  match lock.kind with
  | .drawdown => ⟨markId, .highWater, none, equity.throughText, .review, some lock.lockId, now⟩
  | .dailyLoss =>
      ⟨markId, .dayStart, some now.day, equity.throughText, .review, some lock.lockId, now⟩

/-- `review_lock`: clear one lock and rebase its reference to the equity at `now`. -/
def reviewLock (lockId : ℤ) (reviewer cause : String) (quotes : Quotes) (db : PilotDb) :
    Except PilotFailure (ReviewRow × PilotDb) := do
  nonempty "reviewer" reviewer
  nonempty "cause" cause
  checkExtraQuotes quotes.extras
  let account ← requireAccount runtime db
  let lock ← require (.store .unknownLock ("no lock " ++ toString lockId))
    (db.locks.find? fun lock => (lock.lockId : ℤ) = lockId)
  ensure ((db.reviewOf lock.lockId).isNone)
    (.store .lockAlreadyReviewed ("lock " ++ toString lockId ++ " was reviewed already"))
  let state ← accountState runtime account quotes db
  let review : ReviewRow := ⟨db.reviews.length + 1, lock.lockId, reviewer, cause,
    state.equity.throughText, quotes.now⟩
  let reviewed ← db.insertReview review
  let marked ← reviewed.insertMark
    (reviewMark lock state.equity quotes.now (reviewed.marks.length + 1))
  return (review, marked)

end Calls

end CryptoRadar.Pilot
