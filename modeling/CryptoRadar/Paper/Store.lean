import CryptoRadar.Paper.Wallet
import CryptoRadar.Pilot.Operations

/-!
# The store of the paper game

The four append-only tables of `adapters/paper_store.py` and the calls that write them. As in the
pilot a table is the list of its rows, a row keeps its id, which is its place, and an `insert`
raises when a constraint of the schema refuses it. Decimal columns hold the number that their
text reads as; the seconds of a close are kept in microseconds.

`open_candidates` reads the wallet, the balance and the open plays under the write lock and
decides every candidate there. `close_plays` looks for exits first, outside a transaction, and
then writes the closes of the plays that are still open: between the two other writers may
commit, so the machine takes them as two steps of one writer (`findExits`, then `closePlays`). A
call that raises changes nothing.

The quotes of the radar are read as in the pilot: `_spot_observations` is the same function in
both stores.
-/

set_option autoImplicit false

namespace CryptoRadar.Paper

open Checked
open Pilot (ObservedQuote Observation PairValue Quotes isBlank spotSnapshotSource sqlLength)
open Risk (DirectionValue)

/-- The codes of a `PaperStoreError`. -/
inductive PaperStoreFailure where
  | invalidRow
  | invalidArgument
  | noWallet
  | malformedRow
  deriving DecidableEq, Repr

/-- What a call raises: an error of the store, a constraint of the schema (`SQLITE_ERROR`), what
the domain raises, a decimal signal, or an `OverflowError`. -/
inductive StoreRaise where
  | store (code : PaperStoreFailure) (detail : String)
  | sqlite
  | paper (failure : PaperFailure)
  | decimal (error : DecimalError)
  | overflow
  deriving DecidableEq, Repr

/-- What `domain.paper` raises, as the caller sees it. -/
def domain {α : Type} : Except PaperFailure α → Except StoreRaise α := Except.mapError .paper

/-- A decimal operation of the store itself. -/
def counted {α : Type} : Except DecimalError α → Except StoreRaise α := Except.mapError .decimal

/-- A `PaperStoreError` about an argument. -/
def invalidArgument (detail : String) : StoreRaise := .store .invalidArgument detail

/-! ## Rows -/

/-- The row of the table `paper_wallet`. -/
structure WalletRow where
  startBalanceCents : ℤ
  currency : String
  recordedAt : Moment
  deriving DecidableEq

/-- A play; without levels it is a legacy play. -/
structure PlayRow where
  playId : ℕ
  eventId : String
  runId : String
  asset : String
  pair : String
  quote : String
  direction : Direction
  stakeCents : ℤ
  feeBps : Decimal
  holdMinutes : ℕ
  entryBid : Decimal
  entryAsk : Decimal
  entryTs : Moment
  dueAt : Moment
  whyJson : String
  openedAt : Moment
  exitPolicy : Option String
  atr : Option Decimal
  stop : Option Decimal
  target : Option Decimal
  deriving DecidableEq

/-- A close; without a reason it is that of a legacy play. -/
structure CloseRow where
  closeId : ℕ
  playId : ℕ
  exitBid : Decimal
  exitAsk : Decimal
  exitTs : Moment
  exitSnapshotId : ℤ
  dueAt : Moment
  delay : ℤ
  grossMidCents : ℤ
  spreadCostCents : ℤ
  feesCents : ℤ
  netCents : ℤ
  outcome : Outcome
  closedAt : Moment
  exitReason : Option ExitReason
  exitSource : Option String
  recordLag : Option ℤ
  deriving DecidableEq

/-- A row of the table `paper_exit_quotes`. -/
structure ExitQuoteRow where
  quoteId : ℕ
  playId : ℕ
  pair : String
  bid : Decimal
  ask : Decimal
  observedAt : Moment
  source : String
  recordedAt : Moment
  deriving DecidableEq

/-- The tables. -/
structure PaperDb where
  wallet : Option WalletRow := none
  plays : List PlayRow := []
  closes : List CloseRow := []
  exitQuotes : List ExitQuoteRow := []
  deriving DecidableEq

/-! ## Constraints -/

/-- The greatest id that SQLite gives a row. -/
def maxRowId : ℕ := 2 ^ 63 - 1

/-- An integer of SQLite has 64 bits; a larger one is an `OverflowError` of the binding. -/
def sqlInteger (number : ℤ) : Except StoreRaise ℤ :=
  if -2 ^ 63 ≤ number ∧ number < 2 ^ 63 then .ok number else .error .overflow

namespace PaperDb

variable (db : PaperDb)

/-- The facts of a play are read by SQLite as a JSON object or not. -/
def playFits (row : PlayRow) (whyReadable : Bool) : Prop :=
  row.playId ≤ maxRowId ∧
  (∀ text ∈ [row.eventId, row.runId, row.asset, row.pair, row.quote], 0 < sqlLength text) ∧
  (∀ earlier ∈ db.plays, earlier.eventId ≠ row.eventId) ∧
  0 < row.stakeCents ∧ 0 < row.holdMinutes ∧ row.entryTs < row.dueAt ∧ whyReadable = true ∧
  (∀ policy ∈ row.exitPolicy, 0 < sqlLength policy)

instance (row : PlayRow) (whyReadable : Bool) : Decidable (db.playFits row whyReadable) :=
  inferInstanceAs (Decidable (_ ∧ _))

/-- The constraints of the table of closes. -/
def closeFits (row : CloseRow) : Prop :=
  row.closeId ≤ maxRowId ∧ (∀ earlier ∈ db.closes, earlier.playId ≠ row.playId) ∧
  (∃ play ∈ db.plays, play.playId = row.playId) ∧ row.dueAt ≤ row.exitTs ∧ 0 ≤ row.delay ∧
  0 ≤ row.spreadCostCents ∧ 0 ≤ row.feesCents ∧
  row.netCents = row.grossMidCents - row.spreadCostCents - row.feesCents ∧
  Pilot.outcomeFits row.outcome row.netCents = true ∧
  (∀ source ∈ row.exitSource, 0 < sqlLength source) ∧ (∀ lag ∈ row.recordLag, 0 ≤ lag)

instance (row : CloseRow) : Decidable (db.closeFits row) := inferInstanceAs (Decidable (_ ∧ _))

/-- The constraints of the table of exit quotes. -/
def exitQuoteFits (row : ExitQuoteRow) : Prop :=
  row.quoteId ≤ maxRowId ∧ 0 < sqlLength row.pair ∧ 0 < sqlLength row.source ∧
  row.source ≠ spotSnapshotSource ∧ row.observedAt ≤ row.recordedAt ∧
  ∃ play ∈ db.plays, play.playId = row.playId

instance (row : ExitQuoteRow) : Decidable (db.exitQuoteFits row) :=
  inferInstanceAs (Decidable (_ ∧ _))

/-! ## Inserts -/

/-- A play that the constraints admit. -/
def insertPlay (row : PlayRow) (whyReadable : Bool) : Except StoreRaise PaperDb := do
  ensure (db.playFits row whyReadable) .sqlite
  return { db with plays := db.plays ++ [row] }

/-- A close that the constraints admit. -/
def insertClose (row : CloseRow) : Except StoreRaise PaperDb := do
  ensure (db.closeFits row) .sqlite
  return { db with closes := db.closes ++ [row] }

/-- An exit quote that the constraints admit. -/
def insertExitQuote (row : ExitQuoteRow) : Except StoreRaise PaperDb := do
  ensure (db.exitQuoteFits row) .sqlite
  return { db with exitQuotes := db.exitQuotes ++ [row] }

/-! ## Reads -/

/-- A play has a close. -/
def isClosed (playId : ℕ) : Bool := db.closes.any fun close => close.playId = playId

/-- Plays without a close row, oldest first. -/
def openPlays : List PlayRow := db.plays.filter fun play => !db.isClosed play.playId

end PaperDb

/-! ## Amounts -/

/-- `MAX_AMOUNT`. -/
def maxAmount : Decimal := .ofNat 1000000000

/-- `_to_cents`, then the integer column. -/
def toCents (value : Decimal) : Except StoreRaise ℤ := do
  let product ← counted (Decimal.mul DecimalContext.default value Risk.hundred)
  sqlInteger product.toInt

/-- `_from_cents`. -/
def fromCents (value : ℤ) : Except StoreRaise Decimal :=
  counted (Decimal.div DecimalContext.default (.ofInt value) Risk.hundred)

/-- `_whole_cents`. -/
def wholeCents (field : String) (value : Decimal) : Except StoreRaise Unit := do
  let refusal := invalidArgument
    (field ++ " must be a positive Decimal in whole cents, at most " ++ maxAmount.text)
  ensure (Decimal.lt zero value = true ∧ Decimal.le value maxAmount = true) refusal
  let rounded ← counted (cents value)
  ensure (Decimal.eq value rounded = true) refusal

/-! ## The wallet -/

/-- Record the wallet once; an existing wallet is returned unchanged. -/
def ensureWallet (startBalance : Decimal) (currency : String) (now : Moment) (db : PaperDb) :
    Except StoreRaise (WalletRow × PaperDb) := do
  wholeCents "start_balance" startBalance
  ensure (isBlank currency = false) (invalidArgument "currency must be a non-empty string")
  match db.wallet with
  | some existing => return (existing, db)
  | none =>
      let startCents ← toCents startBalance
      ensure (0 < startCents ∧ 0 < sqlLength currency) .sqlite
      let row : WalletRow := ⟨startCents, currency, now⟩
      return (row, { db with wallet := some row })

/-! ## Opening -/

/-- The facts of a candidate as given: a mapping with its JSON text and whether SQLite reads that
as an object, a mapping without a JSON text, or another value with the name of its type. -/
inductive WhyValue where
  | facts (json : String) (readable : Bool)
  | unserialisable (detail : String)
  | other (typeName : String)
  deriving DecidableEq, Repr

/-- A candidate for a play. -/
structure PaperCandidate where
  eventId : String
  runId : String
  asset : String
  pair : String
  quote : String
  direction : DirectionValue
  bid : PriceValue
  ask : PriceValue
  snapshotTs : String
  status : StatusValue
  why : WhyValue
  atr : PriceValue
  atrPair : PairValue

/-- What every play of a call has in common. -/
structure PlayTerms where
  stake : Decimal
  feeBps : Decimal
  maxOpen : ℤ

/-- A candidate that opens no play, and why. -/
structure Skip where
  eventId : String
  reason : SkipReason
  detail : Option String
  deriving DecidableEq

/-- A candidate that was validated. -/
structure CheckedCandidate where
  candidate : PaperCandidate
  entryTs : Moment
  whyJson : String
  whyReadable : Bool

section Opening

variable (runtime : Runtime)

/-- `_check_candidate`. -/
def checkCandidate (candidate : PaperCandidate) (index : ℕ) : Except StoreRaise CheckedCandidate := do
  let invalid (field detail : String) : StoreRaise :=
    .store .invalidRow ("candidate " ++ toString index ++ " " ++ field ++ ": " ++ detail)
  let required (item : String × String) : Except StoreRaise Unit :=
    ensure (isBlank item.2 = false)
      (invalid item.1 ("must be a non-empty string, got " ++ runtime.reprText item.2))
  [("event_id", candidate.eventId), ("run_id", candidate.runId), ("asset", candidate.asset),
    ("pair", candidate.pair), ("quote", candidate.quote),
    ("snapshot_ts", candidate.snapshotTs)].forM required
  let aware ← require (invalid "snapshot_ts" ("must be ISO-8601 text with a UTC offset, got " ++
    runtime.reprText candidate.snapshotTs)) (runtime.parseAware candidate.snapshotTs)
  match candidate.why with
  | .facts json readable => return ⟨candidate, aware.moment, json, readable⟩
  | .unserialisable detail =>
      throw (invalid "why" ("must be JSON without NaN/Infinity: " ++ detail))
  | .other typeName => throw (invalid "why" ("must be a mapping, got " ++ typeName))

/-- `_check_terms`. -/
def checkTerms (terms : PlayTerms) : Except StoreRaise Unit := do
  wholeCents "stake" terms.stake
  ensure (Decimal.lt terms.feeBps zero = false)
    (invalidArgument "fee_bps must be a finite Decimal >= 0")
  ensure (0 < terms.maxOpen) (invalidArgument "max_open must be a positive int")

/-- `_exit_plan`: the levels of a candidate, or why it cannot open. -/
def exitPlan (candidate : PaperCandidate) (direction : Direction) (quote : Quote) :
    Except StoreRaise (Except Skip ExitLevels) :=
  match validateAtr candidate.atr with
  | .error problem => .ok (.error ⟨candidate.eventId, .noValidAtr, some problem.text⟩)
  | .ok atr =>
      if candidate.atrPair ≠ .text candidate.pair then
        .ok (.error ⟨candidate.eventId, .noValidAtr, some ("pair_mismatch: atr of " ++
          candidate.atrPair.shown runtime ++ ", entry on " ++ runtime.reprText candidate.pair)⟩)
      else do
        match ← domain (exitLevels direction quote atr) with
        | some levels => return .ok levels
        | none => return .error ⟨candidate.eventId, .invalidLevels,
            some ("atr " ++ atr.text ++ " leaves a level <= 0")⟩

/-- What a candidate enters with when nothing about itself is missing: its direction, its quote
and its exit levels. -/
structure Entry where
  direction : Direction
  quote : Quote
  levels : ExitLevels

/-- The checks of a candidate that do not look at the wallet. -/
def entryOf (candidate : PaperCandidate) : Except StoreRaise (Except Skip Entry) :=
  match parseDirection candidate.direction with
  | none => .ok (.error ⟨candidate.eventId, .noDirection, none⟩)
  | some direction =>
      match validateQuote candidate.bid candidate.ask candidate.status with
      | .error problem => .ok (.error ⟨candidate.eventId, .invalidPrice, some problem.text⟩)
      | .ok quote => do
          match ← exitPlan runtime candidate direction quote with
          | .error skip => return .error skip
          | .ok levels => return .ok ⟨direction, quote, levels⟩

/-- The row of a play at its entry. -/
def playRow (playId : ℕ) (item : CheckedCandidate) (entry : Entry) (terms : PlayTerms)
    (openedAt : Moment) : Except StoreRaise PlayRow := do
  let due ← domain (dueAt item.entryTs entry.levels.holdMinutes)
  let stakeCents ← toCents terms.stake
  return {
    playId := playId
    eventId := item.candidate.eventId
    runId := item.candidate.runId
    asset := item.candidate.asset
    pair := item.candidate.pair
    quote := item.candidate.quote
    direction := entry.direction
    stakeCents := stakeCents
    feeBps := terms.feeBps.throughText
    holdMinutes := entry.levels.holdMinutes
    entryBid := entry.quote.bid.throughText
    entryAsk := entry.quote.ask.throughText
    entryTs := item.entryTs
    dueAt := due
    whyJson := item.whyJson
    openedAt := openedAt
    exitPolicy := some entry.levels.policyId
    atr := some entry.levels.atr.throughText
    stop := some entry.levels.stop.throughText
    target := some entry.levels.target.throughText }

/-- The arguments of `open_candidates`. -/
structure OpenCall where
  candidates : List PaperCandidate
  terms : PlayTerms
  now : Moment

/-- What the loop of `open_candidates` keeps. -/
structure OpenProgress where
  db : PaperDb
  positions : List OpenPosition
  recorded : List String
  openedIds : List ℕ
  skipped : List Skip

/-- One more candidate is skipped. -/
def OpenProgress.skip (progress : OpenProgress) (skip : Skip) : OpenProgress :=
  { progress with skipped := progress.skipped ++ [skip] }

/-- One turn of the loop. -/
def openOne (call : OpenCall) (currentBalance : Decimal) (progress : OpenProgress)
    (item : CheckedCandidate) : Except StoreRaise OpenProgress :=
  let candidate := item.candidate
  if candidate.eventId ∈ progress.recorded then
    .ok (progress.skip ⟨candidate.eventId, .alreadyRecorded, none⟩)
  else do
    match ← entryOf runtime candidate with
    | .error skip => return progress.skip skip
    | .ok entry =>
        let refusal ← domain (admitPlay (.text entry.direction.text) candidate.asset
          progress.positions currentBalance call.terms.stake call.terms.maxOpen)
        match refusal with
        | some reason => return progress.skip ⟨candidate.eventId, reason, none⟩
        | none =>
            let row ← playRow (progress.db.plays.length + 1) item entry call.terms call.now
            let after ← progress.db.insertPlay row item.whyReadable
            return { progress with
              db := after
              positions := progress.positions ++ [⟨candidate.asset, call.terms.stake⟩]
              recorded := progress.recorded ++ [candidate.eventId]
              openedIds := progress.openedIds ++ [row.playId] }

/-- What `open_candidates` returns. -/
structure OpenReport where
  opened : List PlayRow
  skipped : List Skip

/-- The balance and the open positions, read under the write lock. -/
def readWallet (db : PaperDb) : Except StoreRaise (Decimal × List OpenPosition) := do
  let wallet ← require (.store .noWallet "record the wallet before opening plays") db.wallet
  let start ← fromCents wallet.startBalanceCents
  let nets ← db.closes.mapM fun close => fromCents close.netCents
  let currentBalance ← domain (balance start nets)
  let positions ← db.openPlays.mapM fun play => do
    let stake ← fromCents play.stakeCents
    return (⟨play.asset, stake⟩ : OpenPosition)
  return (currentBalance, positions)

/-- The transaction of `open_candidates`. -/
def openChecked (call : OpenCall) (checked : List CheckedCandidate) (db : PaperDb) :
    Except StoreRaise OpenProgress := do
  let (currentBalance, positions) ← readWallet db
  checked.foldlM (openOne runtime call currentBalance)
    ⟨db, positions, db.plays.map PlayRow.eventId, [], []⟩

/-- `open_candidates`. -/
def openCandidates (call : OpenCall) (db : PaperDb) : Except StoreRaise (OpenReport × PaperDb) := do
  checkTerms call.terms
  let checked ← call.candidates.zipIdx.mapM fun item => checkCandidate runtime item.1 item.2
  if checked.isEmpty then return (⟨[], []⟩, db)
  else
    let progress ← openChecked runtime call checked db
    return (⟨progress.db.plays.filter fun play => play.playId ∈ progress.openedIds,
      progress.skipped⟩, progress.db)

end Opening

/-! ## Closing -/

/-- The observation that closes a play, and why; no reason for a legacy play. -/
structure Exit where
  play : PlayRow
  observation : Observation
  reason : Option ExitReason

/-- The arguments of `close_plays`. -/
structure CloseCall where
  quotes : Quotes
  playIds : Option (List ℤ)

/-- What the first phase of `close_plays` found. -/
structure ClosePlan where
  call : CloseCall
  exits : List Exit
  pending : List ℕ

/-- One item of `_check_extra_quotes`. -/
def checkExtraQuote (extra : ObservedQuote) (index : ℕ) : Except StoreRaise Unit := do
  let place := "extra_quotes[" ++ toString index ++ "]"
  ensure (isBlank extra.pair = false) (invalidArgument (place ++ ".pair must be a non-empty string"))
  ensure (isBlank extra.source = false ∧ extra.source ≠ spotSnapshotSource)
    (invalidArgument (place ++ ".source must be a non-empty string other than 'spot_snapshot'"))

/-- `_check_extra_quotes`. -/
def checkExtraQuotes (extras : List ObservedQuote) : Except StoreRaise Unit :=
  extras.zipIdx.forM fun item => checkExtraQuote item.1 item.2

/-- The first observation that closes a play with these levels. -/
def firstExit (play : PlayRow) (stop target : Decimal) :
    List Observation → Except StoreRaise (Option Exit)
  | [] => .ok none
  | observation :: rest => do
      match ← domain (exitDecision play.direction stop target play.dueAt observation.observedAt
          observation.quote) with
      | some reason => return some ⟨play, observation, some reason⟩
      | none => firstExit play stop target rest

section Closing

variable (runtime : Runtime)

/-- `_spot_observations`. -/
def spotObservations (quotes : Quotes) (pair : String) (start : Moment) (includeStart : Bool) :
    Except StoreRaise (List Observation) :=
  (Pilot.spotObservations runtime quotes pair start includeStart).mapError fun _ => .overflow

/-- `_find_exit`. -/
def findExit (quotes : Quotes) (play : PlayRow) : Except StoreRaise (Option Exit) :=
  match play.stop, play.target with
  | some stop, some target => do
      let spot ← spotObservations runtime quotes play.pair play.entryTs false
      let seen := spot ++ Pilot.extraObservations quotes play.pair play.entryTs false
      firstExit play stop target (seen.insertionSort Observation.notAfter)
  | _, _ =>
      if quotes.now < play.dueAt then .ok none
      else do
        let spot ← spotObservations runtime quotes play.pair play.dueAt true
        return spot.head?.map fun observation => ⟨play, observation, none⟩

/-- One turn of the first phase. -/
def findOne (call : CloseCall) (plan : ClosePlan) (play : PlayRow) : Except StoreRaise ClosePlan :=
  if call.playIds.any fun ids => (play.playId : ℤ) ∉ ids then .ok plan
  else do
    match ← findExit runtime call.quotes play with
    | some found => return { plan with exits := plan.exits ++ [found] }
    | none =>
        return if play.dueAt ≤ call.quotes.now then
          { plan with pending := plan.pending ++ [play.playId] }
        else plan

/-- The first phase of `close_plays`: the exits of the open plays. -/
def findExits (call : CloseCall) (db : PaperDb) : Except StoreRaise ClosePlan := do
  checkExtraQuotes call.quotes.extras
  db.openPlays.foldlM (findOne runtime call) ⟨call, [], []⟩

end Closing

/-- The entry quote of a play, which was valid when it was written. -/
def entryQuote (play : PlayRow) : Except StoreRaise Quote :=
  (validateQuote (.decimal (some play.entryBid)) (.decimal (some play.entryAsk)) .missing).mapError
    fun _ => .store .malformedRow ("stored entry quote is (Decimal('" ++ play.entryBid.text ++
      "'), Decimal('" ++ play.entryAsk.text ++ "'))")

/-- A quote from outside the snapshots that closed a play is recorded. -/
def recordExitQuote (found : Exit) (closedAt : Moment) (db : PaperDb) :
    Except StoreRaise (ℤ × PaperDb) :=
  match found.reason, found.observation.extra with
  | some _, some extra => do
      let quoteId := db.exitQuotes.length + 1
      let after ← db.insertExitQuote ⟨quoteId, found.play.playId, found.play.pair,
        found.observation.quote.bid.throughText, found.observation.quote.ask.throughText,
        found.observation.observedAt, extra.source, closedAt⟩
      return (quoteId, after)
  | _, _ => .ok (found.observation.ident, db)

/-- When the exit was due: a stop or a target when it was touched. -/
def Exit.due (found : Exit) : Moment :=
  match found.reason with
  | some .stop | some .target => found.observation.observedAt
  | some .time | none => found.play.dueAt

/-- Where the quote of an exit by level comes from. -/
def Exit.source (found : Exit) : Option String :=
  found.reason.map fun _ => (found.observation.extra.map ObservedQuote.source).getD spotSnapshotSource

/-- The row of a close. -/
def closeRow (found : Exit) (now : Moment) (result : PlayResult) (exitId : ℤ) (closeId : ℕ) :
    Except StoreRaise CloseRow := do
  let observation := found.observation
  let snapshotId ← sqlInteger exitId
  let grossMid ← toCents result.grossMid
  let spreadCost ← toCents result.spreadCost
  let fees ← toCents result.fees
  let net ← toCents result.net
  return {
    closeId := closeId
    playId := found.play.playId
    exitBid := observation.quote.bid.throughText
    exitAsk := observation.quote.ask.throughText
    exitTs := observation.observedAt
    exitSnapshotId := snapshotId
    dueAt := found.due
    delay := observation.observedAt.micros - found.due.micros
    grossMidCents := grossMid
    spreadCostCents := spreadCost
    feesCents := fees
    netCents := net
    outcome := result.outcome
    closedAt := now
    exitReason := found.reason
    exitSource := found.source
    recordLag := found.reason.map fun _ => now.micros - observation.observedAt.micros }

/-- `_write_close`: nothing is written for a play that is closed already. -/
def writeClose (now : Moment) (progress : PaperDb × List ℕ) (found : Exit) :
    Except StoreRaise (PaperDb × List ℕ) :=
  let (db, closedIds) := progress
  if db.isClosed found.play.playId then .ok progress
  else do
    let entry ← entryQuote found.play
    let stake ← fromCents found.play.stakeCents
    let result ← domain (settle found.play.direction stake found.play.feeBps entry
      found.observation.quote)
    let (exitId, quoted) ← recordExitQuote found now db
    let closeId := quoted.closes.length + 1
    let row ← closeRow found now result exitId closeId
    let after ← quoted.insertClose row
    return (after, closedIds ++ [closeId])

/-- What a call that closes plays returns. -/
structure SettleReport where
  closed : List CloseRow
  pending : List ℕ

/-- The second phase of `close_plays`: write the closes of the plays still open. -/
def closePlays (plan : ClosePlan) (db : PaperDb) : Except StoreRaise (SettleReport × PaperDb) := do
  let (after, closedIds) ← plan.exits.foldlM (writeClose plan.call.quotes.now) (db, [])
  return (⟨after.closes.filter fun row => row.closeId ∈ closedIds, plan.pending⟩, after)

/-! ## The machine -/

/-- The tables, and for each writer what the first phase of its `close_plays` found. -/
structure System where
  db : PaperDb
  found : ℕ → Option ClosePlan

/-- The calls, in the order the write lock serialises them. -/
inductive Operation where
  | ensureWallet (startBalance : Decimal) (currency : String) (now : Moment)
  | openCandidates (call : OpenCall)
  | findExits (writer : ℕ) (call : CloseCall)
  | closePlays (writer : ℕ)

/-- What an operation returns. -/
inductive Answer where
  | wallet (row : WalletRow)
  | opened (report : OpenReport)
  | found (plan : ClosePlan)
  | closed (report : SettleReport)
  | idle

section Machine

variable (runtime : Runtime)

/-- One call. A writer that found no exits has nothing to close; one whose second phase failed
may try it again, which is more than the code does. -/
def attempt (system : System) : Operation → Except StoreRaise (Answer × System)
  | .ensureWallet startBalance currency now => do
      let (row, after) ← ensureWallet startBalance currency now system.db
      return (.wallet row, { system with db := after })
  | .openCandidates call => do
      let (report, after) ← openCandidates runtime call system.db
      return (.opened report, { system with db := after })
  | .findExits writer call => do
      let plan ← findExits runtime call system.db
      return (.found plan, { system with found := Function.update system.found writer (some plan) })
  | .closePlays writer =>
      match system.found writer with
      | none => .ok (.idle, system)
      | some plan => do
          let (report, after) ← closePlays plan system.db
          return (.closed report, ⟨after, Function.update system.found writer none⟩)

/-- Operations of any number of writers, in any order. -/
def paperGame : Runs.Machine System Operation (Except StoreRaise Answer) :=
  Runs.Machine.transactional (attempt runtime)

end Machine

end CryptoRadar.Paper
