import CryptoRadar.Pilot.Operations

/-!
# What a committed call does to the tables

Every call is taken apart once. A lock evaluation appends marks and lock rows and nothing else
(`evaluateLocks_evaluated`); a batch of candidates appends, after its evaluation, decisions and
at most one position, and that one only when the account was free to take it
(`openCandidates_opened`); a close appends closes before its evaluation. `attempt_effect` puts
the calls together: it is the only lemma about the calls that the results on runs use.

`Kept` is what the ids of the tables promise: rows refer to rows that are there, and a row that
is appended has an id that nothing refers to yet.
-/

set_option autoImplicit false

namespace CryptoRadar.Pilot

open Checked
open Risk (LockKind)

@[simp] theorem risked_eq_ok {α : Type} {result : Except Risk.RiskFailure α} {value : α} :
    risked result = .ok value ↔ result = .ok value := by
  cases result <;> simp [risked, Except.mapError]

/-! ## Reads -/

namespace PilotDb

variable {db : PilotDb}

theorem mem_activeLocks {lock : LockRow} :
    lock ∈ db.activeLocks ↔ lock ∈ db.locks ∧
      ∀ review ∈ db.reviews, review.lockId ≠ lock.lockId := by
  simp [activeLocks, reviewOf]

/-- The open positions are read from the positions and the closes. -/
theorem openPositions_congr {other : PilotDb} (positions : db.positions = other.positions)
    (closes : db.closes = other.closes) : db.openPositions = other.openPositions := by
  unfold openPositions
  rw [positions, closes]

/-- The active locks are read from the locks and the reviews. -/
theorem activeLocks_congr {other : PilotDb} (locks : db.locks = other.locks)
    (reviews : db.reviews = other.reviews) : db.activeLocks = other.activeLocks := by
  unfold activeLocks reviewOf
  rw [locks, reviews]

/-- A close never opens a position. -/
theorem openPositions_sublist {after : PilotDb} {more : List CloseRow}
    (positions : after.positions = db.positions) (closes : after.closes = db.closes ++ more) :
    after.openPositions.Sublist db.openPositions := by
  unfold openPositions
  rw [positions, closes]
  refine List.monotone_filter_right _ fun position still => ?_
  simp only [List.any_append, Bool.not_or, Bool.and_eq_true] at still
  exact still.1

/-- A position that no close refers to is open when it is appended. -/
theorem openPositions_append {after : PilotDb} {fresh : List PositionRow}
    (positions : after.positions = db.positions ++ fresh) (closes : after.closes = db.closes)
    (unclosed : ∀ position ∈ fresh, ∀ close ∈ db.closes, close.positionId ≠ position.positionId) :
    after.openPositions = db.openPositions ++ fresh := by
  unfold openPositions
  rw [positions, closes, List.filter_append]
  congr 1
  refine List.filter_eq_self.mpr fun position member => ?_
  simpa using unclosed position member

/-- A lock that no review refers to is active when it is appended. -/
theorem activeLocks_append {after : PilotDb} {fresh : List LockRow}
    (locks : after.locks = db.locks ++ fresh) (reviews : after.reviews = db.reviews)
    (unreviewed : ∀ lock ∈ fresh, ∀ review ∈ db.reviews, review.lockId ≠ lock.lockId) :
    after.activeLocks = db.activeLocks ++ fresh := by
  unfold activeLocks reviewOf
  rw [locks, reviews, List.filter_append]
  congr 1
  refine List.filter_eq_self.mpr fun lock member => ?_
  simpa using unreviewed lock member

end PilotDb

/-! ## Ids -/

/-- Ids are places, and rows refer to rows that are there. -/
structure Kept (db : PilotDb) : Prop where
  positionIds : ∀ position ∈ db.positions, position.positionId ≤ db.positions.length
  lockIds : ∀ lock ∈ db.locks, lock.lockId ≤ db.locks.length
  closesRefer : ∀ close ∈ db.closes, close.positionId ≤ db.positions.length
  reviewsRefer : ∀ review ∈ db.reviews, review.lockId ≤ db.locks.length

/-- The tables of positions, closes, locks and reviews are the same. -/
structure SameBooks (before after : PilotDb) : Prop where
  positions : after.positions = before.positions
  closes : after.closes = before.closes
  locks : after.locks = before.locks
  reviews : after.reviews = before.reviews

namespace SameBooks

variable {before middle after : PilotDb}

theorem refl (db : PilotDb) : SameBooks db db := ⟨rfl, rfl, rfl, rfl⟩

theorem trans (first : SameBooks before middle) (second : SameBooks middle after) :
    SameBooks before after :=
  ⟨second.positions.trans first.positions, second.closes.trans first.closes,
    second.locks.trans first.locks, second.reviews.trans first.reviews⟩

theorem kept (same : SameBooks before after) (kept : Kept before) : Kept after := by
  obtain ⟨positionIds, lockIds, closesRefer, reviewsRefer⟩ := kept
  constructor
  · rwa [same.positions]
  · rwa [same.locks]
  · rwa [same.closes, same.positions]
  · rwa [same.reviews, same.locks]

end SameBooks

/-! ## Inserts -/

theorem insertMark_same {db after : PilotDb} {row : MarkRow} (result : db.insertMark row = .ok after) :
    SameBooks db after ∧ after.killSwitches = db.killSwitches := by
  obtain ⟨_, _, result⟩ := bind_eq_ok.mp result
  cases result
  exact ⟨⟨rfl, rfl, rfl, rfl⟩, rfl⟩

theorem ensureAccount_same {runtime : Runtime} {envelope : Risk.Envelope} {now : Moment}
    {db after : PilotDb} {row : AccountRow}
    (result : ensureAccount runtime envelope now db = .ok (row, after)) : SameBooks db after := by
  obtain ⟨existing, _, result⟩ := bind_eq_ok.mp result
  cases existing with
  | some account =>
      cases result
      exact .refl db
  | none =>
      obtain ⟨cents, _, result⟩ := bind_eq_ok.mp result
      obtain ⟨recorded, inserted, result⟩ := bind_eq_ok.mp result
      obtain ⟨marked, markedOk, result⟩ := bind_eq_ok.mp result
      cases result
      have recordedSame : SameBooks db recorded := by
        obtain ⟨_, _, inserted⟩ := bind_eq_ok.mp inserted
        obtain ⟨_, _, inserted⟩ := bind_eq_ok.mp inserted
        cases inserted
        exact ⟨rfl, rfl, rfl, rfl⟩
      exact recordedSame.trans (insertMark_same markedOk).1

theorem setKillSwitch_same {state : SwitchState} {reason actor : String} {now : Moment}
    {db after : PilotDb} {row : KillSwitchRow}
    (result : setKillSwitch state reason actor now db = .ok (row, after)) : SameBooks db after := by
  obtain ⟨_, _, result⟩ := bind_eq_ok.mp result
  obtain ⟨_, _, result⟩ := bind_eq_ok.mp result
  obtain ⟨inserted, insertedOk, result⟩ := bind_eq_ok.mp result
  cases result
  obtain ⟨_, _, insertedOk⟩ := bind_eq_ok.mp insertedOk
  cases insertedOk
  exact ⟨rfl, rfl, rfl, rfl⟩

/-! ## Lock evaluation -/

/-- What an evaluation of the account did to the tables: the rows it tripped, for kinds that were
not active and whose inequality holds, and no kind with its inequality is left without a lock. -/
structure Evaluated (account : AccountRow) (before : PilotDb) (evaluation : LockEvaluation)
    (after : PilotDb) : Prop where
  positions : after.positions = before.positions
  closes : after.closes = before.closes
  reviews : after.reviews = before.reviews
  killSwitches : after.killSwitches = before.killSwitches
  locks : after.locks = before.locks ++ evaluation.tripped
  fresh : ∀ lock ∈ evaluation.tripped,
    before.locks.length < lock.lockId ∧ lock.lockId ≤ after.locks.length
  kinds : (evaluation.tripped.map LockRow.kind).Nodup
  unlocked : ∀ lock ∈ evaluation.tripped, lock.kind ∉ before.activeLocks.map LockRow.kind
  inequality : ∀ lock ∈ evaluation.tripped,
    Risk.tripInequality lock.kind lock.limitPct lock.equity lock.reference = .ok true
  complete : ∀ kind, Risk.tripInequality kind (account.envelope.limitPct kind) evaluation.equity
      (Risk.referenceOf evaluation.dayStart evaluation.highWater kind) = .ok true →
    kind ∈ before.activeLocks.map LockRow.kind ∨ kind ∈ evaluation.tripped.map LockRow.kind
  active : evaluation.active = after.activeLocks

theorem dayReference_same {equity reference : Decimal} {now : Moment} {db after : PilotDb}
    (result : dayReference equity now db = .ok (reference, after)) :
    SameBooks db after ∧ after.killSwitches = db.killSwitches := by
  unfold dayReference at result
  split at result
  · cases result
    exact ⟨.refl db, rfl⟩
  · obtain ⟨marked, markedOk, result⟩ := bind_eq_ok.mp result
    cases result
    exact insertMark_same markedOk

theorem raiseHighWater_same {equity water : Decimal} {now : Moment} {db after : PilotDb}
    (result : raiseHighWater equity now db = .ok (water, after)) :
    SameBooks db after ∧ after.killSwitches = db.killSwitches := by
  obtain ⟨current, _, result⟩ := bind_eq_ok.mp result
  obtain ⟨raised, _, result⟩ := bind_eq_ok.mp result
  split at result
  · cases result
    exact ⟨.refl db, rfl⟩
  · obtain ⟨marked, markedOk, result⟩ := bind_eq_ok.mp result
    cases result
    exact insertMark_same markedOk

/-- The loop over the tripped kinds appends one row for each kind that was not active. -/
theorem foldl_insert (trip : Trip) (already : List LockKind) :
    ∀ (kinds : List LockKind) (db : PilotDb), ∃ rows,
      kinds.foldl (trip.insert already) db = { db with locks := db.locks ++ rows } ∧
      rows.map LockRow.kind = kinds.filter (· ∉ already) ∧
      ∀ row ∈ rows, row = trip.row row.lockId row.kind ∧ db.locks.length < row.lockId ∧
        row.lockId ≤ db.locks.length + rows.length
  | [], db => ⟨[], by simp, rfl, by simp⟩
  | kind :: rest, db => by
      by_cases active : kind ∈ already
      · obtain ⟨rows, tables, kinds, each⟩ := foldl_insert trip already rest db
        refine ⟨rows, ?_, ?_, each⟩
        · rw [List.foldl_cons, Trip.insert, if_pos active, tables]
        · simp [kinds, active]
      · obtain ⟨rows, tables, kinds, each⟩ := foldl_insert trip already rest
          (db.insertLock (trip.row (db.locks.length + 1) kind))
        refine ⟨trip.row (db.locks.length + 1) kind :: rows, ?_, ?_, ?_⟩
        · rw [List.foldl_cons, Trip.insert, if_neg active, tables]
          simp [PilotDb.insertLock]
        · simp [kinds, active, Trip.row]
        · intro row member
          rcases List.mem_cons.mp member with rfl | later
          · refine ⟨rfl, Nat.lt_succ_self _, ?_⟩
            simp [Trip.row]
          · obtain ⟨isRow, above, below⟩ := each row later
            simp only [PilotDb.insertLock, List.length_append, List.length_cons,
              List.length_nil] at above below
            refine ⟨isRow, by omega, ?_⟩
            simp only [List.length_cons]
            omega

/-- The stored numbers of a trip satisfy the inequality that tripped it. -/
theorem trip_row_inequality {trip : Trip} {kind : LockKind} {lockId : ℕ}
    (holds : Risk.tripInequality kind (trip.envelope.limitPct kind) trip.equity
      (Risk.referenceOf trip.dayStart trip.highWater kind) = .ok true) :
    Risk.tripInequality (trip.row lockId kind).kind (trip.row lockId kind).limitPct
      (trip.row lockId kind).equity (trip.row lockId kind).reference = .ok true := by
  have alike := Risk.tripInequality_alike kind
    (Decimal.throughText_sameValue (trip.envelope.limitPct kind))
    (Decimal.throughText_sameValue trip.equity)
    (Decimal.throughText_sameValue (Risk.referenceOf trip.dayStart trip.highWater kind))
  rw [holds] at alike
  generalize found : Risk.tripInequality kind _ _ _ = result at alike
  cases alike with
  | ok same =>
      rw [same] at found
      exact found

/-- **One evaluation**, taken apart. -/
theorem evaluateLocks_evaluated {account : AccountRow} {state : AccountState} {now : Moment}
    {trigger : LockTrigger} {db after : PilotDb} {evaluation : LockEvaluation}
    (result : evaluateLocks account state now trigger db = .ok (evaluation, after)) :
    Evaluated account db evaluation after := by
  obtain ⟨⟨reference, dayed⟩, dayedOk, result⟩ := bind_eq_ok.mp result
  obtain ⟨⟨water, marked⟩, markedOk, result⟩ := bind_eq_ok.mp result
  obtain ⟨kinds, kindsOk, result⟩ := bind_eq_ok.mp result
  rw [risked_eq_ok] at kindsOk
  obtain ⟨daySame, daySwitches⟩ := dayReference_same dayedOk
  obtain ⟨waterSame, waterSwitches⟩ := raiseHighWater_same markedOk
  have same := daySame.trans waterSame
  have active : marked.activeLocks = db.activeLocks :=
    PilotDb.activeLocks_congr same.locks same.reviews
  obtain ⟨rows, tables, rowKinds, each⟩ := foldl_insert
    ⟨account.envelope, state.equity, reference, water, trigger, now⟩
    (marked.activeLocks.map LockRow.kind) kinds marked
  cases result
  simp only [tables, List.drop_left]
  have memberKinds : ∀ row ∈ rows, row.kind ∈ kinds ∧
      row.kind ∉ marked.activeLocks.map LockRow.kind := by
    intro row member
    have inside : row.kind ∈ rows.map LockRow.kind := List.mem_map_of_mem member
    rw [rowKinds, List.mem_filter] at inside
    exact ⟨inside.1, by simpa using inside.2⟩
  constructor
  case positions => exact same.positions
  case closes => exact same.closes
  case reviews => exact same.reviews
  case killSwitches => exact waterSwitches.trans daySwitches
  case locks => simp only [same.locks]
  case active => rfl
  case fresh =>
    intro lock member
    obtain ⟨_, above, below⟩ := each lock member
    rw [same.locks] at above below
    refine ⟨above, ?_⟩
    simp only [List.length_append, same.locks]
    exact below
  case kinds =>
    simp only [rowKinds]
    exact (Risk.trippedLocks_nodup kindsOk).filter _
  case unlocked =>
    intro lock member
    rw [← active]
    exact (memberKinds lock member).2
  case inequality =>
    intro lock member
    obtain ⟨isRow, _, _⟩ := each lock member
    have holds := (Risk.mem_trippedLocks kindsOk lock.kind).mp (memberKinds lock member).1
    rw [isRow]
    exact trip_row_inequality holds
  case complete =>
    intro kind holds
    have tripped : kind ∈ kinds := (Risk.mem_trippedLocks kindsOk kind).mpr holds
    rw [← active]
    by_cases already : kind ∈ marked.activeLocks.map LockRow.kind
    · exact .inl already
    · refine .inr ?_
      simp only [rowKinds, List.mem_filter]
      exact ⟨tripped, by simpa using already⟩

namespace Evaluated

variable {account : AccountRow} {before after : PilotDb} {evaluation : LockEvaluation}

theorem kept (evaluated : Evaluated account before evaluation after) (kept : Kept before) :
    Kept after := by
  have more : before.locks.length ≤ after.locks.length := by
    rw [evaluated.locks, List.length_append]
    exact Nat.le_add_right _ _
  constructor
  · rw [evaluated.positions]
    exact kept.positionIds
  · intro lock member
    rw [evaluated.locks] at member
    rcases List.mem_append.mp member with old | tripped
    · exact (kept.lockIds lock old).trans more
    · exact (evaluated.fresh lock tripped).2
  · rw [evaluated.closes, evaluated.positions]
    exact kept.closesRefer
  · intro review member
    rw [evaluated.reviews] at member
    exact (kept.reviewsRefer review member).trans more

/-- The tripped rows join the active ones. -/
theorem activeLocks_eq (evaluated : Evaluated account before evaluation after) (kept : Kept before) :
    after.activeLocks = before.activeLocks ++ evaluation.tripped := by
  refine PilotDb.activeLocks_append evaluated.locks evaluated.reviews ?_
  intro lock tripped review member
  have above := (evaluated.fresh lock tripped).1
  have below := kept.reviewsRefer review member
  omega

theorem openPositions_eq (evaluated : Evaluated account before evaluation after) :
    after.openPositions = before.openPositions :=
  PilotDb.openPositions_congr evaluated.positions evaluated.closes

end Evaluated

/-! ## Opening -/

theorem accountState_openPositions {runtime : Runtime} {account : AccountRow} {quotes : Quotes}
    {db : PilotDb} {state : AccountState}
    (result : accountState runtime account quotes db = .ok state) :
    state.openPositions = db.openPositions := by
  unfold accountState at result
  obtain ⟨nets, _, result⟩ := bind_eq_ok.mp result
  obtain ⟨marks, _, result⟩ := bind_eq_ok.mp result
  obtain ⟨equity, _, result⟩ := bind_eq_ok.mp result
  obtain ⟨cash, _, result⟩ := bind_eq_ok.mp result
  obtain ⟨realized, _, result⟩ := bind_eq_ok.mp result
  obtain ⟨plannedLoss, _, result⟩ := bind_eq_ok.mp result
  obtain ⟨notional, _, result⟩ := bind_eq_ok.mp result
  cases result
  rfl

section Opening

variable {runtime : Runtime} {call : OpenCall} {terms : OpenTerms} {evaluated : PilotDb}

/-- The account is free to take an entry: the envelope is the recorded one, the kill switch is
released, no lock is active and nothing is open. -/
structure Free (runtime : Runtime) (call : OpenCall) (terms : OpenTerms) (db : PilotDb) : Prop where
  sameEnvelope : envelopeSha256 runtime call.envelope = terms.account.envelopeSha256
  released : terms.engaged = false
  unlocked : terms.locks.activeKinds = []
  nothingOpen : db.openPositions = []

/-- Only a free account lets a candidate through to the sizing. -/
theorem free_of_refusalOf {state : AccountState} {candidate : PilotCandidate} {db : PilotDb}
    (reads : state.openPositions = db.openPositions)
    (admitted : refusalOf runtime call terms state candidate = none) :
    Free runtime call terms db := by
  unfold refusalOf at admitted
  simp only at admitted
  split at admitted
  next => cases admitted
  next =>
    split at admitted
    next => cases admitted
    next same =>
      obtain ⟨_, released, unlocked, none⟩ := Risk.admissionRefusal_eq_none.mp admitted
      refine ⟨not_not.mp same, released, unlocked, ?_⟩
      rw [← reads]
      exact List.eq_nil_of_length_eq_zero none

theorem refusalOf_of_opened {state : AccountState} {candidate : PilotCandidate} {decided : Decided}
    {plan : Risk.EntryPlan} (result : decideCandidate runtime call terms state candidate = .ok decided)
    (opened : decided.opened = some plan) : refusalOf runtime call terms state candidate = none := by
  unfold decideCandidate at result
  split at result
  next =>
    cases result
    cases opened
  next admitted => exact admitted

theorem writePosition_eq {decisionId : ℕ} {candidate : PilotCandidate} {entryTs openedAt : Moment}
    {plan : Risk.EntryPlan} {db after : PilotDb}
    (result : writePosition decisionId candidate entryTs plan openedAt db = .ok after) :
    ∃ row : PositionRow, row.positionId = db.positions.length + 1 ∧
      after = { db with positions := db.positions ++ [row] } := by
  obtain ⟨row, rowOk, result⟩ := bind_eq_ok.mp result
  obtain ⟨_, _, result⟩ := bind_eq_ok.mp result
  cases result
  obtain ⟨opened, _, rowOk⟩ := bind_eq_ok.mp rowOk
  obtain ⟨costBasis, _, rowOk⟩ := bind_eq_ok.mp rowOk
  obtain ⟨due, _, rowOk⟩ := bind_eq_ok.mp rowOk
  cases rowOk
  exact ⟨_, rfl, rfl⟩

/-- The tables inside the loop over the candidates, against those after the evaluation: more
decisions, and at most one position, which a free account took. -/
structure InLoop (runtime : Runtime) (call : OpenCall) (terms : OpenTerms) (evaluated : PilotDb)
    (progress : OpenProgress) : Prop where
  tables : ∃ decisions opened,
    progress.db = { evaluated with
      decisions := decisions, positions := evaluated.positions ++ opened } ∧
    (opened = [] ∨ ∃ row : PositionRow, opened = [row] ∧
      row.positionId = evaluated.positions.length + 1 ∧ Free runtime call terms evaluated)
  reads : progress.state.openPositions = progress.db.openPositions

/-- A position that was opened in the loop is open there. -/
theorem openPositions_inLoop (kept : Kept evaluated) {decisions : List DecisionRow}
    {row : PositionRow} (place : row.positionId = evaluated.positions.length + 1) :
    PilotDb.openPositions { evaluated with
      decisions := decisions, positions := evaluated.positions ++ [row] } =
        evaluated.openPositions ++ [row] := by
  refine PilotDb.openPositions_append rfl rfl ?_
  intro position member close closed
  rw [List.mem_singleton.mp member, place]
  have below := kept.closesRefer close closed
  omega

/-- One turn of the loop. -/
theorem openOne_inLoop (kept : Kept evaluated) (progress : OpenProgress)
    (item : PilotCandidate × Moment) (after : OpenProgress)
    (inside : InLoop runtime call terms evaluated progress)
    (result : openOne runtime call terms progress item = .ok after) :
    InLoop runtime call terms evaluated after := by
  obtain ⟨candidate, entryTs⟩ := item
  obtain ⟨⟨decisions, opened, tables, taken⟩, reads⟩ := inside
  unfold openOne at result
  simp only at result
  split at result
  next =>
    cases result
    exact ⟨⟨decisions, opened, tables, taken⟩, reads⟩
  next =>
    obtain ⟨decided, decidedOk, result⟩ := bind_eq_ok.mp result
    obtain ⟨row, _, result⟩ := bind_eq_ok.mp result
    obtain ⟨db, inserted, result⟩ := bind_eq_ok.mp result
    obtain ⟨_, _, inserted⟩ := bind_eq_ok.mp inserted
    cases inserted
    have sameOpen : PilotDb.openPositions
        { progress.db with decisions := progress.db.decisions ++ [row] } =
          progress.db.openPositions := PilotDb.openPositions_congr rfl rfl
    split at result
    next plan opens =>
      obtain ⟨written, writtenOk, result⟩ := bind_eq_ok.mp result
      obtain ⟨state, stateOk, result⟩ := bind_eq_ok.mp result
      cases result
      obtain ⟨position, place, isWritten⟩ := writePosition_eq writtenOk
      have free := free_of_refusalOf reads (refusalOf_of_opened decidedOk opens)
      refine ⟨?_, accountState_openPositions stateOk⟩
      -- an earlier position of this loop would be open, and the account not free
      rcases taken with none | ⟨earlier, isEarlier, earlierPlace, _⟩
      · subst none
        have sameAsEvaluated : progress.db.openPositions = evaluated.openPositions := by
          rw [tables]
          exact PilotDb.openPositions_congr (List.append_nil _) rfl
        refine ⟨progress.db.decisions ++ [row], [position], ?_, .inr ⟨position, rfl, ?_, ?_⟩⟩
        · rw [isWritten, tables]
          simp
        · rw [place, tables]
          simp
        · exact ⟨free.sameEnvelope, free.released, free.unlocked,
            sameAsEvaluated ▸ free.nothingOpen⟩
      · have stillOpen := free.nothingOpen
        rw [tables, isEarlier, openPositions_inLoop kept earlierPlace] at stillOpen
        simp at stillOpen
    next =>
      cases result
      refine ⟨⟨progress.db.decisions ++ [row], opened, ?_, taken⟩, reads.trans sameOpen.symm⟩
      simp only [tables]

/-- What a committed `open_candidates` did: an evaluation, then at most one position, which the
account was free to take. -/
structure Opened (runtime : Runtime) (call : OpenCall) (before : PilotDb) (report : OpenReport)
    (after : PilotDb) (account : AccountRow) (state : AccountState) (evaluated : PilotDb) : Prop where
  account_eq : requireAccount runtime before = .ok account
  state_eq : accountState runtime account call.quotes before = .ok state
  evaluation_eq : evaluateLocks account state call.quotes.now .entry before =
    .ok (report.locks, evaluated)
  tables : ∃ decisions opened,
    after = { evaluated with decisions := decisions, positions := evaluated.positions ++ opened } ∧
    (opened = [] ∨ ∃ row : PositionRow, opened = [row] ∧
      row.positionId = evaluated.positions.length + 1 ∧
      Free runtime call ⟨account, report.locks, evaluated.killSwitchEngaged⟩ evaluated)

/-- **One batch of candidates**, taken apart. -/
theorem openCandidates_opened {db after : PilotDb} {report : OpenReport} (kept : Kept db)
    (result : openCandidates runtime call db = .ok (report, after)) :
    ∃ account state evaluated, Opened runtime call db report after account state evaluated := by
  obtain ⟨checked, _, result⟩ := bind_eq_ok.mp result
  obtain ⟨account, accountOk, result⟩ := bind_eq_ok.mp result
  obtain ⟨state, stateOk, result⟩ := bind_eq_ok.mp result
  obtain ⟨⟨locks, evaluated⟩, evaluatedOk, result⟩ := bind_eq_ok.mp result
  obtain ⟨progress, progressOk, result⟩ := bind_eq_ok.mp result
  cases result
  have evaluation := evaluateLocks_evaluated evaluatedOk
  have start : InLoop runtime call ⟨account, locks, evaluated.killSwitchEngaged⟩ evaluated
      ⟨evaluated, state, evaluated.decisions.map DecisionRow.eventId, [], []⟩ := by
    refine ⟨⟨evaluated.decisions, [], by simp, .inl rfl⟩, ?_⟩
    exact (accountState_openPositions stateOk).trans evaluation.openPositions_eq.symm
  have finish := foldlM_invariant (InLoop runtime call _ evaluated)
    (openOne_inLoop (evaluation.kept kept)) checked start progressOk
  exact ⟨account, state, evaluated, accountOk, stateOk, evaluatedOk, finish.tables⟩

end Opening

/-! ## Closing -/

/-- The tables while closes are written: more closes, of positions that are there. -/
structure Closing (before after : PilotDb) : Prop where
  positions : after.positions = before.positions
  locks : after.locks = before.locks
  reviews : after.reviews = before.reviews
  closes : ∃ more, after.closes = before.closes ++ more ∧
    ∀ close ∈ more, ∃ position ∈ before.positions, position.positionId = close.positionId

theorem Closing.kept {before after : PilotDb} (closing : Closing before after) (kept : Kept before) :
    Kept after := by
  obtain ⟨more, closes, refer⟩ := closing.closes
  constructor
  · rw [closing.positions]
    exact kept.positionIds
  · rw [closing.locks]
    exact kept.lockIds
  · intro close member
    rw [closing.positions]
    rw [closes] at member
    rcases List.mem_append.mp member with old | written
    · exact kept.closesRefer close old
    · obtain ⟨position, there, same⟩ := refer close written
      rw [← same]
      exact kept.positionIds position there
  · rw [closing.reviews, closing.locks]
    exact kept.reviewsRefer

theorem recordExitQuote_same {found : Exit} {closedAt : Moment} {db after : PilotDb} {exitId : ℤ}
    {source : String} (result : recordExitQuote found closedAt db = .ok (exitId, source, after)) :
    SameBooks db after := by
  unfold recordExitQuote at result
  split at result
  · cases result
    exact .refl db
  · obtain ⟨inserted, insertedOk, result⟩ := bind_eq_ok.mp result
    cases result
    obtain ⟨_, _, insertedOk⟩ := bind_eq_ok.mp insertedOk
    cases insertedOk
    exact ⟨rfl, rfl, rfl, rfl⟩

theorem writeClose_closing {now : Moment} {start : PilotDb} (progress : PilotDb × List ℕ)
    (found : Exit) (after : PilotDb × List ℕ) (closing : Closing start progress.1)
    (result : writeClose now progress found = .ok after) : Closing start after.1 := by
  obtain ⟨db, closedIds⟩ := progress
  change Closing start db at closing
  unfold writeClose at result
  simp only at result
  split at result
  next =>
    cases result
    exact closing
  next =>
    obtain ⟨settlement, _, result⟩ := bind_eq_ok.mp result
    obtain ⟨⟨exitId, source, quoted⟩, quotedOk, result⟩ := bind_eq_ok.mp result
    obtain ⟨row, _, result⟩ := bind_eq_ok.mp result
    obtain ⟨inserted, insertedOk, result⟩ := bind_eq_ok.mp result
    obtain ⟨_, fits, insertedOk⟩ := bind_eq_ok.mp insertedOk
    cases insertedOk
    cases result
    have same := recordExitQuote_same quotedOk
    obtain ⟨more, closes, refer⟩ := closing.closes
    refine ⟨same.positions.trans closing.positions, same.locks.trans closing.locks,
      same.reviews.trans closing.reviews, more ++ [row], ?_, ?_⟩
    · simp only [same.closes, closes, List.append_assoc]
    · intro close member
      rcases List.mem_append.mp member with earlier | written
      · exact refer close earlier
      · rw [List.mem_singleton.mp written, ← closing.positions, ← same.positions]
        exact (ensure_eq_ok.mp fits).2.2.2.2.2.2.2.2.2

/-- **One `close_positions` transaction**, taken apart: closes, then an evaluation. -/
theorem closePositions_closed {runtime : Runtime} {plan : ClosePlan} {snapshots : List SnapshotRow}
    {db after : PilotDb} {report : CloseReport}
    (result : closePositions runtime plan snapshots db = .ok (report, after)) :
    ∃ account closed, requireAccount runtime db = .ok account ∧ Closing db closed ∧
      Evaluated account closed report.locks after := by
  obtain ⟨account, accountOk, result⟩ := bind_eq_ok.mp result
  obtain ⟨⟨closed, closedIds⟩, closedOk, result⟩ := bind_eq_ok.mp result
  obtain ⟨state, _, result⟩ := bind_eq_ok.mp result
  obtain ⟨⟨locks, evaluated⟩, evaluatedOk, result⟩ := bind_eq_ok.mp result
  cases result
  have start : Closing db (db, ([] : List ℕ)).1 :=
    ⟨rfl, rfl, rfl, [], (List.append_nil _).symm, by simp⟩
  have closing := foldlM_invariant (fun progress => Closing db progress.1)
    (fun progress found after => writeClose_closing progress found after) plan.exits start closedOk
  exact ⟨account, closed, accountOk, closing, evaluateLocks_evaluated evaluatedOk⟩

/-! ## Reviews -/

/-- **One review**, taken apart: it names a lock that was active. -/
theorem reviewLock_reviewed {runtime : Runtime} {lockId : ℤ} {reviewer cause : String}
    {quotes : Quotes} {db after : PilotDb} {review : ReviewRow}
    (result : reviewLock runtime lockId reviewer cause quotes db = .ok (review, after)) :
    after.positions = db.positions ∧ after.closes = db.closes ∧ after.locks = db.locks ∧
      after.reviews = db.reviews ++ [review] ∧ (review.lockId : ℤ) = lockId ∧
      ∃ lock ∈ db.activeLocks, lock.lockId = review.lockId := by
  obtain ⟨_, _, result⟩ := bind_eq_ok.mp result
  obtain ⟨_, _, result⟩ := bind_eq_ok.mp result
  obtain ⟨_, _, result⟩ := bind_eq_ok.mp result
  obtain ⟨account, _, result⟩ := bind_eq_ok.mp result
  obtain ⟨lock, lockOk, result⟩ := bind_eq_ok.mp result
  obtain ⟨_, unreviewed, result⟩ := bind_eq_ok.mp result
  obtain ⟨state, _, result⟩ := bind_eq_ok.mp result
  obtain ⟨reviewed, reviewedOk, result⟩ := bind_eq_ok.mp result
  obtain ⟨marked, markedOk, result⟩ := bind_eq_ok.mp result
  cases result
  obtain ⟨_, _, reviewedOk⟩ := bind_eq_ok.mp reviewedOk
  cases reviewedOk
  obtain ⟨same, _⟩ := insertMark_same markedOk
  rw [require_eq_ok] at lockOk
  have named : (lock.lockId : ℤ) = lockId := by
    simpa using List.find?_some lockOk
  have active : lock ∈ db.activeLocks := by
    rw [PilotDb.activeLocks, List.mem_filter]
    exact ⟨List.mem_of_find?_eq_some lockOk, ensure_eq_ok.mp unreviewed⟩
  exact ⟨same.positions, same.closes, same.locks, same.reviews, named, lock, active, rfl⟩

/-! ## Every call -/

/-- What a committed call did to the tables. -/
inductive Effect (runtime : Runtime) (before : PilotDb) : Operation → Answer → PilotDb → Prop where
  | quiet {operation : Operation} {answer : Answer} {after : PilotDb}
      (same : SameBooks before after) (silent : answer.evaluation? = none) :
      Effect runtime before operation answer after
  | evaluated {quotes : Quotes} {account : AccountRow} {evaluation : LockEvaluation}
      {after : PilotDb} (account_eq : requireAccount runtime before = .ok account)
      (evaluated : Evaluated account before evaluation after) :
      Effect runtime before (.evaluateLocks quotes) (.evaluation evaluation) after
  | reviewed {lockId : ℤ} {reviewer cause : String} {quotes : Quotes} {review : ReviewRow}
      {after : PilotDb} (positions : after.positions = before.positions)
      (closes : after.closes = before.closes) (locks : after.locks = before.locks)
      (reviews : after.reviews = before.reviews ++ [review]) (named : (review.lockId : ℤ) = lockId)
      (active : ∃ lock ∈ before.activeLocks, lock.lockId = review.lockId) :
      Effect runtime before (.reviewLock lockId reviewer cause quotes) (.review review) after
  | opened {call : OpenCall} {report : OpenReport} {after : PilotDb} {account : AccountRow}
      {state : AccountState} {evaluated : PilotDb}
      (opened : Opened runtime call before report after account state evaluated) :
      Effect runtime before (.openCandidates call) (.opened report) after
  | closed {writer : ℕ} {snapshots : List SnapshotRow} {report : CloseReport} {after : PilotDb}
      {account : AccountRow} {closed : PilotDb}
      (account_eq : requireAccount runtime before = .ok account) (closing : Closing before closed)
      (evaluated : Evaluated account closed report.locks after) :
      Effect runtime before (.closePositions writer snapshots) (.closed report) after

theorem onDb_eq_ok {α : Type} {system after : System} {wrap : α → Answer} {answer : Answer}
    {result : Except PilotFailure (α × PilotDb)} (done : onDb system wrap result = .ok (answer, after)) :
    ∃ value, result = .ok (value, after.db) ∧ answer = wrap value := by
  cases result with
  | error failure => cases done
  | ok pair =>
      cases done
      exact ⟨pair.1, rfl, rfl⟩

/-- **Every committed call** has one of the effects. -/
theorem attempt_effect {runtime : Runtime} {system after : System} {operation : Operation}
    {answer : Answer} (kept : Kept system.db)
    (result : attempt runtime system operation = .ok (answer, after)) :
    Effect runtime system.db operation answer after.db := by
  cases operation with
  | ensureAccount envelope now =>
      obtain ⟨row, done, rfl⟩ := onDb_eq_ok result
      exact .quiet (ensureAccount_same done) rfl
  | engageKillSwitch reason actor now =>
      obtain ⟨row, done, rfl⟩ := onDb_eq_ok result
      exact .quiet (setKillSwitch_same done) rfl
  | releaseKillSwitch reason actor now =>
      obtain ⟨row, done, rfl⟩ := onDb_eq_ok result
      exact .quiet (setKillSwitch_same done) rfl
  | evaluateLocks quotes =>
      obtain ⟨evaluation, done, rfl⟩ := onDb_eq_ok result
      obtain ⟨_, _, done⟩ := bind_eq_ok.mp done
      obtain ⟨account, accountOk, done⟩ := bind_eq_ok.mp done
      obtain ⟨state, _, done⟩ := bind_eq_ok.mp done
      exact .evaluated accountOk (evaluateLocks_evaluated done)
  | reviewLock lockId reviewer cause quotes =>
      obtain ⟨review, done, rfl⟩ := onDb_eq_ok result
      obtain ⟨positions, closes, locks, reviews, named, active⟩ := reviewLock_reviewed done
      exact .reviewed positions closes locks reviews named active
  | openCandidates call =>
      obtain ⟨report, done, rfl⟩ := onDb_eq_ok result
      obtain ⟨account, state, evaluated, opened⟩ := openCandidates_opened kept done
      exact .opened opened
  | findExits writer call =>
      obtain ⟨plan, _, result⟩ := bind_eq_ok.mp result
      cases result
      exact .quiet (.refl _) rfl
  | closePositions writer snapshots =>
      unfold attempt at result
      simp only at result
      split at result
      next =>
        cases result
        exact .quiet (.refl _) rfl
      next plan _ =>
        obtain ⟨⟨report, db⟩, done, result⟩ := bind_eq_ok.mp result
        cases result
        obtain ⟨account, closed, accountOk, closing, evaluated⟩ := closePositions_closed done
        exact .closed accountOk closing evaluated

namespace Opened

variable {runtime : Runtime} {call : OpenCall} {before after evaluated : PilotDb}
  {report : OpenReport} {account : AccountRow} {state : AccountState}

/-- The evaluation of a batch. -/
theorem evaluation (opened : Opened runtime call before report after account state evaluated) :
    Evaluated account before report.locks evaluated :=
  evaluateLocks_evaluated opened.evaluation_eq

/-- The locks and the reviews are those after the evaluation. -/
theorem activeLocks_eq (opened : Opened runtime call before report after account state evaluated) :
    after.activeLocks = evaluated.activeLocks := by
  obtain ⟨decisions, added, tables, _⟩ := opened.tables
  rw [tables]
  exact PilotDb.activeLocks_congr rfl rfl

theorem kept (opened : Opened runtime call before report after account state evaluated)
    (kept : Kept before) : Kept after := by
  have evaluatedKept := opened.evaluation.kept kept
  obtain ⟨decisions, added, tables, taken⟩ := opened.tables
  have ids : ∀ row ∈ added, row.positionId ≤ evaluated.positions.length + added.length := by
    rcases taken with none | ⟨row, isRow, place, _⟩
    · simp [none]
    · intro other member
      rw [isRow] at member ⊢
      rw [List.mem_singleton.mp member, place]
      exact le_rfl
  rw [tables]
  constructor
  · intro position member
    rw [List.length_append]
    rcases List.mem_append.mp member with old | fresh
    · exact (evaluatedKept.positionIds position old).trans (Nat.le_add_right _ _)
    · exact ids position fresh
  · exact evaluatedKept.lockIds
  · intro close member
    rw [List.length_append]
    exact (evaluatedKept.closesRefer close member).trans (Nat.le_add_right _ _)
  · exact evaluatedKept.reviewsRefer

end Opened

/-- Every call keeps the ids. -/
theorem Effect.kept {runtime : Runtime} {before after : PilotDb} {operation : Operation}
    {answer : Answer} (effect : Effect runtime before operation answer after) (kept : Kept before) :
    Kept after := by
  cases effect with
  | quiet same _ => exact same.kept kept
  | evaluated _ evaluated => exact evaluated.kept kept
  | reviewed positions closes locks reviews named active =>
      obtain ⟨lock, isActive, same⟩ := active
      have there := (PilotDb.mem_activeLocks.mp isActive).1
      refine ⟨positions ▸ kept.positionIds, locks ▸ kept.lockIds, ?_, ?_⟩
      · rw [closes, positions]
        exact kept.closesRefer
      · intro other member
        rw [locks]
        rw [reviews] at member
        rcases List.mem_append.mp member with old | written
        · exact kept.reviewsRefer other old
        · rw [List.mem_singleton.mp written, ← same]
          exact kept.lockIds lock there
  | opened opened => exact opened.kept kept
  | closed _ closing evaluated => exact evaluated.kept (closing.kept kept)

theorem kept_empty : Kept System.empty.db :=
  ⟨by simp [System.empty], by simp [System.empty], by simp [System.empty], by simp [System.empty]⟩

end CryptoRadar.Pilot
