import CryptoRadar.Lib.Search
import CryptoRadar.Lib.Sorting
import CryptoRadar.Pilot.Effects
import Mathlib.Data.String.Basic

/-!
# Which observation closes a position

A call at one time rescans the snapshots since the entry of a position. The observations it
finds are a stream in time order that depends on the time of the call only through its end
(`stream_split`): a later call finds the same observations and then later ones. So the first
observation that closes the position is the same for every call that finds one.

A schedule is a list of calls at increasing times, each of which sees the snapshots of one set
that were observed by its time. Two schedules that end at one time, and whose last calls
return, leave a position in the same state (`exit_same`).
-/

set_option autoImplicit false

namespace CryptoRadar.Pilot

open Checked
open Paper (ExitReason)

/-! ## The orders of rows and observations -/

theorem Observation.notAfter_iff {first second : Observation} : first.notAfter second ↔
    first.observedAt.micros < second.observedAt.micros ∨
      (first.observedAt.micros = second.observedAt.micros ∧
        (first.rank < second.rank ∨ (first.rank = second.rank ∧ first.ident ≤ second.ident))) := by
  have same : second.observedAt = first.observedAt ↔
      second.observedAt.micros = first.observedAt.micros :=
    ⟨congrArg _, Moment.ext⟩
  simp only [Observation.notAfter, Observation.before, Bool.or_eq_false_iff, Bool.and_eq_false_iff,
    decide_eq_false_iff_not, same, Moment.lt_iff]
  omega

instance : IsTrans Observation Observation.notAfter where
  trans first second third before after := by
    rw [Observation.notAfter_iff] at before after ⊢
    omega

instance : Std.Total Observation.notAfter where
  total first second := by
    rw [Observation.notAfter_iff, Observation.notAfter_iff]
    omega

instance : IsTrans SnapshotRow SnapshotRow.notAfter where
  trans first second third before after := by
    rcases before with before | ⟨before, le⟩
    · rcases after with after | ⟨after, _⟩
      · exact .inl (lt_trans before after)
      · exact .inl (after ▸ before)
    · rcases after with after | ⟨after, le'⟩
      · exact .inl (before ▸ after)
      · exact .inr ⟨before.trans after, le.trans le'⟩

instance : Std.Total SnapshotRow.notAfter where
  total first second := by
    rcases lt_trichotomy (first.ts.getD "") (second.ts.getD "") with before | same | after
    · exact .inl (.inl before)
    · rcases le_total (first.ident.getD 0) (second.ident.getD 0) with le | le
      · exact .inl (.inr ⟨same, le⟩)
      · exact .inr (.inr ⟨same.symm, le⟩)
    · exact .inr (.inl after)

/-! ## What a call sees -/

section Stream

variable (runtime : Runtime)

/-- When a snapshot was observed, if its time can be placed. -/
def SnapshotRow.observedAt? (row : SnapshotRow) : Option Moment := do
  let ts ← row.ts
  let aware ← runtime.parseAware ts
  if aware.offset = 0 then some aware.moment else none

/-- The snapshot was observed by a time. -/
def SnapshotRow.observedBy (now : Moment) (row : SnapshotRow) : Bool :=
  (row.observedAt? runtime).any fun moment => moment ≤ now

/-- A call without extra quotes that sees, of a set of snapshots, those observed by its time: they
are in its table, and the text bound of its query leaves none of them out. -/
structure Sees (all : List SnapshotRow) (quotes : Quotes) : Prop where
  noExtras : quotes.extras = []
  rows : quotes.snapshots.filter (SnapshotRow.observedBy runtime quotes.now) =
    all.filter (SnapshotRow.observedBy runtime quotes.now)
  inBounds : ∀ row ∈ all, row.observedBy runtime quotes.now = true →
    ∀ upper ∈ quotes.now.plus? snapshotTextMargin, ∀ ts ∈ row.ts, ts ≤ utcText upper

/-- The rows of a pair that the lower text bound of a query does not leave out. -/
def SnapshotRow.since (pair : String) (start : Moment) (row : SnapshotRow) : Bool :=
  row.pair = pair && row.ts.any fun ts =>
    (start.plus? (-snapshotTextMargin)).any fun lower => utcText lower ≤ ts

/-- The valid quotes of a pair observed after a start and up to a time, in time order. -/
def stream (all : List SnapshotRow) (pair : String) (start now : Moment) : List Observation :=
  (((all.filter (SnapshotRow.since pair start)).insertionSort SnapshotRow.notAfter).filterMap
    (spotObservation runtime start now false)).insertionSort Observation.notAfter

variable {runtime} {all : List SnapshotRow} {pair : String} {start now last : Moment}

/-- A row is an observation when its time can be placed in the window and its quote is valid. -/
theorem spotObservation_eq {includeStart : Bool} {row : SnapshotRow} :
    spotObservation runtime start now includeStart row = (do
      let ident ← row.ident
      let moment ← row.observedAt? runtime
      if inWindow start now includeStart moment then
        match Paper.validateQuote row.bid row.ask row.status with
        | .ok quote => some ⟨moment, 0, ident, quote, none⟩
        | .error _ => none
      else none) := by
  unfold spotObservation SnapshotRow.observedAt?
  cases row.ident with
  | none => rfl
  | some ident =>
      cases row.ts with
      | none => rfl
      | some ts =>
          cases parsed : runtime.parseAware ts with
          | none => simp [parsed]
          | some aware =>
              by_cases placed : aware.offset = 0
              · cases inside : inWindow start now includeStart aware.moment with
                | false => simp [parsed, placed, inside]
                | true =>
                    generalize Paper.validateQuote row.bid row.ask row.status = checked
                    cases checked with
                    | error problem => simp [parsed, placed]
                    | ok quote => simp [parsed, placed, inside]
              · simp [parsed, placed]

theorem spotObservation_eq_some {includeStart : Bool} {row : SnapshotRow} {found : Observation}
    (seen : spotObservation runtime start now includeStart row = some found) :
    row.observedAt? runtime = some found.observedAt ∧
      inWindow start now includeStart found.observedAt = true := by
  rw [spotObservation_eq] at seen
  obtain ⟨ident, _, seen⟩ := Option.bind_eq_some_iff.mp seen
  obtain ⟨moment, placed, seen⟩ := Option.bind_eq_some_iff.mp seen
  split at seen
  next inside =>
    split at seen
    next =>
      cases seen
      exact ⟨placed, inside⟩
    next => cases seen
  next => cases seen

/-- An observation of a call was observed by its time. -/
theorem spotObservation_observedBy {includeStart : Bool} {row : SnapshotRow} {found : Observation}
    (seen : spotObservation runtime start now includeStart row = some found) :
    row.observedBy runtime now = true := by
  obtain ⟨placed, inside⟩ := spotObservation_eq_some seen
  unfold inWindow at inside
  simp only [SnapshotRow.observedBy, placed, Option.any_some]
  exact (Bool.and_eq_true_iff.mp inside).1

/-- What is not observed yet is not in the stream. -/
theorem filterMap_spotObservation (rows : List SnapshotRow) :
    (rows.insertionSort SnapshotRow.notAfter).filterMap (spotObservation runtime start now false) =
      ((rows.filter (SnapshotRow.observedBy runtime now)).insertionSort
        SnapshotRow.notAfter).filterMap (spotObservation runtime start now false) := by
  rw [← Sorting.filter_insertionSort, List.filterMap_filter]
  congr 1
  funext row
  cases seen : spotObservation runtime start now false row with
  | none => simp
  | some found => rw [if_pos (spotObservation_observedBy seen)]

/-- A call finds the stream up to its time. -/
theorem spotObservations_eq_stream {quotes : Quotes} {found : List Observation}
    (sees : Sees runtime all quotes)
    (observed : spotObservations runtime quotes pair start false = .ok found) :
    found = stream runtime all pair start quotes.now := by
  obtain ⟨lower, isLower, observed⟩ := bind_eq_ok.mp observed
  obtain ⟨upper, isUpper, observed⟩ := bind_eq_ok.mp observed
  cases observed
  rw [require_eq_ok] at isLower isUpper
  unfold stream
  rw [filterMap_spotObservation, filterMap_spotObservation (all.filter _)]
  congr 3
  rw [List.filter_filter, List.filter_filter]
  have swap (test : SnapshotRow → Bool) (rows : List SnapshotRow) :
      rows.filter (fun row => row.observedBy runtime quotes.now && test row) =
        (rows.filter (SnapshotRow.observedBy runtime quotes.now)).filter test := by
    rw [List.filter_filter]
    exact List.filter_congr fun row _ => Bool.and_comm ..
  rw [swap, swap, sees.rows]
  refine List.filter_congr fun row member => ?_
  obtain ⟨inAll, observed⟩ := List.mem_filter.mp member
  cases isTs : row.ts with
  | none => simp [SnapshotRow.since, isTs]
  | some ts =>
      have below := sees.inBounds row inAll observed upper isUpper ts isTs
      simp [SnapshotRow.since, isTs, isLower, below]

/-- The observations of an earlier call are those of a later one up to its time. -/
theorem spotObservation_filter (le : now ≤ last) (row : SnapshotRow) :
    ((spotObservation runtime start last false row).filter fun found => found.observedAt ≤ now) =
      spotObservation runtime start now false row := by
  rw [spotObservation_eq, spotObservation_eq]
  cases row.ident with
  | none => rfl
  | some ident =>
      cases row.observedAt? runtime with
      | none => rfl
      | some moment =>
          simp only [Option.bind_eq_bind, Option.bind_some]
          by_cases early : moment ≤ now
          · have same : inWindow start last false moment = inWindow start now false moment := by
              simp [inWindow, early, early.trans le]
            rw [same]
            split
            next =>
              split
              next => simp [Option.filter, early]
              next => rfl
            next => rfl
          · have outside : inWindow start now false moment = false := by simp [inWindow, early]
            rw [outside]
            split
            next =>
              split
              next => simp [Option.filter, early]
              next => rfl
            next => rfl

/-- A stream is the stream up to an earlier time, and then later observations. -/
theorem stream_split (runtime : Runtime) (all : List SnapshotRow) (pair : String) (start : Moment)
    (le : now ≤ last) : ∃ later, stream runtime all pair start last =
    stream runtime all pair start now ++ later := by
  have apart : ∀ first second : Observation, decide (first.observedAt ≤ now) = true →
      ¬ decide (second.observedAt ≤ now) = true →
      first.observedAt.micros < second.observedAt.micros := by
    intro first second early late
    rw [← Moment.lt_iff]
    exact lt_of_le_of_lt (of_decide_eq_true early) (lt_of_not_ge fun le => late (decide_eq_true le))
  unfold stream
  rw [Sorting.insertionSort_split (fun found : Observation => decide (found.observedAt ≤ now)),
    List.filter_filterMap]
  · refine ⟨_, congrArg (· ++ _) ?_⟩
    congr 2
    funext row
    exact spotObservation_filter le row
  · intro first second early late
    rw [Observation.notAfter_iff]
    exact .inl (apart first second early late)
  · intro first second early late
    rw [Observation.notAfter_iff]
    have order := apart first second early late
    omega

/-- Only snapshots are in a stream. -/
theorem extra_of_mem_stream {found : Observation}
    (member : found ∈ stream runtime all pair start now) : found.extra = none := by
  obtain ⟨row, _, seen⟩ := List.mem_filterMap.mp ((List.mem_insertionSort _).mp member)
  rw [spotObservation_eq] at seen
  obtain ⟨ident, _, seen⟩ := Option.bind_eq_some_iff.mp seen
  obtain ⟨moment, _, seen⟩ := Option.bind_eq_some_iff.mp seen
  split at seen
  next =>
    split at seen
    next =>
      cases seen
      rfl
    next => cases seen
  next => cases seen

theorem stream_sorted : (stream runtime all pair start now).insertionSort Observation.notAfter =
    stream runtime all pair start now :=
  (List.pairwise_insertionSort Observation.notAfter _).insertionSort_eq

/-! ## Schedules -/

/-- Calls at increasing times, each of which sees the snapshots observed by its time. -/
structure Schedule (runtime : Runtime) (all : List SnapshotRow) {Call : Type}
    (quotes : Call → Quotes) where
  earlier : List Call
  last : Call
  increasing : (earlier ++ [last]).Pairwise fun first second => (quotes first).now < (quotes second).now
  sees : ∀ call ∈ earlier ++ [last], Sees runtime all (quotes call)

def Schedule.calls {Call : Type} {quotes : Call → Quotes} (schedule : Schedule runtime all quotes) :
    List Call :=
  schedule.earlier ++ [schedule.last]

theorem Schedule.le_last {Call : Type} {quotes : Call → Quotes}
    (schedule : Schedule runtime all quotes) {call : Call} (member : call ∈ schedule.earlier) :
    (quotes call).now ≤ (quotes schedule.last).now :=
  le_of_lt ((List.pairwise_append.mp schedule.increasing).2.2 call member schedule.last
    List.mem_cons_self)

/-- Where every call that commits keeps an invariant, the last call of a schedule finds it and leaves it. -/
theorem Schedule.last_call {State Call Failure Report : Type} {quotes : Call → Quotes}
    {attempt : State → Call → Except Failure (Report × State)} {inv : State → Prop}
    (schedule : Schedule runtime all quotes) {state : State} (start : inv state)
    (keeps : ∀ before call report after, inv before → Sees runtime all (quotes call) →
      (quotes call).now ≤ (quotes schedule.last).now → attempt before call = .ok (report, after) → inv after)
    {report : Report} (answered : ((Runs.Machine.transactional attempt).step
      ((Runs.Machine.transactional attempt).run state schedule.earlier) schedule.last).1 = .ok report) :
    ∃ before, inv before ∧ inv ((Runs.Machine.transactional attempt).run state schedule.calls) ∧
      Sees runtime all (quotes schedule.last) ∧ attempt before schedule.last =
        .ok (report, (Runs.Machine.transactional attempt).run state schedule.calls) := by
  have before := (Runs.Machine.transactional attempt).run_invariant
    (fun call => Sees runtime all (quotes call) ∧ (quotes call).now ≤ (quotes schedule.last).now) inv
    (Runs.Machine.transactional_keeps _ _ fun before call report after seen holds done =>
      keeps before call report after holds seen.1 seen.2 done) schedule.earlier state
    (fun call member => ⟨schedule.sees call (List.mem_append_left _ member), schedule.le_last member⟩)
    start
  have sees := schedule.sees schedule.last (List.mem_append_right _ List.mem_cons_self)
  have done := Runs.Machine.transactional_answer_ok_iff.mp answered
  have final : (Runs.Machine.transactional attempt).run state schedule.calls =
      (Runs.Machine.transactional attempt).next
        ((Runs.Machine.transactional attempt).run state schedule.earlier) schedule.last :=
    (Runs.Machine.transactional attempt).run_append state schedule.earlier [schedule.last]
  rw [← final] at done
  exact ⟨_, before, keeps _ _ _ _ before sees le_rfl done, sees, done⟩

/-- How calls leave a row of a store: open while nothing in its stream closes it, or closed on the
exit of its stream. -/
inductive Left {Failure Found Row : Type} (exit : Except Failure (Option Found))
    (Closed : Found → Row → Prop) : Option Row → Prop
  | still (nothing : exit = .ok none) : Left exit Closed none
  | closed {found : Found} {row : Row} (isExit : exit = .ok (some found)) (isRow : Closed found row) :
      Left exit Closed (some row)

section Left

variable {Failure Found Row : Type} {exit : Except Failure (Option Found)}
  {Closed : Found → Row → Prop}

theorem Left.of_closes {rows : List Row} {own : Row → Bool}
    (sound : ∀ row ∈ rows, own row = true → ∃ found, exit = .ok (some found) ∧ Closed found row)
    (settled : (∃ row ∈ rows, own row = true) ∨ exit = .ok none) :
    Left exit Closed (rows.find? own) := by
  cases isFirst : rows.find? own with
  | some row =>
      obtain ⟨found, isExit, isRow⟩ :=
        sound row (List.mem_of_find?_eq_some isFirst) (List.find?_some isFirst)
      exact .closed isExit isRow
  | none =>
      rcases settled with ⟨row, member, isOwn⟩ | nothing
      · exact absurd isOwn (List.find?_eq_none.mp isFirst row member)
      · exact .still nothing

/-- Two ways to leave one row agree. -/
theorem Left.same {Same : Row → Row → Prop} {first second : Option Row}
    (isFirst : Left exit Closed first) (isSecond : Left exit Closed second)
    (alike : ∀ found first second, Closed found first → Closed found second → Same first second) :
    Option.Rel Same first second := by
  cases isFirst with
  | still nothing =>
      cases isSecond with
      | still _ => exact .none
      | closed isExit _ => cases nothing.symm.trans isExit
  | closed isExit isRow =>
      cases isSecond with
      | still nothing => cases nothing.symm.trans isExit
      | closed isOther isRow' =>
          cases isExit.symm.trans isOther
          exact .some (alike _ _ _ isRow isRow')

end Left

/-! ## The exit of a position -/

/-- The first observation up to a time that closes a position. -/
def exitBy (runtime : Runtime) (all : List SnapshotRow) (position : PositionRow) (now : Moment) :
    Except PilotFailure (Option Exit) :=
  firstExit position (stream runtime all position.pair position.entryTs now)

/-- What an observation decides about a position. -/
def exitOn (position : PositionRow) (observation : Observation) :
    Except PilotFailure (Option Exit) := do
  let decision ← (Paper.exitDecision .long position.stop position.target position.dueAt
    observation.observedAt observation.quote).mapError .paper
  return decision.map fun reason => ⟨position, observation, reason⟩

theorem firstExit_eq_findSomeM? (position : PositionRow) (observations : List Observation) :
    firstExit position observations = observations.findSomeM? (exitOn position) := by
  induction observations with
  | nil => rfl
  | cons observation rest hyp =>
      rw [firstExit, List.findSomeM?_cons, exitOn, bind_assoc]
      congr 1
      funext decision
      cases decision with
      | some reason => rfl
      | none => exact hyp

theorem firstExit_eq_some {position : PositionRow} {found : Exit} {observations : List Observation}
    (closes : firstExit position observations = .ok (some found)) :
    found.position = position ∧ found.observation ∈ observations := by
  rw [firstExit_eq_findSomeM?] at closes
  obtain ⟨observation, member, decided⟩ := Search.findSomeM?_eq_some closes
  obtain ⟨decision, _, decided⟩ := bind_eq_ok.mp decided
  obtain ⟨reason, _, rfl⟩ := Option.map_eq_some_iff.mp (Except.ok.inj decided)
  exact ⟨rfl, member⟩

variable {position : PositionRow} {found : Exit}

/-- What closes a position by one time closes it by every later time. -/
theorem exitBy_later (le : now ≤ last) (closes : exitBy runtime all position now = .ok (some found)) :
    exitBy runtime all position last = .ok (some found) := by
  obtain ⟨later, split⟩ := stream_split runtime all position.pair position.entryTs le
  unfold exitBy
  rw [split, firstExit_eq_findSomeM?]
  exact Search.findSomeM?_append ((firstExit_eq_findSomeM? ..).symm.trans closes) later

theorem findExit_eq_exitBy {quotes : Quotes} {exit : Option Exit} (sees : Sees runtime all quotes)
    (isExit : findExit runtime quotes position = .ok exit) :
    exitBy runtime all position quotes.now = .ok exit := by
  obtain ⟨seen, isSeen, isExit⟩ := bind_eq_ok.mp isExit
  obtain ⟨spot, isSpot, isSeen⟩ := bind_eq_ok.mp isSeen
  cases isSeen
  have nothing : extraObservations quotes position.pair position.entryTs false = [] := by
    simp [extraObservations, sees.noExtras]
  rw [nothing, List.append_nil, spotObservations_eq_stream sees isSpot, stream_sorted] at isExit
  exact isExit

/-- A call asks for a position unless it names others. -/
def CloseCall.Wants (call : CloseCall) (position : PositionRow) : Prop :=
  ∀ ids ∈ call.positionIds, (position.positionId : ℤ) ∈ ids

/-- The first phase collects the exits of the positions that a call asks for. -/
theorem findOne_collects (call : CloseCall) : Search.Collects (findExit runtime call.quotes)
    call.Wants ClosePlan.exits (findOne runtime call) := by
  have isTurn : findOne runtime call = Search.collect
      (fun position => call.positionIds.any fun ids => (position.positionId : ℤ) ∉ ids)
      (findExit runtime call.quotes) (fun plan exit => { plan with exits := plan.exits ++ [exit] })
      fun plan position => if position.dueAt ≤ call.quotes.now then
        { plan with pending := plan.pending ++ [position.positionId] } else plan := by
    funext plan position
    unfold findOne Search.collect
    congr 2
    funext exit
    cases exit <;> rfl
  rw [isTurn]
  refine Search.collect_collects (fun position wanted => ?_) (fun _ _ => rfl) fun plan position => ?_
  · rw [Option.any_eq_false]
    exact fun ids given => decide_eq_false (not_not_intro (wanted ids given))
  · split <;> rfl

theorem findExits_sound {call : CloseCall} {db : PilotDb} {plan : ClosePlan}
    (phase : findExits runtime call db = .ok plan) : ∀ exit ∈ plan.exits,
      ∃ position ∈ db.openPositions, findExit runtime call.quotes position = .ok (some exit) := by
  obtain ⟨_, _, phase⟩ := bind_eq_ok.mp phase
  exact (findOne_collects call).sound rfl phase

theorem findExits_complete {call : CloseCall} {db : PilotDb} {plan : ClosePlan}
    (phase : findExits runtime call db = .ok plan) : ∀ position ∈ db.openPositions,
      call.Wants position → findExit runtime call.quotes position = .ok none ∨
        ∃ exit ∈ plan.exits, findExit runtime call.quotes position = .ok (some exit) := by
  obtain ⟨_, _, phase⟩ := bind_eq_ok.mp phase
  exact (findOne_collects call).complete phase

/-! ## The close of a position -/

/-- Two closes agree on everything but their id and when they were written. -/
def CloseRow.SameExit (first second : CloseRow) : Prop :=
  second = { first with
    closeId := second.closeId
    recordLag := second.recordLag
    closedAt := second.closedAt }

/-- The row of a close is what the snapshot of the exit and the position make it. -/
def ClosedOn (found : Exit) (row : CloseRow) : Prop :=
  ∃ now result closeId, risked (Risk.settleLong found.position.quantity found.position.entryAsk
      found.observation.quote.bid found.position.feeBps) = .ok result ∧
    closeRow found now result found.observation.ident spotSnapshotSource closeId = .ok row

theorem closeRow_again (found : Exit) (now later : Moment) (result : Risk.Settlement) (exitId : ℤ)
    (source : String) (closeId otherId : ℕ) :
    closeRow found later result exitId source otherId =
      (fun row => { row with
        closeId := otherId
        recordLag := later.micros - found.observation.observedAt.micros
        closedAt := later }) <$> closeRow found now result exitId source closeId := by
  simp only [closeRow, map_bind, map_pure]

theorem ClosedOn.same {first second : CloseRow} (isFirst : ClosedOn found first)
    (isSecond : ClosedOn found second) : first.SameExit second := by
  obtain ⟨now, result, closeId, settled, isFirst⟩ := isFirst
  obtain ⟨later, other, otherId, settledOther, isSecond⟩ := isSecond
  cases settled.symm.trans settledOther
  rw [closeRow_again found now later result _ _ closeId otherId, isFirst] at isSecond
  cases isSecond
  rfl

theorem ClosedOn.own {row : CloseRow} (closed : ClosedOn found row) :
    row.positionId = found.position.positionId := by
  obtain ⟨now, result, closeId, _, isRow⟩ := closed
  revert row
  simp only [closeRow]
  iterate 9 (apply forall_of_bind; intro _)
  rintro _ ⟨⟩
  rfl

/-- The position of a found exit is closed already, and nothing is written, or its close is. -/
theorem writeClose_cases {now : Moment} {progress after : PilotDb × List ℕ}
    (snapshot : found.observation.extra = none)
    (turned : writeClose now progress found = .ok after) :
    (after = progress ∧ ∃ close ∈ progress.1.closes, close.positionId = found.position.positionId) ∨
    ∃ row, ClosedOn found row ∧
      after.1 = { progress.1 with closes := progress.1.closes ++ [row] } := by
  obtain ⟨db, closedIds⟩ := progress
  simp only [writeClose] at turned
  split at turned
  next closed =>
    cases turned
    obtain ⟨close, member, same⟩ := List.any_eq_true.mp closed
    exact .inl ⟨rfl, close, member, of_decide_eq_true same⟩
  next =>
    obtain ⟨result, settled, turned⟩ := bind_eq_ok.mp turned
    obtain ⟨⟨exitId, source, quoted⟩, recorded, turned⟩ := bind_eq_ok.mp turned
    rw [recordExitQuote, snapshot] at recorded
    cases recorded
    obtain ⟨row, isRow, turned⟩ := bind_eq_ok.mp turned
    obtain ⟨closed, inserted, turned⟩ := bind_eq_ok.mp turned
    obtain ⟨_, _, inserted⟩ := bind_eq_ok.mp inserted
    cases inserted
    cases turned
    exact .inr ⟨row, ⟨now, result, _, settled, isRow⟩, rfl⟩

/-! ## Calls in a row -/

/-- One call of `close_positions` with nothing between its phases. -/
def closeCall (runtime : Runtime) (call : CloseCall) (db : PilotDb) :
    Except PilotFailure (CloseReport × PilotDb) := do
  let plan ← findExits runtime call db
  closePositions runtime plan call.quotes.snapshots db

/-- Calls of `close_positions`, one after another. -/
def settlement (runtime : Runtime) :
    Runs.Machine PilotDb CloseCall (Except PilotFailure CloseReport) :=
  Runs.Machine.transactional fun db call => closeCall runtime call db

def PilotDb.closeOf (db : PilotDb) (positionId : ℕ) : Option CloseRow :=
  db.closes.find? fun close => close.positionId = positionId

/-- Whatever closed the position by a time closed it on the exit of its stream. -/
structure Chosen (runtime : Runtime) (all : List SnapshotRow) (position : PositionRow) (last : Moment)
    (db : PilotDb) : Prop where
  ids : (db.positions.map PositionRow.positionId).Nodup
  there : position ∈ db.positions
  closes : ∀ close ∈ db.closes, close.positionId = position.positionId →
    ∃ found, exitBy runtime all position last = .ok (some found) ∧ ClosedOn found close

theorem closePositions_eq_ok {plan : ClosePlan} {snapshots : List SnapshotRow} {db after : PilotDb}
    {report : CloseReport} (done : closePositions runtime plan snapshots db = .ok (report, after)) :
    ∃ progress, plan.exits.foldlM (writeClose plan.call.quotes.now) (db, []) = .ok progress ∧
      after.positions = progress.1.positions ∧ after.closes = progress.1.closes := by
  obtain ⟨account, _, done⟩ := bind_eq_ok.mp done
  obtain ⟨⟨closed, closedIds⟩, looped, done⟩ := bind_eq_ok.mp done
  obtain ⟨state, _, done⟩ := bind_eq_ok.mp done
  obtain ⟨⟨locks, evaluated⟩, isEvaluated, done⟩ := bind_eq_ok.mp done
  cases done
  have same := evaluateLocks_evaluated isEvaluated
  exact ⟨(closed, closedIds), looped, same.positions, same.closes⟩

/-- The exits of a plan are those of open positions, each on a snapshot. -/
theorem findExits_exitBy {call : CloseCall} {db : PilotDb} {plan : ClosePlan} {exit : Exit}
    (sees : Sees runtime all call.quotes) (phase : findExits runtime call db = .ok plan)
    (member : exit ∈ plan.exits) :
    exit.position ∈ db.openPositions ∧ exit.observation.extra = none ∧
      exitBy runtime all exit.position call.quotes.now = .ok (some exit) := by
  obtain ⟨position, isOpen, isExit⟩ := findExits_sound phase exit member
  have chosen := findExit_eq_exitBy sees isExit
  obtain ⟨rfl, inStream⟩ := firstExit_eq_some chosen
  exact ⟨isOpen, extra_of_mem_stream inStream, chosen⟩

/-- A call closes positions on the exits of their streams. -/
theorem Chosen.closed {call : CloseCall} {db after : PilotDb} {report : CloseReport}
    (chosen : Chosen runtime all position last db) (sees : Sees runtime all call.quotes)
    (le : call.quotes.now ≤ last) (done : closeCall runtime call db = .ok (report, after)) :
    Chosen runtime all position last after := by
  obtain ⟨plan, phase, done⟩ := bind_eq_ok.mp done
  obtain ⟨progress, looped, positions, closes⟩ := closePositions_eq_ok done
  have kept := foldlM_invariant_of_mem (fun progress : PilotDb × List ℕ =>
    progress.1.positions = db.positions ∧ ∀ close ∈ progress.1.closes,
      close.positionId = position.positionId →
        ∃ found, exitBy runtime all position last = .ok (some found) ∧ ClosedOn found close)
    plan.exits ?_ ⟨rfl, chosen.closes⟩ looped
  · refine ⟨?_, ?_, ?_⟩
    · rw [positions, kept.1]
      exact chosen.ids
    · rw [positions, kept.1]
      exact chosen.there
    · rw [closes]
      exact kept.2
  · rintro exit member progress next ⟨samePositions, sound⟩ turned
    obtain ⟨isOpen, snapshot, isExit⟩ := findExits_exitBy sees phase member
    rcases writeClose_cases snapshot turned with ⟨rfl, _⟩ | ⟨row, isRow, more⟩
    · exact ⟨samePositions, sound⟩
    · rw [more]
      refine ⟨samePositions, fun close inCloses own => ?_⟩
      rcases List.mem_append.mp inCloses with old | new
      · exact sound close old own
      · cases List.mem_singleton.mp new
        have same : exit.position = position :=
          List.inj_on_of_nodup_map chosen.ids (List.mem_of_mem_filter isOpen) chosen.there
            (isRow.own.symm.trans own)
        exact ⟨exit, exitBy_later le (same ▸ isExit), isRow⟩

/-- After a call that asks for the position it is closed, or nothing closes it by then. -/
theorem closeCall_settles {call : CloseCall} {db after : PilotDb} {report : CloseReport}
    (there : position ∈ db.positions) (sees : Sees runtime all call.quotes)
    (wanted : call.Wants position) (done : closeCall runtime call db = .ok (report, after)) :
    (∃ close ∈ after.closes, close.positionId = position.positionId) ∨
      exitBy runtime all position call.quotes.now = .ok none := by
  obtain ⟨plan, phase, done⟩ := bind_eq_ok.mp done
  obtain ⟨progress, looped, _, closes⟩ := closePositions_eq_ok done
  rw [closes]
  by_cases isOpen : position ∈ db.openPositions
  · rcases findExits_complete phase position isOpen wanted with nothing | ⟨exit, member, isExit⟩
    · exact .inr (findExit_eq_exitBy sees nothing)
    · left
      obtain ⟨rfl, _⟩ := firstExit_eq_some (findExit_eq_exitBy sees isExit)
      refine foldlM_reaches (fun (exit : Exit) (progress : PilotDb × List ℕ) =>
        ∃ close ∈ progress.1.closes, close.positionId = exit.position.positionId) plan.exits ?_ looped
        exit member
      intro exit member progress next turned
      obtain ⟨_, snapshot, _⟩ := findExits_exitBy sees phase member
      rcases writeClose_cases snapshot turned with ⟨rfl, closed⟩ | ⟨row, isRow, more⟩
      · exact ⟨closed, fun _ reached => reached⟩
      · rw [more]
        refine ⟨⟨row, List.mem_append_right _ List.mem_cons_self, isRow.own⟩, ?_⟩
        rintro other ⟨close, inCloses, own⟩
        exact ⟨close, List.mem_append_left _ inCloses, own⟩
  · left
    have closed : ∃ close ∈ db.closes, close.positionId = position.positionId := by
      by_contra none
      refine isOpen (List.mem_filter.mpr ⟨there, ?_⟩)
      simpa using none
    refine foldlM_invariant_of_mem (fun progress : PilotDb × List ℕ =>
      ∃ close ∈ progress.1.closes, close.positionId = position.positionId) plan.exits ?_ closed looped
    rintro exit member progress next ⟨close, inCloses, own⟩ turned
    obtain ⟨_, snapshot, _⟩ := findExits_exitBy sees phase member
    rcases writeClose_cases snapshot turned with ⟨rfl, _⟩ | ⟨row, _, more⟩
    · exact ⟨close, inCloses, own⟩
    · rw [more]
      exact ⟨close, List.mem_append_left _ inCloses, own⟩

/-- The last call of the schedule returned, and it asked for the position. -/
def Settles (schedule : Schedule runtime all CloseCall.quotes) (position : PositionRow)
    (db : PilotDb) : Prop :=
  schedule.last.Wants position ∧ ∃ report,
    ((settlement runtime).step ((settlement runtime).run db schedule.earlier) schedule.last).1 =
      .ok report

/-- After a schedule the position is closed on the exit of its stream, or there is none. -/
theorem left_of_schedule {db : PilotDb} (ids : (db.positions.map PositionRow.positionId).Nodup)
    (isOpen : position ∈ db.openPositions) (schedule : Schedule runtime all CloseCall.quotes)
    (settles : Settles schedule position db) :
    Left (exitBy runtime all position schedule.last.quotes.now) ClosedOn
      (((settlement runtime).run db schedule.calls).closeOf position.positionId) := by
  obtain ⟨wanted, report, answered⟩ := settles
  obtain ⟨there, isOpen⟩ := List.mem_filter.mp isOpen
  have start : Chosen runtime all position schedule.last.quotes.now db := by
    refine ⟨ids, there, fun close member own => ?_⟩
    rw [List.any_eq_true.mpr ⟨close, member, decide_eq_true own⟩] at isOpen
    cases isOpen
  obtain ⟨before, chosen, after, sees, done⟩ := schedule.last_call start
    (fun _ _ _ _ chosen sees inTime done => chosen.closed sees inTime done) answered
  refine Left.of_closes (fun close member own => ?_) ?_
  · exact after.closes close member (of_decide_eq_true own)
  · rcases closeCall_settles chosen.there sees wanted done with ⟨close, member, own⟩ | nothing
    · exact .inl ⟨close, member, decide_eq_true own⟩
    · exact .inr nothing

/-- **Schedules that end at one time** leave a position in one state. -/
theorem exit_same {db : PilotDb} (ids : (db.positions.map PositionRow.positionId).Nodup)
    (isOpen : position ∈ db.openPositions) (first second : Schedule runtime all CloseCall.quotes)
    (sameEnd : first.last.quotes.now = second.last.quotes.now)
    (settlesFirst : Settles first position db) (settlesSecond : Settles second position db) :
    Option.Rel CloseRow.SameExit
      (((settlement runtime).run db first.calls).closeOf position.positionId)
      (((settlement runtime).run db second.calls).closeOf position.positionId) := by
  have leftFirst := left_of_schedule ids isOpen first settlesFirst
  rw [sameEnd] at leftFirst
  exact leftFirst.same (left_of_schedule ids isOpen second settlesSecond)
    fun _ _ _ isFirst isSecond => isFirst.same isSecond

end Stream

end CryptoRadar.Pilot
