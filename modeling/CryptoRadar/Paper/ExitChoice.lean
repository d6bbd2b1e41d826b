import CryptoRadar.Paper.Admission
import CryptoRadar.Pilot.ExitChoice

/-!
# Which observation closes a play

The paper game chooses exits as the pilot does: it reads the same stream of observations, and the
first that closes a play with levels is the same for every call that finds one. So two schedules
of calls that end at one time leave a play in the same state (`exit_same`), and
`exit_independent` says it of both stores.

A call that raises writes nothing, and one close that cannot be written keeps the others of the
call from being written. So the last calls must return: in `exit_lost` a schedule with an earlier
call closes a play and a schedule without it never does.
-/

set_option autoImplicit false

namespace CryptoRadar.Paper

open Checked
open Pilot (Left Observation Quotes Schedule Sees SnapshotRow stream stream_split stream_sorted
  spotObservations_eq_stream extra_of_mem_stream)

/-! ## The exit of a play -/

section Choice

/-- The first observation up to a time that closes a play with these levels. -/
def exitBy (runtime : Runtime) (all : List SnapshotRow) (play : PlayRow) (stop target : Decimal)
    (now : Moment) : Except StoreRaise (Option Exit) :=
  firstExit play stop target (stream runtime all play.pair play.entryTs now)

variable {runtime : Runtime} {all : List SnapshotRow} {play : PlayRow} {stop target : Decimal}
  {now last : Moment} {found : Exit}

/-- What closes a play by one time closes it by every later time. -/
theorem exitBy_later (le : now ≤ last)
    (closes : exitBy runtime all play stop target now = .ok (some found)) :
    exitBy runtime all play stop target last = .ok (some found) := by
  obtain ⟨later, split⟩ := stream_split runtime all play.pair play.entryTs le
  unfold exitBy
  rw [split, firstExit_eq_findSomeM?]
  exact Search.findSomeM?_append ((firstExit_eq_findSomeM? ..).symm.trans closes) later

/-- The play has both exits. -/
structure PlayRow.Levels (play : PlayRow) (stop target : Decimal) : Prop where
  stop : play.stop = some stop
  target : play.target = some target

theorem findExit_eq_exitBy {quotes : Quotes} {exit : Option Exit} (levels : play.Levels stop target)
    (sees : Sees runtime all quotes) (isExit : findExit runtime quotes play = .ok exit) :
    exitBy runtime all play stop target quotes.now = .ok exit := by
  unfold findExit at isExit
  rw [levels.stop, levels.target] at isExit
  obtain ⟨spot, isSpot, isExit⟩ := bind_eq_ok.mp isExit
  have nothing : Pilot.extraObservations quotes play.pair play.entryTs false = [] := by
    simp [Pilot.extraObservations, sees.noExtras]
  change firstExit play stop target (List.insertionSort _ (spot ++ _)) = _ at isExit
  rw [nothing, List.append_nil, spotObservations_eq_stream sees (mapError_eq_ok.mp isSpot),
    stream_sorted] at isExit
  exact isExit

theorem findExits_complete {call : CloseCall} {db : PaperDb} {plan : ClosePlan}
    (phase : findExits runtime call db = .ok plan) : ∀ play ∈ db.openPlays,
      call.Wants play → findExit runtime call.quotes play = .ok none ∨
        ∃ exit ∈ plan.exits, findExit runtime call.quotes play = .ok (some exit) := by
  obtain ⟨_, _, phase⟩ := bind_eq_ok.mp phase
  exact (findOne_collects runtime call).complete phase

/-! ## The close of a play -/

/-- Two closes agree on everything but their id and when they were written. -/
def CloseRow.SameExit (first second : CloseRow) : Prop :=
  second = { first with
    closeId := second.closeId
    closedAt := second.closedAt
    recordLag := second.recordLag }

theorem closeRow_again (found : Exit) (now later : Moment) (result : PlayResult) (exitId : ℤ)
    (closeId otherId : ℕ) :
    closeRow found later result exitId otherId =
      (fun row => { row with
        closeId := otherId
        closedAt := later
        recordLag := found.reason.map fun _ => later.micros - found.observation.observedAt.micros })
        <$> closeRow found now result exitId closeId := by
  simp only [closeRow, map_bind, map_pure]

theorem ClosedOn.same {exitId : ℤ} {first second : CloseRow} (isFirst : ClosedOn found exitId first)
    (isSecond : ClosedOn found exitId second) : first.SameExit second := by
  obtain ⟨now, entry, stake, result, closeId, isEntry, isStake, settled, isFirst⟩ := isFirst
  obtain ⟨later, entry', stake', other, otherId, isEntry', isStake', settled', isSecond⟩ := isSecond
  cases isEntry.symm.trans isEntry'
  cases isStake.symm.trans isStake'
  cases settled.symm.trans settled'
  rw [closeRow_again found now later result _ closeId otherId, isFirst] at isSecond
  cases isSecond
  rfl

/-! ## Calls in a row -/

/-- One call of `close_plays` with nothing between its phases. -/
def closeCall (runtime : Runtime) (call : CloseCall) (db : PaperDb) :
    Except StoreRaise (SettleReport × PaperDb) := do
  let plan ← findExits runtime call db
  closePlays plan db

/-- Calls of `close_plays`, one after another. -/
def settlement (runtime : Runtime) : Runs.Machine PaperDb CloseCall (Except StoreRaise SettleReport) :=
  Runs.Machine.transactional fun db call => closeCall runtime call db

def PaperDb.closeOf (db : PaperDb) (playId : ℕ) : Option CloseRow :=
  db.closes.find? fun close => close.playId = playId

/-- Whatever closed the play by a time closed it on the exit of its stream. -/
structure Chosen (runtime : Runtime) (all : List SnapshotRow) (play : PlayRow) (stop target : Decimal)
    (last : Moment) (db : PaperDb) : Prop where
  ids : (db.plays.map PlayRow.playId).Nodup
  there : play ∈ db.plays
  closes : ∀ close ∈ db.closes, close.playId = play.playId →
    ∃ found, exitBy runtime all play stop target last = .ok (some found) ∧
      ClosedOn found found.observation.ident close

/-- A call closes plays on the exits of their streams. -/
theorem Chosen.closed {call : CloseCall} {db after : PaperDb} {report : SettleReport}
    (chosen : Chosen runtime all play stop target last db) (levels : play.Levels stop target)
    (sees : Sees runtime all call.quotes) (le : call.quotes.now ≤ last)
    (done : closeCall runtime call db = .ok (report, after)) :
    Chosen runtime all play stop target last after := by
  obtain ⟨plan, phase, done⟩ := bind_eq_ok.mp done
  obtain ⟨progress, looped, done⟩ := bind_eq_ok.mp done
  cases done
  have kept := foldlM_invariant_of_mem (fun progress : PaperDb × List ℕ =>
    progress.1.plays = db.plays ∧ ∀ close ∈ progress.1.closes, close.playId = play.playId →
      ∃ found, exitBy runtime all play stop target last = .ok (some found) ∧
        ClosedOn found found.observation.ident close)
    plan.exits ?_ ⟨rfl, chosen.closes⟩ looped
  · refine ⟨?_, ?_, kept.2⟩
    · rw [kept.1]
      exact chosen.ids
    · rw [kept.1]
      exact chosen.there
  · rintro exit member progress next ⟨samePlays, sound⟩ turned
    obtain ⟨isOpen, isExit⟩ := findExits_sound phase exit member
    rcases writeClose_cases turned with ⟨rfl, _⟩ | ⟨row, writes⟩
    · exact ⟨samePlays, sound⟩
    · obtain ⟨exitId, isRow, snapshot⟩ := writes.closed
      obtain ⟨rows, isNext⟩ := writes.tables
      rw [isNext]
      refine ⟨samePlays, fun close inCloses own => ?_⟩
      rcases List.mem_append.mp inCloses with old | new
      · exact sound close old own
      · cases List.mem_singleton.mp new
        have same : exit.play = play :=
          List.inj_on_of_nodup_map chosen.ids (List.mem_of_mem_filter isOpen) chosen.there
            (isRow.computed.own.symm.trans own)
        rw [same] at isExit
        have inStream := findExit_eq_exitBy levels sees isExit
        rw [snapshot (extra_of_mem_stream (firstExit_eq_some inStream).2)] at isRow
        exact ⟨exit, exitBy_later le inStream, isRow⟩

theorem isClosed_of_writes {exit : Exit} {progress next : PaperDb × List ℕ} {playId : ℕ}
    {moment : Moment} (turned : writeClose moment progress exit = .ok next)
    (closed : progress.1.isClosed playId = true) : next.1.isClosed playId = true := by
  rcases writeClose_cases turned with ⟨rfl, _⟩ | ⟨row, writes⟩
  · exact closed
  · obtain ⟨rows, isNext⟩ := writes.tables
    obtain ⟨close, member, own⟩ := PaperDb.isClosed_iff.mp closed
    rw [isNext, PaperDb.isClosed_iff]
    exact ⟨close, List.mem_append_left _ member, own⟩

/-- After a call that asks for the play it is closed, or nothing closes it by then. -/
theorem closeCall_settles {call : CloseCall} {db after : PaperDb} {report : SettleReport}
    (there : play ∈ db.plays) (levels : play.Levels stop target) (sees : Sees runtime all call.quotes)
    (wanted : call.Wants play) (done : closeCall runtime call db = .ok (report, after)) :
    after.isClosed play.playId = true ∨
      exitBy runtime all play stop target call.quotes.now = .ok none := by
  obtain ⟨plan, phase, done⟩ := bind_eq_ok.mp done
  obtain ⟨progress, looped, done⟩ := bind_eq_ok.mp done
  cases done
  by_cases isOpen : play ∈ db.openPlays
  · rcases findExits_complete phase play isOpen wanted with nothing | ⟨exit, member, isExit⟩
    · exact .inr (findExit_eq_exitBy levels sees nothing)
    · left
      have reached := foldlM_reaches (fun (exit : Exit) (progress : PaperDb × List ℕ) =>
        progress.1.isClosed exit.play.playId = true) plan.exits ?_ looped exit member
      · rw [findExit_play isExit] at reached
        exact reached
      · intro exit _ progress next turned
        refine ⟨?_, fun other reached => isClosed_of_writes turned reached⟩
        rcases writeClose_cases turned with ⟨rfl, closed⟩ | ⟨row, writes⟩
        · exact closed
        · obtain ⟨exitId, isRow, _⟩ := writes.closed
          obtain ⟨rows, isNext⟩ := writes.tables
          rw [isNext, PaperDb.isClosed_iff]
          exact ⟨row, List.mem_append_right _ List.mem_cons_self, isRow.computed.own⟩
  · left
    have closed : db.isClosed play.playId = true := by
      by_contra still
      refine isOpen (List.mem_filter.mpr ⟨there, ?_⟩)
      rw [Bool.eq_false_iff.mpr still]
      rfl
    exact foldlM_invariant (fun progress : PaperDb × List ℕ =>
      progress.1.isClosed play.playId = true)
      (fun progress exit next closed turned => isClosed_of_writes turned closed) plan.exits closed looped

/-- The last call of the schedule returned, and it asked for the play. -/
def Settles (schedule : Schedule runtime all CloseCall.quotes) (play : PlayRow) (db : PaperDb) : Prop :=
  schedule.last.Wants play ∧ ∃ report,
    ((settlement runtime).step ((settlement runtime).run db schedule.earlier) schedule.last).1 =
      .ok report

/-- After a schedule the play is closed on the exit of its stream, or there is none. -/
theorem left_of_schedule {db : PaperDb} (ids : (db.plays.map PlayRow.playId).Nodup)
    (isOpen : play ∈ db.openPlays) (levels : play.Levels stop target)
    (schedule : Schedule runtime all CloseCall.quotes) (settles : Settles schedule play db) :
    Left (exitBy runtime all play stop target schedule.last.quotes.now)
      (fun found row => ClosedOn found found.observation.ident row)
      (((settlement runtime).run db schedule.calls).closeOf play.playId) := by
  obtain ⟨wanted, report, answered⟩ := settles
  obtain ⟨there, isOpen⟩ := List.mem_filter.mp isOpen
  have start : Chosen runtime all play stop target schedule.last.quotes.now db := by
    refine ⟨ids, there, fun close member own => ?_⟩
    rw [PaperDb.isClosed_iff.mpr ⟨close, member, own⟩] at isOpen
    cases isOpen
  obtain ⟨before, chosen, after, sees, done⟩ := schedule.last_call start
    (fun _ _ _ _ chosen sees inTime done => chosen.closed levels sees inTime done) answered
  refine Left.of_closes (fun close member own => ?_) ?_
  · exact after.closes close member (of_decide_eq_true own)
  · rcases closeCall_settles chosen.there levels sees wanted done with closed | nothing
    · exact .inl (List.any_eq_true.mp closed)
    · exact .inr nothing

/-- **Schedules that end at one time** leave a play with levels in one state. -/
theorem exit_same {db : PaperDb} (ids : (db.plays.map PlayRow.playId).Nodup)
    (isOpen : play ∈ db.openPlays) (levels : play.Levels stop target)
    (first second : Schedule runtime all CloseCall.quotes)
    (sameEnd : first.last.quotes.now = second.last.quotes.now)
    (settlesFirst : Settles first play db) (settlesSecond : Settles second play db) :
    Option.Rel CloseRow.SameExit
      (((settlement runtime).run db first.calls).closeOf play.playId)
      (((settlement runtime).run db second.calls).closeOf play.playId) := by
  have leftFirst := left_of_schedule ids isOpen levels first settlesFirst
  rw [sameEnd] at leftFirst
  exact leftFirst.same (left_of_schedule ids isOpen levels second settlesSecond)
    fun _ _ _ isFirst isSecond => isFirst.same isSecond

end Choice

/-- **Exit choice does not depend on the schedule**, in both stores: of an open play with levels,
and of an open position, two schedules over the same snapshots that end at the same time, and
whose last calls return and ask for it, leave the same state: open in both, or closed in both on
the same snapshot with the same reason, quote, time and amounts. -/
theorem exit_independent (runtime : Runtime) (all : List SnapshotRow) :
    (∀ (db : PaperDb) (play : PlayRow) (stop target : Decimal)
      (first second : Schedule runtime all CloseCall.quotes),
      (db.plays.map PlayRow.playId).Nodup → play ∈ db.openPlays → play.Levels stop target →
      first.last.quotes.now = second.last.quotes.now → Settles first play db → Settles second play db →
      Option.Rel CloseRow.SameExit
        (((settlement runtime).run db first.calls).closeOf play.playId)
        (((settlement runtime).run db second.calls).closeOf play.playId)) ∧
    ∀ (db : Pilot.PilotDb) (position : Pilot.PositionRow)
      (first second : Schedule runtime all Pilot.CloseCall.quotes),
      (db.positions.map Pilot.PositionRow.positionId).Nodup → position ∈ db.openPositions →
      first.last.quotes.now = second.last.quotes.now → Pilot.Settles first position db →
      Pilot.Settles second position db →
      Option.Rel Pilot.CloseRow.SameExit
        (((Pilot.settlement runtime).run db first.calls).closeOf position.positionId)
        (((Pilot.settlement runtime).run db second.calls).closeOf position.positionId) :=
  ⟨fun _ _ _ _ first second ids isOpen levels sameEnd settlesFirst settlesSecond =>
      exit_same ids isOpen levels first second sameEnd settlesFirst settlesSecond,
    fun _ _ first second ids isOpen sameEnd settlesFirst settlesSecond =>
      Pilot.exit_same ids isOpen first second sameEnd settlesFirst settlesSecond⟩

/-! ## Two schedules over three snapshots -/

def sampleMoment (second : Fin 4) : Moment :=
  ⟨1000000000000 + second.val * 1000000, by
    have bound := second.isLt
    unfold Moment.least Moment.greatest
    omega⟩

/-- A runtime that reads the times of the sample. -/
def clockRuntime : Runtime :=
  { Pilot.sampleRuntime with
    parseAware := fun text =>
      if text = "1970-01-12T13:46:41.000000+00:00" then some ⟨sampleMoment 1, 0⟩
      else if text = "1970-01-12T13:46:42.000000+00:00" then some ⟨sampleMoment 2, 0⟩
      else if text = "1970-01-12T13:46:43.000000+00:00" then some ⟨sampleMoment 3, 0⟩
      else if text = "1970-01-12T13:46:40+00:00" then some ⟨sampleMoment 0, 0⟩
      else none }

def sampleSnapshot (ident : ℤ) (pair ts : String) (price : Decimal) : SnapshotRow where
  ident := some ident
  pair := pair
  ts := some ts
  bid := .decimal (some price)
  ask := .decimal (some price)
  status := .missing

/-- The stop of one pair is touched, then its target, then another pair shows a price beyond any
amount that can be recorded. -/
def sampleSnapshots : List SnapshotRow :=
  [sampleSnapshot 1 "BTCUSD" "1970-01-12T13:46:41.000000+00:00" (.ofNat 90),
    sampleSnapshot 2 "BTCUSD" "1970-01-12T13:46:42.000000+00:00" (.ofNat 110),
    sampleSnapshot 3 "ETHUSD" "1970-01-12T13:46:43.000000+00:00" ⟨false, 1, 20⟩]

def sampleQuotes (second : Fin 4) : Quotes where
  snapshots := sampleSnapshots.filter (SnapshotRow.observedBy clockRuntime (sampleMoment second))
  extras := []
  now := sampleMoment second

theorem sampleQuotes_bounds : ∀ second : Fin 4, ∀ row ∈ sampleSnapshots,
    row.observedBy clockRuntime (sampleMoment second) = true →
    ∀ upper ∈ (sampleMoment second).plus? Pilot.snapshotTextMargin,
      ∀ ts ∈ row.ts, ts ≤ utcText upper := by
  decide +kernel

theorem sampleQuotes_sees (second : Fin 4) :
    Sees clockRuntime sampleSnapshots (sampleQuotes second) :=
  ⟨rfl, by simp [sampleQuotes, List.filter_filter], sampleQuotes_bounds second⟩

/-- A call at a time, after one at the first time or after none. -/
def sampleSchedule {Call : Type} {quotes : Call → Quotes} (early : Bool) (call : Quotes → Call)
    (same : ∀ given, quotes (call given) = given) (second : Fin 4) (later : 1 < second) :
    Schedule clockRuntime sampleSnapshots quotes where
  earlier := if early then [call (sampleQuotes 1)] else []
  last := call (sampleQuotes second)
  increasing := by
    have before : ∀ second : Fin 4, 1 < second → sampleMoment 1 < sampleMoment second := by decide
    cases early with
    | true => simp [same, sampleQuotes, before second later]
    | false => simp
  sees := by
    cases early with
    | true => simp [same, sampleQuotes_sees]
    | false => simp [same, sampleQuotes_sees]

/-- A schedule of `close_plays`. -/
def playSchedule (early : Bool) (second : Fin 4) (later : 1 < second) :
    Schedule clockRuntime sampleSnapshots CloseCall.quotes :=
  sampleSchedule early (fun quotes => ⟨quotes, none⟩) (fun _ => rfl) second later

/-- The plays of two candidates, one of each pair. -/
def samplePlays : PaperDb :=
  ((paperGame clockRuntime).run ⟨{}, fun _ => none⟩
    [.ensureWallet (.ofNat 100) "USD" (sampleMoment 0),
      .openCandidates ⟨[sampleCandidate "first",
        { sampleCandidate "second" with asset := "ETH", pair := "ETHUSD", atrPair := .text "ETHUSD" }],
        ⟨.ofNat 10, .ofNat 26, 3⟩, sampleMoment 0⟩]).db

/-- The plays have their own ids, and the first has both of its levels. -/
theorem samplePlays_opened : (samplePlays.plays.map PlayRow.playId).Nodup ∧
    ∃ play ∈ samplePlays.openPlays, play.playId = 1 ∧
      play.stop.isSome = true ∧ play.target.isSome = true := by
  decide +kernel

theorem samplePlays_levels : ∃ play ∈ samplePlays.openPlays, play.playId = 1 ∧
    ∃ stop target, play.Levels stop target := by
  obtain ⟨play, isOpen, first, hasStop, hasTarget⟩ := samplePlays_opened.2
  obtain ⟨stop, isStop⟩ := Option.isSome_iff_exists.mp hasStop
  obtain ⟨target, isTarget⟩ := Option.isSome_iff_exists.mp hasTarget
  exact ⟨play, isOpen, first, stop, target, isStop, isTarget⟩

theorem playSchedules_ended :
    (((settlement clockRuntime).run samplePlays
      (playSchedule true 3 (by decide)).calls).closeOf 1).isSome = true ∧
    ((settlement clockRuntime).run samplePlays (playSchedule false 3 (by decide)).calls).closeOf 1 = none := by
  decide +kernel

/-- Of two schedules that end with the third snapshot, one closes the first play and the other
leaves it open: its call cannot write the close of the other play. -/
theorem exit_lost :
    ∃ (play : PlayRow) (stop target : Decimal)
      (first second : Schedule clockRuntime sampleSnapshots CloseCall.quotes),
      (samplePlays.plays.map PlayRow.playId).Nodup ∧ play ∈ samplePlays.openPlays ∧
      play.Levels stop target ∧ first.last.quotes.now = second.last.quotes.now ∧
      (∀ call ∈ first.calls ++ second.calls, call.playIds = none) ∧
      ¬ Option.Rel CloseRow.SameExit
        (((settlement clockRuntime).run samplePlays first.calls).closeOf play.playId)
        (((settlement clockRuntime).run samplePlays second.calls).closeOf play.playId) := by
  obtain ⟨play, isOpen, isFirst, stop, target, levels⟩ := samplePlays_levels
  refine ⟨play, stop, target, playSchedule true 3 (by decide), playSchedule false 3 (by decide),
    samplePlays_opened.1, isOpen, levels, rfl,
    by simp [playSchedule, sampleSchedule, Schedule.calls], ?_⟩
  obtain ⟨closed, still⟩ := playSchedules_ended
  obtain ⟨close, isClose⟩ := Option.isSome_iff_exists.mp closed
  rw [isFirst, still, isClose]
  intro same
  cases same

def samplePositions : Pilot.PilotDb :=
  ((Pilot.pilot clockRuntime).run Pilot.System.empty
    [.ensureAccount Pilot.sampleEnvelope (sampleMoment 0),
      .openCandidates ⟨[Pilot.sampleCandidate "first"], Pilot.sampleEnvelope, .ofNat 26,
        ⟨[], [], sampleMoment 0⟩⟩]).db

def positionSchedule (early : Bool) (second : Fin 4) (later : 1 < second) :
    Schedule clockRuntime sampleSnapshots Pilot.CloseCall.quotes :=
  sampleSchedule early (fun quotes => ⟨quotes, none⟩) (fun _ => rfl) second later

theorem settles_of_answer {Failure Report : Type} {answer : Except Failure Report}
    (returned : answer.isOk = true) : ∃ report, answer = .ok report := by
  cases answer with
  | ok report => exact ⟨report, rfl⟩
  | error failure => cases returned

/-- With the second snapshot as the end, both schedules close the play, and the position, on the
first. -/
theorem exit_independent_sample :
    (Option.Rel CloseRow.SameExit
        (((settlement clockRuntime).run samplePlays (playSchedule true 2 (by decide)).calls).closeOf 1)
        (((settlement clockRuntime).run samplePlays (playSchedule false 2 (by decide)).calls).closeOf 1)) ∧
      Option.Rel Pilot.CloseRow.SameExit
        (((Pilot.settlement clockRuntime).run samplePositions
          (positionSchedule true 2 (by decide)).calls).closeOf 1)
        (((Pilot.settlement clockRuntime).run samplePositions
          (positionSchedule false 2 (by decide)).calls).closeOf 1) := by
  have result := exit_independent clockRuntime sampleSnapshots
  constructor
  · obtain ⟨play, isOpen, isFirst, stop, target, levels⟩ := samplePlays_levels
    rw [← isFirst]
    refine result.1 samplePlays play stop target _ _ samplePlays_opened.1 isOpen levels rfl
      ⟨fun ids given => ?_, settles_of_answer ?_⟩ ⟨fun ids given => ?_, settles_of_answer ?_⟩
    · cases given
    · decide +kernel
    · cases given
    · decide +kernel
  · have open1 : ∃ position ∈ samplePositions.openPositions, position.positionId = 1 := by
      decide +kernel
    obtain ⟨position, isOpen, isFirst⟩ := open1
    rw [← isFirst]
    refine result.2 samplePositions position _ _ (by decide +kernel) isOpen rfl
      ⟨fun ids given => ?_, settles_of_answer ?_⟩ ⟨fun ids given => ?_, settles_of_answer ?_⟩
    · cases given
    · decide +kernel
    · cases given
    · decide +kernel

end CryptoRadar.Paper
