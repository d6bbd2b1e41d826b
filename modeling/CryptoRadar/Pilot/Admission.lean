import CryptoRadar.Pilot.Effects

/-!
# Admission over whole runs

In every run of calls by any number of writers at most one position is open, and every position
was inserted by a batch of candidates whose own lock evaluation left no lock active, with the
kill switch released, the recorded envelope offered and nothing else open (`positions_admitted`).

The batch reads the locks and the kill switch once and the open positions again after every
entry; that this is enough is `Opened`, and closes, reviews and switches of other writers come
before or after the whole batch.
-/

set_option autoImplicit false

namespace CryptoRadar.Pilot

open Runs

abbrev PilotEntry := Entry System Operation (Except PilotFailure Answer)

/-- The entry is the transaction that inserted the position, and it was admitted: after the lock
evaluation of the transaction, which left the tables `evaluated`, every lock had a review, the
latest kill switch row was not engaged, the offered envelope hash was the recorded one and no
position was open; the transaction left the locks, the reviews and the switch as they were then,
and this position as the only open one. -/
structure AdmittedBy (runtime : Runtime) (entry : PilotEntry) (position : PositionRow)
    (call : OpenCall) (report : OpenReport) (account : AccountRow) (state : AccountState)
    (evaluated : PilotDb) : Prop where
  input : entry.input = .openCandidates call
  answer : entry.answer = .ok (.opened report)
  inserted : entry.after.db.positions = entry.before.db.positions ++ [position]
  account_eq : requireAccount runtime entry.before.db = .ok account
  state_eq : accountState runtime account call.quotes entry.before.db = .ok state
  evaluation_eq : evaluateLocks account state call.quotes.now .entry entry.before.db =
    .ok (report.locks, evaluated)
  reviewed : ∀ lock ∈ evaluated.locks, ∃ review ∈ evaluated.reviews, review.lockId = lock.lockId
  released : ∀ row, evaluated.killSwitches.getLast? = some row → row.state ≠ .engaged
  sameEnvelope : envelopeSha256 runtime call.envelope = account.envelopeSha256
  nothingOpen : evaluated.openPositions = []
  onlyOpen : entry.after.db.openPositions = [position]
  sameLocks : entry.after.db.locks = evaluated.locks
  sameReviews : entry.after.db.reviews = evaluated.reviews
  sameSwitches : entry.after.db.killSwitches = evaluated.killSwitches

/-- A call of the past admitted the position. -/
def Admitted (runtime : Runtime) (past : List PilotEntry) (position : PositionRow) : Prop :=
  ∃ entry ∈ past, ∃ call report account state evaluated,
    AdmittedBy runtime entry position call report account state evaluated

theorem activeKinds_eq_nil {evaluation : LockEvaluation} (none : evaluation.activeKinds = []) :
    evaluation.active = [] := by
  unfold LockEvaluation.activeKinds at none
  cases active : evaluation.active with
  | nil => rfl
  | cons lock rest =>
      rw [active, List.map_cons, List.eraseDups_cons] at none
      cases none

theorem not_engaged_of_killSwitchEngaged {db : PilotDb} (released : db.killSwitchEngaged = false) :
    ∀ row, db.killSwitches.getLast? = some row → row.state ≠ .engaged := by
  intro row latest engaged
  simp [PilotDb.killSwitchEngaged, latest, engaged] at released

/-- The batch that opened a position admitted it. -/
theorem admittedBy_of_opened {runtime : Runtime} {call : OpenCall} {report : OpenReport}
    {account : AccountRow} {state : AccountState} {evaluated : PilotDb} {entry : PilotEntry}
    {decisions : List DecisionRow} {position : PositionRow} (kept : Kept entry.before.db)
    (input : entry.input = .openCandidates call) (answer : entry.answer = .ok (.opened report))
    (opened : Opened runtime call entry.before.db report entry.after.db account state evaluated)
    (tables : entry.after.db = { evaluated with
      decisions := decisions, positions := evaluated.positions ++ [position] })
    (place : position.positionId = evaluated.positions.length + 1)
    (free : Free runtime call ⟨account, report.locks, evaluated.killSwitchEngaged⟩ evaluated) :
    AdmittedBy runtime entry position call report account state evaluated := by
  have evaluation := opened.evaluation
  have noneActive : evaluated.activeLocks = [] := by
    rw [← evaluation.active]
    exact activeKinds_eq_nil free.unlocked
  constructor
  case input => exact input
  case answer => exact answer
  case inserted => rw [tables, ← evaluation.positions]
  case account_eq => exact opened.account_eq
  case state_eq => exact opened.state_eq
  case evaluation_eq => exact opened.evaluation_eq
  case reviewed =>
    intro lock there
    by_contra unreviewed
    have active : lock ∈ evaluated.activeLocks :=
      PilotDb.mem_activeLocks.mpr ⟨there, fun review member same => unreviewed ⟨review, member, same⟩⟩
    rw [noneActive] at active
    cases active
  case released => exact not_engaged_of_killSwitchEngaged free.released
  case sameEnvelope => exact free.sameEnvelope
  case nothingOpen => exact free.nothingOpen
  case onlyOpen =>
    rw [tables, openPositions_inLoop (evaluation.kept kept) place, free.nothingOpen]
    rfl
  case sameLocks => rw [tables]
  case sameReviews => rw [tables]
  case sameSwitches => rw [tables]

/-- What a committed call does to the positions: it leaves them and opens none of them again, or
it admits one. -/
theorem effect_positions {runtime : Runtime} (entry : PilotEntry) {answer : Answer}
    (kept : Kept entry.before.db) (answered : entry.answer = .ok answer)
    (effect : Effect runtime entry.before.db entry.input answer entry.after.db) :
    (entry.after.db.positions = entry.before.db.positions ∧
      entry.after.db.openPositions.Sublist entry.before.db.openPositions) ∨
    ∃ position call report account state evaluated,
      AdmittedBy runtime entry position call report account state evaluated := by
  generalize isInput : entry.input = operation at effect
  cases effect with
  | quiet same _ =>
      refine .inl ⟨same.positions, ?_⟩
      rw [PilotDb.openPositions_congr same.positions same.closes]
  | evaluated _ evaluated =>
      refine .inl ⟨evaluated.positions, ?_⟩
      rw [evaluated.openPositions_eq]
  | reviewed positions closes _ _ _ _ =>
      refine .inl ⟨positions, ?_⟩
      rw [PilotDb.openPositions_congr positions closes]
  | closed _ closing evaluated =>
      obtain ⟨more, closes, _⟩ := closing.closes
      refine .inl ⟨evaluated.positions.trans closing.positions, ?_⟩
      rw [evaluated.openPositions_eq]
      exact PilotDb.openPositions_sublist closing.positions closes
  | opened opened =>
      obtain ⟨decisions, added, tables, none | ⟨position, isAdded, place, free⟩⟩ := opened.tables
      · have evaluation := opened.evaluation
        have positions : entry.after.db.positions = entry.before.db.positions := by
          rw [tables, none, List.append_nil, evaluation.positions]
        have closes : entry.after.db.closes = entry.before.db.closes := by
          rw [tables, evaluation.closes]
        refine .inl ⟨positions, ?_⟩
        rw [PilotDb.openPositions_congr positions closes]
      · subst isAdded
        exact .inr ⟨position, _, _, _, _, _,
          admittedBy_of_opened kept isInput answered opened tables place free⟩

/-- What holds of the trace so far and the tables. -/
structure AdmissionSafe (runtime : Runtime) (past : List PilotEntry) (system : System) : Prop where
  kept : Kept system.db
  oneOpen : system.db.openPositions.length ≤ 1
  admitted : ∀ position ∈ system.db.positions, Admitted runtime past position

/-- One step keeps it. -/
theorem admissionSafe_step (runtime : Runtime) (past : List PilotEntry) (system : System)
    (operation : Operation) (safe : AdmissionSafe runtime past system) :
    AdmissionSafe runtime (past ++ [(pilot runtime).entry system operation])
      ((pilot runtime).next system operation) := by
  have weaken : ∀ position, Admitted runtime past position →
      Admitted runtime (past ++ [(pilot runtime).entry system operation]) position := by
    rintro position ⟨entry, member, admittedBy⟩
    exact ⟨entry, List.mem_append_left _ member, admittedBy⟩
  cases result : attempt runtime system operation with
  | error failure =>
      have unchanged : (pilot runtime).next system operation = system :=
        Machine.transactional_next_error result
      rw [unchanged]
      exact ⟨safe.kept, safe.oneOpen, fun position member => weaken position
        (safe.admitted position member)⟩
  | ok pair =>
      obtain ⟨answer, after⟩ := pair
      have reached : (pilot runtime).next system operation = after :=
        Machine.transactional_next_ok result
      have effect := attempt_effect safe.kept result
      have answered : ((pilot runtime).entry system operation).answer = .ok answer :=
        Machine.transactional_answer_ok result
      have entryAfter : ((pilot runtime).entry system operation).after = after := reached
      rw [reached]
      rcases effect_positions ((pilot runtime).entry system operation) safe.kept answered
        (entryAfter ▸ effect) with ⟨positions, fewer⟩ | ⟨position, call, report, account, state,
          evaluated, admittedBy⟩
      · rw [entryAfter] at positions fewer
        refine ⟨effect.kept safe.kept, fewer.length_le.trans safe.oneOpen, ?_⟩
        intro position member
        rw [positions] at member
        exact weaken position (safe.admitted position member)
      · have inserted := admittedBy.inserted
        have onlyOpen := admittedBy.onlyOpen
        rw [entryAfter] at inserted onlyOpen
        refine ⟨effect.kept safe.kept, by rw [onlyOpen]; exact le_rfl, ?_⟩
        intro other member
        rw [inserted] at member
        rcases List.mem_append.mp member with old | fresh
        · exact weaken other (safe.admitted other old)
        · rw [List.mem_singleton.mp fresh]
          exact ⟨_, List.mem_append_right _ (List.mem_singleton_self _), call, report, account,
            state, evaluated, admittedBy⟩

/-- **Admission safety over whole runs.** After every sequence of calls at most one position has
no close, and every position was admitted by the transaction that inserted it. -/
theorem positions_admitted (runtime : Runtime) (operations : List Operation) :
    ((pilot runtime).run System.empty operations).db.openPositions.length ≤ 1 ∧
      ∀ position ∈ ((pilot runtime).run System.empty operations).db.positions,
        Admitted runtime ((pilot runtime).trace System.empty operations) position := by
  have start : AdmissionSafe runtime [] System.empty :=
    ⟨kept_empty, Nat.zero_le _, fun position member => by cases member⟩
  have safe := (pilot runtime).history_invariant (fun _ => True) (AdmissionSafe runtime)
    (fun past system operation _ => admissionSafe_step runtime past system operation) operations []
    System.empty (fun _ _ => trivial) start
  rw [List.nil_append] at safe
  exact ⟨safe.oneOpen, safe.admitted⟩

/-! ## A run that opens a position -/

def sampleRuntime : Runtime where
  sha256Hex _ := String.ofList (List.replicate 64 'a')
  digit? char := if char.isDigit then some (char.toNat - 48) else none
  isPrintable _ := true
  parseAware _ := some ⟨⟨1000000000000, by decide⟩, 0⟩

def sampleEnvelope : Risk.Envelope :=
  ⟨{ equity := ⟨false, 100000, -2⟩, currency := pyStr "USD" }, by decide +kernel⟩

def sampleNow : Moment := ⟨1000000000000, by decide⟩

def sampleCandidate (eventId : String) : PilotCandidate where
  eventId := eventId
  runId := "run"
  asset := "BTC"
  pair := "BTCUSD"
  quote := "USD"
  direction := .member .long
  bid := .decimal (some ⟨false, 1000, -1⟩)
  ask := .decimal (some ⟨false, 1001, -1⟩)
  snapshotTs := "1970-01-12T13:46:40+00:00"
  status := .missing
  atr := .decimal (some (.ofNat 1))
  atrPair := .text "BTCUSD"
  pairEntry := some [("lot_decimals", .integer 2), ("ordermin", .integer 0),
    ("costmin", .integer 0), ("pair_decimals", .integer 2)]

/-- Two candidates in one batch: the first opens, the second finds it open. -/
def sampleCall : OpenCall :=
  ⟨[sampleCandidate "first", sampleCandidate "second"], sampleEnvelope, .ofNat 26,
    ⟨[], [], sampleNow⟩⟩

end CryptoRadar.Pilot
