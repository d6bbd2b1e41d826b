import CryptoRadar.Worker.Sections

/-!
# The steps of a flight

A step of a flight keeps the fields of the worker, and then the flight is under way with its next
phase, or it is over (`ends_advance`). A flight that is over has freed the slot or left its item
to be closed later, when the ports kept what they promise (`Ports.Kept`): the ledger raises
`InvocationError` only, and the clock gives aware times.

The publication of a batch is justified where it is emitted (`publishes`): the flight shows the
claim and the fence, the scheduler the deadline.
-/

set_option autoImplicit false

namespace CryptoRadar.Worker

open Program
open Scheduler (closes statesOf Recorded Told OpportunityVersion QueuedEntry)
open Invocation (Lease ReleaseReason TransitionStatus)

/-! ## The ports -/

/-- The ledger answers, or raises an `InvocationError`. -/
def OnlyInvocation {α : Type} (answer : Except Raised α) : Prop :=
  ∀ raised, answer = .error raised → ∃ code, raised = .invocation code

/-- What the ports promise: an aware time, and no error of the ledger but its own. -/
structure Ports.Kept {R F : Type} (ports : Ports R F) : Prop where
  clock : ports.current ≠ none
  claim : ∀ identity model seconds, OnlyInvocation (ports.claim identity model seconds)
  complete : ∀ lease, OnlyInvocation (ports.complete lease)
  recordAttempt : ∀ lease, OnlyInvocation (ports.recordAttempt lease)
  release : ∀ lease reason, OnlyInvocation (ports.release lease reason)

section Steps

variable {R F : Type} {settings : Settings F} {sink : Sink R} {ports : Ports R F}
  {state : State R F} {flight : Flight R F}

/-! ## Fields that nothing here is about -/

/-- The scheduler, the versions, the batches and the journal are as they were. -/
structure Untouched (state after : State R F) : Prop where
  scheduler : after.scheduler = state.scheduler
  versions : after.versions = state.versions
  pending : after.pending = state.pending
  pendingFail : after.pendingFail = state.pendingFail
  journal : after.journal = state.journal

theorem Untouched.owing {after : State R F} {out : List Scheduler.Transition}
    (untouched : Untouched state after) (owing : Owing settings state out) :
    Owing settings after out := by
  obtain ⟨scheduler, versions, pending, _, journal⟩ := untouched
  refine ⟨?_, ?_, ?_, ?_, ?_, ?_⟩
  · rw [scheduler, journal]
    exact owing.recorded
  · rw [scheduler, versions]
    exact owing.versions
  · rw [scheduler]
    exact owing.timed
  · rw [scheduler, journal]
    exact owing.opened
  · rw [pending, journal]
    exact owing.balanced
  · rw [journal]
    exact owing.justified

theorem Untouched.onward {after : State R F} (untouched : Untouched state after) :
    Onward state after := by
  refine ⟨by rw [untouched.scheduler], untouched.pendingFail, [],
    by rw [untouched.journal, List.append_nil], fun itemId runs => ⟨?_, rfl⟩⟩
  rw [untouched.scheduler] at runs
  exact runs

/-! ## The next phase -/

/-- The next phase of a flight shows no more of a lease than this one. -/
theorem Underway.next (underway : Underway settings state flight) {after : State R F}
    (onward : Onward state after) {phase : Phase R F}
    (lease : ∀ pair, phase.lease = some pair → flight.phase.lease = some pair) :
    Underway settings after { flight with phase := phase } := by
  obtain ⟨free, slot, before, reading, result, during, split, isDispatched, states, leased⟩ :=
    underway.onward onward
  exact ⟨free, slot, before, reading, result, during, split, isDispatched, states,
    fun given applied isLease => leased given applied (lease _ isLease)⟩

/-- A step of the ledger that the next phase shows. -/
theorem Underway.shown (underway : Underway settings state flight) {event : Event R}
    (answer : event.isAnswer = true) {phase : Phase R F}
    (shows : ∀ during lease applied, phase.lease = some (lease, applied) →
      (∀ given was, flight.phase.lease = some (given, was) → ∃ seconds usage, List.Sublist
        (fence flight.version.identity settings.profile.model seconds given usage was) during) →
      ∃ seconds usage, List.Sublist
        (fence flight.version.identity settings.profile.model seconds lease usage applied)
          (during ++ [event])) :
    Underway settings { state with journal := state.journal ++ [event] }
      { flight with phase := phase } := by
  obtain ⟨free, slot, before, reading, result, during, split, isDispatched, states, leased⟩ := underway
  refine ⟨free, slot, before, reading, result, during ++ [event], ?_, isDispatched, fun runs => ?_,
    fun lease applied isLease => shows during lease applied isLease leased⟩
  · change state.journal ++ [event] = _
    rw [split, List.append_assoc, List.cons_append]
  · rw [recordsOf_append, recordsOf_answer answer, List.append_nil]
    exact states runs

def Follows (settings : Settings F) (ports : Ports R F) (flight : Flight R F) (turn : Turn R F)
    (after : State R F) : Prop :=
  Owing settings after [] ∧
    match turn with
    | .on phase => Underway settings after { flight with phase := phase }
    | .done _ => Retry after ∧ (ports.Kept → Held after)

theorem retry_of_free {after : State R F} (free : after.pendingFail = none) : Retry after := by
  intro itemId isLater
  rw [free] at isLater
  cases isLater

theorem held_of_free {after : State R F} (free : after.scheduler.slot = none) : Held after := by
  intro entry isHeld
  rw [show after.scheduler.slot = some entry from isHeld] at free
  cases free

/-- The flight goes on with its lease. -/
theorem Underway.follows_on (underway : Underway settings state flight) {after : State R F}
    (owing : Owing settings after []) (onward : Onward state after) {phase : Phase R F}
    (same : flight.phase.lease = phase.lease) : Follows settings ports flight (.on phase) after :=
  ⟨owing, underway.next onward fun _ isLease => same.trans isLease⟩

/-- The flight goes on to its end. -/
theorem Underway.follows_off (underway : Underway settings state flight) {after : State R F}
    (owing : Owing settings after []) (onward : Onward state after) {phase : Phase R F}
    (ending : phase.lease = none) : Follows settings ports flight (.on phase) after := by
  refine ⟨owing, underway.next onward fun _ isLease => ?_⟩
  rw [ending] at isLease
  cases isLease

/-- The flight ends where the ports broke their promise. -/
theorem Underway.follows_broken (underway : Underway settings state flight) {after : State R F}
    (owing : Owing settings after []) (onward : Onward state after)
    {finish : Except Raised WorkReport} (broken : ¬ ports.Kept) :
    Follows settings ports flight (.done finish) after :=
  ⟨owing, retry_of_free (onward.pendingFail.trans underway.free), fun kept => absurd kept broken⟩

/-- A failed call of the scheduler leaves the item for later. -/
theorem Underway.follows_later {after : State R F} {finish : Except Raised WorkReport}
    (underway : Underway settings state flight) (kept : Owing settings after [])
    (later : after.pendingFail = some flight.itemId)
    (slot : after.scheduler.slot = state.scheduler.slot) :
    Follows settings ports flight (.done finish) after := by
  obtain ⟨entry, isEntry, sameId, _⟩ := underway.slot
  refine ⟨kept, fun itemId isLater => ?_, fun _ found isHeld => ?_⟩
  · rw [later] at isLater
    cases isLater
    rw [slot, isEntry, Option.map_some, sameId]
  · rw [slot, isEntry] at isHeld
    cases isHeld
    rw [later, sameId]

variable (owing : Owing settings state []) (underway : Underway settings state flight)
include owing underway

theorem ends_claimItem : Ends (claimItem settings ports flight) state
    (Follows settings ports flight) := by
  unfold claimItem
  cases clock : ports.current with
  | none =>
      exact ends_pure.mpr (underway.follows_broken owing (.refl state) fun kept => kept.clock clock)
  | some now =>
      dsimp only
      refine (ends_note owing rfl).bind fun _ after noted => ?_
      obtain ⟨kept, rfl⟩ := noted
      split
      next lease usage answer =>
        refine ends_pure.mpr ⟨kept, underway.shown rfl fun during given applied isLease _ => ?_⟩
        cases isLease
        rw [answer]
        exact ⟨_, usage, List.sublist_append_right _ _⟩
      next => exact ends_pure.mpr (underway.follows_off kept (onward_answer state rfl) rfl)
      next => exact ends_pure.mpr (underway.follows_off kept (onward_answer state rfl) rfl)
      next => exact ends_pure.mpr (underway.follows_off kept (onward_answer state rfl) rfl)
      next raised foreign answer =>
        refine ends_pure.mpr (underway.follows_broken kept (onward_answer state rfl)
          fun promised => ?_)
        obtain ⟨code, isCode⟩ := promised.claim _ _ _ raised answer
        exact foreign code isCode

theorem ends_prepareCall {lease : Lease} {attempts : Attempts}
    (isPhase : flight.phase = .looping lease attempts) :
    Ends (prepareCall settings ports flight lease attempts) state
      (Follows settings ports flight) := by
  refine ends_bind.mpr (ends_get.mpr ?_)
  split
  next => exact ends_pure.mpr (underway.follows_off owing (.refl state) rfl)
  next =>
    split
    next => exact ends_pure.mpr (underway.follows_off owing (.refl state) rfl)
    next =>
      split
      next => exact ends_pure.mpr (underway.follows_off owing (.refl state) rfl)
      next => exact ends_pure.mpr (underway.follows_on owing (.refl state) (by rw [isPhase]; rfl))

theorem ends_authorizeCall {lease : Lease} {attempts : Attempts} {prepared : PreparedPrompt F}
    (isPhase : flight.phase = .authorizing lease attempts prepared) :
    Ends (authorizeCall settings sink ports flight lease attempts prepared) state
      (Follows settings ports flight) := by
  have consistent := owing.recorded.consistent
  refine (ends_schedule _ _ (Scheduler.settles_authorizeCall_told consistent ports.reading _ _ _
    _)).bind fun decision middle scheduled => ?_
  cases decision with
  | none =>
      obtain ⟨failure, rfl⟩ := scheduled
      exact ends_pure.mpr (underway.follows_off (owing.answer rfl) (onward_answer state rfl) rfl)
  | some decision =>
      obtain ⟨scheduler, ⟨told, slot⟩, rfl⟩ := scheduled
      refine (ends_emitRecords sink (owing.told told rfl)).bind fun _ last emitted => ?_
      obtain ⟨paid, logged⟩ := emitted
      have onward : Onward state last := logged.onward_scheduled rfl slot fun itemId runs =>
        told.toRecorded.runs consistent slot (fun _ _ => told.opened _) runs
      split
      next => exact ends_pure.mpr (underway.follows_on paid onward (by rw [isPhase]; rfl))
      next => exact ends_pure.mpr (underway.follows_off paid onward rfl)

theorem ends_recordAttempt {lease : Lease} {attempts : Attempts} {prepared : PreparedPrompt F}
    {callDeadline : Moment} (isPhase : flight.phase = .recording lease attempts prepared callDeadline)
    [PyFloat F] :
    Ends (recordAttempt settings ports flight lease attempts prepared callDeadline) state
      (Follows settings ports flight) := by
  refine (ends_note owing rfl).bind fun _ after noted => ?_
  obtain ⟨kept, rfl⟩ := noted
  have onward : Onward state
      { state with journal := state.journal ++ [.attempted lease (ports.recordAttempt lease)] } :=
    onward_answer state rfl
  split
  next => exact ends_pure.mpr (underway.follows_off kept onward rfl)
  next =>
    split
    next => exact ends_pure.mpr (underway.follows_off kept onward rfl)
    next =>
      split
      next => exact ends_pure.mpr (underway.follows_off kept onward rfl)
      next =>
        dsimp only
        split
        next => exact ends_pure.mpr (underway.follows_off kept onward rfl)
        next =>
          refine ends_bind.mpr (ends_get.mpr (ends_bind.mpr (ends_set.mpr (ends_pure.mpr ?_))))
          have untouched := fun calls active => (⟨rfl, rfl, rfl, rfl, rfl⟩ : Untouched
            { state with journal := state.journal ++ [.attempted lease (ports.recordAttempt lease)] }
            { state with
              calls := calls
              active := active
              journal := state.journal ++ [.attempted lease (ports.recordAttempt lease)] })
          exact underway.follows_on ((untouched _ _).owing kept)
            (onward.trans (untouched _ _).onward) (by rw [isPhase]; rfl)

theorem ends_endCall {lease : Lease} {attempts : Attempts} {callDeadline : Moment}
    {call : InferenceCall F} {active : Nat}
    (isPhase : flight.phase = .inferring lease attempts callDeadline call active) :
    Ends (endCall ports flight lease attempts callDeadline call active) state
      (Follows settings ports flight) := by
  refine ends_bind.mpr (ends_get.mpr (ends_bind.mpr (ends_set.mpr ?_)))
  have untouched : Untouched state { state with active := none } := ⟨rfl, rfl, rfl, rfl, rfl⟩
  split
  next => exact ends_pure.mpr (underway.follows_off (untouched.owing owing) untouched.onward rfl)
  next =>
    exact ends_pure.mpr (underway.follows_on (untouched.owing owing) untouched.onward
      (by rw [isPhase]; rfl))

omit owing underway in
theorem ends_recordFailure [PyFloat F] :
    Ends (recordFailure settings ports) state fun _ after => Untouched state after :=
  ends_bind.mpr (ends_get.mpr (ends_bind.mpr (ends_set.mpr (ends_pure.mpr ⟨rfl, rfl, rfl, rfl, rfl⟩))))

theorem ends_endAttempt [PyFloat F] {lease : Lease} {attempts : Attempts}
    (failure : InferenceFailure) (isLease : flight.phase.lease = some (lease, false)) :
    Ends (endAttempt settings ports lease attempts failure) state
      (Follows settings ports flight) := by
  refine ends_recordFailure.bind fun disabled after untouched => ?_
  have kept := untouched.owing owing
  dsimp only
  split
  next => exact ends_pure.mpr (underway.follows_on kept untouched.onward isLease)
  next => exact ends_pure.mpr (underway.follows_off kept untouched.onward rfl)

theorem ends_judgeCall [PyFloat F] {lease : Lease} {attempts : Attempts} {callDeadline : Moment}
    {call : InferenceCall F} {active : Nat} {result : InferenceResult F} {restart : Bool}
    (isPhase : flight.phase = .judging lease attempts callDeadline call active result restart) :
    Ends (judgeCall settings ports flight lease attempts callDeadline call active result restart)
      state (Follows settings ports flight) := by
  have isLease : flight.phase.lease = some (lease, false) := by
    rw [isPhase]
    rfl
  refine ends_bind.mpr (ends_get.mpr ?_)
  dsimp only
  split
  next =>
    refine ends_recordFailure.bind fun disabled after untouched => ends_pure.mpr ?_
    exact underway.follows_off (untouched.owing owing) untouched.onward rfl
  next =>
    split
    next => exact ends_pure.mpr (underway.follows_off owing (.refl state) rfl)
    next =>
      split
      next => exact ends_pure.mpr (underway.follows_off owing (.refl state) rfl)
      next => exact ends_pure.mpr (underway.follows_on owing (.refl state) isLease)
      next failure _ => exact ends_endAttempt owing underway failure isLease

theorem follows_conclude {lease : Lease} {attempts : Attempts} {attempted : Attempted} :
    Follows settings ports flight (conclude ports flight lease attempts attempted) state := by
  unfold conclude
  dsimp only
  split
  next =>
    split
    next absent =>
      exact underway.follows_broken owing (.refl state) fun kept => kept.clock absent
    next => exact underway.follows_off owing (.refl state) rfl
  next => exact underway.follows_off owing (.refl state) rfl

theorem ends_releaseLease {lease : Lease} {reason : ReleaseReason} {next : Phase R F}
    (ending : next.lease = none) :
    Ends (releaseLease ports lease reason next) state (Follows settings ports flight) := by
  refine (ends_note owing rfl).bind fun _ after noted => ?_
  obtain ⟨kept, rfl⟩ := noted
  have onward : Onward state { state with
      journal := state.journal ++ [.released lease reason (ports.release lease reason)] } :=
    onward_answer state rfl
  split
  next => exact ends_pure.mpr (underway.follows_off kept onward ending)
  next => exact ends_pure.mpr (underway.follows_off kept onward ending)
  next raised foreign answer =>
    refine ends_pure.mpr (underway.follows_broken kept onward fun promised => ?_)
    obtain ⟨code, isCode⟩ := promised.release _ _ raised answer
    exact foreign code isCode

theorem ends_failItem {finish : Except Raised WorkReport} :
    Ends (failItem settings sink ports flight finish) state (Follows settings ports flight) := by
  refine (ends_failItemLocked owing ports.reading flight.itemId).bind fun final after failed =>
    ends_pure.mpr ?_
  obtain ⟨kept, outcome⟩ := failed
  cases final with
  | none => exact underway.follows_later kept outcome.1 outcome.2
  | some final =>
      exact ⟨kept, retry_of_free (outcome.1.trans underway.free), fun _ => held_of_free outcome.2⟩

theorem follows_commit {lease : Lease} {value : R} {attempts : Attempts}
    (isPhase : flight.phase = .committing lease value attempts) :
    Follows settings ports flight (commit ports flight lease value attempts) state := by
  unfold commit
  split
  next absent => exact underway.follows_broken owing (.refl state) fun kept => kept.clock absent
  next =>
    split
    next => exact underway.follows_off owing (.refl state) rfl
    next => exact underway.follows_on owing (.refl state) (by rw [isPhase]; rfl)

theorem ends_completeLease {lease : Lease} {value : R} {attempts : Attempts}
    (isPhase : flight.phase = .completing lease value attempts) :
    Ends (completeLease ports flight lease value attempts) state
      (Follows settings ports flight) := by
  refine (ends_note owing rfl).bind fun _ after noted => ?_
  obtain ⟨kept, rfl⟩ := noted
  have onward : Onward state { state with
      journal := state.journal ++ [.completed lease (ports.complete lease)] } :=
    onward_answer state rfl
  split
  next answer =>
    refine ends_pure.mpr ⟨kept, underway.shown rfl fun during given applied isLease leased => ?_⟩
    cases isLease
    obtain ⟨seconds, usage, evidence⟩ := leased lease false (by rw [isPhase]; rfl)
    rw [answer]
    exact ⟨seconds, usage, evidence.append (List.Sublist.refl _)⟩
  next => exact ends_pure.mpr (underway.follows_off kept onward rfl)
  next => exact ends_pure.mpr (underway.follows_off kept onward rfl)
  next raised foreign answer =>
    refine ends_pure.mpr (underway.follows_broken kept onward fun promised => ?_)
    obtain ⟨code, isCode⟩ := promised.complete _ raised answer
    exact foreign code isCode

/-! ## The end -/

omit owing in
/-- A call of the scheduler that freed the slot ends the flight. -/
theorem Underway.follows_freed {scheduler : Scheduler.State} {event : Event R} {last : State R F}
    {out : List Scheduler.Transition} {finish : Except Raised WorkReport}
    (free : scheduler.running = none) (paid : Owing settings last [])
    (logged : Logged { state with
      scheduler := scheduler
      journal := state.journal ++ [event] } last out) :
    Follows settings ports flight (.done finish) last := by
  refine ⟨paid, retry_of_free (logged.pendingFail.trans underway.free), fun _ => held_of_free ?_⟩
  rw [logged.scheduler]
  simp [Scheduler.State.slot, free]

theorem ends_completeLate {lease : Lease} {attempts : Attempts} :
    Ends (completeLate settings sink ports flight lease attempts) state
      (Follows settings ports flight) := by
  refine (ends_schedule _ _ (Scheduler.settles_complete_told owing.recorded.consistent
    ports.reading flight.itemId)).bind fun late middle scheduled => ?_
  cases late with
  | none =>
      obtain ⟨failure, rfl⟩ := scheduled
      have logged : Owing settings { state with journal :=
          state.journal ++ [.scheduled (.complete ports.reading flight.itemId) (.error failure)] }
          [] :=
        owing.answer rfl
      refine ends_bind.mpr (ends_bind.mpr (ends_get.mpr (ends_set.mpr (ends_pure.mpr ?_))))
      exact underway.follows_later (logged.withPendingFail _) rfl rfl
  | some late =>
      obtain ⟨scheduler, ⟨told, frees⟩, rfl⟩ := scheduled
      refine (ends_emitRecords sink (owing.told told rfl)).bind fun _ last emitted =>
        ends_pure.mpr ?_
      exact underway.follows_freed frees.free emitted.1 emitted.2

/-- What the completion of a flight publishes is justified: the flight shows the dispatch, the
claim and the fence, the scheduler the life and the deadline. -/
theorem publishes {lease : Lease} {value : R} {attempts : Attempts}
    (isPhase : flight.phase = .publishing lease value attempts)
    {completion : Scheduler.CompletionResult} {after : Scheduler.State}
    (frees : Scheduler.Frees ports.reading flight.itemId state.scheduler completion after)
    (publishable : completion.publishable = true) :
    ∃ now, Publishes settings
      (state.journal ++ [.scheduled (.complete ports.reading flight.itemId)
        (.ok (.completion completion))])
      completion.transitions
      ⟨flight.itemId, lease.invocationId, settings.profile.profileId, settings.profile.model, value⟩
      flight.version lease now := by
  have consistent := owing.recorded.consistent
  obtain ⟨completed, now, entry, isReading, isOpen, inTime⟩ := frees.timely publishable
  obtain ⟨slotted, isSlot, slotId, slotVersion, _⟩ := underway.slot
  obtain ⟨running, held, rfl⟩ := Option.map_eq_some_iff.mp isSlot
  -- The open item is the one in the slot.
  have isRunning := consistent.openEntry_of_running held
  rw [slotId, isOpen] at isRunning
  have active : running.aborted = false := by
    cases aborted : running.aborted with
    | true => simp [aborted] at isRunning
    | false => rfl
  rw [active, if_neg (by decide), Option.some.injEq] at isRunning
  subst isRunning
  have states := consistent.openStates_of_running held active
  rw [slotId] at states
  have isAnswer : (Event.scheduled (R := R) (.complete ports.reading flight.itemId)
      (.ok (.completion completion))).isAnswer = true := rfl
  have opened := (owing.answer isAnswer).opened flight.itemId _ isOpen
  have inDeadline := owing.timed flight.itemId _ isOpen
  rw [slotVersion] at opened inDeadline
  rw [states] at opened
  obtain ⟨before, reading, result, during, split, isDispatched, ran, leased⟩ := underway.since
  obtain ⟨seconds, usage, evidence⟩ := leased lease true (by rw [isPhase]; rfl)
  refine ⟨now, opened, ?_, ?_, completed, ?_, rfl, rfl, rfl⟩
  · refine ⟨before, reading, result, during ++ [.scheduled (.complete (some now) flight.itemId)
      (.ok (.completion completion))], flight.dispatched, seconds, usage, completion, ?_,
      isDispatched, rfl, ?_, evidence.append (List.Sublist.refl _), publishable, rfl⟩
    · rw [split, isReading, List.append_assoc, List.cons_append]
    · have noRecord : recordsOf [Event.scheduled (R := R) (.complete (some now) flight.itemId)
          (.ok (.completion completion))] = [] := rfl
      rw [recordsOf_append, noRecord, List.append_nil]
      exact ran (Scheduler.State.runs_iff.mpr ⟨running, held, slotId, active⟩)
  · rw [← inDeadline]
    exact inTime
  · rw [← slotVersion]
    exact slotId.symm

theorem ends_publish {lease : Lease} {value : R} {attempts : Attempts}
    (isPhase : flight.phase = .publishing lease value attempts) :
    Ends (publish settings sink ports flight lease value attempts) state
      (Follows settings ports flight) := by
  refine (ends_schedule _ _ (Scheduler.settles_complete_told owing.recorded.consistent
    ports.reading flight.itemId)).bind fun completion middle scheduled => ?_
  cases completion with
  | none =>
      obtain ⟨failure, rfl⟩ := scheduled
      have logged : Owing settings { state with journal :=
          state.journal ++ [.scheduled (.complete ports.reading flight.itemId) (.error failure)] }
          [] :=
        owing.answer rfl
      refine ends_bind.mpr (ends_bind.mpr (ends_get.mpr (ends_set.mpr (ends_pure.mpr ?_))))
      exact underway.follows_later (logged.withPendingFail _) rfl rfl
  | some completion =>
      obtain ⟨scheduler, ⟨told, frees⟩, rfl⟩ := scheduled
      refine (ends_emitLocked sink (owing.told told rfl) ?_).bind fun _ last emitted =>
        ends_pure.mpr (underway.follows_freed frees.free emitted.1 emitted.2)
      cases publishable : completion.publishable with
      | false => trivial
      | true =>
          obtain ⟨now, justified⟩ := publishes owing underway isPhase frees publishable
          exact ⟨flight.version, lease, now, justified⟩

/-- One step of a flight. -/
theorem ends_advance [PyFloat F] :
    Ends (advance settings sink ports flight) state (Follows settings ports flight) := by
  unfold advance
  cases isPhase : flight.phase with
  | claiming => exact ends_claimItem owing underway
  | looping lease attempts => exact ends_prepareCall owing underway isPhase
  | authorizing lease attempts prepared => exact ends_authorizeCall owing underway isPhase
  | recording lease attempts prepared callDeadline =>
      exact ends_recordAttempt owing underway isPhase
  | inferring lease attempts callDeadline call active => exact ends_endCall owing underway isPhase
  | judging lease attempts callDeadline call active result restart =>
      exact ends_judgeCall owing underway isPhase
  | concluding lease attempts attempted => exact ends_pure.mpr (follows_conclude owing underway)
  | abandoning lease reason finish => exact ends_releaseLease owing underway rfl
  | failing finish => exact ends_failItem owing underway
  | committing lease value attempts => exact ends_pure.mpr (follows_commit owing underway isPhase)
  | expiring lease attempts => exact ends_releaseLease owing underway rfl
  | lateCompleting lease attempts => exact ends_completeLate owing underway
  | completing lease value attempts => exact ends_completeLease owing underway isPhase
  | publishing lease value attempts => exact ends_publish owing underway isPhase

end Steps

end CryptoRadar.Worker
