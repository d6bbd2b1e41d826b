import CryptoRadar.Worker.Journal

/-!
# The locked sections of the worker

Every locked section is a call of the scheduler followed by the emission of its records. The call
leaves the records owed (`ends_schedule` with `Owing.told`), the emission pays them
(`ends_emitLocked`), and what holds between the sections is `Owing` with nothing owed.
-/

set_option autoImplicit false

namespace CryptoRadar.Worker

open Program
open Scheduler (closes statesOf Recorded Told Opens OpportunityVersion QueuedEntry IsRefusal)

section Sections

variable {R F : Type} {settings : Settings F}

/-! ## Emission -/

/-- A section that only adds to the journal, and its emitted records. -/
structure Logged (state after : State R F) (out : List Scheduler.Transition) : Prop where
  scheduler : after.scheduler = state.scheduler
  pendingFail : after.pendingFail = state.pendingFail
  journal : ∃ more, after.journal = state.journal ++ more ∧ recordsOf more = out

theorem Logged.refl (state : State R F) : Logged state state [] :=
  ⟨rfl, rfl, [], by simp, rfl⟩

theorem Logged.trans {first second third : State R F} {out more : List Scheduler.Transition}
    (earlier : Logged first second out) (later : Logged second third more) :
    Logged first third (out ++ more) := by
  obtain ⟨written, isWritten, rfl⟩ := earlier.journal
  obtain ⟨rest, isRest, rfl⟩ := later.journal
  exact ⟨later.scheduler.trans earlier.scheduler, later.pendingFail.trans earlier.pendingFail,
    written ++ rest, by rw [isRest, isWritten, List.append_assoc], recordsOf_append _ _⟩

theorem Logged.onward {state after : State R F} (logged : Logged state after []) :
    Onward state after := by
  obtain ⟨more, isMore, none⟩ := logged.journal
  refine ⟨by rw [logged.scheduler], logged.pendingFail, more, isMore, fun itemId runs => ?_⟩
  rw [logged.scheduler] at runs
  exact ⟨runs, by rw [none]; rfl⟩

/-- An event that is no emission, with the batches that it leaves for the sink. -/
theorem Owing.log {state : State R F} {out : List Scheduler.Transition} {event : Event R}
    {pending : List (Batch R)} (owing : Owing settings state out) (emission : event.emission = none)
    (left : acceptedBatches [event] ++ pending = state.pending)
    (fits : event.Fits settings state.journal) :
    Owing settings { state with pending := pending, journal := state.journal ++ [event] } out := by
  have noEmission : emittedBatches [event] = [] := by simp [emittedBatches, emission]
  have noRecord : recordsOf [event] = [] := by simp [recordsOf, noEmission]
  refine ⟨?_, owing.versions, owing.timed, fun itemId entry isOpen => ?_, ?_,
    owing.justified.concat fits⟩
  · rw [recordsOf_append, noRecord, List.append_nil]
    exact owing.recorded
  · obtain ⟨earlier, reading, result, later, split, admitted, states⟩ :=
      owing.opened itemId entry isOpen
    refine ⟨earlier, reading, result, later ++ [event], ?_, admitted, ?_⟩
    · rw [split, List.append_assoc, List.cons_append]
    · rw [recordsOf_append, noRecord, List.append_nil]
      exact states
  · rw [acceptedBatches_append, emittedBatches_append, noEmission, List.append_nil,
      List.append_assoc, left]
    exact owing.balanced

/-- An event of the ledger or of the scheduler. -/
def Event.isAnswer : Event R → Bool
  | .emitted _ => false
  | .recorded _ _ => false
  | _ => true

theorem recordsOf_answer {event : Event R} (answer : event.isAnswer = true) :
    recordsOf [event] = [] := by
  cases event <;> first | rfl | cases answer

theorem Owing.answer {state : State R F} {out : List Scheduler.Transition} {event : Event R}
    (owing : Owing settings state out) (answer : event.isAnswer = true) :
    Owing settings { state with journal := state.journal ++ [event] } out := by
  refine owing.log ?_ ?_ ?_
  all_goals cases event <;> first | rfl | trivial

theorem Owing.withPendingFail {state : State R F} {out : List Scheduler.Transition}
    (owing : Owing settings state out) (pendingFail : Option String) :
    Owing settings { state with pendingFail := pendingFail } out :=
  ⟨owing.recorded, owing.versions, owing.timed, owing.opened, owing.balanced, owing.justified⟩

theorem ends_note {state : State R F} {out : List Scheduler.Transition} {event : Event R}
    (owing : Owing settings state out) (answer : event.isAnswer = true) :
    Ends (note event) state fun _ after => Owing settings after out ∧
      after = { state with journal := state.journal ++ [event] } :=
  ends_bind.mpr (ends_get.mpr (ends_set.mpr ⟨owing.answer answer, rfl⟩))

theorem mem_emittedBatches {journal : List (Event R)} {batch : Batch R} :
    batch ∈ emittedBatches journal ↔ Event.emitted batch ∈ journal := by
  unfold emittedBatches
  rw [List.mem_filterMap]
  constructor
  · rintro ⟨event, member, isEmission⟩
    cases event <;> simp_all [Event.emission]
  · intro member
    exact ⟨_, member, rfl⟩

/-- The sink takes the batches in order, up to the first it does not write. -/
theorem ends_flushFrom (sink : Sink R) {out : List Scheduler.Transition} :
    ∀ (pending : List (Batch R)) (state : State R F), state.pending = pending →
      Owing settings state out → Ends (flushFrom sink pending) state fun _ after =>
        Owing settings after out ∧ Logged state after []
  | [], state, _, owing => ends_pure.mpr ⟨owing, .refl state⟩
  | batch :: rest, state, isPending, owing => by
      have isEmitted : Event.emitted batch ∈ state.journal := by
        rw [← mem_emittedBatches, ← owing.balanced, isPending]
        simp
      refine ends_bind.mpr (ends_get.mpr ?_)
      dsimp only
      refine ends_bind.mpr (ends_bind.mpr (ends_get.mpr (ends_set.mpr ?_)))
      split
      next accepted =>
        refine ends_bind.mpr (ends_get.mpr (ends_bind.mpr (ends_set.mpr ?_)))
        have kept : Owing settings { state with
            pending := rest
            journal := state.journal ++ [.recorded batch true] } out :=
          owing.log rfl isPending.symm isEmitted
        rw [accepted]
        refine (ends_flushFrom sink rest _ rfl kept).mono fun _ after flushed => ⟨flushed.1, ?_⟩
        have written : Logged state { state with
            pending := rest
            journal := state.journal ++ [.recorded batch true] } [] := ⟨rfl, rfl, _, rfl, rfl⟩
        exact written.trans flushed.2
      next refused =>
        have isRefused : sink state.journal batch = false := by simpa using refused
        rw [isRefused]
        exact ends_pure.mpr ⟨owing.log rfl rfl isEmitted, rfl, rfl, _, rfl, rfl⟩

theorem ends_flushLocked (sink : Sink R) {state : State R F} {out : List Scheduler.Transition}
    (owing : Owing settings state out) : Ends (flushLocked sink) state fun _ after =>
      Owing settings after out ∧ Logged state after [] :=
  ends_bind.mpr (ends_get.mpr (ends_flushFrom sink state.pending state rfl owing))

/-- The versions that are left are those of the items that no record ends. -/
theorem get?_dropEnded (versions : Dict String OpportunityVersion) (itemId : String) :
    ∀ transitions : List Scheduler.Transition, (dropEnded versions transitions).get? itemId =
      if closes transitions itemId then none else versions.get? itemId := by
  intro transitions
  induction transitions generalizing versions with
  | nil => rfl
  | cons transition rest hyp =>
      have split : closes (transition :: rest) itemId =
          (closes [transition] itemId || closes rest itemId) :=
        Scheduler.closes_append [transition] rest itemId
      rw [split, Scheduler.closes_singleton]
      change (dropEnded _ rest).get? itemId = _
      rw [hyp]
      dsimp only
      cases transition.state.isTerminal with
      | false => simp
      | true =>
          rw [if_pos rfl, Dict.get?_erase]
          by_cases same : transition.itemId = itemId
          · simp [same]
          · simp [same, Ne.symm same]

/-- The emission of the records that are owed. -/
theorem ends_emitLocked (sink : Sink R) {state : State R F} {out : List Scheduler.Transition}
    {publication : Option (Publication R)} (owing : Owing settings state out)
    (fits : Event.Fits settings state.journal (.emitted ⟨out, publication⟩)) :
    Ends (emitLocked sink out publication) state fun _ after =>
      Owing settings after [] ∧ Logged state after out := by
  unfold emitLocked
  dsimp only
  split
  next =>
    refine ends_bind.mpr (ends_get.mpr (ends_bind.mpr (ends_set.mpr ?_)))
    have paid : Owing settings { state with
        pending := state.pending ++ [⟨out, publication⟩]
        versions := dropEnded state.versions out
        journal := state.journal ++ [.emitted ⟨out, publication⟩] } [] := by
      refine ⟨?_, fun itemId => ?_, owing.timed, fun itemId entry isOpen => ?_, ?_,
        owing.justified.concat fits⟩
      · rw [recordsOf_append, recordsOf_emitted, List.append_nil]
        exact owing.recorded
      · rw [Scheduler.closes_nil, get?_dropEnded]
        exact owing.versions itemId
      · obtain ⟨earlier, reading, result, later, split, admitted, states⟩ :=
          owing.opened itemId entry isOpen
        refine ⟨earlier, reading, result, later ++ [.emitted ⟨out, publication⟩], ?_, admitted, ?_⟩
        · rw [split, List.append_assoc, List.cons_append]
        · rw [recordsOf_append, recordsOf_emitted, List.append_nil]
          exact states
      · have unaccepted : acceptedBatches [Event.emitted ⟨out, publication⟩] = [] := rfl
        have emitted : emittedBatches [Event.emitted ⟨out, publication⟩] = [⟨out, publication⟩] := rfl
        rw [acceptedBatches_append, emittedBatches_append, unaccepted, emitted, List.append_nil,
          ← List.append_assoc, owing.balanced]
    refine (ends_flushLocked sink paid).mono fun _ after flushed => ⟨flushed.1, ?_⟩
    have written : Logged state { state with
        pending := state.pending ++ [⟨out, publication⟩]
        versions := dropEnded state.versions out
        journal := state.journal ++ [.emitted ⟨out, publication⟩] } out :=
      ⟨rfl, rfl, _, rfl, recordsOf_emitted _⟩
    have whole := written.trans flushed.2
    rwa [List.append_nil] at whole
  next nothing =>
    have empty : out = [] := by
      simp only [Bool.or_eq_true, not_or, Bool.not_eq_true'] at nothing
      simpa using nothing.1
    subst empty
    exact ends_flushLocked sink owing

theorem ends_emitRecords (sink : Sink R) {state : State R F} {out : List Scheduler.Transition}
    (owing : Owing settings state out) :
    Ends (emitLocked sink out none) state fun _ after =>
      Owing settings after [] ∧ Logged state after out :=
  ends_emitLocked sink owing trivial

/-! ## Calls of the scheduler -/

/-- An item that stays open is in the life that began for it. -/
theorem Owing.opened_later {state : State R F} {after : Scheduler.State}
    {out : List Scheduler.Transition} {event : Event R} (owing : Owing settings state [])
    (recorded : Recorded state.scheduler out after) (answer : event.isAnswer = true)
    {itemId : String} {entry : QueuedEntry} (unclosed : closes out itemId = false)
    (isOpen : state.scheduler.openEntry itemId = some entry) :
    Opened (state.journal ++ [event]) entry.version out (after.openStates itemId) := by
  have sameId : entry.version.itemId = itemId :=
    owing.recorded.consistent.itemId_of_openEntry isOpen
  obtain ⟨earlier, reading, result, later, split, admitted, states⟩ :=
    (owing.answer answer).opened itemId entry isOpen
  refine ⟨earlier, reading, result, later, split, admitted, ?_⟩
  have nothing := (recorded.follows itemId).eq_of_open fun last member =>
    (List.mem_append.mp member).elim (state.scheduler.openStates_unended itemId last)
      (Scheduler.closes_eq_false_iff.mp unclosed last)
  rw [List.append_nil] at states
  rw [Scheduler.statesOf_append, states, sameId]
  exact nothing

theorem Owing.recorded_later {state : State R F} {after : Scheduler.State}
    {out : List Scheduler.Transition} {event : Event R} (owing : Owing settings state [])
    (recorded : Recorded state.scheduler out after) (answer : event.isAnswer = true) :
    Recorded .initial (recordsOf (state.journal ++ [event]) ++ out) after := by
  have logged := (owing.answer answer).recorded
  rw [List.append_nil] at logged
  exact logged.trans recorded

/-- Between the sections the versions are those of the open items. -/
theorem Owing.get?_versions {state : State R F} (owing : Owing settings state [])
    (itemId : String) :
    state.versions.get? itemId = (state.scheduler.openEntry itemId).map QueuedEntry.version := by
  have versions := owing.versions itemId
  rwa [Scheduler.closes_nil, if_neg (by decide)] at versions

/-- The records of a call of the scheduler are owed. -/
theorem Owing.told {state : State R F} {after : Scheduler.State} {out : List Scheduler.Transition}
    {event : Event R} (owing : Owing settings state []) (told : Told state.scheduler out after)
    (answer : event.isAnswer = true) :
    Owing settings { state with scheduler := after, journal := state.journal ++ [event] } out := by
  have logged := owing.answer answer
  refine ⟨owing.recorded_later told.toRecorded answer, fun itemId => ?_,
    fun itemId entry isOpen => ?_, fun itemId entry isOpen => ?_, logged.balanced,
    logged.justified⟩
  · rw [told.opened, owing.get?_versions]
    split <;> rfl
  all_goals
    rw [told.opened] at isOpen
    split at isOpen
  · cases isOpen
  · exact owing.timed itemId entry isOpen
  · cases isOpen
  next unclosed =>
    exact owing.opened_later told.toRecorded answer (by simpa using unclosed) isOpen

/-- A call inside `try: ... except SchedulerError`: it refuses and changes nothing, or it returns. -/
theorem ends_schedule {α : Type} {state : State R F} {operation : Scheduler.Op α}
    {post : α → Scheduler.State → Prop} (call : Scheduler.Call) (answer : α → Scheduler.Answer)
    (settles : Settles IsRefusal operation state.scheduler post) :
    Ends (schedule call operation answer) state fun result after =>
      match result with
      | none => ∃ failure, after =
          { state with journal := state.journal ++ [.scheduled call (.error failure)] }
      | some value => ∃ scheduler, post value scheduler ∧ after =
          { state with
            scheduler := scheduler
            journal := state.journal ++ [.scheduled call (.ok (answer value))] } := by
  refine ends_bind.mpr (ends_get.mpr ?_)
  rcases settles with ⟨failure, ⟨code, rfl⟩, ran⟩ | ⟨value, scheduler, ran, holds⟩
  · rw [ran]
    exact ends_bind.mpr (ends_set.mpr (ends_pure.mpr ⟨_, rfl⟩))
  · rw [ran]
    exact ends_bind.mpr (ends_set.mpr (ends_pure.mpr ⟨scheduler, holds, rfl⟩))

/-- A call that keeps the slot and makes no record of the item that runs on, and the emission of
its records. -/
theorem Logged.onward_scheduled {state last : State R F} {after : Scheduler.State}
    {out : List Scheduler.Transition} {event : Event R} (answer : event.isAnswer = true)
    (slot : after.slot = state.scheduler.slot)
    (quiet : ∀ itemId, after.runs itemId = true →
      state.scheduler.runs itemId = true ∧ statesOf itemId out = [])
    (logged : Logged { state with scheduler := after, journal := state.journal ++ [event] } last out) :
    Onward state last := by
  obtain ⟨more, isMore, isOut⟩ := logged.journal
  have noRecord := recordsOf_answer answer
  refine ⟨?_, logged.pendingFail, event :: more, ?_, fun itemId runs => ?_⟩
  · rw [logged.scheduler]
    exact slot
  · rw [isMore, List.append_assoc]
    rfl
  · rw [logged.scheduler] at runs
    rw [recordsOf_cons, noRecord, isOut]
    exact quiet itemId runs

/-- A refused call of the scheduler. -/
theorem onward_answer (state : State R F) {event : Event R} (answer : event.isAnswer = true) :
    Onward state { state with journal := state.journal ++ [event] } := by
  refine ⟨rfl, rfl, [event], rfl, fun itemId runs => ⟨runs, ?_⟩⟩
  have noRecord := recordsOf_answer answer
  rw [noRecord]
  rfl

/-! ## Admission -/

/-- The records of an admission are owed, and its version is kept when its item is open. -/
theorem Owing.admits {state : State R F} {after : Scheduler.State} {reading : Option Moment}
    {version : OpportunityVersion} {result : Scheduler.AdmissionResult}
    (owing : Owing settings state [])
    (admits : Scheduler.Admits settings.policy state.scheduler version result result.transitions
      after) :
    Owing settings { state with
      scheduler := after
      versions := if result.status = .admitted then state.versions.assign result.itemId version
        else state.versions
      journal := state.journal ++ [admission reading version result] } result.transitions := by
  have isAnswer : (admission reading version result : Event R).isAnswer = true := rfl
  obtain ⟨_, outcome⟩ := admits
  split at outcome
  next admitted =>
    rw [if_pos admitted]
    obtain ⟨sameId, opens⟩ := outcome
    obtain ⟨entry, rfl, deadline, opened⟩ := opens.opened
    have logged := owing.answer isAnswer
    refine ⟨owing.recorded_later opens.toRecorded isAnswer, fun itemId => ?_,
      fun itemId found isOpen => ?_, fun itemId found isOpen => ?_, logged.balanced,
      logged.justified⟩
    · rw [opened, Dict.get?_assign, owing.get?_versions, sameId]
      by_cases own : itemId = entry.version.itemId
      · subst own
        simp [opens.unended]
      · rw [if_neg (Ne.symm own), if_neg own]
        split <;> rfl
    all_goals
      rw [opened] at isOpen
      split at isOpen
    · cases isOpen
      exact deadline
    · split at isOpen
      · cases isOpen
      · exact owing.timed itemId found isOpen
    next own =>
      subst own
      cases isOpen
      have began := (opens.follows _).eq_of_open fun last member =>
        (List.mem_append.mp member).elim (state.scheduler.openStates_unended _ last)
          (Scheduler.closes_eq_false_iff.mp opens.unended last)
      rw [Scheduler.State.openStates_eq_nil_iff.mpr opens.closed, List.nil_append] at began
      exact ⟨state.journal, reading, result, [], rfl, admitted, began⟩
    · split at isOpen
      · cases isOpen
      next unclosed =>
        exact owing.opened_later opens.toRecorded isAnswer (by simpa using unclosed) isOpen
  next refused =>
    rw [if_neg refused]
    exact owing.told outcome isAnswer

theorem Onward.retry {state after : State R F} (onward : Onward state after) (retry : Retry state) :
    Retry after := by
  unfold Retry at retry ⊢
  rw [onward.slot, onward.pendingFail]
  exact retry

theorem Onward.held {state after : State R F} (onward : Onward state after) (held : Held state) :
    Held after := by
  unfold Held at held ⊢
  rw [onward.slot, onward.pendingFail]
  exact held

variable {sink : Sink R}

theorem ends_admitLocked {state : State R F} (owing : Owing settings state [])
    (reading : Option Moment) (version : OpportunityVersion) :
    Ends (admitLocked settings sink reading version) state fun _ after =>
      Owing settings after [] ∧ Onward state after := by
  have consistent := owing.recorded.consistent
  refine (ends_schedule _ _ (Scheduler.settles_admitVersion_told consistent reading version)).bind
    fun result middle scheduled => ?_
  cases result with
  | none =>
      obtain ⟨failure, rfl⟩ := scheduled
      exact ends_pure.mpr ⟨owing.answer rfl, onward_answer state rfl⟩
  | some result =>
      obtain ⟨scheduler, admits, rfl⟩ := scheduled
      have kept : Owing settings { state with
          scheduler := scheduler
          versions := if result.status = .admitted then state.versions.assign result.itemId version
            else state.versions
          journal := state.journal ++ [admission reading version result] } result.transitions :=
        owing.admits admits
      have emits := fun (last : State R F) (logged : Logged { state with
          scheduler := scheduler
          journal := state.journal ++ [admission reading version result] } last result.transitions) =>
        logged.onward_scheduled rfl admits.1 fun itemId runs => admits.runs consistent runs
      dsimp only
      split
      next admitted =>
        rw [if_pos admitted] at kept
        refine ends_bind.mpr (ends_get.mpr (ends_bind.mpr (ends_set.mpr ?_)))
        refine (ends_emitRecords sink kept).bind fun _ last emitted => ends_pure.mpr ?_
        exact ⟨emitted.1, emits last ⟨emitted.2.scheduler, emitted.2.pendingFail, emitted.2.journal⟩⟩
      next refused =>
        rw [if_neg refused] at kept
        refine (ends_emitRecords sink kept).bind fun _ last emitted => ends_pure.mpr ?_
        exact ⟨emitted.1, emits last emitted.2⟩

theorem ends_submit {state : State R F} (owing : Owing settings state []) (reading : Option Moment)
    (version : OpportunityVersion) :
    Ends (submit settings sink reading version) state fun _ after =>
      Owing settings after [] ∧ Onward state after := by
  refine ends_bind.mpr (ends_get.mpr ?_)
  split
  next => exact ends_pure.mpr ⟨owing, .refl state⟩
  next =>
    split
    next => exact ends_pure.mpr ⟨owing, .refl state⟩
    next =>
      split
      next => exact ends_pure.mpr ⟨owing, .refl state⟩
      next =>
        refine (ends_flushLocked sink owing).bind fun flushed middle kept => ?_
        cases flushed with
        | false => exact ends_pure.mpr ⟨kept.1, kept.2.onward⟩
        | true =>
            exact (ends_admitLocked kept.1 reading version).mono fun _ after admitted =>
              ⟨admitted.1, kept.2.onward.trans admitted.2⟩

/-! ## Dispatch -/

/-- The running item is closed, or it is to be closed later. -/
theorem ends_failItemLocked {state : State R F} (owing : Owing settings state [])
    (reading : Option Moment) (itemId : String) :
    Ends (failItemLocked settings sink reading itemId) state fun result after =>
      Owing settings after [] ∧
        match result with
        | none => after.pendingFail = some itemId ∧ after.scheduler.slot = state.scheduler.slot
        | some _ => after.pendingFail = state.pendingFail ∧ after.scheduler.slot = none := by
  refine (ends_schedule _ _ (Scheduler.settles_fail_told owing.recorded.consistent reading
    itemId)).bind fun result middle scheduled => ?_
  cases result with
  | none =>
      obtain ⟨failure, rfl⟩ := scheduled
      have logged : Owing settings { state with journal :=
          state.journal ++ [.scheduled (.fail reading itemId) (.error failure)] } [] :=
        owing.answer rfl
      refine ends_bind.mpr (ends_bind.mpr (ends_get.mpr (ends_set.mpr (ends_pure.mpr ?_))))
      exact ⟨logged.withPendingFail _, rfl, rfl⟩
  | some result =>
      obtain ⟨scheduler, ⟨told, free, _⟩, rfl⟩ := scheduled
      refine (ends_emitRecords sink (owing.told told rfl)).bind fun _ last emitted =>
        ends_pure.mpr ⟨emitted.1, emitted.2.pendingFail, ?_⟩
      rw [emitted.2.scheduler]
      simp [Scheduler.State.slot, free]

theorem ends_retryFail {state : State R F} (owing : Owing settings state []) (retry : Retry state)
    (reading : Option Moment) :
    Ends (retryFail settings sink reading) state fun result after =>
      Owing settings after [] ∧ Retry after ∧ (Held state → Held after) ∧
        (result = none → after.pendingFail = none) ∧ (state.pendingFail = none → after = state) := by
  refine ends_bind.mpr (ends_get.mpr ?_)
  cases pendingFail : state.pendingFail with
  | none => exact ends_pure.mpr ⟨owing, retry, id, fun _ => pendingFail, fun _ => rfl⟩
  | some itemId =>
      have slotted := retry itemId pendingFail
      refine (ends_failItemLocked owing reading itemId).bind fun result middle failed => ?_
      cases result with
      | none =>
          obtain ⟨kept, later, slot⟩ := failed
          refine ends_pure.mpr ⟨kept, ?_, fun _ entry isHeld => ?_, nofun, nofun⟩
          · intro other isLater
            rw [later] at isLater
            cases isLater
            rw [slot]
            exact slotted
          · rw [slot] at isHeld
            rw [show state.scheduler.slot = some entry from isHeld] at slotted
            rw [later]
            exact slotted.symm
      | some final =>
          obtain ⟨kept, _, free⟩ := failed
          refine ends_bind.mpr (ends_get.mpr (ends_bind.mpr (ends_set.mpr (ends_pure.mpr ?_))))
          refine ⟨kept.withPendingFail _, nofun, fun _ entry isHeld => ?_, fun _ => rfl, nofun⟩
          rw [show middle.scheduler.slot = some entry from isHeld] at free
          cases free

/-- An item that takes the free slot is under way. -/
theorem underway_dispatched {state last : State R F} {reading : Option Moment}
    {result : Scheduler.DispatchResult} {after : Scheduler.State}
    (told : Told state.scheduler result.transitions after) {dispatched : Scheduler.Dispatched}
    (isDispatched : result.dispatched = some dispatched)
    (takes : Scheduler.Takes state.scheduler (some dispatched) after)
    (free : state.pendingFail = none)
    (logged : Logged { state with
      scheduler := after
      journal := state.journal ++ [.scheduled (.dispatch reading) (.ok (.dispatch result))] }
        last result.transitions) (paid : Owing settings last [])
    {version : OpportunityVersion} (found : last.versions.get? dispatched.itemId = some version) :
    Underway settings last ⟨dispatched, version, .claiming⟩ := by
  obtain ⟨wasFree, running, held, active, sameId, deadline⟩ := takes
  obtain ⟨more, isMore, isOut⟩ := logged.journal
  have isOpen := told.consistent.openEntry_of_running held
  rw [active, if_neg (by decide), sameId] at isOpen
  refine ⟨logged.pendingFail.trans free, ⟨running.entry, ?_, sameId, ?_, deadline⟩, state.journal,
    reading, result, more, ?_, isDispatched, fun _ => ?_, fun _ _ isLease => by cases isLease⟩
  · rw [logged.scheduler]
    simp [Scheduler.State.slot, held]
  · rw [paid.get?_versions, logged.scheduler, isOpen] at found
    exact Option.some.inj found
  · rw [isMore, List.append_assoc]
    rfl
  · -- The item was queued, since the slot was free.
    change statesOf dispatched.itemId (recordsOf more) = [.running]
    have told' := told.opened dispatched.itemId
    rw [isOpen] at told'
    have unclosed : closes result.transitions dispatched.itemId = false := by
      cases closed : closes result.transitions dispatched.itemId with
      | true => simp [closed] at told'
      | false => rfl
    rw [unclosed, if_neg (by decide)] at told'
    have queued : state.scheduler.openStates dispatched.itemId = [.queued] := by
      rcases Scheduler.State.openEntry_eq_some told'.symm with queued | ⟨other, isHeld, _⟩
      · simp [Scheduler.State.openStates, queued]
      · rw [wasFree] at isHeld
        cases isHeld
    have runs := told.consistent.openStates_of_running held active
    have nothing := (told.follows dispatched.itemId).eq_of_open fun state' member =>
      (List.mem_append.mp member).elim (state.scheduler.openStates_unended _ state')
        (Scheduler.closes_eq_false_iff.mp unclosed state')
    rw [sameId] at runs
    rw [queued, runs] at nothing
    rw [isOut]
    exact List.append_cancel_left nothing

theorem ends_dispatchLocked {state : State R F} (owing : Owing settings state [])
    (free : state.pendingFail = none) (dispatching closing : Option Moment) :
    Ends (dispatchLocked settings sink dispatching closing) state fun result after =>
      Owing settings after [] ∧ Retry after ∧
        match result with
        | .error _ => (Held state → Held after) ∧
            (state.scheduler.slot ≠ none → Onward state after)
        | .ok (dispatched, version) => state.scheduler.slot = none ∧
            Underway settings after ⟨dispatched, version, .claiming⟩ := by
  have consistent := owing.recorded.consistent
  have noRetry : ∀ {after : State R F}, after.pendingFail = none → Retry after := by
    intro after isNone itemId isLater
    rw [isNone] at isLater
    cases isLater
  refine (ends_schedule _ _ (Scheduler.settles_dispatch_told consistent dispatching)).bind
    fun result middle scheduled => ?_
  cases result with
  | none =>
      obtain ⟨failure, rfl⟩ := scheduled
      exact ends_pure.mpr ⟨owing.answer rfl, noRetry free, id, fun _ => onward_answer state rfl⟩
  | some result =>
      obtain ⟨scheduler, ⟨told, takes⟩, rfl⟩ := scheduled
      refine (ends_emitRecords sink (owing.told told rfl)).bind fun _ last emitted => ?_
      obtain ⟨paid, logged⟩ := emitted
      cases isDispatched : result.dispatched with
      | none =>
          rw [isDispatched] at takes
          have onward : Onward state last := logged.onward_scheduled rfl takes fun itemId runs =>
            told.toRecorded.runs consistent takes (fun _ _ => told.opened _) runs
          exact ends_pure.mpr ⟨paid, onward.retry (noRetry free), onward.held, fun _ => onward⟩
      | some dispatched =>
          rw [isDispatched] at takes
          have wasFree : state.scheduler.slot = none := by
            simp [Scheduler.State.slot, takes.1]
          have slotted : last.scheduler.slot.map QueuedEntry.itemId = some dispatched.itemId := by
            obtain ⟨_, running, held, _, sameId, _⟩ := takes
            rw [logged.scheduler]
            simp [Scheduler.State.slot, held, sameId]
          refine ends_bind.mpr (ends_get.mpr ?_)
          dsimp only
          split
          next version _ found =>
            refine ends_pure.mpr ⟨paid, noRetry (logged.pendingFail.trans free), wasFree, ?_⟩
            exact underway_dispatched told isDispatched takes free logged paid found
          next =>
            refine (ends_failItemLocked paid closing dispatched.itemId).bind
              fun final end_ failed => ends_pure.mpr ?_
            obtain ⟨kept, outcome⟩ := failed
            cases final with
            | none =>
                obtain ⟨later, slot⟩ := outcome
                refine ⟨kept, fun itemId isLater => ?_, fun _ entry isHeld => ?_,
                  fun occupied => absurd wasFree occupied⟩
                · rw [later] at isLater
                  cases isLater
                  rw [slot]
                  exact slotted
                · rw [slot] at isHeld
                  rw [show last.scheduler.slot = some entry from isHeld] at slotted
                  rw [later]
                  exact slotted.symm
            | some final =>
                obtain ⟨later, slot⟩ := outcome
                refine ⟨kept, noRetry (later.trans (logged.pendingFail.trans free)),
                  fun _ entry isHeld => ?_, fun occupied => absurd wasFree occupied⟩
                rw [show end_.scheduler.slot = some entry from isHeld] at slot
                cases slot

theorem ends_processNext {state : State R F} (owing : Owing settings state []) (retry : Retry state)
    (retrying dispatching closing : Option Moment) :
    Ends (processNext settings sink retrying dispatching closing) state fun result after =>
      Owing settings after [] ∧ Retry after ∧
        match result with
        | .error _ => (Held state → Held after) ∧
            (state.pendingFail = none → state.scheduler.slot ≠ none → Onward state after)
        | .ok (dispatched, version) =>
            (state.pendingFail = none → state.scheduler.slot = none) ∧
            Underway settings after ⟨dispatched, version, .claiming⟩ := by
  refine ends_bind.mpr (ends_get.mpr ?_)
  split
  next => exact ends_pure.mpr ⟨owing, retry, id, fun _ _ => .refl state⟩
  next =>
    refine (ends_flushLocked sink owing).bind fun flushed middle kept => ?_
    have onward := kept.2.onward
    cases flushed with
    | false => exact ends_pure.mpr ⟨kept.1, onward.retry retry, onward.held, fun _ _ => onward⟩
    | true =>
        refine (ends_retryFail kept.1 (onward.retry retry) retrying).bind fun result last retried => ?_
        obtain ⟨paid, retryLater, heldLater, freed, same⟩ := retried
        cases result with
        | some itemId =>
            refine ends_pure.mpr ⟨paid, retryLater, fun held => heldLater (onward.held held),
              fun free _ => ?_⟩
            rw [same (onward.pendingFail.trans free)]
            exact onward
        | none =>
            refine (ends_dispatchLocked paid (freed rfl) dispatching closing).mono
              fun result after dispatched => ?_
            obtain ⟨keptLast, retryLast, outcome⟩ := dispatched
            refine ⟨keptLast, retryLast, ?_⟩
            have sameSlot : state.pendingFail = none → last.scheduler.slot = state.scheduler.slot := by
              intro free
              rw [same (onward.pendingFail.trans free)]
              exact onward.slot
            match result, outcome with
            | .error _, ⟨held, onwards⟩ =>
                refine ⟨fun wasHeld => held (heldLater (onward.held wasHeld)), fun free occupied => ?_⟩
                have went := onwards (by rw [sameSlot free]; exact occupied)
                rw [same (onward.pendingFail.trans free)] at went
                exact onward.trans went
            | .ok (dispatched, version), ⟨wasFree, underway⟩ =>
                exact ⟨fun free => (sameSlot free).symm.trans wasFree, underway⟩

end Sections

end CryptoRadar.Worker
