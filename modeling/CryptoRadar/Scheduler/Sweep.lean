import CryptoRadar.Scheduler.Lives

/-!
# The sweep and the checks before it

Every operation first checks what can be refused, without writing, and then records the
clock and sweeps. The checks settle: they raise an error of the scheduler or pass
(`settles_readClock` and its neighbours). The sweep never raises, since a clock reading that
passed has room for every path, and its records follow (`ends_sweepExpired`, `ends_begin`);
it leaves a part of the queue and the item in the slot (`Swept`).
-/

set_option autoImplicit false

namespace CryptoRadar.Scheduler

open Program Invocation

/-! ## The sweep -/

/-- What a sweep leaves: a consistent state whose records follow, with a part of the queue and
the same item in the slot. -/
structure Swept (before : State) (out : List Transition) (after : State) : Prop where
  consistent : Consistent after
  follows : Follows before out after
  queue : ∀ item ∈ after.queue, item ∈ before.queue
  running : after.running.map Running.entry = before.running.map Running.entry

theorem Swept.trans {first second third : State} {out more : List Transition}
    (earlier : Swept first out second) (later : Swept second more third) :
    Swept first (out ++ more) third where
  consistent := later.consistent
  follows := earlier.follows.trans later.follows
  queue item member := earlier.queue item (later.queue item member)
  running := later.running.trans earlier.running

theorem Consistent.swept {state : State} (consistent : Consistent state) : Swept state [] state where
  consistent := consistent
  follows := .refl state
  queue _ member := member
  running := rfl

def State.aborted (state : State) (running : Running) : State :=
  { state with running := some { running with aborted := true } }

/-- Aborting the running item ends its life; it keeps the slot. -/
theorem Consistent.swept_aborted {state : State} (consistent : Consistent state) {running : Running}
    (held : state.running = some running) (active : running.aborted = false) (record : Transition)
    (sameId : record.itemId = running.entry.itemId) (terminal : record.state.isTerminal) :
    Swept state [record] (state.aborted running) := by
  have unqueued : state.queue.get? running.entry.itemId = none :=
    Dict.get?_eq_none_iff.mpr fun item member => (consistent.apart running held item member).1
  refine ⟨?_, ?_, fun item member => member, ?_⟩
  · refine consistent.of_same_queue rfl rfl rfl fun later isLater item member => ?_
    cases isLater
    exact consistent.apart running held item member
  · refine .of_record record ?_ fun itemId differs => ?_
    · have ran : state.runs running.entry.itemId = true := by simp [State.runs, held, active]
      have idle : (state.aborted running).runs running.entry.itemId = false := by
        simp [State.runs, State.aborted]
      have before : state.openStates running.entry.itemId = [.queued, .running] := by
        simp [State.openStates, unqueued, ran]
      have after : (state.aborted running).openStates running.entry.itemId = [] := by
        have unqueuedAfter : (state.aborted running).queue.get? running.entry.itemId = none :=
          unqueued
        simp [State.openStates, unqueuedAfter, idle]
      rw [sameId, before, after]
      exact .one (.ended true record.state) terminal
    · have differs : itemId ≠ running.entry.itemId := sameId ▸ differs
      have idle : state.runs itemId = false := by simp [State.runs, held, Ne.symm differs]
      have idleAfter : (state.aborted running).runs itemId = false := by
        simp [State.runs, State.aborted]
      unfold State.openStates
      rw [idle, idleAfter]
      rfl
  · rw [held]
    rfl

theorem ends_abortRunning {state : State} (consistent : Consistent state) (now : Moment)
    (reason : StaleReason) :
    Ends (abortRunning now reason) state fun out after => Swept state out after := by
  refine ends_bind.mpr (ends_get.mpr ?_)
  cases held : state.running with
  | none => exact ends_pure.mpr consistent.swept
  | some running =>
      by_cases expired : (!running.aborted && decide (running.entry.deadline ≤ now)) = true
      · simp only [expired, if_true]
        refine ends_bind.mpr (ends_set.mpr (ends_pure.mpr ?_))
        have active : running.aborted = false := by
          simpa using (Bool.and_eq_true_iff.mp expired).1
        exact consistent.swept_aborted held active _ rfl rfl
      · simp only [expired]
        exact ends_pure.mpr consistent.swept

/-- The loop invariant of the sweep: the entries still to come are in the queue. -/
structure Sweeping (before : State) (rest : List QueuedEntry) (out : List Transition)
    (state : State) : Prop where
  swept : Swept before out state
  waiting : ∀ entry ∈ rest, (entry.itemId, entry) ∈ state.queue
  distinct : (rest.map QueuedEntry.itemId).Nodup

section Sweep

variable {policy : SchedulerPolicy} {now : Moment} {before state : State} {entry : QueuedEntry}
  {rest : List QueuedEntry} {out : List Transition}

theorem Sweeping.tail (sweeping : Sweeping before (entry :: rest) out state) :
    Sweeping before rest out state where
  swept := sweeping.swept
  waiting other member := sweeping.waiting other (List.mem_cons_of_mem _ member)
  distinct := (List.nodup_cons.mp sweeping.distinct).2

/-- A turn that takes its entry out with a terminal record. -/
theorem Sweeping.ends_close (sweeping : Sweeping before (entry :: rest) out state)
    (record : Transition) (sameId : record.itemId = entry.itemId)
    (terminal : record.state.isTerminal) :
    Ends (do let _ ← remove entry.itemId; return out ++ [record] : Op (List Transition)) state
      fun next after => Sweeping before rest next after := by
  have consistent := sweeping.swept.consistent
  have member := sweeping.waiting entry List.mem_cons_self
  refine (consistent.ends_remove member).bind fun removed after removal => ends_pure.mpr ?_
  obtain ⟨rfl, rfl⟩ := removal
  have closed : Swept state [record] (state.without removed) :=
    ⟨consistent.without member, consistent.follows_without member record sameId terminal,
      fun item inside => (Dict.mem_erase.mp inside).1, rfl⟩
  refine ⟨sweeping.swept.trans closed, fun other inside => ?_, sweeping.tail.distinct⟩
  refine Dict.mem_erase.mpr ⟨sweeping.waiting other (List.mem_cons_of_mem _ inside), fun same => ?_⟩
  exact (List.nodup_cons.mp sweeping.distinct).1 (List.mem_map.mpr ⟨other, inside, same⟩)

theorem Sweeping.ends_sweepEntry (room : HasRoom policy now)
    (sweeping : Sweeping before (entry :: rest) out state) :
    Ends (sweepEntry policy now out entry) state fun next after =>
      Sweeping before rest next after := by
  have member := sweeping.waiting entry List.mem_cons_self
  unfold sweepEntry
  split
  next => exact sweeping.ends_close _ rfl rfl
  next =>
    split
    next => exact sweeping.ends_close _ rfl rfl
    next =>
      obtain ⟨fits, computed⟩ := pathFits_isOk entry.deadline room
        (sweeping.swept.consistent.paths _ member)
      refine ends_bind.mpr (ends_lift.mpr ⟨fits, computed, ?_⟩)
      cases fits with
      | true => exact ends_pure.mpr sweeping.tail
      | false =>
          refine sweeping.ends_close _ rfl ?_
          unfold unfitState
          split <;> rfl

end Sweep

/-- At the start of the loop all entries are still to come. -/
theorem Swept.sweeping {before middle : State} {out : List Transition} (swept : Swept before out middle) :
    Sweeping before middle.queued out middle := by
  have sorted := List.perm_insertionSort (fun first second => rankKey first ≤ rankKey second)
    (middle.queue.map Prod.snd)
  refine ⟨swept, fun entry member => ?_, ?_⟩
  · exact swept.consistent.mem_of_value (sorted.mem_iff.mp member)
  · refine (sorted.map QueuedEntry.itemId).nodup_iff.mpr ?_
    have ids : (middle.queue.map Prod.snd).map QueuedEntry.itemId =
        middle.queue.map Prod.fst := by
      rw [List.map_map]
      exact List.map_congr_left fun item member => (swept.consistent.keyed item member).symm
    rw [ids]
    exact swept.consistent.distinctIds

/-- **The sweep never raises** and its records follow. -/
theorem ends_sweepExpired {policy : SchedulerPolicy} {now : Moment} {state : State}
    (consistent : Consistent state) (room : HasRoom policy now) :
    Ends (sweepExpired policy now) state fun out after => Swept state out after := by
  refine (ends_abortRunning consistent now .deadlinePassed).bind fun out middle aborted => ?_
  refine ends_bind.mpr (ends_get.mpr ?_)
  exact (ends_foldlM (Sweeping state) (fun _ _ _ _ holds => holds.ends_sweepEntry room)
    middle.queued out middle aborted.sweeping).mono fun _ _ done => done.swept

theorem Consistent.recorded {state : State} (consistent : Consistent state) (now : Moment) :
    Swept state [] { state with lastNow := some now } where
  consistent := consistent.of_same_queue rfl rfl rfl consistent.apart
  follows := .of_same fun _ => rfl
  queue _ member := member
  running := rfl

theorem ends_begin {policy : SchedulerPolicy} {now : Moment} {state : State}
    (consistent : Consistent state) (room : HasRoom policy now) :
    Ends (begin policy now) state fun out after => Swept state out after := by
  unfold begin recordNow
  rw [bind_assoc]
  refine ends_bind.mpr (ends_get.mpr (ends_bind.mpr (ends_set.mpr ?_)))
  have recorded := consistent.recorded now
  exact (ends_sweepExpired recorded.consistent room).mono fun out after swept =>
    recorded.trans swept

/-! ## Checks before the commit point -/

/-- The raised value is an error of the scheduler. -/
def IsRefusal (raised : Raise) : Prop := ∃ code, raised = .scheduler code

theorem settles_raise {α : Type} {state : State} {post : α → State → Prop}
    (code : SchedulerFailure) : Settles IsRefusal (raise code : Op α) state post :=
  settles_throw ⟨code, rfl⟩

theorem settles_requireText (state : State) (text : String) :
    Settles IsRefusal (requireText text) state fun _ after => after = state ∧ True := by
  unfold requireText
  split
  next => exact (ends_pure.mpr ⟨rfl, trivial⟩).settles
  next => exact settles_raise _

theorem settles_readClock (policy : SchedulerPolicy) (state : State) (reading : Option Moment) :
    Settles IsRefusal (readClock policy reading) state fun now after =>
      after = state ∧ HasRoom policy now := by
  cases reading with
  | none => exact settles_raise _
  | some moment =>
      unfold readClock
      cases room : (moment.plus? (Moment.seconds policy.maxSpanSeconds)).isNone with
      | true =>
          simp only [room, if_true]
          exact settles_raise _
      | false =>
          have hasRoom : HasRoom policy moment := by
            unfold HasRoom
            rw [Option.isSome_iff_ne_none]
            intro absent
            rw [absent] at room
            cases room
          simp only [room, Bool.false_eq_true, if_false]
          refine Settles.bind (fun read => read = state) ?_ ?_
          · exact (ends_get.mpr ⟨rfl, rfl⟩).settles
          · rintro read rfl
            cases read.lastNow with
            | none => exact (ends_pure.mpr ⟨rfl, hasRoom⟩).settles
            | some last =>
                by_cases back : moment < last
                · simp only [back, if_true]
                  exact settles_raise _
                · simp only [back, if_false]
                  exact (ends_pure.mpr ⟨rfl, hasRoom⟩).settles

theorem settles_requireRunning (state : State) (itemId : String) :
    Settles IsRefusal (requireRunning itemId) state fun running after =>
      after = state ∧ state.running = some running ∧ running.entry.itemId = itemId := by
  unfold requireRunning
  refine Settles.bind (fun read => read = state) (ends_get.mpr ⟨rfl, rfl⟩).settles ?_
  rintro read rfl
  cases held : read.running with
  | none => exact settles_raise _
  | some running =>
      by_cases same : running.entry.itemId = itemId
      · simp only [same, if_true]
        exact (ends_pure.mpr ⟨rfl, rfl, same⟩).settles
      · simp only [same, if_false]
        exact settles_raise _

/-- The deadline of a version stays in the calendar: its origin is not later than its seal, and
the seal has room for the longest deadline a policy may set. -/
theorem ends_deadlineOf (policy : SchedulerPolicy) (state : State) (version : OpportunityVersion) :
    Ends (deadlineOf policy version) state fun deadline after => after = state ∧
      deadline.micros = version.origin.micros +
        Moment.seconds (policy.horizonLimits version.horizon).analysisDeadlineSeconds := by
  have notLater : version.origin ≤ version.sealedAt := by
    unfold OpportunityVersion.origin
    cases given : version.originSealedAt with
    | none => exact le_refl _
    | some origin => exact version.originNotLater origin given
  have bounded := (policy.deadlinesBounded version.horizon).2
  have room : (version.origin.plus? (Moment.seconds
      (policy.horizonLimits version.horizon).analysisDeadlineSeconds)).isSome := by
    refine Moment.plus?_isSome_of_earlier ?_ notLater
      (Moment.plus?_isSome_of_le ?_ ?_ version.sealHasRoom)
    all_goals
      unfold Moment.seconds
      omega
  obtain ⟨deadline, sum⟩ := Option.isSome_iff_exists.mp room
  unfold deadlineOf
  rw [sum]
  exact ends_pure.mpr ⟨rfl, Moment.plus?_eq_some.mp sum⟩

end CryptoRadar.Scheduler
