import CryptoRadar.Scheduler.Ceilings

/-!
# The queue is bounded and a superseded item has a successor

`Represented` is the representation of the scheduler: the invariant of the indexes with the
bound of the queue. Only an admission adds to the queue, and it adds one entry after it made
room.

A supersession takes an item out before the bounded queue is looked at. It leaves a free
place, so the new item is never dropped for backpressure in the call that superseded another
(`ends_admitFresh_bounded`). `scheduler_represented` is the result for every reachable state.
-/

set_option autoImplicit false

namespace CryptoRadar.Scheduler

open Program Invocation

structure Represented (policy : SchedulerPolicy) (state : State) : Prop
    extends Consistent state where
  bounded : state.queue.length ≤ policy.maxQueued

theorem represented_initial (policy : SchedulerPolicy) : Represented policy .initial :=
  ⟨consistent_initial, Nat.zero_le _⟩

/-! ## The size of the queue -/

theorem length_without_lt {state : State} {entry : QueuedEntry}
    (member : (entry.itemId, entry) ∈ state.queue) :
    (state.without entry).queue.length < state.queue.length := by
  refine List.length_filter_lt_length_iff_exists.mpr ⟨_, member, ?_⟩
  simp

theorem length_withEntry (state : State) (entry : QueuedEntry) :
    (state.withEntry entry).queue.length = state.queue.length + 1 := by
  simp [State.withEntry]

/-- A part of the queue, with distinct ids, is not longer. -/
theorem Consistent.length_le {before after : State} (consistent : Consistent after)
    (queue : ∀ item ∈ after.queue, item ∈ before.queue) :
    after.queue.length ≤ before.queue.length := by
  have distinct : after.queue.Nodup := List.Nodup.of_map Prod.fst consistent.distinctIds
  exact List.Nodup.length_le_of_subset distinct queue

section Items

variable {policy : SchedulerPolicy} {before after : State}

theorem Starts.queue {reading : Option Moment} {result : DispatchResult}
    (starts : Starts policy reading before result after) :
    ∀ item ∈ after.queue, item ∈ before.queue := by
  unfold Starts at starts
  cases isDispatched : result.dispatched with
  | none =>
      rw [isDispatched] at starts
      exact starts.queue
  | some given =>
      rw [isDispatched] at starts
      obtain ⟨_, _, _, _, _, _, _, queue, _⟩ := starts
      exact queue

theorem Reserves.queue {itemId : String} {role : Role} {repair : Bool} {prompt : Nat}
    {decision : CallDecision} (reserves : Reserves policy itemId role repair prompt before decision after) :
    ∀ item ∈ after.queue, item ∈ before.queue := by
  unfold Reserves at reserves
  cases isRefusal : decision.refusal with
  | some reason =>
      rw [isRefusal] at reserves
      exact reserves.queue
  | none =>
      rw [isRefusal] at reserves
      exact reserves.1

end Items

/-! ## The records of a sweep -/

/-- The records name no second item. -/
def Unnamed (out : List Transition) : Prop := ∀ record ∈ out, record.relatedId = none

theorem Unnamed.add {out : List Transition} (unnamed : Unnamed out) {record : Transition}
    (alone : record.relatedId = none) : Unnamed (out ++ [record]) := by
  intro other member
  rcases List.mem_append.mp member with old | new
  · exact unnamed other old
  · rw [List.mem_singleton.mp new]
    exact alone

section Sweeps

variable {policy : SchedulerPolicy} {state : State}

theorem yields_abortRunning_unnamed (now : Moment) (reason : StaleReason) :
    Yields (abortRunning now reason) state fun out _ => Unnamed out := by
  have nothing : Unnamed [] := fun _ member => by cases member
  refine yields_get_bind ?_
  cases state.running with
  | none => exact yields_pure nothing
  | some running =>
      dsimp only
      split
      next => exact yields_set_bind (yields_pure (nothing.add rfl))
      next => exact yields_pure nothing

theorem yields_sweepEntry_unnamed (now : Moment) {out : List Transition} (unnamed : Unnamed out)
    (entry : QueuedEntry) : Yields (sweepEntry policy now out entry) state fun out _ => Unnamed out := by
  have close : ∀ record : Transition, record.relatedId = none →
      Yields (do let _ ← remove entry.itemId; return out ++ [record] : Op (List Transition)) state
        fun out _ => Unnamed out := fun record alone =>
    (yields_remove_carried entry.itemId).bind fun _ _ _ => yields_pure (unnamed.add alone)
  unfold sweepEntry
  split
  next => exact close _ rfl
  next =>
    split
    next => exact close _ rfl
    next =>
      have lifted : Yields (Program.lift (pathFits policy entry.path now entry.deadline) : Op Bool)
          state fun _ after => after = state := yields_lift fun _ _ => rfl
      refine lifted.bind fun fits after same => ?_
      subst same
      cases fits with
      | true => exact yields_pure unnamed
      | false => exact close _ rfl

/-- The sweep at the start of an operation names no second item. -/
theorem yields_begin_unnamed (now : Moment) :
    Yields (begin policy now) state fun out _ => Unnamed out := by
  unfold begin recordNow
  rw [bind_assoc]
  refine yields_get_bind (yields_set_bind ?_)
  refine (yields_abortRunning_unnamed now .deadlinePassed).bind fun out middle unnamed => ?_
  refine yields_get_bind ?_
  exact yields_foldlM (fun out _ => Unnamed out)
    (fun entry out state unnamed => yields_sweepEntry_unnamed now unnamed entry) _ out middle unnamed

end Sweeps

/-! ## Admission -/

/-- The version is queued, or the only record of the admission does not name it as the other
side. -/
def Succeeds (version : OpportunityVersion) (out : List Transition) (result : AdmissionResult)
    (after : State) : Prop :=
  (result.status = .admitted ∧ ∃ entry : QueuedEntry,
      (version.itemId, entry) ∈ after.queue ∧ entry.version = version) ∨
    ∃ record, result.transitions = out ++ [record] ∧ record.relatedId ≠ some version.itemId

section Admission

variable {policy : SchedulerPolicy} {state : State} {version : OpportunityVersion} {now : Moment}

theorem Fresh.differs (fresh : Fresh state version) {entry : QueuedEntry}
    (member : (entry.itemId, entry) ∈ state.queue) : some entry.itemId ≠ some version.itemId := by
  intro same
  exact fresh.id _ member (Option.some.inj same)

/-- An entry that is inserted below the limit. -/
theorem ends_admitted (consistent : Consistent state) {entry : QueuedEntry}
    (fresh : Fresh state entry.version) (lone : Lone state entry.version)
    (free : state.queue.length < policy.maxQueued) (out : List Transition) (result : AdmissionResult)
    (admitted : result.status = .admitted) :
    Ends (do insert entry; return result : Op AdmissionResult) state fun result after =>
      after.queue.length ≤ policy.maxQueued ∧ Succeeds entry.version out result after := by
  refine (consistent.ends_insert fresh lone).bind fun _ after inserted => ends_pure.mpr ?_
  subst inserted
  refine ⟨?_, .inl ⟨admitted, entry, ?_, rfl⟩⟩
  · rw [length_withEntry]
    exact free
  · exact List.mem_append_right _ List.mem_cons_self

/-- **A version that supersedes another is queued**: the superseded item left a free place. -/
theorem ends_admitFresh_bounded (represented : Represented policy state)
    (room : HasRoom policy now) (fresh : Fresh state version) {path : List Role}
    (distinct : path.Nodup) (dropped : List Role) (deadline : Moment) (out : List Transition) :
    Ends (admitFresh policy version path dropped deadline now out) state fun result after =>
      after.queue.length ≤ policy.maxQueued ∧ Succeeds version out result after := by
  have consistent := represented.toConsistent
  have refuse : ∀ (refusal : ItemState) {related : Option String} (reason : Option StaleReason),
      related ≠ some version.itemId → Ends (pure (refused version dropped deadline now out refusal
        related reason) : Op AdmissionResult) state fun result after =>
          after.queue.length ≤ policy.maxQueued ∧ Succeeds version out result after :=
    fun refusal related reason other =>
      ends_pure.mpr ⟨represented.bounded, .inr ⟨_, rfl, other⟩⟩
  unfold admitFresh
  split
  next => exact refuse _ _ nofun
  next =>
    split
    next => exact refuse _ _ nofun
    next band _ =>
      split
      next => exact refuse _ _ nofun
      next =>
        obtain ⟨fits, computed⟩ := pathFits_isOk deadline room distinct
        refine ends_bind.mpr (ends_lift.mpr ⟨fits, computed, ?_⟩)
        cases fits with
        | false => exact refuse _ _ nofun
        | true =>
            refine ((ends_supersede_cases consistent).and_yields
              (ends_supersede consistent fresh).yields).bind fun result middle settled => ?_
            obtain ⟨outcome, settled⟩ := settled
            rcases outcome with ⟨_, rfl, rfl⟩ | ⟨incumbent, member, _, outcome⟩
            · let entry : QueuedEntry := ⟨version, band, deadline, now, path, none⟩
              obtain ⟨_, freshLater, lone⟩ := settled
              refine ((ends_makeRoom_cases consistent entry).and_yields
                (ends_makeRoom consistent entry freshLater lone).yields).bind
                  fun result last settled => ?_
              obtain ⟨outcome, settled⟩ := settled
              rcases outcome with ⟨free, rfl, rfl⟩ | ⟨_, worst, isQueued, _, outcome⟩
              · exact ends_admitted consistent freshLater lone free out _ rfl
              · rcases outcome with ⟨_, rfl, rfl⟩ | ⟨_, rfl, rfl⟩
                · obtain ⟨left, freshLast, loneLast⟩ := settled
                  have free : (middle.without worst).queue.length < policy.maxQueued :=
                    lt_of_lt_of_le (length_without_lt isQueued) represented.bounded
                  exact ends_admitted left.consistent freshLast loneLast free out _ rfl
                · have other := fresh.differs isQueued
                  exact ends_pure.mpr ⟨represented.bounded, .inr
                    ⟨⟨version.itemId, .droppedBackpressure, now, some worst.itemId, none⟩,
                      by simp [refused], other⟩⟩
            · rcases outcome with ⟨refusal, _, rfl, rfl⟩ | ⟨rfl, rfl⟩
              · exact refuse refusal none (fresh.differs member)
              · obtain ⟨left, freshLater, lone⟩ := settled
                let entry : QueuedEntry :=
                  ⟨version, band, deadline, now, path, some incumbent.itemId⟩
                have free : (state.without incumbent).queue.length < policy.maxQueued :=
                  lt_of_lt_of_le (length_without_lt member) represented.bounded
                refine (ends_makeRoom_cases left.consistent entry).bind fun result last outcome => ?_
                rcases outcome with ⟨_, rfl, rfl⟩ | ⟨full, _⟩
                · exact ends_admitted left.consistent freshLater lone free out _ rfl
                · exact absurd free (Nat.not_lt_of_le full)

end Admission

/-- An admission that records a supersession by its version ends with the version queued. -/
def KeepsSuccessor (version : OpportunityVersion) (result : AdmissionResult) (after : State) : Prop :=
  ∀ record ∈ result.transitions, record.state = .superseded →
    record.relatedId = some version.itemId →
      result.status = .admitted ∧ ∃ entry : QueuedEntry,
        (version.itemId, entry) ∈ after.queue ∧ entry.version = version

theorem KeepsSuccessor.of_unnamed {version : OpportunityVersion} {result : AdmissionResult}
    {after : State} (unnamed : Unnamed result.transitions) : KeepsSuccessor version result after := by
  intro record member _ named
  rw [unnamed record member] at named
  cases named

theorem KeepsSuccessor.of_succeeds {version : OpportunityVersion} {out : List Transition}
    (unnamed : Unnamed out) {result : AdmissionResult} {after : State}
    (succeeds : Succeeds version out result after) : KeepsSuccessor version result after := by
  intro record member _ named
  rcases succeeds with queued | ⟨last, transitions, other⟩
  · exact queued
  · rw [transitions] at member
    rcases List.mem_append.mp member with old | new
    · rw [unnamed record old] at named
      cases named
    · rw [List.mem_singleton.mp new] at named
      exact absurd named other

theorem yields_admitVersion {policy : SchedulerPolicy} {state : State}
    (represented : Represented policy state) (reading : Option Moment)
    (version : OpportunityVersion) :
    Yields (admitVersion policy reading version) state fun result after =>
      after.queue.length ≤ policy.maxQueued ∧ KeepsSuccessor version result after := by
  have consistent := represented.toConsistent
  refine (settles_readClock policy state reading).yields.bind fun now before checked => ?_
  obtain ⟨rfl, room⟩ := checked
  refine yields_get_bind ?_
  dsimp only
  split
  next => exact yields_throw
  next current =>
    have sameIdentity : ∀ identity ∈ before.activeIdentity version.itemId,
        identity = version.identity := fun identity => activeIdentity_of_accepted current
    refine (ends_deadlineOf policy before version).yields.bind fun deadline _ checked => ?_
    obtain ⟨rfl, _⟩ := checked
    refine ((ends_begin consistent room).and_yields (yields_begin_unnamed now)).yields.bind
      fun out middle begun => ?_
    obtain ⟨swept, unnamed⟩ := begun
    have bounded : middle.queue.length ≤ policy.maxQueued :=
      le_trans (swept.consistent.length_le swept.queue) represented.bounded
    refine yields_get_bind ?_
    split
    next => exact yields_pure ⟨bounded, .of_unnamed unnamed⟩
    next =>
      cases existing : middle.existing version.identity with
      | some found => exact yields_pure ⟨bounded, .of_unnamed unnamed⟩
      | none =>
          have fresh := swept.fresh consistent sameIdentity existing
          have distinct : (enabledPath policy version.requestedRoles).1.Nodup :=
            version.distinctRoles.filter _
          have middleRepresented : Represented policy middle := ⟨swept.consistent, bounded⟩
          exact (ends_admitFresh_bounded middleRepresented room fresh distinct _ _ _).yields.mono
            fun result after holds => ⟨holds.1, .of_succeeds unnamed holds.2⟩

/-! ## Whole runs -/

/-- Only an admission adds to the queue. -/
theorem yields_perform_bounded {policy : SchedulerPolicy} {state : State}
    (represented : Represented policy state) (call : Call) :
    Yields (perform policy call) state fun _ after =>
      Consistent after → after.queue.length ≤ policy.maxQueued := by
  have shrinks : ∀ after : State, (∀ item ∈ after.queue, item ∈ state.queue) → Consistent after →
      after.queue.length ≤ policy.maxQueued := fun after queue consistent =>
    le_trans (consistent.length_le queue) represented.bounded
  cases call with
  | admitVersion reading version =>
      exact (yields_admitVersion represented reading version).bind fun _ _ holds =>
        yields_pure fun _ => holds.1
  | dispatch reading =>
      exact (yields_dispatch_starts represented.toConsistent reading).bind fun _ after starts =>
        yields_pure (shrinks after starts.queue)
  | authorizeCall reading itemId role repair prompt =>
      exact (yields_authorizeCall_reserves reading itemId role repair prompt).bind
        fun _ after reserves => yields_pure (shrinks after reserves.queue)
  | complete reading itemId =>
      exact (yields_complete_carried reading itemId).bind fun _ after carried =>
        yields_pure (shrinks after carried.queue)
  | fail reading itemId =>
      exact (yields_fail_carried reading itemId).bind fun _ after carried =>
        yields_pure (shrinks after carried.queue)
  | sweep reading =>
      exact (yields_sweep_carried reading).bind fun _ after carried =>
        yields_pure (shrinks after carried.queue)

theorem next_represented (policy : SchedulerPolicy) {state : State}
    (represented : Represented policy state) (call : Call) :
    Represented policy ((scheduler policy).next state call) := by
  refine ⟨(next_recorded policy represented.toConsistent call).consistent, ?_⟩
  change ((perform policy call).exec state).2.queue.length ≤ _
  rcases perform_settles policy represented.toConsistent call with
    ⟨failure, _, ran⟩ | ⟨answer, after, ran, recorded⟩
  · rw [ran]
    exact represented.bounded
  · rw [ran]
    exact yields_perform_bounded represented call answer after ran recorded.consistent

theorem run_represented (policy : SchedulerPolicy) (calls : List Call) :
    Represented policy ((scheduler policy).run .initial calls) :=
  (scheduler policy).run_invariant (fun _ => True) (Represented policy)
    (fun _ call _ represented => next_represented policy represented call) calls .initial
    (fun _ _ => trivial) (represented_initial policy)

/-- **The representation of the scheduler.** In every state that calls reach, the two indexes
list exactly the queue, no two queued items share an id, an identity or a group, the running
item's id and identity are not queued, and the queue is within its limit; and an admission that
supersedes an item for its version ends with the version queued. -/
theorem scheduler_represented (policy : SchedulerPolicy) (calls : List Call) :
    let state := (scheduler policy).run .initial calls
    Represented policy state ∧
      ∀ (reading : Option Moment) (version : OpportunityVersion) (result : AdmissionResult)
        (after : State), (admitVersion policy reading version).exec state = (.ok result, after) →
          KeepsSuccessor version result after := by
  intro state
  have represented := run_represented policy calls
  exact ⟨represented, fun reading version result after ran =>
    (yields_admitVersion represented reading version result after ran).2⟩

end CryptoRadar.Scheduler
