import CryptoRadar.Scheduler.Sweep

/-!
# The records of one change

An item that enters or leaves the queue, takes the slot or frees it goes on with its life, and the
record of the change says so (`Recorded`). What the operations make of these changes is in
`Scheduler.Slot`.
-/

set_option autoImplicit false

namespace CryptoRadar.Scheduler

open Program Invocation

/-! ## Admission -/

structure Recorded (before : State) (out : List Transition) (after : State) : Prop where
  consistent : Consistent after
  follows : Follows before out after

theorem Swept.recorded {before after : State} {out : List Transition}
    (swept : Swept before out after) : Recorded before out after :=
  ⟨swept.consistent, swept.follows⟩

theorem Recorded.trans {first second third : State} {out more : List Transition}
    (earlier : Recorded first out second) (later : Recorded second more third) :
    Recorded first (out ++ more) third :=
  ⟨later.consistent, earlier.follows.trans later.follows⟩

theorem Fresh.without {state : State} {version : OpportunityVersion} (fresh : Fresh state version)
    (entry : QueuedEntry) : Fresh (state.without entry) version where
  id item member := fresh.id item (Dict.mem_erase.mp member).1
  identity item member := fresh.identity item (Dict.mem_erase.mp member).1
  running := fresh.running

/-- No queued item has the group of the version. -/
def Lone (state : State) (version : OpportunityVersion) : Prop :=
  ∀ item ∈ state.queue, item.2.version.groupKey ≠ version.groupKey

section Admission

variable {policy : SchedulerPolicy} {state : State} {version : OpportunityVersion} {now : Moment}
  (consistent : Consistent state)
include consistent

/-- A queued entry that makes way for a version of the same admission. -/
theorem recorded_without {entry : QueuedEntry} (member : (entry.itemId, entry) ∈ state.queue)
    {record : Transition} (sameId : record.itemId = entry.itemId)
    (terminal : record.state.isTerminal) : Recorded state [record] (state.without entry) :=
  ⟨consistent.without member, consistent.follows_without member record sameId terminal⟩

/-- What `supersede` does: nothing without an incumbent of the group; with one, a refusal that
names it, or its removal. -/
theorem ends_supersede_cases :
    Ends (supersede version now) state fun result after =>
      (Lone state version ∧ result = .ok ([], none) ∧ after = state) ∨
        ∃ incumbent, (incumbent.itemId, incumbent) ∈ state.queue ∧
          incumbent.version.groupKey = version.groupKey ∧
          ((∃ refusal : ItemState, refusal.isTerminal ∧
              result = .error (refusal, incumbent.itemId) ∧ after = state) ∨
            (result = .ok ([⟨incumbent.itemId, .superseded, now, some version.itemId, none⟩],
                some incumbent.itemId) ∧ after = state.without incumbent)) := by
  refine ends_bind.mpr (ends_get.mpr ?_)
  cases grouped : state.byGroup.get? version.groupKey with
  | none => exact ends_pure.mpr (.inl ⟨consistent.byGroup_eq_none_iff.mp grouped, rfl, rfl⟩)
  | some incumbentId =>
      obtain ⟨incumbent, member, sameGroup⟩ := consistent.byGroup_eq_some grouped
      have keyed : incumbentId = incumbent.itemId := consistent.keyed _ member
      subst keyed
      simp only [consistent.get?_eq_some_iff.mpr member]
      split
      next =>
        exact ends_pure.mpr (.inr ⟨incumbent, member, sameGroup, .inl ⟨_, rfl, rfl, rfl⟩⟩)
      next =>
        split
        next =>
          exact ends_pure.mpr (.inr ⟨incumbent, member, sameGroup, .inl ⟨_, rfl, rfl, rfl⟩⟩)
        next =>
          refine (consistent.ends_remove member).bind fun removed after removal =>
            ends_pure.mpr ?_
          obtain ⟨rfl, rfl⟩ := removal
          exact .inr ⟨removed, member, sameGroup, .inr ⟨rfl, rfl⟩⟩

theorem ends_supersede (fresh : Fresh state version) :
    Ends (supersede version now) state fun result after =>
      match result with
      | .error (refusal, _) => refusal.isTerminal ∧ after = state
      | .ok (out, _) => Recorded state out after ∧ Fresh after version ∧ Lone after version := by
  refine (ends_supersede_cases consistent).mono fun result after outcome => ?_
  rcases outcome with ⟨lone, rfl, rfl⟩ | ⟨incumbent, member, sameGroup, outcome⟩
  · exact ⟨⟨consistent, .refl after⟩, fresh, lone⟩
  · rcases outcome with ⟨refusal, terminal, rfl, rfl⟩ | ⟨rfl, rfl⟩
    · exact ⟨terminal, rfl⟩
    · refine ⟨recorded_without consistent member rfl rfl, fresh.without _, fun item inside => ?_⟩
      obtain ⟨inQueue, otherId⟩ := Dict.mem_erase.mp inside
      rw [← sameGroup]
      exact fun same => otherId ((consistent.same_group_iff member inQueue).mp same)

/-- What `makeRoom` does: nothing below the limit; at the limit the worst queued item makes way
for a better entry, and the entry is the one to drop otherwise. -/
theorem ends_makeRoom_cases (entry : QueuedEntry) :
    Ends (makeRoom policy entry now) state fun result after =>
      (state.queue.length < policy.maxQueued ∧ result = .ok [] ∧ after = state) ∨
        (policy.maxQueued ≤ state.queue.length ∧ ∃ worst, (worst.itemId, worst) ∈ state.queue ∧
          (∀ item ∈ state.queue, rankKey item.2 ≤ rankKey worst) ∧
          ((rankKey entry < rankKey worst ∧
              result = .ok [⟨worst.itemId, .droppedBackpressure, now, some entry.itemId, none⟩] ∧
              after = state.without worst) ∨
            (¬ rankKey entry < rankKey worst ∧ result = .error worst.itemId ∧ after = state))) := by
  refine ends_bind.mpr (ends_get.mpr ?_)
  split
  next full =>
    cases chosen : (state.queue.map Prod.snd).argmax rankKey with
    | none =>
        have empty := List.map_eq_nil_iff.mp (List.argmax_eq_none.mp chosen)
        have positive := policy.queuedPositive
        rw [empty] at full
        exact absurd full (Nat.not_le_of_lt positive)
    | some worst =>
        have member := consistent.mem_of_value (List.argmax_mem chosen)
        have isWorst : ∀ item ∈ state.queue, rankKey item.2 ≤ rankKey worst := fun item inside =>
          List.le_of_mem_argmax (List.mem_map_of_mem inside) chosen
        by_cases better : rankKey entry < rankKey worst
        · simp only [better, if_true]
          refine (consistent.ends_remove member).bind fun removed after removal =>
            ends_pure.mpr ?_
          obtain ⟨rfl, rfl⟩ := removal
          exact .inr ⟨full, removed, member, isWorst, .inl ⟨better, rfl, rfl⟩⟩
        · simp only [better, if_false]
          exact ends_pure.mpr (.inr ⟨full, worst, member, isWorst, .inr ⟨better, rfl, rfl⟩⟩)
  next room => exact ends_pure.mpr (.inl ⟨Nat.lt_of_not_le room, rfl, rfl⟩)

theorem ends_makeRoom (entry : QueuedEntry) (fresh : Fresh state entry.version)
    (lone : Lone state entry.version) :
    Ends (makeRoom policy entry now) state fun result after =>
      match result with
      | .error _ => after = state
      | .ok out => Recorded state out after ∧ Fresh after entry.version ∧ Lone after entry.version := by
  refine (ends_makeRoom_cases consistent entry).mono fun result after outcome => ?_
  rcases outcome with ⟨_, rfl, rfl⟩ | ⟨_, worst, member, _, outcome⟩
  · exact ⟨⟨consistent, .refl after⟩, fresh, lone⟩
  · rcases outcome with ⟨_, rfl, rfl⟩ | ⟨_, rfl, rfl⟩
    · exact ⟨recorded_without consistent member rfl rfl, fresh.without _,
        fun item inside => lone item (Dict.mem_erase.mp inside).1⟩
    · rfl

end Admission

theorem Consistent.activeIdentity_of_mem {state : State} (consistent : Consistent state)
    {item : String × QueuedEntry} (member : item ∈ state.queue) :
    state.activeIdentity item.1 = some item.2.version.identity := by
  simp [State.activeIdentity, consistent.get?_eq_some_iff.mpr member]

theorem Consistent.activeIdentity_of_running {state : State} (consistent : Consistent state)
    {running : Running} (held : state.running = some running) :
    state.activeIdentity running.entry.itemId = some running.entry.version.identity := by
  have unqueued : state.queue.get? running.entry.itemId = none :=
    Dict.get?_eq_none_iff.mpr fun item member => (consistent.apart running held item member).1
  simp [State.activeIdentity, unqueued, held]

/-- After the sweep of an admission, a version whose identity is not active is fresh: an
active item of its id would have had its identity before the sweep already. -/
theorem Swept.fresh {before after : State} {out : List Transition} {version : OpportunityVersion}
    (consistent : Consistent before) (swept : Swept before out after)
    (current : ∀ identity ∈ before.activeIdentity version.itemId, identity = version.identity)
    (absent : after.existing version.identity = none) : Fresh after version := by
  unfold State.existing at absent
  cases indexed : after.byIdentity.get? version.identity with
  | some itemId => simp [indexed] at absent
  | none =>
      have noIdentity := swept.consistent.byIdentity_eq_none_iff.mp indexed
      have notRunning : ∀ running ∈ after.running,
          running.entry.version.identity ≠ version.identity := by
        intro running held same
        rw [show after.running = some running from held] at absent
        simp [indexed, same] at absent
      refine ⟨fun item member sameId => ?_, noIdentity, fun running held => ⟨fun sameId => ?_,
        notRunning running held⟩⟩
      · have active := consistent.activeIdentity_of_mem (swept.queue item member)
        rw [sameId] at active
        exact noIdentity item member (current _ active)
      · have entries := swept.running
        rw [show after.running = some running from held] at entries
        obtain ⟨earlier, heldBefore, sameEntry⟩ := Option.map_eq_some_iff.mp entries.symm
        have active := consistent.activeIdentity_of_running heldBefore
        rw [sameEntry, sameId] at active
        exact notRunning running held (current _ active)

/-- An id that passes the check of an admission names no active item, or one with the identity of
the version. -/
theorem activeIdentity_of_accepted {before : State} {version : OpportunityVersion}
    (accepted : ¬ ((before.activeIdentity version.itemId).isSome ∧
      before.activeIdentity version.itemId ≠ some version.identity))
    {identity : InvocationIdentity} (isCurrent : identity ∈ before.activeIdentity version.itemId) :
    identity = version.identity := by
  by_contra differs
  refine accepted ⟨?_, ?_⟩
  · rw [show before.activeIdentity version.itemId = some identity from isCurrent]
    rfl
  · rw [show before.activeIdentity version.itemId = some identity from isCurrent]
    simpa using differs

/-! ## Dispatch -/

/-- The fair choice does not raise and is a queued entry. -/
theorem fairChoice_isOk {policy : SchedulerPolicy} {now : Moment} {state : State}
    (consistent : Consistent state) (room : HasRoom policy now) (slot : Nat) :
    ∃ choice, fairChoice policy now state slot = .ok choice ∧
      ∀ entry ∈ choice, (entry.itemId, entry) ∈ state.queue := by
  have decided : ∀ entry ∈ state.queue.map Prod.snd, ∃ fits, (if entry.band = .eligible then
      pathFits policy entry.path now entry.deadline else .ok false) = .ok fits := by
    intro entry member
    split
    next =>
      exact pathFits_isOk entry.deadline room (consistent.paths _ (consistent.mem_of_value member))
    next => exact ⟨false, rfl⟩
  obtain ⟨kept, selected, inside⟩ := Checked.select_isOk decided
  unfold fairChoice
  rw [selected]
  split
  next =>
    refine ⟨kept.argmin fairKey, rfl, fun entry chosen => ?_⟩
    exact consistent.mem_of_value (inside entry (List.argmin_mem chosen))
  next => exact ⟨none, rfl, fun _ member => by cases member⟩

/-- The state in which a queued entry has taken the free slot. -/
def State.started (state : State) (entry : QueuedEntry) (slot : Nat) (now : Moment) : State :=
  { state.without entry with
    slotsUsed := slot
    running := some ⟨entry, now, 0, 0, 0, 0, false⟩ }

/-- A queued entry that takes the free slot goes on with its life. -/
theorem Consistent.recorded_started {state : State} (consistent : Consistent state)
    (free : state.running = none) {entry : QueuedEntry}
    (member : (entry.itemId, entry) ∈ state.queue) (slot : Nat) (now : Moment) :
    Recorded state [⟨entry.itemId, .running, now, none, none⟩] (state.started entry slot now) := by
  refine ⟨(consistent.without member).of_same_queue rfl rfl rfl ?_, ?_⟩
  · intro running held item inside
    cases held
    obtain ⟨inQueue, otherId⟩ := Dict.mem_erase.mp inside
    exact ⟨otherId, fun same => otherId ((consistent.same_identity_iff member inQueue).mp same)⟩
  · have closed := consistent.openStates_without member
    have idle : ∀ itemId, (state.without entry).runs itemId = false := by
      intro itemId
      simp [State.runs, State.without, free]
    refine .of_record _ ?_ fun itemId differs => ?_
    · have unqueued : (state.started entry slot now).queue.get? entry.itemId = none :=
        Dict.get?_eq_none_iff.mpr fun item inside => (Dict.mem_erase.mp inside).2
      have runs : (state.started entry slot now).runs entry.itemId = true := by
        simp [State.runs, State.started]
      have started : (state.started entry slot now).openStates entry.itemId =
          [.queued, .running] := by
        simp [State.openStates, unqueued, runs]
      rw [started, consistent.openStates_of_mem member]
      exact .refl _
    · have differs : itemId ≠ entry.itemId := differs
      have runs : (state.started entry slot now).runs itemId = false := by
        simp [State.runs, State.started, Ne.symm differs]
      have same := closed itemId
      rw [if_neg differs] at same
      rw [← same]
      unfold State.openStates
      rw [runs, idle]
      rfl

/-! ## Calls and the end of a run -/

/-- The slot keeps its item and its abortion. -/
theorem Consistent.recorded_charged {state : State} (consistent : Consistent state)
    {running : Running} (held : state.running = some running) (charged : Running)
    (sameEntry : charged.entry = running.entry) (sameAborted : charged.aborted = running.aborted) :
    Recorded state [] { state with running := some charged } := by
  refine ⟨consistent.of_same_queue rfl rfl rfl fun later isLater item member => ?_, ?_⟩
  · cases isLater
    rw [sameEntry]
    exact consistent.apart running held item member
  · refine .of_same fun itemId => ?_
    simp only [State.openStates, State.runs, held, Option.any_some, sameEntry, sameAborted]

theorem callEnd_isOk {policy : SchedulerPolicy} {now : Moment} (room : HasRoom policy now)
    (role : Role) : ∃ ends, callEnd policy role now = .ok ends := by
  have single : policy.pathSeconds [role] ≤ policy.maxSpanSeconds :=
    policy.pathSeconds_le (List.nodup_singleton role)
  simp only [SchedulerPolicy.pathSeconds, List.map_cons, List.map_nil, List.sum_cons,
    List.sum_nil, Nat.add_zero] at single
  have timeout : (policy.roleProfiles role).hardTimeoutSeconds ≤ policy.maxSpanSeconds := by omega
  obtain ⟨callDeadline, first⟩ := room.plus? timeout
  obtain ⟨last, both⟩ := room.plus? single
  have second : callDeadline.plus? (Moment.seconds policy.finalizationReserveSeconds) =
      some last := by
    rw [Moment.plus?_eq_some] at first both ⊢
    simp only [Moment.seconds] at first both ⊢
    push_cast at both
    omega
  refine ⟨(callDeadline, last), ?_⟩
  unfold callEnd
  rw [first]
  simp only [Checked.require]
  change (Checked.require Raise.overflow _ >>= _) = _
  rw [second]
  rfl

/-- The state with a free slot. -/
def State.freed (state : State) : State := { state with running := none }

/-- Freeing the slot ends the life of the running item, unless it was aborted: then its life
has ended already and there is no record. -/
theorem Consistent.follows_freed {state : State} (consistent : Consistent state)
    {running : Running} (held : state.running = some running) (record : Transition)
    (sameId : record.itemId = running.entry.itemId) (terminal : record.state.isTerminal) :
    Follows state (if running.aborted then [] else [record]) state.freed := by
  have unqueued : state.queue.get? running.entry.itemId = none :=
    Dict.get?_eq_none_iff.mpr fun item member => (consistent.apart running held item member).1
  have unqueuedAfter : state.freed.queue.get? running.entry.itemId = none := unqueued
  have idleAfter : ∀ itemId, state.freed.runs itemId = false := fun _ => rfl
  cases aborted : running.aborted with
  | true =>
      refine .of_same fun itemId => ?_
      have idle : state.runs itemId = false := by simp [State.runs, held, aborted]
      unfold State.openStates
      rw [idle, idleAfter]
      rfl
  | false =>
      refine .of_record record ?_ fun itemId differs => ?_
      · have ran : state.runs running.entry.itemId = true := by simp [State.runs, held, aborted]
        have before : state.openStates running.entry.itemId = [.queued, .running] := by
          simp [State.openStates, unqueued, ran]
        have after : state.freed.openStates running.entry.itemId = [] := by
          simp [State.openStates, unqueuedAfter, idleAfter]
        rw [sameId, before, after]
        exact .one (.ended true record.state) terminal
      · have differs : itemId ≠ running.entry.itemId := sameId ▸ differs
        have idle : state.runs itemId = false := by simp [State.runs, held, Ne.symm differs]
        unfold State.openStates
        rw [idle, idleAfter]
        rfl

end CryptoRadar.Scheduler
