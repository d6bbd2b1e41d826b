import CryptoRadar.Scheduler.Told

/-!
# What the operations tell, and the slot

Each operation of the scheduler tells its client which items it closed, and it does one thing
to the slot: a dispatch fills a free slot with the item it names (`Takes`), a completion or a
failure frees it (`Frees`), and every other operation leaves its item in it. An admission opens
the item of its version when it says so, and then makes no terminal record of it (`Admits`).

A completion is publishable only when the clock it read is before the deadline of the item.
-/

set_option autoImplicit false

namespace CryptoRadar.Scheduler

open Program Invocation

/-! ## Operations -/

section Operations

variable {policy : SchedulerPolicy} {state : State} (consistent : Consistent state)
include consistent

/-- What a dispatch does to the slot: nothing, or the free slot takes the item it names. -/
def Takes (before : State) (dispatched : Option Dispatched) (after : State) : Prop :=
  match dispatched with
  | none => after.slot = before.slot
  | some given => before.running = none ∧ ∃ running, after.running = some running ∧
      running.aborted = false ∧ running.entry.itemId = given.itemId ∧
      running.entry.deadline = given.deadline

theorem settles_dispatch_told (reading : Option Moment) :
    Settles IsRefusal (dispatch policy reading) state fun result after =>
      Told state result.transitions after ∧ Takes state result.dispatched after := by
  refine (settles_readClock policy state reading).bind _ fun now room => ?_
  refine ((ends_begin_told consistent room).bind fun out middle begun => ?_).settles
  obtain ⟨swept, told, _⟩ := begun
  refine ends_bind.mpr (ends_get.mpr ?_)
  split
  next => exact ends_pure.mpr ⟨told, swept.running⟩
  next notBusy =>
    split
    next => exact ends_pure.mpr ⟨told, swept.running⟩
    next =>
      have free : middle.running = none := by simpa using notBusy
      obtain ⟨fair, isFair, fairInQueue⟩ :=
        fairChoice_isOk swept.consistent room (middle.slotsUsed + 1)
      refine ends_bind.mpr (ends_lift.mpr ⟨fair, isFair, ?_⟩)
      cases chosen : fair.or ((middle.queue.map Prod.snd).argmin rankKey) with
      | none => exact ends_pure.mpr ⟨told, swept.running⟩
      | some entry =>
          have member : (entry.itemId, entry) ∈ middle.queue := by
            rcases Option.or_eq_some_iff.mp chosen with isFair | ⟨_, isBest⟩
            · exact fairInQueue entry isFair
            · exact swept.consistent.mem_of_value (List.argmin_mem isBest)
          have wasFree : state.running = none := by
            have entries := swept.running
            rw [free] at entries
            simpa using entries.symm
          refine ends_bind.mpr (ends_set.mpr ?_)
          have counted : Consistent { middle with slotsUsed := middle.slotsUsed + 1 } :=
            swept.consistent.of_same_queue rfl rfl rfl swept.consistent.apart
          refine (counted.ends_remove member).bind fun removed last removal => ?_
          obtain ⟨rfl, rfl⟩ := removal
          refine ends_bind.mpr (ends_get.mpr (ends_bind.mpr (ends_set.mpr (ends_pure.mpr ?_))))
          exact ⟨told.trans (swept.consistent.told_started free member _ _), wasFree, _, rfl, rfl,
            rfl, rfl⟩

theorem settles_authorizeCall_told (reading : Option Moment) (itemId : String) (role : Role)
    (repair : Bool) (prompt : Nat) :
    Settles IsRefusal (authorizeCall policy reading itemId role repair prompt) state
      fun result after => Told state result.transitions after ∧ after.slot = state.slot := by
  refine (settles_requireText state itemId).bind _ fun _ _ => ?_
  refine (settles_readClock policy state reading).bind _ fun now room => ?_
  refine ((ends_begin_told consistent room).bind fun out middle begun => ?_).settles
  obtain ⟨swept, told, _⟩ := begun
  refine ends_bind.mpr (ends_get.mpr ?_)
  cases held : middle.running with
  | none => exact ends_pure.mpr ⟨told, swept.running⟩
  | some running =>
      dsimp only
      split
      next => exact ends_pure.mpr ⟨told, swept.running⟩
      next =>
        cases callRefusal policy running role repair prompt with
        | some reason => exact ends_pure.mpr ⟨told, swept.running⟩
        | none =>
            obtain ⟨⟨callDeadline, last⟩, computed⟩ := callEnd_isOk room role
            refine ends_bind.mpr (ends_lift.mpr ⟨_, computed, ?_⟩)
            dsimp only
            split
            next => exact ends_pure.mpr ⟨told, swept.running⟩
            next =>
              refine ends_bind.mpr (ends_set.mpr (ends_pure.mpr ⟨?_, ?_⟩))
              · refine ⟨?_, fun itemId => ?_⟩
                · have charged := told.toRecorded.trans
                    (swept.consistent.recorded_charged held
                      { running with
                        invocations := running.invocations + 1
                        repairs := running.repairs + if repair then 1 else 0
                        promptTokens := running.promptTokens + prompt
                        outputTokens := running.outputTokens +
                          (policy.roleProfiles role).outputCapTokens } rfl rfl)
                  rwa [List.append_nil] at charged
                · rw [← told.opened]
                  simp [State.openEntry, held]
              · have entries := swept.running
                rw [held] at entries
                exact entries

omit consistent in
theorem yields_readClock (reading : Option Moment) :
    Yields (readClock policy reading) state fun now _ => reading = some now := by
  cases reading with
  | none => exact yields_throw
  | some moment =>
      unfold readClock
      dsimp only
      split
      next => exact yields_throw
      next =>
        refine yields_get_bind ?_
        cases state.lastNow with
        | none => exact yields_pure rfl
        | some last =>
            dsimp only
            split
            next => exact yields_throw
            next => exact yields_pure rfl

omit consistent in
/-- Past its deadline the running item is aborted. -/
theorem yields_abortRunning_late (now : Moment) (reason : StaleReason) :
    Yields (abortRunning now reason) state fun _ after => ∀ running ∈ after.running,
      running.aborted = false → now < running.entry.deadline := by
  refine yields_get_bind ?_
  cases held : state.running with
  | none =>
      refine yields_pure fun running isHeld => ?_
      rw [held] at isHeld
      cases isHeld
  | some running =>
      dsimp only
      split
      next =>
        refine yields_set_bind (yields_pure fun later isHeld active => ?_)
        cases isHeld
        cases active
      next timely =>
        refine yields_pure fun later isHeld active => ?_
        rw [held] at isHeld
        cases isHeld
        simpa [active] using timely

omit consistent in
/-- An item that runs and is not aborted ran before and was not aborted, and has no record. -/
theorem Recorded.active {before after : State} {out : List Transition}
    (recorded : Recorded before out after) (wasConsistent : Consistent before)
    (sameSlot : after.slot = before.slot) {running : Running}
    (held : after.running = some running) (active : running.aborted = false)
    (told : after.openEntry running.entry.itemId = if closes out running.entry.itemId then none
      else before.openEntry running.entry.itemId) :
    (∃ earlier, before.running = some earlier ∧ earlier.entry = running.entry ∧
      earlier.aborted = false) ∧ statesOf running.entry.itemId out = [] := by
  have slotted : before.slot = some running.entry := by
    rw [← sameSlot]
    simp [State.slot, held]
  obtain ⟨earlier, heldBefore, sameEntry⟩ := Option.map_eq_some_iff.mp slotted
  have isOpen := recorded.consistent.openEntry_of_running held
  have wasOpen := wasConsistent.openEntry_of_running heldBefore
  rw [active, if_neg (by decide)] at isOpen
  rw [sameEntry] at wasOpen
  rw [isOpen, wasOpen] at told
  have unclosed : closes out running.entry.itemId = false := by
    cases closed : closes out running.entry.itemId with
    | true => simp [closed] at told
    | false => rfl
  have wasActive : earlier.aborted = false := by
    cases aborted : earlier.aborted with
    | true => simp [aborted] at told
    | false => rfl
  refine ⟨⟨earlier, heldBefore, sameEntry, wasActive⟩, ?_⟩
  have nothing := (recorded.follows running.entry.itemId).eq_of_open fun state member =>
    (List.mem_append.mp member).elim (before.openStates_unended _ state)
      (closes_eq_false_iff.mp unclosed state)
  have states := wasConsistent.openStates_of_running heldBefore wasActive
  rw [sameEntry] at states
  rw [recorded.consistent.openStates_of_running held active, states] at nothing
  exact List.append_right_eq_self.mp nothing

omit consistent in
theorem State.runs_iff {itemId : String} : state.runs itemId = true ↔ ∃ running,
    state.running = some running ∧ running.entry.itemId = itemId ∧ running.aborted = false := by
  simp [State.runs, Option.any_eq_true]

omit consistent in
theorem Recorded.runs {before after : State} {out : List Transition}
    (recorded : Recorded before out after) (wasConsistent : Consistent before)
    (sameSlot : after.slot = before.slot)
    (told : ∀ running ∈ after.running, after.openEntry running.entry.itemId =
      if closes out running.entry.itemId then none else before.openEntry running.entry.itemId)
    {itemId : String} (runs : after.runs itemId = true) :
    before.runs itemId = true ∧ statesOf itemId out = [] := by
  obtain ⟨running, held, rfl, active⟩ := State.runs_iff.mp runs
  obtain ⟨⟨earlier, heldBefore, sameEntry, wasActive⟩, quiet⟩ :=
    recorded.active wasConsistent sameSlot held active (told running held)
  exact ⟨State.runs_iff.mpr ⟨earlier, heldBefore, by rw [sameEntry], wasActive⟩, quiet⟩

/-- The slot held the item, and its item is publishable only before its deadline. -/
structure Frees (reading : Option Moment) (itemId : String) (before : State)
    (result : CompletionResult) (after : State) : Prop where
  free : after.running = none
  held : before.slot.map QueuedEntry.itemId = some itemId
  timely : result.publishable = true → statesOf itemId result.transitions = [.completed] ∧
    ∃ now entry, reading = some now ∧ before.openEntry itemId = some entry ∧ now < entry.deadline

theorem ends_freeSlot_told {middle : State} {out : List Transition} (told : Told state out middle)
    (sameSlot : middle.slot = state.slot) {running : Running} (held : state.running = some running)
    {itemId : String} (sameId : running.entry.itemId = itemId) {now : Moment} {last : ItemState}
    (terminal : last.isTerminal) {publishable : Bool}
    (timely : publishable → last = .completed ∧
      ∀ later ∈ middle.running, later.aborted = false → now < later.entry.deadline) :
    Ends (freeSlot itemId now last publishable out) middle fun result after =>
      Told state result.transitions after ∧ Frees (some now) itemId state result after := by
  subst sameId
  have slotted : state.slot = some running.entry := by simp [State.slot, held]
  rw [slotted] at sameSlot
  obtain ⟨later, heldLater, sameEntry⟩ := Option.map_eq_some_iff.mp sameSlot
  have freed := told.consistent.told_freed heldLater
    ⟨running.entry.itemId, last, now, none, none⟩ (by rw [sameEntry]) terminal
  have wasHeld : state.slot.map QueuedEntry.itemId = some running.entry.itemId := by
    rw [slotted]
    rfl
  refine ends_bind.mpr (ends_get.mpr (ends_bind.mpr (ends_set.mpr ?_)))
  rw [heldLater]
  cases aborted : later.aborted with
  | true =>
      rw [aborted, if_pos rfl] at freed
      simp only [Option.map_some, aborted, Option.getD_some, if_true]
      have whole := told.trans freed
      rw [List.append_nil] at whole
      exact ends_pure.mpr ⟨whole, rfl, wasHeld, fun published => by cases published⟩
  | false =>
      rw [aborted, if_neg (by decide)] at freed
      simp only [Option.map_some, aborted, Option.getD_some]
      refine ends_pure.mpr ⟨told.trans freed, rfl, wasHeld, fun published => ?_⟩
      obtain ⟨isCompleted, inTime⟩ := timely published
      obtain ⟨⟨earlier, heldBefore, _, active⟩, quiet⟩ := told.toRecorded.active consistent
        (sameSlot.trans slotted.symm) heldLater aborted (told.opened _)
      cases held.symm.trans heldBefore
      have isOpen := consistent.openEntry_of_running held
      rw [active, if_neg (by decide)] at isOpen
      refine ⟨?_, now, running.entry, rfl, isOpen, ?_⟩
      · rw [sameEntry] at quiet
        rw [statesOf_append, quiet, List.nil_append, statesOf_singleton, if_pos rfl, isCompleted]
      · rw [← sameEntry]
        exact inTime later heldLater aborted

theorem settles_complete_told (reading : Option Moment) (itemId : String) :
    Settles IsRefusal (complete policy reading itemId) state fun result after =>
      Told state result.transitions after ∧ Frees reading itemId state result after := by
  refine (settles_requireText state itemId).bind _ fun _ _ => ?_
  have clock : Settles IsRefusal (readClock policy reading) state fun now after =>
      after = state ∧ HasRoom policy now ∧ reading = some now :=
    ((settles_readClock policy state reading).and_yields (yields_readClock reading)).mono
      fun _ _ holds => ⟨holds.1.1, holds.1.2, holds.2⟩
  refine clock.bind _ fun now accepted => ?_
  obtain ⟨room, rfl⟩ := accepted
  refine (settles_requireRunning state itemId).bind _ fun running found => Ends.settles ?_
  obtain ⟨held, sameId⟩ := found
  unfold recordNow
  rw [bind_assoc]
  refine ends_bind.mpr (ends_get.mpr (ends_bind.mpr (ends_set.mpr ?_)))
  have recorded := consistent.recorded now
  refine ((ends_abortRunning recorded.consistent now .lateResult).and_yields
    ((yields_abortRunning_closing recorded.consistent now .lateResult).and
      (yields_abortRunning_late now .lateResult))).bind fun late middle aborting => ?_
  obtain ⟨aborted, ⟨ending, _⟩, timely⟩ := aborting
  have toldLate := aborted.told recorded.consistent fun record member => (ending record member).1
  refine ((ends_sweepExpired aborted.consistent room).and_yields
    (yields_sweepExpired_closing aborted.consistent now)).bind fun out after sweeping => ?_
  obtain ⟨swept, closing⟩ := sweeping
  have toldSwept := swept.told aborted.consistent fun record member => (closing record member).1
  have told : Told state (late ++ out) after := by
    have first : Told state [] { state with lastNow := some now } :=
      recorded.told consistent fun _ member => by cases member
    exact first.trans (toldLate.trans toldSwept)
  refine ends_freeSlot_told consistent told (swept.running.trans aborted.running) held sameId rfl
    fun _ => ⟨rfl, fun later heldLater active => ?_⟩
  obtain ⟨⟨earlier, heldMiddle, sameEntry, wasActive⟩, _⟩ := toldSwept.toRecorded.active
    aborted.consistent swept.running heldLater active (toldSwept.opened _)
  rw [← sameEntry]
  exact timely earlier heldMiddle wasActive

theorem settles_fail_told (reading : Option Moment) (itemId : String) :
    Settles IsRefusal (fail policy reading itemId) state fun result after =>
      Told state result.transitions after ∧ after.running = none ∧
        state.slot.map QueuedEntry.itemId = some itemId := by
  refine (settles_requireText state itemId).bind _ fun _ _ => ?_
  refine (settles_readClock policy state reading).bind _ fun now room => ?_
  refine (settles_requireRunning state itemId).bind _ fun running found => Ends.settles ?_
  obtain ⟨held, sameId⟩ := found
  refine (ends_begin_told consistent room).bind fun out after begun => ?_
  obtain ⟨swept, told, _⟩ := begun
  refine Ends.mono (ends_freeSlot_told consistent told swept.running held sameId rfl ?_) ?_
  · intro published
    cases published
  · intro result last holds
    exact ⟨holds.1, holds.2.free, holds.2.held⟩

/-! ## Admission -/

theorem openEntry_of_activeIdentity {itemId : String} (inactive : state.activeIdentity itemId = none) :
    state.openEntry itemId = none := by
  cases isOpen : state.openEntry itemId with
  | none => rfl
  | some entry =>
      rcases State.openEntry_eq_some isOpen with queued | ⟨running, held, rfl, rfl, _⟩
      · have active := consistent.activeIdentity_of_mem (consistent.get?_eq_some_iff.mp queued)
        cases inactive.symm.trans active
      · cases inactive.symm.trans (consistent.activeIdentity_of_running held)

end Operations

theorem Fresh.openEntry_eq_none {state : State} {version : OpportunityVersion}
    (fresh : Fresh state version) : state.openEntry version.itemId = none :=
  State.openStates_eq_nil_iff.mp fresh.openStates_eq_nil

theorem Fresh.activeIdentity_eq_none {state : State} {version : OpportunityVersion}
    (fresh : Fresh state version) : state.activeIdentity version.itemId = none := by
  have unqueued : state.queue.get? version.itemId = none := Dict.get?_eq_none_iff.mpr fresh.id
  unfold State.activeIdentity
  rw [unqueued]
  cases held : state.running with
  | none => rfl
  | some running => simp [(fresh.running running held).1]

/-- An admission that opens the item of its version, with the deadline of its horizon. -/
structure Opens (policy : SchedulerPolicy) (before : State) (version : OpportunityVersion)
    (out : List Transition) (after : State) : Prop extends Recorded before out after where
  closed : before.openEntry version.itemId = none
  idle : ∀ running ∈ before.running, running.entry.itemId ≠ version.itemId
  unended : closes out version.itemId = false
  opened : ∃ entry : QueuedEntry, entry.version = version ∧
    entry.deadline.micros = version.origin.micros +
      Moment.seconds (policy.horizonLimits version.horizon).analysisDeadlineSeconds ∧
    ∀ itemId, after.openEntry itemId = if itemId = version.itemId then some entry
      else if closes out itemId then none else before.openEntry itemId

/-- An admission opens the item of its version and says so, or opens nothing. -/
def Admits (policy : SchedulerPolicy) (before : State) (version : OpportunityVersion)
    (result : AdmissionResult) (out : List Transition) (after : State) : Prop :=
  after.slot = before.slot ∧
    if result.status = .admitted then
      result.itemId = version.itemId ∧ Opens policy before version out after
    else Told before out after

/-- Records that end open items, and touch nothing else. -/
structure Clears (before : State) (out : List Transition) (after : State) : Prop
    extends Told before out after where
  closing : Closing before out
  slot : after.slot = before.slot

theorem Consistent.clears {state : State} (consistent : Consistent state) : Clears state [] state :=
  ⟨consistent.told, fun _ member => (by cases member), rfl⟩

theorem Clears.trans {first second third : State} {out more : List Transition}
    (earlier : Clears first out second) (later : Clears second more third) :
    Clears first (out ++ more) third := by
  refine ⟨earlier.toTold.trans later.toTold, ?_, later.slot.trans earlier.slot⟩
  intro record member
  rcases List.mem_append.mp member with old | new
  · exact earlier.closing record old
  · obtain ⟨terminal, isOpen⟩ := later.closing record new
    refine ⟨terminal, fun closed => isOpen ?_⟩
    rw [earlier.opened, closed]
    split <;> rfl

section Admission

variable {policy : SchedulerPolicy} {before middle after : State} {version : OpportunityVersion}
  {out more : List Transition}

theorem Clears.opens (clears : Clears before out middle)
    (closed : before.openEntry version.itemId = none)
    (opens : Opens policy middle version more after) :
    Opens policy before version (out ++ more) after := by
  have unended := clears.closing.closes_eq_false closed
  obtain ⟨entry, isVersion, deadline, opened⟩ := opens.opened
  refine ⟨clears.toRecorded.trans opens.toRecorded, closed, fun running held => ?_, ?_, entry,
    isVersion, deadline, fun itemId => ?_⟩
  · have slotted : middle.slot = some running.entry := by
      rw [clears.slot]
      exact Option.map_eq_some_iff.mpr ⟨running, held, rfl⟩
    obtain ⟨later, isLater, sameEntry⟩ := Option.map_eq_some_iff.mp slotted
    rw [← sameEntry]
    exact opens.idle later isLater
  · rw [closes_append, unended, opens.unended]
    rfl
  · rw [opened, clears.opened, closes_append]
    cases closes out itemId <;> cases closes more itemId <;> rfl

theorem Clears.admits {result : AdmissionResult} (clears : Clears before out middle)
    (closed : before.openEntry version.itemId = none)
    (admits : Admits policy middle version result more after) :
    Admits policy before version result (out ++ more) after := by
  obtain ⟨slot, outcome⟩ := admits
  refine ⟨slot.trans clears.slot, ?_⟩
  split at outcome
  next admitted =>
    rw [if_pos admitted]
    exact ⟨outcome.1, clears.opens closed outcome.2⟩
  next other =>
    rw [if_neg other]
    exact clears.toTold.trans outcome

theorem Consistent.opens_withEntry {state : State} (consistent : Consistent state)
    {entry : QueuedEntry} (fresh : Fresh state entry.version) (lone : Lone state entry.version)
    (path : entry.path.Nodup) (deadline : entry.deadline.micros = entry.version.origin.micros +
      Moment.seconds (policy.horizonLimits entry.version.horizon).analysisDeadlineSeconds)
    {record : Transition} (sameId : record.itemId = entry.itemId) (queued : record.state = .queued) :
    Opens policy state entry.version [record] (state.withEntry entry) := by
  have kept := consistent.withEntry fresh lone path
  have unclosed : ∀ itemId, closes [record] itemId = false := by
    intro itemId
    simp [closes_singleton, queued, ItemState.isTerminal]
  refine ⟨⟨kept, follows_withEntry fresh record sameId queued⟩, fresh.openEntry_eq_none,
    fun running held => (fresh.running running held).1, unclosed _, entry, rfl, deadline, fun itemId => ?_⟩
  simp only [unclosed, Bool.false_eq_true, if_false]
  by_cases same : itemId = entry.version.itemId
  · subst same
    rw [if_pos rfl]
    exact kept.openEntry_of_mem (List.mem_append_right _ List.mem_cons_self)
  · rw [if_neg same]
    have found : (state.withEntry entry).queue.get? itemId = state.queue.get? itemId := by
      have differs : ¬ entry.itemId = itemId := Ne.symm same
      simp [Dict.get?, State.withEntry, List.find?_append, differs]
    unfold State.openEntry
    rw [found]
    rfl

variable {state : State} (consistent : Consistent state) {now : Moment}
include consistent

theorem Consistent.clears_without {entry : QueuedEntry}
    (member : (entry.itemId, entry) ∈ state.queue) {record : Transition}
    (sameId : record.itemId = entry.itemId) (terminal : record.state.isTerminal) :
    Clears state [record] (state.without entry) := by
  refine ⟨consistent.told_without member sameId terminal, ?_, rfl⟩
  intro other isRecord
  rw [List.mem_singleton.mp isRecord, sameId, consistent.openEntry_of_mem member]
  exact ⟨terminal, Option.some_ne_none _⟩

theorem ends_supersede_clears (fresh : Fresh state version) :
    Ends (supersede version now) state fun result after =>
      match result with
      | .error (refusal, _) => refusal.isTerminal ∧ after = state
      | .ok (out, _) => Clears state out after ∧ Fresh after version ∧ Lone after version := by
  refine ((ends_supersede_cases consistent).and_yields
    (ends_supersede consistent fresh).yields).mono fun result after outcome => ?_
  obtain ⟨outcome, settled⟩ := outcome
  rcases outcome with ⟨_, rfl, rfl⟩ | ⟨incumbent, member, _, ⟨refusal, _, rfl, rfl⟩ | ⟨rfl, rfl⟩⟩
  · exact ⟨consistent.clears, settled.2⟩
  · exact settled
  · exact ⟨consistent.clears_without member rfl rfl, settled.2⟩

theorem ends_makeRoom_clears (entry : QueuedEntry) (fresh : Fresh state entry.version)
    (lone : Lone state entry.version) :
    Ends (makeRoom policy entry now) state fun result after =>
      match result with
      | .error _ => after = state
      | .ok out => Clears state out after ∧ Fresh after entry.version ∧ Lone after entry.version := by
  refine ((ends_makeRoom_cases consistent entry).and_yields
    (ends_makeRoom consistent entry fresh lone).yields).mono fun result after outcome => ?_
  obtain ⟨outcome, settled⟩ := outcome
  rcases outcome with ⟨_, rfl, rfl⟩ | ⟨_, worst, member, _, ⟨_, rfl, rfl⟩ | ⟨_, rfl, rfl⟩⟩
  · exact ⟨consistent.clears, settled.2⟩
  · exact ⟨consistent.clears_without member rfl rfl, settled.2⟩
  · rfl

/-- A refused version is told with one record. -/
theorem Fresh.admits_refused (fresh : Fresh state version) (dropped : List Role)
    (deadline : Moment) (out : List Transition) {refusal : ItemState} (related : Option String)
    (reason : Option StaleReason) (terminal : refusal.isTerminal) :
    Admits policy state version (refused version dropped deadline now out refusal related reason)
      [⟨version.itemId, refusal, now, related, reason⟩] state :=
  ⟨rfl, fresh.told_refused consistent rfl terminal⟩

/-- The records of an admission come after those of its sweep. -/
theorem ends_admitFresh_admits (room : HasRoom policy now) (fresh : Fresh state version)
    {path : List Role} (distinct : path.Nodup) (dropped : List Role) {deadline : Moment}
    (isDeadline : deadline.micros = version.origin.micros +
      Moment.seconds (policy.horizonLimits version.horizon).analysisDeadlineSeconds)
    (out : List Transition) :
    Ends (admitFresh policy version path dropped deadline now out) state fun result after =>
      ∃ more, result.transitions = out ++ more ∧ Admits policy state version result more after := by
  unfold admitFresh
  split
  next => exact ends_pure.mpr ⟨_, rfl, fresh.admits_refused consistent _ _ _ _ _ rfl⟩
  next =>
    split
    next => exact ends_pure.mpr ⟨_, rfl, fresh.admits_refused consistent _ _ _ _ _ rfl⟩
    next band isBand =>
      split
      next => exact ends_pure.mpr ⟨_, rfl, fresh.admits_refused consistent _ _ _ _ _ rfl⟩
      next =>
        obtain ⟨fits, computed⟩ := pathFits_isOk deadline room distinct
        refine ends_bind.mpr (ends_lift.mpr ⟨fits, computed, ?_⟩)
        cases fits with
        | false =>
            refine ends_pure.mpr ⟨_, rfl, fresh.admits_refused consistent _ _ _ _ _ ?_⟩
            unfold unfitState
            split <;> rfl
        | true =>
            refine (ends_supersede_clears consistent fresh).bind fun result middle settled => ?_
            match result, settled with
            | .error (refusal, incumbentId), ⟨terminal, same⟩ =>
                subst same
                exact ends_pure.mpr ⟨_, rfl, fresh.admits_refused consistent _ _ _ _ _ terminal⟩
            | .ok (superseded, supersedes), ⟨cleared, freshLater, lone⟩ =>
                refine (ends_makeRoom_clears cleared.consistent
                  ⟨version, band, deadline, now, path, supersedes⟩ freshLater lone).bind
                    fun result last settled => ?_
                match result, settled with
                | .error worstId, same =>
                    subst same
                    refine ends_pure.mpr ⟨superseded ++ _, by simp [refused]; rfl, ?_⟩
                    exact cleared.admits fresh.openEntry_eq_none
                      (freshLater.admits_refused cleared.consistent _ _ _ _ _ rfl)
                | .ok dropouts, ⟨roomy, freshLast, loneLast⟩ =>
                    refine (roomy.consistent.ends_insert freshLast loneLast).bind
                      fun _ final inserted => ends_pure.mpr ?_
                    subst inserted
                    refine ⟨(superseded ++ dropouts) ++
                      [⟨version.itemId, .queued, now, supersedes, none⟩], by simp, ?_⟩
                    refine (cleared.trans roomy).admits fresh.openEntry_eq_none ⟨rfl, rfl, ?_⟩
                    exact roomy.consistent.opens_withEntry freshLast loneLast distinct isDeadline
                      rfl rfl

/-- **An admission opens the item of its version, or its records tell all.** -/
theorem settles_admitVersion_told (reading : Option Moment) (version : OpportunityVersion) :
    Settles IsRefusal (admitVersion policy reading version) state fun result after =>
      Admits policy state version result result.transitions after := by
  refine (settles_readClock policy state reading).bind _ fun now room => ?_
  refine Settles.bind (fun read => read = state) (ends_get.mpr ⟨rfl, rfl⟩).settles ?_
  rintro before rfl
  dsimp only
  split
  next => exact settles_raise _
  next current =>
    have sameIdentity : ∀ identity ∈ before.activeIdentity version.itemId,
        identity = version.identity := fun identity => activeIdentity_of_accepted current
    refine ((ends_deadlineOf policy before version).bind fun deadline start computed => ?_).settles
    obtain ⟨rfl, isDeadline⟩ := computed
    refine (ends_begin_told consistent room).bind fun out middle begun => ?_
    obtain ⟨swept, told, closing⟩ := begun
    have clears : Clears start out middle := ⟨told, closing, swept.running⟩
    refine ends_bind.mpr (ends_get.mpr ?_)
    split
    next => exact ends_pure.mpr ⟨swept.running, told⟩
    next replayed =>
      cases existing : middle.existing version.identity with
      | some found => exact ends_pure.mpr ⟨swept.running, told⟩
      | none =>
          have fresh := swept.fresh consistent sameIdentity existing
          have distinct : (enabledPath policy version.requestedRoles).1.Nodup :=
            version.distinctRoles.filter _
          have inactive : start.activeIdentity version.itemId = none := by
            simpa [fresh.activeIdentity_eq_none] using replayed
          have closed := openEntry_of_activeIdentity consistent inactive
          refine (ends_admitFresh_admits swept.consistent room fresh distinct _ isDeadline out).mono ?_
          rintro result after ⟨more, isAdded, admits⟩
          rw [isAdded]
          exact clears.admits closed admits

end Admission

/-- An admission keeps the item that runs. -/
theorem Admits.runs {policy : SchedulerPolicy} {before after : State} {version : OpportunityVersion}
    {result : AdmissionResult} {out : List Transition} (wasConsistent : Consistent before)
    (admits : Admits policy before version result out after) {itemId : String}
    (runs : after.runs itemId = true) : before.runs itemId = true ∧ statesOf itemId out = [] := by
  obtain ⟨slot, outcome⟩ := admits
  split at outcome
  next =>
    obtain ⟨_, opens⟩ := outcome
    refine opens.toRecorded.runs wasConsistent slot (fun running held => ?_) runs
    obtain ⟨entry, _, _, opened⟩ := opens.opened
    have slotted : before.slot = some running.entry := by
      rw [← slot]
      exact Option.map_eq_some_iff.mpr ⟨running, held, rfl⟩
    obtain ⟨earlier, heldBefore, sameEntry⟩ := Option.map_eq_some_iff.mp slotted
    have differs := opens.idle earlier heldBefore
    rw [sameEntry] at differs
    rw [opened, if_neg differs]
  next => exact outcome.toRecorded.runs wasConsistent slot (fun _ _ => outcome.opened _) runs

end CryptoRadar.Scheduler
