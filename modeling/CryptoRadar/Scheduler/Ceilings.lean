import CryptoRadar.Scheduler.Backpressure
import CryptoRadar.Scheduler.Slot

/-!
# Every call the scheduler authorises fits

What an operation does to the items: the sweep takes some out of the queue and may abort the running one,
and else leaves them as they are (`Carried`). An admission adds the entry it names, a dispatch moves one to
the slot with nothing reserved, an authorised call adds its reservation, and a completion frees the slot
(`yields_admitVersion_carried` and its neighbours).

So over a run, every item has the deadline of its admission, and the usage of the running item is what its
calls were authorised for since it was dispatched (`Tracked`). A call that is authorised is within the
ceilings and, with the reserve, within that deadline; a dispatched item fits its deadline with its whole path,
since the sweep before it left nothing in the queue that does not (`authorised_calls_fit`).
-/

set_option autoImplicit false

namespace CryptoRadar.Scheduler

open Program

/-! ## What is carried on -/

/-- A part of the queue is left, and the running item with what was reserved for it. -/
structure Carried (before after : State) : Prop where
  queue : ∀ item ∈ after.queue, item ∈ before.queue
  slot : ∀ running ∈ after.running, ∃ earlier ∈ before.running,
    running.entry = earlier.entry ∧ running.usage = earlier.usage

theorem Carried.refl (state : State) : Carried state state where
  queue _ member := member
  slot running held := ⟨running, held, rfl, rfl⟩

theorem Carried.trans {first second third : State} (earlier : Carried first second)
    (later : Carried second third) : Carried first third where
  queue item member := earlier.queue item (later.queue item member)
  slot running held := by
    obtain ⟨middle, heldMiddle, sameEntry, sameUsage⟩ := later.slot running held
    obtain ⟨start, heldStart, entry, usage⟩ := earlier.slot middle heldMiddle
    exact ⟨start, heldStart, sameEntry.trans entry, sameUsage.trans usage⟩

/-- The indexes and the clock do not matter. -/
theorem Carried.of_same {before after : State} (queue : after.queue = before.queue)
    (running : after.running = before.running) : Carried before after where
  queue _ member := queue ▸ member
  slot later held := ⟨later, running ▸ held, rfl, rfl⟩

section Sweeps

variable {policy : SchedulerPolicy} {state : State}

theorem yields_remove_carried (itemId : String) :
    Yields (remove itemId) state fun _ after => Carried state after := by
  have erased : ∀ after : State, after.queue = state.queue.erase itemId → after.running = state.running →
      Carried state after := by
    intro after queue running
    refine ⟨fun item member => ?_, fun later held => ⟨later, running ▸ held, rfl, rfl⟩⟩
    rw [queue] at member
    exact (Dict.mem_erase.mp member).1
  refine yields_get_bind ?_
  cases state.queue.get? itemId with
  | none => exact yields_throw
  | some entry =>
      refine yields_set_bind (yields_get_bind ?_)
      split
      next => exact yields_throw
      next =>
        refine yields_set_bind (yields_get_bind ?_)
        split
        next => exact yields_set_bind (yields_pure (erased _ rfl rfl))
        next => exact yields_pure (erased _ rfl rfl)

theorem yields_abortRunning_carried (now : Moment) (reason : StaleReason) :
    Yields (abortRunning now reason) state fun _ after => Carried state after := by
  refine yields_get_bind ?_
  cases held : state.running with
  | none => exact yields_pure (.refl state)
  | some running =>
      dsimp only
      split
      next =>
        refine yields_set_bind (yields_pure ⟨fun _ member => member, fun later isLater => ?_⟩)
        cases isLater
        exact ⟨running, held, rfl, rfl⟩
      next => exact yields_pure (.refl state)

theorem yields_sweepEntry_carried (now : Moment) (out : List Transition) (entry : QueuedEntry) :
    Yields (sweepEntry policy now out entry) state fun _ after => Carried state after := by
  unfold sweepEntry
  split
  next => exact (yields_remove_carried _).bind fun _ _ carried => yields_pure carried
  next =>
    split
    next => exact (yields_remove_carried _).bind fun _ _ carried => yields_pure carried
    next =>
      refine (yields_lift fun _ _ => rfl :
        Yields (Program.lift (pathFits policy entry.path now entry.deadline) : Op Bool) state
          fun _ after => after = state).bind fun fits after same => ?_
      subst same
      split
      next => exact yields_pure (.refl after)
      next => exact (yields_remove_carried _).bind fun _ _ carried => yields_pure carried

theorem yields_sweepExpired_carried (now : Moment) :
    Yields (sweepExpired policy now) state fun _ after => Carried state after := by
  refine (yields_abortRunning_carried now .deadlinePassed).bind fun out middle aborted => yields_get_bind ?_
  refine yields_foldlM (fun _ after => Carried state after) ?_ _ _ _ aborted
  intro entry out current carried
  exact (yields_sweepEntry_carried now out entry).mono fun _ _ swept => carried.trans swept

theorem yields_begin_carried (now : Moment) :
    Yields (begin policy now) state fun _ after => Carried state after := by
  unfold begin recordNow
  rw [bind_assoc]
  refine yields_get_bind (yields_set_bind ?_)
  have recorded : Carried state { state with lastNow := some now } := .of_same rfl rfl
  exact (yields_sweepExpired_carried now).mono fun _ _ swept => recorded.trans swept

end Sweeps

/-! ## What a sweep leaves fits -/

/-- The path of the entry is bounded and ends, with the reserve, by its deadline. -/
def Fits (policy : SchedulerPolicy) (now : Moment) (entry : QueuedEntry) : Prop :=
  pathFits policy entry.path now entry.deadline = .ok true

theorem Fits.ends_by {policy : SchedulerPolicy} {now : Moment} {entry : QueuedEntry}
    (fits : Fits policy now entry) : ∃ last,
      now.plus? (Moment.seconds (policy.pathSeconds entry.path)) = some last ∧ last ≤ entry.deadline := by
  unfold Fits pathFits at fits
  split at fits
  · cases fits
  · split at fits
    · cases fits
    · split at fits
      · cases fits
      · split at fits
        next last sum =>
          refine ⟨last, sum, ?_⟩
          simpa using fits
        next => cases fits

section Fitting

variable {policy : SchedulerPolicy} {now : Moment} {before state : State} {entry : QueuedEntry}
  {rest : List QueuedEntry} {out : List Transition}

/-- The queued entries that are not to come in the sweep fit. -/
def FitsBut (policy : SchedulerPolicy) (now : Moment) (rest : List QueuedEntry) (state : State) : Prop :=
  ∀ item ∈ state.queue, item.2 ∈ rest ∨ Fits policy now item.2

/-- An entry that is taken out need not fit. -/
theorem FitsBut.without (consistent : Consistent state) (fits : FitsBut policy now (entry :: rest) state) :
    FitsBut policy now rest (state.without entry) := by
  intro item member
  obtain ⟨inQueue, otherId⟩ := Dict.mem_erase.mp member
  rcases fits item inQueue with toCome | fit
  · rcases List.mem_cons.mp toCome with same | later
    · refine absurd ?_ otherId
      rw [← same]
      exact consistent.keyed item inQueue
    · exact .inl later
  · exact .inr fit

theorem Sweeping.yields_sweepEntry_fits (sweeping : Sweeping before (entry :: rest) out state)
    (fits : FitsBut policy now (entry :: rest) state) :
    Yields (sweepEntry policy now out entry) state fun _ after => FitsBut policy now rest after := by
  have consistent := sweeping.swept.consistent
  have removes := (consistent.ends_remove (sweeping.waiting entry List.mem_cons_self)).yields
  have closes : ∀ record : Transition,
      Yields (do let _ ← remove entry.itemId; return out ++ [record] : Op (List Transition)) state
        fun _ after => FitsBut policy now rest after := by
    intro record
    refine removes.bind fun removed after removal => yields_pure ?_
    obtain ⟨rfl, rfl⟩ := removal
    exact fits.without consistent
  unfold sweepEntry
  split
  next => exact closes _
  next =>
    split
    next => exact closes _
    next =>
      have lifted : Yields (Program.lift (pathFits policy entry.path now entry.deadline) : Op Bool) state
          fun fit after => after = state ∧ pathFits policy entry.path now entry.deadline = .ok fit :=
        yields_lift fun _ computed => ⟨rfl, computed⟩
      refine lifted.bind fun fit after computed => ?_
      obtain ⟨rfl, isFit⟩ := computed
      cases fit with
      | false => exact closes _
      | true =>
          refine yields_pure fun item member => ?_
          rcases fits item member with toCome | fit
          · rcases List.mem_cons.mp toCome with same | later
            · rw [same]
              exact .inr isFit
            · exact .inl later
          · exact .inr fit

end Fitting

/-- After a sweep every queued entry fits. -/
theorem ends_sweepExpired_fits {policy : SchedulerPolicy} {now : Moment} {state : State}
    (consistent : Consistent state) (room : HasRoom policy now) :
    Ends (sweepExpired policy now) state fun _ after => FitsBut policy now [] after := by
  refine (ends_abortRunning consistent now .deadlinePassed).bind fun out middle aborted => ?_
  refine ends_bind.mpr (ends_get.mpr ?_)
  have start : Sweeping state middle.queued out middle ∧ FitsBut policy now middle.queued middle := by
    refine ⟨aborted.sweeping, fun item member => .inl ?_⟩
    have sorted := List.perm_insertionSort (fun first second => rankKey first ≤ rankKey second)
      (middle.queue.map Prod.snd)
    exact sorted.mem_iff.mpr (List.mem_map_of_mem member)
  refine (ends_foldlM (fun rest out current => Sweeping state rest out current ∧
    FitsBut policy now rest current) ?_ middle.queued out middle start).mono fun _ _ done => done.2
  intro entry rest out current holds
  exact (holds.1.ends_sweepEntry room).and_yields (holds.1.yields_sweepEntry_fits holds.2)

theorem ends_begin_fits {policy : SchedulerPolicy} {now : Moment} {state : State}
    (consistent : Consistent state) (room : HasRoom policy now) :
    Ends (begin policy now) state fun _ after => FitsBut policy now [] after := by
  unfold begin recordNow
  rw [bind_assoc]
  refine ends_bind.mpr (ends_get.mpr (ends_bind.mpr (ends_set.mpr ?_)))
  exact ends_sweepExpired_fits (consistent.recorded now).consistent room

/-! ## Operations -/

/-- The deadline of an entry is the seal of its origin and the limit of its horizon. -/
def DeadlineOf (policy : SchedulerPolicy) (entry : QueuedEntry) : Prop :=
  entry.version.origin.plus?
    (Moment.seconds (policy.horizonLimits entry.version.horizon).analysisDeadlineSeconds) =
      some entry.deadline

/-- What an admission does to the items: it may add an entry of the version, with the deadline it answers. -/
structure Queues (policy : SchedulerPolicy) (version : OpportunityVersion) (before : State)
    (result : AdmissionResult) (after : State) : Prop where
  queue : ∀ item ∈ after.queue, item ∈ before.queue ∨ (item.2.version = version ∧
    DeadlineOf policy item.2 ∧ result.status = .admitted ∧ result.deadline = some item.2.deadline)
  slot : ∀ running ∈ after.running, ∃ earlier ∈ before.running,
    running.entry = earlier.entry ∧ running.usage = earlier.usage

section Operations

variable {policy : SchedulerPolicy} {state : State}

theorem Carried.queues {before after : State} (carried : Carried before after)
    (version : OpportunityVersion) (result : AdmissionResult) :
    Queues policy version before result after :=
  ⟨fun item member => .inl (carried.queue item member), carried.slot⟩

theorem yields_supersede_carried (version : OpportunityVersion) (now : Moment) :
    Yields (supersede version now) state fun _ after => Carried state after := by
  refine yields_get_bind ?_
  split
  next => exact yields_pure (.refl state)
  next =>
    split
    next => exact yields_throw
    next =>
      split
      next => exact yields_pure (.refl state)
      next =>
        split
        next => exact yields_pure (.refl state)
        next => exact (yields_remove_carried _).bind fun _ _ carried => yields_pure carried

theorem yields_makeRoom_carried (entry : QueuedEntry) (now : Moment) :
    Yields (makeRoom policy entry now) state fun _ after => Carried state after := by
  refine yields_get_bind ?_
  split
  next =>
    split
    next => exact yields_pure (.refl state)
    next =>
      split
      next => exact (yields_remove_carried _).bind fun _ _ carried => yields_pure carried
      next => exact yields_pure (.refl state)
  next => exact yields_pure (.refl state)

theorem yields_insert (entry : QueuedEntry) :
    Yields (insert entry) state fun _ after =>
      (∀ item ∈ after.queue, item ∈ state.queue ∨ item = (entry.itemId, entry)) ∧
        after.running = state.running := by
  refine yields_get_bind (yields_set ⟨fun item member => ?_, rfl⟩)
  exact Dict.mem_assign member

theorem yields_admitFresh_queues {version : OpportunityVersion} {deadline : Moment}
    (isDeadline : version.origin.plus?
      (Moment.seconds (policy.horizonLimits version.horizon).analysisDeadlineSeconds) = some deadline)
    (path dropped : List Role) (now : Moment) (out : List Transition) :
    Yields (admitFresh policy version path dropped deadline now out) state fun result after =>
      Queues policy version state result after := by
  have same : ∀ result, Queues policy version state result state :=
    fun result => (Carried.refl state).queues version result
  unfold admitFresh
  dsimp only
  split
  next => exact yields_pure (same _)
  next =>
    split
    next => exact yields_pure (same _)
    next band isBand =>
      split
      next => exact yields_pure (same _)
      next =>
        refine (yields_lift fun _ _ => rfl :
          Yields (Program.lift (pathFits policy path now deadline) : Op Bool) state
            fun _ after => after = state).bind fun fits after isSame => ?_
        subst isSame
        split
        next => exact yields_pure (same _)
        next =>
          refine (yields_supersede_carried version now).bind fun superseded middle first => ?_
          split
          next => exact yields_pure (first.queues version _)
          next out' supersedes =>
            refine (yields_makeRoom_carried _ now).bind fun room last second => ?_
            have carried := first.trans second
            split
            next => exact yields_pure (carried.queues version _)
            next dropouts =>
              refine (yields_insert _).bind fun _ final inserted => yields_pure ⟨fun item member => ?_, ?_⟩
              · rcases inserted.1 item member with old | rfl
                · exact .inl (carried.queue item old)
                · exact .inr ⟨rfl, isDeadline, rfl, rfl⟩
              · rw [inserted.2]
                exact carried.slot

theorem yields_admitVersion_queues (reading : Option Moment) (version : OpportunityVersion) :
    Yields (admitVersion policy reading version) state fun result after =>
      Queues policy version state result after := by
  refine (settles_readClock policy state reading).yields.bind fun now before checked => ?_
  obtain ⟨rfl, _⟩ := checked
  refine yields_get_bind ?_
  dsimp only
  split
  next => exact yields_throw
  next =>
    have counted : Yields (deadlineOf policy version) before fun deadline after => after = before ∧
        version.origin.plus?
          (Moment.seconds (policy.horizonLimits version.horizon).analysisDeadlineSeconds) = some deadline := by
      unfold deadlineOf
      split
      next deadline isDeadline => exact yields_pure ⟨rfl, isDeadline⟩
      next => exact yields_throw
    refine counted.bind fun deadline _ isDeadline => ?_
    obtain ⟨rfl, isDeadline⟩ := isDeadline
    refine (yields_begin_carried now).bind fun out middle swept => yields_get_bind ?_
    split
    next => exact yields_pure (swept.queues version _)
    next =>
      split
      next => exact yields_pure (swept.queues version _)
      next =>
        refine (yields_admitFresh_queues isDeadline _ _ now out).mono fun result after queues => ?_
        refine ⟨fun item member => ?_, fun running held => ?_⟩
        · exact (queues.queue item member).imp_left (swept.queue item)
        · obtain ⟨later, isLater, sameEntry, sameUsage⟩ := queues.slot running held
          obtain ⟨earlier, isEarlier, entry, usage⟩ := swept.slot later isLater
          exact ⟨earlier, isEarlier, sameEntry.trans entry, sameUsage.trans usage⟩

/-- What a dispatch does to the items: nothing, or a queued entry that fits takes the slot. -/
def Starts (policy : SchedulerPolicy) (reading : Option Moment) (before : State) (result : DispatchResult)
    (after : State) : Prop :=
  match result.dispatched with
  | none => Carried before after
  | some given => ∃ now item, reading = some now ∧ item ∈ before.queue ∧ Fits policy now item.2 ∧
      given.path = item.2.path ∧ given.deadline = item.2.deadline ∧
      (∀ other ∈ after.queue, other ∈ before.queue) ∧
      after.running = some ⟨item.2, now, 0, 0, 0, 0, false⟩

theorem yields_dispatch_starts (consistent : Consistent state) (reading : Option Moment) :
    Yields (dispatch policy reading) state fun result after => Starts policy reading state result after := by
  have clock := (settles_readClock policy state reading).yields.and (yields_readClock reading)
  refine clock.bind fun now _ checked => ?_
  obtain ⟨⟨rfl, room⟩, rfl⟩ := checked
  have begun := (yields_begin_carried now).and
    ((ends_begin_fits consistent room).yields.and (ends_begin consistent room).yields)
  refine begun.bind fun out middle swept => yields_get_bind ?_
  obtain ⟨swept, fits, kept⟩ := swept
  split
  next => exact yields_pure swept
  next =>
    split
    next => exact yields_pure swept
    next =>
      obtain ⟨fair, isFair, fairInQueue⟩ := fairChoice_isOk kept.consistent room (middle.slotsUsed + 1)
      refine (ends_lift.mpr ⟨fair, isFair, ⟨rfl, rfl⟩⟩ : Ends (Program.lift (fairChoice policy now middle
        (middle.slotsUsed + 1)) : Op (Option QueuedEntry)) middle
          fun choice after => choice = fair ∧ after = middle).yields.bind fun choice after same => ?_
      obtain ⟨rfl, rfl⟩ := same
      split
      next => exact yields_pure swept
      next chosen isChosen =>
        have member : (chosen.itemId, chosen) ∈ after.queue := by
          rcases Option.or_eq_some_iff.mp isChosen with isFair | ⟨_, isBest⟩
          · exact fairInQueue chosen isFair
          · exact kept.consistent.mem_of_value (List.argmin_mem isBest)
        have fit := (fits _ member).resolve_left List.not_mem_nil
        refine yields_set_bind ((yields_remove_carried chosen.itemId).bind fun _ last removed => ?_)
        refine yields_get_bind (yields_set_bind (yields_pure ?_))
        exact ⟨now, (chosen.itemId, chosen), rfl, swept.queue _ member, fit, rfl, rfl,
          fun other isOther => swept.queue other (removed.queue other isOther), rfl⟩

/-- Within the ceilings of one opportunity. -/
structure Within (policy : SchedulerPolicy) (usage : CallUsage) : Prop where
  invocations : usage.invocations ≤ policy.maxInvocations
  repairs : usage.repairs ≤ policy.maxRepairs
  promptTokens : usage.promptTokens ≤ policy.maxPromptTokens
  outputTokens : usage.outputTokens ≤ policy.maxOutputTokens

/-- The usage with a call reserved. -/
def CallUsage.reserve (usage : CallUsage) (policy : SchedulerPolicy) (role : Role) (repair : Bool)
    (prompt : Nat) : CallUsage :=
  ⟨usage.invocations + 1, usage.repairs + if repair then 1 else 0, usage.promptTokens + prompt,
    usage.outputTokens + (policy.roleProfiles role).outputCapTokens⟩

/-- A call that is not refused stays within the ceilings, and the item is not aborted. -/
theorem callRefusal_eq_none {running : Running} {role : Role} {repair : Bool} {prompt : Nat}
    (allowed : callRefusal policy running role repair prompt = none) :
    running.aborted = false ∧ (Within policy running.usage →
      Within policy (running.usage.reserve policy role repair prompt)) := by
  unfold callRefusal at allowed
  dsimp only at allowed
  split at allowed
  · cases allowed
  next active =>
    repeat'
      split at allowed
      · cases allowed
    refine ⟨by simpa using active, fun within => ⟨?_, ?_, ?_, ?_⟩⟩
    · simp only [CallUsage.reserve, Running.usage]
      omega
    · cases repair with
      | true =>
          simp only [Bool.true_and, decide_eq_true_eq] at *
          simp only [CallUsage.reserve, Running.usage, if_true]
          omega
      | false => exact within.repairs
    · simp only [CallUsage.reserve, Running.usage]
      omega
    · simp only [CallUsage.reserve, Running.usage]
      omega

/-- What a call does to the items: nothing when it is refused. When it is authorised, the running item, which
is not aborted, has it reserved, and the call ends with the reserve by the deadline of the item. -/
def Reserves (policy : SchedulerPolicy) (itemId : String) (role : Role) (repair : Bool) (prompt : Nat)
    (before : State) (decision : CallDecision) (after : State) : Prop :=
  match decision.refusal with
  | some _ => Carried before after
  | none => (∀ item ∈ after.queue, item ∈ before.queue) ∧
      ∃ earlier ∈ before.running, ∃ running ∈ after.running, running.entry = earlier.entry ∧
        running.entry.itemId = itemId ∧ running.aborted = false ∧ decision.usage = running.usage ∧
        running.usage = earlier.usage.reserve policy role repair prompt ∧
        (Within policy earlier.usage → Within policy running.usage) ∧
        ∃ callDeadline last, decision.callDeadline = some callDeadline ∧
          callDeadline.plus? (Moment.seconds policy.finalizationReserveSeconds) = some last ∧
          last ≤ running.entry.deadline

theorem yields_authorizeCall_reserves (reading : Option Moment) (itemId : String) (role : Role)
    (repair : Bool) (prompt : Nat) :
    Yields (authorizeCall policy reading itemId role repair prompt) state fun decision after =>
      Reserves policy itemId role repair prompt state decision after := by
  refine (settles_requireText state itemId).yields.bind fun _ _ checked => ?_
  obtain ⟨rfl, _⟩ := checked
  refine (settles_readClock policy _ reading).yields.bind fun now _ checked => ?_
  obtain ⟨rfl, _⟩ := checked
  refine (yields_begin_carried now).bind fun out middle swept => yields_get_bind ?_
  cases held : middle.running with
  | none => exact yields_pure swept
  | some running =>
      dsimp only
      split
      next => exact yields_pure swept
      next sameId =>
        cases isRefusal : callRefusal policy running role repair prompt with
        | some reason => exact yields_pure swept
        | none =>
            have lifted : Yields (Program.lift (callEnd policy role now) : Op (Moment × Moment)) middle
                fun ends after => after = middle ∧ callEnd policy role now = .ok ends :=
              yields_lift fun _ computed => ⟨rfl, computed⟩
            refine lifted.bind fun ends after computed => ?_
            obtain ⟨rfl, isEnd⟩ := computed
            obtain ⟨callDeadline, last⟩ := ends
            dsimp only
            split
            next => exact yields_pure swept
            next timely =>
              refine yields_set_bind (yields_pure ⟨swept.queue, ?_⟩)
              obtain ⟨active, within⟩ := callRefusal_eq_none isRefusal
              obtain ⟨earlier, heldBefore, sameEntry, sameUsage⟩ := swept.slot running held
              obtain ⟨first, isFirst, isEnd⟩ := Checked.bind_eq_ok.mp isEnd
              obtain ⟨second, isSecond, same⟩ := Checked.bind_eq_ok.mp isEnd
              cases same
              refine ⟨earlier, heldBefore, _, rfl, sameEntry, not_not.mp sameId, active, rfl, ?_, ?_,
                callDeadline, last, rfl, Checked.require_eq_ok.mp isSecond, not_lt.mp timely⟩
              · rw [← sameUsage]
                rfl
              · rw [← sameUsage]
                exact within

theorem yields_freeSlot_carried (itemId : String) (now : Moment) (last : ItemState) (publishable : Bool)
    (out : List Transition) :
    Yields (freeSlot itemId now last publishable out) state fun _ after => Carried state after := by
  have freed : Carried state { state with running := none } :=
    ⟨fun _ member => member, fun _ held => by cases held⟩
  refine yields_get_bind (yields_set_bind ?_)
  split
  next => exact yields_pure freed
  next => exact yields_pure freed

theorem yields_complete_carried (reading : Option Moment) (itemId : String) :
    Yields (complete policy reading itemId) state fun _ after => Carried state after := by
  refine (settles_requireText state itemId).yields.bind fun _ _ checked => ?_
  obtain ⟨rfl, _⟩ := checked
  refine (settles_readClock policy _ reading).yields.bind fun now before checked => ?_
  obtain ⟨rfl, _⟩ := checked
  refine (settles_requireRunning before itemId).yields.bind fun running start found => ?_
  obtain ⟨rfl, _⟩ := found
  have recorded : Carried start { start with lastNow := some now } := .of_same rfl rfl
  unfold recordNow
  rw [bind_assoc]
  refine yields_get_bind (yields_set_bind ?_)
  refine (yields_abortRunning_carried now .lateResult).bind fun late middle aborted => ?_
  refine (yields_sweepExpired_carried now).bind fun out last swept => ?_
  refine (yields_freeSlot_carried itemId now .completed true _).mono fun _ _ freed => ?_
  exact recorded.trans (aborted.trans (swept.trans freed))

theorem yields_fail_carried (reading : Option Moment) (itemId : String) :
    Yields (fail policy reading itemId) state fun _ after => Carried state after := by
  refine (settles_requireText state itemId).yields.bind fun _ _ checked => ?_
  obtain ⟨rfl, _⟩ := checked
  refine (settles_readClock policy _ reading).yields.bind fun now before checked => ?_
  obtain ⟨rfl, _⟩ := checked
  refine (settles_requireRunning before itemId).yields.bind fun running _ found => ?_
  obtain ⟨rfl, _⟩ := found
  refine (yields_begin_carried now).bind fun out middle swept => ?_
  exact (yields_freeSlot_carried itemId now .failed false out).mono fun _ _ freed => swept.trans freed

theorem yields_sweep_carried (reading : Option Moment) :
    Yields (sweep policy reading) state fun _ after => Carried state after := by
  refine (settles_readClock policy state reading).yields.bind fun now _ checked => ?_
  obtain ⟨rfl, _⟩ := checked
  exact yields_begin_carried now

end Operations

/-! ## Whole runs -/

/-- The calls of the scheduler so far, with their answers. -/
abbrev History := List (Runs.Entry State Call (Except Raise Answer))

/-- What an entry does to the usage of the item in the slot: a dispatch starts anew, an authorised call
adds its reservation. -/
def usageAfter (policy : SchedulerPolicy) (usage : CallUsage)
    (entry : Runs.Entry State Call (Except Raise Answer)) : CallUsage :=
  match entry.input, entry.answer with
  | .dispatch _, .ok (.dispatch result) => if result.dispatched.isSome then ⟨0, 0, 0, 0⟩ else usage
  | .authorizeCall _ _ role repair prompt, .ok (.decision decision) =>
      if decision.refusal.isNone then usage.reserve policy role repair prompt else usage
  | _, _ => usage

/-- What the calls since the last dispatch were authorised for. -/
def spent (policy : SchedulerPolicy) (past : History) : CallUsage :=
  past.foldl (usageAfter policy) ⟨0, 0, 0, 0⟩

theorem spent_concat (policy : SchedulerPolicy) (past : History)
    (entry : Runs.Entry State Call (Except Raise Answer)) :
    spent policy (past ++ [entry]) = usageAfter policy (spent policy past) entry := by
  simp [spent]

/-- An admission of the version was answered with the deadline, which is the seal of its origin and the
limit of its horizon. -/
def AdmittedIn (policy : SchedulerPolicy) (past : History) (entry : QueuedEntry) : Prop :=
  DeadlineOf policy entry ∧ ∃ admission ∈ past, ∃ reading result,
    admission.input = .admitVersion reading entry.version ∧
    admission.answer = .ok (.admission result) ∧ result.status = .admitted ∧
    result.deadline = some entry.deadline

theorem AdmittedIn.append {policy : SchedulerPolicy} {past : History} {entry : QueuedEntry}
    (admitted : AdmittedIn policy past entry) (later : History) :
    AdmittedIn policy (past ++ later) entry := by
  obtain ⟨isDeadline, admission, member, rest⟩ := admitted
  exact ⟨isDeadline, admission, List.mem_append_left _ member, rest⟩

/-- Every item has the deadline of its admission, and the running one what its calls were authorised for. -/
structure Tracked (policy : SchedulerPolicy) (past : History) (state : State) : Prop where
  consistent : Consistent state
  queued : ∀ item ∈ state.queue, AdmittedIn policy past item.2
  running : ∀ running ∈ state.running, AdmittedIn policy past running.entry ∧
    running.usage = spent policy past ∧ Within policy running.usage

theorem tracked_initial (policy : SchedulerPolicy) : Tracked policy [] .initial where
  consistent := consistent_initial
  queued _ member := by cases member
  running _ held := by cases held

section Steps

variable {policy : SchedulerPolicy} {past : History} {state after : State}
  {entry : Runs.Entry State Call (Except Raise Answer)}

/-- An entry that carries the items on and does not change the usage. -/
theorem Tracked.carried (tracked : Tracked policy past state) (consistent : Consistent after)
    (carried : Carried state after)
    (unchanged : usageAfter policy (spent policy past) entry = spent policy past) :
    Tracked policy (past ++ [entry]) after where
  consistent := consistent
  queued item member := (tracked.queued item (carried.queue item member)).append _
  running running held := by
    obtain ⟨earlier, wasHeld, sameEntry, sameUsage⟩ := carried.slot running held
    obtain ⟨admitted, isSpent, within⟩ := tracked.running earlier wasHeld
    rw [sameEntry, sameUsage, spent_concat, unchanged]
    exact ⟨admitted.append _, isSpent, within⟩

/-- A call that returns keeps the items tracked. -/
theorem yields_perform_tracked (tracked : Tracked policy past state) (call : Call) :
    Yields (perform policy call) state fun answer after =>
      Consistent after → Tracked policy (past ++ [⟨state, call, .ok answer, after⟩]) after := by
  cases call with
  | admitVersion reading version =>
      refine (yields_admitVersion_queues reading version).bind fun result after queues => yields_pure ?_
      intro consistent
      refine ⟨consistent, fun item member => ?_, fun running held => ?_⟩
      · rcases queues.queue item member with old | ⟨rfl, isDeadline, isAdmitted, answered⟩
        · exact (tracked.queued item old).append _
        · exact ⟨isDeadline, _, List.mem_append_right _ List.mem_cons_self, reading, result, rfl, rfl,
            isAdmitted, answered⟩
      · obtain ⟨earlier, wasHeld, sameEntry, sameUsage⟩ := queues.slot running held
        obtain ⟨admitted, isSpent, within⟩ := tracked.running earlier wasHeld
        rw [sameEntry, sameUsage, spent_concat]
        exact ⟨admitted.append _, isSpent, within⟩
  | dispatch reading =>
      refine (yields_dispatch_starts tracked.consistent reading).bind fun result after starts =>
        yields_pure ?_
      intro consistent
      unfold Starts at starts
      cases isDispatched : result.dispatched with
      | none =>
          rw [isDispatched] at starts
          exact tracked.carried consistent starts (by simp [usageAfter, isDispatched])
      | some given =>
          rw [isDispatched] at starts
          obtain ⟨now, item, _, wasQueued, _, _, _, queue, isRunning⟩ := starts
          refine ⟨consistent, fun other member => (tracked.queued other (queue other member)).append _, ?_⟩
          intro running held
          cases isRunning.symm.trans held
          refine ⟨(tracked.queued item wasQueued).append _, ?_, ⟨?_, ?_, ?_, ?_⟩⟩
          · simp [spent_concat, usageAfter, isDispatched, Running.usage]
          all_goals exact Nat.zero_le _
  | authorizeCall reading itemId role repair prompt =>
      refine (yields_authorizeCall_reserves reading itemId role repair prompt).bind
        fun decision after reserves => yields_pure ?_
      intro consistent
      unfold Reserves at reserves
      cases isRefusal : decision.refusal with
      | some reason =>
          rw [isRefusal] at reserves
          exact tracked.carried consistent reserves (by simp [usageAfter, isRefusal])
      | none =>
          rw [isRefusal] at reserves
          obtain ⟨queue, earlier, wasHeld, running, held, sameEntry, _, _, _, reserved, within, _⟩ := reserves
          obtain ⟨admitted, isSpent, wasWithin⟩ := tracked.running earlier wasHeld
          refine ⟨consistent, fun other member => (tracked.queued other (queue other member)).append _, ?_⟩
          intro later isHeld
          cases held.symm.trans isHeld
          refine ⟨?_, ?_, within wasWithin⟩
          · rw [sameEntry]
            exact admitted.append _
          · rw [reserved, isSpent, spent_concat]
            simp [usageAfter, isRefusal]
  | complete reading itemId =>
      refine (yields_complete_carried reading itemId).bind fun result after carried => yields_pure ?_
      exact fun consistent => tracked.carried consistent carried rfl
  | fail reading itemId =>
      refine (yields_fail_carried reading itemId).bind fun result after carried => yields_pure ?_
      exact fun consistent => tracked.carried consistent carried rfl
  | sweep reading =>
      refine (yields_sweep_carried reading).bind fun result after carried => yields_pure ?_
      exact fun consistent => tracked.carried consistent carried rfl

/-- **One call** keeps the items tracked. -/
theorem Tracked.next (tracked : Tracked policy past state) (call : Call) :
    Tracked policy (past ++ [(scheduler policy).entry state call]) ((scheduler policy).next state call) := by
  have consistent := (next_recorded policy tracked.consistent call).consistent
  change Tracked policy (past ++ [⟨state, call, ((perform policy call).exec state).1,
    ((perform policy call).exec state).2⟩]) ((perform policy call).exec state).2
  change Consistent ((perform policy call).exec state).2 at consistent
  rcases perform_settles policy tracked.consistent call with ⟨failure, _, ran⟩ | ⟨answer, after, ran, _⟩
  · rw [ran]
    refine tracked.carried tracked.consistent (.refl state) ?_
    cases call <;> rfl
  · rw [ran] at consistent ⊢
    exact yields_perform_tracked tracked call answer after ran consistent

end Steps

/-- The state that a call leaves when it returns. -/
theorem exec_of_answer {policy : SchedulerPolicy} {state : State} {call : Call} {answer : Answer}
    (answered : ((scheduler policy).step state call).1 = .ok answer) :
    (perform policy call).exec state = (.ok answer, (scheduler policy).next state call) := by
  change ((perform policy call).exec state).1 = .ok answer at answered
  rw [← answered]
  rfl

theorem run_tracked (policy : SchedulerPolicy) (calls : List Call) :
    Tracked policy ((scheduler policy).trace .initial calls) ((scheduler policy).run .initial calls) := by
  have history := (scheduler policy).history_invariant (fun _ => True) (Tracked policy)
    (fun _ _ call _ tracked => tracked.next call) calls [] .initial (fun _ _ => trivial)
    (tracked_initial policy)
  exact history

theorem yields_perform_reserves {policy : SchedulerPolicy} {state : State} (reading : Option Moment)
    (itemId : String) (role : Role) (repair : Bool) (prompt : Nat) :
    Yields (perform policy (.authorizeCall reading itemId role repair prompt)) state fun answer after =>
      ∀ decision, answer = .decision decision →
        Reserves policy itemId role repair prompt state decision after := by
  refine (yields_authorizeCall_reserves reading itemId role repair prompt).bind
    fun given after reserves => yields_pure ?_
  rintro decision ⟨⟩
  exact reserves

theorem yields_perform_starts {policy : SchedulerPolicy} {state : State} (consistent : Consistent state)
    (reading : Option Moment) :
    Yields (perform policy (.dispatch reading)) state fun answer after =>
      ∀ result, answer = .dispatch result → Starts policy reading state result after := by
  refine (yields_dispatch_starts consistent reading).bind fun given after starts => yields_pure ?_
  rintro result ⟨⟩
  exact starts

/-- **Every call that the scheduler authorises fits.** After any calls, whatever the versions, the prompts
and the clock: when a call is authorised, the item runs and is not aborted, its deadline is the one of its
admission, the call ends with the reserve by it, and all that was authorised for the item since it was
dispatched is within the ceilings; and when an item is dispatched, its whole path ends with the reserve by
its deadline. -/
theorem authorised_calls_fit (policy : SchedulerPolicy) (calls : List Call) :
    (∀ reading itemId role repair prompt decision,
      ((scheduler policy).step ((scheduler policy).run .initial calls)
        (.authorizeCall reading itemId role repair prompt)).1 = .ok (.decision decision) →
      decision.refusal = none →
      ∃ running, ((scheduler policy).next ((scheduler policy).run .initial calls)
          (.authorizeCall reading itemId role repair prompt)).running = some running ∧
        running.entry.itemId = itemId ∧ running.aborted = false ∧
        AdmittedIn policy ((scheduler policy).trace .initial calls) running.entry ∧
        (∃ callDeadline last, decision.callDeadline = some callDeadline ∧
          callDeadline.plus? (Moment.seconds policy.finalizationReserveSeconds) = some last ∧
          last ≤ running.entry.deadline) ∧
        decision.usage = (spent policy ((scheduler policy).trace .initial calls)).reserve policy role repair
          prompt ∧
        Within policy decision.usage) ∧
    ∀ reading result given,
      ((scheduler policy).step ((scheduler policy).run .initial calls) (.dispatch reading)).1 =
        .ok (.dispatch result) → result.dispatched = some given →
      ∃ running, ((scheduler policy).next ((scheduler policy).run .initial calls)
          (.dispatch reading)).running = some running ∧
        given.path = running.entry.path ∧ given.deadline = running.entry.deadline ∧
        AdmittedIn policy ((scheduler policy).trace .initial calls) running.entry ∧
        ∃ now last, reading = some now ∧
          now.plus? (Moment.seconds (policy.pathSeconds given.path)) = some last ∧
          last ≤ given.deadline := by
  have tracked := run_tracked policy calls
  constructor
  · intro reading itemId role repair prompt decision answered allowed
    have reserves := yields_perform_reserves reading itemId role repair prompt _ _ (exec_of_answer answered)
      decision rfl
    unfold Reserves at reserves
    rw [allowed] at reserves
    obtain ⟨_, earlier, wasHeld, running, held, sameEntry, sameId, active, isUsage, reserved, within,
      callEnds⟩ := reserves
    obtain ⟨admitted, isSpent, wasWithin⟩ := tracked.running earlier wasHeld
    refine ⟨running, held, sameId, active, ?_, callEnds, ?_, ?_⟩
    · rw [sameEntry]
      exact admitted
    · rw [isUsage, reserved, isSpent]
    · rw [isUsage]
      exact within wasWithin
  · intro reading result given answered isDispatched
    have starts := yields_perform_starts tracked.consistent reading _ _ (exec_of_answer answered) result rfl
    unfold Starts at starts
    rw [isDispatched] at starts
    obtain ⟨now, item, isNow, wasQueued, fits, samePath, sameDeadline, _, isRunning⟩ := starts
    obtain ⟨last, sum, timely⟩ := fits.ends_by
    refine ⟨_, isRunning, samePath, sameDeadline, tracked.queued item wasQueued, now, last, isNow, ?_, ?_⟩
    · rw [samePath]
      exact sum
    · rw [sameDeadline]
      exact timely

def breakoutAdmitted : List Call := [.admitVersion (some epoch) highBreakout]

def breakoutDispatched : List Call := breakoutAdmitted ++ [.dispatch (some epoch)]

def isAuthorised : Except Raise Answer → Bool
  | .ok (.decision decision) => decision.refusal.isNone
  | _ => false

def isDispatch : Except Raise Answer → Bool
  | .ok (.dispatch result) => result.dispatched.isSome
  | _ => false

theorem exists_decision : ∀ {answer : Except Raise Answer}, isAuthorised answer = true →
    ∃ decision, answer = .ok (.decision decision) ∧ decision.refusal = none
  | .ok (.decision decision), check => ⟨decision, rfl, Option.isNone_iff_eq_none.mp check⟩
  | .ok (.admission _), check => by cases check
  | .ok (.dispatch _), check => by cases check
  | .ok (.completion _), check => by cases check
  | .ok (.swept _), check => by cases check
  | .error _, check => by cases check

theorem exists_dispatched : ∀ {answer : Except Raise Answer}, isDispatch answer = true →
    ∃ result given, answer = .ok (.dispatch result) ∧ result.dispatched = some given
  | .ok (.dispatch result), check => by
      obtain ⟨given, isGiven⟩ := Option.isSome_iff_exists.mp check
      exact ⟨result, given, rfl, isGiven⟩
  | .ok (.admission _), check => by cases check
  | .ok (.decision _), check => by cases check
  | .ok (.completion _), check => by cases check
  | .ok (.swept _), check => by cases check
  | .error _, check => by cases check

theorem authorised_calls_fit_breakout :
    (∃ decision, ((scheduler .oc1).step ((scheduler .oc1).run .initial breakoutDispatched)
        (.authorizeCall (some epoch) "high" .screener false 2000)).1 = .ok (.decision decision) ∧
      Within .oc1 decision.usage) ∧
    ∃ result given, ((scheduler .oc1).step ((scheduler .oc1).run .initial breakoutAdmitted)
        (.dispatch (some epoch))).1 = .ok (.dispatch result) ∧ result.dispatched = some given ∧
      ∃ now last, some epoch = some now ∧
        now.plus? (Moment.seconds (SchedulerPolicy.oc1.pathSeconds given.path)) = some last ∧
        last ≤ given.deadline := by
  constructor
  · obtain ⟨decision, answered, allowed⟩ := exists_decision (by decide +kernel :
      isAuthorised ((scheduler .oc1).step ((scheduler .oc1).run .initial breakoutDispatched)
        (.authorizeCall (some epoch) "high" .screener false 2000)).1 = true)
    obtain ⟨_, _, _, _, _, _, _, within⟩ :=
      (authorised_calls_fit .oc1 breakoutDispatched).1 _ _ _ _ _ decision answered allowed
    exact ⟨decision, answered, within⟩
  · obtain ⟨result, given, answered, isDispatched⟩ := exists_dispatched (by decide +kernel :
      isDispatch ((scheduler .oc1).step ((scheduler .oc1).run .initial breakoutAdmitted)
        (.dispatch (some epoch))).1 = true)
    obtain ⟨_, _, _, _, _, inTime⟩ :=
      (authorised_calls_fit .oc1 breakoutAdmitted).2 _ result given answered isDispatched
    exact ⟨result, given, answered, isDispatched, inTime⟩

end CryptoRadar.Scheduler
