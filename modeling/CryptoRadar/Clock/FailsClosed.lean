import CryptoRadar.Clock.Window

/-!
# The clock fails closed

Evidence that says the clock is synchronised rests on a measurement of the cycle it is given
in: the last round trip that was finished since the cycle began was applied, every sample in
the window was measured in calm, and the one in use is neither too old nor implausible.

A backward step above the tolerance is told until a round trip is applied that was finished
after it. When several were observed, the latest is told; and a `finish_probe` that raised has
no status, so that the one before it still counts. The two runs at the end show both.
-/

set_option autoImplicit false

namespace CryptoRadar.Clock

open Runs

/-- A call in a run, with the world before and after it. -/
abbrev Event : Type := Entry World (Call × Tick) Answer

/-! ## What happened in a run -/

/-- The event is a `finish_probe` that returned this status. -/
def Returned (event : Event) (status : Status) : Prop :=
  (∃ place serverTime, event.input.1 = .finishProbe place serverTime) ∧
    event.answer = .status status

/-- The last `finish_probe` that returned since the last `begin_cycle` returned `status`. -/
def LastFinish (past : List Event) (status : Status) : Prop :=
  ∃ earlier finish later, past = earlier ++ finish :: later ∧ Returned finish status ∧
    ∀ event ∈ later, event.input.1 ≠ .beginCycle ∧ ∀ other, ¬ Returned event other

/-- Between the two references the clocks were read, and the wall clock had stepped back. -/
def BackwardStep (before after : ClockReference) (step : Timedelta) : Prop :=
  ∃ anchor reading, before.anchor = some anchor ∧
    after.readings = before.readings ++ [reading] ∧ stepBetween anchor reading = .ok step ∧
    isJump step = true ∧ step.micros < 0

def Observed (event : Event) (step : Timedelta) : Prop :=
  BackwardStep event.before.reference event.after.reference step

/-- The latest backward step that was observed, with no round trip applied after it. -/
def LatestBackward (past : List Event) (step : Timedelta) : Prop :=
  ∃ earlier seen later, past = earlier ++ seen :: later ∧ Observed seen step ∧
    ∀ event ∈ later, ¬ Returned event .applied ∧ ∀ other, ¬ Observed event other

section Past

variable {past : List Event} {event : Event} {status : Status} {step : Timedelta}

theorem LastFinish.of_returned (returned : Returned event status) :
    LastFinish (past ++ [event]) status :=
  ⟨past, event, [], rfl, returned, fun _ member => absurd member List.not_mem_nil⟩

theorem LastFinish.snoc (finish : LastFinish past status)
    (notBegin : event.input.1 ≠ .beginCycle) (notReturned : ∀ other, ¬ Returned event other) :
    LastFinish (past ++ [event]) status := by
  obtain ⟨earlier, finish, later, rfl, returned, quiet⟩ := finish
  refine ⟨earlier, finish, later ++ [event], by simp, returned, ?_⟩
  intro other member
  rcases List.mem_append.mp member with old | new
  · exact quiet other old
  · rw [List.mem_singleton.mp new]
    exact ⟨notBegin, notReturned⟩

/-- The latest backward step is that of the last event, or the one before it. -/
theorem LatestBackward.cases (latest : LatestBackward (past ++ [event]) step) :
    Observed event step ∨ (LatestBackward past step ∧ ¬ Returned event .applied ∧
      ∀ other, ¬ Observed event other) := by
  obtain ⟨earlier, seen, later, split, observed, quiet⟩ := latest
  rcases List.eq_nil_or_concat later with rfl | ⟨front, last, rfl⟩
  · obtain ⟨-, same⟩ := List.append_inj' split rfl
    cases same
    exact .inl observed
  · rw [List.concat_eq_append, ← List.cons_append, ← List.append_assoc] at split
    obtain ⟨rfl, same⟩ := List.append_inj' split rfl
    cases same
    obtain ⟨notApplied, notObserved⟩ := quiet event (by simp)
    exact .inr ⟨⟨earlier, seen, front, rfl, observed,
      fun other member => quiet other (by simp [member])⟩, notApplied, notObserved⟩

end Past

/-! ## The pending step -/

section Pending

variable {reference after : ClockReference} {step : Timedelta}

/-- Nothing was read. -/
theorem not_backwardStep_of_readings_eq (same : after.readings = reference.readings) :
    ¬ BackwardStep reference after step := by
  rintro ⟨anchor, reading, -, readings, -⟩
  rw [same] at readings
  simpa using congrArg List.length readings

/-- After a reading the pending step is the backward step it observed, if it did. -/
theorem ClockReference.observe_pending {reading : Reading}
    (observed : reference.observe reading = .ok after) :
    (∀ step, BackwardStep reference after step →
      after.backwardPending = some step ∧ after.epoch = reference.epoch + 1) ∧
    ((∀ step, ¬ BackwardStep reference after step) →
      after.backwardPending = reference.backwardPending) := by
  obtain ⟨-, -, readings⟩ := reference.observe_kept observed
  have same : ∀ {anchor step}, BackwardStep reference after step →
      reference.anchor = some anchor →
        stepBetween anchor reading = .ok step ∧ isJump step = true ∧ step.micros < 0 := by
    rintro anchor step ⟨other, next, isAnchor, appended, stepped, jumps, back⟩ isOther
    rw [isAnchor] at isOther
    cases isOther
    rw [readings] at appended
    cases List.append_cancel_left appended
    exact ⟨stepped, jumps, back⟩
  rcases reference.observe_cases observed with
    ⟨noAnchor, rfl⟩ | ⟨anchor, step, isAnchor, stepped, ⟨isCalm, rfl⟩ | ⟨jumps, rfl⟩⟩
  · refine ⟨fun step back => ?_, fun _ => rfl⟩
    obtain ⟨anchor, -, isAnchor, -⟩ := back
    rw [noAnchor] at isAnchor
    cases isAnchor
  · refine ⟨fun other back => ?_, fun _ => rfl⟩
    obtain ⟨isOther, jumps, -⟩ := same back isAnchor
    cases stepped.symm.trans isOther
    rw [isCalm] at jumps
    cases jumps
  · refine ⟨fun other back => ?_, fun none => ?_⟩
    · obtain ⟨isOther, -, negative⟩ := same back isAnchor
      cases stepped.symm.trans isOther
      refine ⟨?_, rfl⟩
      change (if step.micros < 0 then some step else _) = _
      rw [if_pos negative]
    · have forward : ¬ step.micros < 0 := fun negative =>
        none step ⟨anchor, reading, isAnchor, rfl, stepped, jumps, negative⟩
      change (if step.micros < 0 then some step else _) = _
      rw [if_neg forward]

/-- What a reading does to the pending step, whatever becomes of the cycle. -/
def Reports (reference after : ClockReference) : Prop :=
  (∀ step, BackwardStep reference after step → after.backwardPending = some step) ∧
    ((∀ step, ¬ BackwardStep reference after step) →
      after.backwardPending = reference.backwardPending)

theorem reports_of_readings_eq (readings : after.readings = reference.readings)
    (pending : after.backwardPending = reference.backwardPending) : Reports reference after :=
  ⟨fun _ back => absurd back (not_backwardStep_of_readings_eq readings), fun _ => pending⟩

theorem reports_of_observe {reading : Reading}
    (observed : reference.observe reading = .ok after) : Reports reference after :=
  ⟨fun step back => ((reference.observe_pending observed).1 step back).1,
    (reference.observe_pending observed).2⟩

theorem reports_of_reads {result : Except TimeError Reading}
    (reads : Reads reference result after) : Reports reference after := by
  cases reads with
  | raised => exact reports_of_readings_eq rfl rfl
  | read observed => exact reports_of_observe observed

theorem reports_of_receives {probe : ClockProbe} {received : Reading}
    (receives : Receives reference probe received after) : Reports reference after := by
  cases receives with
  | before => exact reports_of_readings_eq rfl rfl
  | now _ observed => exact reports_of_observe observed

/-- The status and the record of a cycle do not matter. -/
theorem Reports.withCycle {middle : ClockReference} (reports : Reports reference middle)
    (status : Status) (record : Option CycleRecord) :
    Reports reference { middle with cycleRecord := record, cycleStatus := status } :=
  ⟨reports.1, reports.2⟩

/-- A round trip that is applied ends in the epoch of its probe: it has observed no step. -/
theorem not_backwardStep_of_sameEpoch {probe : ClockProbe} {received : Reading}
    (receives : Receives reference probe received after) (old : probe.epoch ≤ reference.epoch)
    (sameEpoch : probe.epoch = after.epoch) : ∀ step, ¬ BackwardStep reference after step := by
  intro step back
  cases receives with
  | before => exact not_backwardStep_of_readings_eq rfl back
  | now _ observed =>
      obtain ⟨-, epoch⟩ := (reference.observe_pending observed).1 step back
      omega

end Pending

/-- Every call but an applied round trip reports the step it observed, or what was pending. -/
theorem Effect.reports {world after : World} {call : Call} {answer : Answer}
    (sound : Sound world.reference world.probes) (effect : Effect world call answer after) :
    Reports world.reference after.reference ∨
      (after.reference.backwardPending = none ∧ answer = .status .applied ∧
        (∃ place serverTime, call = .finishProbe place serverTime) ∧
        ∀ step, ¬ BackwardStep world.reference after.reference step) := by
  cases effect with
  | nothing => exact .inl (reports_of_readings_eq rfl rfl)
  | begun reads =>
      have reports := reports_of_reads reads
      exact .inl ⟨reports.1, reports.2⟩
  | told observed => exact .inl (reports_of_observe observed)
  | sent observed => exact .inl (reports_of_observe observed)
  | received _ observed => exact .inl (reports_of_observe observed)
  | @finished place probe serverTime result reference found finishes =>
      cases finishes with
      | unread => exact .inl (reports_of_readings_eq rfl rfl)
      | raised receives _ record => exact .inl ((reports_of_receives receives).withCycle _ record)
      | rejected receives status _ record =>
          exact .inl ((reports_of_receives receives).withCycle status record)
      | applied receives _ _ sameEpoch =>
          obtain ⟨old, -⟩ := sound.known probe (List.mem_of_getElem? found)
          have none := not_backwardStep_of_sameEpoch receives old sameEpoch
          exact .inr ⟨rfl, rfl, ⟨place, serverTime, rfl⟩, none⟩

/-! ## The status of the cycle -/

/-- A cycle whose status is `applied` has it from the call that was just made, or had it. -/
theorem Effect.status {world after : World} {call : Call} {answer : Answer}
    (effect : Effect world call answer after) (isApplied : after.reference.cycleStatus = .applied) :
    ((∃ place serverTime, call = .finishProbe place serverTime) ∧ answer = .status .applied) ∨
      (world.reference.cycleStatus = .applied ∧ call ≠ .beginCycle ∧
        ∀ place serverTime, call = .finishProbe place serverTime →
          ∀ status, answer ≠ .status status) := by
  have ofReads : ∀ {reference after : ClockReference} {result}, Reads reference result after →
      after.cycleStatus = reference.cycleStatus := by
    intro reference after result reads
    cases reads with
    | raised => rfl
    | read observed => exact (reference.observe_kept observed).1
  have ofReceives : ∀ {reference after : ClockReference} {probe received},
      Receives reference probe received after → after.cycleStatus = reference.cycleStatus := by
    intro reference after probe received receives
    cases receives with
    | before => rfl
    | now _ observed => exact (reference.observe_kept observed).1
  cases effect with
  | nothing notBegin isQuiet =>
      refine .inr ⟨isApplied, notBegin, fun _ _ _ status same => ?_⟩
      rcases isQuiet with rfl | ⟨failure, rfl⟩ <;> cases same
  | begun reads =>
      rw [ofReads reads] at isApplied
      cases isApplied
  | @told call answer reading reference observed isReply =>
      rw [(world.reference.observe_kept observed).1] at isApplied
      refine .inr ⟨isApplied, ?_, ?_⟩
      · rintro rfl
        cases isReply
      · rintro place serverTime rfl
        cases isReply
  | sent observed =>
      rw [(world.reference.observe_kept observed).1] at isApplied
      exact .inr ⟨isApplied, Call.noConfusion, fun _ _ same => by cases same⟩
  | received _ observed =>
      rw [(world.reference.observe_kept observed).1] at isApplied
      exact .inr ⟨isApplied, Call.noConfusion, fun _ _ same => by cases same⟩
  | @finished place probe serverTime result reference found finishes =>
      cases finishes with
      | unread =>
          exact .inr ⟨isApplied, Call.noConfusion, fun _ _ _ _ same => by cases same⟩
      | raised receives =>
          refine .inr ⟨?_, Call.noConfusion, fun _ _ _ _ same => by cases same⟩
          rw [← ofReceives receives]
          exact isApplied
      | rejected receives status notApplied => exact absurd isApplied notApplied
      | applied => exact .inl ⟨⟨place, serverTime, rfl⟩, rfl⟩

/-! ## The history -/

/-- What the past of a run says of the world. -/
structure Explained (past : List Event) (world : World) : Prop where
  sound : Sound world.reference world.probes
  applied : world.reference.cycleStatus = .applied → LastFinish past .applied
  pending : ∀ step, LatestBackward past step → world.reference.backwardPending = some step

theorem Explained.next {past : List Event} {world : World} (explained : Explained past world)
    (input : Call × Tick) :
    Explained (past ++ [machine.entry world input]) (machine.next world input) := by
  have effect := world.step_effect input.1 input.2
  refine ⟨explained.sound.effect effect, fun isApplied => ?_, fun step latest => ?_⟩
  · rcases effect.status isApplied with ⟨isFinish, isStatus⟩ | ⟨before, notBegin, quiet⟩
    · exact .of_returned ⟨isFinish, isStatus⟩
    · refine (explained.applied before).snoc notBegin ?_
      rintro other ⟨⟨place, serverTime, isFinish⟩, isStatus⟩
      exact quiet place serverTime isFinish other isStatus
  · rcases effect.reports explained.sound with ⟨ofStep, ofNone⟩ | ⟨-, isStatus, isFinish, none⟩
    · rcases latest.cases with observed | ⟨before, -, none⟩
      · exact ofStep step observed
      · exact (ofNone none).trans (explained.pending step before)
    · rcases latest.cases with observed | ⟨-, notApplied, -⟩
      · exact absurd observed (none step)
      · exact absurd ⟨isFinish, isStatus⟩ notApplied

theorem explained_run (derived : Bool) (inputs : List (Call × Tick)) :
    Explained (machine.trace ⟨.fresh derived, []⟩ inputs)
      (machine.run ⟨.fresh derived, []⟩ inputs) := by
  have start : Explained [] ⟨.fresh derived, []⟩ := by
    refine ⟨sound_fresh derived, fun isApplied => ?_, ?_⟩
    · cases isApplied
    · rintro step ⟨earlier, seen, later, split, -⟩
      simp at split
  exact machine.history_invariant (fun _ => True) Explained
    (fun past world input _ explained => explained.next input) inputs [] _
    (fun _ _ => trivial) start

/-! ## What synchronised evidence rests on -/

theorem firstLeast_mem {keyed : List (Timedelta × Sample)} {sample : Sample}
    (least : firstLeast keyed = some sample) : ∃ pair ∈ keyed, pair.2 = sample := by
  cases keyed with
  | nil => cases least
  | cons first rest =>
      refine ⟨_, ?_, Option.some.inj least⟩
      have inside : ∀ (items : List (Timedelta × Sample)) (start : Timedelta × Sample),
          items.foldl (fun least pair =>
            if pair.1.micros < least.1.micros then pair else least) start ∈ start :: items := by
        intro items
        induction items with
        | nil => simp
        | cons item items hyp =>
            intro start
            rw [List.foldl_cons]
            split
            · exact List.mem_cons_of_mem _ (hyp item)
            · rcases List.mem_cons.mp (hyp start) with same | later
              · rw [same]
                exact List.mem_cons_self
              · exact List.mem_cons_of_mem _ (List.mem_cons_of_mem _ later)
      exact inside rest first

/-- The best sample is a valid one of the window. -/
theorem best_mem {samples : List Sample} {reading : Reading} {sample : Sample}
    (isBest : best samples reading = .ok (some sample)) :
    sample ∈ samples ∧ sample.isValid reading = .ok true := by
  unfold best at isBest
  obtain ⟨valid, selected, isBest⟩ := Checked.bind_eq_ok.mp isBest
  obtain ⟨keyed, mapped, isBest⟩ := Checked.bind_eq_ok.mp isBest
  cases isLeast : firstLeast keyed with
  | none =>
      rw [isLeast] at isBest
      cases isBest
  | some least =>
      rw [isLeast] at isBest
      cases isBest
      obtain ⟨pair, member, rfl⟩ := firstLeast_mem isLeast
      obtain ⟨item, isValid, computed⟩ := Checked.mem_of_mapM_eq_ok mapped pair member
      obtain ⟨uncertainty, -, same⟩ := Checked.bind_eq_ok.mp computed
      cases same
      exact ((Checked.mem_select selected item).1).mp isValid

theorem Sample.isValid_eq_true {sample : Sample} {reading : Reading}
    (isValid : sample.isValid reading = .ok true) :
    ∃ age, sample.age reading = .ok age ∧ 0 ≤ age.micros ∧ age.micros ≤ maxSampleAge.micros := by
  unfold Sample.isValid at isValid
  obtain ⟨age, isAge, within⟩ := Checked.bind_eq_ok.mp isValid
  exact ⟨age, isAge, of_decide_eq_true (Except.ok.inj within)⟩

/-- What there is where the evidence says that the clock is synchronised. -/
structure Trusted (reference : ClockReference) (told : ClockSample) : Prop where
  nonempty : reference.samples ≠ []
  bounded : reference.samples.length ≤ windowSamples
  taken : ∀ sample ∈ reference.samples, Taken reference.readings sample
  used : ∃ reading sample age uncertainty, reference.readings.getLast? = some reading ∧
    reference.used reading = .ok (some sample) ∧ sample ∈ reference.samples ∧
    sample.age reading = .ok age ∧ 0 ≤ age.micros ∧ age.micros ≤ maxSampleAge.micros ∧
    |sample.offset.micros| ≤ maxPlausibleOffset.micros ∧
    sample.uncertainty reading = .ok uncertainty ∧ told.offsetUncertainty = some uncertainty
  noBackwardJump : told.backwardJump = none

theorem ClockReference.used_eq_best {reference : ClockReference} {reading : Reading}
    {sample : Sample} (isUsed : reference.used reading = .ok (some sample)) :
    reference.cycleStatus = .applied ∧ best reference.samples reading = .ok (some sample) := by
  unfold used at isUsed
  split at isUsed
  next isApplied => exact ⟨isApplied, isUsed⟩
  next => cases isUsed

/-- The evidence tells the pending step, and is synchronised with a sample in use only. -/
theorem ClockReference.evidence_eq_ok {reference : ClockReference} {reading : Reading}
    {told : ClockSample} (isTold : reference.evidence reading = .ok told) :
    told.backwardJump = reference.backwardPending ∧
      (told.synchronized = some true → reference.cycleStatus = .applied ∧
        ∃ sample uncertainty, reference.used reading = .ok (some sample) ∧
          sample.uncertainty reading = .ok uncertainty ∧
          told.offsetUncertainty = some uncertainty) := by
  unfold evidence at isTold
  simp only at isTold
  split at isTold
  next =>
    cases isTold
    exact ⟨rfl, nofun⟩
  next =>
    obtain ⟨used, isUsed, isTold⟩ := Checked.bind_eq_ok.mp isTold
    cases used with
    | none =>
        cases isTold
        exact ⟨rfl, nofun⟩
    | some sample =>
        obtain ⟨uncertainty, isUncertainty, isTold⟩ := Checked.bind_eq_ok.mp isTold
        cases isTold
        exact ⟨rfl, fun _ => ⟨(used_eq_best isUsed).1, sample, uncertainty, isUsed, isUncertainty, rfl⟩⟩

theorem Sound.trusted {reference after : ClockReference} {probes : List ClockProbe}
    {reading : Reading} {told : ClockSample} (sound : Sound after probes)
    (observed : reference.observe reading = .ok after) (isTold : after.evidence reading = .ok told)
    (synchronized : told.synchronized = some true) : Trusted after told := by
  obtain ⟨isJump, whenTrue⟩ := ClockReference.evidence_eq_ok isTold
  obtain ⟨-, sample, uncertainty, isUsed, isUncertainty, same⟩ := whenTrue synchronized
  obtain ⟨member, isValid⟩ := best_mem (ClockReference.used_eq_best isUsed).2
  obtain ⟨age, isAge, old, young⟩ := Sample.isValid_eq_true isValid
  have isLast : after.readings.getLast? = some reading := by
    rw [(reference.observe_kept observed).2.2]
    exact List.getLast?_concat
  refine ⟨List.ne_nil_of_mem member, sound.bounded, sound.taken, ?_, ?_⟩
  · exact ⟨reading, sample, age, uncertainty, isLast, isUsed, member, isAge, old, young,
      sound.likely sample member, isUncertainty, same⟩
  · rw [isJump]
    by_contra pending
    rw [sound.backward pending] at member
    cases member

/-- Evidence that was given is that of a reading. -/
theorem Effect.told_sample {world after : World} {told : ClockSample}
    (effect : Effect world .sample (.sample told) after) :
    ∃ reading, world.reference.observe reading = .ok after.reference ∧
      after.reference.evidence reading = .ok told := by
  obtain ⟨reading, observed, isReply⟩ := effect.reply (fun _ _ => Option.some_ne_none _) Answer.noConfusion
    fun _ => Answer.noConfusion
  refine ⟨reading, observed, answered_eq (fun _ _ => Answer.sample.inj)
    (fun _ => Answer.noConfusion) ?_⟩
  exact Option.some.inj isReply

/-- In every run, what `sample` tells: when it says that the clock is synchronised, the last
`finish_probe` of the cycle that returned was applied and the window can be trusted; and it
tells the latest backward step that was observed, until a round trip is applied after it. -/
theorem clock_fails_closed (derived : Bool) (inputs : List (Call × Tick))
    (earlier : List Event) (event : Event) (later : List Event)
    (split : machine.trace ⟨.fresh derived, []⟩ inputs = earlier ++ event :: later)
    (isSample : event.input.1 = .sample) (told : ClockSample) (isTold : event.answer = .sample told) :
    (told.synchronized = some true →
      LastFinish earlier .applied ∧ Trusted event.after.reference told) ∧
    ∀ step, LatestBackward (earlier ++ [event]) step → told.backwardJump = some step := by
  obtain ⟨first, rest, -, rfl, isEvent⟩ := machine.trace_eq_append split
  have explained := explained_run derived first
  generalize machine.run ⟨.fresh derived, []⟩ first = world at isEvent explained
  have next := explained.next event.input
  rw [← isEvent] at next
  have effect := world.step_effect event.input.1 event.input.2
  have isAnswer : (world.step event.input.1 event.input.2).1 = event.answer := by
    rw [isEvent]
    rfl
  have isAfter : (world.step event.input.1 event.input.2).2 = event.after := by
    rw [isEvent]
    rfl
  have sameNext : machine.next world event.input = event.after := isAfter
  rw [isAnswer, isAfter, isSample, isTold] at effect
  rw [sameNext] at next
  obtain ⟨reading, observed, isEvidence⟩ := effect.told_sample
  obtain ⟨isPending, whenTrue⟩ := ClockReference.evidence_eq_ok isEvidence
  refine ⟨fun synchronized => ⟨?_, next.sound.trusted observed isEvidence synchronized⟩, ?_⟩
  · have isApplied := (whenTrue synchronized).1
    rw [(world.reference.observe_kept observed).1] at isApplied
    exact explained.applied isApplied
  · intro step latest
    rw [isPending]
    exact next.pending step latest

/-! ## Runs -/

/-- The wall clock at so many microseconds, and the monotonic clock. -/
def tickAt (wall : ℤ) (mono : Double) : Tick := ⟨.aware wall, mono⟩

def measuredCycle : List (Call × Tick) :=
  [(.beginCycle, tickAt 1700000000000000 ⟨100.0⟩),
    (.startProbe, tickAt 1700000000000000 ⟨100.0⟩),
    (.receipt 0, tickAt 1700000000010000 ⟨100.01⟩),
    (.finishProbe 0 (.at ⟨1700000000005000, by decide⟩), tickAt 1700000000010000 ⟨100.01⟩)]

def sampled : Call × Tick := (.sample, tickAt 1700000000010000 ⟨100.01⟩)

/-- What is told of the round trip: half of it and the resolution. -/
def measuredEvidence : ClockSample := ⟨some true, some ⟨6000, by decide⟩, none, none⟩

theorem clock_fails_closed_measured :
    LastFinish (machine.trace ⟨.fresh false, []⟩ measuredCycle) .applied ∧
      Trusted (machine.run ⟨.fresh false, []⟩ (measuredCycle ++ [sampled])).reference
        measuredEvidence :=
  (clock_fails_closed false (measuredCycle ++ [sampled])
    (machine.trace ⟨.fresh false, []⟩ measuredCycle)
    (machine.entry (machine.run ⟨.fresh false, []⟩ measuredCycle) sampled) [] rfl rfl
    measuredEvidence (by decide +kernel)).1 rfl

/-- The wall clock steps back by 1 s, and then by half a second. -/
def firstReading : Call × Tick := (.beginCycle, tickAt 1700000010000000 ⟨100.0⟩)

def firstStepBack : Call × Tick := (.rawNow, tickAt 1700000009000000 ⟨100.0⟩)

def secondStepBack : Call × Tick := (.rawNow, tickAt 1700000008500000 ⟨100.0⟩)

def sampledAfter : Call × Tick := (.sample, tickAt 1700000008500000 ⟨100.0⟩)

def twoStepsBack : List (Call × Tick) :=
  [firstReading, firstStepBack, secondStepBack, sampledAfter]

/-- After the measured cycle a second round trip is finished with a naive wall time. -/
def probedAgain : List (Call × Tick) :=
  measuredCycle ++ [(.startProbe, tickAt 1700000000010000 ⟨100.01⟩)]

def unfinished : Call × Tick := (.finishProbe 1 .missing, ⟨.naive, ⟨100.01⟩⟩)

def raisedFinish : List (Call × Tick) := probedAgain ++ [unfinished, sampled]

/-- A backward step is no longer told once another was observed, though no round trip was
applied; and the clock is synchronised though the last `finish_probe` raised. -/
theorem clock_tells_latest_step :
    (∃ earlier seen later event step told,
      machine.trace ⟨.fresh false, []⟩ twoStepsBack = earlier ++ seen :: (later ++ [event]) ∧
      Observed seen step ∧ (∀ other ∈ later ++ [event], ¬ Returned other .applied) ∧
      event.input.1 = .sample ∧ event.answer = .sample told ∧ told.backwardJump ≠ some step) ∧
    ∃ earlier finish event told,
      machine.trace ⟨.fresh false, []⟩ raisedFinish = earlier ++ [finish, event] ∧
      finish.input.1 = .finishProbe 1 .missing ∧ finish.answer = .raised .value ∧
      event.input.1 = .sample ∧ event.answer = .sample told ∧ told.synchronized = some true := by
  constructor
  · let start : World := ⟨.fresh false, []⟩
    refine ⟨machine.trace start [firstReading],
      machine.entry (machine.run start [firstReading]) firstStepBack,
      [machine.entry (machine.run start [firstReading, firstStepBack]) secondStepBack],
      machine.entry (machine.run start [firstReading, firstStepBack, secondStepBack]) sampledAfter,
      ⟨-1000000, by decide⟩, ⟨none, none, none, some ⟨-500000, by decide⟩⟩, rfl, ?_, ?_, rfl,
      by decide +kernel, by decide⟩
    · exact ⟨⟨⟨1700000010000000, by decide⟩, ⟨100.0⟩⟩, ⟨⟨1700000009000000, by decide⟩, ⟨100.0⟩⟩,
        by decide +kernel, by decide +kernel, by decide +kernel, rfl, by decide⟩
    · rintro other member ⟨⟨place, serverTime, isFinish⟩, -⟩
      rcases List.mem_cons.mp member with rfl | last
      · cases isFinish
      · rw [List.mem_singleton.mp last] at isFinish
        cases isFinish
  · let start : World := ⟨.fresh false, []⟩
    exact ⟨machine.trace start probedAgain,
      machine.entry (machine.run start probedAgain) unfinished,
      machine.entry (machine.run start (probedAgain ++ [unfinished])) sampled, measuredEvidence,
      rfl, rfl, by decide +kernel, rfl, by decide +kernel, rfl⟩

end CryptoRadar.Clock
