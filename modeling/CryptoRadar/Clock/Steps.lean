import CryptoRadar.Clock.Reference

/-!
# What a call of the clock does

Every call makes at most one reading, and what it leaves is determined by that reading:
nothing at all (`Effect.nothing`), a cleared cycle, a probe, a receipt, an answer computed from
the reading, or what `finish_probe` makes of a round trip (`Finishes`). What follows speaks of
these effects only, never of the operations again (`World.step_effect`).
-/

set_option autoImplicit false

namespace CryptoRadar.Clock

open Program

/-! ## A reading -/

/-- A reading follows the anchor by a step within the tolerance, or has no anchor, or is a jump. -/
theorem ClockReference.observe_cases {reference after : ClockReference} {reading : Reading}
    (observed : reference.observe reading = .ok after) :
    (reference.anchor = none ∧ after = reference.anchored reading) ∨
      ∃ anchor step, reference.anchor = some anchor ∧ stepBetween anchor reading = .ok step ∧
        ((isJump step = false ∧ after = reference.anchored reading) ∨
          (isJump step = true ∧ after = (reference.jumped step).anchored reading)) := by
  unfold observe at observed
  cases isAnchor : reference.anchor with
  | none =>
      rw [isAnchor] at observed
      cases observed
      exact .inl ⟨rfl, rfl⟩
  | some anchor =>
      rw [isAnchor] at observed
      obtain ⟨step, stepped, returned⟩ := Checked.bind_eq_ok.mp observed
      cases returned
      refine .inr ⟨anchor, step, rfl, stepped, ?_⟩
      cases jumps : isJump step with
      | true => exact .inr ⟨rfl, by rw [if_pos rfl]⟩
      | false => exact .inl ⟨rfl, by simp⟩

/-- What a reading leaves alone. -/
theorem ClockReference.observe_kept {reference after : ClockReference} {reading : Reading}
    (observed : reference.observe reading = .ok after) :
    after.cycleStatus = reference.cycleStatus ∧ after.anchor = some reading ∧
      after.readings = reference.readings ++ [reading] := by
  rcases reference.observe_cases observed with
    ⟨-, rfl⟩ | ⟨anchor, step, -, -, ⟨-, rfl⟩ | ⟨-, rfl⟩⟩ <;> exact ⟨rfl, rfl, rfl⟩

/-- What `read` leaves. -/
inductive Reads (reference : ClockReference) : Except TimeError Reading → ClockReference → Prop
  | raised (failure : TimeError) : Reads reference (.error failure) reference
  | read {reading : Reading} {after : ClockReference}
      (observed : reference.observe reading = .ok after) : Reads reference (.ok reading) after

theorem read_leaves (tick : Tick) (reference : ClockReference) :
    Leaves (read tick) reference (Reads reference) := by
  refine leaves_get_bind (leaves_lift_bind (fun reading _ => ?_) .raised)
  refine leaves_lift_bind (fun after observed => ?_) .raised
  exact leaves_set_bind (leaves_pure (.read observed))

theorem observing_leaves {Value : Type}
    (compute : ClockReference → Reading → Except TimeError Value) (tick : Tick)
    (reference : ClockReference) :
    Leaves (observing compute tick) reference fun result after =>
      (∃ failure, result = .error failure ∧ after = reference) ∨
        ∃ reading, reference.observe reading = .ok after ∧ result = compute after reading := by
  refine (read_leaves tick reference).bind ?_ ?_
  · intro reading after reads
    cases reads with
    | read observed => exact leaves_get_bind (leaves_lift (.inr ⟨reading, observed, rfl⟩))
  · intro failure after reads
    cases reads with
    | raised => exact .inl ⟨failure, rfl, rfl⟩

theorem beginCycle_leaves (tick : Tick) (reference : ClockReference) :
    Leaves (beginCycle tick) reference fun _ after =>
      ∃ result, Reads reference.cleared result after := by
  refine leaves_get_bind (leaves_set_bind ((read_leaves tick reference.cleared).bind ?_ ?_))
  · intro reading after reads
    exact leaves_pure ⟨.ok reading, reads⟩
  · intro failure after reads
    exact ⟨.error failure, reads⟩

/-! ## The end of a round trip -/

/-- The receipt of a probe, and the reference it is judged in. -/
inductive Receives (reference : ClockReference) (probe : ClockProbe) :
    Reading → ClockReference → Prop
  | before {received : Reading} (isReceived : probe.received = some received) :
      Receives reference probe received reference
  | now {received : Reading} {after : ClockReference} (isOpen : probe.received = none)
      (observed : reference.observe received = .ok after) : Receives reference probe received after

/-- What `finish_probe` answers and leaves. -/
inductive Finishes (reference : ClockReference) (probe : ClockProbe) (serverTime : ServerTime) :
    Except TimeError Status → ClockReference → Prop
  | unread (failure : TimeError) : Finishes reference probe serverTime (.error failure) reference
  | raised {received : Reading} {middle : ClockReference}
      (receives : Receives reference probe received middle) (failure : TimeError)
      (record : Option CycleRecord) :
      Finishes reference probe serverTime (.error failure)
        { middle with cycleRecord := record }
  | rejected {received : Reading} {middle : ClockReference}
      (receives : Receives reference probe received middle) (status : Status)
      (notApplied : status ≠ .applied) (record : Option CycleRecord) :
      Finishes reference probe serverTime (.ok status)
        { middle with cycleRecord := record, cycleStatus := status }
  | applied {received : Reading} {middle : ClockReference}
      (receives : Receives reference probe received middle) {rtt : Timedelta} {moment : Moment}
      {sample : Sample} (isRtt : Timedelta.ofSeconds (received.mono - probe.sent.mono) = .ok rtt)
      (isMoment : serverTime = .at moment) (sameEpoch : probe.epoch = middle.epoch)
      (forward : 0 ≤ rtt.micros) (measured : measure probe.sent received rtt moment = .ok sample)
      (likely : |sample.offset.micros| ≤ maxPlausibleOffset.micros)
      (record : Option CycleRecord) :
      Finishes reference probe serverTime (.ok .applied)
        { middle.accept sample with cycleRecord := record, cycleStatus := .applied }

/-- What follows once the receipt is known does not read the clocks. -/
theorem receivedBy_leaves (probe : ClockProbe) (tick : Tick) (reference : ClockReference) :
    Leaves (receivedBy probe tick) reference fun result after =>
      (∃ failure, result = .error failure ∧ after = reference) ∨
        ∃ received, result = .ok received ∧ Receives reference probe received after := by
  unfold receivedBy
  cases isReceived : probe.received with
  | some received => exact leaves_pure (.inr ⟨received, rfl, .before isReceived⟩)
  | none =>
      refine (read_leaves tick reference).mono fun result after reads => ?_
      cases reads with
      | raised failure => exact .inl ⟨failure, rfl, rfl⟩
      | read observed => exact .inr ⟨_, rfl, .now isReceived observed⟩

theorem judge_eq_applied {samples : List Sample} {sample : Sample} {received : Reading}
    (judged : judge samples sample received = .ok .applied) :
    |sample.offset.micros| ≤ maxPlausibleOffset.micros := by
  unfold judge at judged
  split at judged
  next => cases judged
  next notBeyond => exact not_lt.mp notBeyond

/-- The judgement of a round trip that is not applied leaves the samples alone. -/
theorem finishMeasured_leaves (probe : ClockProbe) (serverTime : Moment) (received : Reading)
    (rtt : Timedelta) (record : CycleRecord) (middle : ClockReference) :
    Leaves (finishMeasured probe serverTime received rtt record) middle fun result after =>
      (result ≠ .ok .applied ∧ ∃ kept, after = { middle with cycleRecord := kept }) ∨
        ∃ sample kept, result = .ok .applied ∧
          measure probe.sent received rtt serverTime = .ok sample ∧
          |sample.offset.micros| ≤ maxPlausibleOffset.micros ∧
          after = { middle.accept sample with cycleRecord := kept } := by
  refine leaves_lift_bind (fun sample measured => ?_) fun failure => ?_
  · refine leaves_get_bind (leaves_set_bind (leaves_get_bind (leaves_lift_bind ?_ ?_)))
    · intro status judged
      by_cases isApplied : status = .applied
      · subst isApplied
        rw [if_pos rfl]
        exact leaves_set_bind (leaves_pure
          (.inr ⟨sample, _, rfl, measured, judge_eq_applied judged, rfl⟩))
      · rw [if_neg isApplied]
        refine leaves_pure (.inl ⟨?_, _, rfl⟩)
        intro same
        cases same
        exact isApplied rfl
    · intro failure
      exact .inl ⟨nofun, _, rfl⟩
  · exact .inl ⟨nofun, middle.cycleRecord, rfl⟩

theorem finishProbe_leaves (probe : ClockProbe) (serverTime : ServerTime) (tick : Tick)
    (reference : ClockReference) :
    Leaves (finishProbe probe serverTime tick) reference
      (Finishes reference probe serverTime) := by
  refine (receivedBy_leaves probe tick reference).bind ?_ ?_
  · intro received middle ended
    obtain ⟨failure, ended, -⟩ | ⟨other, same, receives⟩ := ended
    · cases ended
    cases same
    have raises : ∀ failure, Finishes reference probe serverTime (.error failure) middle :=
      fun failure => .raised receives failure middle.cycleRecord
    refine leaves_lift_bind (fun rtt isRtt => leaves_lift_bind (fun bound _ => ?_) raises) raises
    refine leaves_get_bind (leaves_set_bind ?_)
    cases isMoment : serverTime.moment? with
    | none =>
        exact leaves_pure_bind (leaves_get_bind (leaves_set_bind (leaves_pure
          (.rejected receives .unavailable nofun _))))
    | some moment =>
        have isServerTime : serverTime = .at moment := by
          cases serverTime with
          | «at» other => exact congrArg ServerTime.at (Option.some.inj isMoment)
          | missing => cases isMoment
          | naive => cases isMoment
        simp only
        split
        next =>
          exact leaves_pure_bind (leaves_get_bind (leaves_set_bind (leaves_pure
            (.rejected receives .rejectedClockJump nofun _))))
        next current =>
          push Not at current
          refine (finishMeasured_leaves probe moment received rtt _ _).bind ?_ ?_
          · intro status after left
            refine leaves_get_bind (leaves_set_bind (leaves_pure ?_))
            rcases left with ⟨notApplied, kept, rfl⟩ | ⟨sample, kept, same, measured, likely, rfl⟩
            · exact .rejected receives status (fun same => notApplied (congrArg Except.ok same)) kept
            · cases same
              exact .applied receives isRtt isServerTime current.1 current.2 measured likely kept
          · intro failure after left
            rcases left with ⟨-, kept, rfl⟩ | ⟨sample, kept, same, -⟩
            · exact .raised receives failure kept
            · cases same
  · intro failure after ended
    rcases ended with ⟨other, same, rfl⟩ | ⟨received, same, -⟩
    · exact .unread failure
    · cases same

/-! ## A call -/

def answered {Value : Type} (answer : Value → Answer) : Except TimeError Value → Answer
  | .ok value => answer value
  | .error failure => .raised failure

def Call.reply? (call : Call) (reference : ClockReference) (reading : Reading) : Option Answer :=
  match call with
  | .rawNow => some (.time reading.wall)
  | .now => some (answered .time (reference.corrected reading))
  | .sample => some (answered .sample (reference.evidence reading))
  | .record => some (answered .record (reference.runRecord reading))
  | _ => none

inductive Effect (world : World) : Call → Answer → World → Prop
  | nothing {call : Call} {answer : Answer} (notBegin : call ≠ .beginCycle)
      (isQuiet : answer = .noProbe ∨ ∃ failure, answer = .raised failure) :
      Effect world call answer world
  | begun {answer : Answer} {result : Except TimeError Reading} {after : ClockReference}
      (reads : Reads world.reference.cleared result after) :
      Effect world .beginCycle answer ⟨after, world.probes⟩
  | told {call : Call} {answer : Answer} {reading : Reading} {after : ClockReference}
      (observed : world.reference.observe reading = .ok after)
      (isReply : call.reply? after reading = some answer) :
      Effect world call answer ⟨after, world.probes⟩
  | sent {reading : Reading} {after : ClockReference}
      (observed : world.reference.observe reading = .ok after) :
      Effect world .startProbe .done ⟨after, world.probes ++ [⟨reading, after.epoch, none⟩]⟩
  | received {place : ℕ} {probe : ClockProbe} {reading : Reading} {after : ClockReference}
      {answer : Answer} (found : world.probes[place]? = some probe)
      (observed : world.reference.observe reading = .ok after) :
      Effect world (.receipt place) answer
        ⟨after, world.probes.set place { probe with received := some reading }⟩
  | finished {place : ℕ} {probe : ClockProbe} {serverTime : ServerTime}
      {result : Except TimeError Status} {after : ClockReference}
      (found : world.probes[place]? = some probe)
      (finishes : Finishes world.reference probe serverTime result after) :
      Effect world (.finishProbe place serverTime) (answered .status result)
        ⟨after, world.probes⟩

theorem answered_eq {Value : Type} {tag : Value → Answer} {computed : Except TimeError Value}
    {value : Value} (injective : Function.Injective tag)
    (notRaised : ∀ failure, tag value ≠ .raised failure)
    (same : answered tag computed = tag value) : computed = .ok value := by
  cases computed with
  | ok other => rw [injective same]
  | error failure => exact absurd same.symm (notRaised failure)

/-- A call that only reads answered from a reading, unless it raised before. -/
theorem Effect.reply {world after : World} {call : Call} {answer : Answer}
    (effect : Effect world call answer after)
    (tells : ∀ reference reading, call.reply? reference reading ≠ none)
    (isProbe : answer ≠ .noProbe) (returned : ∀ failure, answer ≠ .raised failure) :
    ∃ reading, world.reference.observe reading = .ok after.reference ∧
      call.reply? after.reference reading = some answer := by
  cases effect with
  | nothing _ isQuiet =>
      rcases isQuiet with same | ⟨failure, same⟩
      · exact absurd same isProbe
      · exact absurd same (returned failure)
  | told observed isReply => exact ⟨_, observed, isReply⟩
  | begun _ => exact absurd rfl (tells world.reference ⟨epochStart, ⟨0.0⟩⟩)
  | sent _ => exact absurd rfl (tells world.reference ⟨epochStart, ⟨0.0⟩⟩)
  | received _ _ => exact absurd rfl (tells world.reference ⟨epochStart, ⟨0.0⟩⟩)
  | finished _ _ => exact absurd rfl (tells world.reference ⟨epochStart, ⟨0.0⟩⟩)

section Perform

variable {Value : Type} {world : World} {operation : Operation Value} {answer : Value → Answer}
  {probes : Value → List ClockProbe} {call : Call}

theorem World.perform_effect {post : Except TimeError Value → ClockReference → Prop}
    (leaves : Leaves operation world.reference post)
    (returned : ∀ value after, post (.ok value) after →
      Effect world call (answer value) ⟨after, probes value⟩)
    (raised : ∀ failure after, post (.error failure) after →
      Effect world call (.raised failure) ⟨after, world.probes⟩) :
    Effect world call (world.perform operation answer probes).1
      (world.perform operation answer probes).2 := by
  unfold World.perform
  unfold Leaves at leaves
  cases ran : operation.exec world.reference with
  | mk result after =>
      rw [ran] at leaves
      cases result with
      | ok value => exact returned value after leaves
      | error failure => exact raised failure after leaves

/-- A call that reads the clocks and computes its value from there. -/
theorem World.perform_observing {compute : ClockReference → Reading → Except TimeError Value}
    {tick : Tick} (notBegin : call ≠ .beginCycle)
    (returned : ∀ reading after value, world.reference.observe reading = .ok after →
      compute after reading = .ok value → Effect world call (answer value) ⟨after, probes value⟩)
    (raised : ∀ reading after failure, world.reference.observe reading = .ok after →
      compute after reading = .error failure →
        Effect world call (.raised failure) ⟨after, world.probes⟩) :
    Effect world call (world.perform (observing compute tick) answer probes).1
      (world.perform (observing compute tick) answer probes).2 := by
  refine World.perform_effect (observing_leaves compute tick world.reference) ?_ ?_
  · intro value after left
    rcases left with ⟨failure, same, -⟩ | ⟨reading, observed, computed⟩
    · cases same
    · exact returned reading after value observed computed.symm
  · intro failure after left
    rcases left with ⟨-, -, rfl⟩ | ⟨reading, observed, computed⟩
    · exact .nothing notBegin (.inr ⟨failure, rfl⟩)
    · exact raised reading after failure observed computed.symm

/-- A call that only reads. -/
theorem World.perform_told {compute : ClockReference → Reading → Except TimeError Value}
    {tick : Tick} (notBegin : call ≠ .beginCycle)
    (isReply : ∀ reference reading,
      call.reply? reference reading = some (answered answer (compute reference reading))) :
    Effect world call (world.perform (observing compute tick) answer fun _ => world.probes).1
      (world.perform (observing compute tick) answer fun _ => world.probes).2 := by
  refine World.perform_observing notBegin ?_ ?_
  · intro reading after value observed computed
    exact .told observed (by rw [isReply, computed]; rfl)
  · intro reading after failure observed computed
    exact .told observed (by rw [isReply, computed]; rfl)

end Perform

theorem World.step_effect (world : World) (call : Call) (tick : Tick) :
    Effect world call (world.step call tick).1 (world.step call tick).2 := by
  cases call with
  | beginCycle =>
      exact World.perform_effect (beginCycle_leaves tick world.reference)
        (fun _ _ ⟨_, reads⟩ => .begun reads) fun _ _ ⟨_, reads⟩ => .begun reads
  | startProbe =>
      refine World.perform_observing nofun ?_ ?_
      · intro reading after probe observed same
        cases same
        exact .sent observed
      · intro reading after failure _ same
        cases same
  | receipt place =>
      cases found : world.probes[place]? with
      | none =>
          simp only [World.step, found]
          exact .nothing nofun (.inl rfl)
      | some probe =>
          simp only [World.step, found]
          refine World.perform_observing nofun ?_ ?_
          · intro reading after received observed same
            cases same
            exact .received found observed
          · intro reading after failure _ same
            cases same
  | finishProbe place serverTime =>
      cases found : world.probes[place]? with
      | none =>
          simp only [World.step, found]
          exact .nothing nofun (.inl rfl)
      | some probe =>
          simp only [World.step, found]
          exact World.perform_effect (finishProbe_leaves probe serverTime tick world.reference)
            (fun _ _ finishes => .finished found finishes)
            fun _ _ finishes => .finished found finishes
  | rawNow => exact World.perform_told nofun fun _ _ => rfl
  | now => exact World.perform_told nofun fun _ _ => rfl
  | sample => exact World.perform_told nofun fun _ _ => rfl
  | record => exact World.perform_told nofun fun _ _ => rfl

end CryptoRadar.Clock
