import CryptoRadar.Clock.FailsClosed

/-!
# What the uncertainty bounds

`truth` is the true time at which the monotonic clock shows a value, in microseconds. The
corrected time of a reading differs from the true time by two errors: that of the sample at
its receipt, and what the wall clock has moved since. The second is in the uncertainty as it
is (`divergence`). The first is within half of the round trip and the resolution exactly when
the round trip is covered (`Covered`): the venue's time, shifted by what the wall clock moved
against the true time between the send and the receipt, lies in the round trip, a millisecond
more on either side (`covered_iff`).

So where every applied round trip is covered, the uncertainty is a bound at every reading
(`now_within_uncertainty`), up to the error of the elapsed times, which are rounded to a microsecond. A
round trip in which the wall clock does not move is covered (`covered_of_still`). A move below the
jump tolerance inside a round trip is added to no uncertainty, as the run at the end shows.
-/

set_option autoImplicit false

namespace CryptoRadar.Clock

open Runs

variable (truth : Double → ℚ)

/-! ## Assumptions on a run -/

/-- The elapsed times between these readings are the true ones, up to an error in microseconds: half
of one where the monotonic clock advances exactly with the true time, as they are rounded. -/
def Exact (error : ℚ) (readings : List Reading) : Prop :=
  ∀ earlier ∈ readings, ∀ later ∈ readings, ∀ elapsed,
    Timedelta.ofSeconds (later.mono - earlier.mono) = .ok elapsed →
      |(elapsed.micros : ℚ) - (truth later.mono - truth earlier.mono)| ≤ error

/-- The event finishes the round trip from `sent` to `received` with this time of the venue. -/
def Measures (event : Event) (sent received : Reading) (serverTime : Moment) : Prop :=
  ∃ place probe, event.input.1 = .finishProbe place (.at serverTime) ∧
    event.before.probes[place]? = some probe ∧ probe.sent = sent ∧
      (probe.received = some received ∨ (probe.received = none ∧
        event.after.reference.readings = event.before.reference.readings ++ [received]))

/-- The time of the venue is that of an instant of the round trip, down to the millisecond. -/
def Truthful (sent received : Reading) (serverTime : Moment) : Prop :=
  ∃ instant : ℚ, truth sent.mono ≤ instant ∧ instant ≤ truth received.mono ∧
    serverTime.micros = 1000 * ⌊instant / 1000⌋

/-- What the wall clock moved against the true time between two readings. -/
def moved (sent received : Reading) : ℚ :=
  (received.wall.micros - sent.wall.micros) - (truth received.mono - truth sent.mono)

/-- The shifted time of the venue is in the round trip, up to the resolution. -/
def Covered (sent received : Reading) (serverTime : Moment) : Prop :=
  ∀ rtt half, Timedelta.ofSeconds (received.mono - sent.mono) = .ok rtt → rtt.half = .ok half →
    truth sent.mono - serverTimeResolution.micros ≤ serverTime.micros + moved truth sent received ∧
      serverTime.micros + moved truth sent received ≤
        truth sent.mono + 2 * half.micros + serverTimeResolution.micros

/-- A round trip in which the wall clock does not move is covered. -/
theorem covered_of_still {sent received : Reading} {serverTime : Moment} {error : ℚ}
    (exact : Exact truth error [sent, received]) (small : error ≤ 999)
    (truthful : Truthful truth sent received serverTime) (still : moved truth sent received = 0) :
    Covered truth sent received serverTime := by
  intro rtt half isRtt halved
  obtain ⟨instant, afterSend, beforeReceipt, isFloor⟩ := truthful
  have elapsed := abs_le.mp (exact sent (by simp) received (by simp) rtt isRtt)
  have floor_le : (⌊instant / 1000⌋ : ℚ) ≤ instant / 1000 := Int.floor_le _
  have lt_floor : instant / 1000 < (⌊instant / 1000⌋ : ℚ) + 1 := Int.lt_floor_add_one _
  have server : (serverTime.micros : ℚ) = 1000 * ⌊instant / 1000⌋ := by
    rw [isFloor]
    push_cast
    rfl
  have twice : (rtt.micros : ℚ) ≤ 2 * half.micros + 1 := by
    have near := Timedelta.half_eq_ok halved
    rw [abs_le] at near
    exact_mod_cast (by omega : rtt.micros ≤ 2 * half.micros + 1)
  have resolution : (serverTimeResolution.micros : ℚ) = 1000 := rfl
  rw [still, resolution, server]
  constructor <;> linarith [elapsed.2]

/-! ## The error of a sample -/

/-- At its receipt the corrected time is within half of the round trip and the resolution. -/
def Sample.Accurate (sample : Sample) : Prop :=
  ∀ half, sample.rtt.half = .ok half →
    |(sample.wall.micros + sample.offset.micros : ℚ) - truth sample.mono| ≤
      half.micros + serverTimeResolution.micros

/-- A sample is accurate exactly when its round trip was covered. -/
theorem covered_iff {sent received : Reading} {serverTime : Moment} {rtt : Timedelta}
    {sample : Sample} (isRtt : Timedelta.ofSeconds (received.mono - sent.mono) = .ok rtt)
    (measured : measure sent received rtt serverTime = .ok sample) :
    Covered truth sent received serverTime ↔ sample.Accurate truth := by
  obtain ⟨half, halved, isOffset, sameRtt, sameWall, sameMono⟩ := measure_eq_ok measured
  have offset : (sample.offset.micros : ℚ) =
      serverTime.micros - (sent.wall.micros + half.micros) := by exact_mod_cast isOffset
  have error : (sample.wall.micros + sample.offset.micros : ℚ) - truth sample.mono =
      serverTime.micros + moved truth sent received - half.micros - truth sent.mono := by
    rw [sameWall, sameMono, offset, moved]
    ring
  unfold Covered Sample.Accurate
  rw [error, sameRtt]
  constructor
  · intro covered other isHalf
    cases halved.symm.trans isHalf
    obtain ⟨low, high⟩ := covered rtt half isRtt halved
    rw [abs_le]
    constructor <;> linarith
  · intro accurate other part isOther isHalf
    cases isRtt.symm.trans isOther
    cases halved.symm.trans isHalf
    have bound := accurate half halved
    rw [abs_le] at bound
    constructor <;> linarith [bound.1, bound.2]

theorem driftAllowance_nonneg : 0 ≤ driftAllowance.toRat := by decide +kernel

/-- The parts of an uncertainty. -/
theorem Sample.uncertainty_eq_ok {sample : Sample} {reading : Reading} {uncertainty : Timedelta}
    (isUncertainty : sample.uncertainty reading = .ok uncertainty) :
    ∃ age half drift, sample.age reading = .ok age ∧ sample.rtt.half = .ok half ∧
      age.scale driftAllowance.toRat = .ok drift ∧
      uncertainty.micros = half.micros + serverTimeResolution.micros + drift.micros +
        |reading.wall.micros - sample.wall.micros - age.micros| := by
  unfold Sample.uncertainty at isUncertainty
  obtain ⟨age, isAge, rest⟩ := Checked.bind_eq_ok.mp isUncertainty
  obtain ⟨apart, isApart, rest⟩ := Checked.bind_eq_ok.mp rest
  obtain ⟨divergence, isDivergence, rest⟩ := Checked.bind_eq_ok.mp rest
  obtain ⟨half, halved, rest⟩ := Checked.bind_eq_ok.mp rest
  obtain ⟨measured, isMeasured, rest⟩ := Checked.bind_eq_ok.mp rest
  obtain ⟨drift, isDrift, rest⟩ := Checked.bind_eq_ok.mp rest
  obtain ⟨aged, isAged, total⟩ := Checked.bind_eq_ok.mp rest
  refine ⟨age, half, drift, isAge, halved, isDrift, ?_⟩
  rw [Timedelta.add_eq_ok.mp total, Timedelta.add_eq_ok.mp isAged,
    Timedelta.add_eq_ok.mp isMeasured, Timedelta.abs_eq_ok.mp isDivergence,
    Timedelta.sub_eq_ok.mp isApart]
  rfl

/-- An accurate sample keeps its uncertainty: what the wall clock moves is added to it. -/
theorem Sample.Accurate.bound {sample : Sample} {reading : Reading} {error : ℚ}
    {age uncertainty : Timedelta} (accurate : sample.Accurate truth)
    (isAge : sample.age reading = .ok age) (old : 0 ≤ age.micros)
    (elapsed : |(age.micros : ℚ) - (truth reading.mono - truth sample.mono)| ≤ error)
    (isUncertainty : sample.uncertainty reading = .ok uncertainty) :
    |(reading.wall.micros + sample.offset.micros : ℚ) - truth reading.mono| ≤
      uncertainty.micros + error := by
  obtain ⟨other, half, drift, isOther, halved, scaled, total⟩ := uncertainty_eq_ok isUncertainty
  cases isAge.symm.trans isOther
  have aging : (0 : ℚ) ≤ drift.micros := by
    exact_mod_cast Timedelta.scale_nonneg scaled old driftAllowance_nonneg
  have atReceipt := accurate half halved
  have parts : (uncertainty.micros : ℚ) = half.micros + serverTimeResolution.micros +
      drift.micros + |(reading.wall.micros - sample.wall.micros - age.micros : ℚ)| := by
    exact_mod_cast total
  calc |(reading.wall.micros + sample.offset.micros : ℚ) - truth reading.mono|
      = |(reading.wall.micros - sample.wall.micros - age.micros : ℚ) +
          ((sample.wall.micros + sample.offset.micros : ℚ) - truth sample.mono) +
          ((age.micros : ℚ) - (truth reading.mono - truth sample.mono))| := by
        congr 1
        ring
    _ ≤ |(reading.wall.micros - sample.wall.micros - age.micros : ℚ)| +
          |(sample.wall.micros + sample.offset.micros : ℚ) - truth sample.mono| +
          |(age.micros : ℚ) - (truth reading.mono - truth sample.mono)| := abs_add_three _ _ _
    _ ≤ uncertainty.micros + error := by
        rw [parts]
        linarith

/-- At the receipt nothing has been added yet. -/
theorem Sample.uncertainty_receipt {sample : Sample} {received : Reading} {uncertainty : Timedelta}
    (sameWall : sample.wall = received.wall) (sameMono : sample.mono = received.mono)
    (isUncertainty : sample.uncertainty received = .ok uncertainty) :
    ∃ half, sample.rtt.half = .ok half ∧
      uncertainty.micros = half.micros + serverTimeResolution.micros := by
  obtain ⟨age, half, drift, isAge, halved, scaled, total⟩ := uncertainty_eq_ok isUncertainty
  have isZero : age.micros = 0 := by
    unfold Sample.age at isAge
    rw [sameMono] at isAge
    rcases Double.sub_self received.mono with same | same
    · have noNumber : Timedelta.ofSeconds ⟨0.0 / 0.0⟩ = .error .value := by decide +kernel
      rw [same, noNumber] at isAge
      cases isAge
    · rw [same] at isAge
      have zero : Timedelta.ofSeconds ⟨0.0⟩ = .ok ⟨0, by decide⟩ := by decide +kernel
      cases zero.symm.trans isAge
      rfl
  have noDrift : drift.micros = 0 := by
    rw [Timedelta.checked_eq_ok.mp scaled, isZero]
    simp [roundHalfEven]
  refine ⟨half, halved, ?_⟩
  rw [total, noDrift, isZero, sameWall]
  simp

/-! ## What a call does to the samples -/

/-- The readings so far stay. -/
theorem Effect.readings {world after : World} {call : Call} {answer : Answer}
    (effect : Effect world call answer after) :
    world.reference.readings <+: after.reference.readings := by
  have ofObserve : ∀ {reference after : ClockReference} {reading},
      reference.observe reading = .ok after → reference.readings <+: after.readings := by
    intro reference after reading observed
    rw [(reference.observe_kept observed).2.2]
    exact List.prefix_append _ _
  have ofReads : ∀ {reference after : ClockReference} {result},
      Reads reference result after → reference.readings <+: after.readings := by
    intro reference after result reads
    cases reads with
    | raised => exact List.prefix_rfl
    | read observed => exact ofObserve observed
  have ofReceives : ∀ {reference after : ClockReference} {probe received},
      Receives reference probe received after → reference.readings <+: after.readings := by
    intro reference after probe received receives
    cases receives with
    | before => exact List.prefix_rfl
    | now _ observed => exact ofObserve observed
  cases effect with
  | nothing => exact List.prefix_rfl
  | begun reads =>
      have grown := ofReads reads
      exact grown
  | told observed => exact ofObserve observed
  | sent observed => exact ofObserve observed
  | received _ observed => exact ofObserve observed
  | finished _ finishes =>
      cases finishes with
      | unread => exact List.prefix_rfl
      | raised receives | rejected receives | applied receives =>
          have grown := ofReceives receives
          exact grown

/-- A reading adds no sample. -/
theorem ClockReference.mem_of_observe {reference after : ClockReference} {reading : Reading}
    {sample : Sample} (observed : reference.observe reading = .ok after)
    (member : sample ∈ after.samples) : sample ∈ reference.samples := by
  rcases reference.observe_cases observed with
    ⟨-, rfl⟩ | ⟨anchor, step, -, -, ⟨-, rfl⟩ | ⟨-, rfl⟩⟩
  · exact member
  · exact member
  · cases member

theorem Receives.mem {reference middle : ClockReference} {probe : ClockProbe}
    {received : Reading} {sample : Sample} (receives : Receives reference probe received middle)
    (member : sample ∈ middle.samples) : sample ∈ reference.samples := by
  cases receives with
  | before => exact member
  | now _ observed => exact reference.mem_of_observe observed member

/-- The event applied this round trip, whose sample is the newest of the window. -/
structure Applied (event : Event) (sent received : Reading) (serverTime : Moment)
    (sample : Sample) : Prop where
  measures : Measures event sent received serverTime
  returned : Returned event .applied
  isRtt : Timedelta.ofSeconds (received.mono - sent.mono) = .ok sample.rtt
  measured : measure sent received sample.rtt serverTime = .ok sample

/-- A sample of the window was there before, or the call applied its round trip. -/
theorem Effect.mem_samples {world after : World} {call : Call} {answer : Answer}
    {sample : Sample} (tick : Tick) (effect : Effect world call answer after) (member : sample ∈ after.reference.samples) :
    sample ∈ world.reference.samples ∨ ∃ sent received serverTime,
      Applied ⟨world, (call, tick), answer, after⟩ sent received serverTime sample := by
  cases effect with
  | nothing => exact .inl member
  | begun reads =>
      cases reads with
      | raised => exact .inl member
      | read observed => exact .inl (world.reference.cleared.mem_of_observe observed member)
  | told observed => exact .inl (world.reference.mem_of_observe observed member)
  | sent observed => exact .inl (world.reference.mem_of_observe observed member)
  | received _ observed => exact .inl (world.reference.mem_of_observe observed member)
  | @finished place probe serverTime result reference found finishes =>
      cases finishes with
      | unread => exact .inl member
      | raised receives => exact .inl (receives.mem member)
      | rejected receives => exact .inl (receives.mem member)
      | @applied received middle receives rtt moment newest isRtt isMoment _ _ measured =>
          rcases List.mem_append.mp (mem_lastN member) with old | new
          · exact .inl (receives.mem old)
          · cases List.mem_singleton.mp new
            obtain ⟨-, -, -, sameRtt, -⟩ := measure_eq_ok measured
            have isProbe : (probe.received = some received ∨ (probe.received = none ∧
                middle.readings = world.reference.readings ++ [received])) := by
              cases receives with
              | before isReceived => exact .inl isReceived
              | now isOpen observed =>
                  exact .inr ⟨isOpen, (world.reference.observe_kept observed).2.2⟩
            refine .inr ⟨probe.sent, received, moment, ?_, ?_, ?_, ?_⟩
            · exact ⟨place, probe, by rw [isMoment], found, rfl, isProbe⟩
            · exact ⟨⟨place, serverTime, rfl⟩, rfl⟩
            · rw [sameRtt, isRtt]
            · rw [sameRtt, measured]

/-! ## Runs -/

section Run

variable {truth} {error : ℚ}

theorem Exact.mono {readings more : List Reading} (exact : Exact truth error more)
    (inside : readings ⊆ more) : Exact truth error readings :=
  fun earlier isEarlier later isLater => exact earlier (inside isEarlier) later (inside isLater)

/-- Whether the round trips that were applied are covered. -/
def CoveredBy (truth : Double → ℚ) (past : List Event) : Prop :=
  ∀ event ∈ past, ∀ sent received serverTime, Measures event sent received serverTime →
    Returned event .applied → Covered truth sent received serverTime

/-- The corrected time of the event is within the uncertainty of the sample it uses, up to an error. -/
def Bounded (truth : Double → ℚ) (error : ℚ) (event : Event) : Prop :=
  ∀ time reading sample uncertainty, event.input.1 = .now → event.answer = .time time →
    event.after.reference.readings.getLast? = some reading →
    event.after.reference.used reading = .ok (some sample) →
    sample.uncertainty reading = .ok uncertainty →
      |(time.micros : ℚ) - truth reading.mono| ≤ uncertainty.micros + error

/-- A corrected time that was given is that of a reading. -/
theorem Effect.told_now {world after : World} {time : Moment}
    (effect : Effect world .now (.time time) after) :
    ∃ reading, world.reference.observe reading = .ok after.reference ∧
      after.reference.corrected reading = .ok time := by
  obtain ⟨reading, observed, isReply⟩ := effect.reply (fun _ _ => Option.some_ne_none _) Answer.noConfusion
    fun _ => Answer.noConfusion
  refine ⟨reading, observed, answered_eq (fun _ _ => Answer.time.inj)
    (fun _ => Answer.noConfusion) ?_⟩
  exact Option.some.inj isReply

theorem ClockReference.corrected_of_used {reference : ClockReference} {reading : Reading}
    {sample : Sample} {time : Moment} (isUsed : reference.used reading = .ok (some sample))
    (isTime : reference.corrected reading = .ok time) :
    time.micros = reading.wall.micros + sample.offset.micros := by
  unfold corrected at isTime
  rw [isUsed] at isTime
  exact Moment.shift_eq_ok.mp isTime

/-- With accurate samples the corrected time of a call is bounded. -/
theorem Effect.bounded {world after : World} {call : Call} {answer : Answer} (tick : Tick)
    (effect : Effect world call answer after) (sound : Sound after.reference after.probes)
    (exact : Exact truth error after.reference.readings)
    (accurate : ∀ sample ∈ after.reference.samples, sample.Accurate truth) :
    Bounded truth error ⟨world, (call, tick), answer, after⟩ := by
  rintro time reading sample uncertainty isNow isTime isLast isUsed isUncertainty
  change call = .now at isNow
  change answer = .time time at isTime
  subst isNow isTime
  obtain ⟨other, observed, isCorrected⟩ := effect.told_now
  have same : other = reading := by
    change after.reference.readings.getLast? = some reading at isLast
    rw [(world.reference.observe_kept observed).2.2, List.getLast?_concat] at isLast
    exact Option.some.inj isLast
  subst same
  obtain ⟨member, isValid⟩ := best_mem (ClockReference.used_eq_best isUsed).2
  obtain ⟨age, isAge, old, -⟩ := Sample.isValid_eq_true isValid
  obtain ⟨sent, received, since, calm, isReceipt, -, sameMono, -⟩ := sound.taken sample member
  have elapsed : |(age.micros : ℚ) - (truth other.mono - truth sample.mono)| ≤ error := by
    unfold Sample.age at isAge
    rw [sameMono] at isAge ⊢
    exact exact received (calm.suffix.mem isReceipt) other (List.mem_of_getLast? isLast) age isAge
  have bound := (accurate sample member).bound truth isAge old elapsed isUncertainty
  have sum : (time.micros : ℚ) = other.wall.micros + sample.offset.micros := by
    exact_mod_cast ClockReference.corrected_of_used isUsed isCorrected
  rw [sum]
  exact bound

theorem newest_mem_lastN {α : Type} (items : List α) (newest : α) {count : ℕ} (some : 0 < count) :
    newest ∈ (items ++ [newest]).lastN count := by
  rw [List.lastN, List.length_append, List.length_singleton,
    List.drop_append_of_le_length (by omega)]
  exact List.mem_append_right _ (List.mem_singleton.mpr rfl)

/-- A round trip that was applied has its sample in the window. -/
theorem Effect.newest {world after : World} {call : Call} {answer : Answer} {tick : Tick}
    {sent received : Reading} {serverTime : Moment} (effect : Effect world call answer after)
    (measures : Measures ⟨world, (call, tick), answer, after⟩ sent received serverTime)
    (returned : Returned ⟨world, (call, tick), answer, after⟩ .applied) :
    ∃ sample ∈ after.reference.samples,
      Timedelta.ofSeconds (received.mono - sent.mono) = .ok sample.rtt ∧
      measure sent received sample.rtt serverTime = .ok sample := by
  obtain ⟨place, probe, isCall, isProbe, rfl, isReceipt⟩ := measures
  obtain ⟨-, isAnswer⟩ := returned
  change call = .finishProbe place (.at serverTime) at isCall
  change answer = .status .applied at isAnswer
  subst isCall
  cases effect with
  | nothing _ isQuiet =>
      rcases isQuiet with rfl | ⟨failure, rfl⟩ <;> cases isAnswer
  | told _ isReply => cases isReply
  | finished found finishes =>
      cases isProbe.symm.trans found
      cases finishes with
      | unread => cases isAnswer
      | raised => cases isAnswer
      | rejected _ _ notApplied => exact absurd (Answer.status.inj isAnswer) notApplied
      | @applied receipt middle receives rtt moment sample isRtt isMoment _ _ measured =>
          cases isMoment
          have same : receipt = received := by
            cases receives with
            | before isReceived =>
                rcases isReceipt with already | ⟨isOpen, -⟩
                · exact Option.some.inj (isReceived.symm.trans already)
                · rw [isOpen] at isReceived
                  cases isReceived
            | now isOpen observed =>
                rcases isReceipt with already | ⟨-, appended⟩
                · rw [isOpen] at already
                  cases already
                · have readings := (world.reference.observe_kept observed).2.2
                  have both := readings.symm.trans appended
                  exact (List.cons.inj (List.append_cancel_left both)).1
          subst same
          obtain ⟨-, -, -, sameRtt, -⟩ := measure_eq_ok measured
          refine ⟨sample, newest_mem_lastN _ _ (by decide), ?_, ?_⟩
          · rw [sameRtt, isRtt]
          · rw [sameRtt, measured]

/-- The sample of an applied round trip is bounded at its receipt exactly when it was covered. -/
def BoundedWhenCovered (truth : Double → ℚ) (event : Event) : Prop :=
  ∀ sent received serverTime, Measures event sent received serverTime → Returned event .applied →
    ∃ sample ∈ event.after.reference.samples, sample.wall = received.wall ∧
      sample.mono = received.mono ∧ ∀ uncertainty, sample.uncertainty received = .ok uncertainty →
        (|(received.wall.micros + sample.offset.micros : ℚ) - truth received.mono| ≤
            uncertainty.micros ↔ Covered truth sent received serverTime)

theorem Effect.boundedWhenCovered {world after : World} {call : Call} {answer : Answer}
    (truth : Double → ℚ) (tick : Tick) (effect : Effect world call answer after) :
    BoundedWhenCovered truth ⟨world, (call, tick), answer, after⟩ := by
  intro sent received serverTime measures returned
  obtain ⟨sample, member, isRtt, measured⟩ := effect.newest measures returned
  obtain ⟨-, -, -, -, sameWall, sameMono⟩ := measure_eq_ok measured
  refine ⟨sample, member, sameWall, sameMono, fun uncertainty isUncertainty => ?_⟩
  obtain ⟨half, halved, isSum⟩ := Sample.uncertainty_receipt sameWall sameMono isUncertainty
  have total : (uncertainty.micros : ℚ) = half.micros + serverTimeResolution.micros := by
    exact_mod_cast isSum
  rw [covered_iff truth isRtt measured, total, ← sameWall, ← sameMono]
  constructor
  · intro bound other isHalf
    cases halved.symm.trans isHalf
    exact bound
  · intro accurate
    exact accurate half halved

/-- What a run whose round trips were covered has come to. -/
structure Faithful (truth : Double → ℚ) (error : ℚ) (past : List Event) (world : World) : Prop where
  sound : Sound world.reference world.probes
  whenCovered : ∀ event ∈ past, BoundedWhenCovered truth event
  accurate : CoveredBy truth past → ∀ sample ∈ world.reference.samples, sample.Accurate truth
  bounded : Exact truth error world.reference.readings → CoveredBy truth past →
    ∀ event ∈ past, Bounded truth error event

theorem Faithful.next {past : List Event} {world : World}
    (faithful : Faithful truth error past world) (input : Call × Tick) :
    Faithful truth error (past ++ [machine.entry world input]) (machine.next world input) := by
  have effect := world.step_effect input.1 input.2
  have sound := faithful.sound.effect effect
  have before : CoveredBy truth (past ++ [machine.entry world input]) → CoveredBy truth past :=
    fun covered event inPast => covered event (List.mem_append_left _ inPast)
  have accurate : CoveredBy truth (past ++ [machine.entry world input]) →
      ∀ sample ∈ (machine.next world input).reference.samples, sample.Accurate truth := by
    intro covered sample member
    rcases effect.mem_samples input.2 member with old | ⟨sent, received, serverTime, applied⟩
    · exact faithful.accurate (before covered) sample old
    · refine (covered_iff truth applied.isRtt applied.measured).mp ?_
      exact covered _ (List.mem_append_right _ (List.mem_singleton.mpr rfl)) sent received
        serverTime applied.measures applied.returned
  refine ⟨sound, fun event member => ?_, accurate, fun exact covered event member => ?_⟩
  · rcases List.mem_append.mp member with inPast | isLast
    · exact faithful.whenCovered event inPast
    · rw [List.mem_singleton.mp isLast]
      exact effect.boundedWhenCovered truth input.2
  · rcases List.mem_append.mp member with inPast | isLast
    · exact faithful.bounded (exact.mono effect.readings.subset) (before covered) event inPast
    · rw [List.mem_singleton.mp isLast]
      exact effect.bounded input.2 sound exact (accurate covered)

/-- In every run in which the elapsed times are the true ones up to an error: at its receipt, the
sample of an applied round trip is within its uncertainty exactly when the round trip was
covered; and where all were, every corrected time is within the uncertainty of its sample, up to that
error. -/
theorem now_within_uncertainty (truth : Double → ℚ) (error : ℚ) (derived : Bool)
    (inputs : List (Call × Tick))
    (exact : Exact truth error (machine.run ⟨.fresh derived, []⟩ inputs).reference.readings) :
    (∀ event ∈ machine.trace ⟨.fresh derived, []⟩ inputs, BoundedWhenCovered truth event) ∧
      (CoveredBy truth (machine.trace ⟨.fresh derived, []⟩ inputs) →
        ∀ event ∈ machine.trace ⟨.fresh derived, []⟩ inputs, Bounded truth error event) := by
  have start : Faithful truth error [] ⟨.fresh derived, []⟩ :=
    ⟨sound_fresh derived, fun _ member => absurd member List.not_mem_nil,
      fun _ _ member => absurd member List.not_mem_nil,
      fun _ _ _ member => absurd member List.not_mem_nil⟩
  have faithful := machine.history_invariant (fun _ => True) (Faithful truth error)
    (fun past world input _ faithful => faithful.next input) inputs [] ⟨.fresh derived, []⟩
    (fun _ _ => trivial) start
  exact ⟨faithful.whenCovered, faithful.bounded exact⟩

end Run

/-! ## A round trip of 31.25 ms -/

/-- The true time, where the monotonic clock shows 100 s at the start of the run. -/
def trueTime (mono : Double) : ℚ := 1700000000000000 + (mono.toRat - 100) * 1000000

/-- A cycle with one round trip, in which the wall clock moves so many microseconds. -/
def roundTrip (move : ℤ) : List (Call × Tick) :=
  [(.beginCycle, tickAt 1700000000000000 ⟨100.0⟩),
    (.startProbe, tickAt 1700000000000000 ⟨100.0⟩),
    (.receipt 0, tickAt (1700000000031250 + move) ⟨100.03125⟩)]

def roundTripEnd (move : ℤ) : Call × Tick :=
  (.finishProbe 0 (.at ⟨1700000000015000, by decide⟩),
    tickAt (1700000000031250 + move) ⟨100.03125⟩)

def nowAfter (move : ℤ) : Call × Tick :=
  (.now, tickAt (1700000000031250 + move) ⟨100.03125⟩)

def roundTripRun (move : ℤ) : List (Call × Tick) :=
  roundTrip move ++ [roundTripEnd move, nowAfter move]

def sentReading : Reading := ⟨⟨1700000000000000, by decide⟩, ⟨100.0⟩⟩

theorem trueTime_shown :
    (trueTime ⟨100.0⟩ = 1700000000000000 ∧ trueTime ⟨100.03125⟩ = 1700000000031250) ∧
      Timedelta.ofSeconds (⟨100.0⟩ - ⟨100.0⟩) = .ok ⟨0, by decide⟩ ∧
      Timedelta.ofSeconds (⟨100.03125⟩ - ⟨100.0⟩) = .ok ⟨31250, by decide⟩ ∧
      Timedelta.ofSeconds (⟨100.0⟩ - ⟨100.03125⟩) = .ok ⟨-31250, by decide⟩ ∧
      Timedelta.ofSeconds (⟨100.03125⟩ - ⟨100.03125⟩) = .ok ⟨0, by decide⟩ := by
  decide +kernel

theorem trueTime_exact {readings : List Reading}
    (shown : ∀ reading ∈ readings, reading.mono = ⟨100.0⟩ ∨ reading.mono = ⟨100.03125⟩) :
    Exact trueTime 0 readings := by
  obtain ⟨⟨start, receipt⟩, none, forward, back, last⟩ := trueTime_shown
  intro earlier isEarlier later isLater elapsed isElapsed
  rcases shown earlier isEarlier with first | first <;>
    rcases shown later isLater with second | second <;> rw [first, second] at isElapsed ⊢
  · cases none.symm.trans isElapsed
    simp
  · cases forward.symm.trans isElapsed
    rw [start, receipt]
    norm_num
  · cases back.symm.trans isElapsed
    rw [start, receipt]
    norm_num
  · cases last.symm.trans isElapsed
    simp

/-- The run finishes one round trip. -/
theorem roundTrip_measures {move : ℤ} {receipt : Reading}
    (probes : (machine.run ⟨.fresh false, []⟩ (roundTrip move)).probes =
      [⟨sentReading, 0, some receipt⟩]) {event : Event}
    (member : event ∈ machine.trace ⟨.fresh false, []⟩ (roundTripRun move))
    {sent received : Reading} {serverTime : Moment}
    (measures : Measures event sent received serverTime) :
    sent = sentReading ∧ received = receipt ∧ serverTime = ⟨1700000000015000, by decide⟩ := by
  obtain ⟨place, probe, isCall, found, rfl, isReceipt⟩ := measures
  have others : ∀ input ∈ roundTrip move ++ [nowAfter move],
      input.1 ≠ .finishProbe place (.at serverTime) := by
    intro input inside same
    simp only [roundTrip, List.cons_append, List.nil_append, List.mem_cons, List.not_mem_nil,
      or_false] at inside
    rcases inside with rfl | rfl | rfl | rfl <;> cases same
  have isFinish : event = machine.entry (machine.run ⟨.fresh false, []⟩ (roundTrip move))
      (roundTripEnd move) := by
    have entries : machine.trace ⟨.fresh false, []⟩ (roundTripRun move) =
        machine.trace ⟨.fresh false, []⟩ (roundTrip move) ++
          [machine.entry (machine.run ⟨.fresh false, []⟩ (roundTrip move)) (roundTripEnd move),
            machine.entry (machine.run ⟨.fresh false, []⟩ (roundTrip move ++ [roundTripEnd move]))
              (nowAfter move)] := rfl
    rw [entries] at member
    rcases List.mem_append.mp member with before | after
    · obtain ⟨earlier, later, split, -⟩ := machine.exists_split_of_mem_trace before
      exact absurd isCall (others event.input (by simp [split]))
    · simp only [List.mem_cons, List.not_mem_nil, or_false] at after
      rcases after with isEntry | isEntry
      · exact isEntry
      · rw [isEntry] at isCall
        exact absurd isCall (others (nowAfter move) (by simp))
  rw [isFinish] at isCall found
  cases isCall
  change (machine.run ⟨.fresh false, []⟩ (roundTrip move)).probes[0]? = some probe at found
  rw [probes] at found
  cases found
  refine ⟨rfl, ?_, rfl⟩
  rcases isReceipt with isReceived | ⟨isOpen, -⟩
  · exact (Option.some.inj isReceived).symm
  · cases isOpen

/-- The venue's time is that of an instant half a millisecond later, in the round trip. -/
theorem roundTrip_truthful {receipt : Reading} (mono : receipt.mono = ⟨100.03125⟩) :
    Truthful trueTime sentReading receipt ⟨1700000000015000, by decide⟩ := by
  refine ⟨1700000000015500, ?_, ?_, by norm_num⟩
  · rw [show sentReading.mono = ⟨100.0⟩ from rfl, trueTime_shown.1.1]
    norm_num
  · rw [mono, trueTime_shown.1.2]
    norm_num

/-- The last call of the run. -/
def nowEvent (move : ℤ) : Event :=
  machine.entry (machine.run ⟨.fresh false, []⟩ (roundTrip move ++ [roundTripEnd move]))
    (nowAfter move)

theorem nowEvent_mem (move : ℤ) :
    nowEvent move ∈ machine.trace ⟨.fresh false, []⟩ (roundTripRun move) := by
  have entries : machine.trace ⟨.fresh false, []⟩ (roundTripRun move) =
      machine.trace ⟨.fresh false, []⟩ (roundTrip move ++ [roundTripEnd move]) ++ [nowEvent move] :=
    rfl
  rw [entries]
  exact List.mem_append_right _ List.mem_cons_self

def stillReceipt : Reading := ⟨⟨1700000000031250, by decide⟩, ⟨100.03125⟩⟩

theorem roundTrip_still :
    (machine.run ⟨.fresh false, []⟩ (roundTripRun 0)).reference.readings =
      [sentReading, sentReading, stillReceipt, stillReceipt] ∧
    (machine.run ⟨.fresh false, []⟩ (roundTrip 0)).probes = [⟨sentReading, 0, some stillReceipt⟩] := by
  decide +kernel

theorem roundTrip_still_exact :
    Exact trueTime 0 (machine.run ⟨.fresh false, []⟩ (roundTripRun 0)).reference.readings := by
  refine trueTime_exact fun reading member => ?_
  rw [roundTrip_still.1] at member
  simp only [List.mem_cons, List.not_mem_nil, or_false] at member
  rcases member with rfl | rfl | rfl | rfl
  exacts [.inl rfl, .inl rfl, .inr rfl, .inr rfl]

theorem roundTrip_still_covered :
    CoveredBy trueTime (machine.trace ⟨.fresh false, []⟩ (roundTripRun 0)) := by
  intro event member sent received serverTime measures _
  obtain ⟨rfl, rfl, rfl⟩ := roundTrip_measures roundTrip_still.2 member measures
  refine covered_of_still trueTime (trueTime_exact fun reading inside => ?_)
    (by norm_num) (roundTrip_truthful rfl) (by decide +kernel)
  rcases List.mem_cons.mp inside with rfl | last
  · exact .inl rfl
  · rw [List.mem_singleton.mp last]
    exact .inr rfl

/-- The wall clock does not move: the corrected time is 0.625 ms off, of at most 16.625 ms. -/
theorem now_within_uncertainty_still :
    (nowEvent 0).answer = .time ⟨1700000000030625, by decide⟩ ∧ Bounded trueTime 0 (nowEvent 0) :=
  ⟨by decide +kernel,
    (now_within_uncertainty trueTime 0 false (roundTripRun 0) roundTrip_still_exact).2
      roundTrip_still_covered (nowEvent 0) (nowEvent_mem 0)⟩

def movedReceipt : Reading := ⟨⟨1700000000081250, by decide⟩, ⟨100.03125⟩⟩

def movedSample : Sample :=
  ⟨⟨-625, by decide⟩, ⟨31250, by decide⟩, movedReceipt.wall, movedReceipt.mono⟩

/-- The wall clock moves by 50 ms in the round trip: the corrected time is 49.375 ms off, and
its uncertainty 16.625 ms. -/
theorem move_in_round_trip_exceeds :
    Exact trueTime 0 (machine.run ⟨.fresh false, []⟩ (roundTripRun 50000)).reference.readings ∧
    (∀ event ∈ machine.trace ⟨.fresh false, []⟩ (roundTripRun 50000),
      ∀ sent received serverTime, Measures event sent received serverTime →
        Truthful trueTime sent received serverTime) ∧
    nowEvent 50000 ∈ machine.trace ⟨.fresh false, []⟩ (roundTripRun 50000) ∧
    ¬ Bounded trueTime 0 (nowEvent 50000) := by
  refine ⟨?_, ?_, nowEvent_mem 50000, ?_⟩
  · have isReadings : (machine.run ⟨.fresh false, []⟩ (roundTripRun 50000)).reference.readings =
        [sentReading, sentReading, movedReceipt, movedReceipt] := by decide +kernel
    refine trueTime_exact fun reading member => ?_
    rw [isReadings] at member
    simp only [List.mem_cons, List.not_mem_nil, or_false] at member
    rcases member with rfl | rfl | rfl | rfl
    exacts [.inl rfl, .inl rfl, .inr rfl, .inr rfl]
  · have probes : (machine.run ⟨.fresh false, []⟩ (roundTrip 50000)).probes =
        [⟨sentReading, 0, some movedReceipt⟩] := by decide +kernel
    intro event member sent received serverTime measures
    obtain ⟨rfl, rfl, rfl⟩ := roundTrip_measures probes member measures
    exact roundTrip_truthful rfl
  · intro bounded
    have bound := bounded ⟨1700000000080625, by decide⟩ movedReceipt movedSample
      ⟨16625, by decide⟩ rfl (by decide +kernel) (by decide +kernel) (by decide +kernel)
      (by decide +kernel)
    have receipt : trueTime movedReceipt.mono = 1700000000031250 := by decide +kernel
    rw [receipt] at bound
    norm_num at bound

end CryptoRadar.Clock
