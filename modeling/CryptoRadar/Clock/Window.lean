import CryptoRadar.Clock.Steps
import Mathlib.Data.List.Chain

/-!
# What the window holds

Every sample in the window was measured between two readings, its send and its receipt, and
since the send each reading has followed the one before it within the tolerance (`Taken`).
A reading that does not empties the window. It also starts a new epoch, so that a probe of the
current epoch has had calm readings since its send (`ClockProbe.Known`), whatever the order in
which probes are started, received and finished.

`Sound` is the invariant; every call keeps it (`Sound.effect`), so it holds after every run
(`sound_run`).
-/

set_option autoImplicit false

namespace CryptoRadar.Clock

/-! ## Calm readings -/

/-- The step between two readings is within the tolerance. -/
def Calm (earlier later : Reading) : Prop :=
  ∃ step, stepBetween earlier later = .ok step ∧ isJump step = false

/-- The readings end with `sent` and the readings `since` it, all of them calm. -/
structure CalmSince (readings : List Reading) (sent : Reading) (since : List Reading) : Prop where
  suffix : sent :: since <:+ readings
  calm : (sent :: since).IsChain Calm

/-- A part of the readings up to the last one goes on with the next one. -/
theorem suffix_snoc {readings since : List Reading} {sent : Reading}
    (suffix : sent :: since <:+ readings) (reading : Reading) :
    sent :: (since ++ [reading]) <:+ readings ++ [reading] := by
  obtain ⟨earlier, rfl⟩ := suffix
  exact ⟨earlier, by simp⟩

theorem CalmSince.snoc {readings since : List Reading} {sent reading : Reading}
    (calmSince : CalmSince readings sent since)
    (next : ∀ anchor, readings.getLast? = some anchor → Calm anchor reading) :
    CalmSince (readings ++ [reading]) sent (since ++ [reading]) := by
  refine ⟨suffix_snoc calmSince.suffix reading, ?_⟩
  rw [← List.cons_append]
  refine calmSince.calm.append (List.isChain_singleton reading) ?_
  intro anchor isLast later isNext
  cases Option.some.inj isNext
  refine next anchor ?_
  obtain ⟨earlier, rfl⟩ := calmSince.suffix
  rw [List.getLast?_append, Option.mem_def.mp isLast, Option.some_or]

/-- What was read since the send includes the last reading. -/
theorem mem_of_suffix_snoc {readings since : List Reading} {sent reading : Reading}
    (suffix : sent :: since <:+ readings ++ [reading]) : reading ∈ sent :: since := by
  have isLast := suffix.getLast (by simp)
  rw [List.getLast_append_singleton] at isLast
  rw [← isLast]
  exact List.getLast_mem _

/-- Measured on a round trip whose send and all that came after it were calm. -/
def Taken (readings : List Reading) (sample : Sample) : Prop :=
  ∃ sent received since, CalmSince readings sent since ∧ received ∈ sent :: since ∧
    sample.wall = received.wall ∧ sample.mono = received.mono ∧
    Timedelta.ofSeconds (received.mono - sent.mono) = .ok sample.rtt

/-- The send of a probe was read, its receipt not before it, and in the epoch of its send
nothing but calm readings followed. -/
def ClockProbe.Known (reference : ClockReference) (probe : ClockProbe) : Prop :=
  probe.epoch ≤ reference.epoch ∧
    ∃ since, probe.sent :: since <:+ reference.readings ∧
      (∀ received ∈ probe.received, received ∈ probe.sent :: since) ∧
      (probe.epoch = reference.epoch → (probe.sent :: since).IsChain Calm)

structure Sound (reference : ClockReference) (probes : List ClockProbe) : Prop where
  anchor : reference.anchor = reference.readings.getLast?
  bounded : reference.samples.length ≤ windowSamples
  taken : ∀ sample ∈ reference.samples, Taken reference.readings sample
  likely : ∀ sample ∈ reference.samples,
    |sample.offset.micros| ≤ maxPlausibleOffset.micros
  /-- While a backward step is pending there is no sample. -/
  backward : reference.backwardPending ≠ none → reference.samples = []
  known : ∀ probe ∈ probes, probe.Known reference

theorem sound_fresh (derived : Bool) : Sound (.fresh derived) [] where
  anchor := rfl
  bounded := Nat.zero_le _
  taken _ member := by cases member
  likely _ member := by cases member
  backward _ := rfl
  known _ member := by cases member

/-! ## Readings keep it -/

section Observed

variable {reference after : ClockReference} {probes : List ClockProbe} {reading : Reading}

/-- The readings since the send of a known probe, with the next reading. -/
theorem ClockProbe.Known.observe {probe : ClockProbe} (known : probe.Known reference)
    (sound : Sound reference probes) (observed : reference.observe reading = .ok after) :
    probe.Known after := by
  obtain ⟨epoch, since, suffix, received, calm⟩ := known
  have next : ∀ received ∈ probe.received, received ∈ probe.sent :: (since ++ [reading]) := by
    intro receipt isReceipt
    rw [← List.cons_append]
    exact List.mem_append_left _ (received receipt isReceipt)
  rcases reference.observe_cases observed with
    ⟨noAnchor, rfl⟩ | ⟨anchor, step, isAnchor, stepped, ⟨isCalm, rfl⟩ | ⟨-, rfl⟩⟩
  · rw [sound.anchor, List.getLast?_eq_none_iff] at noAnchor
    rw [noAnchor] at suffix
    cases List.suffix_nil.mp suffix
  · refine ⟨epoch, since ++ [reading], suffix_snoc suffix reading, next, fun current => ?_⟩
    refine (CalmSince.snoc ⟨suffix, calm current⟩ fun last isLast => ?_).calm
    rw [← sound.anchor, isAnchor] at isLast
    cases isLast
    exact ⟨step, stepped, isCalm⟩
  · refine ⟨Nat.le_succ_of_le epoch, since ++ [reading], suffix_snoc suffix reading, next, ?_⟩
    intro current
    change probe.epoch = reference.epoch + 1 at current
    omega

theorem Taken.observe {sample : Sample} (taken : Taken reference.readings sample)
    (next : ∀ anchor, reference.readings.getLast? = some anchor → Calm anchor reading) :
    Taken (reference.readings ++ [reading]) sample := by
  obtain ⟨sent, received, since, calmSince, isReceipt, measured⟩ := taken
  refine ⟨sent, received, since ++ [reading], calmSince.snoc next, ?_, measured⟩
  rw [← List.cons_append]
  exact List.mem_append_left _ isReceipt

/-- A reading keeps the invariant: it is calm, or it empties the window. -/
theorem Sound.observe (sound : Sound reference probes)
    (observed : reference.observe reading = .ok after) : Sound after probes := by
  have known : ∀ probe ∈ probes, probe.Known after :=
    fun probe member => (sound.known probe member).observe sound observed
  rcases reference.observe_cases observed with
    ⟨noAnchor, rfl⟩ | ⟨anchor, step, isAnchor, stepped, ⟨isCalm, rfl⟩ | ⟨-, rfl⟩⟩
  · refine ⟨List.getLast?_concat.symm, sound.bounded, fun sample member => ?_,
      sound.likely, sound.backward, known⟩
    refine (sound.taken sample member).observe fun last isLast => ?_
    rw [← sound.anchor, noAnchor] at isLast
    cases isLast
  · refine ⟨List.getLast?_concat.symm, sound.bounded, fun sample member => ?_,
      sound.likely, sound.backward, known⟩
    refine (sound.taken sample member).observe fun last isLast => ?_
    rw [← sound.anchor, isAnchor] at isLast
    cases isLast
    exact ⟨step, stepped, isCalm⟩
  · have none : ∀ sample, sample ∉ ((reference.jumped step).anchored reading).samples :=
      fun _ => List.not_mem_nil
    exact ⟨List.getLast?_concat.symm, Nat.zero_le _, fun sample member => absurd member (none sample),
      fun sample member => absurd member (none sample), fun _ => rfl, known⟩

end Observed

theorem Sound.reads {reference after : ClockReference} {probes : List ClockProbe}
    {result : Except TimeError Reading} (sound : Sound reference probes)
    (reads : Reads reference result after) : Sound after probes := by
  cases reads with
  | raised => exact sound
  | read observed => exact sound.observe observed

/-! ## Round trips keep it -/

theorem measure_eq_ok {sent received : Reading} {rtt : Timedelta} {serverTime : Moment}
    {sample : Sample} (measured : measure sent received rtt serverTime = .ok sample) :
    ∃ half, rtt.half = .ok half ∧
      sample.offset.micros = serverTime.micros - (sent.wall.micros + half.micros) ∧
      sample.rtt = rtt ∧ sample.wall = received.wall ∧ sample.mono = received.mono := by
  unfold measure at measured
  obtain ⟨half, halved, measured⟩ := Checked.bind_eq_ok.mp measured
  obtain ⟨middle, shifted, measured⟩ := Checked.bind_eq_ok.mp measured
  cases measured
  refine ⟨half, halved, ?_, rfl, rfl, rfl⟩
  rw [← Moment.shift_eq_ok.mp shifted]
  rfl

section Finished

variable {reference middle : ClockReference} {probes : List ClockProbe} {probe : ClockProbe}
  {received : Reading}

theorem Sound.receives (sound : Sound reference probes)
    (receives : Receives reference probe received middle) : Sound middle probes := by
  cases receives with
  | before => exact sound
  | now _ observed => exact sound.observe observed

/-- The receipt is a reading since the send. -/
theorem Receives.since (sound : Sound reference probes) (member : probe ∈ probes)
    (receives : Receives reference probe received middle) :
    ∃ since, probe.sent :: since <:+ middle.readings ∧ received ∈ probe.sent :: since ∧
      (probe.epoch = middle.epoch → (probe.sent :: since).IsChain Calm) := by
  obtain ⟨-, since, suffix, isReceipt, calm⟩ := (sound.receives receives).known probe member
  refine ⟨since, suffix, ?_, calm⟩
  cases receives with
  | before isReceived => exact isReceipt received isReceived
  | now _ observed =>
      obtain ⟨-, -, readings⟩ := reference.observe_kept observed
      exact mem_of_suffix_snoc (readings ▸ suffix)

theorem mem_lastN {α : Type} {items : List α} {count : ℕ} {item : α}
    (member : item ∈ items.lastN count) : item ∈ items :=
  List.mem_of_mem_drop member

/-- A sample that is accepted comes into the window as the others did. -/
theorem Sound.accept {rtt : Timedelta} {moment : Moment} {sample : Sample}
    (sound : Sound reference probes) (member : probe ∈ probes)
    (receives : Receives reference probe received middle)
    (isRtt : Timedelta.ofSeconds (received.mono - probe.sent.mono) = .ok rtt)
    (sameEpoch : probe.epoch = middle.epoch)
    (measured : measure probe.sent received rtt moment = .ok sample)
    (likely : |sample.offset.micros| ≤ maxPlausibleOffset.micros) :
    Sound (middle.accept sample) probes := by
  have kept := sound.receives receives
  obtain ⟨since, suffix, isReceipt, calm⟩ := receives.since sound member
  obtain ⟨half, -, -, sameRtt, sameWall, sameMono⟩ := measure_eq_ok measured
  have taken : Taken middle.readings sample :=
    ⟨probe.sent, received, since, ⟨suffix, calm sameEpoch⟩, isReceipt, sameWall, sameMono,
      by rw [sameRtt, isRtt]⟩
  have inWindow : ∀ other ∈ (middle.accept sample).samples,
      other ∈ middle.samples ∨ other = sample := by
    intro other inside
    rcases List.mem_append.mp (mem_lastN inside) with old | new
    · exact .inl old
    · exact .inr (List.mem_singleton.mp new)
  refine ⟨kept.anchor, ?_, ?_, ?_, fun pending => absurd rfl pending, kept.known⟩
  · change ((middle.samples ++ [sample]).lastN windowSamples).length ≤ windowSamples
    rw [List.lastN, List.length_drop]
    omega
  · intro other inside
    rcases inWindow other inside with old | rfl
    · exact kept.taken other old
    · exact taken
  · intro other inside
    rcases inWindow other inside with old | rfl
    · exact kept.likely other old
    · exact likely

/-- The status and the record of a cycle do not matter. -/
theorem Sound.withCycle (sound : Sound reference probes) (status : Status)
    (record : Option CycleRecord) :
    Sound { reference with cycleRecord := record, cycleStatus := status } probes :=
  ⟨sound.anchor, sound.bounded, sound.taken, sound.likely, sound.backward, sound.known⟩

theorem Sound.finishes {serverTime : ServerTime} {result : Except TimeError Status}
    {after : ClockReference} (sound : Sound reference probes) (member : probe ∈ probes)
    (finishes : Finishes reference probe serverTime result after) : Sound after probes := by
  cases finishes with
  | unread => exact sound
  | raised receives failure record =>
      exact (sound.receives receives).withCycle _ record
  | rejected receives status _ record =>
      exact (sound.receives receives).withCycle status record
  | applied receives isRtt _ sameEpoch _ measured likely record =>
      exact (sound.accept member receives isRtt sameEpoch measured likely).withCycle
        .applied record

end Finished

/-! ## Every call keeps it -/

theorem Sound.effect {world after : World} {call : Call} {answer : Answer}
    (sound : Sound world.reference world.probes) (effect : Effect world call answer after) :
    Sound after.reference after.probes := by
  cases effect with
  | nothing => exact sound
  | begun reads =>
      have cleared : Sound world.reference.cleared world.probes :=
        ⟨sound.anchor, sound.bounded, sound.taken, sound.likely, sound.backward, sound.known⟩
      exact cleared.reads reads
  | told observed => exact sound.observe observed
  | sent observed =>
      have kept := sound.observe observed
      obtain ⟨-, -, readings⟩ := world.reference.observe_kept observed
      refine ⟨kept.anchor, kept.bounded, kept.taken, kept.likely, kept.backward, ?_⟩
      intro probe member
      rcases List.mem_append.mp member with old | new
      · exact kept.known probe old
      · rw [List.mem_singleton.mp new]
        refine ⟨le_refl _, [], ?_, ?_, fun _ => List.isChain_singleton _⟩
        · rw [readings]
          exact List.suffix_append _ _
        · intro received noReceipt
          cases noReceipt
  | @received place probe reading reference answer found observed =>
      have kept := sound.observe observed
      obtain ⟨-, -, readings⟩ := world.reference.observe_kept observed
      refine ⟨kept.anchor, kept.bounded, kept.taken, kept.likely, kept.backward, ?_⟩
      intro other member
      rcases List.mem_or_eq_of_mem_set member with old | rfl
      · exact kept.known other old
      · obtain ⟨epoch, since, suffix, -, calm⟩ :=
          kept.known probe (List.mem_of_getElem? found)
        refine ⟨epoch, since, suffix, ?_, calm⟩
        intro received isReceived
        cases isReceived
        exact mem_of_suffix_snoc (readings ▸ suffix)
  | finished found finishes => exact sound.finishes (List.mem_of_getElem? found) finishes

/-- The invariant holds after every run. -/
theorem sound_run (derived : Bool) (inputs : List (Call × Tick)) :
    Sound (machine.run ⟨.fresh derived, []⟩ inputs).reference
      (machine.run ⟨.fresh derived, []⟩ inputs).probes :=
  machine.run_invariant (fun _ => True) (fun world => Sound world.reference world.probes)
    (fun world input _ sound => sound.effect (world.step_effect input.1 input.2)) inputs
    ⟨.fresh derived, []⟩ (fun _ _ => trivial) (sound_fresh derived)

end CryptoRadar.Clock
