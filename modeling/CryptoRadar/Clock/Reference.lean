import CryptoRadar.Lib.Machine
import CryptoRadar.Lib.Program
import CryptoRadar.Lib.Timedelta

/-!
# The corrected clock

The clock reference estimates the offset of the local wall clock from the round trips of
tickers requests. One round trip gives a sample: the offset of the venue's time from the wall
time at the middle of the round trip, and the round trip itself, measured on the monotonic
clock. The corrected time is the wall time plus the offset of the sample with the least
uncertainty now.

Every operation makes at most one paired reading of the two clocks (`read`), and a reading
compares itself with the one before it. A step of the wall clock against the monotonic clock
above the tolerance drops every sample and starts a new epoch, in which no round trip sent
before counts.

`readings` is a history: all readings so far, of which the program keeps the last one only
(`anchor`). A wall clock gives times without an offset, or aware ones, here as microseconds of
UTC. Where the reference has no monotonic clock, the monotonic time is made of the wall time.
-/

set_option autoImplicit false

namespace CryptoRadar.Clock

/-! ## Settings -/

/-- `WINDOW_SAMPLES`. -/
def windowSamples : ℕ := 8

/-- `MAX_SAMPLE_AGE`. -/
def maxSampleAge : Timedelta := ⟨300000000, Timedelta.fiveMinutes_inRange⟩

/-- `DRIFT_ALLOWANCE`. -/
def driftAllowance : Double := ⟨100e-6⟩

/-- `SERVER_TIME_RESOLUTION`. -/
def serverTimeResolution : Timedelta := ⟨1000, by decide⟩

/-- `MAX_PLAUSIBLE_OFFSET`. -/
def maxPlausibleOffset : Timedelta := ⟨60000000, by decide⟩

/-- `JUMP_TOLERANCE`. -/
def jumpTolerance : Timedelta := ⟨100000, by decide⟩

/-- `_EPOCH`. -/
def epochStart : Moment := ⟨0, Moment.epoch_inRange⟩

/-! ## Readings, samples and probes -/

/-- What a wall clock gives. -/
inductive WallTime where
  | naive
  | aware (utcMicros : ℤ)
  deriving DecidableEq

/-- The time as a UTC moment: a naive one is refused, and the calendar may end. -/
def WallTime.toUtc : WallTime → Except TimeError Moment
  | .naive => .error .value
  | .aware utcMicros =>
      if within : Moment.least ≤ utcMicros ∧ utcMicros ≤ Moment.greatest then
        .ok ⟨utcMicros, within⟩
      else .error .overflow

/-- The wall clock and the monotonic clock, read together. -/
structure Reading where
  wall : Moment
  mono : Double
  deriving DecidableEq

/-- The offset that one probe measured. -/
structure Sample where
  offset : Timedelta
  rtt : Timedelta
  wall : Moment
  mono : Double
  deriving DecidableEq

/-- The monotonic time since the probe. -/
def Sample.age (sample : Sample) (reading : Reading) : Except TimeError Timedelta :=
  Timedelta.ofSeconds (reading.mono - sample.mono)

/-- `uncertainty`. -/
def Sample.uncertainty (sample : Sample) (reading : Reading) : Except TimeError Timedelta := do
  let age ← sample.age reading
  let moved ← (Timedelta.between reading.wall sample.wall).sub age
  let divergence ← moved.abs
  let half ← sample.rtt.half
  let measured ← half.add serverTimeResolution
  let drift ← age.scale driftAllowance.toRat
  let aged ← measured.add drift
  aged.add divergence

/-- Whether a sample is neither from the future nor too old. -/
def Sample.isValid (reading : Reading) (sample : Sample) : Except TimeError Bool := do
  let age ← sample.age reading
  return 0 ≤ age.micros ∧ age.micros ≤ maxSampleAge.micros

/-- A probe: when it was sent, and when its answer came. -/
structure ClockProbe where
  sent : Reading
  epoch : ℕ
  received : Option Reading
  deriving DecidableEq

/-- The status of a cycle. `noValidSample` is reported by the record only. -/
inductive Status where
  | unavailable
  | rejectedClockJump
  | rejectedImplausibleOffset
  | rejectedInconsistentOffset
  | applied
  | noValidSample
  deriving DecidableEq, Repr

/-- What the record keeps of the round trip that was finished last. Times and differences
stand for their texts and their milliseconds. -/
structure CycleRecord where
  sentAt : Moment
  receivedAt : Moment
  serverTime : Option Moment
  offsetBound : Option Timedelta
  measuredOffset : Option Timedelta
  measuredRtt : Option Timedelta
  deriving DecidableEq

/-- The fields of a `ClockReference`. -/
structure ClockReference where
  /-- Whether there is no monotonic clock. -/
  derived : Bool
  samples : List Sample
  anchor : Option Reading
  epoch : ℕ
  backwardPending : Option Timedelta
  cycleStatus : Status
  cycleJump : Option Timedelta
  cycleRecord : Option CycleRecord
  readings : List Reading
  deriving DecidableEq

/-- A reference that has measured nothing. -/
def ClockReference.fresh (derived : Bool) : ClockReference where
  derived := derived
  samples := []
  anchor := none
  epoch := 0
  backwardPending := none
  cycleStatus := .unavailable
  cycleJump := none
  cycleRecord := none
  readings := []

/-- What the two clocks show when an operation reads them. -/
structure Tick where
  wall : WallTime
  mono : Double
  deriving DecidableEq

/-! ## Readings -/

/-- The operations of a reference. One that raises keeps what it wrote before. -/
abbrev Operation : Type → Type := Program ClockReference TimeError

/-- The move of the wall clock against the monotonic clock between two readings. -/
def stepBetween (anchor reading : Reading) : Except TimeError Timedelta := do
  let elapsed ← Timedelta.ofSeconds (reading.mono - anchor.mono)
  (Timedelta.between reading.wall anchor.wall).sub elapsed

/-- The step is above the tolerance. -/
def isJump (step : Timedelta) : Bool := jumpTolerance.micros < |step.micros|

namespace ClockReference

variable (reference : ClockReference)

/-- A discontinuity: every sample goes, and a new epoch begins. -/
def jumped (step : Timedelta) : ClockReference :=
  { reference with
    samples := []
    epoch := reference.epoch + 1
    cycleJump := some step
    backwardPending := if step.micros < 0 then some step else reference.backwardPending }

/-- The reading becomes the anchor of the next. -/
def anchored (reading : Reading) : ClockReference :=
  { reference with anchor := some reading, readings := reference.readings ++ [reading] }

/-- What a reading leaves. -/
def observe (reading : Reading) : Except TimeError ClockReference := do
  match reference.anchor with
  | none => return reference.anchored reading
  | some anchor =>
      let step ← stepBetween anchor reading
      return (if isJump step then reference.jumped step else reference).anchored reading

/-- `_read`. -/
def readingOf (tick : Tick) : Except TimeError Reading := do
  let wall ← tick.wall.toUtc
  let mono := if reference.derived then (Timedelta.between wall epochStart).totalSeconds
    else tick.mono
  return ⟨wall, mono⟩

end ClockReference

/-- `_read`. -/
def read (tick : Tick) : Operation Reading := do
  let reference ← get
  let reading ← Program.lift (reference.readingOf tick)
  let observed ← Program.lift (reference.observe reading)
  set observed
  return reading

/-- The first of the samples with the least key. -/
def firstLeast : List (Timedelta × Sample) → Option Sample
  | [] => none
  | first :: rest =>
      some (rest.foldl (fun least pair =>
        if pair.1.micros < least.1.micros then pair else least) first).2

/-- `_best`: the valid sample with the least uncertainty. -/
def best (samples : List Sample) (reading : Reading) : Except TimeError (Option Sample) := do
  let valid ← Checked.select (Sample.isValid reading) samples
  let keyed ← valid.mapM fun sample => do
    let uncertainty ← sample.uncertainty reading
    return (uncertainty, sample)
  return firstLeast keyed

/-- The best sample of a cycle whose own measurement was applied. -/
def ClockReference.used (reference : ClockReference) (reading : Reading) :
    Except TimeError (Option Sample) :=
  if reference.cycleStatus = .applied then best reference.samples reading else .ok none

/-- An operation that reads the clocks and computes its value from there. -/
def observing {Value : Type} (compute : ClockReference → Reading → Except TimeError Value)
    (tick : Tick) : Operation Value := do
  let reading ← read tick
  let reference ← get
  Program.lift (compute reference reading)

/-- `raw_now`. -/
def rawNow (tick : Tick) : Operation Moment := observing (fun _ reading => .ok reading.wall) tick

/-- The wall clock with the offset of the sample in use. -/
def ClockReference.corrected (reference : ClockReference) (reading : Reading) :
    Except TimeError Moment := do
  match ← reference.used reading with
  | some sample => reading.wall.shift sample.offset
  | none => return reading.wall

/-- `now`. -/
def now (tick : Tick) : Operation Moment := observing ClockReference.corrected tick

/-! ## Cycle and measurement -/

/-- What a cycle has found out is forgotten. -/
def ClockReference.cleared (reference : ClockReference) : ClockReference :=
  { reference with cycleStatus := .unavailable, cycleJump := none, cycleRecord := none }

/-- `begin_cycle`. -/
def beginCycle (tick : Tick) : Operation Unit := do
  let reference ← get
  set reference.cleared
  -- a step since the previous cycle is a jump of this one
  let _ ← read tick
  return ()

/-- `start_probe`. -/
def startProbe (tick : Tick) : Operation ClockProbe :=
  observing (fun reference sent => .ok ⟨sent, reference.epoch, none⟩) tick

/-- `ClockProbe.receipt`: the probe with its receipt. -/
def receipt (probe : ClockProbe) (tick : Tick) : Operation ClockProbe :=
  observing (fun _ received => .ok { probe with received := some received }) tick

/-- The time of the venue that came with a round trip. -/
inductive ServerTime where
  | missing
  | naive
  | at (moment : Moment)
  deriving DecidableEq

/-- The server time, if it is an aware time. -/
def ServerTime.moment? : ServerTime → Option Moment
  | .at moment => some moment
  | _ => none

/-- The bound without a correction. A naive time cannot be subtracted. -/
def offsetBound (sent received : Reading) : ServerTime → Except TimeError (Option Timedelta)
  | .missing => .ok none
  | .naive => .error .type
  | .at moment => do
      let early ← (Timedelta.between moment sent.wall).abs
      let late ← (Timedelta.between received.wall moment).abs
      let bound ← (if early.micros < late.micros then late else early).add serverTimeResolution
      return some bound

/-- The sample of a round trip. -/
def measure (sent received : Reading) (rtt : Timedelta) (serverTime : Moment) :
    Except TimeError Sample := do
  let half ← rtt.half
  let middle ← sent.wall.shift half
  return ⟨Timedelta.between serverTime middle, rtt, received.wall, received.mono⟩

/-- `_consistent`: the interval of the new offset overlaps that of every valid sample. -/
def consistent (sample : Sample) (reading : Reading) : List Sample → Except TimeError Bool
  | [] => .ok true
  | other :: rest => do
      if !(← other.isValid reading) then consistent sample reading rest
      else
        let apart ← (← sample.offset.sub other.offset).abs
        let half ← sample.rtt.half
        let own ← half.add serverTimeResolution
        let limit ← own.add (← other.uncertainty reading)
        if limit.micros < apart.micros then return false else consistent sample reading rest

/-- What becomes of a measured sample. -/
def judge (samples : List Sample) (sample : Sample) (received : Reading) :
    Except TimeError Status := do
  if maxPlausibleOffset.micros < |sample.offset.micros| then return .rejectedImplausibleOffset
  else if ← consistent sample received samples then return .applied
  else return .rejectedInconsistentOffset

/-- A sample that is applied enters the window, which keeps the last ones. -/
def ClockReference.accept (reference : ClockReference) (sample : Sample) : ClockReference :=
  { reference with
    samples := (reference.samples ++ [sample]).lastN windowSamples
    backwardPending := none }

/-- The receipt of a probe; a probe without one is received now. -/
def receivedBy (probe : ClockProbe) (tick : Tick) : Operation Reading :=
  match probe.received with
  | some received => return received
  | none => read tick

/-- The part of `finish_probe` that turns the round trip into a sample. -/
def finishMeasured (probe : ClockProbe) (serverTime : Moment) (received : Reading) (rtt : Timedelta)
    (record : CycleRecord) : Operation Status := do
  let sample ← Program.lift (measure probe.sent received rtt serverTime)
  let reference ← get
  set { reference with
    cycleRecord := some { record with measuredOffset := some sample.offset, measuredRtt := some rtt } }
  let reference ← get
  let status ← Program.lift (judge reference.samples sample received)
  if status = .applied then set (reference.accept sample)
  return status

/-- `finish_probe`. -/
def finishProbe (probe : ClockProbe) (serverTime : ServerTime) (tick : Tick) :
    Operation Status := do
  let received ← receivedBy probe tick
  let rtt ← Program.lift (Timedelta.ofSeconds (received.mono - probe.sent.mono))
  let bound ← Program.lift (offsetBound probe.sent received serverTime)
  let record : CycleRecord :=
    ⟨probe.sent.wall, received.wall, serverTime.moment?, bound, none, none⟩
  let reference ← get
  set { reference with cycleRecord := some record }
  let status ← match serverTime.moment? with
    | none => pure Status.unavailable
    | some moment =>
        if probe.epoch ≠ reference.epoch ∨ rtt.micros < 0 then pure .rejectedClockJump
        else finishMeasured probe moment received rtt record
  let reference ← get
  set { reference with cycleStatus := status }
  return status

/-! ## Evidence -/

/-- What the integrity checks read of the clock. -/
structure ClockSample where
  synchronized : Option Bool
  offsetUncertainty : Option Timedelta
  previousWallTime : Option Moment
  backwardJump : Option Timedelta
  deriving DecidableEq

/-- The sample of the clock at a reading. -/
def ClockReference.evidence (reference : ClockReference) (reading : Reading) :
    Except TimeError ClockSample := do
  let jump := reference.backwardPending
  if reference.cycleStatus = .unavailable then return ⟨none, none, none, jump⟩
  else
    match ← reference.used reading with
    | none => return ⟨some false, none, none, jump⟩
    | some sample =>
        let uncertainty ← sample.uncertainty reading
        return ⟨some true, some uncertainty, none, jump⟩

/-- `sample`. -/
def sample (tick : Tick) : Operation ClockSample := observing ClockReference.evidence tick

/-- The part of the record that tells of a sample in use. -/
structure UsedRecord where
  offset : Timedelta
  uncertainty : Timedelta
  rtt : Timedelta
  sampleAge : Timedelta
  deriving DecidableEq

/-- What a run records of the clock. -/
structure RunRecord where
  cycle : Option CycleRecord
  status : Status
  used : Option UsedRecord
  samplesInWindow : ℕ
  jumpDetected : Option Timedelta
  deriving DecidableEq

/-- What is recorded of the sample in use. -/
def Sample.usedRecord (reading : Reading) (sample : Sample) : Except TimeError UsedRecord := do
  let uncertainty ← sample.uncertainty reading
  let age ← sample.age reading
  return ⟨sample.offset, uncertainty, sample.rtt, age⟩

/-- The record of a run at a reading. -/
def ClockReference.runRecord (reference : ClockReference) (reading : Reading) :
    Except TimeError RunRecord := do
  let sample ← reference.used reading
  -- a discontinuity since the measurement has discarded it
  let status := if reference.cycleStatus = .applied ∧ sample = none then .noValidSample
    else reference.cycleStatus
  let used ← sample.mapM (Sample.usedRecord reading)
  let valid ← Checked.select (Sample.isValid reading) reference.samples
  return ⟨reference.cycleRecord, status, used, valid.length, reference.cycleJump⟩

/-- `record`. -/
def record (tick : Tick) : Operation RunRecord := observing ClockReference.runRecord tick

/-! ## Runs -/

/-- A reference and the probes that were started, in order. -/
structure World where
  reference : ClockReference
  probes : List ClockProbe
  deriving DecidableEq

/-- The calls of a reference. -/
inductive Call where
  | beginCycle
  | startProbe
  | receipt (probe : ℕ)
  | finishProbe (probe : ℕ) (serverTime : ServerTime)
  | rawNow
  | now
  | sample
  | record
  deriving DecidableEq

/-- What a call returns. -/
inductive Answer where
  | done
  | time (moment : Moment)
  | status (status : Status)
  | sample (sample : ClockSample)
  | record (record : RunRecord)
  | raised (failure : TimeError)
  | noProbe
  deriving DecidableEq

/-- The answer of an operation, and the world after it. -/
def World.perform {Value : Type} (world : World) (operation : Operation Value)
    (answer : Value → Answer) (probes : Value → List ClockProbe) : Answer × World :=
  match operation.exec world.reference with
  | (.ok value, reference) => (answer value, ⟨reference, probes value⟩)
  | (.error failure, reference) => (.raised failure, ⟨reference, world.probes⟩)

/-- One call, at what the clocks show if it reads them. -/
def World.step (world : World) (call : Call) (tick : Tick) : Answer × World :=
  match call with
  | .beginCycle => world.perform (Clock.beginCycle tick) (fun _ => .done) fun _ => world.probes
  | .startProbe =>
      world.perform (Clock.startProbe tick) (fun _ => .done) fun probe =>
        world.probes ++ [probe]
  | .receipt place =>
      match world.probes[place]? with
      | none => (.noProbe, world)
      | some probe =>
          world.perform (Clock.receipt probe tick)
            (fun received => (received.received.map (.time ·.wall)).getD .done)
            fun received => world.probes.set place received
  | .finishProbe place serverTime =>
      match world.probes[place]? with
      | none => (.noProbe, world)
      | some probe =>
          world.perform (Clock.finishProbe probe serverTime tick) .status fun _ => world.probes
  | .rawNow => world.perform (Clock.rawNow tick) .time fun _ => world.probes
  | .now => world.perform (Clock.now tick) .time fun _ => world.probes
  | .sample => world.perform (Clock.sample tick) .sample fun _ => world.probes
  | .record => world.perform (Clock.record tick) .record fun _ => world.probes

/-- The calls of a process on one reference, in the order its lock gives them. -/
def machine : Runs.Machine World (Call × Tick) Answer where
  step world input := world.step input.1 input.2

end CryptoRadar.Clock
