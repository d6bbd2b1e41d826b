import CryptoRadar.Lib.Double
import CryptoRadar.Lib.Machine
import CryptoRadar.Scheduler.Backpressure
import CryptoRadar.Worker.Advance

/-!
# Every run of the worker

`Sound` is kept by every step of every thread: the fields of the worker owe nothing between the
locked sections, and at most one item runs. Two results follow for every run, whatever the ports
and the sink answer.

A publication is fenced and timely, and an item has one in a life (`publications_fenced`).

When the ports keep their promise, no flight leaves its item in the slot for good, and the sink
gets what was emitted (`slot_and_records_kept`).
-/

set_option autoImplicit false

namespace CryptoRadar.Worker

open Program
open Scheduler (statesOf AreLives OpportunityVersion QueuedEntry)
open Invocation (Lease TransitionStatus)

section Runs

variable {R F : Type} {settings : Settings F} {sink : Sink R}

/-! ## Threads without a flight -/

theorem changeActive_untouched (change : ActiveCall F → ActiveCall F) (state : State R F) :
    Untouched state (changeActive change state) := by
  unfold changeActive
  split
  next => exact ⟨rfl, rfl, rfl, rfl, rfl⟩
  next => exact ⟨rfl, rfl, rfl, rfl, rfl⟩

theorem ends_watchdogTick [PyFloat F] (state : State R F) (monotonic : F) :
    Ends (watchdogTick settings monotonic) state fun _ after => Untouched state after := by
  have refl : Untouched state state := ⟨rfl, rfl, rfl, rfl, rfl⟩
  refine ends_bind.mpr (ends_get.mpr ?_)
  split
  next => exact ends_pure.mpr refl
  next =>
    dsimp only
    split
    next =>
      obtain ⟨scheduler, versions, pending, pendingFail, journal⟩ := changeActive_untouched
        (fun call => { call with timedOut := true, cancel := true }) state
      exact ends_bind.mpr (ends_set.mpr (ends_pure.mpr
        ⟨scheduler, versions, pending, pendingFail, journal⟩))
    next =>
      split
      next => exact ends_bind.mpr (ends_set.mpr (ends_pure.mpr (changeActive_untouched _ state)))
      next => exact ends_pure.mpr refl

theorem ends_requestStop (state : State R F) :
    Ends requestStop state fun _ after => Untouched state after := by
  obtain ⟨scheduler, versions, pending, pendingFail, journal⟩ := changeActive_untouched
    (fun call => { call with cancel := true }) state
  exact ends_bind.mpr (ends_get.mpr (ends_set.mpr
    ⟨scheduler, versions, pending, pendingFail, journal⟩))

theorem ends_reviewProfile (state : State R F) :
    Ends reviewProfile state fun _ after => Untouched state after :=
  ends_bind.mpr (ends_get.mpr (ends_set.mpr ⟨rfl, rfl, rfl, rfl, rfl⟩))

theorem ends_releaseAll (release : Lease → Except Raised TransitionStatus) (recovered : Nat) :
    ∀ (leases : List Lease) (released : Nat) (state : State R F), Owing settings state [] →
      Ends (releaseAll release recovered leases released) state fun _ after =>
        Owing settings after [] ∧ Onward state after
  | [], _, state, owing => ends_pure.mpr ⟨owing, .refl state⟩
  | lease :: rest, released, state, owing => by
      refine (ends_note owing rfl).bind fun _ after noted => ?_
      obtain ⟨kept, rfl⟩ := noted
      have onward : Onward state { state with
          journal := state.journal ++ [.released lease .deadlineExpired (release lease)] } :=
        onward_answer state rfl
      split
      next =>
        exact (ends_releaseAll release recovered rest _ _ kept).mono fun _ last released =>
          ⟨released.1, onward.trans released.2⟩
      next => exact ends_pure.mpr ⟨kept, onward⟩
      next => exact ends_pure.mpr ⟨kept, onward⟩

theorem ends_recover {state : State R F} (owing : Owing settings state [])
    (expired : Except Raised (List Lease)) (release : Lease → Except Raised TransitionStatus) :
    Ends (recover expired release) state fun _ after =>
      Owing settings after [] ∧ Onward state after := by
  unfold recover
  split
  next leases => exact ends_releaseAll release _ leases 0 state owing
  next => exact ends_pure.mpr ⟨owing, .refl state⟩
  next => exact ends_pure.mpr ⟨owing, .refl state⟩

/-! ## The invariant -/

/-- Nothing is owed, an item that is to be closed later holds the slot, and at most one flight is
under way. -/
structure Sound (settings : Settings F) (world : World R F) : Prop where
  owing : Owing settings world.worker []
  retry : Retry world.worker
  flights : world.flights = [] ∨
    ∃ flight, world.flights = [flight] ∧ Underway settings world.worker flight

/-- With no flight under way, the item in the slot is to be closed later. -/
def World.Released (world : World R F) : Prop := world.flights = [] → Held world.worker

/-- The ports of the step keep their promise. -/
def Input.Kept : Input R F → Prop
  | .resume _ ports => ports.Kept
  | _ => True

theorem sound_initial : Sound settings (World.initial : World R F) := by
  have recorded : Scheduler.Recorded .initial [] .initial :=
    ⟨Scheduler.consistent_initial, .refl _⟩
  refine ⟨⟨recorded, fun _ => rfl, fun _ _ isOpen => ?_, fun _ _ isOpen => ?_, rfl,
    justified_nil _⟩, fun _ isLater => ?_, .inl rfl⟩
  · cases isOpen
  · cases isOpen
  · cases isLater

/-- What a step of the machine keeps: the invariant, and the slot when the ports are kept. -/
def Keeps (settings : Settings F) (world after : World R F) (kept : Prop) : Prop :=
  Sound settings after ∧ (kept → world.Released → after.Released)

variable {world : World R F} (sound : Sound settings world)
include sound

/-- A section that starts and ends no flight. -/
theorem Sound.between {α : Type} {section_ : Work R F α}
    (ends : Ends section_ world.worker fun _ after =>
      Owing settings after [] ∧ Onward world.worker after)
    (outcome : α → Outcome) (kept : Prop) :
    Keeps settings world (world.between section_ outcome).2 kept := by
  obtain ⟨value, after, ran, owing, onward⟩ := ends
  unfold World.between
  rw [ran]
  refine ⟨⟨owing, onward.retry sound.retry, ?_⟩, fun _ released idle => onward.held (released idle)⟩
  rcases sound.flights with idle | ⟨flight, isFlight, underway⟩
  · exact .inl idle
  · exact .inr ⟨flight, isFlight, underway.onward onward⟩

theorem Sound.between_untouched {α : Type} {section_ : Work R F α}
    (ends : Ends section_ world.worker fun _ after => Untouched world.worker after)
    (outcome : α → Outcome) (kept : Prop) :
    Keeps settings world (world.between section_ outcome).2 kept :=
  sound.between (ends.mono fun _ _ untouched => ⟨untouched.owing sound.owing, untouched.onward⟩)
    outcome kept

/-- The locked start of `process_next` starts a flight only when none is under way. -/
theorem Sound.start (retry dispatching closing : Option Moment) (kept : Prop) :
    Keeps settings world (world.start settings sink retry dispatching closing).2 kept := by
  have ends : Ends (processNext settings sink retry dispatching closing) world.worker _ :=
    ends_processNext sound.owing sound.retry retry dispatching closing
  obtain ⟨result, after, ran, owing, retryAfter, outcome⟩ := ends
  unfold World.start
  rw [ran]
  cases result with
  | error report =>
      obtain ⟨held, onward⟩ := outcome
      refine ⟨⟨owing, retryAfter, ?_⟩, fun _ released idle => held (released idle)⟩
      rcases sound.flights with idle | ⟨flight, isFlight, underway⟩
      · exact .inl idle
      · obtain ⟨entry, isSlot, _⟩ := underway.slot
        refine .inr ⟨flight, isFlight, underway.onward (onward underway.free ?_)⟩
        rw [isSlot]
        exact Option.some_ne_none entry
  | ok given =>
      obtain ⟨wasFree, started⟩ := outcome
      have idle : world.flights = [] := by
        rcases sound.flights with idle | ⟨flight, _, underway⟩
        · exact idle
        · obtain ⟨entry, isSlot, _⟩ := underway.slot
          rw [wasFree underway.free] at isSlot
          cases isSlot
      dsimp only
      refine ⟨⟨owing, retryAfter, .inr ⟨_, ?_, started⟩⟩, fun _ _ none => ?_⟩
      · rw [idle]
        rfl
      · simp at none

theorem Sound.resume [PyFloat F] (index : Nat) (ports : Ports R F) :
    Keeps settings world (world.resume settings sink index ports).2 ports.Kept := by
  unfold World.resume
  cases found : world.flights[index]? with
  | none => exact ⟨sound, fun _ released => released⟩
  | some flight =>
      dsimp only
      -- It is the only flight.
      obtain ⟨isOnly, first, underway⟩ : world.flights = [flight] ∧ index = 0 ∧
          Underway settings world.worker flight := by
        rcases sound.flights with idle | ⟨only, isOnly, underway⟩
        · simp [idle] at found
        · rw [isOnly, List.getElem?_singleton] at found
          split at found
          next first =>
            cases found
            exact ⟨isOnly, first, underway⟩
          next => cases found
      subst first
      have ends : Ends (advance settings sink ports flight) world.worker
          (Follows settings ports flight) :=
        ends_advance sound.owing underway
      obtain ⟨turn, after, ran, owing, follows⟩ := ends
      rw [ran]
      cases turn with
      | on phase =>
          dsimp only
          refine ⟨⟨owing, ?_, .inr ⟨_, ?_, follows⟩⟩, fun _ _ none => ?_⟩
          · exact retry_of_free follows.free
          · rw [isOnly]
            rfl
          · rw [isOnly] at none
            simp at none
      | done finish =>
          dsimp only
          refine ⟨⟨owing, follows.1, .inl ?_⟩, fun kept _ _ => follows.2 kept⟩
          rw [isOnly]
          rfl

/-- Every step of every thread keeps the invariant. -/
theorem Sound.next [PyFloat F] (input : Input R F) :
    Keeps settings world ((inferenceWorker settings sink).next world input) input.Kept := by
  cases input with
  | submit reading version => exact sound.between (ends_submit sound.owing reading version) _ _
  | processNext retry dispatching closing => exact sound.start retry dispatching closing _
  | resume index ports => exact sound.resume index ports
  | watchdogTick monotonic =>
      exact sound.between_untouched (ends_watchdogTick world.worker monotonic) _ _
  | requestStop => exact sound.between_untouched (ends_requestStop world.worker) _ _
  | reviewProfile => exact sound.between_untouched (ends_reviewProfile world.worker) _ _
  | recover expired release => exact sound.between (ends_recover sound.owing expired release) _ _

end Runs

/-! ## Publications -/

section Publications

variable {R F : Type} {settings : Settings F}

def Event.Dispatches (itemId : String) (event : Event R) : Prop :=
  ∃ reading result dispatched, event = .scheduled (.dispatch reading) (.ok (.dispatch result)) ∧
    result.dispatched = some dispatched ∧ dispatched.itemId = itemId

/-- What the journal shows of the publications: each batch handed to the sink was emitted with
the fence and the deadline kept, two publications of an item have a dispatch between them, and
the records of an item are whole lives with the states of the open one. -/
structure Fenced (settings : Settings F) (state : State R F) : Prop where
  handed : ∀ earlier batch accepted later,
    state.journal = earlier ++ .recorded batch accepted :: later →
      ∀ publication ∈ batch.publication, ∃ before after version lease now,
        earlier = before ++ .emitted batch :: after ∧
        Publishes settings before batch.transitions publication version lease now
  once : ∀ first one middle two last,
    state.journal = first ++ .emitted one :: (middle ++ .emitted two :: last) →
      ∀ publication ∈ one.publication, ∀ other ∈ two.publication,
        publication.itemId = other.itemId →
          ∃ event ∈ middle, event.Dispatches other.itemId
  lives : ∀ itemId,
    AreLives (statesOf itemId (recordsOf state.journal)) (state.scheduler.openStates itemId)

/-- An emitted publication is justified. -/
theorem Owing.publishes {state : State R F} {out : List Scheduler.Transition}
    (owing : Owing settings state out) {earlier later : List (Event R)} {batch : Batch R}
    (split : state.journal = earlier ++ .emitted batch :: later) {publication : Publication R}
    (isPublished : publication ∈ batch.publication) : ∃ version lease now,
      Publishes settings earlier batch.transitions publication version lease now := by
  have fits := owing.justified earlier _ later split
  obtain ⟨transitions, published⟩ := batch
  cases isPublished
  exact fits

/-- Since its dispatch a published item has made no other publication. -/
theorem Publishes.dispatched_after {first middle : List (Event R)} {one : Batch R}
    {transitions : List Scheduler.Transition} {publication other : Publication R}
    {version : OpportunityVersion} {lease : Lease} {now : Moment}
    (published : Publishes settings (first ++ .emitted one :: middle) transitions other version
      lease now)
    (completed : statesOf publication.itemId one.transitions = [.completed])
    (same : publication.itemId = other.itemId) :
    ∃ event ∈ middle, event.Dispatches other.itemId := by
  obtain ⟨before, reading, result, during, dispatched, _, _, _, split, isDispatched, sameId,
    states, _⟩ := published.dispatched
  rcases List.append_eq_append_iff.mp split with ⟨skipped, isBefore, rest⟩ | ⟨skipped, isFirst, rest⟩
  · cases skipped with
    | nil => cases rest
    | cons event skipped =>
        obtain ⟨_, isMiddle⟩ := List.cons_eq_cons.mp rest
        refine ⟨_, ?_, reading, result, dispatched, rfl, isDispatched, sameId⟩
        rw [isMiddle]
        exact List.mem_append_right _ List.mem_cons_self
  · cases skipped with
    | nil => cases rest
    | cons event skipped =>
        -- Then the first publication came after the dispatch, with its terminal record.
        have isDuring : during = skipped ++ .emitted one :: middle := (List.cons_eq_cons.mp rest).2
        rw [isDuring, recordsOf_append, recordsOf_cons, recordsOf_emitted, Scheduler.statesOf_append,
          Scheduler.statesOf_append, ← same, completed] at states
        have ended : Scheduler.ItemState.completed ∈ [Scheduler.ItemState.running] := by
          rw [← states]
          simp
        simp at ended

theorem Sound.fenced {world : World R F} (sound : Sound settings world) :
    Fenced settings world.worker := by
  refine ⟨fun earlier batch accepted later split publication isPublished => ?_,
    fun first one middle two last split publication isPublished other isOther same => ?_,
    fun itemId => ?_⟩
  · have isEmitted : Event.emitted batch ∈ earlier := sound.owing.justified earlier _ later split
    obtain ⟨before, after, rfl⟩ := List.append_of_mem isEmitted
    rw [List.append_assoc, List.cons_append] at split
    obtain ⟨version, lease, now, published⟩ := sound.owing.publishes split isPublished
    exact ⟨before, after, version, lease, now, rfl, published⟩
  · obtain ⟨_, _, _, published⟩ := sound.owing.publishes split isPublished
    have later : world.worker.journal = (first ++ .emitted one :: middle) ++ .emitted two :: last := by
      rw [split, List.append_assoc, List.cons_append]
    obtain ⟨_, _, _, publishedLater⟩ := sound.owing.publishes later isOther
    exact publishedLater.dispatched_after published.completed same
  · have follows := sound.owing.recorded.follows itemId
    rw [List.append_nil] at follows
    exact follows

end Publications

section Results

variable {R F : Type} [PyFloat F] (settings : Settings F) (sink : Sink R)

/-- In every run a publication is fenced and timely, and an item has one between dispatches. -/
theorem publications_fenced (inputs : List (Input R F)) :
    Fenced settings ((inferenceWorker settings sink).run .initial inputs).worker := by
  have sound := (inferenceWorker settings sink).run_invariant (fun _ => True) (Sound settings)
    (fun _ input _ sound => (sound.next input).1) inputs .initial (fun _ _ => trivial) sound_initial
  exact sound.fenced

/-- When the ports keep their promise: with no flight under way the item in the slot is to be
closed later, the versions are kept of the items that are queued or run on, and the sink has
accepted the emitted batches but for the last ones, which wait in order. -/
theorem slot_and_records_kept (inputs : List (Input R F)) (kept : ∀ input ∈ inputs, input.Kept) :
    let world := (inferenceWorker settings sink).run .initial inputs
    let scheduler := world.worker.scheduler
    (world.flights = [] → ∀ running, scheduler.running = some running →
      world.worker.pendingFail = some running.entry.itemId) ∧
    (∀ itemId, (world.worker.versions.get? itemId).isSome ↔
      (scheduler.queue.get? itemId).isSome ∨ ∃ running, scheduler.running = some running ∧
        running.entry.itemId = itemId ∧ running.aborted = false) ∧
    acceptedBatches world.worker.journal ++ world.worker.pending =
      emittedBatches world.worker.journal := by
  obtain ⟨sound, released⟩ := (inferenceWorker settings sink).run_invariant Input.Kept
    (fun world => Sound settings world ∧ world.Released)
    (fun _ input kept holds =>
      ⟨(holds.1.next input).1, (holds.1.next input).2 kept holds.2⟩)
    inputs .initial kept ⟨sound_initial, fun _ _ isHeld => by cases isHeld⟩
  refine ⟨fun idle running held => ?_, fun itemId => ?_, sound.owing.balanced⟩
  · refine released idle running.entry ?_
    rw [Option.mem_def]
    simp [Scheduler.State.slot, held]
  · rw [sound.owing.get?_versions, Option.isSome_map]
    exact Scheduler.State.openEntry_isSome_iff

end Results

/-! ## A run that publishes -/

open Scheduler (epoch lowBreakout)

def screener : InferenceProfile where
  profileId := "screener"
  model := "local"
  role := .screener
  hardTimeoutSeconds := 30
  contextTokens := 4096
  outputCapTokens := 768
  think := false
  idIsPlain := by decide
  modelIsPlain := by decide
  inProduction := rfl
  timeoutPositive := by decide
  outputPositive := by decide
  outputFitsContext := by decide

def screening : Settings Double where
  policy := .oc1
  profile := screener
  grace := 5.0
  -- One call with the whole timeout is made below.
  totalSeconds _ := 30.0
  failurePolicy := ⟨2, 600.0, by decide⟩
  roleEnabled := rfl
  timeoutFits := le_refl _
  outputFits := le_refl _

/-- Ports that answer at once. -/
def prompt : Ports String Double where
  reading := some epoch
  current := some epoch
  monotonic := 0.0
  failedAt := 0.0
  prepare _ _ := .ok ⟨"", "", .null, 100⟩
  infer _ := .result (.reply .null)
  interpret _ := .ok (some "long")
  claim _ _ _ := .ok (.claimed ⟨"first", 1, "worker", epoch⟩ ⟨"local", ⟨0, 0⟩, 1, 10, 1, 10⟩)
  recordAttempt _ := .ok .applied
  complete _ := .ok .applied
  release _ _ := .ok .applied

/-- A breakout is submitted, dispatched and run to its end. -/
def oneItem : List (Input String Double) :=
  [.submit (some epoch) lowBreakout, .processNext none (some epoch) none] ++
    List.replicate 9 (.resume 0 prompt)

example : (emittedBatches ((inferenceWorker screening fun _ _ => true).run .initial oneItem).worker.journal).filterMap
    Batch.publication = [⟨"low", "first", "screener", "local", "long"⟩] := by
  decide +kernel

theorem kept_prompt : prompt.Kept := by
  refine ⟨Option.some_ne_none epoch, ?_, ?_, ?_, ?_⟩
  all_goals
    intros
    intro raised isRaised
    cases isRaised

theorem slot_and_records_kept_oneItem :
    let world := (inferenceWorker screening fun _ _ => true).run .initial oneItem
    let scheduler := world.worker.scheduler
    (world.flights = [] → ∀ running, scheduler.running = some running →
      world.worker.pendingFail = some running.entry.itemId) ∧
    (∀ itemId, (world.worker.versions.get? itemId).isSome ↔
      (scheduler.queue.get? itemId).isSome ∨ ∃ running, scheduler.running = some running ∧
        running.entry.itemId = itemId ∧ running.aborted = false) ∧
    acceptedBatches world.worker.journal ++ world.worker.pending =
      emittedBatches world.worker.journal := by
  refine slot_and_records_kept screening (fun _ _ => true) oneItem fun input member => ?_
  rcases List.mem_append.mp member with first | resumed
  · rcases List.mem_pair.mp first with rfl | rfl
    · trivial
    · trivial
  · rw [(List.mem_replicate.mp resumed).2]
    exact kept_prompt

end CryptoRadar.Worker
