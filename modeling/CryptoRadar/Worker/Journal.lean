import CryptoRadar.Scheduler.Slot
import CryptoRadar.Worker.Flight

/-!
# What the journal of the worker shows

The journal has the batches the worker emitted, those the sink accepted and the answers of the
scheduler and the ledger. `Publishes` says when a batch may carry a publication: the item was
admitted and dispatched in the life it is in, its lease was claimed for it and the ledger applied
the completion under that lease, and the scheduler completed it before its deadline.

`Owing settings state out` is the invariant of the fields of the worker while the records `out`
of the last call of the scheduler are not emitted yet; between the locked sections `out` is
empty. `Underway` is what holds of a running flight, and `Onward` what a section keeps of it.
-/

set_option autoImplicit false

namespace CryptoRadar.Worker

open Scheduler (closes statesOf Recorded Told Opens OpportunityVersion QueuedEntry)
open Invocation (Lease BudgetUsage)

/-! ## Logs -/

section Logs

variable {α : Type}

/-- Every entry of the log is as it should be after the ones before it. -/
def Justified (Fits : List α → α → Prop) (log : List α) : Prop :=
  ∀ earlier entry later, log = earlier ++ entry :: later → Fits earlier entry

theorem justified_nil (Fits : List α → α → Prop) : Justified Fits [] := by
  intro earlier entry later split
  simp at split

theorem Justified.concat {Fits : List α → α → Prop} {log : List α} (justified : Justified Fits log)
    {entry : α} (fits : Fits log entry) : Justified Fits (log ++ [entry]) := by
  intro earlier found later split
  cases later using List.reverseRecOn with
  | nil =>
      obtain ⟨rfl, isLast⟩ := List.append_inj' split rfl
      cases isLast
      exact fits
  | append_singleton init last _ =>
      rw [← List.cons_append, ← List.append_assoc] at split
      exact justified earlier found init (List.append_inj' split rfl).1

end Logs

section Journal

variable {R F : Type}

/-! ## Batches -/

def Event.emission : Event R → Option (Batch R)
  | .emitted batch => some batch
  | _ => none

def Event.acceptance : Event R → Option (Batch R)
  | .recorded batch true => some batch
  | _ => none

/-- The batches emitted so far, in order. -/
def emittedBatches (journal : List (Event R)) : List (Batch R) := journal.filterMap Event.emission

/-- The batches the sink accepted, in order. -/
def acceptedBatches (journal : List (Event R)) : List (Batch R) :=
  journal.filterMap Event.acceptance

/-- The records of the emitted batches. -/
def recordsOf (journal : List (Event R)) : List Scheduler.Transition :=
  (emittedBatches journal).flatMap Batch.transitions

@[simp] theorem emittedBatches_append (first second : List (Event R)) :
    emittedBatches (first ++ second) = emittedBatches first ++ emittedBatches second :=
  List.filterMap_append

@[simp] theorem acceptedBatches_append (first second : List (Event R)) :
    acceptedBatches (first ++ second) = acceptedBatches first ++ acceptedBatches second :=
  List.filterMap_append

@[simp] theorem recordsOf_nil : recordsOf ([] : List (Event R)) = [] := rfl

@[simp] theorem recordsOf_append (first second : List (Event R)) :
    recordsOf (first ++ second) = recordsOf first ++ recordsOf second := by
  simp [recordsOf]

theorem recordsOf_cons (event : Event R) (rest : List (Event R)) :
    recordsOf (event :: rest) = recordsOf [event] ++ recordsOf rest :=
  recordsOf_append [event] rest

@[simp] theorem recordsOf_emitted (batch : Batch R) :
    recordsOf [Event.emitted batch] = batch.transitions := by
  simp [recordsOf, emittedBatches, Event.emission]

/-! ## Publications -/

def admission (reading : Option Moment) (version : OpportunityVersion)
    (result : Scheduler.AdmissionResult) : Event R :=
  .scheduled (.admitVersion reading version) (.ok (.admission result))

/-- The claim of a lease, and its completion once the ledger applied it. -/
def fence (identity : Invocation.InvocationIdentity) (model : String) (seconds : ℤ) (lease : Lease)
    (usage : BudgetUsage) (applied : Bool) : List (Event R) :=
  .claimed identity model seconds (.ok (.claimed lease usage)) ::
    if applied then [.completed lease (.ok .applied)] else []

variable (settings : Settings F)

/-- The deadline of a version: its origin and the limit of its horizon. -/
def Settings.deadlineMicros (version : OpportunityVersion) : ℤ :=
  version.origin.micros +
    Moment.seconds (settings.policy.horizonLimits version.horizon).analysisDeadlineSeconds

/-- The item of the version is in a life that began in the journal and has these states. -/
def Opened (journal : List (Event R)) (version : OpportunityVersion)
    (out : List Scheduler.Transition) (states : List Scheduler.ItemState) : Prop :=
  ∃ earlier reading result later, journal = earlier ++ admission reading version result :: later ∧
    result.status = .admitted ∧ statesOf version.itemId (recordsOf later ++ out) = states

/-- A batch that carries a publication, after the journal so far. -/
structure Publishes (earlier : List (Event R)) (transitions : List Scheduler.Transition)
    (publication : Publication R) (version : OpportunityVersion) (lease : Lease) (now : Moment) :
    Prop where
  opened : Opened earlier version [] [.queued, .running]
  dispatched : ∃ before reading result during dispatched seconds usage completion,
    earlier = before ++ .scheduled (.dispatch reading) (.ok (.dispatch result)) :: during ∧
    result.dispatched = some dispatched ∧ dispatched.itemId = publication.itemId ∧
    statesOf publication.itemId (recordsOf during) = [.running] ∧
    List.Sublist (fence version.identity settings.profile.model seconds lease usage true ++
      [.scheduled (.complete (some now) publication.itemId) (.ok (.completion completion))]) during ∧
    completion.publishable = true ∧ completion.transitions = transitions
  timely : now.micros < settings.deadlineMicros version
  completed : statesOf publication.itemId transitions = [.completed]
  named : publication.itemId = version.itemId ∧ publication.invocationId = lease.invocationId ∧
    publication.profileId = settings.profile.profileId ∧ publication.model = settings.profile.model

/-- What the journal so far must show for an event. -/
def Event.Fits (earlier : List (Event R)) : Event R → Prop
  | .emitted ⟨transitions, some publication⟩ =>
      ∃ version lease now, Publishes settings earlier transitions publication version lease now
  | .recorded batch _ => .emitted batch ∈ earlier
  | _ => True

/-! ## The fields of the worker -/

/-- The invariant of the fields, while the records `out` are not emitted yet. -/
structure Owing (state : State R F) (out : List Scheduler.Transition) : Prop where
  recorded : Recorded .initial (recordsOf state.journal ++ out) state.scheduler
  versions : ∀ itemId, (if closes out itemId then none else state.versions.get? itemId) =
    (state.scheduler.openEntry itemId).map QueuedEntry.version
  timed : ∀ itemId entry, state.scheduler.openEntry itemId = some entry →
    entry.deadline.micros = settings.deadlineMicros entry.version
  opened : ∀ itemId entry, state.scheduler.openEntry itemId = some entry →
    Opened state.journal entry.version out (state.scheduler.openStates itemId)
  balanced : acceptedBatches state.journal ++ state.pending = emittedBatches state.journal
  justified : Justified (Event.Fits settings) state.journal

/-- The item that is to be closed later holds the slot. -/
def Retry (state : State R F) : Prop :=
  ∀ itemId ∈ state.pendingFail, state.scheduler.slot.map QueuedEntry.itemId = some itemId

/-- The item in the slot is to be closed later. -/
def Held (state : State R F) : Prop :=
  ∀ entry ∈ state.scheduler.slot, state.pendingFail = some entry.itemId

/-- The lease of a flight, and whether the ledger has applied its completion, for the phases that
may still publish. -/
def Phase.lease : Phase R F → Option (Lease × Bool)
  | .looping lease _ => some (lease, false)
  | .authorizing lease _ _ => some (lease, false)
  | .recording lease _ _ _ => some (lease, false)
  | .inferring lease _ _ _ _ => some (lease, false)
  | .judging lease _ _ _ _ _ _ => some (lease, false)
  | .committing lease _ _ => some (lease, false)
  | .completing lease _ _ => some (lease, false)
  | .publishing lease _ _ => some (lease, true)
  | _ => none

/-- A running flight: its item holds the slot, it was dispatched in the life it is in, and its
lease was claimed since. -/
structure Underway (state : State R F) (flight : Flight R F) : Prop where
  free : state.pendingFail = none
  slot : ∃ entry, state.scheduler.slot = some entry ∧ entry.itemId = flight.itemId ∧
    entry.version = flight.version ∧ entry.deadline = flight.dispatched.deadline
  since : ∃ before reading result during,
    state.journal = before ++ .scheduled (.dispatch reading) (.ok (.dispatch result)) :: during ∧
    result.dispatched = some flight.dispatched ∧
    (state.scheduler.runs flight.itemId = true →
      statesOf flight.itemId (recordsOf during) = [.running]) ∧
    ∀ lease applied, flight.phase.lease = some (lease, applied) → ∃ seconds usage,
      List.Sublist (fence flight.version.identity settings.profile.model seconds lease usage applied)
        during

/-- What a section keeps that starts and ends no flight. -/
structure Onward (state after : State R F) : Prop where
  slot : after.scheduler.slot = state.scheduler.slot
  pendingFail : after.pendingFail = state.pendingFail
  journal : ∃ more, after.journal = state.journal ++ more ∧ ∀ itemId,
    after.scheduler.runs itemId = true →
      state.scheduler.runs itemId = true ∧ statesOf itemId (recordsOf more) = []

theorem Onward.refl (state : State R F) : Onward state state :=
  ⟨rfl, rfl, [], by simp, fun _ runs => ⟨runs, rfl⟩⟩

theorem Onward.trans {first second third : State R F} (earlier : Onward first second)
    (later : Onward second third) : Onward first third := by
  obtain ⟨more, isMore, quiet⟩ := earlier.journal
  obtain ⟨rest, isRest, quietLater⟩ := later.journal
  refine ⟨later.slot.trans earlier.slot, later.pendingFail.trans earlier.pendingFail,
    more ++ rest, by rw [isRest, isMore, List.append_assoc], fun itemId runs => ?_⟩
  obtain ⟨ran, none⟩ := quietLater itemId runs
  obtain ⟨ranFirst, noneFirst⟩ := quiet itemId ran
  refine ⟨ranFirst, ?_⟩
  rw [recordsOf_append, Scheduler.statesOf_append, noneFirst, none]
  rfl

variable {settings}

theorem Underway.onward {state after : State R F} {flight : Flight R F}
    (underway : Underway settings state flight) (onward : Onward state after) :
    Underway settings after flight := by
  obtain ⟨more, isMore, quiet⟩ := onward.journal
  obtain ⟨before, reading, result, during, isJournal, isDispatched, states, leased⟩ := underway.since
  refine ⟨onward.pendingFail.trans underway.free, ?_, before, reading, result, during ++ more, ?_,
    isDispatched, fun runs => ?_, fun lease applied isLease => ?_⟩
  · rw [onward.slot]
    exact underway.slot
  · rw [isMore, isJournal, List.append_assoc, List.cons_append]
  · obtain ⟨ran, none⟩ := quiet _ runs
    rw [recordsOf_append, Scheduler.statesOf_append, states ran, none]
    rfl
  · obtain ⟨seconds, usage, evidence⟩ := leased lease applied isLease
    exact ⟨seconds, usage, evidence.trans (List.sublist_append_left _ _)⟩

end Journal

end CryptoRadar.Worker
