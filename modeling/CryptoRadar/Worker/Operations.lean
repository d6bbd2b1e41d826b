import CryptoRadar.Worker.Domain

/-!
# The inference worker

`InferenceWorker` of `workflow/worker.py` as a machine. Its threads share the fields of the
worker: a section that holds the lock is one step, and so is what a running `process_next` does
without the lock up to the next thing it shares (`Phase`). The steps of all threads come in any
order, and several calls of `process_next` may be under way at once (`World.flights`).

The ports answer as they like at every step (`Ports`). The journal keeps what the worker asked
its scheduler, its ledger and its sink, in order; the sink answers by it.

A section that raises keeps what it wrote, as in the scheduler. The worker catches a
`SchedulerError` where the source does; `OverflowError` and `KeyError` of the scheduler go
through.
-/

set_option autoImplicit false

namespace CryptoRadar.Worker

open Scheduler (SchedulerPolicy ItemState CallRefusal OpportunityVersion Dispatched AdmissionResult)
open Invocation (TransitionStatus InvocationIdentity Lease ReleaseReason ClaimResult)

/-! ## The state -/

/-- `_ActiveCall`: the call that the watchdog watches. -/
structure ActiveCall (F : Type) where
  started : F
  limitSeconds : F
  cancel : Bool
  timedOut : Bool

/-- What the worker asked its scheduler, its ledger and its sink, and what it emitted. -/
inductive Event (R : Type) where
  | scheduled (call : Scheduler.Call) (answer : Except Scheduler.Raise Scheduler.Answer)
  | claimed (identity : InvocationIdentity) (model : String) (leaseSeconds : ℤ)
      (answer : Except Raised ClaimResult)
  | attempted (lease : Lease) (answer : Except Raised TransitionStatus)
  | completed (lease : Lease) (answer : Except Raised TransitionStatus)
  | released (lease : Lease) (reason : ReleaseReason) (answer : Except Raised TransitionStatus)
  | emitted (batch : Batch R)
  | recorded (batch : Batch R) (accepted : Bool)

/-- Whether the sink writes the next batch; it raises `SinkUnavailable` otherwise. -/
abbrev Sink (R : Type) := List (Event R) → Batch R → Bool

/-- The worker: its scheduler, breaker, kept versions, waiting batches and journal. -/
structure State (R F : Type) where
  scheduler : Scheduler.State
  breaker : ProfileBreaker F
  stop : Bool
  versions : Dict String OpportunityVersion
  pending : List (Batch R)
  pendingFail : Option String
  /-- The call objects made so far; `active` is the number of one. -/
  calls : List (ActiveCall F)
  active : Option Nat
  restartRequired : Bool
  journal : List (Event R)

def State.initial {R F : Type} : State R F :=
  ⟨.initial, .initial, false, [], [], none, [], none, false, []⟩

/-- A locked section. -/
abbrev Work (R F : Type) := Program (State R F) Scheduler.Raise

section Sections

variable {R F : Type}

def note (event : Event R) : Work R F Unit := do
  let state ← get
  set { state with journal := state.journal ++ [event] }

/-- A call of the scheduler inside `try: ... except SchedulerError`. -/
def schedule {α : Type} (call : Scheduler.Call) (operation : Scheduler.Op α)
    (answer : α → Scheduler.Answer) : Work R F (Option α) := do
  let state ← get
  let (result, after) := operation.exec state.scheduler
  set { state with
    scheduler := after
    journal := state.journal ++ [Event.scheduled call (result.map answer)] }
  match result with
  | .ok value => return some value
  | .error (.scheduler _) => return none
  | .error failure => throw failure

/-! ## The sink -/

/-- The waiting batches are handed to the sink in order, up to the first it refuses. -/
def flushFrom (sink : Sink R) : List (Batch R) → Work R F Bool
  | [] => return true
  | batch :: rest => do
      let state ← get
      let accepted := sink state.journal batch
      note (.recorded batch accepted)
      if accepted then
        let state ← get
        set { state with pending := rest }
        flushFrom sink rest
      else return false

def flushLocked (sink : Sink R) : Work R F Bool := do
  let state ← get
  flushFrom sink state.pending

/-- The versions of the items that are not active any more are let go. -/
def dropEnded (versions : Dict String OpportunityVersion) (transitions : List Scheduler.Transition) :
    Dict String OpportunityVersion :=
  transitions.foldl (fun versions transition =>
    if transition.state.isTerminal then versions.erase transition.itemId else versions) versions

/-- Records and a publication wait as one batch, and all that waits is flushed. -/
def emitLocked (sink : Sink R) (transitions : List Scheduler.Transition)
    (publication : Option (Publication R)) : Work R F Bool := do
  if !transitions.isEmpty || publication.isSome then
    let state ← get
    set { state with
      pending := state.pending ++ [Batch.mk transitions publication]
      versions := dropEnded state.versions transitions
      journal := state.journal ++ [Event.emitted ⟨transitions, publication⟩] }
  flushLocked sink

/-! ## Admission -/

variable [PyFloat F] (settings : Settings F) (sink : Sink R)

/-- Admit the version and keep it while its item is active. -/
def admitLocked (reading : Option Moment) (version : OpportunityVersion) :
    Work R F (Except SubmitRefusal AdmissionResult) := do
  match ← schedule (.admitVersion reading version)
      (Scheduler.admitVersion settings.policy reading version) .admission with
  | none => return .error .schedulerError
  | some result =>
      if result.status = .admitted then
        let state ← get
        set { state with versions := state.versions.assign result.itemId version }
      let _ ← emitLocked sink result.transitions none
      return .ok result

/-- Offer one sealed version. -/
def submit (reading : Option Moment) (version : OpportunityVersion) :
    Work R F (Except SubmitRefusal AdmissionResult) := do
  let state ← get
  if state.restartRequired then return .error .restartRequired
  else if state.stop then return .error .stopped
  else if state.breaker.disabled then return .error .profileDisabled
  else
    let flushed ← flushLocked sink
    if flushed then admitLocked settings sink reading version
    else return .error .sinkUnavailable

/-! ## Dispatch -/

/-- The item is to be failed later. -/
def failLater (itemId : String) : Work R F Unit := do
  let state ← get
  set { state with pendingFail := some itemId }

/-- Close the running item; if the scheduler cannot now, retry before the next dispatch. -/
def failItemLocked (reading : Option Moment) (itemId : String) : Work R F (Option ItemState) := do
  match ← schedule (.fail reading itemId) (Scheduler.fail settings.policy reading itemId)
      .completion with
  | none =>
      failLater itemId
      return none
  | some result =>
      let _ ← emitLocked sink result.transitions none
      return some result.state

/-- The retry of a failure before a dispatch; the item that could not be closed again. -/
def retryFail (reading : Option Moment) : Work R F (Option String) := do
  let state ← get
  match state.pendingFail with
  | none => return none
  | some itemId =>
      match ← failItemLocked settings sink reading itemId with
      | none => return some itemId
      | some _ =>
          let state ← get
          set { state with pendingFail := none }
          return none

/-- Why a dispatched item is closed at once. -/
def stopOutcome (state : State R F) (dispatched : Dispatched)
    (version : Option OpportunityVersion) : Option WorkOutcome :=
  if state.breaker.disabled then some .profileDisabled
  else if state.stop then some .stopped
  else if version.isNone || dispatched.path ≠ [settings.profile.role] then some .failed
  else none

/-- Dispatch an item: a report when it does not run, else the item and its version. -/
def dispatchLocked (dispatching closing : Option Moment) :
    Work R F (Except WorkReport (Dispatched × OpportunityVersion)) := do
  match ← schedule (.dispatch dispatching) (Scheduler.dispatch settings.policy dispatching)
      .dispatch with
  | none => return .error { outcome := .schedulerError }
  | some result =>
      let _ ← emitLocked sink result.transitions none
      match result.dispatched with
      | none => return .error { outcome := .idle }
      | some dispatched =>
          let state ← get
          let version := state.versions.get? dispatched.itemId
          match stopOutcome settings state dispatched version, version with
          | none, some version => return .ok (dispatched, version)
          | stop, _ =>
              let final ← failItemLocked settings sink closing dispatched.itemId
              return .error {
                outcome := stop.getD .failed
                itemId := some dispatched.itemId
                finalState := final }

/-- The locked start of `process_next`, with the readings of its calls of the scheduler. -/
def processNext (retry dispatching closing : Option Moment) :
    Work R F (Except WorkReport (Dispatched × OpportunityVersion)) := do
  let state ← get
  if state.restartRequired then return .error { outcome := .restartRequired }
  else
    let flushed ← flushLocked sink
    if !flushed then return .error { outcome := .sinkUnavailable }
    else
      match ← retryFail settings sink retry with
      | some itemId => return .error { outcome := .schedulerError, itemId := some itemId }
      | none => dispatchLocked settings sink dispatching closing

end Sections

end CryptoRadar.Worker
