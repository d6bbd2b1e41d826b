import CryptoRadar.Worker.Operations

/-!
# A run of an item, and the machine of the worker

`_run_item`, `_attempts`, `_call`, `_abandon` and `_commit` of `workflow/worker.py`, cut where
another thread can come between: a `Phase` says what a running `process_next` does next. A step
asks the ports without the lock and ends with at most one locked section, or with one look at
what the threads share.

What a port raises goes where the handlers of the source take it: inside `_attempts` every error
abandons the item, and outside it an error that is no `InvocationError` leaves `process_next` at
once. A clock that gives no aware time makes a comparison raise `TypeError` there.
-/

set_option autoImplicit false

namespace CryptoRadar.Worker

open Scheduler (ItemState CallRefusal OpportunityVersion Dispatched AdmissionResult)
open Invocation (TransitionStatus InvocationIdentity Lease ReleaseReason ClaimResult)

/-! ## Phases -/

/-- The calls of the adapter so far, and whether the next one is a repair. -/
structure Attempts where
  calls : Nat
  failures : List InferenceFailure
  repair : Bool

/-- No attempt yet. -/
def Attempts.none : Attempts := ⟨0, [], false⟩

/-- `_Attempted` without a value: the outcome that ends the item. -/
structure Attempted where
  outcome : WorkOutcome
  refusal : Option CallRefusal := .none
  leaseStatus : Option TransitionStatus := .none
  releaseReason : ReleaseReason := .failed

/-- Where the worker is with an item. -/
inductive Phase (R F : Type) where
  | claiming
  | looping (lease : Lease) (attempts : Attempts)
  | authorizing (lease : Lease) (attempts : Attempts) (prepared : PreparedPrompt F)
  | recording (lease : Lease) (attempts : Attempts) (prepared : PreparedPrompt F)
      (callDeadline : Moment)
  | inferring (lease : Lease) (attempts : Attempts) (callDeadline : Moment)
      (call : InferenceCall F) (active : Nat)
  | judging (lease : Lease) (attempts : Attempts) (callDeadline : Moment)
      (call : InferenceCall F) (active : Nat) (result : InferenceResult F) (restart : Bool)
  | concluding (lease : Lease) (attempts : Attempts) (attempted : Attempted)
  | abandoning (lease : Lease) (reason : ReleaseReason) (finish : Except Raised WorkReport)
  | failing (finish : Except Raised WorkReport)
  | committing (lease : Lease) (value : R) (attempts : Attempts)
  | expiring (lease : Lease) (attempts : Attempts)
  | lateCompleting (lease : Lease) (attempts : Attempts)
  | completing (lease : Lease) (value : R) (attempts : Attempts)
  | publishing (lease : Lease) (value : R) (attempts : Attempts)

/-- A call of `process_next` that runs an item. -/
structure Flight (R F : Type) where
  dispatched : Dispatched
  version : OpportunityVersion
  phase : Phase R F

/-- A flight goes on, or `process_next` returns or raises. -/
inductive Turn (R F : Type) where
  | on (phase : Phase R F)
  | done (finish : Except Raised WorkReport)

/-- The ports as they answer in one step. `reading` is the clock the scheduler reads, `current`
and the two monotonic times are what the worker reads. -/
structure Ports (R F : Type) where
  reading : Option Moment
  current : Option Moment
  monotonic : F
  failedAt : F
  prepare : OpportunityVersion → Bool → Except Raised (PreparedPrompt F)
  infer : InferenceCall F → Inferred F
  interpret : Json F → Except Raised (Option R)
  claim : InvocationIdentity → String → ℤ → Except Raised ClaimResult
  recordAttempt : Lease → Except Raised TransitionStatus
  complete : Lease → Except Raised TransitionStatus
  release : Lease → ReleaseReason → Except Raised TransitionStatus

/-! ## Steps -/

section Steps

variable {R F : Type} [PyFloat F] (settings : Settings F) (sink : Sink R) (ports : Ports R F)
  (flight : Flight R F)

/-- The id of the item. -/
def Flight.itemId : String := flight.dispatched.itemId

/-- The report of an item that ran. -/
def Flight.report (lease : Lease) (attempts : Attempts) (outcome : WorkOutcome) : WorkReport :=
  { outcome := outcome
    itemId := some flight.itemId
    invocationId := some lease.invocationId
    calls := attempts.calls
    failures := attempts.failures }

/-- The handlers around `_attempts`: two errors become reports and the others go on. -/
def Flight.caught (lease : Lease) : Raised → Except Raised WorkReport
  | .scheduler => .ok (flight.report lease .none .schedulerError)
  | .invocation code =>
      .ok { flight.report lease .none .ledgerError with ledgerFailure := some code }
  | .other => .error .other

/-- An error inside `_attempts` abandons the item. -/
def Flight.abandon (lease : Lease) (raised : Raised) : Turn R F :=
  .on (.abandoning lease .failed (flight.caught lease raised))

/-- The item is claimed in the ledger. -/
def claimItem : Work R F (Turn R F) := do
  match ports.current with
  | none => return .done (.error .other)
  | some now =>
      let identity := flight.version.identity
      let seconds := settings.leaseSeconds now flight.dispatched.deadline
      let answer := ports.claim identity settings.profile.model seconds
      note (.claimed identity settings.profile.model seconds answer)
      match answer with
      | .ok (.claimed lease _) => return .on (.looping lease .none)
      | .ok (.duplicate _ _) =>
          return .on (.failing (.ok { outcome := .claimDuplicate, itemId := some flight.itemId }))
      | .ok (.refused _ _) =>
          return .on (.failing (.ok { outcome := .budgetRefused, itemId := some flight.itemId }))
      | .error (.invocation code) =>
          return .on (.failing (.ok {
            outcome := .ledgerError
            itemId := some flight.itemId
            ledgerFailure := some code }))
      | .error raised => return .done (.error raised)

/-- The top of the loop of `_attempts`: the stop signal and the prompt. -/
def prepareCall (lease : Lease) (attempts : Attempts) : Work R F (Turn R F) := do
  let state ← get
  if state.stop then
    return .on (.concluding lease attempts { outcome := .cancelled, releaseReason := .cancelled })
  else
    match ports.prepare flight.version attempts.repair with
    | .error raised => return flight.abandon lease raised
    | .ok prepared =>
        if settings.profile.contextTokens < prepared.promptBound + settings.profile.outputCapTokens then
          return .on (.concluding lease attempts { outcome := .contextUnfit })
        else return .on (.authorizing lease attempts prepared)

/-- `_DEADLINE_REFUSALS`. -/
def isDeadlineRefusal (refusal : Option CallRefusal) : Bool :=
  refusal = some .deadlinePassed || refusal = some .deadlineUnfit

/-- The scheduler authorizes a call. -/
def authorizeCall (lease : Lease) (attempts : Attempts) (prepared : PreparedPrompt F) :
    Work R F (Turn R F) := do
  let role := settings.profile.role
  match ← schedule
      (.authorizeCall ports.reading flight.itemId role attempts.repair prepared.promptBound)
      (Scheduler.authorizeCall settings.policy ports.reading flight.itemId role attempts.repair
        prepared.promptBound) .decision with
  | none => return flight.abandon lease .scheduler
  | some decision =>
      let _ ← emitLocked sink decision.transitions none
      match decision.refusal, decision.callDeadline with
      | none, some callDeadline => return .on (.recording lease attempts prepared callDeadline)
      | refusal, _ =>
          return .on (.concluding lease attempts {
            outcome := if attempts.repair then .failed else .callRefused
            refusal := refusal
            releaseReason := if isDeadlineRefusal refusal then .deadlineExpired else .failed })

/-- Make the call object the watchdog watches. -/
def startCall (lease : Lease) (attempts : Attempts) (prepared : PreparedPrompt F)
    (callDeadline : Moment) (limit : ℤ) : Work R F (Turn R F) := do
  let profile := settings.profile
  let call : InferenceCall F :=
    { model := profile.model
      system := prepared.system
      user := prepared.user
      responseSchema := prepared.responseSchema
      outputCapTokens := profile.outputCapTokens
      contextTokens := profile.contextTokens
      think := profile.think
      timeoutSeconds := settings.totalSeconds limit }
  let state ← get
  set { state with
    calls := state.calls ++ [ActiveCall.mk ports.monotonic call.timeoutSeconds state.stop false]
    active := some state.calls.length }
  return .on (.inferring lease attempts callDeadline call state.calls.length)

/-- The attempt is recorded in the ledger. -/
def recordAttempt (lease : Lease) (attempts : Attempts) (prepared : PreparedPrompt F)
    (callDeadline : Moment) : Work R F (Turn R F) := do
  let answer := ports.recordAttempt lease
  note (.attempted lease answer)
  match answer with
  | .error raised => return flight.abandon lease raised
  | .ok status =>
      if status ≠ .applied then
        return .on (.concluding lease attempts {
          outcome := if status = .budgetExhausted then .budgetRefused else .fenced
          leaseStatus := some status })
      else
        match ports.current with
        | none => return flight.abandon lease .other
        | some now =>
            let limit := min (Moment.seconds settings.profile.hardTimeoutSeconds)
              (callDeadline.micros - now.micros)
            if limit ≤ 0 then
              return .on (.concluding lease attempts {
                outcome := .callRefused
                refusal := some .deadlineUnfit
                releaseReason := .deadlineExpired })
            else startCall settings ports lease attempts prepared callDeadline limit

/-- The result of an adapter call that returned, or raised an `Exception`. -/
def Inferred.caught : Inferred F → Option (InferenceResult F)
  | .result given => some given
  | .foreign => some (.failed .adapterError)
  | .raised true => some (.failed .adapterError)
  | .raised false => none

/-- The call of the adapter returns. -/
def endCall (lease : Lease) (attempts : Attempts) (callDeadline : Moment) (call : InferenceCall F)
    (active : Nat) : Work R F (Turn R F) := do
  let inferred := ports.infer call
  let state ← get
  set { state with active := none }
  match inferred.caught with
  | none => return flight.abandon lease .other
  | some result =>
      return .on (.judging lease attempts callDeadline call active result state.restartRequired)

/-- The value of a result, or why it has none. -/
def judge (callDeadline : Moment) (timedOut : Bool) (result : InferenceResult F) :
    Except Raised (Except InferenceFailure R) :=
  if timedOut then .ok (.error .timeout)
  else
    match result with
    | .failed failure => .ok (.error failure)
    | .reply payload =>
        match ports.current with
        | none => .error .other
        | some now =>
            if callDeadline < now then .ok (.error .late)
            else
              match ports.interpret payload with
              | .error raised => .error raised
              | .ok none => .ok (.error .outputRejected)
              | .ok (some value) => .ok (.ok value)

/-- A failure is recorded in the breaker. -/
def recordFailure : Work R F Bool := do
  let state ← get
  let breaker := state.breaker.recordFailure settings.failurePolicy ports.failedAt
  set { state with breaker := breaker }
  return breaker.disabled

/-- A failed call is repaired once, or ends the item. -/
def endAttempt (lease : Lease) (attempts : Attempts) (failure : InferenceFailure) :
    Work R F (Turn R F) := do
  let disabled ← recordFailure settings ports
  let attempts := { attempts with failures := attempts.failures ++ [failure] }
  let repairable := failure = .malformed || failure = .outputRejected
  if repairable && !attempts.repair && !disabled then
    return .on (.looping lease { attempts with repair := true })
  else return .on (.concluding lease attempts { outcome := .failed })

/-- The call was cancelled. -/
def isCancelled : InferenceResult F → Bool
  | .failed .cancelled => true
  | _ => false

/-- What `_attempts` makes of a call that ended. -/
def judgeCall (lease : Lease) (attempts : Attempts) (callDeadline : Moment)
    (call : InferenceCall F) (active : Nat) (result : InferenceResult F) (restart : Bool) :
    Work R F (Turn R F) := do
  let state ← get
  let watched := state.calls[active]?
  let late := watched.any fun watched =>
    PyFloat.lt call.timeoutSeconds (ports.monotonic - watched.started)
  let timedOut := watched.any ActiveCall.timedOut || late
  let attempts := { attempts with calls := attempts.calls + 1 }
  if restart then
    let _ ← recordFailure settings ports
    return .on (.concluding lease { attempts with failures := attempts.failures ++ [.timeout] }
      { outcome := .restartRequired })
  else if isCancelled result && !timedOut then
    return .on (.concluding lease attempts { outcome := .cancelled, releaseReason := .cancelled })
  else
    match judge ports callDeadline timedOut result with
    | .error raised => return flight.abandon lease raised
    | .ok (.ok value) => return .on (.committing lease value attempts)
    | .ok (.error failure) => endAttempt settings ports lease attempts failure

/-- The end of the item without a value: why its lease is released. -/
def conclude (lease : Lease) (attempts : Attempts) (attempted : Attempted) : Turn R F :=
  let report :=
    { flight.report lease attempts attempted.outcome with
      callRefusal := attempted.refusal
      leaseStatus := attempted.leaseStatus }
  if attempted.releaseReason = .failed then
    match ports.current with
    | none => .done (.error .other)
    | some now =>
        let reason := if flight.dispatched.deadline ≤ now then .deadlineExpired else .failed
        .on (.abandoning lease reason (.ok report))
  else .on (.abandoning lease attempted.releaseReason (.ok report))

/-- Release the lease as well as can be, and go on. -/
def releaseLease (lease : Lease) (reason : ReleaseReason) (next : Phase R F) :
    Work R F (Turn R F) := do
  let answer := ports.release lease reason
  note (.released lease reason answer)
  match answer with
  | .ok _ => return .on next
  | .error (.invocation _) => return .on next
  | .error raised => return .done (.error raised)

/-- The item fails, and the flight ends. -/
def failItem (finish : Except Raised WorkReport) : Work R F (Turn R F) := do
  let final ← failItemLocked settings sink ports.reading flight.itemId
  return .done (finish.map fun report => { report with finalState := final })

/-- `_commit`: a result after the deadline is never committed. -/
def commit (lease : Lease) (value : R) (attempts : Attempts) : Turn R F :=
  match ports.current with
  | none => .done (.error .other)
  | some now =>
      if flight.dispatched.deadline ≤ now then .on (.expiring lease attempts)
      else .on (.completing lease value attempts)

/-- A result that is late is not published. -/
def completeLate (lease : Lease) (attempts : Attempts) : Work R F (Turn R F) := do
  let report := flight.report lease attempts .abortStale
  match ← schedule (.complete ports.reading flight.itemId)
      (Scheduler.complete settings.policy ports.reading flight.itemId) .completion with
  | none =>
      failLater flight.itemId
      return .done (.ok report)
  | some late =>
      let _ ← emitLocked sink late.transitions none
      return .done (.ok { report with finalState := some late.state })

/-- The fence: the ledger completes the invocation under the lease. -/
def completeLease (lease : Lease) (value : R) (attempts : Attempts) : Work R F (Turn R F) := do
  let answer := ports.complete lease
  note (.completed lease answer)
  match answer with
  | .ok .applied => return .on (.publishing lease value attempts)
  | .ok status =>
      return .on (.failing (.ok
        { flight.report lease attempts .fenced with leaseStatus := some status }))
  | .error (.invocation code) =>
      return .on (.abandoning lease .failed (.ok
        { flight.report lease attempts .ledgerError with ledgerFailure := some code }))
  | .error raised => return .done (.error raised)

/-- The scheduler has the last word, and the publication goes with its records. -/
def publish (lease : Lease) (value : R) (attempts : Attempts) : Work R F (Turn R F) := do
  match ← schedule (.complete ports.reading flight.itemId)
      (Scheduler.complete settings.policy ports.reading flight.itemId) .completion with
  | none =>
      failLater flight.itemId
      return .done (.ok (flight.report lease attempts .schedulerError))
  | some completion =>
      let publication : Option (Publication R) :=
        if completion.publishable then
          some ⟨flight.itemId, lease.invocationId, settings.profile.profileId,
            settings.profile.model, value⟩
        else none
      let _ ← emitLocked sink completion.transitions publication
      let outcome : WorkOutcome := if completion.publishable then .published else .abortStale
      return .done (.ok
        { flight.report lease attempts outcome with
          finalState := some completion.state
          leaseStatus := some .applied })

/-- One step of a flight. -/
def advance : Work R F (Turn R F) :=
  match flight.phase with
  | .claiming => claimItem settings ports flight
  | .looping lease attempts => prepareCall settings ports flight lease attempts
  | .authorizing lease attempts prepared =>
      authorizeCall settings sink ports flight lease attempts prepared
  | .recording lease attempts prepared callDeadline =>
      recordAttempt settings ports flight lease attempts prepared callDeadline
  | .inferring lease attempts callDeadline call active =>
      endCall ports flight lease attempts callDeadline call active
  | .judging lease attempts callDeadline call active result restart =>
      judgeCall settings ports flight lease attempts callDeadline call active result restart
  | .concluding lease attempts attempted => pure (conclude ports flight lease attempts attempted)
  | .abandoning lease reason finish => releaseLease ports lease reason (.failing finish)
  | .failing finish => failItem settings sink ports flight finish
  | .committing lease value attempts => pure (commit ports flight lease value attempts)
  | .expiring lease attempts =>
      releaseLease ports lease .deadlineExpired (.lateCompleting lease attempts)
  | .lateCompleting lease attempts => completeLate settings sink ports flight lease attempts
  | .completing lease value attempts => completeLease ports flight lease value attempts
  | .publishing lease value attempts => publish settings sink ports flight lease value attempts

end Steps

/-! ## Other threads -/

section Threads

variable {R F : Type} [PyFloat F] (settings : Settings F)

/-- Change the call object that is being watched. -/
def changeActive (change : ActiveCall F → ActiveCall F) (state : State R F) : State R F :=
  match state.active with
  | none => state
  | some active => { state with calls := state.calls.modify active change }

/-- Bounded cancellation: cancel at the limit, ask for termination after the grace. -/
def watchdogTick (monotonic : F) : Work R F WatchdogAction := do
  let state ← get
  match state.active.bind fun active => state.calls[active]? with
  | none => return .none
  | some active =>
      let elapsed := monotonic - active.started
      if PyFloat.le (active.limitSeconds + settings.grace) elapsed then
        let cancelled := changeActive (fun call => { call with timedOut := true, cancel := true }) state
        set { cancelled with restartRequired := true }
        return .terminate
      else if PyFloat.le active.limitSeconds elapsed then
        set (changeActive (fun call => { call with timedOut := true, cancel := true }) state)
        return .cancel
      else return .none

/-- `request_stop`. -/
def requestStop : Work R F Unit := do
  let state ← get
  let cancelled := changeActive (fun call => { call with cancel := true }) state
  set { cancelled with stop := true }

/-- A review closes the breaker again. -/
def reviewProfile : Work R F Unit := do
  let state ← get
  set { state with breaker := .initial }

/-- Release the leases taken over, up to the first that raises. -/
def releaseAll (release : Lease → Except Raised TransitionStatus) (recovered : Nat) :
    List Lease → Nat → Work R F (Except Raised RecoveryReport)
  | [], released => return .ok ⟨recovered, released, none⟩
  | lease :: rest, released => do
      let answer := release lease
      note (.released lease .deadlineExpired answer)
      match answer with
      | .ok status => releaseAll release recovered rest (released + if status = .applied then 1 else 0)
      | .error (.invocation code) => return .ok ⟨recovered, released, some code⟩
      | .error raised => return .error raised

/-- Take over the invocations whose lease expired, and release them. -/
def recover (expired : Except Raised (List Lease))
    (release : Lease → Except Raised TransitionStatus) : Work R F (Except Raised RecoveryReport) :=
  match expired with
  | .ok leases => releaseAll release leases.length leases 0
  | .error (.invocation code) => return .ok ⟨0, 0, some code⟩
  | .error raised => return .error raised

end Threads

/-! ## The machine -/

/-- The worker and the calls of `process_next` that run an item. -/
structure World (R F : Type) where
  worker : State R F
  flights : List (Flight R F)

/-- A worker that has done nothing. -/
def World.initial {R F : Type} : World R F := ⟨.initial, []⟩

/-- A step of one of the threads. -/
inductive Input (R F : Type) where
  | submit (reading : Option Moment) (version : OpportunityVersion)
  | processNext (retry dispatching closing : Option Moment)
  | resume (flight : Nat) (ports : Ports R F)
  | watchdogTick (monotonic : F)
  | requestStop
  | reviewProfile
  | recover (expired : Except Raised (List Lease)) (release : Lease → Except Raised TransitionStatus)

/-- What a thread gets; `broke` is an error of the scheduler that nothing catches. -/
inductive Outcome where
  | submitted (result : Except SubmitRefusal AdmissionResult)
  | worked (finish : Except Raised WorkReport)
  | underway
  | watched (action : WatchdogAction)
  | recovered (finish : Except Raised RecoveryReport)
  | done
  | broke (raised : Scheduler.Raise)

section Machine

variable {R F : Type} [PyFloat F] (settings : Settings F) (sink : Sink R)

/-- A section that starts and ends no flight. -/
def World.between {α : Type} (world : World R F) (section_ : Work R F α) (outcome : α → Outcome) :
    Outcome × World R F :=
  match section_.exec world.worker with
  | (.ok value, worker) => (outcome value, { world with worker := worker })
  | (.error raised, worker) => (.broke raised, { world with worker := worker })

/-- The locked start of `process_next`, which may start a flight. -/
def World.start (world : World R F) (retry dispatching closing : Option Moment) :
    Outcome × World R F :=
  match (processNext settings sink retry dispatching closing).exec world.worker with
  | (.ok (.ok (dispatched, version)), worker) =>
      (.underway, ⟨worker, world.flights ++ [⟨dispatched, version, .claiming⟩]⟩)
  | (.ok (.error report), worker) => (.worked (.ok report), { world with worker := worker })
  | (.error raised, worker) => (.broke raised, { world with worker := worker })

/-- A step of a flight, which may end it. -/
def World.resume (world : World R F) (index : Nat) (ports : Ports R F) : Outcome × World R F :=
  match world.flights[index]? with
  | none => (.done, world)
  | some flight =>
      match (advance settings sink ports flight).exec world.worker with
      | (.ok (.on phase), worker) =>
          (.underway, ⟨worker, world.flights.set index { flight with phase := phase }⟩)
      | (.ok (.done finish), worker) => (.worked finish, ⟨worker, world.flights.eraseIdx index⟩)
      | (.error raised, worker) => (.broke raised, ⟨worker, world.flights.eraseIdx index⟩)

/-- The worker under steps of its threads, in any order. -/
def inferenceWorker : Runs.Machine (World R F) (Input R F) Outcome where
  step world
    | .submit reading version => world.between (submit settings sink reading version) .submitted
    | .processNext retry dispatching closing => world.start settings sink retry dispatching closing
    | .resume flight ports => world.resume settings sink flight ports
    | .watchdogTick monotonic => world.between (watchdogTick settings monotonic) .watched
    | .requestStop => world.between requestStop fun _ => .done
    | .reviewProfile => world.between reviewProfile fun _ => .done
    | .recover expired release => world.between (recover expired release) .recovered

end Machine

end CryptoRadar.Worker
