import CryptoRadar.Lib.Dict
import CryptoRadar.Lib.Machine
import CryptoRadar.Lib.Program
import CryptoRadar.Scheduler.Policy
import Mathlib.Data.List.MinMax
import Mathlib.Data.List.Sort

/-!
# The operations of the deadline scheduler

`DeadlineScheduler` of `workflow/scheduler.py` as programs over its state. The state holds
the queue and its two indexes as dictionaries in insertion order, the one running item and
the last clock reading. An operation reads the clock once; a reading is a moment, or nothing
when the clock gave no aware time in the calendar.

An operation that raises keeps what it wrote before, as the source does: nothing rolls back.
Whether it can raise after it wrote is therefore a question about these definitions and not
an assumption of them.
-/

set_option autoImplicit false

namespace CryptoRadar.Scheduler

open Invocation (InvocationIdentity)

/-- The item that runs, and what its calls have used. -/
structure Running where
  entry : QueuedEntry
  dispatchedAt : Moment
  invocations : Nat
  repairs : Nat
  promptTokens : Nat
  outputTokens : Nat
  aborted : Bool
  deriving DecidableEq

/-- What the calls of an item have used. -/
structure CallUsage where
  invocations : Nat
  repairs : Nat
  promptTokens : Nat
  outputTokens : Nat
  deriving DecidableEq

/-- What the running item has used so far. -/
def Running.usage (running : Running) : CallUsage :=
  ⟨running.invocations, running.repairs, running.promptTokens, running.outputTokens⟩

/-- The fields of a `DeadlineScheduler`. -/
structure State where
  lastNow : Option Moment
  queue : Dict String QueuedEntry
  byIdentity : Dict InvocationIdentity String
  byGroup : Dict GroupKey String
  running : Option Running
  slotsUsed : Nat
  deriving DecidableEq

/-- A scheduler that has done nothing. -/
def State.initial : State := ⟨none, [], [], [], none, 0⟩

/-- A call changes the state and may raise. -/
abbrev Op := Program State Raise

/-! ## Results -/

/-- What `admit` returns. -/
structure AdmissionResult where
  status : AdmissionStatus
  itemId : String
  state : ItemState
  path : List Role
  droppedRoles : List Role
  deadline : Option Moment
  transitions : List Transition
  deriving DecidableEq

/-- The item that a dispatch starts. -/
structure Dispatched where
  itemId : String
  path : List Role
  deadline : Moment
  slotNumber : Nat
  fairSlot : Bool
  deriving DecidableEq

/-- What `dispatch` returns. -/
structure DispatchResult where
  dispatched : Option Dispatched
  idle : Option IdleReason
  transitions : List Transition
  deriving DecidableEq

/-- What `authorize_call` returns. -/
structure CallDecision where
  itemId : String
  refusal : Option CallRefusal
  callDeadline : Option Moment
  usage : CallUsage
  transitions : List Transition
  deriving DecidableEq

/-- What `complete` returns. -/
structure CompletionResult where
  itemId : String
  state : ItemState
  publishable : Bool
  transitions : List Transition
  deriving DecidableEq

/-! ## Checks before the commit point -/

/-- A `SchedulerError`. -/
def raise {α : Type} (code : SchedulerFailure) : Op α := throw (.scheduler code)

/-- `_require_text`. -/
def requireText (text : String) : Op Unit :=
  if Text.isPlain Invocation.maxTextLength text then pure () else raise .invalidField

/-- Read and validate the clock without recording it. -/
def readClock (policy : SchedulerPolicy) (reading : Option Moment) : Op Moment := do
  match reading with
  | none => raise .invalidClock
  | some moment =>
      if (moment.plus? (Moment.seconds policy.maxSpanSeconds)).isNone then raise .invalidClock
      else
        let state ← get
        match state.lastNow with
        | some last => if moment < last then raise .clockWentBackwards else return moment
        | none => return moment

/-- `_deadline`, from the origin of the version. -/
def deadlineOf (policy : SchedulerPolicy) (version : OpportunityVersion) : Op Moment :=
  match version.origin.plus?
      (Moment.seconds (policy.horizonLimits version.horizon).analysisDeadlineSeconds) with
  | some deadline => pure deadline
  | none => raise .invalidField

/-- `_enabled_path`: the roles whose profile is enabled, and the others. -/
def enabledPath (policy : SchedulerPolicy) (roles : List Role) : List Role × List Role :=
  (roles.filter fun role => (policy.roleProfiles role).enabled,
    roles.filter fun role => !(policy.roleProfiles role).enabled)

/-! ## Helpers -/

/-- The path is bounded and ends, with the reserve, by the deadline. -/
def pathFits (policy : SchedulerPolicy) (path : List Role) (now deadline : Moment) :
    Except Raise Bool :=
  if path.isEmpty || policy.maxInvocations < path.length then .ok false
  else if policy.maxPromptTokens <
      (path.map fun role => (policy.roleProfiles role).maxInputTokens).sum then .ok false
  else if policy.maxOutputTokens <
      (path.map fun role => (policy.roleProfiles role).outputCapTokens).sum then .ok false
  else
    match now.plus? (Moment.seconds (policy.pathSeconds path)) with
    | some last => .ok (last ≤ deadline)
    | none => .error .overflow

/-- `_unfit_state`. -/
def unfitState (version : OpportunityVersion) : ItemState :=
  if version.deterministicPathEligible then .deterministicOnly else .abstain

/-- Take an item out of the queue and out of both indexes. -/
def remove (itemId : String) : Op QueuedEntry := do
  let state ← get
  match state.queue.get? itemId with
  | none => throw .keyError
  | some entry =>
      set { state with queue := state.queue.erase itemId }
      let state ← get
      if (state.byIdentity.get? entry.version.identity).isNone then throw .keyError
      else
        set { state with byIdentity := state.byIdentity.erase entry.version.identity }
        let state ← get
        if state.byGroup.get? entry.version.groupKey = some itemId then
          set { state with byGroup := state.byGroup.erase entry.version.groupKey }
        return entry

/-- `_insert`. -/
def insert (entry : QueuedEntry) : Op Unit := do
  let state ← get
  set { state with
    queue := state.queue.assign entry.itemId entry
    byIdentity := state.byIdentity.assign entry.version.identity entry.itemId
    byGroup := state.byGroup.assign entry.version.groupKey entry.itemId }

/-- The queued entries, best rank first. -/
def State.queued (state : State) : List QueuedEntry :=
  (state.queue.map Prod.snd).insertionSort fun first second => rankKey first ≤ rankKey second

/-- Abort the running item once its deadline passed; it keeps the slot. -/
def abortRunning (now : Moment) (reason : StaleReason) : Op (List Transition) := do
  let state ← get
  match state.running with
  | some running =>
      if !running.aborted && running.entry.deadline ≤ now then
        set { state with running := some { running with aborted := true } }
        return [⟨running.entry.itemId, .abortStale, now, none, some reason⟩]
      else return []
  | none => return []

/-- One turn of the sweep over the queue. -/
def sweepEntry (policy : SchedulerPolicy) (now : Moment) (out : List Transition)
    (entry : QueuedEntry) : Op (List Transition) := do
  if entry.deadline ≤ now then
    let _ ← remove entry.itemId
    return out ++ [⟨entry.itemId, .abortStale, now, none, some .deadlinePassed⟩]
  else if Moment.seconds (policy.horizonLimits entry.version.horizon).maxQueuedAgeSeconds <
      now.micros - entry.enqueuedAt.micros then
    let _ ← remove entry.itemId
    return out ++ [⟨entry.itemId, .abortStale, now, none, some .queuedAgeExceeded⟩]
  else
    let fits ← Program.lift (pathFits policy entry.path now entry.deadline)
    if fits then return out
    else
      let _ ← remove entry.itemId
      return out ++ [⟨entry.itemId, unfitState entry.version, now, none, none⟩]

/-- `_sweep`: expired work is aborted, work that no longer fits leaves the queue. -/
def sweepExpired (policy : SchedulerPolicy) (now : Moment) : Op (List Transition) := do
  let out ← abortRunning now .deadlinePassed
  let state ← get
  state.queued.foldlM (sweepEntry policy now) out

/-- The last time read is kept. -/
def recordNow (now : Moment) : Op Unit := do
  let state ← get
  set { state with lastNow := some now }

/-- The commit point of an operation. -/
def begin (policy : SchedulerPolicy) (now : Moment) : Op (List Transition) := do
  recordNow now
  sweepExpired policy now

/-- `_active_identity`. -/
def State.activeIdentity (state : State) (itemId : String) : Option InvocationIdentity :=
  match state.queue.get? itemId with
  | some entry => some entry.version.identity
  | none =>
      match state.running with
      | some running =>
          if running.entry.itemId = itemId then some running.entry.version.identity else none
      | none => none

/-- `_require_running`. -/
def requireRunning (itemId : String) : Op Running := do
  let state ← get
  match state.running with
  | some running => if running.entry.itemId = itemId then return running else raise .unknownItem
  | none => raise .unknownItem

/-! ## Operations -/

/-- `sweep`. -/
def sweep (policy : SchedulerPolicy) (reading : Option Moment) : Op (List Transition) := do
  let now ← readClock policy reading
  begin policy now

/-- The active item with the identity of the version, and the state to report for it. -/
def State.existing (state : State) (identity : InvocationIdentity) : Option (String × ItemState) :=
  match state.byIdentity.get? identity with
  | some itemId => some (itemId, .queued)
  | none =>
      match state.running with
      | some running =>
          if running.entry.version.identity = identity then
            some (running.entry.itemId, if running.aborted then .abortStale else .running)
          else none
      | none => none

/-- The result of a refused admission. -/
def refused (version : OpportunityVersion) (dropped : List Role) (deadline now : Moment)
    (out : List Transition) (state : ItemState) (related : Option String)
    (reason : Option StaleReason) : AdmissionResult :=
  ⟨.refused, version.itemId, state, [], dropped, some deadline,
    out ++ [⟨version.itemId, state, now, related, reason⟩]⟩

/-- One queued version per group: the records of a supersession and the superseded id, or a
refusal with its related id. -/
def supersede (version : OpportunityVersion) (now : Moment) :
    Op (Except (ItemState × String) (List Transition × Option String)) := do
  let state ← get
  match state.byGroup.get? version.groupKey with
  | none => return .ok ([], none)
  | some incumbentId =>
      match state.queue.get? incumbentId with
      | none => throw .keyError
      | some incumbent =>
          if ¬ (incumbent.version.identity.policyVersion = version.identity.policyVersion ∧
              incumbent.version.horizon = version.horizon) then
            return .error (.incompatibleVersion, incumbentId)
          else if version.sealedAt ≤ incumbent.version.sealedAt then
            return .error (.superseded, incumbentId)
          else
            let _ ← remove incumbentId
            return .ok ([⟨incumbentId, .superseded, now, some version.itemId, none⟩], some incumbentId)

/-- A full queue drops the worse of the entry and its worst item: the record of the dropped
item, or the id of the worst item when the entry is the one to drop. -/
def makeRoom (policy : SchedulerPolicy) (entry : QueuedEntry) (now : Moment) :
    Op (Except String (List Transition)) := do
  let state ← get
  if policy.maxQueued ≤ state.queue.length then
    match (state.queue.map Prod.snd).argmax rankKey with
    | none => return .ok [] -- a queue at its limit of at least one item is not empty
    | some worst =>
        if rankKey entry < rankKey worst then
          let _ ← remove worst.itemId
          return .ok [⟨worst.itemId, .droppedBackpressure, now, some entry.itemId, none⟩]
        else return .error worst.itemId
  else return .ok []

/-- Admission of a version whose identity is not active: steps 2 to 4 of `admit`. -/
def admitFresh (policy : SchedulerPolicy) (version : OpportunityVersion) (path dropped : List Role)
    (deadline now : Moment) (out : List Transition) : Op AdmissionResult := do
  let refuse := refused version dropped deadline now
  if !version.integrityValid then return refuse out .integrityInvalid none none
  else
    match policy.band version.opportunityScore with
    | none => return refuse out .notEligible none none
    | some band =>
        if deadline ≤ now then return refuse out .abortStale none (some .deadlinePassed)
        else
          let fits ← Program.lift (pathFits policy path now deadline)
          if !fits then return refuse out (unfitState version) none none
          else
            match ← supersede version now with
            | .error (state, incumbentId) => return refuse out state (some incumbentId) none
            | .ok (superseded, supersedes) =>
                let entry : QueuedEntry := ⟨version, band, deadline, now, path, supersedes⟩
                match ← makeRoom policy entry now with
                | .error worstId =>
                    return refuse (out ++ superseded) .droppedBackpressure (some worstId) none
                | .ok dropouts =>
                    insert entry
                    return ⟨.admitted, version.itemId, .queued, path, dropped, some deadline,
                      out ++ superseded ++ dropouts ++
                        [⟨version.itemId, .queued, now, supersedes, none⟩]⟩

/-- `admit`: take a version of an opportunity in, queue it or refuse it. -/
def admitVersion (policy : SchedulerPolicy) (reading : Option Moment) (version : OpportunityVersion) :
    Op AdmissionResult := do
  let now ← readClock policy reading
  let before ← get
  let current := before.activeIdentity version.itemId
  if current.isSome ∧ current ≠ some version.identity then raise .invalidField
  else
    let (path, dropped) := enabledPath policy version.requestedRoles
    let deadline ← deadlineOf policy version
    let out ← begin policy now
    let state ← get
    if current.isSome ∧ (state.activeIdentity version.itemId).isNone then
      -- A replay of an item the sweep just closed.
      let closed := ((out.find? fun record => record.itemId = version.itemId).map
        Transition.state).getD .abortStale
      return ⟨.refused, version.itemId, closed, [], [], none, out⟩
    else
      match state.existing version.identity with
      | some (existing, reported) =>
          return ⟨.duplicate, existing, reported, [], dropped, none, out⟩
      | none => admitFresh policy version path dropped deadline now out

/-- In a reserved slot, the oldest entry of the lower band that still fits. -/
def fairChoice (policy : SchedulerPolicy) (now : Moment) (state : State) (slot : Nat) :
    Except Raise (Option QueuedEntry) :=
  if slot % policy.fairSlotEvery = 0 then do
    let lower ← Checked.select (fun entry =>
      if entry.band = .eligible then pathFits policy entry.path now entry.deadline else .ok false)
      (state.queue.map Prod.snd)
    return lower.argmin fairKey
  else .ok none

/-- `dispatch`. -/
def dispatch (policy : SchedulerPolicy) (reading : Option Moment) : Op DispatchResult := do
  let now ← readClock policy reading
  let out ← begin policy now
  let state ← get
  if state.running.isSome then return ⟨none, some .busy, out⟩
  else if state.queue.isEmpty then return ⟨none, some .empty, out⟩
  else
    let slot := state.slotsUsed + 1
    let fair ← Program.lift (fairChoice policy now state slot)
    match fair.or ((state.queue.map Prod.snd).argmin rankKey) with
    | none => return ⟨none, some .empty, out⟩ -- the queue is not empty here
    | some chosen =>
        set { state with slotsUsed := slot }
        let _ ← remove chosen.itemId
        let state ← get
        set { state with running := some ⟨chosen, now, 0, 0, 0, 0, false⟩ }
        return ⟨some ⟨chosen.itemId, chosen.path, chosen.deadline, slot, fair.isSome⟩, none,
          out ++ [⟨chosen.itemId, .running, now, none, none⟩]⟩

/-- The refusal of a call by the role and the ceilings, in the order of the source. -/
def callRefusal (policy : SchedulerPolicy) (running : Running) (role : Role) (repair : Bool)
    (prompt : Nat) : Option CallRefusal :=
  let profile := policy.roleProfiles role
  if running.aborted then some .deadlinePassed
  else if !profile.enabled then some .roleDisabled
  else if profile.maxInputTokens < prompt then some .inputOverRoleCap
  else if policy.maxInvocations < running.invocations + 1 then some .invocationCap
  else if repair && policy.maxRepairs < running.repairs + 1 then some .repairCap
  else if policy.maxPromptTokens < running.promptTokens + prompt then some .promptTokenCap
  else if policy.maxOutputTokens < running.outputTokens + profile.outputCapTokens then
    some .outputTokenCap
  else none

/-- The hard stop of a call and the end of its finalization. -/
def callEnd (policy : SchedulerPolicy) (role : Role) (now : Moment) :
    Except Raise (Moment × Moment) := do
  let callDeadline ← Checked.require .overflow
    (now.plus? (Moment.seconds (policy.roleProfiles role).hardTimeoutSeconds))
  let last ← Checked.require .overflow
    (callDeadline.plus? (Moment.seconds policy.finalizationReserveSeconds))
  return (callDeadline, last)

/-- Reserve one model call for the running item, or refuse it. -/
def authorizeCall (policy : SchedulerPolicy) (reading : Option Moment) (itemId : String)
    (role : Role) (repair : Bool) (prompt : Nat) : Op CallDecision := do
  requireText itemId
  let now ← readClock policy reading
  let out ← begin policy now
  let state ← get
  match state.running with
  | none => return ⟨itemId, some .notRunning, none, ⟨0, 0, 0, 0⟩, out⟩
  | some running =>
      if running.entry.itemId ≠ itemId then
        return ⟨itemId, some .notRunning, none, ⟨0, 0, 0, 0⟩, out⟩
      else
        match callRefusal policy running role repair prompt with
        | some reason => return ⟨itemId, some reason, none, running.usage, out⟩
        | none =>
            let (callDeadline, last) ← Program.lift (callEnd policy role now)
            if running.entry.deadline < last then
              return ⟨itemId, some .deadlineUnfit, none, running.usage, out⟩
            else
              let charged : Running :=
                { running with
                  invocations := running.invocations + 1
                  repairs := running.repairs + if repair then 1 else 0
                  promptTokens := running.promptTokens + prompt
                  outputTokens := running.outputTokens +
                    (policy.roleProfiles role).outputCapTokens }
              set { state with running := some charged }
              return ⟨itemId, none, some callDeadline, charged.usage, out⟩

/-- Free the slot; an aborted item has its record already. -/
def freeSlot (itemId : String) (now : Moment) (state : ItemState) (publishable : Bool)
    (out : List Transition) : Op CompletionResult := do
  let current ← get
  set { current with running := none }
  if (current.running.map Running.aborted).getD false then
    return ⟨itemId, .abortStale, false, out⟩
  else return ⟨itemId, state, publishable, out ++ [⟨itemId, state, now, none, none⟩]⟩

/-- The worker returned a result. -/
def complete (policy : SchedulerPolicy) (reading : Option Moment) (itemId : String) :
    Op CompletionResult := do
  requireText itemId
  let now ← readClock policy reading
  let _ ← requireRunning itemId
  recordNow now
  let late ← abortRunning now .lateResult
  let swept ← sweepExpired policy now
  freeSlot itemId now .completed true (late ++ swept)

/-- The worker gave up. -/
def fail (policy : SchedulerPolicy) (reading : Option Moment) (itemId : String) :
    Op CompletionResult := do
  requireText itemId
  let now ← readClock policy reading
  let _ ← requireRunning itemId
  let out ← begin policy now
  freeSlot itemId now .failed false out

/-! ## The machine -/

/-- A call of the scheduler, with the clock reading it gets. -/
inductive Call where
  | admitVersion (reading : Option Moment) (version : OpportunityVersion)
  | dispatch (reading : Option Moment)
  | authorizeCall (reading : Option Moment) (itemId : String) (role : Role) (repair : Bool)
      (prompt : Nat)
  | complete (reading : Option Moment) (itemId : String)
  | fail (reading : Option Moment) (itemId : String)
  | sweep (reading : Option Moment)

/-- What a call returns. -/
inductive Answer where
  | admission (result : AdmissionResult)
  | dispatch (result : DispatchResult)
  | decision (result : CallDecision)
  | completion (result : CompletionResult)
  | swept (transitions : List Transition)
  deriving DecidableEq

/-- The records of an answer, in the order the operation made them. -/
def Answer.transitions : Answer → List Transition
  | .admission result => result.transitions
  | .dispatch result => result.transitions
  | .decision result => result.transitions
  | .completion result => result.transitions
  | .swept transitions => transitions

/-- One call, by its name. -/
def perform (policy : SchedulerPolicy) : Call → Op Answer
  | .admitVersion reading version => do return .admission (← admitVersion policy reading version)
  | .dispatch reading => do return .dispatch (← dispatch policy reading)
  | .authorizeCall reading itemId role repair prompt => do
      return .decision (← authorizeCall policy reading itemId role repair prompt)
  | .complete reading itemId => do return .completion (← complete policy reading itemId)
  | .fail reading itemId => do return .completion (← fail policy reading itemId)
  | .sweep reading => do return .swept (← sweep policy reading)

/-- Calls of the scheduler, one after another. -/
def scheduler (policy : SchedulerPolicy) : Runs.Machine State Call (Except Raise Answer) where
  step state call := (perform policy call).exec state

end CryptoRadar.Scheduler
