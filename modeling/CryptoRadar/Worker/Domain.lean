import CryptoRadar.Lib.Json
import CryptoRadar.Lib.Number
import CryptoRadar.Scheduler.Operations

/-!
# The values of the inference worker

What `workflow/worker.py` hands around: the model profile, the breaker that counts failed calls,
publications, batches for the sink and reports. `F` is the type of floats and `R` the type of
values the interpreter makes of model output.

A port answers or raises. A ledger should raise only `InvocationError`, and the prompt source,
the adapter and the interpreter may raise anything: `Raised` has the errors that the worker
tells apart.
-/

set_option autoImplicit false

namespace CryptoRadar.Worker

open Scheduler (Role SchedulerPolicy ItemState CallRefusal OpportunityVersion)
open Invocation (TransitionStatus)

/-- Why a call gave no reply. -/
inductive InferenceFailure where
  | timeout
  | unavailable
  | httpStatus
  | redirectRefused
  | malformed
  | tooLarge
  | cancelled
  | invalidRequest
  | adapterError
  | late
  | outputRejected
  deriving DecidableEq, Repr

/-- A versioned model profile with what its constructor checks. -/
structure InferenceProfile where
  profileId : String
  model : String
  role : Role
  hardTimeoutSeconds : Nat
  contextTokens : Nat
  outputCapTokens : Nat
  think : Bool
  idIsPlain : Text.isPlain Invocation.maxTextLength profileId = true
  modelIsPlain : Text.isPlain Invocation.maxTextLength model = true
  inProduction : role.isProductionDisabled = false
  timeoutPositive : 1 ≤ hardTimeoutSeconds
  outputPositive : 1 ≤ outputCapTokens
  outputFitsContext : outputCapTokens < contextTokens

/-- The codes of `InvocationError`. -/
inductive LedgerFailure where
  | invalidField
  | invalidClock
  | openTransaction
  | schemaNotMigrated
  | busy
  | corruptRow
  | storageError
  deriving DecidableEq, Repr

/-- What a port raises: a `SchedulerError`, an `InvocationError` or any other error. -/
inductive Raised where
  | scheduler
  | invocation (code : LedgerFailure)
  | other
  deriving DecidableEq, Repr

/-- `PreparedPrompt`; the bound counts tokens. -/
structure PreparedPrompt (F : Type) where
  system : String
  user : String
  responseSchema : Json F
  promptBound : Nat

/-- What is sent to the model. -/
structure InferenceCall (F : Type) where
  model : String
  system : String
  user : String
  responseSchema : Json F
  outputCapTokens : Nat
  contextTokens : Nat
  think : Bool
  timeoutSeconds : F

/-- What a call came to. -/
inductive InferenceResult (F : Type) where
  | reply (payload : Json F)
  | failed (failure : InferenceFailure)

/-- What a call of the adapter does: it returns a result or a value of another type, or it raises;
a `BaseException` that is not an `Exception` goes through. -/
inductive Inferred (F : Type) where
  | result (result : InferenceResult F)
  | foreign
  | raised (isException : Bool)

/-- What is published of an item. -/
structure Publication (R : Type) where
  itemId : String
  invocationId : String
  profileId : String
  model : String
  value : R
  deriving DecidableEq

/-- What is emitted at once. -/
structure Batch (R : Type) where
  transitions : List Scheduler.Transition
  publication : Option (Publication R)
  deriving DecidableEq

/-- Why a submission is refused. -/
inductive SubmitRefusal where
  | profileDisabled
  | sinkUnavailable
  | restartRequired
  | schedulerError
  | stopped
  deriving DecidableEq, Repr

/-- What the worker did with an item. -/
inductive WorkOutcome where
  | idle
  | published
  | abortStale
  | fenced
  | failed
  | cancelled
  | contextUnfit
  | claimDuplicate
  | budgetRefused
  | callRefused
  | profileDisabled
  | restartRequired
  | sinkUnavailable
  | schedulerError
  | ledgerError
  | stopped
  deriving DecidableEq, Repr

/-- What the watchdog does. -/
inductive WatchdogAction where
  | none
  | cancel
  | terminate
  deriving DecidableEq, Repr

/-- What `process_next` returns. -/
structure WorkReport where
  outcome : WorkOutcome
  itemId : Option String := none
  invocationId : Option String := none
  finalState : Option ItemState := none
  calls : Nat := 0
  failures : List InferenceFailure := []
  callRefusal : Option CallRefusal := none
  leaseStatus : Option TransitionStatus := none
  ledgerFailure : Option LedgerFailure := none
  deriving DecidableEq

/-- What `recover` returns. -/
structure RecoveryReport where
  recovered : Nat
  released : Nat
  ledgerFailure : Option LedgerFailure
  deriving DecidableEq

/-! ## The breaker -/

section Breaker

variable {F : Type} [PyFloat F]

/-- `maxFailures` failed calls within the window disable the profile until review. -/
structure FailurePolicy (F : Type) where
  maxFailures : Nat
  windowSeconds : F
  someFailure : 1 ≤ maxFailures

/-- The failures since the last review, and whether they disabled the profile. -/
structure ProfileBreaker (F : Type) where
  failures : List F
  disabled : Bool

/-- No failures. -/
def ProfileBreaker.initial : ProfileBreaker F := ⟨[], false⟩

/-- Record one failure at a monotonic time. -/
def ProfileBreaker.recordFailure (policy : FailurePolicy F) (breaker : ProfileBreaker F)
    (moment : F) : ProfileBreaker F :=
  let recent := breaker.failures.filter fun earlier =>
    PyFloat.le (moment - earlier) policy.windowSeconds
  let failures := recent ++ [moment]
  ⟨failures, breaker.disabled || policy.maxFailures ≤ failures.length⟩

end Breaker

/-! ## The settings -/

/-- What the constructor of the worker takes and checks. -/
structure Settings (F : Type) where
  policy : SchedulerPolicy
  profile : InferenceProfile
  grace : F
  /-- A number of microseconds as a float of seconds. -/
  totalSeconds : ℤ → F
  failurePolicy : FailurePolicy F
  roleEnabled : (policy.roleProfiles profile.role).enabled = true
  timeoutFits : profile.hardTimeoutSeconds ≤ (policy.roleProfiles profile.role).hardTimeoutSeconds
  outputFits : profile.outputCapTokens ≤ (policy.roleProfiles profile.role).outputCapTokens

/-- The lease outlives the deadline by the reserve: `ceil(max(deadline - now, 0)) + reserve`
seconds, within the bounds of the ledger. -/
def Settings.leaseSeconds {F : Type} (settings : Settings F) (now deadline : Moment) : ℤ :=
  let remaining := max (deadline.micros - now.micros) 0
  -- The source rounds a float up. It is exact where the bound of an hour does not decide.
  let seconds := (remaining + 999999) / 1000000 + settings.policy.finalizationReserveSeconds
  min (max seconds Invocation.minLeaseSeconds) Invocation.maxLeaseSeconds

end CryptoRadar.Worker
