import CryptoRadar.Invocation.Domain
import Mathlib.Data.Prod.Lex
import Mathlib.Data.Rat.Defs
import Mathlib.Data.String.Basic
import Mathlib.Tactic.NormNum

/-!
# The policy and the values of the deadline scheduler

The limits, the opportunity versions and the records of `workflow/scheduler.py`. What the
constructors of the source check is carried by the values here: a `SchedulerPolicy` has its
bounds and its order of bands, an `OpportunityVersion` has a plain id, a score between 0 and
100, distinct requested roles and room after its seal. Scores are rational numbers; every
finite float is one.

A sum of a moment and a duration may leave the calendar. Python raises `OverflowError`
there, and so do the definitions here (`Raise.overflow`).
-/

set_option autoImplicit false

namespace CryptoRadar.Scheduler

open Invocation (InvocationIdentity InstrumentKind Direction)

/-- `MAX_POLICY_SECONDS`. -/
def maxPolicySeconds : Nat := 86400

/-- The codes of a `SchedulerError`. -/
inductive SchedulerFailure where
  | invalidField
  | invalidClock
  | clockWentBackwards
  | unknownItem
  deriving DecidableEq, Repr

/-- What an operation raises: an error of the scheduler, or an error of Python that the
source never catches. -/
inductive Raise where
  | scheduler (code : SchedulerFailure)
  | overflow
  | keyError
  deriving DecidableEq, Repr

/-- The horizons of an opportunity. -/
inductive Horizon where
  | min15
  | hour1
  | hour4
  | hour24
  deriving DecidableEq, Repr

/-- The bands of a score. -/
inductive Band where
  | high
  | eligible
  deriving DecidableEq, Repr

/-- The roles of a worker. -/
inductive Role where
  | screener
  | challenger
  | deepAnalyst
  deriving DecidableEq, Repr

/-- The roles in the order of `Role`. -/
def Role.all : List Role := [.screener, .challenger, .deepAnalyst]

/-- The roles a production policy may not enable. -/
def Role.isProductionDisabled : Role → Bool
  | .screener => false
  | .challenger => true
  | .deepAnalyst => true

/-- Where an item of the scheduler is. -/
inductive ItemState where
  | queued
  | running
  | completed
  | failed
  | superseded
  | droppedBackpressure
  | abortStale
  | deterministicOnly
  | abstain
  | notEligible
  | integrityInvalid
  | incompatibleVersion
  deriving DecidableEq, Repr

/-- `TERMINAL_ITEM_STATES`: every state but the two active ones. -/
def ItemState.isTerminal : ItemState → Bool
  | .queued => false
  | .running => false
  | _ => true

/-- Why an item is stale. -/
inductive StaleReason where
  | deadlinePassed
  | queuedAgeExceeded
  | lateResult
  deriving DecidableEq, Repr

/-- The outcomes of an admission. -/
inductive AdmissionStatus where
  | admitted
  | duplicate
  | refused
  deriving DecidableEq, Repr

/-- Why nothing is dispatched. -/
inductive IdleReason where
  | busy
  | empty
  deriving DecidableEq, Repr

/-- Why a call is not authorized. -/
inductive CallRefusal where
  | notRunning
  | deadlinePassed
  | roleDisabled
  | inputOverRoleCap
  | invocationCap
  | repairCap
  | promptTokenCap
  | outputTokenCap
  | deadlineUnfit
  deriving DecidableEq, Repr

/-- How long an opportunity of a horizon may take, and wait. -/
structure HorizonLimits where
  analysisDeadlineSeconds : Nat
  maxQueuedAgeSeconds : Nat

/-- The limits of the calls of a role. -/
structure RoleProfile where
  hardTimeoutSeconds : Nat
  maxInputTokens : Nat
  outputCapTokens : Nat
  enabled : Bool

/-- The limits of OC-1 with what their constructor checks. -/
structure SchedulerPolicy where
  maxQueued : Nat
  highBandMin : ℚ
  eligibleBandMin : ℚ
  fairSlotEvery : Nat
  finalizationReserveSeconds : Nat
  maxInvocations : Nat
  maxRepairs : Nat
  maxPromptTokens : Nat
  maxOutputTokens : Nat
  horizonLimits : Horizon → HorizonLimits
  roleProfiles : Role → RoleProfile
  queuedPositive : 1 ≤ maxQueued
  fairSlotAtLeastTwo : 2 ≤ fairSlotEvery
  reserveBounded : finalizationReserveSeconds ≤ maxPolicySeconds
  bandsOrdered : 0 ≤ eligibleBandMin ∧ eligibleBandMin < highBandMin ∧ highBandMin ≤ 100
  deadlinesBounded : ∀ horizon, 1 ≤ (horizonLimits horizon).analysisDeadlineSeconds ∧
    (horizonLimits horizon).analysisDeadlineSeconds ≤ maxPolicySeconds
  agesBounded : ∀ horizon, (horizonLimits horizon).maxQueuedAgeSeconds ≤ maxPolicySeconds
  timeoutsBounded : ∀ role, 1 ≤ (roleProfiles role).hardTimeoutSeconds ∧
    (roleProfiles role).hardTimeoutSeconds ≤ maxPolicySeconds
  disabledRoles : ∀ role, role.isProductionDisabled → (roleProfiles role).enabled = false

namespace SchedulerPolicy

/-- The default values of the constructor. -/
def oc1 : SchedulerPolicy where
  maxQueued := 16
  highBandMin := 70
  eligibleBandMin := 50
  fairSlotEvery := 4
  finalizationReserveSeconds := 10
  maxInvocations := 4
  maxRepairs := 1
  maxPromptTokens := 15000
  maxOutputTokens := 4500
  horizonLimits
    | .min15 => ⟨60, 15⟩
    | .hour1 => ⟨120, 30⟩
    | .hour4 => ⟨180, 45⟩
    | .hour24 => ⟨180, 45⟩
  roleProfiles
    | .screener => ⟨30, 2800, 768, true⟩
    | .challenger => ⟨45, 5600, 1536, false⟩
    | .deepAnalyst => ⟨90, 5600, 2048, false⟩
  queuedPositive := by decide
  fairSlotAtLeastTwo := by decide
  reserveBounded := by decide
  bandsOrdered := by norm_num
  deadlinesBounded := by rintro ⟨⟩ <;> decide
  agesBounded := by rintro ⟨⟩ <;> decide
  timeoutsBounded := by rintro ⟨⟩ <;> decide
  disabledRoles := by rintro ⟨⟩ <;> decide

variable (policy : SchedulerPolicy)

/-- The longest time that the roles of a path take. -/
def pathSeconds (path : List Role) : Nat :=
  (path.map fun role => (policy.roleProfiles role).hardTimeoutSeconds).sum +
    policy.finalizationReserveSeconds

/-- The longest deadline of a horizon. -/
def longestDeadline : Nat :=
  max (max (policy.horizonLimits .min15).analysisDeadlineSeconds
      (policy.horizonLimits .hour1).analysisDeadlineSeconds)
    (max (policy.horizonLimits .hour4).analysisDeadlineSeconds
      (policy.horizonLimits .hour24).analysisDeadlineSeconds)

/-- The largest duration ever added to a clock reading. -/
def maxSpanSeconds : Nat := max (policy.pathSeconds Role.all) policy.longestDeadline

/-- The band of a score, if it is eligible. -/
def band (score : ℚ) : Option Band :=
  if policy.highBandMin ≤ score then some .high
  else if policy.eligibleBandMin ≤ score then some .eligible
  else none

end SchedulerPolicy

/-- Venue, market kind, instrument, setup and direction. -/
abbrev GroupKey := String × InstrumentKind × String × String × Direction

/-- One sealed opportunity version with what its constructor checks. -/
structure OpportunityVersion where
  itemId : String
  identity : InvocationIdentity
  horizon : Horizon
  opportunityScore : ℚ
  sealedAt : Moment
  integrityValid : Bool
  deterministicPathEligible : Bool
  requestedRoles : List Role
  originSealedAt : Option Moment
  idIsPlain : Text.isPlain Invocation.maxTextLength itemId = true
  scoreInRange : 0 ≤ opportunityScore ∧ opportunityScore ≤ 100
  sealHasRoom : (sealedAt.plus? (Moment.seconds maxPolicySeconds)).isSome
  someRole : requestedRoles ≠ []
  distinctRoles : requestedRoles.Nodup
  originNotLater : ∀ origin ∈ originSealedAt, origin ≤ sealedAt
  deriving DecidableEq

/-- At most one queued version per key. -/
def OpportunityVersion.groupKey (version : OpportunityVersion) : GroupKey :=
  (version.identity.venue, version.identity.marketKind, version.identity.nativeInstrument,
    version.identity.setup, version.identity.direction)

/-- The seal its deadline counts from. -/
def OpportunityVersion.origin (version : OpportunityVersion) : Moment :=
  version.originSealedAt.getD version.sealedAt

/-- One state change for the caller to persist. -/
structure Transition where
  itemId : String
  state : ItemState
  moment : Moment
  relatedId : Option String
  staleReason : Option StaleReason
  deriving DecidableEq

/-- An item of the queue. -/
structure QueuedEntry where
  version : OpportunityVersion
  band : Band
  deadline : Moment
  enqueuedAt : Moment
  path : List Role
  supersedes : Option String
  deriving DecidableEq

/-- The id of the item. -/
def QueuedEntry.itemId (entry : QueuedEntry) : String := entry.version.itemId

/-- The high band comes first. -/
def Band.order : Band → Nat
  | .high => 0
  | .eligible => 1

/-- `_rank_key`: band, then deadline, then seal, then id. -/
def rankKey (entry : QueuedEntry) : ℕ ×ₗ Moment ×ₗ Moment ×ₗ String :=
  toLex (entry.band.order, toLex (entry.deadline, toLex (entry.version.sealedAt, entry.itemId)))

/-- `_fair_key`: oldest admitted first. -/
def fairKey (entry : QueuedEntry) : Moment ×ₗ Moment ×ₗ String :=
  toLex (entry.enqueuedAt, toLex (entry.version.sealedAt, entry.itemId))

end CryptoRadar.Scheduler
