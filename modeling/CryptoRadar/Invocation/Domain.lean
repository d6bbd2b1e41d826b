import CryptoRadar.Lib.Checked
import CryptoRadar.Lib.Moment
import CryptoRadar.Lib.Text

/-!
# Invocations: identity, budget windows and lease fencing

The pure part of the invocation ledger (`domain/invocation.py`). An invocation is one piece
of model work for one opportunity version. Its identity is the tuple of venue, market kind,
instrument, setup, direction, evidence hash and policy version. A model has a budget of
reservations for each UTC hour and each UTC day; a holder acts on an invocation by
presenting its lease, and `fenceStatus` says whether the lease may still act.

Times are moments and budget windows are numbers: the hour and the day of the moment that
opens them.
-/

set_option autoImplicit false

namespace CryptoRadar.Invocation

/-- Spot or futures. -/
inductive InstrumentKind where
  | spot
  | futures
  deriving DecidableEq, Repr

/-- The directions of a setup. -/
inductive Direction where
  | long
  | short
  | none
  deriving DecidableEq, Repr

/-- The states of an invocation. -/
inductive InvocationState where
  | claimed
  | completed
  | released
  deriving DecidableEq, Repr

/-- Why a claim was released. -/
inductive ReleaseReason where
  | cancelled
  | deadlineExpired
  | failed
  deriving DecidableEq, Repr

/-- The windows of a budget. -/
inductive WindowKind where
  | hour
  | day
  deriving DecidableEq, Repr

/-- Which budget refuses a claim. -/
inductive RefusalReason where
  | hourlyBudgetExhausted
  | dailyBudgetExhausted
  deriving DecidableEq, Repr

/-- Outcome of a lease-holder action. Only `applied` changed anything. -/
inductive TransitionStatus where
  | applied
  | fenced
  | leaseExpired
  | notActive
  | notFound
  | budgetExhausted
  deriving DecidableEq, Repr

/-- What a call raises. `overflow` is the `OverflowError` of a lease that would end after
the calendar; every other failure is a code of `InvocationError`. -/
inductive InvocationFailure where
  | invalidField
  | storageError
  | overflow
  deriving DecidableEq, Repr

/-- `MAX_TEXT_LENGTH`. -/
def maxTextLength : Nat := 200
/-- `MIN_LEASE_SECONDS`. -/
def minLeaseSeconds : Int := 1
/-- `MAX_LEASE_SECONDS`. -/
def maxLeaseSeconds : Int := 3600

/-- A lease owner is plain bounded text. -/
def requireOwner (owner : String) : Except InvocationFailure String :=
  if Text.isPlain maxTextLength owner then .ok owner else .error .invalidField

/-- What makes two requests the same. -/
structure InvocationIdentity where
  venue : String
  marketKind : InstrumentKind
  nativeInstrument : String
  setup : String
  direction : Direction
  evidenceHash : String
  policyVersion : String
  deriving DecidableEq, Repr

/-- An identity and the model that is to be called. -/
structure InvocationRequest where
  identity : InvocationIdentity
  model : String
  deriving DecidableEq, Repr

/-- The calls a model may make in an hour and in a day. -/
structure ModelBudget where
  model : String
  hourlyLimit : Nat
  dailyLimit : Nat
  deriving DecidableEq, Repr

/-- The starts of the windows of one time. -/
structure BudgetWindows where
  hourStart : Int
  dayStart : Int
  deriving DecidableEq, Repr

/-- UTC hour and day windows containing `now`. -/
def budgetWindows (now : Moment) : BudgetWindows := ⟨now.hour, now.day⟩

/-- The start of a window. -/
def BudgetWindows.start (windows : BudgetWindows) : WindowKind → Int
  | .hour => windows.hourStart
  | .day => windows.dayStart

/-- The limit of a window. -/
def ModelBudget.limit (budget : ModelBudget) : WindowKind → Nat
  | .hour => budget.hourlyLimit
  | .day => budget.dailyLimit

/-- Reserved units in the windows of one claim decision. -/
structure BudgetUsage where
  model : String
  windows : BudgetWindows
  hourlyReserved : Nat
  hourlyLimit : Nat
  dailyReserved : Nat
  dailyLimit : Nat
  deriving DecidableEq, Repr

/-- `none` when one more reservation fits both windows; the hour is checked first. -/
def refusalReason (usage : BudgetUsage) : Option RefusalReason :=
  if usage.hourlyLimit ≤ usage.hourlyReserved then some .hourlyBudgetExhausted
  else if usage.dailyLimit ≤ usage.dailyReserved then some .dailyBudgetExhausted
  else none

/-- When a lease that begins now ends. -/
def leaseExpiry (now : Moment) (leaseSeconds : Int) : Except InvocationFailure Moment := do
  Checked.ensure (minLeaseSeconds ≤ leaseSeconds ∧ leaseSeconds ≤ maxLeaseSeconds)
    InvocationFailure.invalidField
  Checked.require .overflow (now.plus? (Moment.seconds leaseSeconds))

/-- What a claim or a recovery hands to its holder. -/
structure Lease where
  invocationId : String
  generation : Nat
  owner : String
  expiresAt : Moment
  deriving DecidableEq

/-- The outcomes of a claim. -/
inductive ClaimResult where
  | claimed (lease : Lease) (usage : BudgetUsage)
  | duplicate (invocationId : String) (demandCount : Nat)
  | refused (reason : RefusalReason) (usage : BudgetUsage)
  deriving DecidableEq

/-- Result of a holder action; `attemptCount` is the stored value after the action. -/
structure Transition where
  status : TransitionStatus
  invocationId : String
  attemptCount : Option Nat
  deriving DecidableEq, Repr

/-- A row of the table `invocations`. -/
structure InvocationRecord where
  invocationId : String
  identity : InvocationIdentity
  model : String
  state : InvocationState
  generation : Nat
  leaseOwner : String
  leaseExpiresAt : Moment
  demandCount : Nat
  attemptCount : Nat
  windows : BudgetWindows
  claimedAt : Moment
  updatedAt : Moment
  endedAt : Option Moment
  endReason : Option ReleaseReason
  deriving DecidableEq

/-- Whether `lease` may still act on `record` at `now`: missing row, terminal state, then the
generation and owner fence, then expiry. -/
def fenceStatus (record : Option InvocationRecord) (lease : Lease) (now : Moment) :
    TransitionStatus :=
  match record with
  | none => .notFound
  | some row =>
      if row.invocationId ≠ lease.invocationId then .notFound
      else if row.state ≠ .claimed then .notActive
      else if row.generation ≠ lease.generation ∨ row.leaseOwner ≠ lease.owner then .fenced
      else if row.leaseExpiresAt ≤ now then .leaseExpired
      else .applied

/-- A lease that may act names a claimed row of its own generation and owner whose lease has
not run out. -/
theorem fenceStatus_applied_iff {record : Option InvocationRecord} {lease : Lease} {now : Moment} :
    fenceStatus record lease now = .applied ↔
      ∃ row, record = some row ∧ row.invocationId = lease.invocationId ∧ row.state = .claimed ∧
        row.generation = lease.generation ∧ row.leaseOwner = lease.owner ∧
          now < row.leaseExpiresAt := by
  cases record with
  | none => simp [fenceStatus]
  | some row =>
      simp only [fenceStatus, Option.some.injEq, exists_eq_left']
      split_ifs with other ended fenced expired
      · simp_all
      · simp_all
      · rcases fenced with stale | foreign
        · simp [stale]
        · simp [foreign]
      · simp [not_lt.mpr expired]
      · simp_all

/-- A reservation that is not refused fits both windows. -/
theorem refusalReason_eq_none_iff {usage : BudgetUsage} :
    refusalReason usage = none ↔
      usage.hourlyReserved < usage.hourlyLimit ∧ usage.dailyReserved < usage.dailyLimit := by
  unfold refusalReason
  split_ifs <;> simp <;> omega

end CryptoRadar.Invocation
