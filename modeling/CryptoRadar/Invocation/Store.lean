import CryptoRadar.Invocation.Domain
import CryptoRadar.Lib.Machine
import CryptoRadar.Lib.Table
import Mathlib.Data.List.Sort

/-!
# The invocation store

The transactions of `adapters/invocation_store.py` over the tables `invocations`,
`invocation_budget` and `invocation_demand`. Every write of the adapter is one
`BEGIN IMMEDIATE` transaction, so a transaction is a function from the tables to an answer
and new tables, and a raised error rolls it back: the machine of the store
(`ledger`) leaves the tables as they were.

The tables keep the constraints of their migration. An `INSERT` of an invocation is refused
when its id is taken or an active row has its identity; an `UPDATE` of an invocation is
refused when the row is not claimed any more or a counter would go down.

`Committed` says what a transaction that commits can do to the tables, one case for each way
it can end, and `transaction_committed` proves that there is no other. The invariants of the
ledger are read off its cases.
-/

set_option autoImplicit false

namespace CryptoRadar.Invocation

open Checked

/-- A row of `invocation_budget`. -/
structure BudgetRow where
  model : String
  windowKind : WindowKind
  windowStart : Int
  reserved : Nat
  deriving DecidableEq, Repr

/-- A row of `invocation_demand`. -/
structure DemandRow where
  model : String
  windowKind : WindowKind
  windowStart : Int
  observed : Nat
  refused : Nat
  deriving DecidableEq, Repr

/-- The tables `invocations`, `invocation_budget` and `invocation_demand`. -/
structure Db where
  invocations : List InvocationRecord
  budget : List BudgetRow
  demand : List DemandRow
  deriving DecidableEq

/-- The tables after their creation. -/
def Db.empty : Db := ⟨[], [], []⟩

/-! ## Counters -/

/-- The row has this key. -/
def BudgetRow.isFor (model : String) (kind : WindowKind) (start : Int) (row : BudgetRow) : Bool :=
  row.model = model ∧ row.windowKind = kind ∧ row.windowStart = start

/-- The row has this key. -/
def DemandRow.isFor (model : String) (kind : WindowKind) (start : Int) (row : DemandRow) : Bool :=
  row.model = model ∧ row.windowKind = kind ∧ row.windowStart = start

/-- The reserved units of one window; a window without a row has none. -/
def Db.reserved (db : Db) (model : String) (kind : WindowKind) (start : Int) : Nat :=
  ((db.budget.find? (BudgetRow.isFor model kind start)).map BudgetRow.reserved).getD 0

/-- What a budget has used of its windows. -/
def Db.usage (db : Db) (budget : ModelBudget) (windows : BudgetWindows) : BudgetUsage where
  model := budget.model
  windows := windows
  hourlyReserved := db.reserved budget.model .hour windows.hourStart
  hourlyLimit := budget.hourlyLimit
  dailyReserved := db.reserved budget.model .day windows.dayStart
  dailyLimit := budget.dailyLimit

/-- One more unit in one window. -/
def reserveRow (model : String) (kind : WindowKind) (start : Int) :
    List BudgetRow → List BudgetRow :=
  Table.upsert (BudgetRow.isFor model kind start)
    (fun row => { row with reserved := row.reserved + 1 }) ⟨model, kind, start, 1⟩

/-- One more unit in each window, the hour first. -/
def Db.reserve (db : Db) (model : String) (windows : BudgetWindows) : Db :=
  { db with
    budget := reserveRow model .day windows.dayStart
      (reserveRow model .hour windows.hourStart db.budget) }

/-- Counts one observed demand. -/
def observeRow (model : String) (kind : WindowKind) (start : Int) :
    List DemandRow → List DemandRow :=
  Table.upsert (DemandRow.isFor model kind start)
    (fun row => { row with observed := row.observed + 1 }) ⟨model, kind, start, 1, 0⟩

/-- `_observe_demand` of a request that was not refused. -/
def Db.observeDemand (db : Db) (model : String) (windows : BudgetWindows) : Db :=
  { db with
    demand := observeRow model .day windows.dayStart
      (observeRow model .hour windows.hourStart db.demand) }

/-- Counts one refused demand. -/
def refuseRow (model : String) (kind : WindowKind) (start : Int) (rows : List DemandRow) :
    Except InvocationFailure (List DemandRow) := do
  ensure (rows.countP (DemandRow.isFor model kind start) = 1) InvocationFailure.storageError
  return Table.updateWhere (DemandRow.isFor model kind start)
    (fun row => { row with refused := row.refused + 1 }) rows

/-- `_observe_demand` of a refused request: both windows must have their row. -/
def Db.observeRefused (db : Db) (model : String) (windows : BudgetWindows) :
    Except InvocationFailure Db := do
  let hours ← refuseRow model .hour windows.hourStart db.demand
  let days ← refuseRow model .day windows.dayStart hours
  return { db with demand := days }

/-! ## Rows -/

/-- The invocation with this id. -/
def Db.load (db : Db) (invocationId : String) : Option InvocationRecord :=
  db.invocations.find? fun row => row.invocationId = invocationId

/-- The claimed invocation of an identity. -/
def Db.active (db : Db) (identity : InvocationIdentity) : Option InvocationRecord :=
  db.invocations.find? fun row => row.state = .claimed ∧ row.identity = identity

/-- The triggers of the table let `new` replace `old`: the row is still claimed and no
counter goes down. -/
def mayReplace (old new : InvocationRecord) : Prop :=
  old.state = .claimed ∧ old.attemptCount ≤ new.attemptCount ∧
    old.demandCount ≤ new.demandCount ∧ old.generation ≤ new.generation

instance (old new : InvocationRecord) : Decidable (mayReplace old new) :=
  inferInstanceAs (Decidable (_ ∧ _ ∧ _ ∧ _))

/-- An `UPDATE` that must change exactly one row. -/
def Db.updateOne (db : Db) (selected : InvocationRecord → Bool)
    (change : InvocationRecord → InvocationRecord) : Except InvocationFailure Db := do
  ensure (∀ row ∈ db.invocations, selected row → mayReplace row (change row))
    InvocationFailure.storageError
  ensure (db.invocations.countP selected = 1) InvocationFailure.storageError
  return { db with invocations := Table.updateWhere selected change db.invocations }

/-- An `INSERT` under the primary key and the index on the active identity. -/
def Db.insertInvocation (db : Db) (row : InvocationRecord) : Except InvocationFailure Db := do
  ensure (∀ other ∈ db.invocations, other.invocationId ≠ row.invocationId)
    InvocationFailure.storageError
  ensure (∀ other ∈ db.invocations, ¬ (other.state = .claimed ∧ other.identity = row.identity))
    InvocationFailure.storageError
  return { db with invocations := db.invocations ++ [row] }

/-! ## Transactions -/

/-- The row of a new claim. -/
def claimedRow (request : InvocationRequest) (lease : Lease) (now : Moment) : InvocationRecord where
  invocationId := lease.invocationId
  identity := request.identity
  model := request.model
  state := .claimed
  generation := lease.generation
  leaseOwner := lease.owner
  leaseExpiresAt := lease.expiresAt
  demandCount := 1
  attemptCount := 0
  windows := budgetWindows now
  claimedAt := now
  updatedAt := now
  endedAt := none
  endReason := none

/-- Claim `request` and reserve its budget in one transaction. -/
def claimInvocation (db : Db) (request : InvocationRequest) (budget : ModelBudget)
    (owner : String) (now : Moment) (leaseSeconds : Int) (newId : String) :
    Except InvocationFailure (ClaimResult × Db) := do
  ensure (budget.model = request.model) InvocationFailure.invalidField
  let expiresAt ← leaseExpiry now leaseSeconds
  let leaseOwner ← requireOwner owner
  let windows := budgetWindows now
  let seen := db.observeDemand request.model windows
  match seen.active request.identity with
  | some row =>
      let after ← seen.updateOne (fun other => other.invocationId = row.invocationId)
        fun other => { other with demandCount := row.demandCount + 1, updatedAt := now }
      return (.duplicate row.invocationId (row.demandCount + 1), after)
  | none =>
      let usage := seen.usage budget windows
      match refusalReason usage with
      | some reason =>
          let after ← seen.observeRefused request.model windows
          return (.refused reason usage, after)
      | none =>
          ensure (Text.isPlain maxTextLength newId) InvocationFailure.invalidField
          let lease : Lease := ⟨newId, 1, leaseOwner, expiresAt⟩
          let after ← (seen.reserve request.model windows).insertInvocation
            (claimedRow request lease now)
          return (.claimed lease (after.usage budget windows), after)

/-- A holder action: check the lease against its row, then `apply`. -/
def holderAction (db : Db) (lease : Lease) (now : Moment)
    (apply : InvocationRecord → Except InvocationFailure (Transition × Db)) :
    Except InvocationFailure (Transition × Db) :=
  match db.load lease.invocationId, fenceStatus (db.load lease.invocationId) lease now with
  | some row, .applied => apply row
  | found, status => .ok (⟨status, lease.invocationId, found.map (·.attemptCount)⟩, db)

/-- The `UPDATE` of a holder action repeats the generation, the owner and the state. -/
def Db.fencedUpdate (db : Db) (lease : Lease) (change : InvocationRecord → InvocationRecord) :
    Except InvocationFailure Db :=
  db.updateOne (fun row => row.invocationId = lease.invocationId ∧
    row.generation = lease.generation ∧ row.leaseOwner = lease.owner ∧ row.state = .claimed) change

/-- Record one genuine model call. The claim's reservation covers the first attempt. -/
def recordAttempt (db : Db) (lease : Lease) (budget : ModelBudget) (now : Moment) :
    Except InvocationFailure (Transition × Db) :=
  holderAction db lease now fun row => do
    ensure (row.model = budget.model) InvocationFailure.invalidField
    let write (paid : Db) : Except InvocationFailure (Transition × Db) := do
      let after ← paid.fencedUpdate lease fun other =>
        { other with attemptCount := row.attemptCount + 1, updatedAt := now }
      return (⟨.applied, row.invocationId, some (row.attemptCount + 1)⟩, after)
    if 1 ≤ row.attemptCount then
      match refusalReason (db.usage budget (budgetWindows now)) with
      | some _ => return (⟨.budgetExhausted, row.invocationId, some row.attemptCount⟩, db)
      | none => write (db.reserve row.model (budgetWindows now))
    else
      write db

/-- The holder ends its invocation. -/
def endInvocation (db : Db) (lease : Lease) (now : Moment) (state : InvocationState)
    (reason : Option ReleaseReason) : Except InvocationFailure (Transition × Db) :=
  holderAction db lease now fun row => do
    let after ← db.fencedUpdate lease fun other =>
      { other with state := state, updatedAt := now, endedAt := some now, endReason := reason }
    return (⟨.applied, row.invocationId, some row.attemptCount⟩, after)

/-- `complete_invocation`. -/
def completeInvocation (db : Db) (lease : Lease) (now : Moment) :
    Except InvocationFailure (Transition × Db) :=
  endInvocation db lease now .completed none

/-- `release_invocation`. -/
def releaseInvocation (db : Db) (lease : Lease) (reason : ReleaseReason) (now : Moment) :
    Except InvocationFailure (Transition × Db) :=
  endInvocation db lease now .released (some reason)

/-- `ORDER BY lease_expires_at, invocation_id`. -/
def expiryOrder (first second : InvocationRecord) : Prop :=
  first.leaseExpiresAt < second.leaseExpiresAt ∨
    (first.leaseExpiresAt = second.leaseExpiresAt ∧ first.invocationId ≤ second.invocationId)

instance : DecidableRel expiryOrder := fun _ _ => inferInstanceAs (Decidable (_ ∨ _ ∧ _))

/-- The claimed rows whose lease ran out, oldest first, at most `limit` of them. -/
def Db.expired (db : Db) (now : Moment) (limit : Nat) : List InvocationRecord :=
  ((db.invocations.filter fun row => row.state = .claimed ∧ row.leaseExpiresAt ≤ now).insertionSort
    expiryOrder).take limit

/-- Hand one expired row to `owner` under the next generation. -/
def recoverRow (owner : String) (now expiresAt : Moment) (progress : List Lease × Db)
    (row : InvocationRecord) : Except InvocationFailure (List Lease × Db) := do
  let after ← progress.2.updateOne
    (fun other => other.invocationId = row.invocationId ∧ other.generation = row.generation ∧
      other.state = .claimed)
    fun other =>
      { other with
        generation := row.generation + 1
        leaseOwner := owner
        leaseExpiresAt := expiresAt
        updatedAt := now }
  return (progress.1 ++ [⟨row.invocationId, row.generation + 1, owner, expiresAt⟩], after)

/-- `recover_expired`. -/
def recoverExpired (db : Db) (owner : String) (now : Moment) (leaseSeconds : Int) (limit : Nat) :
    Except InvocationFailure (List Lease × Db) := do
  let expiresAt ← leaseExpiry now leaseSeconds
  let newOwner ← requireOwner owner
  ensure (1 ≤ limit ∧ limit ≤ 1000) InvocationFailure.invalidField
  (db.expired now limit).foldlM (recoverRow newOwner now expiresAt) ([], db)

/-! ## The ledger machine -/

/-- A call of the store, by any owner and with any clock. -/
inductive Call where
  | claim (request : InvocationRequest) (budget : ModelBudget) (owner : String) (now : Moment)
      (leaseSeconds : Int) (newId : String)
  | attempt (lease : Lease) (budget : ModelBudget) (now : Moment)
  | complete (lease : Lease) (now : Moment)
  | release (lease : Lease) (reason : ReleaseReason) (now : Moment)
  | recover (owner : String) (now : Moment) (leaseSeconds : Int) (limit : Nat)

/-- What a call returns. -/
inductive Answer where
  | claim (result : ClaimResult)
  | transition (result : Transition)
  | leases (result : List Lease)
  deriving DecidableEq

/-- The call in its transaction. -/
def transaction (db : Db) : Call → Except InvocationFailure (Answer × Db)
  | .claim request budget owner now leaseSeconds newId => do
      let (result, after) ← claimInvocation db request budget owner now leaseSeconds newId
      return (.claim result, after)
  | .attempt lease budget now => do
      let (result, after) ← recordAttempt db lease budget now
      return (.transition result, after)
  | .complete lease now => do
      let (result, after) ← completeInvocation db lease now
      return (.transition result, after)
  | .release lease reason now => do
      let (result, after) ← releaseInvocation db lease reason now
      return (.transition result, after)
  | .recover owner now leaseSeconds limit => do
      let (result, after) ← recoverExpired db owner now leaseSeconds limit
      return (.leases result, after)

/-- The store under serialised transactions. -/
def ledger : Runs.Machine Db Call (Except InvocationFailure Answer) :=
  Runs.Machine.transactional transaction

/-- The lease a holder call presents. -/
def Call.lease? : Call → Option Lease
  | .attempt lease _ _ => some lease
  | .complete lease _ => some lease
  | .release lease _ _ => some lease
  | .claim .. => none
  | .recover .. => none

/-- The budget a call passes. -/
def Call.budget? : Call → Option ModelBudget
  | .claim _ budget _ _ _ _ => some budget
  | .attempt _ budget _ => some budget
  | .complete .. => none
  | .release .. => none
  | .recover .. => none

end CryptoRadar.Invocation
