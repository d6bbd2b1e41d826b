import CryptoRadar.Invocation.Store

/-!
# What a committed call does to the invocation tables

A row of the ledger changes in four ways: a duplicate claim adds to its demand, an attempt
adds to its attempts, a completion or a release ends it, and a recovery hands it to another
owner under the next generation. Each way replaces one claimed row where it stands
(`Replaced`). A winning claim adds a row at the end.

`Committed` lists the ways a call can commit, with what its guards checked. Every call that
commits is in one of them (`transaction_committed`).
-/

set_option autoImplicit false

namespace CryptoRadar.Invocation

open Checked

/-! ## The four changes of a row -/

/-- One more demand. -/
def InvocationRecord.demanded (row : InvocationRecord) (now : Moment) : InvocationRecord :=
  { row with demandCount := row.demandCount + 1, updatedAt := now }

/-- One more attempt. -/
def InvocationRecord.attempted (row : InvocationRecord) (now : Moment) : InvocationRecord :=
  { row with attemptCount := row.attemptCount + 1, updatedAt := now }

/-- The invocation has ended. -/
def InvocationRecord.ended (row : InvocationRecord) (now : Moment) (state : InvocationState)
    (reason : Option ReleaseReason) : InvocationRecord :=
  { row with state := state, updatedAt := now, endedAt := some now, endReason := reason }

/-- A new owner holds the next generation. -/
def InvocationRecord.takenOver (row : InvocationRecord) (owner : String) (now expiresAt : Moment) :
    InvocationRecord :=
  { row with
    generation := row.generation + 1
    leaseOwner := owner
    leaseExpiresAt := expiresAt
    updatedAt := now }

/-- One row was replaced where it stands. -/
def Replaced (before after : List InvocationRecord) (old new : InvocationRecord) : Prop :=
  ∃ earlier later, before = earlier ++ old :: later ∧ after = earlier ++ new :: later

theorem Replaced.old_mem {before after : List InvocationRecord} {old new : InvocationRecord}
    (replaced : Replaced before after old new) : old ∈ before := by
  obtain ⟨earlier, later, rfl, _⟩ := replaced
  simp

theorem Replaced.new_mem {before after : List InvocationRecord} {old new : InvocationRecord}
    (replaced : Replaced before after old new) : new ∈ after := by
  obtain ⟨earlier, later, _, rfl⟩ := replaced
  simp

/-- A row of the old table is the old row or still there. -/
theorem Replaced.mem_before {before after : List InvocationRecord} {old new row : InvocationRecord}
    (replaced : Replaced before after old new) (member : row ∈ before) : row = old ∨ row ∈ after := by
  obtain ⟨earlier, later, rfl, rfl⟩ := replaced
  simp only [List.mem_append, List.mem_cons] at member ⊢
  tauto

/-- A replacement moves a count by what the new row adds and the old one takes away. -/
theorem Replaced.countP_add {before after : List InvocationRecord} {old new : InvocationRecord}
    (replaced : Replaced before after old new) (counted : InvocationRecord → Bool) :
    after.countP counted + (if counted old then 1 else 0) =
      before.countP counted + (if counted new then 1 else 0) := by
  obtain ⟨earlier, later, rfl, rfl⟩ := replaced
  simp only [List.countP_append, List.countP_cons]
  omega

/-- A replacement moves a sum by what the new row adds and the old one takes away. -/
theorem Replaced.sum_add {before after : List InvocationRecord} {old new : InvocationRecord}
    (replaced : Replaced before after old new) (amount : InvocationRecord → Nat) :
    (after.map amount).sum + amount old = (before.map amount).sum + amount new := by
  obtain ⟨earlier, later, rfl, rfl⟩ := replaced
  simp only [List.map_append, List.map_cons, List.sum_append, List.sum_cons]
  omega

/-- Expired rows taken over one after the other, with the leases handed out. -/
inductive TakenOver (owner : String) (now expiresAt : Moment) :
    List Lease → List InvocationRecord → List InvocationRecord → Prop where
  | none (rows : List InvocationRecord) : TakenOver owner now expiresAt [] rows rows
  | more {leases : List Lease} {before middle after : List InvocationRecord}
      {row : InvocationRecord} (earlier : TakenOver owner now expiresAt leases before middle)
      (active : row.state = .claimed)
      (replaced : Replaced middle after row (row.takenOver owner now expiresAt)) :
      TakenOver owner now expiresAt
        (leases ++ [⟨row.invocationId, row.generation + 1, owner, expiresAt⟩]) before after

/-- The lease holds the row at `now`. -/
structure Holds (lease : Lease) (row : InvocationRecord) (now : Moment) : Prop where
  sameId : row.invocationId = lease.invocationId
  active : row.state = .claimed
  sameGeneration : row.generation = lease.generation
  sameOwner : row.leaseOwner = lease.owner
  unexpired : now < row.leaseExpiresAt

/-- One more unit fits both windows of `now`. -/
def HasRoom (db : Db) (budget : ModelBudget) (now : Moment) : Prop :=
  ∀ kind, db.reserved budget.model kind ((budgetWindows now).start kind) < budget.limit kind

/-- The ways a call commits. -/
inductive Committed (db : Db) : Call → Answer → Db → Prop where
  | claimed {request : InvocationRequest} {budget : ModelBudget} {owner newId : String}
      {now : Moment} {leaseSeconds : Int} {lease : Lease} {usage : BudgetUsage} {after : Db}
      (fresh : ∀ other ∈ db.invocations, other.invocationId ≠ lease.invocationId)
      (single : ∀ other ∈ db.invocations,
        ¬ (other.state = .claimed ∧ other.identity = request.identity))
      (sameModel : budget.model = request.model) (first : lease.generation = 1)
      (room : HasRoom db budget now)
      (rows : after.invocations = db.invocations ++ [claimedRow request lease now])
      (units : after.budget = (db.reserve request.model (budgetWindows now)).budget) :
      Committed db (.claim request budget owner now leaseSeconds newId)
        (.claim (.claimed lease usage)) after
  | duplicate {request : InvocationRequest} {budget : ModelBudget} {owner newId : String}
      {now : Moment} {leaseSeconds : Int} {row : InvocationRecord} {after : Db}
      (active : row.state = .claimed)
      (rows : Replaced db.invocations after.invocations row (row.demanded now))
      (units : after.budget = db.budget) :
      Committed db (.claim request budget owner now leaseSeconds newId)
        (.claim (.duplicate row.invocationId (row.demandCount + 1))) after
  | refused {request : InvocationRequest} {budget : ModelBudget} {owner newId : String}
      {now : Moment} {leaseSeconds : Int} {reason : RefusalReason} {usage : BudgetUsage}
      {after : Db} (rows : after.invocations = db.invocations)
      (units : after.budget = db.budget) :
      Committed db (.claim request budget owner now leaseSeconds newId)
        (.claim (.refused reason usage)) after
  | unapplied {call : Call} {lease : Lease} {result : Transition}
      (presented : call.lease? = some lease) (kept : result.status ≠ .applied) :
      Committed db call (.transition result) db
  | firstAttempt {lease : Lease} {budget : ModelBudget} {now : Moment} {row : InvocationRecord}
      {after : Db} (holds : Holds lease row now) (sameModel : row.model = budget.model)
      (unspent : row.attemptCount = 0)
      (rows : Replaced db.invocations after.invocations row (row.attempted now))
      (units : after.budget = db.budget) :
      Committed db (.attempt lease budget now)
        (.transition ⟨.applied, row.invocationId, some (row.attemptCount + 1)⟩) after
  | furtherAttempt {lease : Lease} {budget : ModelBudget} {now : Moment} {row : InvocationRecord}
      {after : Db} (holds : Holds lease row now) (sameModel : row.model = budget.model)
      (spent : 1 ≤ row.attemptCount) (room : HasRoom db budget now)
      (rows : Replaced db.invocations after.invocations row (row.attempted now))
      (units : after.budget = (db.reserve row.model (budgetWindows now)).budget) :
      Committed db (.attempt lease budget now)
        (.transition ⟨.applied, row.invocationId, some (row.attemptCount + 1)⟩) after
  | ended {call : Call} {lease : Lease} {now : Moment} {row : InvocationRecord} {after : Db}
      {state : InvocationState} {reason : Option ReleaseReason}
      (presented : call.lease? = some lease) (noAttempt : call.budget? = none)
      (holds : Holds lease row now) (terminal : state ≠ .claimed)
      (rows : Replaced db.invocations after.invocations row (row.ended now state reason))
      (units : after.budget = db.budget) :
      Committed db call (.transition ⟨.applied, row.invocationId, some row.attemptCount⟩) after
  | recovered {owner : String} {now expiresAt : Moment} {leaseSeconds : Int} {limit : Nat}
      {leases : List Lease} {after : Db}
      (rows : TakenOver owner now expiresAt leases db.invocations after.invocations)
      (units : after.budget = db.budget) :
      Committed db (.recover owner now leaseSeconds limit) (.leases leases) after

/-! ## The primitives -/

/-- No two rows have one invocation id. -/
def UniqueIds (db : Db) : Prop := (db.invocations.map (·.invocationId)).Nodup

theorem UniqueIds.eq_of_id {db : Db} (unique : UniqueIds db) {first second : InvocationRecord}
    (firstIn : first ∈ db.invocations) (secondIn : second ∈ db.invocations)
    (same : first.invocationId = second.invocationId) : first = second :=
  List.inj_on_of_nodup_map unique firstIn secondIn same

theorem Db.mem_of_load {db : Db} {invocationId : String} {row : InvocationRecord}
    (loaded : db.load invocationId = some row) :
    row ∈ db.invocations ∧ row.invocationId = invocationId := by
  refine ⟨List.mem_of_find?_eq_some loaded, ?_⟩
  simpa using List.find?_some loaded

/-- An `UPDATE` that commits replaced one selected row and touched no counter table. -/
theorem Db.updateOne_replaced {db after : Db} {selected : InvocationRecord → Bool}
    {change : InvocationRecord → InvocationRecord}
    (updated : db.updateOne selected change = .ok after) :
    ∃ row, selected row = true ∧ Replaced db.invocations after.invocations row (change row) ∧
      after.budget = db.budget ∧ after.demand = db.demand := by
  obtain ⟨_, _, rest⟩ := bind_eq_ok.mp updated
  obtain ⟨_, counted, final⟩ := bind_eq_ok.mp rest
  have once := ensure_eq_ok.mp counted
  cases final
  obtain ⟨earlier, row, later, split, picked, result⟩ :=
    Table.updateWhere_of_countP_eq_one change once
  exact ⟨row, picked, ⟨earlier, later, split, result⟩, rfl, rfl⟩

/-- The `UPDATE` of a holder replaced the row its lease holds. -/
theorem Db.fencedUpdate_replaced {db paid after : Db} (unique : UniqueIds db) {lease : Lease}
    {now : Moment} {row : InvocationRecord} (member : row ∈ db.invocations)
    (holds : Holds lease row now) {change : InvocationRecord → InvocationRecord}
    (updated : paid.fencedUpdate lease change = .ok after)
    (sameRows : paid.invocations = db.invocations) :
    Replaced db.invocations after.invocations row (change row) ∧ after.budget = paid.budget := by
  obtain ⟨found, picked, replaced, units, _⟩ := Db.updateOne_replaced updated
  rw [sameRows] at replaced
  have sameId : found.invocationId = lease.invocationId := by
    have := picked
    simp only [decide_eq_true_eq] at this
    exact this.1
  have same : found = row :=
    unique.eq_of_id replaced.old_mem member (sameId.trans holds.sameId.symm)
  subst same
  exact ⟨replaced, units⟩

theorem Db.insertInvocation_eq_ok {db after : Db} {row : InvocationRecord}
    (inserted : db.insertInvocation row = .ok after) :
    (∀ other ∈ db.invocations, other.invocationId ≠ row.invocationId) ∧
      (∀ other ∈ db.invocations,
        ¬ (other.state = .claimed ∧ other.identity = row.identity)) ∧
      after = { db with invocations := db.invocations ++ [row] } := by
  obtain ⟨_, free, rest⟩ := bind_eq_ok.mp inserted
  obtain ⟨_, single, final⟩ := bind_eq_ok.mp rest
  cases final
  exact ⟨ensure_eq_ok.mp free, ensure_eq_ok.mp single, rfl⟩

theorem Db.observeRefused_eq_ok {db after : Db} {model : String} {windows : BudgetWindows}
    (observed : db.observeRefused model windows = .ok after) :
    after.invocations = db.invocations ∧ after.budget = db.budget := by
  obtain ⟨hours, _, rest⟩ := bind_eq_ok.mp observed
  obtain ⟨days, _, final⟩ := bind_eq_ok.mp rest
  cases final
  exact ⟨rfl, rfl⟩

/-- A usage that refuses nothing has room in both windows. -/
theorem hasRoom_of_refusalReason {db : Db} {budget : ModelBudget} {now : Moment}
    (accepted : refusalReason (db.usage budget (budgetWindows now)) = none) :
    HasRoom db budget now := by
  obtain ⟨hourly, daily⟩ := refusalReason_eq_none_iff.mp accepted
  intro kind
  cases kind with
  | hour => exact hourly
  | day => exact daily

/-! ## One inversion for each call -/

theorem claimInvocation_committed {db after : Db} (unique : UniqueIds db)
    {request : InvocationRequest} {budget : ModelBudget} {owner newId : String} {now : Moment}
    {leaseSeconds : Int} {result : ClaimResult}
    (claimed : claimInvocation db request budget owner now leaseSeconds newId = .ok (result, after)) :
    Committed db (.claim request budget owner now leaseSeconds newId) (.claim result) after := by
  obtain ⟨_, sameModel, rest⟩ := bind_eq_ok.mp claimed
  obtain ⟨expiresAt, _, rest⟩ := bind_eq_ok.mp rest
  obtain ⟨leaseOwner, _, rest⟩ := bind_eq_ok.mp rest
  -- Demand is counted first; it touches neither the rows nor the budget.
  cases found : (db.observeDemand request.model (budgetWindows now)).active request.identity with
  | some row =>
      simp only [found] at rest
      obtain ⟨updated, isUpdate, final⟩ := bind_eq_ok.mp rest
      cases final
      have member : row ∈ db.invocations := List.mem_of_find?_eq_some found
      have active : row.state = .claimed ∧ row.identity = request.identity := by
        simpa using List.find?_some found
      obtain ⟨old, picked, replaced, units, _⟩ := Db.updateOne_replaced isUpdate
      have same : old = row := unique.eq_of_id replaced.old_mem member (by simpa using picked)
      subst same
      exact .duplicate active.1 replaced units
  | none =>
      simp only [found] at rest
      cases reason : refusalReason ((db.observeDemand request.model (budgetWindows now)).usage
          budget (budgetWindows now)) with
      | some why =>
          simp only [reason] at rest
          obtain ⟨updated, isUpdate, final⟩ := bind_eq_ok.mp rest
          cases final
          obtain ⟨rows, units⟩ := Db.observeRefused_eq_ok isUpdate
          exact .refused rows units
      | none =>
          simp only [reason] at rest
          obtain ⟨_, _, rest⟩ := bind_eq_ok.mp rest
          obtain ⟨inserted, isInsert, final⟩ := bind_eq_ok.mp rest
          cases final
          obtain ⟨fresh, single, rfl⟩ := Db.insertInvocation_eq_ok isInsert
          exact .claimed fresh single (ensure_eq_ok.mp sameModel) rfl
            (hasRoom_of_refusalReason reason) rfl rfl

/-- A holder action that commits either kept the tables, or its lease holds a row and `apply`
committed on it. -/
theorem holderAction_eq_ok {db after : Db} {lease : Lease} {now : Moment} {result : Transition}
    {apply : InvocationRecord → Except InvocationFailure (Transition × Db)}
    (acted : holderAction db lease now apply = .ok (result, after)) :
    (result.status ≠ .applied ∧ after = db) ∨
      ∃ row ∈ db.invocations, Holds lease row now ∧ apply row = .ok (result, after) := by
  unfold holderAction at acted
  split at acted
  next row loaded fence =>
    obtain ⟨found, isLoaded, sameId, active, sameGeneration, sameOwner, unexpired⟩ :=
      fenceStatus_applied_iff.mp fence
    have same : row = found := by
      rw [loaded] at isLoaded
      exact Option.some.inj isLoaded
    subst same
    exact .inr ⟨row, (Db.mem_of_load loaded).1,
      ⟨sameId, active, sameGeneration, sameOwner, unexpired⟩, acted⟩
  next found status notApplied =>
    cases acted
    refine .inl ⟨fun applied => ?_, rfl⟩
    obtain ⟨row, isLoaded, _⟩ := fenceStatus_applied_iff.mp applied
    exact notApplied row isLoaded applied

theorem recordAttempt_committed {db after : Db} (unique : UniqueIds db) {lease : Lease}
    {budget : ModelBudget} {now : Moment} {result : Transition}
    (recorded : recordAttempt db lease budget now = .ok (result, after)) :
    Committed db (.attempt lease budget now) (.transition result) after := by
  rcases holderAction_eq_ok recorded with ⟨kept, rfl⟩ | ⟨row, member, holds, applied⟩
  · exact .unapplied rfl kept
  · obtain ⟨_, sameModel, rest⟩ := bind_eq_ok.mp applied
    have sameModel := ensure_eq_ok.mp sameModel
    split at rest
    next spent =>
      split at rest
      next reason refused =>
        cases rest
        exact .unapplied rfl (by simp)
      next accepted =>
        obtain ⟨updated, isUpdate, final⟩ := bind_eq_ok.mp rest
        cases final
        obtain ⟨replaced, units⟩ := Db.fencedUpdate_replaced unique member holds isUpdate rfl
        exact .furtherAttempt holds sameModel spent (hasRoom_of_refusalReason accepted) replaced units
    next unspent =>
      obtain ⟨updated, isUpdate, final⟩ := bind_eq_ok.mp rest
      cases final
      obtain ⟨replaced, units⟩ := Db.fencedUpdate_replaced unique member holds isUpdate rfl
      exact .firstAttempt holds sameModel (by omega) replaced units

theorem endInvocation_committed {db after : Db} (unique : UniqueIds db) {call : Call}
    {lease : Lease} {now : Moment} {state : InvocationState} {reason : Option ReleaseReason}
    {result : Transition} (presented : call.lease? = some lease) (noAttempt : call.budget? = none)
    (terminal : state ≠ .claimed)
    (done : endInvocation db lease now state reason = .ok (result, after)) :
    Committed db call (.transition result) after := by
  rcases holderAction_eq_ok done with ⟨kept, rfl⟩ | ⟨row, member, holds, applied⟩
  · exact .unapplied presented kept
  · obtain ⟨updated, isUpdate, final⟩ := bind_eq_ok.mp applied
    cases final
    obtain ⟨replaced, units⟩ := Db.fencedUpdate_replaced unique member holds isUpdate rfl
    exact .ended presented noAttempt holds terminal replaced units

/-- Each turn of the recovery loop takes over one more claimed row. -/
theorem recoverRow_takenOver {owner : String} {now expiresAt : Moment} {before : Db}
    {progress after : List Lease × Db} {row : InvocationRecord}
    (earlier : TakenOver owner now expiresAt progress.1 before.invocations progress.2.invocations ∧
      progress.2.budget = before.budget)
    (turn : recoverRow owner now expiresAt progress row = .ok after) :
    TakenOver owner now expiresAt after.1 before.invocations after.2.invocations ∧
      after.2.budget = before.budget := by
  obtain ⟨updated, isUpdate, final⟩ := bind_eq_ok.mp turn
  cases final
  obtain ⟨found, picked, replaced, units, _⟩ := Db.updateOne_replaced isUpdate
  have picked : found.invocationId = row.invocationId ∧ found.generation = row.generation ∧
      found.state = .claimed := by simpa using picked
  obtain ⟨sameId, sameGeneration, active⟩ := picked
  refine ⟨?_, units.trans earlier.2⟩
  rw [← sameId, ← sameGeneration]
  refine .more earlier.1 active ?_
  simpa only [InvocationRecord.takenOver, sameGeneration] using replaced

theorem recoverExpired_committed {db after : Db} {owner : String} {now : Moment}
    {leaseSeconds : Int} {limit : Nat} {leases : List Lease}
    (recovered : recoverExpired db owner now leaseSeconds limit = .ok (leases, after)) :
    Committed db (.recover owner now leaseSeconds limit) (.leases leases) after := by
  obtain ⟨expiresAt, _, rest⟩ := bind_eq_ok.mp recovered
  obtain ⟨newOwner, isOwner, rest⟩ := bind_eq_ok.mp rest
  obtain ⟨_, _, loop⟩ := bind_eq_ok.mp rest
  have sameOwner : owner = newOwner := by
    unfold requireOwner at isOwner
    split at isOwner
    · exact Except.ok.inj isOwner
    · cases isOwner
  subst sameOwner
  have final := foldlM_invariant
    (fun progress : List Lease × Db =>
      TakenOver owner now expiresAt progress.1 db.invocations progress.2.invocations ∧
        progress.2.budget = db.budget)
    (fun _ _ _ holds turn => recoverRow_takenOver holds turn) _ ⟨.none _, rfl⟩ loop
  exact .recovered final.1 final.2

/-- **Every call that commits does so in one of the listed ways.** -/
theorem transaction_committed {db after : Db} (unique : UniqueIds db) {call : Call}
    {answer : Answer} (committed : transaction db call = .ok (answer, after)) :
    Committed db call answer after := by
  cases call with
  | claim request budget owner now leaseSeconds newId =>
      obtain ⟨⟨result, tables⟩, done, final⟩ := bind_eq_ok.mp committed
      cases final
      exact claimInvocation_committed unique done
  | attempt lease budget now =>
      obtain ⟨⟨result, tables⟩, done, final⟩ := bind_eq_ok.mp committed
      cases final
      exact recordAttempt_committed unique done
  | complete lease now =>
      obtain ⟨⟨result, tables⟩, done, final⟩ := bind_eq_ok.mp committed
      cases final
      exact endInvocation_committed unique rfl rfl (by decide) done
  | release lease reason now =>
      obtain ⟨⟨result, tables⟩, done, final⟩ := bind_eq_ok.mp committed
      cases final
      exact endInvocation_committed unique rfl rfl (by decide) done
  | recover owner now leaseSeconds limit =>
      obtain ⟨⟨result, tables⟩, done, final⟩ := bind_eq_ok.mp committed
      cases final
      exact recoverExpired_committed done

end CryptoRadar.Invocation
