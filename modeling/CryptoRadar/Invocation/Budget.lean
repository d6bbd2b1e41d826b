import CryptoRadar.Invocation.Fencing
import Mathlib.Algebra.Order.BigOperators.Group.List

/-!
# Budget accounting

Units are reserved in two places. A winning claim reserves one unit in the windows of its
own time, which pays for the first attempt; every further attempt reserves one unit in the
windows of the attempt. Nothing else reserves and nothing is ever given back.

`Accounted` is the invariant: no window is above its limit, and over all windows of one kind
a model has reserved `max 1 attempts` for each of its invocations. It is proved for one call
in `step_accounted` and for every run in `reservation_accounting`.

What a window is charged and what is spent in it are different things: the first attempt may
fall in a later window than the claim that paid for it. `attempts_within_window` bounds the
attempts of a window by the limit and the first attempts carried over from other windows,
and `carried_attempt_overspends` is a run in which one is carried over and the limit passed.
-/

set_option autoImplicit false

namespace CryptoRadar.Invocation

open Runs

/-- Every claim of a model brings its one budget. -/
def UsesBudgets (budgets : String → ModelBudget) (call : Call) : Prop :=
  ∀ budget ∈ call.budget?, budget = budgets budget.model

instance (budgets : String → ModelBudget) (call : Call) : Decidable (UsesBudgets budgets call) :=
  inferInstanceAs (Decidable (∀ budget ∈ call.budget?, budget = budgets budget.model))

/-! ## The counters after a reservation -/

theorem isFor_iff {model : String} {kind : WindowKind} {start : Int} {row : BudgetRow} :
    row.isFor model kind start = true ↔
      row.model = model ∧ row.windowKind = kind ∧ row.windowStart = start := by
  simp [BudgetRow.isFor]

/-- The reserved units of one window, read from the budget table. -/
def reservedIn (rows : List BudgetRow) (model : String) (kind : WindowKind) (start : Int) : Nat :=
  ((rows.find? (BudgetRow.isFor model kind start)).map BudgetRow.reserved).getD 0

theorem Db.reserved_eq (db : Db) (model : String) (kind : WindowKind) (start : Int) :
    db.reserved model kind start = reservedIn db.budget model kind start := rfl

/-- A reservation adds one unit to its own window and none to the others. -/
theorem reservedIn_reserveRow (rows : List BudgetRow) (model other : String)
    (kind otherKind : WindowKind) (start otherStart : Int) :
    reservedIn (reserveRow model kind start rows) other otherKind otherStart =
      reservedIn rows other otherKind otherStart +
        if other = model ∧ otherKind = kind ∧ otherStart = start then 1 else 0 := by
  unfold reservedIn reserveRow
  by_cases same : other = model ∧ otherKind = kind ∧ otherStart = start
  · obtain ⟨rfl, rfl, rfl⟩ := same
    rw [Table.find?_upsert_self (fun row hit => by simpa [BudgetRow.isFor] using hit)
      (by simp [BudgetRow.isFor])]
    cases rows.find? (BudgetRow.isFor other otherKind otherStart) <;> simp
  · have apart : ∀ row : BudgetRow, row.isFor model kind start →
        row.isFor other otherKind otherStart = false := by
      intro row hit
      rw [Bool.eq_false_iff]
      intro alsoHit
      obtain ⟨rfl, rfl, rfl⟩ := isFor_iff.mp hit
      obtain ⟨rfl, rfl, rfl⟩ := isFor_iff.mp alsoHit
      exact same ⟨rfl, rfl, rfl⟩
    rw [Table.find?_upsert_of_ne (fun row hit => apart _ (by simpa [BudgetRow.isFor] using hit))
      apart (apart _ (by simp [BudgetRow.isFor])), if_neg same, Nat.add_zero]

/-- A reservation adds one unit to the hour and to the day of its windows. -/
theorem Db.reserved_reserve (db : Db) (model other : String) (windows : BudgetWindows)
    (kind : WindowKind) (start : Int) :
    (db.reserve model windows).reserved other kind start =
      db.reserved other kind start +
        if other = model ∧ start = windows.start kind then 1 else 0 := by
  have hourly := reservedIn_reserveRow db.budget model other .hour kind windows.hourStart start
  have daily := reservedIn_reserveRow (reserveRow model .hour windows.hourStart db.budget) model
    other .day kind windows.dayStart start
  rw [hourly] at daily
  refine daily.trans ?_
  rw [Nat.add_assoc, ← Db.reserved_eq]
  cases kind <;> split_ifs <;> simp_all [BudgetWindows.start]

/-- What a budget row counts towards one model and kind of window. -/
def BudgetRow.amount (model : String) (kind : WindowKind) (row : BudgetRow) : Nat :=
  if row.model = model ∧ row.windowKind = kind then row.reserved else 0

/-- The units a model has reserved over all windows of one kind. -/
def Db.reservedTotal (db : Db) (model : String) (kind : WindowKind) : Nat :=
  (db.budget.map (BudgetRow.amount model kind)).sum

theorem sum_reserveRow (rows : List BudgetRow) (model other : String)
    (kind otherKind : WindowKind) (start : Int) :
    ((reserveRow model kind start rows).map (BudgetRow.amount other otherKind)).sum =
      (rows.map (BudgetRow.amount other otherKind)).sum +
        if model = other ∧ kind = otherKind then 1 else 0 := by
  refine Table.sum_upsert (fun row hit => ?_) ?_ rows
  · obtain ⟨rfl, rfl, _⟩ := isFor_iff.mp hit
    unfold BudgetRow.amount
    split_ifs <;> rfl
  · unfold BudgetRow.amount
    split_ifs <;> rfl

theorem Db.reservedTotal_reserve (db : Db) (model other : String) (windows : BudgetWindows)
    (kind : WindowKind) :
    (db.reserve model windows).reservedTotal other kind =
      db.reservedTotal other kind + if model = other then 1 else 0 := by
  unfold Db.reservedTotal Db.reserve
  rw [sum_reserveRow, sum_reserveRow]
  cases kind <;> simp

/-! ## The invariant -/

/-- What an invocation has taken from its model's budget. -/
def InvocationRecord.units (model : String) (row : InvocationRecord) : Nat :=
  if row.model = model then max 1 row.attemptCount else 0

def InvocationRecord.attemptsOf (model : String) (row : InvocationRecord) : Nat :=
  if row.model = model then row.attemptCount else 0

def Db.unitsOf (db : Db) (model : String) : Nat :=
  (db.invocations.map (InvocationRecord.units model)).sum

def Db.attemptsOf (db : Db) (model : String) : Nat :=
  (db.invocations.map (InvocationRecord.attemptsOf model)).sum

/-- No window is above its limit and every unit belongs to an invocation. -/
structure Accounted (budgets : String → ModelBudget) (db : Db) : Prop where
  within : ∀ row ∈ db.budget, row.reserved ≤ (budgets row.model).limit row.windowKind
  total : ∀ model kind, db.reservedTotal model kind = db.unitsOf model

theorem Db.attemptsOf_le_unitsOf (db : Db) (model : String) :
    db.attemptsOf model ≤ db.unitsOf model := by
  refine List.sum_le_sum fun row _ => ?_
  unfold InvocationRecord.attemptsOf InvocationRecord.units
  split_ifs
  · exact Nat.le_max_right 1 _
  · exact Nat.le_refl 0

/-- A window holds its limit after a reservation that had room. -/
theorem reserveRow_within {budgets : String → ModelBudget} {rows : List BudgetRow} {model : String}
    {kind : WindowKind} {start : Int}
    (within : ∀ row ∈ rows, row.reserved ≤ (budgets row.model).limit row.windowKind)
    (room : reservedIn rows model kind start < (budgets model).limit kind) :
    ∀ row ∈ reserveRow model kind start rows,
      row.reserved ≤ (budgets row.model).limit row.windowKind := by
  intro row member
  rcases Table.mem_upsert member with old | ⟨old, found, rfl⟩ | ⟨absent, rfl⟩
  · exact within row old
  · obtain ⟨rfl, rfl, rfl⟩ := isFor_iff.mp (List.find?_some found)
    unfold reservedIn at room
    rw [found] at room
    exact room
  · exact (Nat.zero_le _).trans_lt room

theorem reserve_within {budgets : String → ModelBudget} {db : Db} {model : String} {now : Moment}
    (within : ∀ row ∈ db.budget, row.reserved ≤ (budgets row.model).limit row.windowKind)
    (room : ∀ kind, db.reserved model kind ((budgetWindows now).start kind) <
      (budgets model).limit kind) :
    ∀ row ∈ (db.reserve model (budgetWindows now)).budget,
      row.reserved ≤ (budgets row.model).limit row.windowKind := by
  refine reserveRow_within (reserveRow_within within (room .hour)) ?_
  have roomOfDay := room .day
  rw [Db.reserved_eq] at roomOfDay
  rw [reservedIn_reserveRow]
  simpa [BudgetWindows.start] using roomOfDay

section Step

variable {budgets : String → ModelBudget} {db after : Db} {call : Call} {answer : Answer}

/-- A call that leaves the budget and the units alone keeps the accounts. -/
theorem Accounted.of_same (accounted : Accounted budgets db) (budget : after.budget = db.budget)
    (units : ∀ model, after.unitsOf model = db.unitsOf model) : Accounted budgets after where
  within := by
    rw [budget]
    exact accounted.within
  total model kind := by
    rw [units, ← accounted.total model kind]
    unfold Db.reservedTotal
    rw [budget]

/-- A call that reserves one unit with room for it, and adds it to an invocation of the same
model, keeps the accounts. -/
theorem Accounted.of_reserve (accounted : Accounted budgets db) {budget : ModelBudget}
    {now : Moment} (uses : budget = budgets budget.model) (room : HasRoom db budget now)
    (reserved : after.budget = (db.reserve budget.model (budgetWindows now)).budget)
    (units : ∀ model, after.unitsOf model =
      db.unitsOf model + if budget.model = model then 1 else 0) : Accounted budgets after where
  within := by
    rw [reserved]
    refine reserve_within accounted.within fun kind => ?_
    rw [← uses]
    exact room kind
  total model kind := by
    rw [units, ← accounted.total model kind, ← Db.reservedTotal_reserve]
    unfold Db.reservedTotal
    rw [reserved]

/-- A replaced row moves the units by its own difference. -/
theorem Replaced.unitsOf {old new : InvocationRecord} (model : String)
    (replaced : Replaced db.invocations after.invocations old new) :
    after.unitsOf model + old.units model = db.unitsOf model + new.units model :=
  replaced.sum_add (InvocationRecord.units model)

theorem TakenOver.unitsOf {owner : String} {now expiresAt : Moment} {leases : List Lease}
    {before later : List InvocationRecord} {model : String}
    (taken : TakenOver owner now expiresAt leases before later) :
    (later.map (InvocationRecord.units model)).sum =
      (before.map (InvocationRecord.units model)).sum := by
  induction taken with
  | none rows => rfl
  | @more _ _ _ _ row _ _ replaced ih =>
      have moved := replaced.sum_add (InvocationRecord.units model)
      have same : (row.takenOver owner now expiresAt).units model = row.units model := rfl
      omega

/-- **One call keeps the accounts.** -/
theorem step_accounted (accounted : Accounted budgets db) (uses : UsesBudgets budgets call)
    (committed : Committed db call answer after) : Accounted budgets after := by
  cases committed with
  | @claimed request budget _ _ now _ lease _ _ _ _ sameModel _ room rows units =>
      refine accounted.of_reserve (uses budget rfl) room (by rw [units, sameModel]) fun model => ?_
      unfold Db.unitsOf
      rw [rows, List.map_append, List.sum_append, sameModel]
      simp [InvocationRecord.units, claimedRow]
  | @duplicate _ _ _ _ now _ row _ _ rows units =>
      refine accounted.of_same units fun model => ?_
      have moved := rows.unitsOf model
      have same : (row.demanded now).units model = row.units model := rfl
      omega
  | refused rows units =>
      refine accounted.of_same units fun model => ?_
      unfold Db.unitsOf
      rw [rows]
  | unapplied _ _ => exact accounted
  | @firstAttempt _ _ now row _ _ _ unspent rows units =>
      -- The claim already paid: one unit for no attempt is one unit for one attempt.
      refine accounted.of_same units fun model => ?_
      have moved := rows.unitsOf model
      have same : (row.attempted now).units model = row.units model := by
        simp [InvocationRecord.units, InvocationRecord.attempted, unspent]
      omega
  | @furtherAttempt _ budget now row _ _ sameModel spent room rows units =>
      refine accounted.of_reserve (uses budget rfl) room (by rw [units, sameModel]) fun model => ?_
      have moved := rows.unitsOf model
      have grows : (row.attempted now).units model =
          row.units model + if budget.model = model then 1 else 0 := by
        simp only [InvocationRecord.units, InvocationRecord.attempted, sameModel]
        split_ifs <;> omega
      omega
  | @ended _ _ now row _ state reason _ _ _ _ rows units =>
      refine accounted.of_same units fun model => ?_
      have moved := rows.unitsOf model
      have same : (row.ended now state reason).units model = row.units model := rfl
      omega
  | recovered rows units => exact accounted.of_same units fun model => rows.unitsOf

/-- A claim that did not win and a holder call that was not applied take nothing from the
budget. -/
def takesNoUnit : Except InvocationFailure Answer → Bool
  | .ok (.claim (.claimed ..)) => false
  | .ok (.transition result) => result.status ≠ .applied
  | .ok (.claim (.duplicate ..)) => true
  | .ok (.claim (.refused ..)) => true
  | .ok (.leases _) => true
  | .error _ => true

theorem step_budget_same (taken : takesNoUnit (.ok answer))
    (committed : Committed db call answer after) : after.budget = db.budget := by
  cases committed with
  | claimed => cases taken
  | duplicate _ _ units => exact units
  | refused _ units => exact units
  | unapplied _ _ => rfl
  | firstAttempt => simp [takesNoUnit] at taken
  | furtherAttempt => simp [takesNoUnit] at taken
  | ended => simp [takesNoUnit] at taken
  | recovered _ units => exact units

end Step

/-! ## Whole runs -/

section WholeRuns

variable {budgets : String → ModelBudget} {calls : List Call}

theorem run_accounted (fixed : ∀ call ∈ calls, UsesBudgets budgets call) :
    WellFormed (ledger.run .empty calls) ∧ Accounted budgets (ledger.run .empty calls) := by
  refine ledger.run_invariant (UsesBudgets budgets) (fun db => WellFormed db ∧ Accounted budgets db)
    ?_ calls .empty fixed ⟨wellFormed_empty, ⟨fun _ member => (by cases member), fun _ _ => rfl⟩⟩
  refine Machine.transactional_keeps _ _ fun db call answer after uses holds done => ?_
  have committed := transaction_committed holds.1.uniqueIds done
  exact ⟨step_wellFormed holds.1 committed, step_accounted holds.2 uses committed⟩

/-- **Reservation accounting.** In every run in which each model has one budget, no window is
above its limit; over all hours and over all days a model has reserved `max 1 attempts` for
each of its invocations, never less than its attempts; and from there a claim that does not
win and a holder call that is not applied leave every window as it is. -/
theorem reservation_accounting (budgets : String → ModelBudget) (calls : List Call)
    (fixed : ∀ call ∈ calls, UsesBudgets budgets call) :
    let db := ledger.run .empty calls
    (∀ row ∈ db.budget, row.reserved ≤ (budgets row.model).limit row.windowKind) ∧
    (∀ model kind, db.reservedTotal model kind = db.unitsOf model ∧
      db.attemptsOf model ≤ db.reservedTotal model kind) ∧
    (∀ call, takesNoUnit (ledger.step db call).1 → (ledger.next db call).budget = db.budget) := by
  intro db
  obtain ⟨wf, accounted⟩ := run_accounted fixed
  refine ⟨accounted.within, fun model kind => ⟨accounted.total model kind, ?_⟩, ?_⟩
  · rw [accounted.total model kind]
    exact Db.attemptsOf_le_unitsOf _ model
  · intro call taken
    cases result : transaction db call with
    | ok pair =>
        obtain ⟨answer, after⟩ := pair
        have moved : ledger.next db call = after := Machine.transactional_next_ok result
        have answered : (ledger.step db call).1 = .ok answer :=
          Machine.transactional_answer_ok result
        rw [moved]
        rw [answered] at taken
        exact step_budget_same taken (transaction_committed wf.uniqueIds result)
    | error failure =>
        have kept : ledger.next db call = db := Machine.transactional_next_error result
        rw [kept]

end WholeRuns

theorem reservation_accounting_one_claim :
    (∀ call ∈ [firstClaim, .attempt firstLease ⟨"m", 1, 4⟩ ⟨500000000, by decide⟩],
      UsesBudgets (fun model => ⟨model, 1, 4⟩) call) ∧
    (ledger.run .empty
      [firstClaim, .attempt firstLease ⟨"m", 1, 4⟩ ⟨500000000, by decide⟩]).attemptsOf "m" ≤ 1 := by
  refine ⟨by decide, ?_⟩
  obtain ⟨_, totals, _⟩ := reservation_accounting (fun model => ⟨model, 1, 4⟩)
    [firstClaim, .attempt firstLease ⟨"m", 1, 4⟩ ⟨500000000, by decide⟩] (by decide)
  exact (totals "m" .hour).2.trans (by decide)

/-! ## What is spent in a window -/

/-- The call was an applied attempt of the model, with its clock in the window. -/
def spendsIn (model : String) (kind : WindowKind) (start : Int)
    (entry : Entry Db Call (Except InvocationFailure Answer)) : Bool :=
  match entry.input with
  | .attempt _ budget now =>
      wasApplied entry.answer && budget.model = model && (budgetWindows now).start kind = start
  | _ => false

/-- The row the lease of the call names, as it was before the call. -/
def heldRow (entry : Entry Db Call (Except InvocationFailure Answer)) : Option InvocationRecord :=
  entry.input.lease?.bind fun lease => entry.before.load lease.invocationId

/-- The call was the first attempt of an invocation, and the claim that paid for it was made
in another window. -/
def carriedOver (model : String) (kind : WindowKind) (start : Int)
    (entry : Entry Db Call (Except InvocationFailure Answer)) : Bool :=
  spendsIn model kind start entry &&
    (heldRow entry).any fun row => row.attemptCount = 0 ∧ row.windows.start kind ≠ start

/-- The call was a further attempt, which reserves in its own window. -/
def paysItself (model : String) (kind : WindowKind) (start : Int)
    (entry : Entry Db Call (Except InvocationFailure Answer)) : Bool :=
  spendsIn model kind start entry && (heldRow entry).any fun row => 1 ≤ row.attemptCount

/-- The call was a first attempt, at any time, paid for by a claim made in the window. -/
def paidByClaim (model : String) (kind : WindowKind) (start : Int)
    (entry : Entry Db Call (Except InvocationFailure Answer)) : Bool :=
  match entry.input with
  | .attempt .. => wasApplied entry.answer && (heldRow entry).any fun row =>
      row.model = model ∧ row.attemptCount = 0 ∧ row.windows.start kind = start
  | _ => false

/-- The invocation is of the model and was claimed in the window. -/
def InvocationRecord.claimedIn (model : String) (kind : WindowKind) (start : Int)
    (row : InvocationRecord) : Bool :=
  row.model = model ∧ row.windows.start kind = start

/-- The claim of the invocation has paid for its first attempt. -/
def InvocationRecord.usedClaim (model : String) (kind : WindowKind) (start : Int)
    (row : InvocationRecord) : Bool :=
  row.claimedIn model kind start && 1 ≤ row.attemptCount

/-- What one call adds to the window, the rows claimed in it and the rows whose claim was
used. -/
structure Charge (model : String) (kind : WindowKind) (start : Int)
    (entry : Entry Db Call (Except InvocationFailure Answer)) : Prop where
  reserved : entry.after.reserved model kind start +
      entry.before.invocations.countP (InvocationRecord.claimedIn model kind start) =
    entry.before.reserved model kind start +
      entry.after.invocations.countP (InvocationRecord.claimedIn model kind start) +
        (paysItself model kind start entry).toNat
  used : entry.after.invocations.countP (InvocationRecord.usedClaim model kind start) =
    entry.before.invocations.countP (InvocationRecord.usedClaim model kind start) +
      (paidByClaim model kind start entry).toNat
  spent : (spendsIn model kind start entry).toNat ≤ (paysItself model kind start entry).toNat +
    (paidByClaim model kind start entry).toNat + (carriedOver model kind start entry).toNat

section Charges

variable {model : String} {kind : WindowKind} {start : Int} {db after : Db} {call : Call}

/-- A replacement that changes neither the row's standing nor anything else moves no count. -/
theorem Replaced.countP_same {before later : List InvocationRecord} {old new : InvocationRecord}
    (replaced : Replaced before later old new) {counted : InvocationRecord → Bool}
    (same : counted new = counted old) : later.countP counted = before.countP counted := by
  have moved := replaced.countP_add counted
  rw [same] at moved
  omega

theorem TakenOver.countP_same {owner : String} {now expiresAt : Moment} {leases : List Lease}
    {before later : List InvocationRecord}
    (taken : TakenOver owner now expiresAt leases before later)
    {counted : InvocationRecord → Bool}
    (same : ∀ row : InvocationRecord, counted (row.takenOver owner now expiresAt) = counted row) :
    later.countP counted = before.countP counted := by
  induction taken with
  | none rows => rfl
  | more _ _ replaced ih => exact (replaced.countP_same (same _)).trans ih

/-- A call that is no applied attempt charges the rows it adds to the window, and spends
nothing. -/
theorem Charge.of_quiet {entry : Entry Db Call (Except InvocationFailure Answer)}
    (quiet : ∀ lease budget now, entry.input = .attempt lease budget now →
      wasApplied entry.answer = false)
    (reserved : entry.after.reserved model kind start +
        entry.before.invocations.countP (InvocationRecord.claimedIn model kind start) =
      entry.before.reserved model kind start +
        entry.after.invocations.countP (InvocationRecord.claimedIn model kind start))
    (used : entry.after.invocations.countP (InvocationRecord.usedClaim model kind start) =
      entry.before.invocations.countP (InvocationRecord.usedClaim model kind start)) :
    Charge model kind start entry := by
  have nothingSpent : spendsIn model kind start entry = false := by
    unfold spendsIn
    split
    next lease budget now isAttempt => simp [quiet lease budget now isAttempt]
    next => rfl
  have nothingPaid : paidByClaim model kind start entry = false := by
    unfold paidByClaim
    split
    next lease budget now isAttempt => simp [quiet lease budget now isAttempt]
    next => rfl
  refine ⟨?_, ?_, ?_⟩
  · simpa [paysItself, nothingSpent] using reserved
  · simpa [nothingPaid] using used
  · simp [nothingSpent]

theorem claimed_attempted {row : InvocationRecord} {now : Moment} :
    (row.attempted now).claimedIn model kind start = row.claimedIn model kind start := rfl

theorem Db.reserved_of_budget {before later : Db} (same : later.budget = before.budget)
    (model : String) (kind : WindowKind) (start : Int) :
    later.reserved model kind start = before.reserved model kind start := by
  rw [Db.reserved_eq, Db.reserved_eq, same]

end Charges

section AppliedAttempt

variable {model : String} {kind : WindowKind} {start : Int}
  {entry : Entry Db Call (Except InvocationFailure Answer)}
  {lease : Lease} {budget : ModelBudget} {now : Moment} {row : InvocationRecord}
  {result : Transition}
  (wf : WellFormed entry.before) (input : entry.input = .attempt lease budget now)
  (answered : entry.answer = .ok (.transition result)) (applied : result.status = .applied)
  (holds : Holds lease row now) (sameModel : row.model = budget.model)
  (rows : Replaced entry.before.invocations entry.after.invocations row (row.attempted now))

include wf input holds rows in
theorem heldRow_of_holds : heldRow entry = some row := by
  have loaded := wf.load_of_mem rows.old_mem
  rw [holds.sameId] at loaded
  unfold heldRow
  rw [input]
  exact loaded

include input answered applied sameModel in
theorem spendsIn_of_applied : spendsIn model kind start entry =
    decide (row.model = model ∧ (budgetWindows now).start kind = start) := by
  unfold spendsIn
  rw [input, answered, sameModel]
  simp [wasApplied, Answer.isApplied, applied]

include wf input answered applied holds sameModel rows

/-- A first attempt is paid for by the claim, whatever the window of the attempt. -/
theorem Charge.of_firstAttempt (unspent : row.attemptCount = 0)
    (units : entry.after.budget = entry.before.budget) : Charge model kind start entry := by
  have held := heldRow_of_holds wf input holds rows
  have noPay : paysItself model kind start entry = false := by
    simp [paysItself, held, unspent]
  have paid : paidByClaim model kind start entry = row.claimedIn model kind start := by
    unfold paidByClaim
    rw [input, answered, held]
    simp [unspent, wasApplied, Answer.isApplied, applied, InvocationRecord.claimedIn]
  refine ⟨?_, ?_, ?_⟩
  · rw [noPay, rows.countP_same claimed_attempted, Db.reserved_of_budget units]
    rfl
  · have moved := rows.countP_add (InvocationRecord.usedClaim model kind start)
    have before : row.usedClaim model kind start = false := by
      simp [InvocationRecord.usedClaim, unspent]
    have later : (row.attempted now).usedClaim model kind start =
        row.claimedIn model kind start := by
      unfold InvocationRecord.usedClaim
      rw [claimed_attempted]
      simp [InvocationRecord.attempted]
    rw [before, later] at moved
    rw [paid]
    cases inWindow : row.claimedIn model kind start <;> simpa [inWindow] using moved
  · rw [noPay, paid]
    cases inWindow : row.claimedIn model kind start with
    | true =>
        have atMostOne := Bool.toNat_le (spendsIn model kind start entry)
        simp only [Bool.toNat_true]
        omega
    | false =>
        -- The claim is of another window or of another model; the second spends nothing here.
        have carried : carriedOver model kind start entry = spendsIn model kind start entry := by
          simp only [InvocationRecord.claimedIn, decide_eq_false_iff_not, not_and] at inWindow
          simp only [carriedOver, held, Option.any_some, unspent, true_and]
          rw [spendsIn_of_applied input answered applied sameModel]
          by_cases ofModel : row.model = model
          · simp [inWindow ofModel]
          · simp [ofModel]
        rw [carried]
        simp

/-- A further attempt pays in its own window. -/
theorem Charge.of_furtherAttempt (spent : 1 ≤ row.attemptCount)
    (units : entry.after.budget = (entry.before.reserve row.model (budgetWindows now)).budget) :
    Charge model kind start entry := by
  have held := heldRow_of_holds wf input holds rows
  have pays : paysItself model kind start entry = spendsIn model kind start entry := by
    simp [paysItself, held, spent]
  have unpaid : paidByClaim model kind start entry = false := by
    unfold paidByClaim
    rw [input, held]
    simp only [Option.any_some, Bool.and_eq_false_iff, decide_eq_false_iff_not]
    exact .inr fun claimed => by omega
  refine ⟨?_, ?_, ?_⟩
  · have reserved := Db.reserved_of_budget units model kind start
    rw [Db.reserved_reserve] at reserved
    rw [pays, spendsIn_of_applied input answered applied sameModel, rows.countP_same claimed_attempted,
      reserved]
    by_cases inWindow : row.model = model ∧ (budgetWindows now).start kind = start
    · rw [if_pos ⟨inWindow.1.symm, inWindow.2.symm⟩, decide_eq_true inWindow, Bool.toNat_true]
      omega
    · rw [if_neg fun both => inWindow ⟨both.1.symm, both.2.symm⟩, decide_eq_false inWindow,
        Bool.toNat_false]
      omega
  · have kept : (row.attempted now).usedClaim model kind start =
        row.usedClaim model kind start := by
      unfold InvocationRecord.usedClaim
      rw [claimed_attempted]
      simp [InvocationRecord.attempted, spent]
    rw [unpaid, rows.countP_same kept]
    rfl
  · rw [pays, Nat.add_assoc]
    exact Nat.le_add_right _ _

end AppliedAttempt

/-- A call that leaves the windows and the standing of every row alone charges nothing. -/
theorem Charge.of_still {model : String} {kind : WindowKind} {start : Int}
    {entry : Entry Db Call (Except InvocationFailure Answer)}
    (quiet : ∀ lease budget now, entry.input = .attempt lease budget now →
      wasApplied entry.answer = false)
    (units : entry.after.budget = entry.before.budget)
    (same : ∀ counted : InvocationRecord → Bool,
      (∀ first second : InvocationRecord, first.model = second.model →
        first.windows = second.windows → first.attemptCount = second.attemptCount →
          counted first = counted second) →
      entry.after.invocations.countP counted = entry.before.invocations.countP counted) :
    Charge model kind start entry := by
  refine .of_quiet quiet ?_ (same _ fun first second models windows attempts => ?_)
  · rw [Db.reserved_of_budget units, same _ fun first second models windows _ => ?_]
    simp only [InvocationRecord.claimedIn, models, windows]
  · simp only [InvocationRecord.usedClaim, InvocationRecord.claimedIn, models, windows, attempts]

/-- **The charge of one call**, whatever the call. -/
theorem entry_charge {db : Db} (wf : WellFormed db) (call : Call) (model : String)
    (kind : WindowKind) (start : Int) : Charge model kind start (ledger.entry db call) := by
  cases result : transaction db call with
  | error failure =>
      have kept : ledger.next db call = db := Machine.transactional_next_error result
      have answered : (ledger.step db call).1 = .error failure :=
        Machine.transactional_answer_error result
      refine .of_still (fun _ _ _ _ => ?_) (by rw [Machine.entry, kept])
        fun counted _ => by rw [Machine.entry, kept]
      simp only [Machine.entry, answered, wasApplied]
  | ok pair =>
      obtain ⟨answer, after⟩ := pair
      have moved : ledger.next db call = after := Machine.transactional_next_ok result
      have answered : (ledger.step db call).1 = .ok answer := Machine.transactional_answer_ok result
      simp only [Machine.entry, moved, answered]
      cases transaction_committed wf.uniqueIds result with
      | @claimed request budget _ _ now _ lease _ _ _ _ sameModel _ _ rows units =>
          refine .of_quiet (fun _ _ _ isAttempt => by cases isAttempt) ?_ ?_
          · have reserved := Db.reserved_of_budget units model kind start
            rw [Db.reserved_reserve] at reserved
            simp only [rows, reserved, List.countP_append, List.countP_singleton,
              InvocationRecord.claimedIn, claimedRow, decide_eq_true_eq]
            by_cases inWindow : request.model = model ∧ (budgetWindows now).start kind = start
            · rw [if_pos ⟨inWindow.1.symm, inWindow.2.symm⟩, if_pos inWindow]
              omega
            · rw [if_neg fun both => inWindow ⟨both.1.symm, both.2.symm⟩,
                if_neg inWindow]
              omega
          · simp [rows, InvocationRecord.usedClaim, claimedRow]
      | duplicate _ rows units =>
          exact .of_still (fun _ _ _ isAttempt => by cases isAttempt) units
            fun counted same => rows.countP_same (same _ _ rfl rfl rfl)
      | refused rows units =>
          exact .of_still (fun _ _ _ isAttempt => by cases isAttempt) units
            fun counted _ => by simp only [rows]
      | unapplied _ kept =>
          exact .of_still (fun _ _ _ _ => by simpa [wasApplied, Answer.isApplied] using kept) rfl
            fun counted _ => rfl
      | firstAttempt holds sameModel unspent rows units =>
          exact .of_firstAttempt wf rfl rfl rfl holds sameModel rows unspent units
      | furtherAttempt holds sameModel spent room rows units =>
          exact .of_furtherAttempt wf rfl rfl rfl holds sameModel rows spent units
      | ended _ noAttempt _ _ rows units =>
          refine .of_still (fun lease budget now isAttempt => ?_) units
            fun counted same => rows.countP_same (same _ _ rfl rfl rfl)
          rw [show call = .attempt lease budget now from isAttempt] at noAttempt
          cases noAttempt
      | recovered rows units =>
          exact .of_still (fun _ _ _ isAttempt => by cases isAttempt) units
            fun counted same => rows.countP_same fun row => same _ _ rfl rfl rfl

/-- The history of a window: what it holds is what was claimed in it and what further
attempts paid in it, and a claim pays for one first attempt. -/
structure WindowHistory (model : String) (kind : WindowKind) (start : Int)
    (past : List (Entry Db Call (Except InvocationFailure Answer))) (db : Db) : Prop where
  reserved : db.reserved model kind start =
    db.invocations.countP (InvocationRecord.claimedIn model kind start) +
      past.countP (paysItself model kind start)
  used : past.countP (paidByClaim model kind start) =
    db.invocations.countP (InvocationRecord.usedClaim model kind start)
  spent : past.countP (spendsIn model kind start) ≤ past.countP (paysItself model kind start) +
    past.countP (paidByClaim model kind start) + past.countP (carriedOver model kind start)

theorem run_windowHistory (model : String) (kind : WindowKind) (start : Int) (calls : List Call) :
    WindowHistory model kind start (ledger.trace .empty calls) (ledger.run .empty calls) := by
  have history := ledger.history_invariant (fun _ => True)
    (fun past db => WellFormed db ∧ WindowHistory model kind start past db) ?_ calls [] .empty
    (fun _ _ => trivial) ⟨wellFormed_empty, ⟨rfl, rfl, by simp⟩⟩
  · exact history.2
  · rintro past db call - ⟨wf, window⟩
    refine ⟨next_wellFormed db call wf, ?_⟩
    have charge := entry_charge wf call model kind start
    have counted : ∀ holds : Entry Db Call (Except InvocationFailure Answer) → Bool,
        (past ++ [ledger.entry db call]).countP holds =
          past.countP holds + (holds (ledger.entry db call)).toNat := by
      intro holds
      rw [List.countP_append, List.countP_singleton]
      cases holds (ledger.entry db call) <;> rfl
    obtain ⟨reserved, used, spent⟩ := window
    obtain ⟨addsReserved, addsUsed, addsSpent⟩ := charge
    simp only [Machine.entry] at addsReserved addsUsed addsSpent counted
    refine ⟨?_, ?_, ?_⟩ <;> simp only [counted, Machine.entry] <;> omega

/-- **Attempts of a window.** The applied attempts of a model whose clock falls in a window are
at most the limit of the window and those of them that are first attempts of invocations
claimed in another window. -/
theorem attempts_within_window (budgets : String → ModelBudget) (calls : List Call)
    (fixed : ∀ call ∈ calls, UsesBudgets budgets call) (model : String) (kind : WindowKind)
    (start : Int) :
    (ledger.trace .empty calls).countP (spendsIn model kind start) ≤
      (budgets model).limit kind +
        (ledger.trace .empty calls).countP (carriedOver model kind start) := by
  obtain ⟨_, accounted⟩ := run_accounted fixed
  obtain ⟨reserved, used, spent⟩ := run_windowHistory model kind start calls
  have within : (ledger.run .empty calls).reserved model kind start ≤ (budgets model).limit kind := by
    rw [Db.reserved_eq]
    unfold reservedIn
    cases found : (ledger.run .empty calls).budget.find? (BudgetRow.isFor model kind start) with
    | none => exact Nat.zero_le _
    | some row =>
        obtain ⟨rfl, rfl, rfl⟩ := isFor_iff.mp (List.find?_some found)
        exact accounted.within row (List.mem_of_find?_eq_some found)
  have usedOnce : (ledger.run .empty calls).invocations.countP
      (InvocationRecord.usedClaim model kind start) ≤
        (ledger.run .empty calls).invocations.countP
          (InvocationRecord.claimedIn model kind start) := by
    refine List.countP_mono_left fun row _ isUsed => ?_
    exact (Bool.and_eq_true_iff.mp isUsed).1
  omega

/-- The hash of another evidence than `sealedEvidence`. -/
def laterEvidence : String :=
  "sha256:60303ae22b998861bce3b28f33eec1be758a213c86c93c076dbe9f558c11c752"

/-- A claim one minute before the hour, its first attempt after the hour, then a claim and an
attempt of the new hour. -/
def carriedRun : List Call :=
  [.claim ⟨⟨"binance", .spot, "BTCUSDT", "breakout", .long, sealedEvidence, "p1"⟩, "m"⟩ ⟨"m", 1, 4⟩
      "worker-a" ⟨3540000000, by decide⟩ 600 "i1",
    .attempt ⟨"i1", 1, "worker-a", ⟨4140000000, by decide⟩⟩ ⟨"m", 1, 4⟩ ⟨3630000000, by decide⟩,
    .claim ⟨⟨"binance", .spot, "BTCUSDT", "breakout", .long, laterEvidence, "p1"⟩, "m"⟩ ⟨"m", 1, 4⟩
      "worker-a" ⟨3660000000, by decide⟩ 600 "i2",
    .attempt ⟨"i2", 1, "worker-a", ⟨4260000000, by decide⟩⟩ ⟨"m", 1, 4⟩ ⟨3720000000, by decide⟩]

/-- Two attempts in an hour whose limit is one. -/
theorem carried_attempt_overspends :
    ¬ ∀ (budgets : String → ModelBudget) (calls : List Call),
      (∀ call ∈ calls, UsesBudgets budgets call) → ∀ model kind start,
        (ledger.trace .empty calls).countP (spendsIn model kind start) ≤
          (budgets model).limit kind := by
  intro bounded
  have tooFew := bounded (fun model => ⟨model, 1, 4⟩) carriedRun (by decide) "m" .hour 1
  have twoAttempts : (ledger.trace .empty carriedRun).countP (spendsIn "m" .hour 1) = 2 := by decide
  rw [twoAttempts] at tooFew
  exact absurd tooFew (by decide)

theorem attempts_within_window_carried :
    (∀ call ∈ carriedRun, UsesBudgets (fun model => ⟨model, 1, 4⟩) call) ∧
    (ledger.trace .empty carriedRun).countP (carriedOver "m" .hour 1) = 1 ∧
    (ledger.trace .empty carriedRun).countP (spendsIn "m" .hour 1) ≤ 2 := by
  have carried : (ledger.trace .empty carriedRun).countP (carriedOver "m" .hour 1) = 1 := by decide
  refine ⟨by decide, carried, ?_⟩
  have bound := attempts_within_window (fun model => ⟨model, 1, 4⟩) carriedRun (by decide) "m"
    .hour 1
  rw [carried] at bound
  exact bound

end CryptoRadar.Invocation
