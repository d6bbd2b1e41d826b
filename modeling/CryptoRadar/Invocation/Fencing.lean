import CryptoRadar.Invocation.Transitions

/-!
# Lease fencing

Calls of any number of owners, with any clocks and any leases, reach the ledger in some
order. Whatever the order:

* a row only evolves: its identity, model and windows stay, its generation and counters do
  not go down, and a row that was completed or released never changes again
  (`step_evolves`, `run_evolves`);
* at most one claimed row has a given identity (`run_wellFormed`);
* a lease below the generation of its row changes nothing and is not applied
  (`stale_lease_refused`).

A recovery that hands out generation `g + 1` leaves the row at that generation, rows never
go back, and so every later call with a lease of generation `g` or less is refused. The
results are put together in `lease_fencing`.
-/

set_option autoImplicit false

namespace CryptoRadar.Invocation

open Runs

/-! ## The invariant of the tables -/

def InvocationRecord.isActive (identity : InvocationIdentity) (row : InvocationRecord) : Bool :=
  row.state = .claimed ∧ row.identity = identity

/-- Ids are unique and so are active identities. -/
structure WellFormed (db : Db) : Prop where
  uniqueIds : UniqueIds db
  singleActive : ∀ identity, db.invocations.countP (InvocationRecord.isActive identity) ≤ 1

structure Evolves (old new : InvocationRecord) : Prop where
  sameId : new.invocationId = old.invocationId
  sameIdentity : new.identity = old.identity
  sameModel : new.model = old.model
  sameWindows : new.windows = old.windows
  generation : old.generation ≤ new.generation
  attempts : old.attemptCount ≤ new.attemptCount
  final : old.state ≠ .claimed → new = old

namespace Evolves

theorem refl (row : InvocationRecord) : Evolves row row where
  sameId := rfl
  sameIdentity := rfl
  sameModel := rfl
  sameWindows := rfl
  generation := Nat.le_refl _
  attempts := Nat.le_refl _
  final _ := rfl

theorem trans {first second third : InvocationRecord} (earlier : Evolves first second)
    (later : Evolves second third) : Evolves first third where
  sameId := later.sameId.trans earlier.sameId
  sameIdentity := later.sameIdentity.trans earlier.sameIdentity
  sameModel := later.sameModel.trans earlier.sameModel
  sameWindows := later.sameWindows.trans earlier.sameWindows
  generation := earlier.generation.trans later.generation
  attempts := earlier.attempts.trans later.attempts
  final ended := by
    have same := earlier.final ended
    rw [same] at later
    exact later.final ended

variable {row : InvocationRecord} (active : row.state = .claimed)
include active

theorem demanded (now : Moment) : Evolves row (row.demanded now) where
  sameId := rfl
  sameIdentity := rfl
  sameModel := rfl
  sameWindows := rfl
  generation := Nat.le_refl _
  attempts := Nat.le_refl _
  final ended := absurd active ended

theorem attempted (now : Moment) : Evolves row (row.attempted now) where
  sameId := rfl
  sameIdentity := rfl
  sameModel := rfl
  sameWindows := rfl
  generation := Nat.le_refl _
  attempts := Nat.le_succ _
  final ended := absurd active ended

theorem ended (now : Moment) (state : InvocationState) (reason : Option ReleaseReason) :
    Evolves row (row.ended now state reason) where
  sameId := rfl
  sameIdentity := rfl
  sameModel := rfl
  sameWindows := rfl
  generation := Nat.le_refl _
  attempts := Nat.le_refl _
  final ended := absurd active ended

theorem takenOver (owner : String) (now expiresAt : Moment) :
    Evolves row (row.takenOver owner now expiresAt) where
  sameId := rfl
  sameIdentity := rfl
  sameModel := rfl
  sameWindows := rfl
  generation := Nat.le_succ _
  attempts := Nat.le_refl _
  final ended := absurd active ended

end Evolves

/-- Every row of the first table is in the second, evolved. -/
def RowsEvolve (before after : List InvocationRecord) : Prop :=
  ∀ row ∈ before, ∃ later ∈ after, Evolves row later

theorem RowsEvolve.refl (rows : List InvocationRecord) : RowsEvolve rows rows :=
  fun row member => ⟨row, member, .refl row⟩

theorem RowsEvolve.trans {first second third : List InvocationRecord}
    (earlier : RowsEvolve first second) (later : RowsEvolve second third) :
    RowsEvolve first third := by
  intro row member
  obtain ⟨middle, middleIn, toMiddle⟩ := earlier row member
  obtain ⟨last, lastIn, toLast⟩ := later middle middleIn
  exact ⟨last, lastIn, toMiddle.trans toLast⟩

/-- The answer is a holder action that was applied. -/
def Answer.isApplied : Answer → Bool
  | .transition result => result.status = .applied
  | .claim _ => false
  | .leases _ => false

/-! ## One replacement -/

section Replacement

variable {before after : List InvocationRecord} {old new : InvocationRecord}

theorem Replaced.rowsEvolve (replaced : Replaced before after old new)
    (evolves : Evolves old new) : RowsEvolve before after := by
  intro row member
  rcases replaced.mem_before member with rfl | kept
  · exact ⟨new, replaced.new_mem, evolves⟩
  · exact ⟨row, kept, .refl row⟩

theorem Replaced.ids (replaced : Replaced before after old new) (evolves : Evolves old new) :
    after.map (·.invocationId) = before.map (·.invocationId) := by
  obtain ⟨earlier, later, rfl, rfl⟩ := replaced
  simp [evolves.sameId]

/-- A claimed row replaced by its evolution adds no active identity. -/
theorem Replaced.active_le (replaced : Replaced before after old new) (evolves : Evolves old new)
    (active : old.state = .claimed) (identity : InvocationIdentity) :
    after.countP (InvocationRecord.isActive identity) ≤
      before.countP (InvocationRecord.isActive identity) := by
  have moved := replaced.countP_add (InvocationRecord.isActive identity)
  have implied : InvocationRecord.isActive identity new = true →
      InvocationRecord.isActive identity old = true := by
    intro isActive
    simp only [InvocationRecord.isActive, decide_eq_true_eq, evolves.sameIdentity] at isActive ⊢
    exact ⟨active, isActive.2⟩
  split_ifs at moved with wasActive isActive
  · omega
  · omega
  · exact absurd (implied ‹_›) wasActive
  · omega

end Replacement

theorem TakenOver.rowsEvolve {owner : String} {now expiresAt : Moment} {leases : List Lease}
    {before after : List InvocationRecord}
    (taken : TakenOver owner now expiresAt leases before after) : RowsEvolve before after := by
  induction taken with
  | none rows => exact .refl rows
  | more _ active replaced ih =>
      exact ih.trans (replaced.rowsEvolve (.takenOver active owner now expiresAt))

theorem TakenOver.ids {owner : String} {now expiresAt : Moment} {leases : List Lease}
    {before after : List InvocationRecord}
    (taken : TakenOver owner now expiresAt leases before after) :
    after.map (·.invocationId) = before.map (·.invocationId) := by
  induction taken with
  | none rows => rfl
  | more _ active replaced ih =>
      exact (replaced.ids (.takenOver active owner now expiresAt)).trans ih

theorem TakenOver.active_le {owner : String} {now expiresAt : Moment} {leases : List Lease}
    {before after : List InvocationRecord}
    (taken : TakenOver owner now expiresAt leases before after) (identity : InvocationIdentity) :
    after.countP (InvocationRecord.isActive identity) ≤
      before.countP (InvocationRecord.isActive identity) := by
  induction taken with
  | none rows => exact Nat.le_refl _
  | more _ active replaced ih =>
      exact (replaced.active_le (.takenOver active owner now expiresAt) active identity).trans ih

/-- A lease handed out by a recovery names a row at its generation. -/
theorem TakenOver.lease_row {owner : String} {now expiresAt : Moment} {leases : List Lease}
    {before after : List InvocationRecord}
    (taken : TakenOver owner now expiresAt leases before after) :
    ∀ lease ∈ leases, ∃ row ∈ after,
      row.invocationId = lease.invocationId ∧ lease.generation ≤ row.generation := by
  induction taken with
  | none rows =>
      intro lease member
      cases member
  | @more _ _ _ _ row _ active replaced ih =>
      intro lease member
      rcases List.mem_append.mp member with old | new
      · obtain ⟨held, heldIn, sameId, below⟩ := ih lease old
        obtain ⟨later, laterIn, evolves⟩ :=
          replaced.rowsEvolve (.takenOver active owner now expiresAt) held heldIn
        exact ⟨later, laterIn, evolves.sameId.trans sameId, below.trans evolves.generation⟩
      · rw [List.mem_singleton] at new
        subst new
        exact ⟨_, replaced.new_mem, rfl, Nat.le_refl _⟩

/-! ## One call -/

/-- **Rows only evolve**: whatever call commits, every row is still there, with the same
identity and windows, counters not lower, and unchanged if it had ended. -/
theorem step_evolves {db after : Db} {call : Call} {answer : Answer}
    (committed : Committed db call answer after) :
    RowsEvolve db.invocations after.invocations := by
  cases committed with
  | claimed _ _ _ _ _ rows _ =>
      intro row member
      exact ⟨row, by rw [rows]; exact List.mem_append_left _ member, .refl row⟩
  | duplicate active rows _ => exact rows.rowsEvolve (.demanded active _)
  | refused rows _ => rw [rows]; exact .refl _
  | unapplied _ _ => exact .refl _
  | firstAttempt holds _ _ rows _ => exact rows.rowsEvolve (.attempted holds.active _)
  | furtherAttempt holds _ _ _ rows _ => exact rows.rowsEvolve (.attempted holds.active _)
  | ended _ _ holds _ rows _ => exact rows.rowsEvolve (.ended holds.active _ _ _)
  | recovered rows _ => exact rows.rowsEvolve

theorem Replaced.wellFormed {db after : Db} {old new : InvocationRecord} (wf : WellFormed db)
    (replaced : Replaced db.invocations after.invocations old new) (evolves : Evolves old new)
    (active : old.state = .claimed) : WellFormed after where
  uniqueIds := by
    unfold UniqueIds
    rw [replaced.ids evolves]
    exact wf.uniqueIds
  singleActive identity := (replaced.active_le evolves active identity).trans (wf.singleActive identity)

theorem step_wellFormed {db after : Db} {call : Call} {answer : Answer} (wf : WellFormed db)
    (committed : Committed db call answer after) : WellFormed after := by
  cases committed with
  | @claimed request budget owner newId now leaseSeconds lease usage after fresh single _ _ _ rows _ =>
      refine ⟨?_, fun identity => ?_⟩
      · unfold UniqueIds
        rw [rows, List.map_append, List.nodup_append]
        refine ⟨wf.uniqueIds, by simp, ?_⟩
        intro taken takenIn new newIn same
        obtain ⟨other, otherIn, rfl⟩ := List.mem_map.mp takenIn
        simp only [List.map_cons, List.map_nil, List.mem_singleton] at newIn
        exact fresh other otherIn (same.trans newIn)
      · rw [rows, List.countP_append]
        by_cases same : request.identity = identity
        · -- The identity just claimed had no active row before.
          have never : db.invocations.countP (InvocationRecord.isActive identity) = 0 := by
            refine List.countP_eq_zero.mpr fun other otherIn isActive => ?_
            simp only [InvocationRecord.isActive, decide_eq_true_eq] at isActive
            exact single other otherIn ⟨isActive.1, isActive.2.trans same.symm⟩
          rw [never, Nat.zero_add]
          exact List.countP_le_length
        · have fewer := wf.singleActive identity
          have other : InvocationRecord.isActive identity (claimedRow request lease now) = false := by
            simp [InvocationRecord.isActive, claimedRow, same]
          simpa [List.countP_cons, other] using fewer
  | duplicate active rows _ => exact rows.wellFormed wf (.demanded active _) active
  | refused rows _ =>
      refine ⟨?_, fun identity => ?_⟩
      · unfold UniqueIds
        rw [rows]
        exact wf.uniqueIds
      · rw [rows]
        exact wf.singleActive identity
  | unapplied _ _ => exact wf
  | firstAttempt holds _ _ rows _ => exact rows.wellFormed wf (.attempted holds.active _) holds.active
  | furtherAttempt holds _ _ _ rows _ =>
      exact rows.wellFormed wf (.attempted holds.active _) holds.active
  | ended _ _ holds _ rows _ => exact rows.wellFormed wf (.ended holds.active _ _ _) holds.active
  | recovered rows _ =>
      refine ⟨?_, fun identity => (rows.active_le identity).trans (wf.singleActive identity)⟩
      unfold UniqueIds
      rw [rows.ids]
      exact wf.uniqueIds

/-- **A stale lease is refused**: a lease below the generation of its row changes nothing and
is not applied. -/
theorem stale_lease_refused {db after : Db} {call : Call} {answer : Answer} {stale : Lease}
    {row : InvocationRecord} (wf : WellFormed db) (member : row ∈ db.invocations)
    (sameId : row.invocationId = stale.invocationId) (below : stale.generation < row.generation)
    (presented : call.lease? = some stale) (committed : Committed db call answer after) :
    after = db ∧ ¬ answer.isApplied := by
  -- The row a lease holds is the row above, whose generation is another one.
  have noHold : ∀ {lease : Lease} {held : InvocationRecord} {now : Moment},
      call.lease? = some lease → held ∈ db.invocations → ¬ Holds lease held now := by
    intro lease held now isPresented heldIn holds
    rw [presented] at isPresented
    cases isPresented
    have same := wf.uniqueIds.eq_of_id heldIn member (holds.sameId.trans sameId.symm)
    have equal := holds.sameGeneration
    rw [same] at equal
    omega
  cases committed with
  | claimed => cases presented
  | duplicate => cases presented
  | refused => cases presented
  | unapplied _ kept => exact ⟨rfl, by simpa [Answer.isApplied] using kept⟩
  | firstAttempt holds _ _ rows _ => exact absurd holds (noHold rfl rows.old_mem)
  | furtherAttempt holds _ _ _ rows _ => exact absurd holds (noHold rfl rows.old_mem)
  | ended isPresented _ holds _ rows _ => exact absurd holds (noHold isPresented rows.old_mem)
  | recovered => cases presented

/-! ## Whole runs -/

theorem wellFormed_empty : WellFormed .empty where
  uniqueIds := List.nodup_nil
  singleActive _ := by simp [Db.empty]

theorem next_wellFormed (db : Db) (call : Call) (wf : WellFormed db) :
    WellFormed (ledger.next db call) :=
  Machine.transactional_keeps (fun _ => True) WellFormed
    (fun _ _ _ _ _ holds done => step_wellFormed holds (transaction_committed holds.uniqueIds done))
    db call trivial wf

/-- Every reachable state is well formed. -/
theorem run_wellFormed (calls : List Call) : WellFormed (ledger.run .empty calls) :=
  ledger.run_invariant (fun _ => True) WellFormed
    (fun db call _ wf => next_wellFormed db call wf) calls .empty (fun _ _ => trivial)
    wellFormed_empty

theorem next_evolves {db : Db} (call : Call) (wf : WellFormed db) :
    RowsEvolve db.invocations (ledger.next db call).invocations := by
  cases result : transaction db call with
  | ok pair =>
      obtain ⟨answer, after⟩ := pair
      have moved : ledger.next db call = after := Machine.transactional_next_ok result
      rw [moved]
      exact step_evolves (transaction_committed wf.uniqueIds result)
  | error failure =>
      have kept : ledger.next db call = db := Machine.transactional_next_error result
      rw [kept]
      exact .refl _

/-- Rows only evolve along a run. -/
theorem run_evolves {db : Db} (wf : WellFormed db) (calls : List Call) :
    RowsEvolve db.invocations (ledger.run db calls).invocations := by
  induction calls generalizing db with
  | nil => exact .refl _
  | cons call rest ih =>
      exact (next_evolves call wf).trans (ih (next_wellFormed db call wf))

theorem WellFormed.load_of_mem {db : Db} (wf : WellFormed db) {row : InvocationRecord}
    (member : row ∈ db.invocations) : db.load row.invocationId = some row := by
  cases loaded : db.load row.invocationId with
  | none =>
      have absent := List.find?_eq_none.mp loaded row member
      simp at absent
  | some found =>
      obtain ⟨foundIn, sameId⟩ := Db.mem_of_load loaded
      rw [wf.uniqueIds.eq_of_id foundIn member sameId]

/-- The step of one call moves the invocation out of `claimed`. -/
def leavesClaimed (invocationId : String)
    (entry : Entry Db Call (Except InvocationFailure Answer)) : Bool :=
  (entry.before.load invocationId).any (·.state = .claimed) &&
    (entry.after.load invocationId).any (·.state ≠ .claimed)

/-- The invocation was completed or released. -/
def hasEnded (invocationId : String) (db : Db) : Bool :=
  (db.load invocationId).any (·.state ≠ .claimed)

theorem next_hasEnded {invocationId : String} {db : Db} (call : Call) (wf : WellFormed db)
    (finished : hasEnded invocationId db) : hasEnded invocationId (ledger.next db call) := by
  obtain ⟨row, loaded, terminal⟩ := (Option.any_eq_true _ _).mp finished
  obtain ⟨member, sameId⟩ := Db.mem_of_load loaded
  obtain ⟨later, laterIn, evolves⟩ := next_evolves call wf row member
  have same : later = row := evolves.final (by simpa using terminal)
  subst same
  unfold hasEnded
  rw [← sameId, (next_wellFormed db call wf).load_of_mem laterIn]
  exact terminal

/-- Along a run an invocation leaves `claimed` only if it has ended, and then once. -/
theorem run_leaves_once (invocationId : String) (calls : List Call) :
    (ledger.trace .empty calls).countP (leavesClaimed invocationId) ≤
      (if hasEnded invocationId (ledger.run .empty calls) then 1 else 0) := by
  have history := ledger.history_invariant (fun _ => True)
    (fun past db => WellFormed db ∧
      past.countP (leavesClaimed invocationId) ≤ if hasEnded invocationId db then 1 else 0)
    (fun past db call _ holds => ?_) calls [] .empty (fun _ _ => trivial)
    ⟨wellFormed_empty, by simp⟩
  · exact history.2
  · obtain ⟨wf, counted⟩ := holds
    refine ⟨next_wellFormed db call wf, ?_⟩
    rw [List.countP_append, List.countP_singleton]
    cases leaves : leavesClaimed invocationId (ledger.entry db call) with
    | true =>
        -- The row was claimed before, so nothing was counted yet, and it is ended now.
        obtain ⟨wasClaimed, isEnded⟩ := Bool.and_eq_true_iff.mp leaves
        have notYet : hasEnded invocationId db = false := by
          unfold hasEnded
          cases loaded : db.load invocationId with
          | none => rfl
          | some row => simpa [Machine.entry, loaded] using wasClaimed
        have nowEnded : hasEnded invocationId (ledger.next db call) = true := isEnded
        rw [notYet] at counted
        rw [nowEnded]
        simpa using counted
    | false =>
        cases finished : hasEnded invocationId db with
        | true =>
            rw [finished] at counted
            rw [next_hasEnded call wf finished]
            simpa using counted
        | false =>
            rw [finished] at counted
            have nothing : past.countP (leavesClaimed invocationId) = 0 := by simpa using counted
            simp [nothing]

/-- The answer of a call, failed calls included, was `applied`. -/
def wasApplied : Except InvocationFailure Answer → Bool
  | .ok answer => answer.isApplied
  | .error _ => false

/-- A recovery leaves the row of each lease it hands out at that lease's generation or above,
in every later state. -/
theorem recovered_generation (middle : List Call) {calls : List Call} {owner : String} {now : Moment}
    {leaseSeconds : Int} {limit : Nat} {leases : List Lease} {lease : Lease}
    (recovered : (ledger.step (ledger.run .empty calls) (.recover owner now leaseSeconds limit)).1 =
      .ok (.leases leases)) (handed : lease ∈ leases) :
    ∃ row ∈ (ledger.run .empty (calls ++ .recover owner now leaseSeconds limit :: middle)).invocations,
      row.invocationId = lease.invocationId ∧ lease.generation ≤ row.generation := by
  have wf := run_wellFormed calls
  have done := Machine.transactional_answer_ok_iff.mp recovered
  rw [ledger.run_append, ledger.run_cons]
  cases transaction_committed wf.uniqueIds done with
  | recovered rows _ =>
      obtain ⟨row, rowIn, sameId, atLeast⟩ := rows.lease_row lease handed
      obtain ⟨later, laterIn, evolves⟩ := run_evolves (next_wellFormed _ _ wf) middle row rowIn
      exact ⟨later, laterIn, evolves.sameId.trans sameId, atLeast.trans evolves.generation⟩

/-- **Lease fencing.** Along every run of calls, an invocation leaves `claimed` at most once;
at most one claimed row has a given identity; generations and attempt counts do not go down;
and after a recovery no call with a lease of a lower generation is applied or changes
anything. -/
theorem lease_fencing (invocationId : String) (calls : List Call) :
    (ledger.trace .empty calls).countP (leavesClaimed invocationId) ≤ 1 ∧
    (∀ identity, (ledger.run .empty calls).invocations.countP
      (InvocationRecord.isActive identity) ≤ 1) ∧
    (∀ more row, (ledger.run .empty calls).load invocationId = some row →
      ∃ later, (ledger.run .empty (calls ++ more)).load invocationId = some later ∧
        row.generation ≤ later.generation ∧ row.attemptCount ≤ later.attemptCount) ∧
    (∀ owner now leaseSeconds limit leases lease,
      (ledger.step (ledger.run .empty calls) (.recover owner now leaseSeconds limit)).1 =
        .ok (.leases leases) → lease ∈ leases →
      ∀ middle call stale, call.lease? = some stale →
        stale.invocationId = lease.invocationId → stale.generation < lease.generation →
        let db := ledger.run .empty (calls ++ .recover owner now leaseSeconds limit :: middle)
        wasApplied (ledger.step db call).1 = false ∧ ledger.next db call = db) := by
  refine ⟨?_, (run_wellFormed calls).singleActive, ?_, ?_⟩
  · have counted := run_leaves_once invocationId calls
    split_ifs at counted
    · exact counted
    · exact counted.trans (Nat.zero_le 1)
  · intro more row loaded
    obtain ⟨member, sameId⟩ := Db.mem_of_load loaded
    obtain ⟨later, laterIn, evolves⟩ := run_evolves (run_wellFormed calls) more row member
    refine ⟨later, ?_, evolves.generation, evolves.attempts⟩
    rw [← ledger.run_append] at laterIn
    rw [← sameId, ← evolves.sameId]
    exact (run_wellFormed _).load_of_mem laterIn
  · intro owner now leaseSeconds limit leases lease recovered handed middle call stale presented
      sameId below db
    obtain ⟨row, rowIn, rowId, atLeast⟩ := recovered_generation middle recovered handed
    have wf : WellFormed db := run_wellFormed _
    cases result : transaction db call with
    | ok pair =>
        obtain ⟨answer, after⟩ := pair
        have refused := stale_lease_refused wf rowIn (rowId.trans sameId.symm)
          (below.trans_le atLeast) presented (transaction_committed wf.uniqueIds result)
        refine ⟨?_, (Machine.transactional_next_ok result).trans refused.1⟩
        have answered : (ledger.step db call).1 = .ok answer :=
          Machine.transactional_answer_ok result
        rw [answered]
        simpa [wasApplied] using refused.2
    | error failure =>
        refine ⟨?_, Machine.transactional_next_error result⟩
        have answered : (ledger.step db call).1 = .error failure :=
          Machine.transactional_answer_error result
        rw [answered]
        rfl

/-- The first holder of a run in which its lease runs out at 600 s and is recovered at 700 s. -/
def firstLease : Lease := ⟨"i1", 1, "worker-a", ⟨600000000, by decide⟩⟩

/-- The hash of a sealed evidence. -/
def sealedEvidence : String :=
  "sha256:9f86d081884c7d659a2feaa0c55ad015a3bf4f1b2b0b822cd15d6c15b0f00a08"

def firstClaim : Call :=
  .claim ⟨⟨"binance", .spot, "BTCUSDT", "breakout", .long, sealedEvidence, "p1"⟩, "m"⟩ ⟨"m", 1, 4⟩
    "worker-a" ⟨0, Moment.epoch_inRange⟩ 600 "i1"

theorem lease_fencing_after_recovery :
    (ledger.step (ledger.run .empty [firstClaim])
        (.recover "worker-b" ⟨700000000, by decide⟩ 60 10)).1 =
      .ok (.leases [⟨"i1", 2, "worker-b", ⟨760000000, by decide⟩⟩]) ∧
    wasApplied (ledger.step
      (ledger.run .empty [firstClaim, .recover "worker-b" ⟨700000000, by decide⟩ 60 10])
      (.attempt firstLease ⟨"m", 1, 4⟩ ⟨500000000, by decide⟩)).1 = false :=
  ⟨by decide, ((lease_fencing "i1" [firstClaim]).2.2.2 _ _ _ _ _
    ⟨"i1", 2, "worker-b", ⟨760000000, by decide⟩⟩ (by decide) (List.mem_singleton.mpr rfl) []
    _ firstLease rfl rfl (by decide)).1⟩

end CryptoRadar.Invocation
