import Mathlib.Algebra.BigOperators.Intervals
import Mathlib.Algebra.BigOperators.Ring.Finset
import Mathlib.Algebra.Field.Basic
import Mathlib.Algebra.Order.BigOperators.Group.Finset
import Mathlib.Logic.Equiv.Basic
import Mathlib.Tactic.LinearCombination
import Mathlib.Tactic.Ring

/-!
# Elimination in systems of equations

A system of `size` equations in `size` unknowns is a function of a row and a column; the right side
stands in the column after the last unknown. `Solves size scale system x` says that `x` solves the
system with its right side scaled: scale 1 is the system, scale 0 the homogeneous one.

An exchange of two rows and the subtraction of a multiple of another row keep the solutions, at every
scale (`solves_exchanged`, `solves_subtracted`). A triangular system without a zero on its diagonal is
solved from its last row up (`solves_of_back`), and its homogeneous system has the solution zero only
(`eq_zero_of_solves`).
-/

set_option autoImplicit false

namespace Elimination

variable {K : Type} [Field K] {size : ℕ}

def Solves (size : ℕ) (scale : K) (system : ℕ → ℕ → K) (x : ℕ → K) : Prop :=
  ∀ row < size, ∑ column ∈ Finset.range size, system row column * x column = scale * system row size

/-! ## Row operations -/

theorem solves_congr {scale : K} {system other : ℕ → ℕ → K} {x : ℕ → K}
    (same : ∀ row < size, ∀ column ≤ size, system row column = other row column) :
    Solves size scale system x ↔ Solves size scale other x := by
  refine forall₂_congr ?_
  intro row inside
  rw [same row inside size le_rfl]
  have sums : ∑ column ∈ Finset.range size, system row column * x column =
      ∑ column ∈ Finset.range size, other row column * x column := by
    refine Finset.sum_congr rfl ?_
    intro column isColumn
    rw [same row inside column (Finset.mem_range.mp isColumn).le]
  rw [sums]

def exchanged (system : ℕ → ℕ → K) (first second : ℕ) (row column : ℕ) : K :=
  system (Equiv.swap first second row) column

theorem swap_lt {first second row : ℕ} (isFirst : first < size) (isSecond : second < size)
    (inside : row < size) : Equiv.swap first second row < size := by
  rw [Equiv.swap_apply_def]
  split_ifs
  · exact isSecond
  · exact isFirst
  · exact inside

theorem solves_exchanged {scale : K} {system : ℕ → ℕ → K} {x : ℕ → K} {first second : ℕ}
    (isFirst : first < size) (isSecond : second < size) :
    Solves size scale (exchanged system first second) x ↔ Solves size scale system x := by
  constructor
  · intro solves row inside
    have same := solves (Equiv.swap first second row) (swap_lt isFirst isSecond inside)
    simpa only [exchanged, Equiv.swap_apply_self] using same
  · intro solves row inside
    exact solves (Equiv.swap first second row) (swap_lt isFirst isSecond inside)

/-- The system with a multiple of one row subtracted from another. -/
def subtracted (system : ℕ → ℕ → K) (pivot target : ℕ) (factor : K) (row column : ℕ) : K :=
  if row = target then system row column - factor * system pivot column else system row column

theorem solves_subtracted {scale : K} {system : ℕ → ℕ → K} {x : ℕ → K} {pivot target : ℕ} {factor : K}
    (isPivot : pivot < size) (different : pivot ≠ target) :
    Solves size scale (subtracted system pivot target factor) x ↔ Solves size scale system x := by
  have changed : ∑ column ∈ Finset.range size, (system target column - factor * system pivot column) *
      x column = ∑ column ∈ Finset.range size, system target column * x column -
        factor * ∑ column ∈ Finset.range size, system pivot column * x column := by
    rw [Finset.mul_sum, ← Finset.sum_sub_distrib]
    refine Finset.sum_congr rfl ?_
    intro column _
    ring
  constructor
  · intro solves
    have atPivot := solves pivot isPivot
    simp only [subtracted, if_neg different] at atPivot
    intro row inside
    have atRow := solves row inside
    by_cases isTarget : row = target
    · subst isTarget
      simp only [subtracted, if_true] at atRow
      rw [changed] at atRow
      linear_combination atRow + factor * atPivot
    · simpa only [subtracted, if_neg isTarget] using atRow
  · intro solves row inside
    by_cases isTarget : row = target
    · subst isTarget
      simp only [subtracted, if_true]
      rw [changed, solves row inside, solves pivot isPivot]
      ring
    · simp only [subtracted, if_neg isTarget]
      exact solves row inside

/-! ## Triangular systems -/

/-- The first columns are zero under the diagonal, and not zero on it. -/
structure Triangular (size : ℕ) (system : ℕ → ℕ → K) (columns : ℕ) : Prop where
  zero : ∀ column < columns, ∀ row < size, column < row → system row column = 0
  diagonal : ∀ column < columns, system column column ≠ 0

/-- What a row of a triangular system says: only the columns from its own on count. -/
theorem Triangular.sum_eq {system : ℕ → ℕ → K} (triangular : Triangular size system size)
    (x : ℕ → K) {row : ℕ} (inside : row < size) :
    ∑ column ∈ Finset.range size, system row column * x column =
      system row row * x row + ∑ column ∈ Finset.Ico (row + 1) size, system row column * x column := by
  have front : ∑ column ∈ Finset.range row, system row column * x column = 0 := by
    refine Finset.sum_eq_zero ?_
    intro column isColumn
    have below := Finset.mem_range.mp isColumn
    rw [triangular.zero column (below.trans inside) row inside below, zero_mul]
  rw [Finset.range_eq_Ico, ← Finset.sum_Ico_consecutive _ (Nat.zero_le row) inside.le,
    ← Finset.range_eq_Ico, front, zero_add, Finset.sum_eq_sum_Ico_succ_bot inside]

/-- Each unknown is computed from the later ones. -/
theorem solves_of_back {system : ℕ → ℕ → K} (triangular : Triangular size system size) {x : ℕ → K}
    (back : ∀ row < size, x row = (system row size -
      ∑ column ∈ Finset.Ico (row + 1) size, system row column * x column) / system row row) :
    Solves size 1 system x := by
  intro row inside
  rw [triangular.sum_eq x inside, back row inside, mul_div_cancel₀ _ (triangular.diagonal row inside)]
  ring

theorem eq_zero_of_solves {system : ℕ → ℕ → K} (triangular : Triangular size system size) {x : ℕ → K}
    (solves : Solves size 0 system x) : ∀ column < size, x column = 0 := by
  have later : ∀ count, ∀ column < size, size ≤ column + count → x column = 0 := by
    intro count
    induction count with
    | zero => intro column inside reaches; omega
    | succ count hyp =>
        intro column inside reaches
        have rest : ∑ other ∈ Finset.Ico (column + 1) size, system column other * x other = 0 := by
          refine Finset.sum_eq_zero ?_
          intro other isOther
          obtain ⟨after, before⟩ := Finset.mem_Ico.mp isOther
          rw [hyp other before (by omega), mul_zero]
        have row := solves column inside
        rw [triangular.sum_eq x inside, rest, add_zero, zero_mul] at row
        exact (mul_eq_zero.mp row).resolve_left (triangular.diagonal column inside)
  intro column inside
  exact later size column inside (by omega)

end Elimination
