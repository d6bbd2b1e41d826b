import CryptoRadar.Calibration.Metrics
import CryptoRadar.Lib.Elimination
import Mathlib.LinearAlgebra.Matrix.ToLinearEquiv

/-!
# The step of Newton's method

`_solve` of `domain/calibration.py`: elimination with partial pivoting on an augmented copy of the
matrix, then substitution from the last row up. Reading or writing an item may fail, so may a
division, and a column without a large enough pivot raises `_SingularSystem`.

In exact arithmetic every state of the copy has the solutions of the input, with its right side and
without (`Reduced`). So a result solves the system, nothing else than `_SingularSystem` is raised, and
a singular matrix always raises it (`solve_solves`).
-/

set_option autoImplicit false

namespace CryptoRadar.Calibration

open Checked Elimination

/-! ## The program -/

/-- What `_solve` may raise: `_SingularSystem`, an error of arithmetic or an `IndexError`. -/
inductive SolveFailure where
  | singular
  | number (error : NumberError)
  | index
  deriving DecidableEq, Repr

/-- `items[index]`. -/
def itemAt {α : Type} (items : List α) (index : ℕ) : Except SolveFailure α :=
  require .index items[index]?

section Program

variable {F : Type} [CalibrationMath F]

/-- `a[row][column]`. -/
def entryAt (a : List (List F)) (row column : ℕ) : Except SolveFailure F := do
  itemAt (← itemAt a row) column

/-- `a[row][column] = value`. -/
def assignAt (a : List (List F)) (row column : ℕ) (value : F) : Except SolveFailure (List (List F)) := do
  let items ← itemAt a row
  let _ ← itemAt items column
  return a.set row (items.set column value)

/-- The rows with their right sides. -/
def augmented (matrix : List (List F)) (vector : List F) : Except SolveFailure (List (List F)) :=
  matrix.zipIdx.mapM fun (row, index) => do return row ++ [← itemAt vector index]

/-- One turn of `max(range(column, size), key=...)`, which keeps the first of the largest. -/
def largerPivot (a : List (List F)) (column : ℕ) (best : ℕ × F) (row : ℕ) :
    Except SolveFailure (ℕ × F) := do
  let key := PyFloat.abs (← entryAt a row column)
  return if PyFloat.lt best.2 key then (row, key) else best

/-- The row of the largest entry of a column, from the diagonal on. -/
def pivotOf (a : List (List F)) (size column : ℕ) : Except SolveFailure ℕ := do
  let first := PyFloat.abs (← entryAt a column column)
  let best ← (List.range' (column + 1) (size - (column + 1))).foldlM (largerPivot a column)
    (column, first)
  return best.1

/-- `a[first], a[second] = a[second], a[first]`. -/
def swapRows (a : List (List F)) (first second : ℕ) : Except SolveFailure (List (List F)) := do
  let one ← itemAt a first
  let other ← itemAt a second
  return (a.set first other).set second one

/-- `a[row][k] -= factor * a[column][k]`. -/
def subtractAt (column row : ℕ) (factor : F) (a : List (List F)) (k : ℕ) :
    Except SolveFailure (List (List F)) := do
  let value ← entryAt a row k
  let pivot ← entryAt a column k
  assignAt a row k (value - factor * pivot)

/-- One row of the elimination. -/
def eliminateRow (size column : ℕ) (a : List (List F)) (row : ℕ) :
    Except SolveFailure (List (List F)) := do
  let factor ← (PyFloat.divide (← entryAt a row column) (← entryAt a column column)).mapError .number
  if PyFloat.eq factor 0.0 then return a
  else (List.range' column (size + 1 - column)).foldlM (subtractAt column row factor) a

/-- One column of the elimination. -/
def eliminateColumn (size : ℕ) (a : List (List F)) (column : ℕ) :
    Except SolveFailure (List (List F)) := do
  let pivot ← pivotOf a size column
  ensure (PyFloat.lt 1e-300 (PyFloat.abs (← entryAt a pivot column))) .singular
  let a ← swapRows a column pivot
  (List.range' (column + 1) (size - (column + 1))).foldlM (eliminateRow size column) a

/-- One turn of the substitution. -/
def substituteRow (size : ℕ) (a : List (List F)) (solution : List F) (row : ℕ) :
    Except SolveFailure (List F) := do
  let products ← (List.range' (row + 1) (size - (row + 1))).mapM fun k => do
    return (← entryAt a row k) * (← itemAt solution k)
  let tail ← (CalibrationMath.fsum products).mapError .number
  let value ← (PyFloat.divide ((← entryAt a row size) - tail) (← entryAt a row row)).mapError .number
  let _ ← itemAt solution row
  return solution.set row value

/-- `_solve`. -/
def solve (matrix : List (List F)) (vector : List F) : Except SolveFailure (List F) := do
  let size := vector.length
  let a ← augmented matrix vector
  let a ← (List.range' 0 size).foldlM (eliminateColumn size) a
  (List.range' 0 size).reverse.foldlM (substituteRow size a) (List.replicate size 0.0)

end Program

/-! ## How a computation ends -/

/-- A computation returns what is wanted, or it raises `_SingularSystem`. -/
def Solvable {α : Type} (wanted : α → Prop) : Except SolveFailure α → Prop
  | .ok value => wanted value
  | .error failure => failure = .singular

theorem Solvable.bind {α β : Type} {wanted : α → Prop} {next : β → Prop}
    {first : Except SolveFailure α} {second : α → Except SolveFailure β}
    (ends : Solvable wanted first) (goes : ∀ value, wanted value → Solvable next (second value)) :
    Solvable next (first >>= second) := by
  cases first with
  | error failure => exact ends
  | ok value => exact goes value ends

/-- What each turn of a loop over a range keeps holds at its end. -/
theorem Solvable.foldlM {State : Type} (Inv : ℕ → State → Prop)
    {turn : State → ℕ → Except SolveFailure State} {start : ℕ} : ∀ {count : ℕ} {state : State},
    (∀ index state, start ≤ index → index < start + count → Inv index state →
      Solvable (Inv (index + 1)) (turn state index)) →
    Inv start state → Solvable (Inv (start + count)) ((List.range' start count).foldlM turn state) := by
  intro count
  induction count with
  | zero => exact fun _ holds => holds
  | succ count hyp =>
      intro state keeps holds
      have front := hyp (fun index state least most => keeps index state least (by omega)) holds
      rw [← Nat.add_assoc, List.range'_concat, List.foldlM_append, Nat.one_mul]
      refine front.bind ?_
      intro middle reached
      rw [List.foldlM_cons]
      refine (keeps (start + count) middle (by omega) (by omega) reached).bind ?_
      exact fun last done => done

section Entries

variable {K : Type} [Field K]

/-! ## Entries of a copy of the right shape -/

structure Shaped (size : ℕ) (a : List (List K)) : Prop where
  rows : a.length = size
  columns : ∀ items ∈ a, items.length = size + 1

/-- An entry, 0 outside. -/
def valueAt (a : List (List K)) (row column : ℕ) : K := (((a[row]?).getD [])[column]?).getD 0

variable {size row column : ℕ} {a : List (List K)}

theorem Shaped.itemAt (shaped : Shaped size a) (inside : row < size) :
    ∃ items, itemAt a row = .ok items ∧ items.length = size + 1 ∧
      ∀ column, items[column]?.getD 0 = valueAt a row column := by
  have within : row < a.length := shaped.rows ▸ inside
  have found : a[row]? = some a[row] := List.getElem?_eq_getElem within
  refine ⟨a[row], require_eq_ok.mpr found, shaped.columns _ (List.getElem_mem within), ?_⟩
  intro column
  rw [valueAt, found, Option.getD_some]

theorem itemAt_eq_ok {items : List K} {index : ℕ} (within : index < items.length) :
    itemAt items index = .ok (items[index]?.getD 0) := by
  rw [itemAt, List.getElem?_eq_getElem within, Option.getD_some]
  rfl

theorem Shaped.entryAt (shaped : Shaped size a) (inside : row < size) (within : column ≤ size) :
    entryAt a row column = .ok (valueAt a row column) := by
  obtain ⟨items, isRow, length, entries⟩ := shaped.itemAt inside
  rw [Calibration.entryAt, isRow, ← entries column]
  exact itemAt_eq_ok (by omega)

omit [Field K] in
theorem Shaped.set (shaped : Shaped size a) {items : List K} (length : items.length = size + 1) :
    Shaped size (a.set row items) where
  rows := by rw [List.length_set, shaped.rows]
  columns other member := by
    rcases List.mem_or_eq_of_mem_set member with old | rfl
    · exact shaped.columns other old
    · exact length

theorem valueAt_set (shaped : Shaped size a) (inside : row < size) (items : List K) (other column : ℕ) :
    valueAt (a.set row items) other column =
      if other = row then items[column]?.getD 0 else valueAt a other column := by
  unfold valueAt
  rw [List.getElem?_set]
  by_cases same : row = other
  · subst same
    rw [if_pos rfl, if_pos rfl, if_pos (shaped.rows ▸ inside), Option.getD_some]
  · rw [if_neg same, if_neg (Ne.symm same)]

theorem Shaped.assignAt (shaped : Shaped size a) (inside : row < size) (within : column ≤ size)
    (value : K) : ∃ after, assignAt a row column value = .ok after ∧ Shaped size after ∧
      ∀ other index, valueAt after other index =
        if other = row ∧ index = column then value else valueAt a other index := by
  obtain ⟨items, isRow, length, entries⟩ := shaped.itemAt inside
  have isItem : Calibration.itemAt items column = .ok (items[column]?.getD 0) := itemAt_eq_ok (by omega)
  refine ⟨a.set row (items.set column value), ?_, shaped.set (by rw [List.length_set, length]), ?_⟩
  · rw [Calibration.assignAt, isRow]
    change (Calibration.itemAt items column >>= _) = _
    rw [isItem]
    rfl
  · intro other index
    rw [valueAt_set shaped inside]
    by_cases isRow : other = row
    · subst isRow
      rw [if_pos rfl, List.getElem?_set]
      by_cases isColumn : column = index
      · subst isColumn
        rw [if_pos rfl, if_pos (by omega), if_pos ⟨rfl, rfl⟩, Option.getD_some]
      · rw [if_neg isColumn, if_neg (fun both => isColumn both.2.symm), entries index]
    · rw [if_neg isRow, if_neg (fun both => isRow both.1)]

end Entries

section Exact

variable {K : Type} [Field K] [LinearOrder K] [OtherFunctions K] {size row column : ℕ}
  {a : List (List K)}

open ExactNumber

/-! ## Row operations of the program -/

omit [LinearOrder K] [OtherFunctions K] in
theorem Shaped.swapRows (shaped : Shaped size a) {first second : ℕ} (isFirst : first < size)
    (isSecond : second < size) : ∃ after, swapRows a first second = .ok after ∧ Shaped size after ∧
      ∀ row column, valueAt after row column = exchanged (valueAt a) first second row column := by
  obtain ⟨one, isOne, oneLength, oneEntries⟩ := shaped.itemAt isFirst
  obtain ⟨other, isOther, otherLength, otherEntries⟩ := shaped.itemAt isSecond
  have middle : Shaped size (a.set first other) := shaped.set otherLength
  refine ⟨(a.set first other).set second one, ?_, middle.set oneLength, ?_⟩
  · rw [Calibration.swapRows, isOne]
    change (Calibration.itemAt a second >>= _) = _
    rw [isOther]
    rfl
  · intro row column
    rw [valueAt_set middle isSecond, valueAt_set shaped isFirst, exchanged, oneEntries, otherEntries,
      Equiv.swap_apply_def]
    by_cases atSecond : row = second
    · by_cases atFirst : row = first
      · rw [if_pos atSecond, if_pos atFirst, ← atFirst, ← atSecond]
      · rw [if_pos atSecond, if_neg atFirst, if_pos atSecond]
    · rw [if_neg atSecond]
      by_cases atFirst : row = first
      · rw [if_pos atFirst, if_pos atFirst]
      · rw [if_neg atFirst, if_neg atFirst, if_neg atSecond]

/-- The columns of a row up to a column are subtracted. -/
structure PartlySubtracted (size : ℕ) (before : List (List K)) (column row : ℕ) (factor : K) (next : ℕ)
    (a : List (List K)) : Prop where
  shaped : Shaped size a
  values : ∀ other index, valueAt a other index =
    if other = row ∧ column ≤ index ∧ index < next then
      valueAt before other index - factor * valueAt before column index
    else valueAt before other index

theorem subtractAt_solvable {before : List (List K)} {factor : K} {k : ℕ} (isRow : row < size)
    (isColumn : column < size) (different : column ≠ row) (least : column ≤ k) (most : k ≤ size)
    (partly : PartlySubtracted size before column row factor k a) :
    Solvable (PartlySubtracted size before column row factor (k + 1))
      (subtractAt column row factor a k) := by
  have value : entryAt a row k = .ok (valueAt before row k) := by
    rw [partly.shaped.entryAt isRow most, partly.values, if_neg (by omega)]
  have pivot : entryAt a column k = .ok (valueAt before column k) := by
    rw [partly.shaped.entryAt isColumn most, partly.values, if_neg (fun both => different both.1)]
  obtain ⟨after, assigned, shaped, values⟩ := partly.shaped.assignAt isRow most
    (valueAt before row k - factor * valueAt before column k)
  have turn : subtractAt column row factor a k = .ok after := by
    rw [subtractAt, value]
    change (entryAt a column k >>= _) = _
    rw [pivot]
    exact assigned
  rw [turn]
  refine ⟨shaped, ?_⟩
  intro other index
  rw [values, partly.values]
  by_cases here : other = row ∧ index = k
  · obtain ⟨rfl, rfl⟩ := here
    rw [if_pos ⟨rfl, rfl⟩, if_pos ⟨rfl, least, Nat.lt_succ_self _⟩]
  · rw [if_neg here]
    by_cases old : other = row ∧ column ≤ index ∧ index < k
    · rw [if_pos old, if_pos ⟨old.1, old.2.1, by omega⟩]
    · rw [if_neg old, if_neg]
      rintro ⟨isOther, above, below⟩
      exact here ⟨isOther, by
        by_contra notHere
        exact old ⟨isOther, above, by omega⟩⟩

/-! ## States of the elimination -/

/-- The copy has the solutions of the start at every scale, and its first columns are done. -/
structure Reduced (size : ℕ) (start : ℕ → ℕ → K) (columns : ℕ) (a : List (List K)) : Prop where
  shaped : Shaped size a
  triangular : Triangular size (valueAt a) columns
  solutions : ∀ scale x, Solves size scale (valueAt a) x ↔ Solves size scale start x

/-- The column of the pivot is done in the rows down to one. -/
structure PartlyReduced (size : ℕ) (start : ℕ → ℕ → K) (column next : ℕ) (a : List (List K)) : Prop
    extends Reduced size start column a where
  pivot : valueAt a column column ≠ 0
  done : ∀ row, column < row → row < next → row < size → valueAt a row column = 0

variable {start : ℕ → ℕ → K}

omit [LinearOrder K] [OtherFunctions K] in
theorem PartlyReduced.subtracted {after : List (List K)} {factor : K}
    (partly : PartlyReduced size start column row a) (isRow : row < size) (below : column < row)
    (isFactor : factor = valueAt a row column / valueAt a column column) (shaped : Shaped size after)
    (values : ∀ other, ∀ index ≤ size,
      valueAt after other index = subtracted (valueAt a) column row factor other index) :
    PartlyReduced size start column (row + 1) after where
  shaped := shaped
  triangular := {
    zero := by
      intro left isLeft other isOther under
      rw [values other left (by omega), Elimination.subtracted,
        partly.triangular.zero left isLeft other isOther under,
        partly.triangular.zero left isLeft column (below.trans isRow) isLeft]
      simp
    diagonal := by
      intro left isLeft
      rw [values left left (by omega), Elimination.subtracted, if_neg (by omega)]
      exact partly.triangular.diagonal left isLeft }
  solutions := by
    intro scale x
    rw [← partly.solutions scale x]
    have same : Solves size scale (valueAt after) x ↔
        Solves size scale (Elimination.subtracted (valueAt a) column row factor) x :=
      solves_congr fun other _ index most => values other index most
    exact same.trans (solves_subtracted (below.trans isRow) below.ne)
  pivot := by
    rw [values column column (by omega), Elimination.subtracted, if_neg below.ne]
    exact partly.pivot
  done := by
    intro other under before isOther
    rw [values other column (by omega), Elimination.subtracted]
    by_cases here : other = row
    · subst here
      rw [if_pos rfl, isFactor, div_mul_cancel₀ _ partly.pivot, sub_self]
    · rw [if_neg here]
      exact partly.done other under (by omega) isOther

theorem eliminateRow_solvable [IsStrictOrderedRing K] (partly : PartlyReduced size start column row a)
    (isRow : row < size) (below : column < row) :
    Solvable (PartlyReduced size start column (row + 1)) (eliminateRow size column a row) := by
  have isColumn : column < size := below.trans isRow
  have value := partly.shaped.entryAt isRow isColumn.le
  have pivot := partly.shaped.entryAt isColumn isColumn.le
  let factor := valueAt a row column / valueAt a column column
  have divided : PyFloat.divide (valueAt a row column) (valueAt a column column) = .ok factor :=
    divide_exact.mpr ⟨partly.pivot, rfl⟩
  have turn : eliminateRow size column a row = if factor = 0 then .ok a else
      (List.range' column (size + 1 - column)).foldlM (subtractAt column row factor) a := by
    rw [eliminateRow, value]
    change (entryAt a column column >>= _) = _
    rw [pivot]
    change ((PyFloat.divide (valueAt a row column) (valueAt a column column)).mapError _ >>= _) = _
    rw [divided]
    change (if decide (factor = _) = true then _ else _) = _
    rw [zero_exact]
    simp only [decide_eq_true_eq]
    rfl
  rw [turn]
  split
  next none =>
    refine partly.subtracted isRow below rfl partly.shaped ?_
    intro other index _
    rw [Elimination.subtracted]
    change _ = if _ then _ - factor * _ else _
    rw [none, zero_mul, sub_zero, ite_self]
  next =>
    have nothing : PartlySubtracted size a column row factor column a :=
      ⟨partly.shaped, fun other index => by rw [if_neg (by omega)]⟩
    have loop : Solvable (PartlySubtracted size a column row factor (column + (size + 1 - column)))
        ((List.range' column (size + 1 - column)).foldlM (subtractAt column row factor) a) :=
      Solvable.foldlM _ (fun k state least most =>
        subtractAt_solvable isRow isColumn below.ne least (by omega)) nothing
    have whole : column + (size + 1 - column) = size + 1 := by omega
    rw [whole] at loop
    cases ended : (List.range' column (size + 1 - column)).foldlM (subtractAt column row factor) a with
    | error failure =>
        rw [ended] at loop
        exact loop
    | ok after =>
        rw [ended] at loop
        refine partly.subtracted isRow below rfl loop.shaped ?_
        intro other index most
        rw [loop.values, Elimination.subtracted]
        by_cases here : other = row
        · by_cases right : column ≤ index
          · rw [if_pos ⟨here, right, by omega⟩, if_pos here]
          · -- left of the pivot its row is zero already
            rw [if_neg (fun both => right both.2.1), if_pos here,
              partly.triangular.zero index (by omega) column isColumn (by omega), mul_zero, sub_zero]
        · rw [if_neg (fun both => here both.1), if_neg here]

theorem largerPivot_solvable {best : ℕ × K} (shaped : Shaped size a) (isColumn : column < size)
    (least : column ≤ row) (isRow : row < size) (inside : column ≤ best.1 ∧ best.1 < size) :
    Solvable (fun best => column ≤ best.1 ∧ best.1 < size) (largerPivot a column best row) := by
  rw [largerPivot, shaped.entryAt isRow isColumn.le]
  change Solvable _ (.ok (if _ then _ else _))
  split
  · exact ⟨least, isRow⟩
  · exact inside

theorem pivotOf_solvable (shaped : Shaped size a) (isColumn : column < size) :
    Solvable (fun pivot => column ≤ pivot ∧ pivot < size) (pivotOf a size column) := by
  have first := shaped.entryAt isColumn isColumn.le
  rw [pivotOf, first]
  have loop : Solvable (fun best : ℕ × K => column ≤ best.1 ∧ best.1 < size)
      ((List.range' (column + 1) (size - (column + 1))).foldlM (largerPivot a column)
        (column, PyFloat.abs (valueAt a column column))) :=
    Solvable.foldlM (fun _ (best : ℕ × K) => column ≤ best.1 ∧ best.1 < size)
      (fun row best least most inside =>
        largerPivot_solvable shaped isColumn (by omega) (by omega) inside) ⟨le_rfl, isColumn⟩
  exact loop.bind fun best inside => inside

omit [OtherFunctions K] in
/-- What a pivot must exceed is positive. -/
theorem least_pivot_pos [IsStrictOrderedRing K] :
    0 < @OfScientific.ofScientific K exact.toOfScientific 1 true 300 := by
  have positive : 0 < (OfScientific.ofScientific 1 true 300 : ℚ≥0) := by
    decide +kernel
  exact NNRat.cast_pos.mpr positive

theorem eliminateColumn_solvable [IsStrictOrderedRing K] (reduced : Reduced size start column a)
    (isColumn : column < size) :
    Solvable (Reduced size start (column + 1)) (eliminateColumn size a column) := by
  rw [eliminateColumn]
  refine (pivotOf_solvable reduced.shaped isColumn).bind ?_
  rintro pivot ⟨least, isPivot⟩
  rw [reduced.shaped.entryAt isPivot isColumn.le]
  change Solvable _ (ensure _ _ >>= _)
  by_cases large : PyFloat.lt (1e-300 : K) (PyFloat.abs (valueAt a pivot column))
  swap
  · rw [ensure, if_neg large]
    rfl
  rw [ensure, if_pos large]
  obtain ⟨middle, swapped, shaped, values⟩ := reduced.shaped.swapRows isColumn isPivot
  change Solvable _ (swapRows a column pivot >>= _)
  rw [swapped]
  have nonzero : valueAt a pivot column ≠ 0 := by
    intro zero
    rw [zero] at large
    simp only [lt_exact, abs_exact, abs_zero, decide_eq_true_eq] at large
    exact absurd large least_pivot_pos.le.not_gt
  have partly : PartlyReduced size start column (column + 1) middle := {
    shaped := shaped
    triangular := {
      zero := by
        intro left isLeft row inside under
        have further : left < Equiv.swap column pivot row := by
          rw [Equiv.swap_apply_def]
          split_ifs <;> omega
        rw [values, exchanged]
        exact reduced.triangular.zero left isLeft _ (swap_lt isColumn isPivot inside) further
      diagonal := by
        intro left isLeft
        rw [values, exchanged, Equiv.swap_apply_of_ne_of_ne (by omega) (by omega)]
        exact reduced.triangular.diagonal left isLeft }
    solutions := by
      intro scale x
      rw [← reduced.solutions scale x]
      refine (solves_congr ?_).trans (solves_exchanged isColumn isPivot)
      exact fun row _ index _ => values row index
    pivot := by
      rw [values, exchanged, Equiv.swap_apply_left]
      exact nonzero
    done := by
      intro row under before
      omega }
  have loop : Solvable (PartlyReduced size start column (column + 1 + (size - (column + 1))))
      ((List.range' (column + 1) (size - (column + 1))).foldlM (eliminateRow size column) middle) :=
    Solvable.foldlM _ (fun row state least most reached =>
      eliminateRow_solvable reached (by omega) (by omega)) partly
  have whole : column + 1 + (size - (column + 1)) = size := by omega
  rw [whole] at loop
  change Solvable _ ((List.range' (column + 1) (size - (column + 1))).foldlM
    (eliminateRow size column) middle)
  cases ended : (List.range' (column + 1) (size - (column + 1))).foldlM (eliminateRow size column)
      middle with
  | error failure =>
      rw [ended] at loop
      exact loop
  | ok after =>
      rw [ended] at loop
      refine ⟨loop.shaped, ⟨?_, ?_⟩, loop.solutions⟩
      · intro left isLeft row inside under
        rcases Nat.lt_succ_iff_lt_or_eq.mp isLeft with before | rfl
        · exact loop.triangular.zero left before row inside under
        · exact loop.done row under inside inside
      · intro left isLeft
        rcases Nat.lt_succ_iff_lt_or_eq.mp isLeft with before | rfl
        · exact loop.triangular.diagonal left before
        · exact loop.pivot

/-! ## Substitution -/

structure Computed (a : List (List K)) (size next : ℕ) (solution : List K) : Prop where
  length : solution.length = size
  back : ∀ row, next ≤ row → row < size → solution[row]?.getD 0 = (valueAt a row size -
    ∑ column ∈ Finset.Ico (row + 1) size, valueAt a row column * solution[column]?.getD 0) /
      valueAt a row row

omit [LinearOrder K] [OtherFunctions K] in
theorem sum_range' (start count : ℕ) (value : ℕ → K) :
    ((List.range' start count).map value).sum = ∑ index ∈ Finset.Ico start (start + count), value index := by
  induction count generalizing start with
  | zero => simp
  | succ count hyp =>
      have most : start < start + (count + 1) := by omega
      have next : start + 1 + count = start + (count + 1) := by omega
      rw [List.range'_succ, List.map_cons, List.sum_cons, hyp, next,
        ← Finset.sum_eq_sum_Ico_succ_bot most]

theorem substituteRow_ok {solution : List K} (shaped : Shaped size a)
    (diagonal : valueAt a row row ≠ 0) (isRow : row < size) (computed : Computed a size (row + 1) solution) :
    ∃ after, substituteRow size a solution row = .ok after ∧ Computed a size row after := by
  let products := (List.range' (row + 1) (size - (row + 1))).map fun k =>
    valueAt a row k * solution[k]?.getD 0
  have multiplied : ((List.range' (row + 1) (size - (row + 1))).mapM fun k => do
      return (← entryAt a row k) * (← itemAt solution k)) = .ok products := by
    rw [mapM_eq_ok, List.forall₂_map_right_iff, List.forall₂_same]
    intro k isIndex
    obtain ⟨least, most⟩ := List.mem_range'_1.mp isIndex
    rw [shaped.entryAt isRow (show k ≤ size by omega)]
    change (itemAt solution k >>= _) = _
    rw [itemAt_eq_ok (show k < solution.length by rw [computed.length]; omega)]
    rfl
  have whole : row + 1 + (size - (row + 1)) = size := by omega
  have total : products.sum = ∑ column ∈ Finset.Ico (row + 1) size,
      valueAt a row column * solution[column]?.getD 0 := by
    rw [sum_range', whole]
  let value := (valueAt a row size - products.sum) / valueAt a row row
  have turn : substituteRow size a solution row = .ok (solution.set row value) := by
    rw [substituteRow, multiplied]
    change (entryAt a row size >>= _) = _
    rw [shaped.entryAt isRow le_rfl]
    change (entryAt a row row >>= _) = _
    rw [shaped.entryAt isRow isRow.le]
    change ((PyFloat.divide (valueAt a row size - products.sum) (valueAt a row row)).mapError _ >>= _) = _
    rw [divide_of_ne diagonal]
    change (itemAt solution row >>= _) = _
    rw [itemAt_eq_ok (show row < solution.length by rw [computed.length]; exact isRow)]
    rfl
  have others : ∀ column, column ≠ row →
      (solution.set row value)[column]?.getD 0 = solution[column]?.getD 0 := by
    intro column different
    rw [List.getElem?_set_ne (Ne.symm different)]
  refine ⟨solution.set row value, turn, by rw [List.length_set, computed.length], ?_⟩
  intro other least inside
  have tails : ∑ column ∈ Finset.Ico (other + 1) size,
      valueAt a other column * (solution.set row value)[column]?.getD 0 =
        ∑ column ∈ Finset.Ico (other + 1) size, valueAt a other column * solution[column]?.getD 0 := by
    refine Finset.sum_congr rfl ?_
    intro column isColumn
    rw [others column (by have above := (Finset.mem_Ico.mp isColumn).1; omega)]
  rw [tails]
  by_cases here : other = row
  · subst here
    rw [List.getElem?_set_self (by rw [computed.length]; exact isRow), Option.getD_some, ← total]
  · rw [others other here]
    exact computed.back other (by omega) inside

/-- The substitution computes every unknown. -/
theorem substitute_ok (shaped : Shaped size a) (triangular : Triangular size (valueAt a) size) :
    ∀ {next : ℕ} {solution : List K}, next ≤ size → Computed a size next solution →
      ∃ after, (List.range' 0 next).reverse.foldlM (substituteRow size a) solution = .ok after ∧
        Computed a size 0 after := by
  intro next
  induction next with
  | zero => exact fun {solution} _ computed => ⟨solution, rfl, computed⟩
  | succ next hyp =>
      intro solution most computed
      obtain ⟨middle, turned, reached⟩ := substituteRow_ok shaped (triangular.diagonal next (by omega))
        (show next < size by omega) computed
      obtain ⟨after, looped, done⟩ := hyp (by omega) reached
      refine ⟨after, ?_, done⟩
      rw [List.range'_concat, List.reverse_append, List.reverse_singleton, List.singleton_append,
        List.foldlM_cons, Nat.one_mul, Nat.zero_add, turned]
      exact looped

/-! ## Matrices -/

variable {n : ℕ}

/-- The rows of a matrix. -/
def rowsOf (matrix : Matrix (Fin n) (Fin n) K) : List (List K) :=
  List.ofFn fun row => List.ofFn (matrix row)

/-- The entries of a matrix with its right side. -/
def systemOf (matrix : Matrix (Fin n) (Fin n) K) (vector : Fin n → K) (row column : ℕ) : K :=
  ((List.ofFn fun row => List.ofFn (matrix row) ++ [vector row])[row]?.getD [])[column]?.getD 0

omit [LinearOrder K] [OtherFunctions K] in
theorem systemOf_entry (matrix : Matrix (Fin n) (Fin n) K) (vector : Fin n → K) (row column : Fin n) :
    systemOf matrix vector row column = matrix row column := by
  have within : (row : ℕ) < (List.ofFn fun row => List.ofFn (matrix row) ++ [vector row]).length := by simp
  have inside : (column : ℕ) < (List.ofFn (matrix row)).length := by simp
  rw [systemOf, List.getElem?_eq_getElem within, Option.getD_some, List.getElem_ofFn,
    List.getElem?_append_left inside, List.getElem?_eq_getElem inside, List.getElem_ofFn]
  rfl

omit [LinearOrder K] [OtherFunctions K] in
theorem systemOf_right (matrix : Matrix (Fin n) (Fin n) K) (vector : Fin n → K) (row : Fin n) :
    systemOf matrix vector row n = vector row := by
  have within : (row : ℕ) < (List.ofFn fun row => List.ofFn (matrix row) ++ [vector row]).length := by simp
  rw [systemOf, List.getElem?_eq_getElem within, Option.getD_some, List.getElem_ofFn,
    List.getElem?_append_right (by simp)]
  simp

omit [LinearOrder K] [OtherFunctions K] in
theorem solves_systemOf (matrix : Matrix (Fin n) (Fin n) K) (vector : Fin n → K) (scale : K) (x : ℕ → K) :
    Solves n scale (systemOf matrix vector) x ↔
      matrix.mulVec (fun column => x column) = scale • vector := by
  have row (row : Fin n) : ∑ column ∈ Finset.range n, systemOf matrix vector row column * x column =
      matrix.mulVec (fun column => x column) row := by
    rw [Finset.sum_range]
    refine Finset.sum_congr rfl ?_
    intro column _
    rw [systemOf_entry]
  constructor
  · intro solves
    funext index
    rw [← row, solves index index.isLt, systemOf_right]
    rfl
  · intro equal index inside
    rw [row ⟨index, inside⟩, equal]
    change scale * vector ⟨index, inside⟩ = _
    rw [← systemOf_right matrix vector ⟨index, inside⟩]

omit [LinearOrder K] [OtherFunctions K] in
theorem augmented_ok (matrix : Matrix (Fin n) (Fin n) K) (vector : Fin n → K) :
    ∃ a, augmented (rowsOf matrix) (List.ofFn vector) = .ok a ∧
      Reduced n (systemOf matrix vector) 0 a := by
  refine ⟨List.ofFn fun row => List.ofFn (matrix row) ++ [vector row], ?_, ?_, ?_, ?_⟩
  · rw [augmented, mapM_eq_ok, List.forall₂_iff_get]
    constructor
    · simp [rowsOf]
    · intro index inside within
      have isIndex : index < n := by simpa [rowsOf] using inside
      have item : itemAt (List.ofFn vector) index = .ok (vector ⟨index, isIndex⟩) := by
        rw [itemAt, List.getElem?_eq_getElem (by simpa using isIndex), List.getElem_ofFn]
        rfl
      simp only [List.get_eq_getElem, List.getElem_zipIdx, rowsOf, List.getElem_ofFn, Nat.zero_add]
      rw [item]
      rfl
  · refine ⟨List.length_ofFn, ?_⟩
    intro items member
    obtain ⟨row, rfl⟩ := List.mem_ofFn.mp member
    simp
  · exact ⟨fun _ below => absurd below (Nat.not_lt_zero _), fun _ below => absurd below (Nat.not_lt_zero _)⟩
  · exact fun _ _ => Iff.rfl

/-- **The Newton step solves its system**: in exact arithmetic `_solve` of a square matrix and a vector
of its size returns a solution of the system or raises `_SingularSystem`, which it does whenever the
matrix is singular. No index is out of range and no division is by zero. -/
theorem solve_solves [IsStrictOrderedRing K] (matrix : Matrix (Fin n) (Fin n) K) (vector : Fin n → K) :
    Solvable (fun x => ∃ solution, x = List.ofFn solution ∧ matrix.mulVec solution = vector)
        (solve (rowsOf matrix) (List.ofFn vector)) ∧
      (matrix.det = 0 → solve (rowsOf matrix) (List.ofFn vector) = .error .singular) := by
  obtain ⟨a, copied, reduced⟩ := augmented_ok matrix vector
  have loop : Solvable (Reduced n (systemOf matrix vector) (0 + n))
      ((List.range' 0 n).foldlM (eliminateColumn n) a) :=
    Solvable.foldlM _ (fun column state _ most reached =>
      eliminateColumn_solvable reached (by omega)) reduced
  rw [Nat.zero_add] at loop
  have turn : solve (rowsOf matrix) (List.ofFn vector) =
      ((List.range' 0 n).foldlM (eliminateColumn n) a >>= fun a =>
        (List.range' 0 n).reverse.foldlM (substituteRow n a) (List.replicate n 0.0)) := by
    rw [solve, List.length_ofFn, copied]
    rfl
  rw [turn]
  cases eliminated : (List.range' 0 n).foldlM (eliminateColumn n) a with
  | error failure =>
      rw [eliminated] at loop
      cases loop
      exact ⟨rfl, fun _ => rfl⟩
  | ok last =>
      rw [eliminated] at loop
      obtain ⟨shaped, triangular, solutions⟩ := loop
      have nothing : Computed last n n (List.replicate n (0.0 : K)) :=
        ⟨List.length_replicate, fun row least inside => by omega⟩
      obtain ⟨x, substituted, computed⟩ := substitute_ok shaped triangular le_rfl nothing
      change Solvable _ ((List.range' 0 n).reverse.foldlM (substituteRow n last) _) ∧
        (_ → (List.range' 0 n).reverse.foldlM (substituteRow n last) _ = _)
      rw [substituted]
      constructor
      · have solved : Solves n 1 (valueAt last) fun row => x[row]?.getD 0 :=
          solves_of_back triangular fun row inside => computed.back row (Nat.zero_le row) inside
        rw [solutions, solves_systemOf, one_smul] at solved
        refine ⟨fun column => x[(column : ℕ)]?.getD 0, ?_, solved⟩
        apply List.ext_getElem
        · rw [List.length_ofFn, computed.length]
        · intro index inside _
          rw [List.getElem_ofFn, List.getElem?_eq_getElem inside, Option.getD_some]
      · -- a solution of the homogeneous system is zero
        intro singular
        obtain ⟨kernel, nonzero, isKernel⟩ := Matrix.exists_mulVec_eq_zero_iff.mpr singular
        exfalso
        apply nonzero
        have same : (fun column : Fin n => (fun index : ℕ =>
            if inside : index < n then kernel ⟨index, inside⟩ else 0) column) = kernel := by
          funext column
          exact dif_pos column.isLt
        have homogeneous : Solves n 0 (valueAt last)
            (fun index => if inside : index < n then kernel ⟨index, inside⟩ else 0) := by
          rw [solutions, solves_systemOf, same, isKernel, zero_smul]
        funext column
        have zero := eq_zero_of_solves triangular homogeneous column column.isLt
        rwa [dif_pos column.isLt] at zero

end Exact

/-- Two equal rows have no pivot in the second column. -/
theorem solve_equal_rows :
    Solvable (fun x => ∃ solution, x = List.ofFn solution ∧
        (!![1, 2; 1, 2] : Matrix (Fin 2) (Fin 2) ℚ).mulVec solution = ![3, 5])
      (solve (rowsOf !![1, 2; 1, 2]) (List.ofFn ![(3 : ℚ), 5])) ∧
    solve (rowsOf !![1, 2; 1, 2]) (List.ofFn ![(3 : ℚ), 5]) = .error .singular := by
  have solves := solve_solves (!![1, 2; 1, 2] : Matrix (Fin 2) (Fin 2) ℚ) ![3, 5]
  exact ⟨solves.1, solves.2 (by simp [Matrix.det_fin_two])⟩

end CryptoRadar.Calibration
