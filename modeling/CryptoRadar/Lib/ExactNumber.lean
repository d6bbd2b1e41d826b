import CryptoRadar.Lib.Number
import Mathlib.Algebra.Order.Field.Basic
import Mathlib.Algebra.Order.BigOperators.Group.List
import Mathlib.Data.NNRat.Defs
import Mathlib.Tactic.Linarith
import Mathlib.Tactic.NormNum.OfScientific
import Mathlib.Tactic.Positivity
import Mathlib.Tactic.Ring

/-!
# Exact arithmetic

The numbers of an ordered field as floats of Python: nothing is rounded, everything is finite,
and a division by zero still raises. What holds over this instance holds "in exact arithmetic".

The lemmas read the operations of `PyFloat` back as those of the field, so that a goal about a
program becomes one of ordered fields.
-/

set_option autoImplicit false

namespace ExactNumber

variable {K : Type} [Field K] [LinearOrder K]

/-- The arithmetic of an ordered field. -/
instance exact : PyFloat K where
  ofScientific := OfScientific.ofScientific
  add first second := first + second
  sub first second := first - second
  mul first second := first * second
  divide first second := if second = 0 then .error .zeroDivision else .ok (first / second)
  lt first second := decide (first < second)
  le first second := decide (first ≤ second)
  eq first second := decide (first = second)
  abs number := |number|
  isFinite _ := true
  ofInt number := .ok (number : K)
  sum := List.sum

section Reading

variable (first second : K)

@[simp] theorem add_exact :
    @HAdd.hAdd K K K (@instHAdd K exact.toAdd) first second = first + second := rfl

@[simp] theorem sub_exact :
    @HSub.hSub K K K (@instHSub K exact.toSub) first second = first - second := rfl

@[simp] theorem mul_exact :
    @HMul.hMul K K K (@instHMul K exact.toMul) first second = first * second := rfl

@[simp] theorem lt_exact : PyFloat.lt first second = decide (first < second) := rfl

@[simp] theorem le_exact : PyFloat.le first second = decide (first ≤ second) := rfl

@[simp] theorem eq_exact : PyFloat.eq first second = decide (first = second) := rfl

@[simp] theorem abs_exact : PyFloat.abs first = |first| := rfl

@[simp] theorem isFinite_exact : PyFloat.isFinite first = true := rfl

@[simp] theorem sum_exact (numbers : List K) : PyFloat.sum numbers = numbers.sum := rfl

@[simp] theorem larger_exact : PyFloat.larger first second = max first second := by
  unfold PyFloat.larger
  by_cases less : first < second
  · simp [less, max_eq_right less.le]
  · simp [less, max_eq_left (not_lt.mp less)]

@[simp] theorem smaller_exact : PyFloat.smaller first second = min first second := by
  unfold PyFloat.smaller
  by_cases less : second < first
  · simp [less, min_eq_right less.le]
  · simp [less, min_eq_left (not_lt.mp less)]

theorem divide_exact {first second quotient : K} :
    PyFloat.divide first second = .ok quotient ↔ second ≠ 0 ∧ quotient = first / second := by
  change (if second = 0 then Except.error NumberError.zeroDivision else .ok (first / second)) =
    .ok quotient ↔ _
  by_cases zero : second = 0
  · simp [zero]
  · simp [zero, eq_comm]

theorem divide_of_ne {first second : K} (nonzero : second ≠ 0) :
    PyFloat.divide first second = .ok (first / second) :=
  divide_exact.mpr ⟨nonzero, rfl⟩

end Reading

theorem ofCount_exact (count : ℕ) : (PyFloat.ofCount count : K) = count := by
  change ((OfScientific.ofScientific count false 0 : ℚ≥0) : K) = count
  have same : (OfScientific.ofScientific count false 0 : ℚ≥0) = count := by
    apply NNRat.ext
    change Rat.ofScientific count false 0 = count
    rw [Rat.ofScientific_false_def, pow_zero, mul_one]
  rw [same, NNRat.cast_natCast]

section Literals

variable [IsStrictOrderedRing K]

@[simp] theorem zero_exact :
    @OfScientific.ofScientific K exact.toOfScientific 0 true 1 = 0 := by
  change (OfScientific.ofScientific 0 true 1 : K) = 0
  norm_num

@[simp] theorem one_exact :
    @OfScientific.ofScientific K exact.toOfScientific 10 true 1 = 1 := by
  change (OfScientific.ofScientific 10 true 1 : K) = 1
  norm_num

end Literals

/-! ## Functions that a field does not have -/

/-- The functions of `math` and the text of a number, which may be any. -/
class Functions (K : Type) where
  log : K → Except NumberError K
  sqrt : K → Except NumberError K
  square : K → Except NumberError K
  repr : K → String

/-- Exact arithmetic with these functions. -/
instance exactMath [Functions K] : PyMath K where
  toPyFloat := exact
  log := Functions.log
  sqrt := Functions.sqrt
  square := Functions.square
  repr := Functions.repr

end ExactNumber
