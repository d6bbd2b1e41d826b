import CryptoRadar.Lib.DecimalValue

/-!
# Decimal arithmetic without rounding

Arithmetic in a context that traps the `Inexact` signal: an operation returns its exact result or
raises. An overflow and an underflow are kinds of inexact results. What is returned is therefore
arithmetic of rational numbers (`addExact_toRat`, `mulExact_toRat`, `divExact_toRat`,
`negExact_toRat`, `sumExact_toRat`).
-/

set_option autoImplicit false

/-- What trapped arithmetic raises. -/
inductive TrapError where
  | inexact
  | invalid (error : DecimalError)
  deriving DecidableEq, Repr

namespace Decimal

open Checked

/-- The sum with all its digits. -/
def wholeSum (first second : Decimal) : Decimal :=
  let (left, right) := aligned first second
  ofSigned ⟨0, .halfEven⟩ false (left + right) (min first.exponent second.exponent)

/-- The product with all its digits. -/
def wholeProduct (first second : Decimal) : Decimal :=
  ⟨first.negative != second.negative, first.coeff * second.coeff, first.exponent + second.exponent⟩

/-- The result, when it passes the test of an exact one. -/
def exactly (isExact : Decimal → Bool) : Except DecimalError Decimal → Except TrapError Decimal
  | .ok result => if isExact result then .ok result else .error .inexact
  | .error .overflow => .error .inexact
  | .error error => .error (.invalid error)

section Operations

variable (context : DecimalContext)

/-- A sum, where it is exact. -/
def addExact (first second : Decimal) : Except TrapError Decimal :=
  exactly (eq (wholeSum first second)) (add context first second)

/-- A product, where it is exact. -/
def mulExact (first second : Decimal) : Except TrapError Decimal :=
  exactly (eq (wholeProduct first second)) (mul context first second)

/-- A quotient, where it is exact. -/
def divExact (first second : Decimal) : Except TrapError Decimal :=
  exactly (fun result => eq (wholeProduct result second) first) (div context first second)

def negExact (number : Decimal) : Except TrapError Decimal :=
  exactly (eq number.copyNegate) (neg context number)

/-- `sum(numbers, Decimal(0))`. -/
def sumExact (numbers : List Decimal) : Except TrapError Decimal :=
  numbers.foldlM (addExact context) (ofNat 0)

end Operations

/-! ## Values -/

section Values

variable {context : DecimalContext} {first second number result : Decimal}

theorem toRat_wholeSum (first second : Decimal) :
    (wholeSum first second).toRat = first.toRat + second.toRat := by
  unfold wholeSum
  rw [toRat_ofSigned, ← aligned_fst_mul first second, ← aligned_snd_mul first second]
  push_cast
  ring

theorem exactly_eq_ok {isExact : Decimal → Bool} {computed : Except DecimalError Decimal} :
    exactly isExact computed = .ok result ↔ computed = .ok result ∧ isExact result = true := by
  cases computed with
  | error error => cases error <;> simp [exactly]
  | ok other =>
      by_cases exact_ : isExact other = true
      · simp only [exactly, if_pos exact_, Except.ok.injEq, iff_self_and]
        rintro rfl
        exact exact_
      · simp only [exactly, if_neg exact_, Except.ok.injEq, reduceCtorEq, false_iff, not_and]
        rintro rfl
        exact exact_

theorem toRat_of_exactly {goal : Decimal} {computed : Except DecimalError Decimal}
    (isResult : exactly (eq goal) computed = .ok result) : result.toRat = goal.toRat := by
  have passed := (exactly_eq_ok.mp isResult).2
  exact (eq_iff.mp passed).symm

theorem addExact_toRat (isSum : addExact context first second = .ok result) :
    result.toRat = first.toRat + second.toRat := by
  rw [← toRat_wholeSum]
  exact toRat_of_exactly isSum

theorem mulExact_toRat (isProduct : mulExact context first second = .ok result) :
    result.toRat = first.toRat * second.toRat := by
  rw [← toRat_product]
  exact toRat_of_exactly isProduct

/-- A quotient is exact when it gives the dividend back. -/
theorem divExact_toRat (nonzero : second.toRat ≠ 0)
    (isQuotient : divExact context first second = .ok result) :
    result.toRat = first.toRat / second.toRat := by
  have back := eq_iff.mp (exactly_eq_ok.mp isQuotient).2
  rw [eq_div_iff nonzero, ← back]
  exact (toRat_product result second).symm

theorem negExact_toRat (isNegated : negExact context number = .ok result) :
    result.toRat = -number.toRat := by
  rw [← toRat_copyNegate]
  exact toRat_of_exactly isNegated

/-- By induction on the numbers, from any number to start with. -/
theorem foldlM_addExact_toRat (numbers : List Decimal) : ∀ {start : Decimal},
    numbers.foldlM (addExact context) start = .ok result →
      result.toRat = start.toRat + (numbers.map toRat).sum := by
  induction numbers with
  | nil =>
      intro start isSum
      cases isSum
      simp
  | cons number rest hyp =>
      intro start isSum
      rw [List.foldlM_cons] at isSum
      obtain ⟨next, isNext, isSum⟩ := bind_eq_ok.mp isSum
      rw [hyp isSum, addExact_toRat isNext, List.map_cons, List.sum_cons, add_assoc]

theorem sumExact_toRat {numbers : List Decimal} (isSum : sumExact context numbers = .ok result) :
    result.toRat = (numbers.map toRat).sum := by
  rw [foldlM_addExact_toRat numbers isSum, toRat_eq_zero.mpr rfl, zero_add]

end Values

end Decimal
