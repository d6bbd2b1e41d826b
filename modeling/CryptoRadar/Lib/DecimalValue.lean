import CryptoRadar.Lib.Alike
import CryptoRadar.Lib.Decimal
import Mathlib.Algebra.Order.Field.Basic
import Mathlib.Algebra.Order.Field.Power
import Mathlib.Algebra.Order.Ring.Rat
import Mathlib.Tactic.FieldSimp
import Mathlib.Tactic.Linarith
import Mathlib.Tactic.Positivity
import Mathlib.Tactic.Ring

/-!
# The values of decimals

A decimal denotes a rational number (`toRat`); numbers that differ only in trailing zeros denote
the same one. A comparison compares values (`le_iff`), and what an operation returns depends on
the values of its operands alone: operands of the same value give results of the same value or
the same signal (`fit_alike`, `add_alike`, `sub_alike`, `mul_alike`, `neg_alike`, `div_alike`).
So a number may be written as text and read back between two computations without a change in
what they decide.
-/

set_option autoImplicit false

namespace Decimal

open Checked

/-- The value without its sign. -/
def magnitude (number : Decimal) : ℚ := number.coeff * 10 ^ number.exponent

def toRat (number : Decimal) : ℚ :=
  if number.negative then -number.magnitude else number.magnitude

def SameValue (first second : Decimal) : Prop := first.toRat = second.toRat

theorem alike_self (result : Except DecimalError Decimal) : Alike id SameValue result result := by
  cases result with
  | ok number => exact .ok rfl
  | error signal => exact .error rfl

theorem magnitude_nonneg (number : Decimal) : 0 ≤ number.magnitude := by
  unfold magnitude
  positivity

theorem magnitude_eq_zero {number : Decimal} : number.magnitude = 0 ↔ number.coeff = 0 := by
  have unit : (10 : ℚ) ^ number.exponent ≠ 0 := zpow_ne_zero _ (by norm_num)
  simp [magnitude, unit]

theorem toRat_eq_zero {number : Decimal} : number.toRat = 0 ↔ number.coeff = 0 := by
  unfold toRat
  split <;> simp [magnitude_eq_zero]

theorem sameValue_of_zero {first second : Decimal} (zero : first.coeff = 0)
    (otherZero : second.coeff = 0) : SameValue first second :=
  (toRat_eq_zero.mpr zero).trans (toRat_eq_zero.mpr otherZero).symm

/-! ## Comparisons -/

theorem scaled_mul (number : Decimal) {exponent : ℤ} (below : exponent ≤ number.exponent) :
    (number.scaled exponent : ℚ) * 10 ^ exponent = number.toRat := by
  have shifted : (10 : ℚ) ^ (number.exponent - exponent).toNat * 10 ^ exponent =
      10 ^ number.exponent := by
    rw [← zpow_natCast, Int.toNat_of_nonneg (by omega), ← zpow_add₀ (by norm_num)]
    congr 1
    omega
  unfold scaled toRat magnitude
  split <;> push_cast <;> rw [← shifted] <;> ring

section Aligned

variable (first second : Decimal)

theorem aligned_fst_mul :
    ((aligned first second).1 : ℚ) * 10 ^ min first.exponent second.exponent = first.toRat :=
  scaled_mul first (min_le_left _ _)

theorem aligned_snd_mul :
    ((aligned first second).2 : ℚ) * 10 ^ min first.exponent second.exponent = second.toRat :=
  scaled_mul second (min_le_right _ _)

theorem le_iff : le first second = true ↔ first.toRat ≤ second.toRat := by
  have unit : (0 : ℚ) < 10 ^ min first.exponent second.exponent := by positivity
  rw [← aligned_fst_mul first second, ← aligned_snd_mul first second,
    mul_le_mul_iff_of_pos_right unit, Int.cast_le]
  exact decide_eq_true_iff

end Aligned

theorem lt_iff {first second : Decimal} : lt first second = true ↔ first.toRat < second.toRat := by
  have unit : (0 : ℚ) < 10 ^ min first.exponent second.exponent := by positivity
  rw [← aligned_fst_mul first second, ← aligned_snd_mul first second,
    mul_lt_mul_iff_of_pos_right unit, Int.cast_lt]
  exact decide_eq_true_iff

theorem eq_iff {first second : Decimal} : eq first second = true ↔ first.toRat = second.toRat := by
  have unit : (10 : ℚ) ^ min first.exponent second.exponent ≠ 0 := by positivity
  rw [← aligned_fst_mul first second, ← aligned_snd_mul first second,
    mul_left_inj' unit, Int.cast_inj]
  exact decide_eq_true_iff

theorem toRat_ofNat (number : ℕ) : (ofNat number).toRat = number := by
  simp [toRat, magnitude, ofNat]

theorem le_congr {first second firstOther secondOther : Decimal}
    (left : SameValue first firstOther) (right : SameValue second secondOther) :
    le first second = le firstOther secondOther := by
  rw [Bool.eq_iff_iff, le_iff, le_iff, left, right]

/-! ## Trailing zeros -/

def widen (zeros : ℕ) (number : Decimal) : Decimal :=
  ⟨number.negative, number.coeff * 10 ^ zeros, number.exponent - zeros⟩

theorem toRat_widen (zeros : ℕ) (number : Decimal) : (widen zeros number).toRat = number.toRat := by
  have unit : (10 : ℚ) ^ zeros ≠ 0 := by positivity
  have same : (widen zeros number).magnitude = number.magnitude := by
    unfold magnitude widen
    push_cast
    rw [zpow_sub₀ (by norm_num), zpow_natCast]
    field_simp
  unfold toRat
  rw [same]
  rfl

/-- A text without exponent keeps the value. -/
theorem throughText_sameValue (number : Decimal) : SameValue number.throughText number := by
  unfold throughText
  split
  next positive =>
    have isWiden : (⟨number.negative, number.coeff * 10 ^ number.exponent.toNat, 0⟩ : Decimal) =
        widen number.exponent.toNat number := by
      rw [widen, Int.toNat_of_nonneg positive.le, sub_self]
    rw [isWiden]
    exact toRat_widen _ _
  next => rfl

/-- Numbers of one value that is not zero have one sign. -/
theorem negative_eq_of_sameValue {first second : Decimal} (nonzero : first.coeff ≠ 0)
    (same : SameValue first second) : first.negative = second.negative := by
  have positive : 0 < first.magnitude :=
    lt_of_le_of_ne (magnitude_nonneg _) fun zero => nonzero (magnitude_eq_zero.mp zero.symm)
  have other := magnitude_nonneg second
  unfold SameValue toRat at same
  cases left : first.negative <;> cases right : second.negative <;> simp [left, right] at same ⊢ <;>
    linarith

/-- Of two numbers of one value the one with the lower exponent has more zeros. -/
theorem eq_widen_of_sameValue {first second : Decimal} (nonzero : first.coeff ≠ 0)
    (same : SameValue first second) (below : first.exponent ≤ second.exponent) :
    first = widen (second.exponent - first.exponent).toNat second := by
  have sign := negative_eq_of_sameValue nonzero same
  have magnitudes : first.magnitude = second.magnitude := by
    unfold SameValue toRat at same
    rw [sign] at same
    split at same
    · exact neg_injective same
    · exact same
  have coeffs : (first.coeff : ℚ) = second.coeff * 10 ^ (second.exponent - first.exponent).toNat := by
    have unit : (10 : ℚ) ^ first.exponent ≠ 0 := by positivity
    have split : (10 : ℚ) ^ second.exponent =
        10 ^ (second.exponent - first.exponent).toNat * 10 ^ first.exponent := by
      rw [← zpow_natCast, Int.toNat_of_nonneg (by omega), ← zpow_add₀ (by norm_num)]
      congr 1
      omega
    unfold magnitude at magnitudes
    rw [split, ← mul_assoc] at magnitudes
    exact mul_right_cancel₀ unit magnitudes
  obtain ⟨negative, coeff, exponent⟩ := first
  simp only [widen, Decimal.mk.injEq]
  refine ⟨sign, by exact_mod_cast coeffs, ?_⟩
  simp only at below
  omega

theorem digitCount_mul_ten {number : ℕ} (positive : 0 < number) :
    digitCount (10 * number) = digitCount number + 1 := by
  have appended := Nat.toDigits_append_toDigits (b := 10) (d := 0) (by norm_num) positive (by norm_num)
  unfold digitCount
  rw [← Nat.add_zero (10 * number), ← appended, List.length_append]
  rfl

theorem digitCount_mul_pow {number : ℕ} (positive : 0 < number) (zeros : ℕ) :
    digitCount (number * 10 ^ zeros) = digitCount number + zeros := by
  induction zeros with
  | zero => simp
  | succ zeros ih =>
      rw [pow_succ, ← mul_assoc, mul_comm _ 10, digitCount_mul_ten (by positivity), ih]
      rfl

/-! ## Rounding -/

theorem roundsUp_mul (rounding : Rounding) (negative : Bool) (quotient remainder unit : ℕ)
    {factor : ℕ} (positive : 0 < factor) :
    rounding.roundsUp negative quotient (remainder * factor) (unit * factor) =
      rounding.roundsUp negative quotient remainder unit := by
  have double : 2 * (remainder * factor) = 2 * remainder * factor := (mul_assoc _ _ _).symm
  have less : unit * factor < 2 * remainder * factor ↔ unit < 2 * remainder :=
    Nat.mul_lt_mul_right positive
  have equal : 2 * remainder * factor = unit * factor ↔ 2 * remainder = unit :=
    Nat.mul_left_inj positive.ne'
  have none : remainder * factor = 0 ↔ remainder = 0 := by simp [positive.ne']
  cases rounding <;> simp only [Rounding.roundsUp, double, less, equal, ne_eq, none]

/-- Zeros that are rounded away with the digits before them change nothing. -/
theorem roundedCoeff_widen (rounding : Rounding) (negative : Bool) (coeff drop zeros : ℕ) :
    roundedCoeff rounding negative (coeff * 10 ^ zeros) (drop + zeros) =
      roundedCoeff rounding negative coeff drop := by
  have positive : 0 < 10 ^ zeros := by positivity
  unfold roundedCoeff
  simp only [pow_add, Nat.mul_div_mul_right _ _ positive, Nat.mul_mod_mul_right,
    roundsUp_mul _ _ _ _ _ positive]

/-- Only zeros are rounded away. -/
theorem roundedCoeff_exact (rounding : Rounding) (negative : Bool) (coeff drop : ℕ) :
    roundedCoeff rounding negative (coeff * 10 ^ drop) drop = coeff := by
  have positive : 0 < 10 ^ drop := by positivity
  have whole : coeff * 10 ^ drop % 10 ^ drop = 0 := Nat.mul_mod_left _ _
  have stays : rounding.roundsUp negative coeff 0 (10 ^ drop) = false := by
    cases rounding <;> simp [Rounding.roundsUp]
    omega
  unfold roundedCoeff
  simp only [Nat.mul_div_cancel _ positive, whole, stays, Bool.false_eq_true, if_false]

/-- Fitting a number with more zeros gives the same value or the same signal. -/
theorem fit_widen (context : DecimalContext) (zeros : ℕ) (number : Decimal)
    (nonzero : number.coeff ≠ 0) :
    Alike id SameValue (fit context (widen zeros number)) (fit context number) := by
  have positive : 0 < number.coeff := Nat.pos_of_ne_zero nonzero
  have digits := digitCount_mul_pow positive zeros
  have wideNonzero : number.coeff * 10 ^ zeros ≠ 0 := by positivity
  have lowest : (digitCount (number.coeff * 10 ^ zeros) : ℤ) + (number.exponent - zeros) =
      digitCount number.coeff + number.exponent := by
    rw [digits]
    push_cast
    ring
  have ordered : context.etiny ≤ context.etop := by
    unfold DecimalContext.etiny DecimalContext.etop DecimalContext.emin DecimalContext.emax
    omega
  unfold fit
  simp only [widen, wideNonzero, nonzero, if_false, lowest]
  split
  next => exact .error rfl
  next inRange =>
    generalize target : max (↑(digitCount number.coeff) + number.exponent - ↑context.precision)
      context.etiny = floor
    by_cases rounded : number.exponent < floor
    · -- both are rounded at the same exponent, the wide one with its zeros
      rw [if_pos rounded, if_pos (by omega)]
      have drop : (floor - (number.exponent - zeros)).toNat =
          (floor - number.exponent).toNat + zeros := by omega
      unfold roundTo
      simp only [drop, roundedCoeff_widen]
      exact alike_self _
    · rw [if_neg rounded]
      by_cases trimmed : number.exponent - zeros < floor
      · -- only zeros are rounded away
        rw [if_pos trimmed]
        have split : zeros = (number.exponent - floor).toNat +
            (floor - (number.exponent - zeros)).toNat := by omega
        have exact_ : roundedCoeff context.rounding number.negative (number.coeff * 10 ^ zeros)
            (floor - (number.exponent - zeros)).toNat =
              number.coeff * 10 ^ (number.exponent - floor).toNat := by
          conv_lhs => rw [split]
          rw [pow_add, ← mul_assoc]
          convert roundedCoeff_exact _ _ _ _ using 3
          omega
        have fits : ¬ context.precision <
            digitCount (number.coeff * 10 ^ (number.exponent - floor).toNat) := by
          rw [digitCount_mul_pow positive]
          omega
        unfold roundTo
        simp only [exact_, fits, if_false]
        rw [if_neg (by omega)]
        refine .ok ?_
        have isWiden : (⟨number.negative, number.coeff * 10 ^ (number.exponent - floor).toNat, floor⟩ :
            Decimal) = widen (number.exponent - floor).toNat number := by
          rw [widen, Int.toNat_of_nonneg (by omega), sub_sub_cancel]
        rw [isWiden]
        exact toRat_widen _ _
      · rw [if_neg trimmed]
        exact .ok (toRat_widen zeros number)

theorem fit_alike (context : DecimalContext) {first second : Decimal}
    (same : SameValue first second) :
    Alike id SameValue (fit context first) (fit context second) := by
  by_cases zero : first.coeff = 0
  · have otherZero : second.coeff = 0 := toRat_eq_zero.mp (same ▸ toRat_eq_zero.mpr zero)
    unfold fit
    rw [if_pos zero, if_pos otherZero]
    exact .ok (sameValue_of_zero zero otherZero)
  · have otherNonzero : second.coeff ≠ 0 := fun otherZero =>
      zero (toRat_eq_zero.mp (same.symm ▸ toRat_eq_zero.mpr otherZero))
    rcases le_total first.exponent second.exponent with below | above
    · rw [eq_widen_of_sameValue zero same below]
      exact fit_widen context _ second otherNonzero
    · rw [eq_widen_of_sameValue otherNonzero same.symm above]
      exact (fit_widen context _ first zero).symm fun _ _ equal => equal.symm

/-! ## Operations -/

theorem toRat_copyNegate (number : Decimal) : number.copyNegate.toRat = -number.toRat := by
  unfold toRat copyNegate magnitude
  cases number.negative <;> simp

theorem toRat_ofSigned (context : DecimalContext) (bothNegative : Bool) (coeff exponent : ℤ) :
    (ofSigned context bothNegative coeff exponent).toRat = coeff * 10 ^ exponent := by
  unfold ofSigned
  split
  next zero => simp [toRat_eq_zero.mpr, zero]
  next nonzero =>
    unfold toRat magnitude
    rcases lt_or_gt_of_ne nonzero with negative | positive
    · have size : ((coeff.natAbs : ℕ) : ℚ) = -coeff := by
        rw [Nat.cast_natAbs, abs_of_neg negative, Int.cast_neg]
      simp [negative, size]
    · have size : ((coeff.natAbs : ℕ) : ℚ) = coeff := by
        rw [Nat.cast_natAbs, abs_of_pos positive]
      simp [not_lt.mpr positive.le, size]

/-- A sum is the exact sum, fitted. -/
theorem add_eq_fit (context : DecimalContext) (first second : Decimal) :
    ∃ sum, add context first second = fit context sum ∧ sum.toRat = first.toRat + second.toRat := by
  unfold add
  simp only
  split
  next zeros =>
    simp only [isZero, Bool.and_eq_true, decide_eq_true_eq] at zeros
    refine ⟨_, rfl, ?_⟩
    rw [toRat_eq_zero.mpr zeros.1, toRat_eq_zero.mpr zeros.2, toRat_eq_zero.mpr rfl, add_zero]
  next =>
    refine ⟨_, rfl, ?_⟩
    rw [toRat_ofSigned, ← aligned_fst_mul first second, ← aligned_snd_mul first second]
    push_cast
    ring

theorem add_alike (context : DecimalContext) {first second firstOther secondOther : Decimal}
    (left : SameValue first firstOther) (right : SameValue second secondOther) :
    Alike id SameValue (add context first second) (add context firstOther secondOther) := by
  obtain ⟨sum, isFit, value⟩ := add_eq_fit context first second
  obtain ⟨otherSum, otherIsFit, otherValue⟩ := add_eq_fit context firstOther secondOther
  rw [isFit, otherIsFit]
  exact fit_alike context (by rw [SameValue, value, otherValue, left, right])

theorem sub_alike (context : DecimalContext) {first second firstOther secondOther : Decimal}
    (left : SameValue first firstOther) (right : SameValue second secondOther) :
    Alike id SameValue (sub context first second) (sub context firstOther secondOther) :=
  add_alike context left (by rw [SameValue, toRat_copyNegate, toRat_copyNegate, right])

theorem toRat_product (first second : Decimal) :
    (⟨first.negative != second.negative, first.coeff * second.coeff,
      first.exponent + second.exponent⟩ : Decimal).toRat = first.toRat * second.toRat := by
  unfold toRat magnitude
  rw [zpow_add₀ (by norm_num)]
  cases first.negative <;> cases second.negative <;> simp <;> ring

theorem mul_alike (context : DecimalContext) {first second firstOther secondOther : Decimal}
    (left : SameValue first firstOther) (right : SameValue second secondOther) :
    Alike id SameValue (mul context first second) (mul context firstOther secondOther) :=
  fit_alike context (by rw [SameValue, toRat_product, toRat_product, left, right])

/-- A negation is the exact negation, fitted. -/
theorem neg_eq_fit (context : DecimalContext) (number : Decimal) :
    ∃ negated, neg context number = fit context negated ∧ negated.toRat = -number.toRat := by
  unfold neg
  split
  next zero =>
    simp only [isZero, Bool.and_eq_true, decide_eq_true_eq] at zero
    refine ⟨_, rfl, ?_⟩
    rw [toRat_eq_zero.mpr zero.1, neg_zero]
    exact toRat_eq_zero.mpr zero.1
  next => exact ⟨_, rfl, toRat_copyNegate number⟩

theorem neg_alike (context : DecimalContext) {first second : Decimal}
    (same : SameValue first second) :
    Alike id SameValue (neg context first) (neg context second) := by
  obtain ⟨negated, isFit, value⟩ := neg_eq_fit context first
  obtain ⟨otherNegated, otherIsFit, otherValue⟩ := neg_eq_fit context second
  rw [isFit, otherIsFit]
  exact fit_alike context (by rw [SameValue, value, otherValue, same])

/-! ### Division -/

theorem dropZeros_value (turns coeff : ℕ) (exponent ideal : ℤ) :
    ((dropZeros turns coeff exponent ideal).1 : ℚ) *
      10 ^ (dropZeros turns coeff exponent ideal).2 = coeff * 10 ^ exponent := by
  induction turns generalizing coeff exponent with
  | zero => rfl
  | succ turns ih =>
      unfold dropZeros
      split
      next trailing =>
        have whole : (coeff : ℚ) = (coeff / 10 : ℕ) * 10 := by
          have exact_ : coeff = coeff / 10 * 10 := by omega
          exact_mod_cast exact_
        rw [ih, zpow_add₀ (by norm_num), zpow_one, whole]
        ring
      next => rfl

/-- A wider dividend and its divisor are the narrow ones, both with the same zeros. -/
theorem exists_common_zeros (dividend divisor zeros : ℕ) (shift : ℤ) :
    ∃ more : ℕ,
      dividend * 10 ^ zeros * 10 ^ (shift - zeros).toNat =
        dividend * 10 ^ shift.toNat * 10 ^ more ∧
      divisor * 10 ^ (-(shift - zeros)).toNat = divisor * 10 ^ (-shift).toNat * 10 ^ more := by
  refine ⟨zeros + (shift - zeros).toNat - shift.toNat, ?_, ?_⟩
  · rw [mul_assoc, mul_assoc, ← pow_add, ← pow_add]
    congr 2
    omega
  · rw [mul_assoc, ← pow_add]
    congr 2
    omega

/-- More zeros in the dividend leave the value of the quotient as it is. -/
theorem quotient_widen (context : DecimalContext) (zeros : ℕ) {first : Decimal} (second : Decimal)
    (nonzero : first.coeff ≠ 0) :
    ((quotient context (widen zeros first) second).1 : ℚ) *
        10 ^ (quotient context (widen zeros first) second).2 =
      (quotient context first second).1 * 10 ^ (quotient context first second).2 := by
  have digits := digitCount_mul_pow (Nat.pos_of_ne_zero nonzero) zeros
  have shifts : (digitCount second.coeff : ℤ) - (digitCount first.coeff + zeros : ℕ) +
      context.precision + 1 =
        (digitCount second.coeff : ℤ) - digitCount first.coeff + context.precision + 1 - zeros := by
    push_cast
    ring
  unfold quotient
  simp only [widen, digits, shifts]
  generalize (digitCount second.coeff : ℤ) - digitCount first.coeff + context.precision + 1 = shift
  obtain ⟨more, dividends, divisors⟩ := exists_common_zeros first.coeff second.coeff zeros shift
  have positive : 0 < 10 ^ more := by positivity
  have exponents : first.exponent - zeros - second.exponent - (shift - zeros) =
      first.exponent - second.exponent - shift := by ring
  rw [dividends, divisors, Nat.mul_div_mul_right _ _ positive, Nat.mul_mod_mul_right, exponents]
  have exactly : first.coeff * 10 ^ shift.toNat % (second.coeff * 10 ^ (-shift).toNat) * 10 ^ more = 0 ↔
      first.coeff * 10 ^ shift.toNat % (second.coeff * 10 ^ (-shift).toNat) = 0 := by
    simp
  simp only [exactly]
  split
  · rw [dropZeros_value, dropZeros_value]
  · rfl

theorem toRat_mk_congr {negative : Bool} {coeff otherCoeff : ℕ} {exponent otherExponent : ℤ}
    (same : (coeff : ℚ) * 10 ^ exponent = otherCoeff * 10 ^ otherExponent) :
    SameValue ⟨negative, coeff, exponent⟩ ⟨negative, otherCoeff, otherExponent⟩ := by
  unfold SameValue toRat magnitude
  rw [same]

theorem div_eq_fit (context : DecimalContext) {first second : Decimal}
    (dividend : first.isZero = false) (divisor : second.isZero = false) :
    div context first second = fit context ⟨first.negative != second.negative,
      (quotient context first second).1, (quotient context first second).2⟩ := by
  simp only [div, dividend, divisor, Bool.false_eq_true, if_false]

/-- **Division** reads the value of the dividend only. -/
theorem div_alike (context : DecimalContext) {first firstOther : Decimal} (second : Decimal)
    (same : SameValue first firstOther) :
    Alike id SameValue (div context first second) (div context firstOther second) := by
  have wider : ∀ (zeros : ℕ) {narrow : Decimal}, narrow.coeff ≠ 0 →
      Alike id SameValue (div context (widen zeros narrow) second) (div context narrow second) := by
    intro zeros narrow nonzero
    have wideNonzero : (widen zeros narrow).isZero = false := by simp [isZero, widen, nonzero]
    have narrowNonzero : narrow.isZero = false := by simp [isZero, nonzero]
    cases divisor : second.isZero with
    | true =>
        simp only [div, divisor, wideNonzero, narrowNonzero, if_true, Bool.false_eq_true, if_false]
        exact .error rfl
    | false =>
        rw [div_eq_fit context wideNonzero divisor, div_eq_fit context narrowNonzero divisor]
        exact fit_alike context (toRat_mk_congr (quotient_widen context zeros second nonzero))
  by_cases zero : first.coeff = 0
  · have otherZero : firstOther.coeff = 0 := toRat_eq_zero.mp (same ▸ toRat_eq_zero.mpr zero)
    have firstIsZero : first.isZero = true := by simp [isZero, zero]
    have otherIsZero : firstOther.isZero = true := by simp [isZero, otherZero]
    simp only [div, firstIsZero, otherIsZero, if_true]
    split
    · exact .error rfl
    · exact fit_alike context (sameValue_of_zero rfl rfl)
  · have otherNonzero : firstOther.coeff ≠ 0 := fun otherZero =>
      zero (toRat_eq_zero.mp (same.symm ▸ toRat_eq_zero.mpr otherZero))
    rcases le_total first.exponent firstOther.exponent with below | above
    · rw [eq_widen_of_sameValue zero same below]
      exact wider _ otherNonzero
    · rw [eq_widen_of_sameValue otherNonzero same.symm above]
      exact (wider _ zero).symm fun _ _ equal => equal.symm

end Decimal
