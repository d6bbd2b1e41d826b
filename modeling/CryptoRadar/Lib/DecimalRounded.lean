import CryptoRadar.Lib.DecimalBounds
import CryptoRadar.Lib.DecimalUnits
import Mathlib.Data.Nat.Cast.Field
import Mathlib.Data.Nat.Cast.Order.Field
import Mathlib.Tactic.NormNum

/-!
# Rounded operations

How far a computed number may be from the value it stands for. `Near turns number value size` says that
the number is off by at most `turns` times the unit of the context on the scale of `size`, which bounds
the value. A sum, a difference, a product and a quotient of such numbers exist and are such numbers again,
with a few turns more (`Near.add`, `Near.sub`, `Near.mul`, `Near.div`), as long as the sizes are neither
too small nor too great for the exponents (`Ordinary`).
-/

set_option autoImplicit false

namespace Decimal

open Checked

/-- The unit of the last digit, beside a number of size one. -/
def unit (context : DecimalContext) : ℚ := 10 ^ (1 - context.precision : ℤ)

/-- A size within the exponents of the contexts. -/
structure Ordinary (size : ℚ) : Prop where
  least : (10 : ℚ) ^ DecimalContext.emin ≤ size
  most : 4 * size < 10 ^ DecimalContext.emax

/-- A context that rounds half to even with enough digits. -/
structure Rounds (context : DecimalContext) : Prop where
  halfEven : context.rounding = .halfEven
  digits : 10 ≤ context.precision

/-- The number is within some units of the value. -/
structure Near (context : DecimalContext) (turns : ℕ) (number : Decimal) (value size : ℚ) : Prop where
  error : |number.toRat - value| ≤ turns * unit context * size
  bounded : |value| ≤ size

section Near

variable {context : DecimalContext} {turns others : ℕ} {first second number : Decimal}
  {x y p q value size : ℚ}

theorem unit_pos (context : DecimalContext) : 0 < unit context := by
  unfold unit
  positivity

theorem Ordinary.pos (ordinary : Ordinary size) : 0 < size :=
  lt_of_lt_of_le (by positivity) ordinary.least

theorem unit_le (rounds : Rounds context) : unit context ≤ 1 / 10 ^ 9 := by
  have digits := rounds.digits
  calc unit context ≤ 10 ^ (-9 : ℤ) := zpow_le_zpow_right₀ (by norm_num) (by omega)
    _ = 1 / 10 ^ 9 := by norm_num

/-- The least number is a unit of an ordinary size at most. -/
theorem etiny_le (ordinary : Ordinary size) : (10 : ℚ) ^ context.etiny ≤ unit context * size := by
  have split : (10 : ℚ) ^ context.etiny = unit context * 10 ^ DecimalContext.emin := by
    unfold unit DecimalContext.etiny
    rw [← zpow_add₀ (by norm_num)]
    congr 1
    ring
  rw [split]
  exact mul_le_mul_of_nonneg_left ordinary.least (unit_pos context).le

theorem near_exact (context : DecimalContext) (number : Decimal) (bounded : |number.toRat| ≤ size) :
    Near context 0 number number.toRat size where
  error := by simp
  bounded := bounded

/-- The bounds may be widened. -/
theorem Near.widen (near : Near context turns number value p) (wider : p ≤ q) :
    Near context turns number value q where
  error := near.error.trans (mul_le_mul_of_nonneg_left wider
    (mul_nonneg (Nat.cast_nonneg _) (unit_pos context).le))
  bounded := near.bounded.trans wider

theorem Near.more (near : Near context turns number value size) (more : turns ≤ others) :
    Near context others number value size where
  error := by
    have positive := (abs_nonneg _).trans near.bounded
    have turnsLe : (turns : ℚ) ≤ others := by exact_mod_cast more
    refine near.error.trans (mul_le_mul_of_nonneg_right ?_ positive)
    exact mul_le_mul_of_nonneg_right turnsLe (unit_pos context).le
  bounded := near.bounded

/-! ## One rounding -/

theorem abs_toRat (number : Decimal) : |number.toRat| = number.magnitude := by
  have nonneg := magnitude_nonneg number
  unfold toRat
  split
  · rw [abs_neg, abs_of_nonneg nonneg]
  · exact abs_of_nonneg nonneg

/-- What is below the greatest power of ten is fitted. -/
theorem exists_fit (context : DecimalContext) (number : Decimal)
    (small : |number.toRat| < 10 ^ DecimalContext.emax) : ∃ fitted, fit context number = .ok fitted := by
  unfold fit
  split
  next => exact ⟨_, rfl⟩
  next nonzero =>
    have least := pow_le_magnitude nonzero
    rw [abs_toRat] at small
    have exponents := (zpow_lt_zpow_iff_right₀ (by norm_num : (1 : ℚ) < 10)).mp (least.trans_lt small)
    have range : context.etop + 1 = DecimalContext.emax - context.precision + 2 := by
      unfold DecimalContext.etop
      ring
    dsimp only
    rw [if_neg (by omega)]
    split
    next =>
      unfold roundTo
      dsimp only
      have tiny : context.etiny < context.etop := by
        unfold DecimalContext.etiny DecimalContext.etop DecimalContext.emin DecimalContext.emax
        omega
      rw [if_neg]
      · exact ⟨_, rfl⟩
      · split <;> omega
    next => exact ⟨_, rfl⟩

/-- **One rounding** is one turn. -/
theorem exists_fit_near (rounds : Rounds context) (ordinary : Ordinary size)
    (bounded : |number.toRat| ≤ 2 * size) :
    ∃ fitted, fit context number = .ok fitted ∧ |fitted.toRat - number.toRat| ≤ unit context * size := by
  have digits := rounds.digits
  have most := ordinary.most
  have positive := ordinary.pos
  obtain ⟨fitted, isFit⟩ := exists_fit context number (by linarith)
  refine ⟨fitted, isFit, (fit_error (by omega) rounds.halfEven isFit).trans ?_⟩
  rw [← abs_toRat]
  have scaled : |number.toRat| * unit context ≤ 2 * size * unit context :=
    mul_le_mul_of_nonneg_right bounded (unit_pos context).le
  have tiny : (10 : ℚ) ^ context.etiny ≤ unit context * size := etiny_le ordinary
  have larger : 0 ≤ unit context * size := mul_nonneg (unit_pos context).le positive.le
  have both : max (|number.toRat| * 10 ^ (1 - context.precision : ℤ)) (10 ^ context.etiny) ≤
      2 * (unit context * size) := by
    refine max_le ?_ ?_
    · change _ * unit context ≤ _
      linarith
    · linarith
  linarith

/-- A number near a value is not far above the size. -/
theorem Near.toRat_le (near : Near context turns first value size) (rounds : Rounds context)
    (few : turns ≤ 100) : |first.toRat| ≤ (1 + 1 / 10 ^ 7) * size := by
  have positive : 0 ≤ size := (abs_nonneg _).trans near.bounded
  have unitLe := unit_le rounds
  have turnsLe : (turns : ℚ) ≤ 100 := by exact_mod_cast few
  have small : (turns : ℚ) * unit context ≤ 1 / 10 ^ 7 := by
    calc (turns : ℚ) * unit context ≤ 100 * (1 / 10 ^ 9) :=
          mul_le_mul turnsLe unitLe (unit_pos context).le (by norm_num)
      _ = 1 / 10 ^ 7 := by norm_num
  have apart := near.error.trans (mul_le_mul_of_nonneg_right small positive)
  have triangle := abs_sub_abs_le_abs_sub first.toRat value
  linarith [near.bounded]

theorem near_of_fit (rounds : Rounds context) (ordinary : Ordinary size) (few : turns ≤ 100)
    (near : Near context turns number value size) :
    ∃ fitted, fit context number = .ok fitted ∧ Near context (turns + 1) fitted value size := by
  have positive := ordinary.pos
  have most := near.toRat_le rounds few
  have bounded : |number.toRat| ≤ 2 * size := by linarith
  obtain ⟨fitted, isFit, apart⟩ := exists_fit_near rounds ordinary bounded
  refine ⟨fitted, isFit, ?_, near.bounded⟩
  have triangle := abs_sub_le fitted.toRat number.toRat value
  push_cast
  linarith [near.error]

/-! ## The operations -/

theorem Near.add (near : Near context turns first x p) (other : Near context others second y q)
    (rounds : Rounds context) (ordinary : Ordinary (p + q)) (few : turns + others ≤ 50) :
    ∃ sum, Decimal.add context first second = .ok sum ∧
      Near context (turns + others + 3) sum (x + y) (p + q) := by
  obtain ⟨number, isFit, value⟩ := add_eq_fit context first second
  have unit := (unit_pos context).le
  have nonnegP := (abs_nonneg _).trans near.bounded
  have nonnegQ := (abs_nonneg _).trans other.bounded
  have before : Near context (turns + others) number (x + y) (p + q) := by
    refine ⟨?_, (abs_add_le x y).trans (add_le_add near.bounded other.bounded)⟩
    have split : number.toRat - (x + y) = (first.toRat - x) + (second.toRat - y) := by
      rw [value]
      ring
    rw [split]
    refine (abs_add_le _ _).trans ((add_le_add near.error other.error).trans ?_)
    have left : 0 ≤ (others : ℚ) * Decimal.unit context * p := by positivity
    have right : 0 ≤ (turns : ℚ) * Decimal.unit context * q := by positivity
    push_cast
    linarith
  rw [isFit]
  obtain ⟨sum, isSum, after⟩ := near_of_fit rounds ordinary (by omega) before
  exact ⟨sum, isSum, after.more (by omega)⟩

theorem Near.copyNegate (near : Near context turns first x p) :
    Near context turns first.copyNegate (-x) p := by
  refine ⟨?_, by rw [abs_neg]; exact near.bounded⟩
  rw [toRat_copyNegate, neg_sub_neg, abs_sub_comm]
  exact near.error

theorem Near.sub (near : Near context turns first x p) (other : Near context others second y q)
    (rounds : Rounds context) (ordinary : Ordinary (p + q)) (few : turns + others ≤ 50) :
    ∃ difference, Decimal.sub context first second = .ok difference ∧
      Near context (turns + others + 3) difference (x - y) (p + q) := by
  rw [sub_eq_add_neg]
  exact near.add other.copyNegate rounds ordinary few

/-- Few turns of a unit are small. -/
theorem turns_le (rounds : Rounds context) (few : turns ≤ 50) : (turns : ℚ) * unit context ≤ 1 / 10 ^ 7 := by
  have turnsLe : (turns : ℚ) ≤ 50 := by exact_mod_cast few
  calc (turns : ℚ) * unit context ≤ 50 * (1 / 10 ^ 9) :=
        mul_le_mul turnsLe (unit_le rounds) (unit_pos context).le (by norm_num)
    _ ≤ 1 / 10 ^ 7 := by norm_num

theorem Near.mul (near : Near context turns first x p) (other : Near context others second y q)
    (rounds : Rounds context) (ordinary : Ordinary (p * q)) (few : turns + others ≤ 50) :
    ∃ product, Decimal.mul context first second = .ok product ∧
      Near context (turns + others + 3) product (x * y) (p * q) := by
  have unit := unit_pos context
  have nonnegP := (abs_nonneg _).trans near.bounded
  have nonnegQ := (abs_nonneg _).trans other.bounded
  have small := turns_le rounds (show others ≤ 50 by omega)
  have before : Near context (turns + others + 1)
      ⟨first.negative != second.negative, first.coeff * second.coeff, first.exponent + second.exponent⟩
      (x * y) (p * q) := by
    refine ⟨?_, by rw [abs_mul]; exact mul_le_mul near.bounded other.bounded (abs_nonneg _) nonnegP⟩
    have split : first.toRat * second.toRat - x * y =
        (first.toRat - x) * second.toRat + x * (second.toRat - y) := by ring
    have most := other.toRat_le rounds (by omega)
    have left : |(first.toRat - x) * second.toRat| ≤
        turns * Decimal.unit context * p * ((1 + 1 / 10 ^ 7) * q) := by
      rw [abs_mul]
      exact mul_le_mul near.error most (abs_nonneg _) (by positivity)
    have right : |x * (second.toRat - y)| ≤ p * (others * Decimal.unit context * q) := by
      rw [abs_mul]
      exact mul_le_mul near.bounded other.error (abs_nonneg _) nonnegP
    rw [toRat_product, split]
    refine (abs_add_le _ _).trans ((add_le_add left right).trans ?_)
    have extra : (turns : ℚ) * (1 / 10 ^ 7) ≤ 1 := by
      have turnsLe : (turns : ℚ) ≤ 50 := by exact_mod_cast (show turns ≤ 50 by omega)
      linarith
    have scale : 0 ≤ Decimal.unit context * (p * q) := by positivity
    have bound := mul_le_mul_of_nonneg_right extra scale
    push_cast
    linarith
  obtain ⟨product, isProduct, after⟩ := near_of_fit rounds ordinary (by omega) before
  exact ⟨product, isProduct, after.more (by omega)⟩

/-! ### Quotients -/

/-- A whole part with or without one more is within one of a quotient. -/
theorem abs_sub_div_le_one {number divisor kept : ℕ} (positive : 0 < divisor)
    (isKept : kept = number / divisor ∨ kept = number / divisor + 1) :
    |(kept : ℚ) - number / divisor| ≤ 1 := by
  have positiveRat : (0 : ℚ) < divisor := by exact_mod_cast positive
  have below : ((number / divisor : ℕ) : ℚ) ≤ number / divisor := Nat.cast_div_le
  have above : (number : ℚ) / divisor < (number / divisor : ℕ) + 1 := by
    rw [div_lt_iff₀ positiveRat]
    exact_mod_cast Nat.lt_mul_of_div_lt (Nat.lt_succ_self (number / divisor)) positive
  rw [abs_le]
  rcases isKept with same | next
  · rw [same]
    constructor <;> linarith
  · rw [next]
    push_cast
    constructor <;> linarith

/-- A division of whole numbers stands behind the digits of a quotient; it has more digits than the
context, and a remainder leaves its mark in the last one. -/
theorem quotient_digits (context : DecimalContext) (dividend : first.coeff ≠ 0)
    (divisor : second.coeff ≠ 0) :
    ∃ (number part : ℕ) (exponent : ℤ), 0 < part ∧ 10 ^ context.precision * part ≤ number ∧
      first.magnitude / second.magnitude = (number : ℚ) / part * 10 ^ exponent ∧
      (number % part = 0 ∧ ((quotient context first second).1 : ℚ) *
          10 ^ (quotient context first second).2 = (number / part : ℕ) * 10 ^ exponent ∨
        number % part ≠ 0 ∧ quotient context first second =
          (if number / part % 5 = 0 then number / part + 1 else number / part, exponent)) := by
  obtain ⟨shift, isShift⟩ : ∃ shift : ℤ, shift =
      (digitCount second.coeff : ℤ) - digitCount first.coeff + context.precision + 1 := ⟨_, rfl⟩
  obtain ⟨number, isNumber⟩ : ∃ number, number = first.coeff * 10 ^ shift.toNat := ⟨_, rfl⟩
  obtain ⟨part, isPart⟩ : ∃ part, part = second.coeff * 10 ^ (-shift).toNat := ⟨_, rfl⟩
  have positive : 0 < part := by
    have some := Nat.pos_of_ne_zero divisor
    rw [isPart]
    positivity
  have exactly : first.magnitude / second.magnitude =
      (number : ℚ) / part * 10 ^ (first.exponent - second.exponent - shift) := by
    have power : (10 : ℚ) ^ shift.toNat = 10 ^ shift * 10 ^ (-shift).toNat := by
      rw [← zpow_natCast, ← zpow_natCast, ← zpow_add₀ (by norm_num)]
      congr 1
      omega
    have some : (second.coeff : ℚ) ≠ 0 := by exact_mod_cast divisor
    unfold magnitude
    rw [isNumber, isPart, zpow_sub₀ (by norm_num), zpow_sub₀ (by norm_num)]
    push_cast
    rw [power]
    field_simp
  have digits : 10 ^ context.precision * part ≤ number := by
    have least := pow_le_of_digitCount (Nat.pos_of_ne_zero dividend)
    have most := lt_pow_digitCount second.coeff
    have count : digitCount first.coeff ≠ 0 := (Nat.length_toDigits_pos).ne'
    calc 10 ^ context.precision * part
        ≤ 10 ^ context.precision * (10 ^ digitCount second.coeff * 10 ^ (-shift).toNat) := by
          rw [isPart]
          exact Nat.mul_le_mul_left _ (Nat.mul_le_mul_right _ most.le)
      _ = 10 ^ (digitCount first.coeff - 1) * 10 ^ shift.toNat := by
          rw [← pow_add, ← pow_add, ← pow_add]
          congr 1
          omega
      _ ≤ number := by
          rw [isNumber]
          exact Nat.mul_le_mul_right _ least
  refine ⟨number, part, _, positive, digits, exactly, ?_⟩
  unfold quotient
  simp only [← isShift, ← isNumber, ← isPart]
  by_cases whole : number % part = 0
  · rw [if_pos whole, dropZeros_value]
    exact .inl ⟨whole, rfl⟩
  · rw [if_neg whole]
    exact .inr ⟨whole, rfl⟩

/-- The digits of a quotient, before it is rounded. -/
theorem quotient_near (context : DecimalContext) (dividend : first.coeff ≠ 0) (divisor : second.coeff ≠ 0) :
    |((quotient context first second).1 : ℚ) * 10 ^ (quotient context first second).2 -
        first.magnitude / second.magnitude| ≤
      first.magnitude / second.magnitude * 10 ^ (-context.precision : ℤ) := by
  obtain ⟨number, part, exponent, positive, digits, exactly, whole | ⟨_, marked⟩⟩ :=
    quotient_digits context dividend divisor
  · obtain ⟨divides, value⟩ := whole
    have positiveRat : (0 : ℚ) < part := by exact_mod_cast positive
    rw [value, exactly, Nat.cast_div (Nat.dvd_of_mod_eq_zero divides) positiveRat.ne', sub_self, abs_zero]
    positivity
  · have positiveRat : (0 : ℚ) < part := by exact_mod_cast positive
    have scale : (0 : ℚ) < 10 ^ exponent := by positivity
    have slack : (1 : ℚ) ≤ number / part * 10 ^ (-context.precision : ℤ) := by
      rw [zpow_neg, zpow_natCast, ← div_eq_mul_inv, one_le_div (by positivity), le_div_iff₀ positiveRat]
      exact_mod_cast digits
    have kept : (if number / part % 5 = 0 then number / part + 1 else number / part) = number / part ∨
        (if number / part % 5 = 0 then number / part + 1 else number / part) = number / part + 1 := by
      split
      next => exact .inr rfl
      next => exact .inl rfl
    have near := abs_sub_div_le_one positive kept
    rw [marked, exactly, ← sub_mul, abs_mul, abs_of_pos scale, mul_right_comm]
    exact mul_le_mul_of_nonneg_right (near.trans slack) scale.le

theorem toRat_mk (negative : Bool) (coeff : ℕ) (exponent : ℤ) :
    toRat ⟨negative, coeff, exponent⟩ = (if negative then -1 else 1) * (coeff * 10 ^ exponent) := by
  unfold toRat magnitude
  cases negative <;> simp

/-- What a division fits to the context is the exact quotient, up to a tenth of a unit. -/
theorem exists_div_fit (context : DecimalContext) (first : Decimal) (nonzero : second.toRat ≠ 0) :
    ∃ number, Decimal.div context first second = fit context number ∧
      |number.toRat - first.toRat / second.toRat| ≤ |first.toRat / second.toRat| * (unit context / 10) := by
  have divisor : second.coeff ≠ 0 := fun zero => nonzero (toRat_eq_zero.mpr zero)
  have divisorIs : second.isZero = false := by simp [isZero, divisor]
  by_cases dividend : first.coeff = 0
  · have isZero : first.isZero = true := by simp [Decimal.isZero, dividend]
    refine ⟨⟨first.negative != second.negative, 0, first.exponent - second.exponent⟩, ?_, ?_⟩
    · simp only [div, divisorIs, isZero, Bool.false_eq_true, if_false, if_true]
    · rw [toRat_eq_zero.mpr dividend, toRat_eq_zero.mpr rfl]
      simp
  · refine ⟨_, div_eq_fit context (by simp [isZero, dividend]) divisorIs, ?_⟩
    have near := quotient_near context dividend divisor
    have tenth : unit context / 10 = 10 ^ (-context.precision : ℤ) := by
      unfold unit
      rw [sub_eq_neg_add, zpow_add₀ (by norm_num), zpow_one, mul_div_cancel_right₀ _ (by norm_num)]
    have sign : first.toRat / second.toRat =
        (if (first.negative != second.negative) then -1 else 1) * (first.magnitude / second.magnitude) := by
      unfold toRat
      cases first.negative <;> cases second.negative <;> simp [neg_div, div_neg]
    have size : |first.toRat / second.toRat| = first.magnitude / second.magnitude := by
      rw [abs_div, abs_toRat, abs_toRat]
    have one : |(if (first.negative != second.negative) then -1 else 1 : ℚ)| = 1 := by
      split <;> simp
    rw [size, tenth, toRat_mk, sign, ← mul_sub, abs_mul, one, one_mul]
    exact near

theorem Near.div (near : Near context turns first x p) (other : Near context others second y y)
    (positive : 0 < y) (rounds : Rounds context) (ordinary : Ordinary (p / y)) (few : turns + others ≤ 50) :
    ∃ result, Decimal.div context first second = .ok result ∧
      Near context (turns + others + 3) result (x / y) (p / y) := by
  have unit := unit_pos context
  have nonnegP := (abs_nonneg _).trans near.bounded
  have small := turns_le rounds (show others ≤ 50 by omega)
  have divisor : (1 - 1 / 10 ^ 7) * y ≤ second.toRat := by
    have close := (abs_le.mp other.error).1
    have scaled := mul_le_mul_of_nonneg_right small positive.le
    linarith
  have divisorPos : 0 < second.toRat := lt_of_lt_of_le (by positivity) divisor
  obtain ⟨number, isFit, apart⟩ := exists_div_fit context first divisorPos.ne'
  have ratio : 0 ≤ p / y := div_nonneg nonnegP positive.le
  -- dividing by the number instead of its value
  have inverse : ∀ bound : ℚ, 0 ≤ bound → bound * y / second.toRat ≤ (1 + 1 / 10 ^ 6) * bound := by
    intro bound nonneg
    rw [div_le_iff₀ divisorPos]
    have scaled := mul_le_mul_of_nonneg_left divisor nonneg
    have more : 0 ≤ bound * y := mul_nonneg nonneg positive.le
    nlinarith
  have quotients : |first.toRat / second.toRat - x / y| ≤
      (1 + 1 / 10 ^ 6) * ((turns + others) * Decimal.unit context * (p / y)) := by
    have split : first.toRat / second.toRat - x / y =
        ((first.toRat - x) - x / y * (second.toRat - y)) / second.toRat := by
      field_simp
      ring
    have value : |x / y| ≤ p / y := by
      rw [abs_div, abs_of_pos positive]
      exact div_le_div_of_nonneg_right near.bounded positive.le
    have shifted : |x / y * (second.toRat - y)| ≤ p / y * (others * Decimal.unit context * y) := by
      rw [abs_mul]
      exact mul_le_mul value other.error (abs_nonneg _) ratio
    have cancel : turns * Decimal.unit context * p = turns * Decimal.unit context * (p / y * y) := by
      rw [div_mul_cancel₀ p positive.ne']
    rw [split, abs_div, abs_of_pos divisorPos]
    refine le_trans ?_ (inverse _ (by positivity))
    refine div_le_div_of_nonneg_right ((abs_sub _ _).trans ((add_le_add near.error shifted).trans ?_))
      divisorPos.le
    linarith
  have most : |first.toRat / second.toRat| ≤ 2 * (p / y) := by
    have scaled : p / y * y / second.toRat ≤ (1 + 1 / 10 ^ 6) * (p / y) := inverse _ ratio
    rw [div_mul_cancel₀ p positive.ne'] at scaled
    have above := div_le_div_of_nonneg_right (near.toRat_le rounds (by omega)) divisorPos.le
    rw [abs_div, abs_of_pos divisorPos]
    rw [mul_div_assoc] at above
    linarith
  have before : Near context (turns + others + 1) number (x / y) (p / y) := by
    refine ⟨(abs_sub_le _ (first.toRat / second.toRat) _).trans ((add_le_add apart quotients).trans ?_), ?_⟩
    · have counts : ((turns : ℚ) + others) ≤ 50 := by exact_mod_cast few
      have scale : 0 ≤ Decimal.unit context * (p / y) := by positivity
      have tenth := mul_le_mul_of_nonneg_right most (show 0 ≤ Decimal.unit context / 10 by positivity)
      have slack := mul_le_mul_of_nonneg_right counts scale
      push_cast
      linarith
    · rw [abs_div, abs_of_pos positive]
      exact div_le_div_of_nonneg_right near.bounded positive.le
  rw [isFit]
  obtain ⟨result, isResult, after⟩ := near_of_fit rounds ordinary (by omega) before
  exact ⟨result, isResult, after.more (by omega)⟩

/-! ## Rounding to an exponent -/

theorem digitCount_le {coeff digits : ℕ} (positive : 0 < digits) (below : coeff < 10 ^ digits) :
    digitCount coeff ≤ digits :=
  (Nat.length_toDigits_le_iff (by decide) positive).mpr below

theorem magnitude_rescale (rounding : Rounding) (number : Decimal) (exponent : ℤ) :
    |(rescale rounding number exponent).toRat| =
      (rescale rounding number exponent).coeff * 10 ^ exponent := by
  rw [abs_toRat]
  unfold rescale
  split <;> rfl

/-- A number with a digit to spare at the exponent is rounded there. -/
theorem exists_quantize {exponent : ℤ} (holds : HoldsUnits context exponent)
    (small : |number.toRat| < 10 ^ (context.precision - 1 + exponent)) :
    ∃ result, quantize context .halfEven number exponent = .ok result := by
  have few := holds.positive
  have least := holds.least
  have greatest := holds.greatest
  have most : context.etop + (context.precision - 1) = DecimalContext.emax := by
    unfold DecimalContext.etop
    ring
  unfold quantize
  rw [if_neg (by simp only [Bool.or_eq_true, decide_eq_true_eq]; omega)]
  split
  next => exact ⟨_, rfl⟩
  next nonzero =>
    have some : number.coeff ≠ 0 := by simpa [isZero] using nonzero
    have digits := pow_le_magnitude some
    rw [abs_toRat] at small
    have exponents := (zpow_lt_zpow_iff_right₀ (by norm_num : (1 : ℚ) < 10)).mp (digits.trans_lt small)
    have count : digitCount (rescale .halfEven number exponent).coeff ≤ context.precision := by
      refine digitCount_le few ?_
      have near := rescale_near number exponent
      have scale : (0 : ℚ) < 10 ^ exponent := by positivity
      have triangle := abs_sub_abs_le_abs_sub (rescale .halfEven number exponent).toRat number.toRat
      have power : (10 : ℚ) ^ (context.precision - 1 + exponent) = 10 ^ (context.precision - 1) * 10 ^ exponent := by
        rw [← zpow_natCast, ← zpow_add₀ (by norm_num)]
        congr 1
        omega
      have spare : (10 : ℚ) ^ context.precision = 10 * 10 ^ (context.precision - 1) := by
        rw [← pow_succ']
        congr 1
        omega
      have one : (1 : ℚ) ≤ 10 ^ (context.precision - 1) := one_le_pow₀ (by norm_num)
      rw [magnitude_rescale, abs_toRat number] at triangle
      have bound : ((rescale .halfEven number exponent).coeff : ℚ) * 10 ^ exponent <
          10 ^ context.precision * 10 ^ exponent := by
        rw [spare]
        nlinarith
      exact_mod_cast lt_of_mul_lt_mul_right bound scale.le
    have place : (rescale .halfEven number exponent).exponent = exponent := by
      unfold rescale
      split <;> rfl
    unfold adjusted
    rw [if_neg (by simp only [Bool.or_eq_true, decide_eq_true_eq]; omega)]
    dsimp only
    rw [place, if_neg (by simp only [Bool.or_eq_true, decide_eq_true_eq]; omega)]
    exact ⟨_, rfl⟩

end Near

end Decimal
