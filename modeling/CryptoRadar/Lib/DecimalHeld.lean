import CryptoRadar.Lib.DecimalBounds
import CryptoRadar.Lib.DecimalUnits

/-!
# Values that a context holds

A context holds a value when some number of that value is left as it is by the context. An operation
whose exact result is held does not round (`Holds.fit`), and so do a sum, a difference, a product and
a quotient by a power of ten. What is rounded half to even at an exponent is not above what is rounded
up there (`quantize_halfEven_le_ceiling`).
-/

set_option autoImplicit false

namespace Decimal

open Checked

variable {context : DecimalContext}

/-- Some number of this value fits the context. -/
def Holds (context : DecimalContext) (value : ℚ) : Prop :=
  ∃ number, fit context number = .ok number ∧ number.toRat = value

/-! ## Operations that do not round -/

/-- **A number of a held value is not rounded.** -/
theorem Holds.fit {number : Decimal} {value : ℚ} (holds : Holds context value) (same : number.toRat = value) :
    ∃ fitted, fit context number = .ok fitted ∧ fitted.toRat = value := by
  obtain ⟨held, isFit, heldValue⟩ := holds
  have alike := fit_alike context (same.trans heldValue.symm)
  rw [isFit] at alike
  generalize Decimal.fit context number = result at alike
  cases alike with
  | ok values => exact ⟨_, rfl, values.trans heldValue⟩

/-- What is returned for a held value has that value. -/
theorem Holds.fit_toRat {number fitted : Decimal} (holds : Holds context number.toRat)
    (isFit : Decimal.fit context number = .ok fitted) : fitted.toRat = number.toRat := by
  obtain ⟨other, otherFit, value⟩ := holds.fit rfl
  rw [isFit] at otherFit
  cases otherFit
  exact value

variable {first second result : Decimal}

theorem add_toRat (holds : Holds context (first.toRat + second.toRat))
    (isSum : add context first second = .ok result) : result.toRat = first.toRat + second.toRat := by
  obtain ⟨sum, isFit, value⟩ := add_eq_fit context first second
  rw [isFit] at isSum
  rw [← value] at holds ⊢
  exact holds.fit_toRat isSum

theorem sub_toRat (holds : Holds context (first.toRat - second.toRat))
    (isDifference : sub context first second = .ok result) :
    result.toRat = first.toRat - second.toRat := by
  have value := toRat_copyNegate second
  rw [sub_eq_add_neg, ← value] at holds ⊢
  exact add_toRat holds isDifference

theorem mul_toRat (holds : Holds context (first.toRat * second.toRat))
    (isProduct : mul context first second = .ok result) : result.toRat = first.toRat * second.toRat := by
  rw [← toRat_product] at holds ⊢
  exact holds.fit_toRat isProduct

/-! ### Quotients -/

theorem le_exponent_of_roundTo {number fitted : Decimal} {exponent : ℤ}
    (rounded : roundTo context number exponent = .ok fitted) : exponent ≤ fitted.exponent := by
  unfold roundTo at rounded
  simp only at rounded
  split_ifs at rounded
  · cases rounded
    dsimp only
    omega
  · cases rounded
    exact le_rfl

/-- A number that a context leaves as it is has no more digits than the context. -/
theorem digitCount_le_of_fit {number fitted : Decimal} (nonzero : number.coeff ≠ 0)
    (isFit : fit context number = .ok fitted) (same : fitted.exponent = number.exponent) :
    digitCount number.coeff ≤ context.precision := by
  unfold fit at isFit
  rw [if_neg nonzero] at isFit
  simp only at isFit
  split at isFit
  next => cases isFit
  next =>
    split at isFit
    next rounds =>
      have greater := le_exponent_of_roundTo isFit
      omega
    next => omega

/-- The digits of a part of a power of ten: there is no remainder. -/
theorem quotient_power {coeff : ℕ} (few : digitCount coeff ≤ context.precision) (negative : Bool)
    (exponent : ℤ) (zeros : ℕ) :
    ((quotient context ⟨negative, coeff, exponent⟩ (ofNat (10 ^ zeros))).1 : ℚ) *
        10 ^ (quotient context ⟨negative, coeff, exponent⟩ (ofNat (10 ^ zeros))).2 =
      coeff * 10 ^ (exponent - zeros) := by
  have digits : digitCount (ofNat (10 ^ zeros)).coeff = zeros + 1 := by
    have one := digitCount_mul_pow (by decide : 0 < 1) zeros
    rw [one_mul] at one
    exact one.trans (Nat.add_comm _ _)
  obtain ⟨more, shift⟩ : ∃ more : ℕ,
      (digitCount (ofNat (10 ^ zeros)).coeff : ℤ) - digitCount coeff + context.precision + 1 =
        more + zeros :=
    ⟨context.precision - digitCount coeff + 2, by rw [digits]; push_cast; omega⟩
  have forward : ((more : ℤ) + zeros).toNat = more + zeros := by omega
  have backward : (-((more : ℤ) + zeros)).toNat = 0 := by omega
  have split : coeff * 10 ^ (more + zeros) = coeff * 10 ^ more * (ofNat (10 ^ zeros)).coeff := by
    change _ = _ * 10 ^ zeros
    ring
  have positive : 0 < (ofNat (10 ^ zeros)).coeff := by
    change 0 < 10 ^ zeros
    positivity
  unfold quotient
  simp only [shift, forward, backward, split, pow_zero, mul_one, Nat.mul_mod_left, if_true,
    Nat.mul_div_cancel _ positive]
  rw [dropZeros_value]
  have place : exponent - (ofNat (10 ^ zeros)).exponent - (more + zeros) = (exponent - zeros) + -(more : ℤ) := by
    change exponent - 0 - (more + zeros) = _
    ring
  rw [place, zpow_add₀ (by norm_num), zpow_neg, zpow_natCast]
  push_cast
  field_simp

/-- **A part of a power of ten is not rounded** when it is held. -/
theorem div_power_toRat (zeros : ℕ) (holds : Holds context (first.toRat / 10 ^ zeros))
    (isQuotient : div context first (ofNat (10 ^ zeros)) = .ok result) :
    result.toRat = first.toRat / 10 ^ zeros := by
  have power : (10 : ℚ) ^ zeros ≠ 0 := by positivity
  have divisor : (ofNat (10 ^ zeros)).isZero = false := by simp [isZero, ofNat]
  obtain ⟨held, isFit, value⟩ := holds
  by_cases zero : held.coeff = 0
  · have none : first.toRat = 0 := by
      rw [toRat_eq_zero.mpr zero] at value
      exact (div_eq_zero_iff.mp value.symm).resolve_right power
    have isZero : first.isZero = true := by simpa [Decimal.isZero] using toRat_eq_zero.mp none
    simp only [div, divisor, isZero, Bool.false_eq_true, if_false, if_true, fit, Except.ok.injEq] at isQuotient
    rw [none, zero_div, ← isQuotient]
    exact toRat_eq_zero.mpr rfl
  · -- the dividend with the digits of the held quotient
    have few := digitCount_le_of_fit zero isFit rfl
    have same : SameValue first ⟨held.negative, held.coeff, held.exponent + zeros⟩ := by
      have size : (⟨held.negative, held.coeff, held.exponent + zeros⟩ : Decimal).toRat = held.toRat * 10 ^ zeros := by
        unfold toRat magnitude
        rw [zpow_add₀ (by norm_num), zpow_natCast]
        cases held.negative <;> simp <;> ring
      rw [SameValue, size, value, div_mul_cancel₀ _ power]
    have alike := div_alike context (ofNat (10 ^ zeros)) same
    have digits := quotient_power few held.negative (held.exponent + zeros) zeros
    have nonzero : (⟨held.negative, held.coeff, held.exponent + zeros⟩ : Decimal).isZero = false := by
      simpa [Decimal.isZero] using zero
    rw [isQuotient, div_eq_fit context nonzero divisor] at alike
    rw [add_sub_cancel_right] at digits
    have isPositive : (ofNat (10 ^ zeros)).negative = false := rfl
    rw [isPositive, Bool.bne_false] at alike
    have size : (⟨held.negative, (quotient context ⟨held.negative, held.coeff, held.exponent + zeros⟩
        (ofNat (10 ^ zeros))).1, (quotient context ⟨held.negative, held.coeff, held.exponent + zeros⟩
        (ofNat (10 ^ zeros))).2⟩ : Decimal).toRat = first.toRat / 10 ^ zeros :=
      (toRat_mk_congr digits).trans value
    obtain ⟨fitted, otherFit, fittedValue⟩ := Holds.fit ⟨held, isFit, value⟩ size
    rw [otherFit] at alike
    cases alike with
    | ok values => exact values.trans fittedValue

/-! ## Rounding up and half to even -/

/-- A quantized number is a whole number of units. -/
theorem isUnits_of_quantize {rounding : Rounding} {number : Decimal} {exponent : ℤ}
    (quantized : quantize context rounding number exponent = .ok result) :
    ∃ count, IsUnits exponent count result := by
  obtain ⟨count, units⟩ := exists_isUnits result
  rw [quantize_exponent quantized] at units
  exact ⟨count, units⟩

/-- Numbers of one value are quantized to one value. -/
theorem quantize_congr {rounding : Rounding} {exponent : ℤ} {quantized other : Decimal}
    (same : first.toRat = second.toRat) (isFirst : quantize context rounding first exponent = .ok quantized)
    (isSecond : quantize context rounding second exponent = .ok other) : quantized.toRat = other.toRat := by
  have alike := quantize_alike context rounding same exponent
  rw [isFirst, isSecond] at alike
  cases alike with
  | ok values => exact values

/-- Half-even rounding goes half a unit at most. -/
theorem quantize_halfEven_near {number : Decimal} {exponent : ℤ}
    (quantized : quantize context .halfEven number exponent = .ok result) :
    |result.toRat - number.toRat| ≤ 10 ^ exponent / 2 := by
  rw [toRat_quantize quantized]
  exact rescale_near number exponent

theorem le_quantize_ceiling {number : Decimal} {exponent : ℤ}
    (quantized : quantize context .ceiling number exponent = .ok result) : number.toRat ≤ result.toRat := by
  rw [toRat_quantize quantized]
  exact le_rescale_ceiling number exponent

/-- What is rounded half to even is not above what is rounded up. -/
theorem quantize_halfEven_le_ceiling {other : DecimalContext} {near up : Decimal} {exponent : ℤ}
    (same : first.toRat = second.toRat) (isNear : quantize context .halfEven first exponent = .ok near)
    (isUp : quantize other .ceiling second exponent = .ok up) : near.toRat ≤ up.toRat := by
  obtain ⟨nearCount, nearUnits⟩ := isUnits_of_quantize isNear
  obtain ⟨upCount, upUnits⟩ := isUnits_of_quantize isUp
  have close := abs_le.mp (quantize_halfEven_near isNear)
  have above := le_quantize_ceiling isUp
  have unit : (0 : ℚ) < 10 ^ exponent := by positivity
  rw [IsUnits] at nearUnits upUnits
  rw [nearUnits, upUnits] at *
  by_contra more
  -- one unit more would be more than half a unit away
  have counts : upCount + 1 ≤ nearCount := by
    rw [not_le, mul_lt_mul_iff_of_pos_right unit] at more
    exact_mod_cast more
  have units : ((upCount : ℚ) + 1) * 10 ^ exponent ≤ nearCount * 10 ^ exponent := by
    refine mul_le_mul_of_nonneg_right ?_ unit.le
    exact_mod_cast counts
  linarith [close.2]

end Decimal
