import CryptoRadar.Lib.DecimalValue

/-!
# How far rounding goes

A number that is fitted to a context keeps its sign, and its size becomes a neighbour of it among
the multiples of one power of ten (`fit_bracket`). So a rounded number does not fall below a power
of ten that it had reached (`pow_le_fit`), and half-even rounding moves it by half a unit of its
last digit at most (`fit_error`).
-/

set_option autoImplicit false

namespace Decimal

open Checked

theorem lt_pow_digitCount (number : ℕ) : number < 10 ^ digitCount number := by
  have positive : 0 < digitCount number := Nat.length_toDigits_pos
  exact (Nat.length_toDigits_le_iff (by decide) positive).mp le_rfl

theorem pow_le_of_digitCount {number : ℕ} (positive : 0 < number) :
    10 ^ (digitCount number - 1) ≤ number := by
  by_contra below
  rcases Nat.eq_zero_or_pos (digitCount number - 1) with none | some
  · rw [none] at below
    omega
  · have fewer := (Nat.length_toDigits_le_iff (by decide) some).mpr (not_le.mp below)
    have counted : digitCount number ≤ digitCount number - 1 := fewer
    omega

theorem pow_le_of_lt_digitCount {number digits : ℕ} (positive : 0 < digits)
    (more : digits < digitCount number) : 10 ^ digits ≤ number := by
  by_contra below
  have fewer : digitCount number ≤ digits :=
    (Nat.length_toDigits_le_iff (by decide) positive).mpr (not_le.mp below)
  omega

/-- A rounded coefficient is the quotient or the next number. -/
theorem roundedCoeff_cases (rounding : Rounding) (negative : Bool) (coeff drop : ℕ) :
    roundedCoeff rounding negative coeff drop = coeff / 10 ^ drop ∨
      roundedCoeff rounding negative coeff drop = coeff / 10 ^ drop + 1 := by
  unfold roundedCoeff
  simp only
  split
  · exact .inr rfl
  · exact .inl rfl

/-- Half-even rounding moves a coefficient by half a unit at most. -/
theorem roundedCoeff_near (negative : Bool) (coeff drop : ℕ) :
    2 * coeff ≤ 2 * (roundedCoeff .halfEven negative coeff drop * 10 ^ drop) + 10 ^ drop ∧
      2 * (roundedCoeff .halfEven negative coeff drop * 10 ^ drop) ≤ 2 * coeff + 10 ^ drop := by
  have split := Nat.div_add_mod' coeff (10 ^ drop)
  have below := Nat.mod_lt coeff (show 0 < 10 ^ drop by positivity)
  unfold roundedCoeff Rounding.roundsUp
  simp only [Bool.or_eq_true, Bool.and_eq_true, decide_eq_true_eq]
  generalize coeff / 10 ^ drop = quotient at *
  generalize coeff % 10 ^ drop = remainder at *
  generalize 10 ^ drop = unit at *
  split
  next up =>
    rw [Nat.add_mul, Nat.one_mul]
    omega
  next stays =>
    rw [not_or] at stays
    omega

/-- The least multiple of a power of ten that a fitted number is rounded to. -/
def lowestExponent (context : DecimalContext) (number : Decimal) : ℤ :=
  max (digitCount number.coeff + number.exponent - context.precision) context.etiny

/-- The size of a number in units of a power of ten is its coefficient, divided. -/
theorem magnitude_bracket (number : Decimal) {exponent : ℤ} (above : number.exponent ≤ exponent) :
    ((number.coeff / 10 ^ (exponent - number.exponent).toNat : ℕ) : ℚ) * 10 ^ exponent ≤
        number.magnitude ∧
      number.magnitude <
        ((number.coeff / 10 ^ (exponent - number.exponent).toNat : ℕ) + 1 : ℚ) * 10 ^ exponent := by
  have unit : (0 : ℚ) < 10 ^ number.exponent := by positivity
  have split : (10 : ℚ) ^ exponent =
      10 ^ (exponent - number.exponent).toNat * 10 ^ number.exponent := by
    rw [← zpow_natCast, Int.toNat_of_nonneg (by omega), ← zpow_add₀ (by norm_num)]
    congr 1
    omega
  unfold magnitude
  rw [split, ← mul_assoc, ← mul_assoc, mul_le_mul_iff_of_pos_right unit,
    mul_lt_mul_iff_of_pos_right unit]
  constructor
  · exact_mod_cast Nat.div_mul_le_self number.coeff _
  · exact_mod_cast Nat.lt_mul_of_div_lt (Nat.lt_succ_self _) (by positivity)

/-- **A fitted number** keeps its sign, and its size as well or up to a unit of the power of ten at
which it is rounded. -/
theorem fit_bracket {context : DecimalContext} (positive : 0 < context.precision)
    {number fitted : Decimal} (nonzero : number.coeff ≠ 0) (isFit : fit context number = .ok fitted) :
    fitted.negative = number.negative ∧
      (lowestExponent context number ≤ number.exponent ∧ fitted = number ∨
        ∃ kept : ℕ, number.exponent < lowestExponent context number ∧
          kept = roundedCoeff context.rounding number.negative number.coeff
            (lowestExponent context number - number.exponent).toNat ∧
          fitted.magnitude = kept * 10 ^ lowestExponent context number) := by
  unfold fit at isFit
  rw [if_neg nonzero] at isFit
  simp only at isFit
  split at isFit
  next => cases isFit
  next inRange =>
    change (if number.exponent < lowestExponent context number then
      roundTo context number (lowestExponent context number) else .ok number) = .ok fitted at isFit
    split at isFit
    next rounds =>
      unfold roundTo at isFit
      simp only at isFit
      generalize isDrop : (lowestExponent context number - number.exponent).toNat = drop at isFit ⊢
      generalize isKept : roundedCoeff context.rounding number.negative number.coeff drop = kept at isFit ⊢
      have quotient : number.coeff / 10 ^ drop < 10 ^ context.precision := by
        rw [Nat.div_lt_iff_lt_mul (by positivity), ← pow_add]
        refine (lt_pow_digitCount number.coeff).trans_le (Nat.pow_le_pow_right (by norm_num) ?_)
        have floor : digitCount number.coeff + number.exponent - context.precision ≤
            lowestExponent context number := le_max_left _ _
        omega
      by_cases carried : context.precision < digitCount kept
      · -- one digit too many is a power of ten, so its last digit is zero
        have least := pow_le_of_lt_digitCount positive carried
        have most : kept ≤ 10 ^ context.precision := by
          rcases roundedCoeff_cases context.rounding number.negative number.coeff drop with same | next
          · omega
          · omega
        have isPower : kept = 10 ^ (context.precision - 1) * 10 := by
          rw [← pow_succ, Nat.sub_add_cancel positive]
          exact le_antisymm most least
        simp only [if_pos carried] at isFit
        split at isFit
        next => cases isFit
        next =>
          rw [Except.ok.injEq] at isFit
          subst isFit
          refine ⟨rfl, .inr ⟨kept, rounds, rfl, ?_⟩⟩
          unfold magnitude
          simp only [isPower, Nat.mul_div_cancel _ (show 0 < 10 by norm_num)]
          rw [zpow_add₀ (by norm_num), zpow_one]
          push_cast
          ring
      · simp only [if_neg carried] at isFit
        split at isFit
        next => cases isFit
        next =>
          rw [Except.ok.injEq] at isFit
          subst isFit
          exact ⟨rfl, .inr ⟨kept, rounds, rfl, rfl⟩⟩
    next stays =>
      cases isFit
      exact ⟨rfl, .inl ⟨not_lt.mp stays, rfl⟩⟩

/-- The coefficient of a number that is not zero starts with a digit. -/
theorem pow_le_magnitude {number : Decimal} (nonzero : number.coeff ≠ 0) :
    (10 : ℚ) ^ (digitCount number.coeff + number.exponent - 1) ≤ number.magnitude := by
  have least := pow_le_of_digitCount (Nat.pos_of_ne_zero nonzero)
  have some : 0 < digitCount number.coeff := Nat.length_toDigits_pos
  have split : (10 : ℚ) ^ ((digitCount number.coeff : ℤ) + number.exponent - 1) =
      10 ^ (digitCount number.coeff - 1) * 10 ^ number.exponent := by
    rw [← zpow_natCast, ← zpow_add₀ (by norm_num)]
    congr 1
    omega
  unfold magnitude
  rw [split, mul_le_mul_iff_of_pos_right (by positivity)]
  exact_mod_cast least

/-- The unit at which a number is rounded is small beside the number, or the least there is. -/
theorem lowestExponent_small (context : DecimalContext) {number : Decimal}
    (nonzero : number.coeff ≠ 0) :
    (10 : ℚ) ^ lowestExponent context number ≤
      max (number.magnitude * 10 ^ (1 - context.precision : ℤ)) (10 ^ context.etiny) := by
  unfold lowestExponent
  rcases max_cases ((digitCount number.coeff : ℤ) + number.exponent - context.precision)
    context.etiny with ⟨same, _⟩ | ⟨same, _⟩
  · refine le_max_of_le_left ?_
    have split : (10 : ℚ) ^ ((digitCount number.coeff : ℤ) + number.exponent - context.precision) =
        10 ^ ((digitCount number.coeff : ℤ) + number.exponent - 1) * 10 ^ (1 - context.precision : ℤ) := by
      rw [← zpow_add₀ (by norm_num)]
      congr 1
      ring
    rw [same, split]
    exact mul_le_mul_of_nonneg_right (pow_le_magnitude nonzero) (by positivity)
  · rw [same]
    exact le_max_right _ _

/-- **A power of ten stays reached**: rounding does not take a number below it. -/
theorem pow_le_fit {context : DecimalContext} (positive : 0 < context.precision)
    {number fitted : Decimal} {exponent : ℤ} (held : context.etiny ≤ exponent)
    (reached : (10 : ℚ) ^ exponent ≤ number.magnitude) (isFit : fit context number = .ok fitted) :
    (10 : ℚ) ^ exponent ≤ fitted.magnitude := by
  have nonzero : number.coeff ≠ 0 := by
    intro zero
    have unit : (0 : ℚ) < 10 ^ exponent := by positivity
    rw [magnitude_eq_zero.mpr zero] at reached
    linarith
  rcases (fit_bracket positive nonzero isFit).2 with ⟨_, rfl⟩ | ⟨kept, rounds, isKept, value⟩
  · exact reached
  rw [value]
  have atLeast : number.coeff / 10 ^ (lowestExponent context number - number.exponent).toNat ≤ kept := by
    rcases roundedCoeff_cases context.rounding number.negative number.coeff
      (lowestExponent context number - number.exponent).toNat with same | next <;> omega
  have below := (magnitude_bracket number rounds.le).2
  generalize isLowest : lowestExponent context number = lowest at *
  generalize number.coeff / 10 ^ (lowest - number.exponent).toNat = quotient at *
  have unit : (0 : ℚ) < 10 ^ lowest := by positivity
  suffices (10 : ℚ) ^ exponent ≤ quotient * 10 ^ lowest by
    refine this.trans (mul_le_mul_of_nonneg_right ?_ unit.le)
    exact_mod_cast atLeast
  rcases le_or_gt lowest exponent with within | beyond
  · have split : (10 : ℚ) ^ exponent = (10 ^ (exponent - lowest).toNat : ℕ) * 10 ^ lowest := by
      push_cast
      rw [← zpow_natCast, Int.toNat_of_nonneg (by omega), ← zpow_add₀ (by norm_num)]
      congr 1
      omega
    rw [split] at reached ⊢
    have less := lt_of_mul_lt_mul_right (reached.trans_lt below) unit.le
    refine mul_le_mul_of_nonneg_right ?_ unit.le
    have whole : 10 ^ (exponent - lowest).toNat < quotient + 1 := by exact_mod_cast less
    exact_mod_cast Nat.lt_succ_iff.mp whole
  · -- the unit of the rounding is above the power, and the quotient is not zero
    have isFirst : (digitCount number.coeff : ℤ) + number.exponent - context.precision = lowest := by
      unfold lowestExponent at isLowest
      omega
    have first := (pow_le_magnitude nonzero).trans_lt below
    have some : 1 ≤ quotient := by
      by_contra none
      have zero : quotient = 0 := by omega
      rw [zero, Nat.cast_zero, zero_add, one_mul] at first
      have smaller := (zpow_lt_zpow_iff_right₀ (by norm_num : (1 : ℚ) < 10)).mp first
      omega
    calc (10 : ℚ) ^ exponent ≤ 10 ^ lowest := zpow_le_zpow_right₀ (by norm_num) beyond.le
      _ = 1 * 10 ^ lowest := (one_mul _).symm
      _ ≤ quotient * 10 ^ lowest := by
          refine mul_le_mul_of_nonneg_right ?_ unit.le
          exact_mod_cast some

/-- **The error of half-even rounding** is half a unit at most, which is small beside the number
or beside the least positive one. -/
theorem fit_error {context : DecimalContext} (positive : 0 < context.precision)
    (halfEven : context.rounding = .halfEven) {number fitted : Decimal}
    (isFit : fit context number = .ok fitted) :
    |fitted.toRat - number.toRat| ≤
      max (number.magnitude * 10 ^ (1 - context.precision : ℤ)) (10 ^ context.etiny) / 2 := by
  have least : (0 : ℚ) ≤
      max (number.magnitude * 10 ^ (1 - context.precision : ℤ)) (10 ^ context.etiny) / 2 := by
    have floor : (0 : ℚ) ≤ 10 ^ context.etiny := by positivity
    have most := floor.trans (le_max_right (number.magnitude * 10 ^ (1 - context.precision : ℤ)) _)
    linarith
  by_cases zero : number.coeff = 0
  · unfold fit at isFit
    rw [if_pos zero, Except.ok.injEq] at isFit
    subst isFit
    rw [toRat_eq_zero.mpr zero, toRat_eq_zero.mpr (by simpa using zero), sub_self, abs_zero]
    exact least
  obtain ⟨sign, ⟨_, same⟩ | ⟨kept, rounds, isKept, value⟩⟩ := fit_bracket positive zero isFit
  · rw [same, sub_self, abs_zero]
    exact least
  have sizes : |fitted.toRat - number.toRat| = |fitted.magnitude - number.magnitude| := by
    unfold toRat
    rw [sign]
    split
    · rw [← abs_neg]
      congr 1
      ring
    · rfl
  have unit : (0 : ℚ) < 10 ^ number.exponent := by positivity
  have split : (10 : ℚ) ^ lowestExponent context number =
      10 ^ (lowestExponent context number - number.exponent).toNat * 10 ^ number.exponent := by
    rw [← zpow_natCast, Int.toNat_of_nonneg (by omega), ← zpow_add₀ (by norm_num)]
    congr 1
    omega
  rw [halfEven] at isKept
  obtain ⟨above, below⟩ := roundedCoeff_near number.negative number.coeff
    (lowestExponent context number - number.exponent).toNat
  rw [← isKept] at above below
  have half : |fitted.magnitude - number.magnitude| ≤ 10 ^ lowestExponent context number / 2 := by
    rw [value, split]
    unfold magnitude
    generalize (lowestExponent context number - number.exponent).toNat = drop at *
    have aboveRat : (2 : ℚ) * number.coeff ≤ 2 * (kept * 10 ^ drop) + 10 ^ drop := by
      exact_mod_cast above
    have belowRat : (2 : ℚ) * (kept * 10 ^ drop) ≤ 2 * number.coeff + 10 ^ drop := by
      exact_mod_cast below
    rw [abs_le]
    constructor <;> nlinarith
  calc |fitted.toRat - number.toRat| = |fitted.magnitude - number.magnitude| := sizes
    _ ≤ 10 ^ lowestExponent context number / 2 := half
    _ ≤ _ := by linarith [lowestExponent_small context zero]

/-! ## Digits that are held -/

theorem magnitude_mk_drop (number : Decimal) {exponent : ℤ} (above : number.exponent ≤ exponent)
    (negative : Bool) (kept : ℕ) : magnitude ⟨negative, kept, exponent⟩ =
      (kept * 10 ^ (exponent - number.exponent).toNat : ℕ) * 10 ^ number.exponent := by
  have split : (10 : ℚ) ^ exponent =
      10 ^ (exponent - number.exponent).toNat * 10 ^ number.exponent := by
    rw [← zpow_natCast, Int.toNat_of_nonneg (by omega), ← zpow_add₀ (by norm_num)]
    congr 1
    omega
  unfold magnitude
  rw [split]
  push_cast
  ring

/-- A number below the power of ten of its digits' count is rounded where its last digits are not
zeros. -/
theorem fit_eq_iff {context : DecimalContext} (positive : 0 < context.precision)
    {number fitted : Decimal} (above : context.etiny ≤ number.exponent)
    (isFit : fit context number = .ok fitted) :
    fitted.toRat = number.toRat ↔
      10 ^ (digitCount number.coeff - context.precision) ∣ number.coeff := by
  by_cases zero : number.coeff = 0
  · unfold fit at isFit
    rw [if_pos zero, Except.ok.injEq] at isFit
    subst isFit
    rw [toRat_eq_zero.mpr zero, toRat_eq_zero.mpr (by simpa using zero), zero]
    simp
  obtain ⟨sign, ⟨stays, same⟩ | ⟨kept, rounds, isKept, value⟩⟩ := fit_bracket positive zero isFit
  · have few : digitCount number.coeff - context.precision = 0 := by
      have floor : digitCount number.coeff + number.exponent - context.precision ≤
          lowestExponent context number := le_max_left _ _
      omega
    rw [same, few]
    simp
  have isLowest : lowestExponent context number =
      digitCount number.coeff + number.exponent - context.precision := by
    unfold lowestExponent at rounds ⊢
    omega
  have isDrop : (lowestExponent context number - number.exponent).toNat =
      digitCount number.coeff - context.precision := by omega
  have size := magnitude_mk_drop number rounds.le number.negative kept
  rw [isDrop] at isKept size
  have sizes : fitted.toRat = number.toRat ↔ fitted.magnitude = number.magnitude := by
    unfold toRat
    rw [sign]
    split
    · exact neg_inj
    · exact Iff.rfl
  have unit : (10 : ℚ) ^ number.exponent ≠ 0 := by positivity
  have equal : fitted.magnitude = number.magnitude ↔
      kept * 10 ^ (digitCount number.coeff - context.precision) = number.coeff := by
    change (kept : ℚ) * 10 ^ lowestExponent context number = _ at size
    rw [value, size, magnitude, mul_left_inj' unit, Nat.cast_inj]
  rw [sizes, equal]
  constructor
  · intro whole
    exact ⟨kept, by rw [mul_comm, whole]⟩
  · rintro ⟨quotient, whole⟩
    generalize digitCount number.coeff - context.precision = drop at isKept whole
    rw [whole, mul_comm, roundedCoeff_exact] at isKept
    rw [isKept, whole, mul_comm]

/-- A fitted multiple of a power of ten is one as well. -/
theorem fit_multiple {context : DecimalContext} (positive : 0 < context.precision)
    {number fitted : Decimal} (isFit : fit context number = .ok fitted) :
    ∃ count : ℤ, fitted.toRat = count * 10 ^ number.exponent := by
  by_cases zero : number.coeff = 0
  · unfold fit at isFit
    rw [if_pos zero, Except.ok.injEq] at isFit
    subst isFit
    exact ⟨0, by rw [toRat_eq_zero.mpr (by simpa using zero)]; simp⟩
  obtain ⟨sign, ⟨_, same⟩ | ⟨kept, rounds, _, value⟩⟩ := fit_bracket positive zero isFit
  · exact ⟨number.scaled number.exponent, by rw [scaled_mul number le_rfl, same]⟩
  have size := magnitude_mk_drop number rounds.le number.negative kept
  change (kept : ℚ) * 10 ^ lowestExponent context number = _ at size
  rw [size] at value
  generalize kept * 10 ^ (lowestExponent context number - number.exponent).toNat = count at value
  unfold toRat
  rw [value]
  split
  · exact ⟨-count, by push_cast; ring⟩
  · exact ⟨count, by push_cast; rfl⟩

/-! ## Rounding to an exponent -/

theorem roundedCoeff_zero (rounding : Rounding) (negative : Bool) (drop : ℕ) :
    roundedCoeff rounding negative 0 drop = 0 := by
  have unit : 10 ^ drop ≠ 0 := by positivity
  unfold roundedCoeff Rounding.roundsUp
  cases rounding <;> simp [Ne.symm unit]

theorem rescale_of_le {rounding : Rounding} {number : Decimal} {exponent : ℤ}
    (below : exponent ≤ number.exponent) : (rescale rounding number exponent).toRat = number.toRat := by
  have size : (rescale rounding number exponent).magnitude = number.magnitude := by
    unfold rescale
    rw [if_pos below]
    have back := magnitude_mk_drop ⟨false, 0, exponent⟩ below number.negative number.coeff
    unfold magnitude at back ⊢
    rw [back]
  unfold toRat
  rw [size]
  unfold rescale
  rw [if_pos below]

/-- Half-even rounding at an exponent goes half a unit at most. -/
theorem rescale_near (number : Decimal) (exponent : ℤ) :
    |(rescale .halfEven number exponent).toRat - number.toRat| ≤ 10 ^ exponent / 2 := by
  have unit : (0 : ℚ) < 10 ^ exponent := by positivity
  rcases le_or_gt exponent number.exponent with below | above
  · rw [rescale_of_le below, sub_self, abs_zero]
    positivity
  have least : (0 : ℚ) < 10 ^ number.exponent := by positivity
  obtain ⟨less, more⟩ := roundedCoeff_near number.negative number.coeff
    (exponent - number.exponent).toNat
  have one := magnitude_mk_drop number above.le false 1
  have size := magnitude_mk_drop number above.le number.negative (roundedCoeff .halfEven
    number.negative number.coeff (exponent - number.exponent).toNat)
  have near : |(rescale .halfEven number exponent).magnitude - number.magnitude| ≤
      10 ^ exponent / 2 := by
    unfold rescale
    rw [if_neg (not_le.mpr above), size]
    unfold magnitude at one ⊢
    rw [Nat.cast_one, one_mul] at one
    rw [one]
    generalize roundedCoeff .halfEven number.negative number.coeff
      (exponent - number.exponent).toNat = kept at *
    generalize (exponent - number.exponent).toNat = drop at *
    have lessRat : (2 : ℚ) * number.coeff ≤ 2 * (kept * 10 ^ drop) + 10 ^ drop := by
      exact_mod_cast less
    have moreRat : (2 : ℚ) * (kept * 10 ^ drop) ≤ 2 * number.coeff + 10 ^ drop := by
      exact_mod_cast more
    push_cast
    rw [abs_le]
    constructor <;> nlinarith
  have sign : (rescale .halfEven number exponent).negative = number.negative := by
    unfold rescale
    split <;> rfl
  unfold toRat
  rw [sign]
  cases number.negative with
  | false => exact near
  | true =>
      rw [if_pos rfl, if_pos rfl, neg_sub_neg, abs_sub_comm]
      exact near

/-- Rounding up at an exponent does not go below the number. -/
theorem le_rescale_ceiling (number : Decimal) (exponent : ℤ) :
    number.toRat ≤ (rescale .ceiling number exponent).toRat := by
  rcases le_or_gt exponent number.exponent with below | above
  · rw [rescale_of_le below]
  have least : (0 : ℚ) < 10 ^ number.exponent := by positivity
  have split := Nat.div_add_mod' number.coeff (10 ^ (exponent - number.exponent).toNat)
  have size := magnitude_mk_drop number above.le number.negative (roundedCoeff .ceiling
    number.negative number.coeff (exponent - number.exponent).toNat)
  have under := Nat.mod_lt number.coeff
    (show 0 < 10 ^ (exponent - number.exponent).toNat by positivity)
  unfold toRat rescale
  rw [if_neg (not_le.mpr above)]
  dsimp only
  rw [size]
  unfold magnitude
  cases negative : number.negative with
  | false =>
      rw [if_neg (by decide), if_neg (by decide), mul_le_mul_iff_of_pos_right least, Nat.cast_le]
      unfold roundedCoeff Rounding.roundsUp
      simp only [Bool.not_false, Bool.true_and, ne_eq, decide_not, Bool.not_eq_true',
        decide_eq_false_iff_not]
      split
      next => rw [Nat.add_mul, Nat.one_mul]; omega
      next => omega
  | true =>
      rw [if_pos rfl, if_pos rfl, neg_le_neg_iff, mul_le_mul_iff_of_pos_right least, Nat.cast_le]
      unfold roundedCoeff Rounding.roundsUp
      simp only [Bool.not_true, Bool.false_and, Bool.false_eq_true, if_false]
      omega

/-- Rounding down is rounding up with the other sign. -/
theorem copyNegate_rescale_floor (number : Decimal) (exponent : ℤ) :
    (rescale .floor number exponent).copyNegate = rescale .ceiling number.copyNegate exponent := by
  unfold rescale copyNegate roundedCoeff Rounding.roundsUp
  simp only [Bool.not_not]
  split <;> rfl

/-- Rounding down at an exponent does not go above the number. -/
theorem rescale_floor_le (number : Decimal) (exponent : ℤ) :
    (rescale .floor number exponent).toRat ≤ number.toRat := by
  have mirrored := le_rescale_ceiling number.copyNegate exponent
  rw [← copyNegate_rescale_floor, toRat_copyNegate, toRat_copyNegate] at mirrored
  exact neg_le_neg_iff.mp mirrored

theorem rescale_widen (rounding : Rounding) (zeros : ℕ) (number : Decimal) (exponent : ℤ) :
    rescale rounding (widen zeros number) exponent = rescale rounding number exponent := by
  obtain ⟨negative, coeff, lowest⟩ := number
  rw [widen]
  unfold rescale
  dsimp only
  rcases lt_or_ge lowest exponent with above | within
  · have drop : (exponent - (lowest - zeros)).toNat = (exponent - lowest).toNat + zeros := by omega
    rw [if_neg (by omega), if_neg (by omega), drop, roundedCoeff_widen]
  · rw [if_pos within]
    rcases le_or_gt exponent (lowest - zeros) with lower | higher
    · have split : (lowest - exponent).toNat = zeros + (lowest - zeros - exponent).toNat := by omega
      rw [if_pos lower, split, pow_add, mul_assoc]
    · -- only zeros are rounded away
      have split : zeros = (lowest - exponent).toNat + (exponent - (lowest - zeros)).toNat := by omega
      rw [if_neg (not_le.mpr higher)]
      generalize (exponent - (lowest - zeros)).toNat = drop at split ⊢
      rw [split, pow_add, ← mul_assoc, roundedCoeff_exact]

theorem quantize_widen (context : DecimalContext) (rounding : Rounding) (zeros : ℕ) {number : Decimal}
    (nonzero : number.coeff ≠ 0) (exponent : ℤ) :
    quantize context rounding (widen zeros number) exponent =
      quantize context rounding number exponent := by
  have positive : 0 < number.coeff := Nat.pos_of_ne_zero nonzero
  have some : number.isZero = false := by simp [isZero, nonzero]
  have wideSome : (widen zeros number).isZero = false := by simp [isZero, widen, nonzero]
  have adjusted : (widen zeros number).adjusted = number.adjusted := by
    simp only [Decimal.adjusted, widen, digitCount_mul_pow positive]
    push_cast
    ring
  unfold quantize
  rw [some, wideSome, adjusted, rescale_widen]
  rfl

/-- **Rounding to an exponent** reads the value only. -/
theorem quantize_alike (context : DecimalContext) (rounding : Rounding) {first second : Decimal}
    (same : SameValue first second) (exponent : ℤ) :
    Alike id SameValue (quantize context rounding first exponent)
      (quantize context rounding second exponent) := by
  by_cases zero : first.coeff = 0
  · have otherZero : second.coeff = 0 := toRat_eq_zero.mp (same ▸ toRat_eq_zero.mpr zero)
    unfold quantize
    simp only [isZero, zero, otherZero, decide_true, if_true]
    split
    · exact .error rfl
    · exact .ok (sameValue_of_zero rfl rfl)
  · have otherNonzero : second.coeff ≠ 0 := fun otherZero =>
      zero (toRat_eq_zero.mp (same.symm ▸ toRat_eq_zero.mpr otherZero))
    rcases le_total first.exponent second.exponent with below | above
    · rw [eq_widen_of_sameValue zero same below, quantize_widen _ _ _ otherNonzero]
      exact alike_self _
    · rw [eq_widen_of_sameValue otherNonzero same.symm above, quantize_widen _ _ _ zero]
      exact alike_self _

theorem toRat_quantize {context : DecimalContext} {rounding : Rounding} {number result : Decimal}
    {exponent : ℤ} (quantized : quantize context rounding number exponent = .ok result) :
    result.toRat = (rescale rounding number exponent).toRat := by
  unfold quantize at quantized
  split at quantized
  next => cases quantized
  next =>
    split at quantized
    next zero =>
      cases quantized
      have none : number.coeff = 0 := by simpa [isZero] using zero
      have zeroAfter : (rescale rounding number exponent).coeff = 0 := by
        unfold rescale
        split
        · simp [none]
        · simp [none, roundedCoeff_zero]
      rw [toRat_eq_zero.mpr rfl, toRat_eq_zero.mpr zeroAfter]
    next =>
      split at quantized
      next => cases quantized
      next =>
        dsimp only at quantized
        split at quantized
        next => cases quantized
        next =>
          cases quantized
          rfl

end Decimal
