import CryptoRadar.Lib.DecimalRounded
import CryptoRadar.Lib.Timedelta
import Mathlib.Data.Int.Log

/-!
# Correct rounding

The half-even rounding of a rational number to the digits of a context (`nearest`), without any decimal: a
whole number of units of the last digit that the context keeps.

Every operation of a half-even context computes the rounding of the exact result, once: a fitted number
(`fit_toRat`), a difference (`sub_toRat_nearest`) and a quotient (`div_toRat_nearest`). For a quotient this
needs that the mark which a remainder leaves in the digits decides ties as the exact quotient does
(`roundHalfEven_marked`).

That a number is the rounding of another is said without computing it by `IsNearest` (`isNearest_iff`).
-/

set_option autoImplicit false

/-- Halfway between two whole numbers the even one is taken. -/
theorem even_roundHalfEven {number : ℚ} (halfway : 2 * |number - roundHalfEven number| = 1) :
    Even (roundHalfEven number) := by
  have floor := Int.floor_le number
  have ceiling := Int.lt_floor_add_one number
  unfold roundHalfEven at halfway ⊢
  simp only at halfway ⊢
  split at halfway
  next down =>
    rw [if_pos down]
    rw [abs_of_nonneg (by linarith)] at halfway
    rcases down with less | ⟨_, even⟩
    · exact absurd halfway (by linarith)
    · exact Int.even_iff.mpr even
  next up =>
    rw [if_neg up]
    push_cast at halfway
    rw [abs_of_nonpos (by linarith)] at halfway
    have odd : ⌊number⌋ % 2 ≠ 0 := fun even => up (.inr ⟨by linarith, even⟩)
    rw [Int.even_iff]
    omega

/-- The half-even rounding is the whole number that is nearest; of two that are as near, the even one. -/
theorem roundHalfEven_eq_iff {number : ℚ} {count : ℤ} :
    roundHalfEven number = count ↔
      2 * |number - count| ≤ 1 ∧ (2 * |number - count| = 1 → Even count) := by
  have near := abs_roundHalfEven_sub_le number
  rw [abs_sub_comm] at near
  constructor
  · rintro rfl
    exact ⟨by linarith, even_roundHalfEven⟩
  · rintro ⟨close, even⟩
    by_contra different
    have apart : (1 : ℚ) ≤ |(roundHalfEven number : ℚ) - count| := by
      exact_mod_cast Int.one_le_abs (sub_ne_zero.mpr different)
    have between : |(roundHalfEven number : ℚ) - count| ≤
        |number - roundHalfEven number| + |number - count| := by
      rw [← abs_sub_comm (roundHalfEven number : ℚ) number]
      exact abs_sub_le _ _ _
    -- both are halfway, so both are even, and they are one apart
    have halfway : 2 * |number - count| = 1 := by linarith
    have alsoHalfway : 2 * |number - roundHalfEven number| = 1 := by linarith
    have one : |(roundHalfEven number : ℚ) - count| = 1 := by linarith
    have oneInt : |roundHalfEven number - count| = 1 := by exact_mod_cast one
    obtain ⟨first, isFirst⟩ := even_roundHalfEven alsoHalfway
    obtain ⟨second, isSecond⟩ := even halfway
    rcases abs_cases (roundHalfEven number - count) with ⟨isAbs, _⟩ | ⟨isAbs, _⟩ <;> omega

theorem roundHalfEven_scaled {number unit : ℚ} (positive : 0 < unit) {count : ℤ} :
    roundHalfEven (number / unit) = count ↔
      2 * |number - count * unit| ≤ unit ∧ (2 * |number - count * unit| = unit → Even count) := by
  have scaled : 2 * |number - count * unit| = 2 * |number / unit - count| * unit := by
    have split : number - count * unit = (number / unit - count) * unit := by
      rw [sub_mul, div_mul_cancel₀ _ positive.ne']
    rw [split, abs_mul, abs_of_pos positive, mul_assoc]
  rw [roundHalfEven_eq_iff, scaled, mul_le_iff_le_one_left positive, mul_eq_right₀ positive.ne']

namespace Decimal

/-- The power of ten of the last digit that is kept. -/
def place (context : DecimalContext) (size : ℚ) : ℤ :=
  max (Int.log 10 size + 1 - context.precision) context.etiny

def nearestSize (context : DecimalContext) (size : ℚ) : ℚ :=
  roundHalfEven (size / 10 ^ place context size) * 10 ^ place context size

/-- A number rounded to the digits of a context. -/
def nearest (context : DecimalContext) (value : ℚ) : ℚ :=
  if value < 0 then -nearestSize context (-value) else nearestSize context value

variable {context : DecimalContext}

@[simp] theorem nearestSize_zero (context : DecimalContext) : nearestSize context 0 = 0 := by
  have zero := roundHalfEven_intCast 0
  rw [Int.cast_zero] at zero
  simp [nearestSize, zero]

/-- A signed size is rounded by its size. -/
theorem nearest_signed {size : ℚ} (nonneg : 0 ≤ size) (negative : Bool) :
    nearest context (if negative then -size else size) =
      if negative then -nearestSize context size else nearestSize context size := by
  cases negative with
  | false => simp [nearest, not_lt.mpr nonneg]
  | true =>
      rcases nonneg.eq_or_lt with rfl | positive
      · simp [nearest]
      · simp [nearest, positive]

/-! ## The leading digit -/

theorem log_eq_of_bracket {size : ℚ} {exponent : ℤ} (least : (10 : ℚ) ^ exponent ≤ size)
    (most : size < 10 ^ (exponent + 1)) : Int.log 10 size = exponent := by
  have positive : 0 < size := lt_of_lt_of_le (by positivity) least
  have atLeast := (Int.zpow_le_iff_le_log (b := 10) (by norm_num) positive).mp (by exact_mod_cast least)
  have atMost := (Int.lt_zpow_iff_log_lt (b := 10) (by norm_num) positive).mp (by exact_mod_cast most)
  omega

/-- A number between a coefficient and the next power of ten has the leading digit of the
coefficient. -/
theorem log_of_digits {coeff : ℕ} (size : ℚ) (exponent : ℤ) (some : 0 < coeff)
    (least : (coeff : ℚ) ≤ size) (most : size < 10 ^ digitCount coeff) :
    Int.log 10 (size * 10 ^ exponent) = digitCount coeff + exponent - 1 := by
  have unit : (0 : ℚ) < 10 ^ exponent := by positivity
  have counted : 0 < digitCount coeff := Nat.length_toDigits_pos
  refine log_eq_of_bracket ?_ ?_
  · have first : (10 : ℚ) ^ (digitCount coeff - 1) ≤ coeff := by
      exact_mod_cast pow_le_of_digitCount some
    have split : (10 : ℚ) ^ ((digitCount coeff : ℤ) + exponent - 1) =
        10 ^ (digitCount coeff - 1) * 10 ^ exponent := by
      rw [← zpow_natCast, ← zpow_add₀ (by norm_num)]
      congr 1
      omega
    rw [split]
    exact mul_le_mul_of_nonneg_right (first.trans least) unit.le
  · have split : (10 : ℚ) ^ ((digitCount coeff : ℤ) + exponent - 1 + 1) =
        10 ^ digitCount coeff * 10 ^ exponent := by
      rw [← zpow_natCast, ← zpow_add₀ (by norm_num)]
      congr 1
      omega
    rw [split]
    exact mul_lt_mul_of_pos_right most unit

theorem place_magnitude {number : Decimal} (nonzero : number.coeff ≠ 0) :
    place context number.magnitude = lowestExponent context number := by
  have most : (number.coeff : ℚ) < 10 ^ digitCount number.coeff := by
    exact_mod_cast lt_pow_digitCount number.coeff
  unfold place lowestExponent magnitude
  rw [log_of_digits number.coeff number.exponent (Nat.pos_of_ne_zero nonzero) le_rfl most]
  congr 1
  ring

/-! ## Whole numbers -/

/-- Half-even rounding by the quotient and a remainder that may have a fraction. -/
theorem roundHalfEven_div (quotient : ℕ) {unit : ℕ} {rest : ℚ} (nonneg : 0 ≤ rest) (below : rest < unit) :
    roundHalfEven ((quotient * unit + rest) / unit) =
      if 2 * rest < unit ∨ (2 * rest = unit ∧ quotient % 2 = 0) then (quotient : ℤ) else quotient + 1 := by
  have positive : (0 : ℚ) < unit := nonneg.trans_lt below
  have split : (quotient * unit + rest) / unit = (quotient : ℚ) + rest / unit := by
    rw [add_div, mul_div_cancel_right₀ _ positive.ne']
  have part : rest / unit < 1 := (div_lt_one positive).mpr below
  have isFloor : ⌊(quotient : ℚ) + rest / unit⌋ = (quotient : ℤ) := by
    rw [Int.floor_eq_iff]
    have above : 0 ≤ rest / unit := div_nonneg nonneg positive.le
    push_cast
    constructor <;> linarith
  have less : rest / unit < 1 / 2 ↔ 2 * rest < unit := by
    rw [div_lt_div_iff₀ positive (by norm_num)]
    constructor <;> intro less <;> linarith
  have tie : rest / unit = 1 / 2 ↔ 2 * rest = unit := by
    rw [div_eq_div_iff positive.ne' (by norm_num)]
    constructor <;> intro equal <;> linarith
  have even : ((quotient : ℤ) % 2 = 0) ↔ quotient % 2 = 0 := by omega
  unfold roundHalfEven
  rw [split, isFloor]
  simp only [Int.cast_natCast, add_sub_cancel_left, less, tie, even]

/-- The rounding of a coefficient is that of its exact quotient. -/
theorem roundHalfEven_roundedCoeff (negative : Bool) (coeff drop : ℕ) :
    roundHalfEven ((coeff : ℚ) / 10 ^ drop) = roundedCoeff .halfEven negative coeff drop := by
  have unit : 0 < 10 ^ drop := by positivity
  have parts := Nat.div_add_mod' coeff (10 ^ drop)
  have below : ((coeff % 10 ^ drop : ℕ) : ℚ) < (10 ^ drop : ℕ) := by
    exact_mod_cast Nat.mod_lt coeff unit
  have rounded := roundHalfEven_div (coeff / 10 ^ drop) (Nat.cast_nonneg _) below
  have whole : ((coeff / 10 ^ drop : ℕ) * (10 ^ drop : ℕ) + (coeff % 10 ^ drop : ℕ) : ℚ) = coeff := by
    exact_mod_cast parts
  rw [whole, Nat.cast_pow, Nat.cast_ofNat] at rounded
  rw [rounded]
  simp only [roundedCoeff, Rounding.roundsUp, Bool.or_eq_true, Bool.and_eq_true, decide_eq_true_eq]
  generalize coeff / 10 ^ drop = quotient
  generalize coeff % 10 ^ drop = remainder
  have less : 2 * (remainder : ℚ) < 10 ^ drop ↔ 2 * remainder < 10 ^ drop := by exact_mod_cast Iff.rfl
  have tie : 2 * (remainder : ℚ) = 10 ^ drop ↔ 2 * remainder = 10 ^ drop := by exact_mod_cast Iff.rfl
  simp only [less, tie]
  generalize 10 ^ drop = unit
  split_ifs <;> omega

/-- **A mark decides as the fraction does**: with at least one digit to drop, a remainder may be left out
when the digits that have one are marked by an addition to a last digit `0` or `5`. -/
theorem roundHalfEven_marked (coeff : ℕ) {drop : ℕ} {fraction : ℚ} (drops : 0 < drop) (positive : 0 < fraction)
    (less : fraction < 1) :
    roundHalfEven ((coeff + fraction) / 10 ^ drop) =
      roundHalfEven (((if coeff % 5 = 0 then coeff + 1 else coeff : ℕ) : ℚ) / 10 ^ drop) := by
  obtain ⟨tenth, isTenth⟩ : ∃ tenth : ℕ, 10 ^ drop = 10 * tenth :=
    ⟨10 ^ (drop - 1), by rw [← pow_succ', Nat.sub_add_cancel drops]⟩
  have unitRat : (10 : ℚ) ^ drop = (10 * tenth : ℕ) := by exact_mod_cast isTenth
  have unit : 0 < 10 * tenth := by
    rw [← isTenth]
    positivity
  rw [unitRat]
  have parts := Nat.div_add_mod' coeff (10 * tenth)
  have below := Nat.mod_lt coeff unit
  generalize coeff / (10 * tenth) = quotient at parts
  generalize coeff % (10 * tenth) = remainder at parts below
  obtain ⟨marked, isMarked⟩ : ∃ marked : ℕ,
      marked = if remainder % 5 = 0 then remainder + 1 else remainder := ⟨_, rfl⟩
  have whole : (if coeff % 5 = 0 then coeff + 1 else coeff) = quotient * (10 * tenth) + marked := by
    rw [isMarked]
    have fives : quotient * (10 * tenth) = 5 * (quotient * 2 * tenth) := by ring
    split_ifs <;> omega
  have markedBelow : marked < 10 * tenth := by
    rw [isMarked]
    split_ifs <;> omega
  have notTie : ¬ 2 * marked = 10 * tenth := by
    rw [isMarked]
    split_ifs <;> omega
  have aside : 2 * marked < 10 * tenth ↔ 2 * remainder + 1 < 10 * tenth := by
    rw [isMarked]
    split_ifs <;> omega
  have exactLess : 2 * ((remainder : ℚ) + fraction) < (10 * tenth : ℕ) ↔
      2 * remainder + 1 < 10 * tenth := by
    constructor
    · intro few
      by_contra many
      have least : (10 * tenth : ℕ) ≤ 2 * remainder := by omega
      have leastRat : ((10 * tenth : ℕ) : ℚ) ≤ 2 * remainder := by exact_mod_cast least
      linarith
    · intro few
      have most : 2 * remainder + 2 ≤ 10 * tenth := by omega
      have mostRat : 2 * (remainder : ℚ) + 2 ≤ (10 * tenth : ℕ) := by exact_mod_cast most
      linarith
  have exactNotTie : ¬ 2 * ((remainder : ℚ) + fraction) = (10 * tenth : ℕ) := by
    intro equal
    rcases le_or_gt (10 * tenth) (2 * remainder) with least | more
    · have leastRat : ((10 * tenth : ℕ) : ℚ) ≤ 2 * remainder := by exact_mod_cast least
      linarith
    · have most : 2 * remainder + 2 ≤ 10 * tenth := by omega
      have mostRat : 2 * (remainder : ℚ) + 2 ≤ (10 * tenth : ℕ) := by exact_mod_cast most
      linarith
  have left : (coeff : ℚ) + fraction = quotient * (10 * tenth : ℕ) + (remainder + fraction) := by
    have partsRat : (quotient : ℚ) * (10 * tenth : ℕ) + remainder = coeff := by exact_mod_cast parts
    rw [← partsRat]
    ring
  have remainderBelow : (remainder : ℚ) + fraction < (10 * tenth : ℕ) := by
    have next : (remainder : ℚ) + 1 ≤ (10 * tenth : ℕ) := by exact_mod_cast below
    linarith
  have remainderNonneg : (0 : ℚ) ≤ remainder + fraction := by positivity
  rw [whole, left, roundHalfEven_div quotient remainderNonneg remainderBelow]
  push_cast
  have markedRat : (marked : ℚ) < (10 * tenth : ℕ) := by exact_mod_cast markedBelow
  have right := roundHalfEven_div quotient (Nat.cast_nonneg marked) markedRat
  push_cast at right exactLess exactNotTie
  rw [right]
  have markedLess : 2 * (marked : ℚ) < 10 * tenth ↔ 2 * marked < 10 * tenth := by
    exact_mod_cast Iff.rfl
  have markedTie : 2 * (marked : ℚ) = 10 * tenth ↔ 2 * marked = 10 * tenth := by
    exact_mod_cast Iff.rfl
  simp only [exactLess, exactNotTie, markedLess, markedTie, notTie, aside, false_and, or_false]

/-! ## The operations of a half-even context -/

theorem nearestSize_of_multiple {size : ℚ} (count : ℤ) (whole : size = count * 10 ^ place context size) :
    nearestSize context size = size := by
  have unit : (10 : ℚ) ^ place context size ≠ 0 := by positivity
  have quotient : size / 10 ^ place context size = count := by
    rw [div_eq_iff unit]
    exact whole
  rw [nearestSize, quotient, roundHalfEven_intCast, ← whole]

/-- A number with digits to drop is rounded by its coefficient. -/
theorem nearestSize_rounds (halfEven : context.rounding = .halfEven) {number : Decimal}
    (nonzero : number.coeff ≠ 0) (rounds : number.exponent < lowestExponent context number) :
    nearestSize context number.magnitude =
      roundedCoeff context.rounding number.negative number.coeff
        (lowestExponent context number - number.exponent).toNat * 10 ^ lowestExponent context number := by
  have quotient : number.magnitude / 10 ^ lowestExponent context number =
      number.coeff / 10 ^ (lowestExponent context number - number.exponent).toNat := by
    have split : (10 : ℚ) ^ lowestExponent context number =
        10 ^ (lowestExponent context number - number.exponent).toNat * 10 ^ number.exponent := by
      rw [← zpow_natCast, Int.toNat_of_nonneg (by omega), ← zpow_add₀ (by norm_num), sub_add_cancel]
    rw [split, magnitude, mul_div_mul_right _ _ (by positivity)]
  rw [nearestSize, place_magnitude nonzero, quotient, roundHalfEven_roundedCoeff number.negative,
    halfEven]
  rfl

/-- A number without digits to drop is not rounded. -/
theorem nearestSize_stays {number : Decimal} (nonzero : number.coeff ≠ 0)
    (stays : lowestExponent context number ≤ number.exponent) :
    nearestSize context number.magnitude = number.magnitude := by
  refine nearestSize_of_multiple
    (number.coeff * 10 ^ (number.exponent - lowestExponent context number).toNat) ?_
  rw [place_magnitude nonzero]
  push_cast
  rw [← zpow_natCast, Int.toNat_of_nonneg (by omega), mul_assoc, ← zpow_add₀ (by norm_num),
    sub_add_cancel]
  rfl

theorem nearest_toRat (number : Decimal) :
    nearest context number.toRat =
      if number.negative then -nearestSize context number.magnitude
      else nearestSize context number.magnitude :=
  nearest_signed (magnitude_nonneg number) number.negative

theorem fit_toRat (positive : 0 < context.precision) (halfEven : context.rounding = .halfEven)
    {number fitted : Decimal} (isFit : fit context number = .ok fitted) :
    fitted.toRat = nearest context number.toRat := by
  by_cases zero : number.coeff = 0
  · unfold fit at isFit
    rw [if_pos zero, Except.ok.injEq] at isFit
    subst isFit
    rw [toRat_eq_zero.mpr zero, toRat_eq_zero.mpr (by simpa using zero)]
    simp [nearest]
  obtain ⟨sign, held⟩ := fit_bracket positive zero isFit
  have sizes : fitted.magnitude = nearestSize context number.magnitude := by
    rcases held with ⟨stays, same⟩ | ⟨kept, rounds, isKept, value⟩
    · rw [same, nearestSize_stays zero stays]
    · rw [nearestSize_rounds halfEven zero rounds, value, isKept]
  rw [nearest_toRat, toRat, sign, sizes]

/-- A sum is the exact sum, rounded once. -/
theorem add_toRat_nearest (positive : 0 < context.precision) (halfEven : context.rounding = .halfEven)
    {first second result : Decimal} (isSum : add context first second = .ok result) :
    result.toRat = nearest context (first.toRat + second.toRat) := by
  obtain ⟨sum, isFit, value⟩ := add_eq_fit context first second
  rw [fit_toRat positive halfEven (isFit.symm.trans isSum), value]

/-- A difference is the exact difference, rounded once. -/
theorem sub_toRat_nearest (positive : 0 < context.precision) (halfEven : context.rounding = .halfEven)
    {first second result : Decimal} (isDifference : sub context first second = .ok result) :
    result.toRat = nearest context (first.toRat - second.toRat) := by
  rw [add_toRat_nearest positive halfEven isDifference, toRat_copyNegate, sub_eq_add_neg]

/-- The digits of a quotient round as the exact quotient does. -/
theorem nearestSize_quotient (positive : 0 < context.precision) {first second : Decimal}
    (dividend : first.coeff ≠ 0) (divisor : second.coeff ≠ 0) :
    nearestSize context (((quotient context first second).1 : ℚ) *
        10 ^ (quotient context first second).2) =
      nearestSize context (first.magnitude / second.magnitude) := by
  obtain ⟨number, part, exponent, partPos, digits, exactly, whole | ⟨rest, marked⟩⟩ :=
    quotient_digits context dividend divisor
  · obtain ⟨divides, value⟩ := whole
    have nonzero : (part : ℚ) ≠ 0 := by exact_mod_cast partPos.ne'
    rw [value, exactly, Nat.cast_div (Nat.dvd_of_mod_eq_zero divides) nonzero]
  have partRat : (0 : ℚ) < part := by exact_mod_cast partPos
  have unit : (10 : ℚ) ^ exponent ≠ 0 := by positivity
  have enough : 10 ^ context.precision ≤ number / part := (Nat.le_div_iff_mul_le partPos).mpr digits
  have division := Nat.div_add_mod' number part
  have below := Nat.mod_lt number partPos
  obtain ⟨coeff, isCoeff⟩ : ∃ coeff, coeff = number / part := ⟨_, rfl⟩
  obtain ⟨fraction, isFraction⟩ : ∃ fraction : ℚ, fraction = (number % part : ℕ) / part := ⟨_, rfl⟩
  have fractionPos : 0 < fraction := by
    have some : (0 : ℚ) < (number % part : ℕ) := by exact_mod_cast Nat.pos_of_ne_zero rest
    rw [isFraction]
    exact div_pos some partRat
  have fractionLess : fraction < 1 := by
    rw [isFraction, div_lt_one partRat]
    exact_mod_cast below
  have parts : (number : ℚ) / part = coeff + fraction := by
    have divisionRat : (coeff : ℚ) * part + (number % part : ℕ) = number := by
      rw [isCoeff]
      exact_mod_cast division
    rw [isFraction, ← divisionRat, add_div, mul_div_cancel_right₀ _ partRat.ne']
  rw [marked, exactly, parts, ← isCoeff]
  rw [← isCoeff] at enough
  dsimp only
  have coeffPos : 0 < coeff := lt_of_lt_of_le (by positivity) enough
  have counted : context.precision < digitCount coeff := by
    have most := lt_pow_digitCount coeff
    exact (Nat.pow_lt_pow_iff_right (by norm_num : 1 < 10)).mp (enough.trans_lt most)
  obtain ⟨mark, isMark⟩ : ∃ mark : ℕ, mark = if coeff % 5 = 0 then coeff + 1 else coeff := ⟨_, rfl⟩
  rw [← isMark]
  -- neither the fraction nor the mark reaches the next power of ten
  have most : coeff + 1 ≤ 10 ^ digitCount coeff := lt_pow_digitCount coeff
  have tens : 10 ^ digitCount coeff = 5 * (2 * 10 ^ (digitCount coeff - 1)) := by
    have split : 10 ^ digitCount coeff = 10 ^ (digitCount coeff - 1) * 10 := by
      rw [← pow_succ, Nat.sub_add_cancel (by omega)]
    omega
  have markLeast : coeff ≤ mark := by
    rw [isMark]
    split_ifs <;> omega
  have markMost : mark < 10 ^ digitCount coeff := by
    rw [isMark]
    split_ifs <;> omega
  have mostRat : (coeff : ℚ) + 1 ≤ 10 ^ digitCount coeff := by exact_mod_cast most
  have logFraction := log_of_digits ((coeff : ℚ) + fraction) exponent coeffPos
    (by linarith) (by linarith)
  have logMark := log_of_digits (mark : ℚ) exponent coeffPos
    (by exact_mod_cast markLeast) (by exact_mod_cast markMost)
  have samePlace : place context ((mark : ℚ) * 10 ^ exponent) =
      place context (((coeff : ℚ) + fraction) * 10 ^ exponent) := by
    rw [place, place, logMark, logFraction]
  rw [nearestSize, nearestSize, samePlace]
  have drops : exponent < place context (((coeff : ℚ) + fraction) * 10 ^ exponent) := by
    refine lt_of_lt_of_le ?_ (le_max_left _ _)
    rw [logFraction]
    omega
  generalize place context (((coeff : ℚ) + fraction) * 10 ^ exponent) = lowest at drops
  have scale (size : ℚ) : size * 10 ^ exponent / 10 ^ lowest = size / 10 ^ (lowest - exponent).toNat := by
    have split : (10 : ℚ) ^ lowest = 10 ^ (lowest - exponent).toNat * 10 ^ exponent := by
      rw [← zpow_natCast, Int.toNat_of_nonneg (by omega), ← zpow_add₀ (by norm_num), sub_add_cancel]
    rw [split, mul_div_mul_right _ _ unit]
  have some : 0 < (lowest - exponent).toNat := by omega
  have decided := roundHalfEven_marked coeff some fractionPos fractionLess
  rw [scale, scale, decided, isMark]

/-- A quotient is the exact quotient, rounded once. -/
theorem div_toRat_nearest (positive : 0 < context.precision) (halfEven : context.rounding = .halfEven)
    {first second result : Decimal} (isQuotient : div context first second = .ok result) :
    result.toRat = nearest context (first.toRat / second.toRat) := by
  have divisor : second.coeff ≠ 0 := by
    intro zero
    have isZero : second.isZero = true := by simpa [isZero] using zero
    unfold div at isQuotient
    rw [if_pos isZero] at isQuotient
    split at isQuotient <;> cases isQuotient
  have divisorIs : second.isZero = false := by simpa [isZero] using divisor
  by_cases dividend : first.coeff = 0
  · have isZero : first.isZero = true := by simpa [isZero] using dividend
    unfold div at isQuotient
    simp only [divisorIs, isZero, Bool.false_eq_true, if_false, if_true] at isQuotient
    rw [fit_toRat positive halfEven isQuotient, toRat_eq_zero.mpr dividend, toRat_eq_zero.mpr rfl, zero_div]
  · rw [div_eq_fit context (by simpa [isZero] using dividend) divisorIs] at isQuotient
    have size : 0 ≤ first.magnitude / second.magnitude :=
      div_nonneg (magnitude_nonneg _) (magnitude_nonneg _)
    have signed : first.toRat / second.toRat = if (first.negative != second.negative) = true then
        -(first.magnitude / second.magnitude) else first.magnitude / second.magnitude := by
      unfold toRat
      cases first.negative <;> cases second.negative <;> simp [neg_div, div_neg]
    rw [fit_toRat positive halfEven isQuotient, signed, nearest_signed size, toRat,
      nearest_signed (magnitude_nonneg _)]
    have same : nearestSize context (magnitude ⟨first.negative != second.negative,
        (quotient context first second).1, (quotient context first second).2⟩) =
          nearestSize context (first.magnitude / second.magnitude) :=
      nearestSize_quotient positive dividend divisor
    rw [same]

/-! ## The nearest number -/

/-- `written` is the number with the digits of the context that is nearest to the value: a whole number of
units of the last place that the context keeps of the value; of two that are as near, the even one. -/
def IsNearest (context : DecimalContext) (value written : ℚ) : Prop :=
  ∃ last count : ℤ, context.etiny ≤ last ∧ |value| < 10 ^ (last + context.precision) ∧
    (last = context.etiny ∨ (10 : ℚ) ^ (last + context.precision - 1) ≤ |value|) ∧
    written = count * 10 ^ last ∧ 2 * |value - written| ≤ 10 ^ last ∧
    (2 * |value - written| = 10 ^ last → Even count)

theorem IsNearest.neg {value written : ℚ} (near : IsNearest context value written) :
    IsNearest context (-value) (-written) := by
  obtain ⟨last, count, least, below, leading, rfl, close, even⟩ := near
  have apart : |-value - -(count * 10 ^ last : ℚ)| = |value - count * 10 ^ last| := by
    rw [← abs_neg]
    ring_nf
  exact ⟨last, -count, least, by rwa [abs_neg], by rwa [abs_neg], by push_cast; ring, by rwa [apart],
    by rw [apart, even_neg]; exact even⟩

/-- The last place that is kept of a positive number. -/
theorem place_eq_iff {size : ℚ} (positive : 0 < size) {last : ℤ} :
    place context size = last ↔ context.etiny ≤ last ∧ size < 10 ^ (last + context.precision) ∧
      (last = context.etiny ∨ (10 : ℚ) ^ (last + context.precision - 1) ≤ size) := by
  have below : size < 10 ^ (last + context.precision) ↔ Int.log 10 size < last + context.precision := by
    exact_mod_cast Int.lt_zpow_iff_log_lt (b := 10) (by norm_num) positive
  have reached : (10 : ℚ) ^ (last + context.precision - 1) ≤ size ↔
      last + context.precision - 1 ≤ Int.log 10 size := by
    exact_mod_cast Int.zpow_le_iff_le_log (b := 10) (by norm_num) positive
  rw [below, reached, place]
  omega

theorem isNearest_size {size written : ℚ} (nonneg : 0 ≤ size) :
    IsNearest context size written ↔ written = nearestSize context size := by
  rcases nonneg.eq_or_lt with rfl | positive
  · rw [nearestSize_zero]
    constructor
    · rintro ⟨last, count, -, -, -, rfl, close, even⟩
      have rounded : roundHalfEven (0 / 10 ^ last) = count :=
        (roundHalfEven_scaled (by positivity)).mpr ⟨close, even⟩
      have zero := roundHalfEven_intCast 0
      rw [zero_div] at rounded
      rw [Int.cast_zero, rounded] at zero
      rw [zero, Int.cast_zero, zero_mul]
    · rintro rfl
      refine ⟨context.etiny, 0, le_rfl, ?_, .inl rfl, by simp, ?_, fun _ => Even.zero⟩
      · rw [abs_zero]
        positivity
      · rw [sub_zero, abs_zero, mul_zero]
        positivity
  · have unit (last : ℤ) : (0 : ℚ) < 10 ^ last := by positivity
    unfold IsNearest nearestSize
    rw [abs_of_pos positive]
    constructor
    · rintro ⟨last, count, least, below, leading, rfl, close, even⟩
      rw [(place_eq_iff positive).mpr ⟨least, below, leading⟩, (roundHalfEven_scaled (unit last)).mpr ⟨close, even⟩]
    · rintro rfl
      obtain ⟨least, below, leading⟩ : context.etiny ≤ place context size ∧ _ := (place_eq_iff positive).mp rfl
      obtain ⟨close, even⟩ : 2 * |size - roundHalfEven (size / 10 ^ place context size) *
          10 ^ place context size| ≤ 10 ^ place context size ∧ _ :=
        (roundHalfEven_scaled (unit (place context size))).mp rfl
      exact ⟨_, _, least, below, leading, rfl, close, even⟩

/-- The rounding of a context is the nearest number. -/
theorem isNearest_iff {value written : ℚ} :
    IsNearest context value written ↔ written = nearest context value := by
  unfold nearest
  split
  next negative =>
    have size : IsNearest context (-value) (-written) ↔ _ := isNearest_size (by linarith)
    constructor
    · intro near
      rw [← size.mp near.neg, neg_neg]
    · rintro rfl
      have near : IsNearest context (-value) (nearestSize context (-value)) :=
        (isNearest_size (by linarith)).mpr rfl
      simpa using near.neg
  next positive => exact isNearest_size (not_lt.mp positive)

end Decimal
