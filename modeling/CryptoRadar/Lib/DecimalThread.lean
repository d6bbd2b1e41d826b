import CryptoRadar.Lib.DecimalRounded

/-!
# Operations in the context of a thread

`-number` is made in the context that the thread has set, whatever that is: any precision and exponents,
any of the eight roundings, and exponents that may be clamped. A trap of another signal than an overflow is
left out: where it is set and signalled, the operation raises instead of returning what it returns here.

The result is the negated number exactly where the context holds that number (`neg_exact_iff`): as a whole
number of at most `precision` digits times a power of ten within its exponents (`Holds`). So is a sum in the
context of a thread that has set none (`add_default_exact_iff`).
-/

set_option autoImplicit false

/-- The roundings of `decimal`. -/
inductive ThreadRounding where
  | up
  | down
  | ceiling
  | floor
  | halfUp
  | halfDown
  | halfEven
  | zeroFiveUp
  deriving DecidableEq, Repr

/-- Round the size up at a quotient of a division by `unit` with this remainder. -/
def ThreadRounding.roundsUp (rounding : ThreadRounding) (negative : Bool)
    (quotient remainder unit : ℕ) : Bool :=
  match rounding with
  | .up => remainder ≠ 0
  | .down => false
  | .ceiling => !negative && remainder ≠ 0
  | .floor => negative && remainder ≠ 0
  | .halfUp => remainder ≠ 0 && unit ≤ 2 * remainder
  | .halfDown => unit < 2 * remainder
  | .halfEven => unit < 2 * remainder || (2 * remainder = unit && quotient % 2 = 1)
  | .zeroFiveUp => remainder ≠ 0 && quotient % 5 = 0

structure ThreadContext where
  precision : ℕ
  rounding : ThreadRounding
  emin : ℤ
  emax : ℤ
  clamp : Bool
  trapsOverflow : Bool
  positive : 0 < precision
  eminNonpos : emin ≤ 0
  emaxNonneg : 0 ≤ emax

namespace ThreadContext

/-- The context of a thread that has set none. -/
def default : ThreadContext where
  precision := 28
  rounding := .halfEven
  emin := -999999
  emax := 999999
  clamp := false
  trapsOverflow := true
  positive := by decide
  eminNonpos := by decide
  emaxNonneg := by decide

variable (context : ThreadContext)

/-- The least exponent of a result. -/
def etiny : ℤ := context.emin - context.precision + 1

/-- The greatest exponent of a result with all digits in use. -/
def etop : ℤ := context.emax - context.precision + 1

/-- A result that is too large: `none` is an infinity. -/
def overflowed (negative : Bool) : Except DecimalError (Option Decimal) :=
  let largest : Decimal := ⟨negative, 10 ^ context.precision - 1, context.etop⟩
  if context.trapsOverflow then .error .overflow
  else
    match context.rounding with
    | .up | .halfUp | .halfDown | .halfEven => .ok none
    | .down | .zeroFiveUp => .ok (some largest)
    | .ceiling => .ok (if negative then some largest else none)
    | .floor => .ok (if negative then none else some largest)

/-- A clamped exponent is lowered with zeros. -/
def folded (number : Decimal) : Decimal :=
  if context.clamp && context.etop < number.exponent then
    ⟨number.negative, number.coeff * 10 ^ (number.exponent - context.etop).toNat, context.etop⟩
  else number

def roundedCoeff (negative : Bool) (coeff drop : ℕ) : ℕ :=
  let unit := 10 ^ drop
  if context.rounding.roundsUp negative (coeff / unit) (coeff % unit) unit then coeff / unit + 1
  else coeff / unit

def roundTo (number : Decimal) (exponent : ℤ) : Except DecimalError (Option Decimal) :=
  let drop := (exponent - number.exponent).toNat
  let coeff := context.roundedCoeff number.negative number.coeff drop
  let carried := context.precision < digitCount coeff
  let coeff := if carried then coeff / 10 else coeff
  let exponent := if carried then exponent + 1 else exponent
  if context.etop < exponent then context.overflowed number.negative
  else .ok (some ⟨number.negative, coeff, exponent⟩)

/-- The exact result fitted to the context. -/
def fit (number : Decimal) : Except DecimalError (Option Decimal) :=
  if number.coeff = 0 then
    .ok (some { number with
      exponent := min (max number.exponent context.etiny)
        (if context.clamp then context.etop else context.emax) })
  else
    let lowest := digitCount number.coeff + number.exponent - context.precision
    if context.etop < lowest then context.overflowed number.negative
    else
      let lowest := max lowest context.etiny
      if number.exponent < lowest then context.roundTo number lowest
      else .ok (some (context.folded number))

/-- `-number`. -/
def neg (number : Decimal) : Except DecimalError (Option Decimal) :=
  if number.isZero && context.rounding ≠ .floor then context.fit { number with negative := false }
  else context.fit number.copyNegate

/-- The value is a number of the context. -/
def Holds (value : ℚ) : Prop :=
  ∃ count exponent : ℤ, value = count * 10 ^ exponent ∧ |count| < 10 ^ context.precision ∧
    context.etiny ≤ exponent ∧ exponent ≤ context.etop

variable {context}

theorem etiny_le_etop : context.etiny ≤ context.etop := by
  have low := context.eminNonpos
  have high := context.emaxNonneg
  unfold etiny etop
  omega

theorem Holds.neg {value : ℚ} (holds : context.Holds value) : context.Holds (-value) := by
  obtain ⟨count, exponent, rfl, few, least, most⟩ := holds
  exact ⟨-count, exponent, by push_cast; ring, by rwa [abs_neg], least, most⟩

theorem holds_zero : context.Holds 0 :=
  ⟨0, context.etop, by simp, by simp, etiny_le_etop, le_rfl⟩

/-- A number of few digits within the exponents, however its zeros are written. -/
theorem holds_mk (negative : Bool) {coeff : ℕ} {exponent : ℤ} (few : coeff < 10 ^ context.precision)
    (least : context.etiny ≤ exponent) (most : exponent ≤ context.etop) :
    context.Holds (Decimal.toRat ⟨negative, coeff, exponent⟩) := by
  refine ⟨if negative then -coeff else coeff, exponent, ?_, ?_, least, most⟩
  · unfold Decimal.toRat Decimal.magnitude
    cases negative <;> simp
  · have fewInt : (coeff : ℤ) < 10 ^ context.precision := by exact_mod_cast few
    cases negative <;> simpa using fewInt

theorem toRat_folded (number : Decimal) : (context.folded number).toRat = number.toRat := by
  unfold folded
  split
  next clamped =>
    have above : context.etop < number.exponent := by
      simp only [Bool.and_eq_true, decide_eq_true_eq] at clamped
      exact clamped.2
    have same : ((number.coeff * 10 ^ (number.exponent - context.etop).toNat : ℕ) : ℚ) *
        10 ^ context.etop = number.coeff * 10 ^ number.exponent := by
      push_cast
      rw [mul_assoc, ← zpow_natCast, Int.toNat_of_nonneg (by omega), ← zpow_add₀ (by norm_num),
        sub_add_cancel]
    unfold Decimal.toRat Decimal.magnitude
    rw [same]
  next => rfl

theorem roundedCoeff_cases (context : ThreadContext) (negative : Bool) (coeff drop : ℕ) :
    context.roundedCoeff negative coeff drop = coeff / 10 ^ drop ∨
      context.roundedCoeff negative coeff drop = coeff / 10 ^ drop + 1 := by
  unfold roundedCoeff
  simp only
  split
  · exact .inr rfl
  · exact .inl rfl

/-- Zeros are dropped without rounding. -/
theorem roundedCoeff_exact (negative : Bool) (coeff drop : ℕ) :
    context.roundedCoeff negative (coeff * 10 ^ drop) drop = coeff := by
  have unit : 0 < 10 ^ drop := by positivity
  have whole : coeff * 10 ^ drop % 10 ^ drop = 0 := Nat.mul_mod_left _ _
  have stays : context.rounding.roundsUp negative coeff 0 (10 ^ drop) = false := by
    unfold ThreadRounding.roundsUp
    cases context.rounding <;> simp [unit.ne]
  unfold roundedCoeff
  simp only [whole, Nat.mul_div_cancel _ unit, stays, Bool.false_eq_true, if_false]

/-! ## What a result is -/

theorem holds_overflowed {negative : Bool} {result : Decimal}
    (overflows : context.overflowed negative = .ok (some result)) : context.Holds result.toRat := by
  have largest : context.Holds (Decimal.toRat ⟨negative, 10 ^ context.precision - 1, context.etop⟩) :=
    holds_mk negative (Nat.sub_lt (by positivity) (by norm_num)) etiny_le_etop le_rfl
  unfold overflowed at overflows
  simp only at overflows
  split_ifs at overflows <;> split at overflows <;>
    simp only [Except.ok.injEq, Option.some.injEq, reduceCtorEq] at overflows <;>
    (subst overflows; exact largest)

/-- Digits that fit between the exponents are held, with some zeros added. -/
theorem holds_of_digits {number : Decimal}
    (few : digitCount number.coeff + number.exponent - context.precision ≤ context.etop)
    (least : context.etiny ≤ number.exponent) (short : digitCount number.coeff ≤ context.precision) :
    context.Holds number.toRat := by
  have below := Decimal.lt_pow_digitCount number.coeff
  rcases le_or_gt number.exponent context.etop with within | beyond
  · exact holds_mk number.negative (below.trans_le (Nat.pow_le_pow_right (by norm_num) short)) least within
  · have padded : number.coeff * 10 ^ (number.exponent - context.etop).toNat < 10 ^ context.precision := by
      calc number.coeff * 10 ^ (number.exponent - context.etop).toNat
          < 10 ^ digitCount number.coeff * 10 ^ (number.exponent - context.etop).toNat :=
            Nat.mul_lt_mul_of_pos_right below (by positivity)
        _ ≤ 10 ^ context.precision := by
            rw [← pow_add]
            exact Nat.pow_le_pow_right (by norm_num) (by omega)
    have held := holds_mk number.negative padded etiny_le_etop le_rfl
    have same : ((number.coeff * 10 ^ (number.exponent - context.etop).toNat : ℕ) : ℚ) *
        10 ^ context.etop = number.coeff * 10 ^ number.exponent := by
      push_cast
      rw [mul_assoc, ← zpow_natCast, Int.toNat_of_nonneg (by omega), ← zpow_add₀ (by norm_num),
        sub_add_cancel]
    rw [Decimal.toRat_mk_congr same] at held
    exact held

theorem holds_roundTo {number result : Decimal} {lowest : ℤ}
    (first : digitCount number.coeff + number.exponent - context.precision ≤ lowest)
    (least : context.etiny ≤ lowest) (rounds : number.exponent < lowest)
    (rounded : context.roundTo number lowest = .ok (some result)) : context.Holds result.toRat := by
  have quotient : number.coeff / 10 ^ (lowest - number.exponent).toNat < 10 ^ context.precision := by
    rw [Nat.div_lt_iff_lt_mul (by positivity), ← pow_add]
    exact (Decimal.lt_pow_digitCount number.coeff).trans_le
      (Nat.pow_le_pow_right (by norm_num) (by omega))
  have kept := roundedCoeff_cases context number.negative number.coeff
    (lowest - number.exponent).toNat
  unfold roundTo at rounded
  simp only at rounded
  generalize context.roundedCoeff number.negative number.coeff (lowest - number.exponent).toNat = coeff
    at rounded kept
  have most : coeff ≤ 10 ^ context.precision := by
    rcases kept with same | next <;> omega
  by_cases carried : context.precision < digitCount coeff
  · simp only [if_pos carried] at rounded
    split at rounded
    next => exact holds_overflowed rounded
    next inRange =>
      cases rounded
      have tenth : coeff / 10 < 10 ^ context.precision := by
        have some : 0 < 10 ^ context.precision := by positivity
        omega
      exact holds_mk number.negative tenth (by omega) (not_lt.mp inRange)
  · simp only [if_neg carried] at rounded
    split at rounded
    next => exact holds_overflowed rounded
    next inRange =>
      cases rounded
      have few : coeff < 10 ^ context.precision :=
        (Decimal.lt_pow_digitCount coeff).trans_le
          (Nat.pow_le_pow_right (by norm_num) (not_lt.mp carried))
      exact holds_mk number.negative few least (not_lt.mp inRange)

/-- Whatever is fitted, the result is held by the context. -/
theorem holds_fit {number result : Decimal} (isFit : context.fit number = .ok (some result)) :
    context.Holds result.toRat := by
  unfold fit at isFit
  by_cases zero : number.coeff = 0
  · rw [if_pos zero] at isFit
    cases isFit
    rw [Decimal.toRat_eq_zero.mpr (by simpa using zero)]
    exact holds_zero
  rw [if_neg zero] at isFit
  simp only at isFit
  split at isFit
  next => exact holds_overflowed isFit
  next inRange =>
    split at isFit
    next rounds => exact holds_roundTo (le_max_left _ _) (le_max_right _ _) rounds isFit
    next stays =>
      cases isFit
      rw [toRat_folded]
      have above := not_lt.mp stays
      rw [max_le_iff] at above
      exact holds_of_digits (not_lt.mp inRange) above.2 (by omega)

/-! ## What is held is not rounded -/

/-- The digits of a held number, which is not zero, lie within the context. -/
theorem digits_of_holds {number : Decimal} (nonzero : number.coeff ≠ 0)
    (holds : context.Holds number.toRat) :
    ∃ (coeff : ℕ) (exponent : ℤ), (number.coeff : ℚ) * 10 ^ number.exponent = coeff * 10 ^ exponent ∧
      context.etiny ≤ exponent ∧ exponent ≤ context.etop ∧
      digitCount number.coeff + number.exponent - context.precision ≤ exponent := by
  obtain ⟨count, exponent, value, few, least, most⟩ := holds
  have size : (number.coeff : ℚ) * 10 ^ number.exponent = count.natAbs * 10 ^ exponent := by
    have sizes := congrArg abs value
    have unit : (0 : ℚ) < 10 ^ exponent := by positivity
    rw [Decimal.abs_toRat, abs_mul, abs_of_pos unit] at sizes
    rw [← Decimal.magnitude, sizes, Nat.cast_natAbs, Int.cast_abs]
  refine ⟨count.natAbs, exponent, size, least, most, ?_⟩
  have first := Decimal.pow_le_magnitude nonzero
  have fewRat : (count.natAbs : ℚ) < 10 ^ context.precision := by
    have fewNat : count.natAbs < 10 ^ context.precision := by
      zify
      exact few
    exact_mod_cast fewNat
  have below : (10 : ℚ) ^ ((digitCount number.coeff : ℤ) + number.exponent - 1) <
      10 ^ (context.precision + exponent) := by
    calc (10 : ℚ) ^ ((digitCount number.coeff : ℤ) + number.exponent - 1)
        ≤ count.natAbs * 10 ^ exponent := by
          rw [← size]
          exact first
      _ < 10 ^ context.precision * 10 ^ exponent :=
          mul_lt_mul_of_pos_right fewRat (by positivity)
      _ = 10 ^ (context.precision + exponent) := by
          rw [← zpow_natCast, ← zpow_add₀ (by norm_num)]
  have exponents := (zpow_lt_zpow_iff_right₀ (by norm_num : (1 : ℚ) < 10)).mp below
  omega

/-- A held number is fitted as it is. -/
theorem fit_of_holds {number : Decimal} (holds : context.Holds number.toRat) :
    ∃ result, context.fit number = .ok (some result) ∧ result.toRat = number.toRat := by
  unfold fit
  by_cases zero : number.coeff = 0
  · rw [if_pos zero]
    exact ⟨_, rfl, by rw [Decimal.toRat_eq_zero.mpr zero, Decimal.toRat_eq_zero.mpr (by simpa using zero)]⟩
  obtain ⟨coeff, exponent, size, least, most, within⟩ := digits_of_holds zero holds
  simp only [if_neg zero, if_neg (not_lt.mpr (within.trans most))]
  split
  next rounds =>
    obtain ⟨lowest, isLowest⟩ : ∃ lowest : ℤ, lowest =
      max (digitCount number.coeff + number.exponent - context.precision) context.etiny := ⟨_, rfl⟩
    rw [← isLowest] at rounds ⊢
    have reaches : lowest ≤ exponent := by omega
    -- the digits to drop are zeros
    obtain ⟨kept, isKept⟩ : ∃ kept, kept = coeff * 10 ^ (exponent - lowest).toNat := ⟨_, rfl⟩
    have whole : number.coeff = kept * 10 ^ (lowest - number.exponent).toNat := by
      have unit : (10 : ℚ) ^ number.exponent ≠ 0 := by positivity
      have scaled : (number.coeff : ℚ) * 10 ^ number.exponent =
          (kept * 10 ^ (lowest - number.exponent).toNat : ℕ) * 10 ^ number.exponent := by
        rw [size, isKept]
        push_cast
        rw [mul_assoc, mul_assoc, ← zpow_natCast, ← zpow_natCast, ← zpow_add₀ (by norm_num),
          ← zpow_add₀ (by norm_num), Int.toNat_of_nonneg (by omega), Int.toNat_of_nonneg (by omega)]
        congr 2
        omega
      exact_mod_cast mul_right_cancel₀ unit scaled
    have few : kept < 10 ^ context.precision := by
      have below := Decimal.lt_pow_digitCount number.coeff
      rw [whole] at below
      have shorter : kept * 10 ^ (lowest - number.exponent).toNat <
          10 ^ context.precision * 10 ^ (lowest - number.exponent).toNat := by
        refine below.trans_le ?_
        rw [← whole, ← pow_add]
        exact Nat.pow_le_pow_right (by norm_num) (by omega)
      exact lt_of_mul_lt_mul_right shorter (Nat.zero_le _)
    have uncarried : ¬ context.precision < digitCount kept :=
      not_lt.mpr ((Nat.length_toDigits_le_iff (by decide) context.positive).mpr few)
    have rounded : context.roundedCoeff number.negative number.coeff
        (lowest - number.exponent).toNat = kept := by
      rw [whole, roundedCoeff_exact]
    refine ⟨⟨number.negative, kept, lowest⟩, ?_, ?_⟩
    · unfold roundTo
      simp only [rounded, if_neg uncarried, if_neg (not_lt.mpr (reaches.trans most))]
    · refine Decimal.toRat_mk_congr ?_
      rw [whole]
      push_cast
      rw [mul_assoc, ← zpow_natCast, Int.toNat_of_nonneg (by omega), ← zpow_add₀ (by norm_num),
        sub_add_cancel]
  next => exact ⟨_, rfl, toRat_folded number⟩

/-- What is fitted is unchanged exactly where the context holds it. -/
theorem fit_exact_iff {number result : Decimal} (isFit : context.fit number = .ok (some result)) :
    result.toRat = number.toRat ↔ context.Holds number.toRat := by
  constructor
  · intro same
    rw [← same]
    exact holds_fit isFit
  · intro holds
    obtain ⟨other, otherFit, same⟩ := fit_of_holds holds
    cases isFit.symm.trans otherFit
    exact same

/-- **A negation is exact where the context holds the number.** -/
theorem neg_exact_iff {number result : Decimal} (isNegated : context.neg number = .ok (some result)) :
    result.toRat = -number.toRat ↔ context.Holds number.toRat := by
  obtain ⟨negated, isFit, value⟩ : ∃ negated : Decimal, context.neg number = context.fit negated ∧
      negated.toRat = -number.toRat := by
    unfold neg
    split
    next zero =>
      have none : number.coeff = 0 := by
        simp only [Decimal.isZero, Bool.and_eq_true, decide_eq_true_eq] at zero
        exact zero.1
      refine ⟨_, rfl, ?_⟩
      rw [Decimal.toRat_eq_zero.mpr none, neg_zero]
      exact Decimal.toRat_eq_zero.mpr none
    next => exact ⟨_, rfl, Decimal.toRat_copyNegate number⟩
  rw [isFit] at isNegated
  rw [← value, fit_exact_iff isNegated, value]
  exact ⟨fun holds => neg_neg number.toRat ▸ holds.neg, Holds.neg⟩

/-! ## Sums in the default context -/

theorem roundTo_default (number : Decimal) (exponent : ℤ) :
    default.roundTo number exponent =
      (Decimal.roundTo .default number exponent).map some := by
  obtain ⟨coeff, isCoeff⟩ : ∃ coeff, Decimal.roundedCoeff DecimalContext.default.rounding
    number.negative number.coeff (exponent - number.exponent).toNat = coeff := ⟨_, rfl⟩
  have isThread : default.roundedCoeff number.negative number.coeff
      (exponent - number.exponent).toNat = coeff := isCoeff
  have sameTop : default.etop = DecimalContext.default.etop := rfl
  unfold roundTo Decimal.roundTo
  simp only [isThread, isCoeff, sameTop]
  by_cases carried : DecimalContext.default.precision < digitCount coeff
  · have threadCarried : default.precision < digitCount coeff := carried
    simp only [if_pos carried, if_pos threadCarried]
    split <;> rfl
  · have threadCarried : ¬ default.precision < digitCount coeff := carried
    simp only [if_neg carried, if_neg threadCarried]
    split <;> rfl

theorem fit_default (number : Decimal) :
    default.fit number = (Decimal.fit .default number).map some := by
  rw [fit, Decimal.fit]
  by_cases zero : number.coeff = 0
  · rw [if_pos zero, if_pos zero]
    rfl
  rw [if_neg zero, if_neg zero]
  dsimp only
  by_cases exceeds : DecimalContext.default.etop <
      digitCount number.coeff + number.exponent - DecimalContext.default.precision
  · rw [if_pos exceeds]
    exact if_pos exceeds
  rw [if_neg exceeds]
  refine (if_neg exceeds).trans ?_
  by_cases rounds : number.exponent <
      max (digitCount number.coeff + number.exponent - DecimalContext.default.precision : ℤ)
        DecimalContext.default.etiny
  · rw [if_pos rounds, ← roundTo_default]
    exact if_pos rounds
  · rw [if_neg rounds]
    exact if_neg rounds

/-- A sum in the default context is exact where the context holds it. -/
theorem add_default_exact_iff {first second sum : Decimal}
    (isSum : Decimal.add .default first second = .ok sum) :
    sum.toRat = first.toRat + second.toRat ↔ default.Holds (first.toRat + second.toRat) := by
  obtain ⟨exact, isFit, value⟩ := Decimal.add_eq_fit .default first second
  have fitted : default.fit exact = .ok (some sum) := by
    rw [fit_default, ← isFit, isSum]
    rfl
  rw [← value]
  exact fit_exact_iff fitted

theorem add_default_of_holds {first second : Decimal}
    (holds : default.Holds (first.toRat + second.toRat)) :
    ∃ sum, Decimal.add .default first second = .ok sum ∧ sum.toRat = first.toRat + second.toRat := by
  obtain ⟨exact, isFit, value⟩ := Decimal.add_eq_fit .default first second
  rw [← value] at holds
  obtain ⟨result, fitted, same⟩ := fit_of_holds holds
  rw [fit_default, ← isFit] at fitted
  cases isSum : Decimal.add .default first second with
  | error failure =>
      rw [isSum] at fitted
      cases fitted
  | ok total =>
      rw [isSum] at fitted
      cases fitted
      exact ⟨_, rfl, same.trans value⟩

end ThreadContext
