import CryptoRadar.Lib.DecimalBounds

/-!
# Whole units of a power of ten

Amounts of money are whole numbers of cents. A result that is a whole number of units of a
power of ten, with no more digits than the context has, is not rounded (`IsUnits.fit`). Sums and
differences of such amounts are therefore sums and differences of whole numbers (`IsUnits.add`,
`IsUnits.sub`, `IsUnits.sum`), and so is their order (`IsUnits.lt_iff`). A whole number divided by
a hundred is that many cents (`isUnits_div_hundred`).
-/

set_option autoImplicit false

namespace Decimal

/-- The number is `count` units of a power of ten. -/
def IsUnits (exponent count : ℤ) (number : Decimal) : Prop := number.toRat = count * 10 ^ exponent

/-- The context holds units of this power, up to its precision. -/
structure HoldsUnits (context : DecimalContext) (exponent : ℤ) : Prop where
  positive : 0 < context.precision
  least : context.etiny ≤ exponent
  greatest : exponent ≤ context.etop

section Units

variable {context : DecimalContext} {exponent count other : ℤ} {number second : Decimal}

/-- The number written with this exponent. -/
def ofUnits (exponent count : ℤ) : Decimal := ⟨count < 0, count.natAbs, exponent⟩

theorem isUnits_ofUnits (exponent count : ℤ) : IsUnits exponent count (ofUnits exponent count) := by
  unfold IsUnits ofUnits toRat magnitude
  by_cases below : count < 0
  · have size : ((count.natAbs : ℕ) : ℚ) = -count := by
      rw [← Int.cast_natCast, Int.ofNat_natAbs_of_nonpos below.le]
      push_cast
      rfl
    simp [below, size]
  · have size : ((count.natAbs : ℕ) : ℚ) = count := by
      rw [← Int.cast_natCast, Int.natAbs_of_nonneg (not_lt.mp below)]
    simp [below, size]

theorem isUnits_zero (exponent : ℤ) : IsUnits exponent 0 (ofNat 0) := by
  simp [IsUnits, toRat_ofNat]

theorem fit_ofUnits (holds : HoldsUnits context exponent) (few : |count| < 10 ^ context.precision) :
    fit context (ofUnits exponent count) = .ok (ofUnits exponent count) := by
  have digits : digitCount count.natAbs ≤ context.precision := by
    refine (Nat.length_toDigits_le_iff (by decide) holds.positive).mpr ?_
    rw [Int.abs_eq_natAbs] at few
    exact_mod_cast few
  have least := holds.least
  have greatest := holds.greatest
  have positive := holds.positive
  unfold fit ofUnits
  split
  next zero =>
    have kept : min (max exponent context.etiny) DecimalContext.emax = exponent := by
      unfold DecimalContext.etop at greatest
      omega
    rw [kept]
  next =>
    dsimp only
    rw [if_neg (by omega), if_neg (by omega)]

/-- **A result of few whole units is not rounded.** -/
theorem IsUnits.fit (isUnits : IsUnits exponent count number) (holds : HoldsUnits context exponent)
    (few : |count| < 10 ^ context.precision) :
    ∃ fitted, Decimal.fit context number = .ok fitted ∧ IsUnits exponent count fitted := by
  have same : SameValue number (ofUnits exponent count) :=
    isUnits.trans (isUnits_ofUnits exponent count).symm
  have alike := fit_alike context same
  rw [fit_ofUnits holds few] at alike
  cases found : Decimal.fit context number with
  | ok fitted =>
      rw [found] at alike
      cases alike with
      | ok values => exact ⟨fitted, rfl, values.trans (isUnits_ofUnits exponent count)⟩
  | error signal =>
      rw [found] at alike
      cases alike

theorem IsUnits.add (first : IsUnits exponent count number) (last : IsUnits exponent other second)
    (holds : HoldsUnits context exponent) (few : |count + other| < 10 ^ context.precision) :
    ∃ sum, Decimal.add context number second = .ok sum ∧ IsUnits exponent (count + other) sum := by
  obtain ⟨whole, isFit, value⟩ := add_eq_fit context number second
  have isUnits : IsUnits exponent (count + other) whole := by
    unfold IsUnits at first last ⊢
    rw [value, first, last]
    push_cast
    ring
  rw [isFit]
  exact isUnits.fit holds few

theorem IsUnits.copyNegate (isUnits : IsUnits exponent count number) :
    IsUnits exponent (-count) number.copyNegate := by
  unfold IsUnits at isUnits ⊢
  rw [toRat_copyNegate, isUnits]
  push_cast
  ring

theorem IsUnits.sub (first : IsUnits exponent count number) (last : IsUnits exponent other second)
    (holds : HoldsUnits context exponent) (few : |count - other| < 10 ^ context.precision) :
    ∃ rest, Decimal.sub context number second = .ok rest ∧ IsUnits exponent (count - other) rest :=
  first.add last.copyNegate holds few

theorem IsUnits.lt_iff (first : IsUnits exponent count number)
    (last : IsUnits exponent other second) : lt number second = true ↔ count < other := by
  have unit : (0 : ℚ) < 10 ^ exponent := by positivity
  rw [Decimal.lt_iff, first, last, mul_lt_mul_iff_of_pos_right unit, Int.cast_lt]

theorem abs_sum_le {most : ℕ} {counts : List ℤ} (small : ∀ count ∈ counts, |count| ≤ most) :
    |counts.sum| ≤ counts.length * most := by
  induction counts with
  | nil => simp
  | cons count counts hyp =>
      have one := small count List.mem_cons_self
      have others := hyp fun other member => small other (List.mem_cons_of_mem _ member)
      have triangle := abs_add_le count counts.sum
      rw [List.sum_cons, List.length_cons]
      push_cast
      linarith

/-- A sum of amounts of at most `most` units each. -/
theorem IsUnits.sum (holds : HoldsUnits context exponent) {most : ℕ} :
    ∀ {numbers : List Decimal} {counts : List ℤ} {start : Decimal} {first : ℤ},
      List.Forall₂ (fun number count => IsUnits exponent count number) numbers counts →
      IsUnits exponent first start → (∀ count ∈ counts, |count| ≤ most) →
      |first| + counts.length * most < 10 ^ context.precision →
      ∃ sum, numbers.foldlM (Decimal.add context) start = .ok sum ∧
        IsUnits exponent (first + counts.sum) sum
  | [], [], start, first, _, isFirst, _, _ => ⟨start, rfl, by simpa using isFirst⟩
  | number :: numbers, count :: counts, start, first, .cons isCount others, isFirst, small, few => by
      rw [List.length_cons] at few
      push_cast at few
      have one := small count List.mem_cons_self
      have triangle := abs_add_le first count
      have rest : (0 : ℤ) ≤ counts.length * most := by positivity
      obtain ⟨next, added, isNext⟩ := isFirst.add isCount holds (by linarith)
      have later := IsUnits.sum holds others isNext
        (fun other member => small other (List.mem_cons_of_mem _ member)) (by linarith)
      obtain ⟨sum, folded, isSum⟩ := later
      refine ⟨sum, ?_, ?_⟩
      · rw [List.foldlM_cons, added]
        exact folded
      · rw [List.sum_cons, ← add_assoc]
        exact isSum

/-- The digits of a hundredth: there is no remainder. -/
theorem quotient_hundred (holds : HoldsUnits context (-2)) {whole : ℕ}
    (few : whole < 10 ^ context.precision) (negative : Bool) :
    ((quotient context ⟨negative, whole, 0⟩ (ofNat 100)).1 : ℚ) *
      10 ^ (quotient context ⟨negative, whole, 0⟩ (ofNat 100)).2 = whole * 10 ^ (-2 : ℤ) := by
  have digits : digitCount whole ≤ context.precision :=
    (Nat.length_toDigits_le_iff (by decide) holds.positive).mpr few
  have three : digitCount (ofNat 100).coeff = 3 := by decide
  obtain ⟨more, shift⟩ : ∃ more : ℕ,
      (digitCount (ofNat 100).coeff : ℤ) - digitCount whole + context.precision + 1 = more + 2 :=
    ⟨context.precision - digitCount whole + 2, by rw [three]; omega⟩
  have forward : ((more : ℤ) + 2).toNat = more + 2 := by omega
  have backward : (-((more : ℤ) + 2)).toNat = 0 := by omega
  have hundredth : whole * 10 ^ (more + 2) = whole * 10 ^ more * (ofNat 100).coeff := by
    change _ = _ * 100
    ring
  have positive : 0 < (ofNat 100).coeff := by decide
  unfold quotient
  simp only [shift, forward, backward, hundredth, pow_zero, mul_one, Nat.mul_mod_left, if_true,
    Nat.mul_div_cancel _ positive]
  rw [dropZeros_value]
  have exponent : (0 : ℤ) - (ofNat 100).exponent - (more + 2) = -(more : ℤ) + -2 := by
    change (0 : ℤ) - 0 - (more + 2) = _
    ring
  rw [exponent, zpow_add₀ (by norm_num), zpow_neg, zpow_natCast]
  push_cast
  field_simp

theorem isUnits_div_hundred (holds : HoldsUnits context (-2))
    (few : |count| < 10 ^ context.precision) :
    ∃ result, div context (ofInt count) (ofNat 100) = .ok result ∧ IsUnits (-2) count result := by
  have divisor : (ofNat 100).isZero = false := rfl
  cases zero : (ofInt count).isZero with
  | true =>
      have none : count = 0 := by simpa [isZero, ofInt] using zero
      subst none
      have isUnits : IsUnits (-2) 0 ⟨false, 0, 0⟩ := by simp [IsUnits, toRat_eq_zero.mpr]
      simp only [div, divisor, zero, Bool.false_eq_true, if_false, if_true]
      exact isUnits.fit holds few
  | false =>
      have fewer : count.natAbs < 10 ^ context.precision := by
        rw [Int.abs_eq_natAbs] at few
        exact_mod_cast few
      have digits := quotient_hundred holds fewer (decide (count < 0))
      rw [div_eq_fit context zero divisor, show (ofNat 100).negative = false from rfl,
        Bool.bne_false]
      refine IsUnits.fit ?_ holds few
      exact (toRat_mk_congr digits).trans (isUnits_ofUnits (-2) count)

/-- `int(number)` of a whole number. -/
theorem toInt_of_isUnits (isUnits : IsUnits 0 count number) : number.toInt = count := by
  have size : (number.coeff : ℚ) * 10 ^ number.exponent = |(count : ℚ)| := by
    unfold IsUnits toRat at isUnits
    rw [zpow_zero, mul_one] at isUnits
    rw [← isUnits]
    have nonneg := magnitude_nonneg number
    split
    · rw [abs_neg, abs_of_nonneg nonneg, magnitude]
    · rw [abs_of_nonneg nonneg, magnitude]
  have whole : (number.coeff : ℤ) * 10 ^ number.exponent.toNat =
      |count| * 10 ^ (-number.exponent).toNat := by
    have shifted : (number.coeff : ℚ) * 10 ^ number.exponent.toNat =
        |(count : ℚ)| * 10 ^ (-number.exponent).toNat := by
      rw [← size, ← zpow_natCast, ← zpow_natCast, mul_assoc, ← zpow_add₀ (by norm_num)]
      congr 2
      omega
    exact_mod_cast shifted
  have unit : (10 : ℤ) ^ (-number.exponent).toNat ≠ 0 := by positivity
  unfold toInt
  rw [whole, Int.mul_ediv_cancel _ unit]
  unfold IsUnits toRat at isUnits
  have nonneg := magnitude_nonneg number
  rw [zpow_zero, mul_one] at isUnits
  split at isUnits
  next negative =>
    have below : count ≤ 0 := by
      have : (count : ℚ) ≤ 0 := by linarith
      exact_mod_cast this
    rw [if_pos negative, abs_of_nonpos below, neg_neg]
  next positive =>
    have above : 0 ≤ count := by
      have : (0 : ℚ) ≤ count := by linarith
      exact_mod_cast this
    rw [if_neg positive, abs_of_nonneg above]

/-- A number is that many units of its own exponent. -/
theorem exists_isUnits (number : Decimal) : ∃ count, IsUnits number.exponent count number := by
  refine ⟨if number.negative then -number.coeff else number.coeff, ?_⟩
  unfold IsUnits toRat magnitude
  cases number.negative <;> simp

theorem quantize_exponent {rounding : Rounding} {result : Decimal}
    (quantized : quantize context rounding number exponent = .ok result) :
    result.exponent = exponent := by
  unfold quantize at quantized
  split at quantized
  next => cases quantized
  next =>
    split at quantized
    next =>
      cases quantized
      rfl
    next =>
      split at quantized
      next => cases quantized
      next =>
        dsimp only at quantized
        split at quantized
        next => cases quantized
        next =>
          cases quantized
          unfold rescale
          split <;> rfl

end Units

end Decimal
