import Mathlib.Algebra.Order.Field.Basic
import Mathlib.Algebra.BigOperators.Group.List.Basic
import Mathlib.Tactic.FieldSimp
import Mathlib.Tactic.Linarith
import Mathlib.Tactic.Positivity
import Mathlib.Tactic.Ring

/-!
# Spending an amount along offers

An offer is a price and a size. An amount is spent along a list of offers: each offer is taken whole while
the amount reaches over it, and the last one in part.

Offers worsen in the direction of a sign: prices go up when the sign is positive and down when it is
negative. Along worsening offers the average price of what is taken lies between the first price and the
last one taken (`first_le_average`, `average_le_last`), and it never improves when the amount grows
(`average_mono`). All three are stated without a division, as signed differences.
-/

set_option autoImplicit false

namespace Offers

variable {K : Type} [Field K]

def cost (offers : List (K × K)) : K := (offers.map fun (price, size) => price * size).sum

@[simp] theorem cost_nil : cost ([] : List (K × K)) = 0 := rfl

@[simp] theorem cost_cons (price size : K) (rest : List (K × K)) :
    cost ((price, size) :: rest) = price * size + cost rest := by
  simp [cost]

variable [LinearOrder K]

/-- The size that `amount` takes. -/
def taken : List (K × K) → K → K
  | [], _ => 0
  | (price, size) :: rest, amount =>
      if amount ≤ price * size then amount / price else size + taken rest (amount - price * size)

/-- The part of `amount` that the offers take. -/
def spent : List (K × K) → K → K
  | [], _ => 0
  | (price, size) :: rest, amount =>
      if amount ≤ price * size then amount else price * size + spent rest (amount - price * size)

/-- The price of the last offer from which `amount` takes something, `current` if there is none. -/
def lastPrice (current : K) : List (K × K) → K → K
  | [], _ => current
  | (price, size) :: rest, amount =>
      if amount ≤ price * size then price
      else lastPrice (if 0 < size then price else current) rest (amount - price * size)

/-- Prices are positive and sizes are not negative. -/
def Sound (offers : List (K × K)) : Prop := ∀ offer ∈ offers, 0 < offer.1 ∧ 0 ≤ offer.2

/-- `price` is no worse than any of the offers. -/
def NoWorse (sign price : K) (offers : List (K × K)) : Prop :=
  ∀ offer ∈ offers, 0 ≤ sign * (offer.1 - price)

/-- Each offer is no worse than those after it. -/
def Worsening (sign : K) (offers : List (K × K)) : Prop :=
  offers.Pairwise fun earlier later => 0 ≤ sign * (later.1 - earlier.1)

section Reading

variable {price size amount : K} {rest : List (K × K)}

theorem taken_within (within : amount ≤ price * size) :
    taken ((price, size) :: rest) amount = amount / price := if_pos within

theorem taken_beyond (beyond : price * size < amount) :
    taken ((price, size) :: rest) amount = size + taken rest (amount - price * size) :=
  if_neg (not_le.mpr beyond)

theorem spent_within (within : amount ≤ price * size) :
    spent ((price, size) :: rest) amount = amount := if_pos within

theorem spent_beyond (beyond : price * size < amount) :
    spent ((price, size) :: rest) amount = price * size + spent rest (amount - price * size) :=
  if_neg (not_le.mpr beyond)

theorem lastPrice_within {current : K} (within : amount ≤ price * size) :
    lastPrice current ((price, size) :: rest) amount = price := if_pos within

theorem lastPrice_beyond {current : K} (beyond : price * size < amount) :
    lastPrice current ((price, size) :: rest) amount =
      lastPrice (if 0 < size then price else current) rest (amount - price * size) :=
  if_neg (not_le.mpr beyond)

theorem NoWorse.head {sign current : K} (noWorse : NoWorse sign current ((price, size) :: rest)) :
    0 ≤ sign * (price - current) := noWorse (price, size) List.mem_cons_self

theorem NoWorse.tail {sign current : K} (noWorse : NoWorse sign current ((price, size) :: rest)) :
    NoWorse sign current rest := fun offer isMem => noWorse offer (List.mem_cons_of_mem _ isMem)

theorem Worsening.noWorse {sign : K} (worsening : Worsening sign ((price, size) :: rest)) :
    NoWorse sign price rest := (List.pairwise_cons.mp worsening).1

theorem Worsening.tail {sign : K} (worsening : Worsening sign ((price, size) :: rest)) :
    Worsening sign rest := (List.pairwise_cons.mp worsening).2

theorem Sound.head (sound : Sound ((price, size) :: rest)) : 0 < price ∧ 0 ≤ size :=
  sound (price, size) List.mem_cons_self

theorem Sound.tail (sound : Sound ((price, size) :: rest)) : Sound rest :=
  fun offer isMem => sound offer (List.mem_cons_of_mem _ isMem)

end Reading

variable [IsStrictOrderedRing K] {offers : List (K × K)}

theorem cost_nonneg (sound : Sound offers) : 0 ≤ cost offers := by
  induction offers with
  | nil => simp
  | cons offer rest ih =>
      obtain ⟨price, size⟩ := offer
      have here := mul_nonneg sound.head.1.le sound.head.2
      have later := ih sound.tail
      rw [cost_cons]
      exact add_nonneg here later

/-- What is spent is the amount, as far as the offers reach. -/
theorem spent_eq_min (sound : Sound offers) {amount : K} (nonneg : 0 ≤ amount) :
    spent offers amount = min amount (cost offers) := by
  induction offers generalizing amount with
  | nil => simp [spent, min_eq_right nonneg]
  | cons offer rest ih =>
      obtain ⟨price, size⟩ := offer
      have later := cost_nonneg sound.tail
      rw [cost_cons]
      rcases le_or_gt amount (price * size) with within | beyond
      · rw [spent_within within, min_eq_left (by linarith)]
      · rw [spent_beyond beyond, ih sound.tail (sub_nonneg.mpr beyond.le), ← min_add_add_left]
        congr 1
        ring

@[simp] theorem taken_zero (sound : Sound offers) : taken offers 0 = 0 := by
  cases offers with
  | nil => rfl
  | cons offer rest =>
      obtain ⟨price, size⟩ := offer
      rw [taken_within (mul_nonneg sound.head.1.le sound.head.2), zero_div]

@[simp] theorem spent_zero (sound : Sound offers) : spent offers 0 = 0 := by
  rw [spent_eq_min sound le_rfl, min_eq_left (cost_nonneg sound)]

theorem taken_nonneg (sound : Sound offers) {amount : K} (nonneg : 0 ≤ amount) :
    0 ≤ taken offers amount := by
  induction offers generalizing amount with
  | nil => exact le_rfl
  | cons offer rest ih =>
      obtain ⟨price, size⟩ := offer
      rcases le_or_gt amount (price * size) with within | beyond
      · rw [taken_within within]
        exact div_nonneg nonneg sound.head.1.le
      · rw [taken_beyond beyond]
        exact add_nonneg sound.head.2 (ih sound.tail (sub_nonneg.mpr beyond.le))

/-- A first offer that has some size is taken from. -/
theorem taken_pos {price size : K} {rest : List (K × K)} (sound : Sound ((price, size) :: rest))
    (sized : 0 < size) {amount : K} (positive : 0 < amount) :
    0 < taken ((price, size) :: rest) amount := by
  rcases le_or_gt amount (price * size) with within | beyond
  · rw [taken_within within]
    exact div_pos positive sound.head.1
  · rw [taken_beyond beyond]
    exact add_pos_of_pos_of_nonneg sized (taken_nonneg sound.tail (sub_nonneg.mpr beyond.le))

theorem spent_pos {price size : K} {rest : List (K × K)} (sound : Sound ((price, size) :: rest))
    (sized : 0 < size) {amount : K} (positive : 0 < amount) :
    0 < spent ((price, size) :: rest) amount := by
  rw [spent_eq_min sound positive.le, cost_cons]
  have here := mul_pos sound.head.1 sized
  have later := cost_nonneg sound.tail
  exact lt_min positive (by linarith)

/-- What a larger amount takes on top is bought at no better a price than `lowest`. -/
theorem lowest_le_marginal {sign lowest : K} (sound : Sound offers)
    (noWorse : NoWorse sign lowest offers) {amount larger : K} (nonneg : 0 ≤ amount)
    (grows : amount ≤ larger) :
    0 ≤ sign * ((spent offers larger - spent offers amount) -
      lowest * (taken offers larger - taken offers amount)) := by
  induction offers generalizing amount larger with
  | nil => simp [spent, taken]
  | cons offer rest ih =>
      obtain ⟨price, size⟩ := offer
      obtain ⟨isPositive, isSize⟩ := sound.head
      have worse := noWorse.head
      have nonzero := isPositive.ne'
      rcases le_or_gt larger (price * size) with within | beyond
      · -- both amounts end in this offer
        rw [spent_within within, taken_within within, spent_within (grows.trans within),
          taken_within (grows.trans within)]
        have split : sign * ((larger - amount) - lowest * (larger / price - amount / price)) =
            (larger - amount) / price * (sign * (price - lowest)) := by
          field_simp
        rw [split]
        exact mul_nonneg (div_nonneg (sub_nonneg.mpr grows) isPositive.le) worse
      rw [spent_beyond beyond, taken_beyond beyond]
      rcases le_or_gt amount (price * size) with within | above
      · -- the larger amount takes the rest of this offer and goes on
        rw [spent_within within, taken_within within]
        have onward := ih sound.tail noWorse.tail le_rfl (sub_nonneg.mpr beyond.le)
        rw [spent_zero sound.tail, taken_zero sound.tail, sub_zero, sub_zero] at onward
        have left : 0 ≤ size - amount / price := by
          rw [sub_nonneg, div_le_iff₀ isPositive, mul_comm]
          exact within
        have split : sign * ((price * size + spent rest (larger - price * size) - amount) -
              lowest * (size + taken rest (larger - price * size) - amount / price)) =
            (size - amount / price) * (sign * (price - lowest)) +
              sign * (spent rest (larger - price * size) -
                lowest * taken rest (larger - price * size)) := by
          field_simp
          ring
        rw [split]
        exact add_nonneg (mul_nonneg left worse) onward
      · rw [spent_beyond above, taken_beyond above, add_sub_add_left_eq_sub, add_sub_add_left_eq_sub]
        exact ih sound.tail noWorse.tail (sub_nonneg.mpr above.le) (sub_le_sub_right grows _)

/-- The average price is no better than `lowest`. -/
theorem lowest_le_average {sign lowest : K} (sound : Sound offers)
    (noWorse : NoWorse sign lowest offers) {amount : K} (nonneg : 0 ≤ amount) :
    0 ≤ sign * (spent offers amount - lowest * taken offers amount) := by
  have marginal := lowest_le_marginal sound noWorse le_rfl nonneg
  rwa [spent_zero sound, taken_zero sound, sub_zero, sub_zero] at marginal

/-- The average price is no better than the first. -/
theorem first_le_average {sign price size : K} {rest : List (K × K)}
    (sound : Sound ((price, size) :: rest)) (worsening : Worsening sign ((price, size) :: rest))
    {amount : K} (nonneg : 0 ≤ amount) :
    0 ≤ sign * (spent ((price, size) :: rest) amount -
      price * taken ((price, size) :: rest) amount) := by
  refine lowest_le_average sound ?_ nonneg
  intro offer isMem
  rcases List.mem_cons.mp isMem with rfl | isRest
  · simp
  · exact worsening.noWorse offer isRest

theorem lastPrice_noBetter {sign current : K} (noWorse : NoWorse sign current offers)
    (worsening : Worsening sign offers) (amount : K) :
    0 ≤ sign * (lastPrice current offers amount - current) := by
  induction offers generalizing current amount with
  | nil => simp [lastPrice]
  | cons offer rest ih =>
      obtain ⟨price, size⟩ := offer
      rcases le_or_gt amount (price * size) with within | beyond
      · rw [lastPrice_within within]
        exact noWorse.head
      rw [lastPrice_beyond beyond]
      split_ifs with sized
      · have onward := ih worsening.noWorse worsening.tail (amount - price * size)
        have here := noWorse.head
        rw [mul_sub] at onward here ⊢
        linarith
      · exact ih noWorse.tail worsening.tail _

/-- The average price is no worse than the last price taken. -/
theorem average_le_last {sign current : K} (sound : Sound offers)
    (noWorse : NoWorse sign current offers) (worsening : Worsening sign offers) (amount : K) :
    0 ≤ sign * (lastPrice current offers amount * taken offers amount - spent offers amount) := by
  induction offers generalizing current amount with
  | nil => simp [taken, spent]
  | cons offer rest ih =>
      obtain ⟨price, size⟩ := offer
      rcases le_or_gt amount (price * size) with within | beyond
      · rw [lastPrice_within within, taken_within within, spent_within within,
          mul_div_cancel₀ _ sound.head.1.ne']
        simp
      rw [lastPrice_beyond beyond, taken_beyond beyond, spent_beyond beyond]
      split_ifs with sized
      · have onward := ih sound.tail worsening.noWorse worsening.tail (amount - price * size)
        have later := lastPrice_noBetter worsening.noWorse worsening.tail (amount - price * size)
        have here := mul_nonneg sized.le later
        calc (0 : K)
            ≤ size * (sign * (lastPrice price rest (amount - price * size) - price)) +
                sign * (lastPrice price rest (amount - price * size) *
                  taken rest (amount - price * size) - spent rest (amount - price * size)) :=
              add_nonneg here onward
          _ = _ := by ring
      · -- nothing is taken here, and the price before stays the last
        obtain rfl : size = 0 := le_antisymm (not_lt.mp sized) sound.head.2
        simpa using ih sound.tail noWorse.tail worsening.tail (amount - price * 0)

/-- A larger amount is spent at no better an average price. -/
theorem average_mono {sign : K} (sound : Sound offers) (worsening : Worsening sign offers)
    {amount larger : K} (nonneg : 0 ≤ amount) (grows : amount ≤ larger) :
    0 ≤ sign * (spent offers larger * taken offers amount -
      spent offers amount * taken offers larger) := by
  induction offers generalizing amount larger with
  | nil => simp [spent, taken]
  | cons offer rest ih =>
      obtain ⟨price, size⟩ := offer
      obtain ⟨isPositive, isSize⟩ := sound.head
      have nonzero := isPositive.ne'
      rcases le_or_gt larger (price * size) with within | beyond
      · rw [spent_within within, taken_within within, spent_within (grows.trans within),
          taken_within (grows.trans within), ← mul_div_assoc, ← mul_div_assoc,
          mul_comm larger amount, sub_self, mul_zero]
      rw [spent_beyond beyond, taken_beyond beyond]
      rcases le_or_gt amount (price * size) with within | above
      · -- the smaller amount is spent at the first price, the larger one at no better
        rw [spent_within within, taken_within within]
        have onward := lowest_le_average sound.tail worsening.noWorse (sub_nonneg.mpr beyond.le)
        have split : sign * ((price * size + spent rest (larger - price * size)) *
              (amount / price) - amount * (size + taken rest (larger - price * size))) =
            amount / price * (sign * (spent rest (larger - price * size) -
              price * taken rest (larger - price * size))) := by
          field_simp
          ring
        rw [split]
        exact mul_nonneg (div_nonneg nonneg isPositive.le) onward
      · rw [spent_beyond above, taken_beyond above]
        have marginal := lowest_le_marginal sound.tail worsening.noWorse
          (sub_nonneg.mpr above.le) (sub_le_sub_right grows (price * size))
        have onward := ih sound.tail worsening.tail (sub_nonneg.mpr above.le)
          (sub_le_sub_right grows (price * size))
        calc (0 : K)
            ≤ size * (sign * ((spent rest (larger - price * size) -
                  spent rest (amount - price * size)) - price *
                  (taken rest (larger - price * size) - taken rest (amount - price * size)))) +
                sign * (spent rest (larger - price * size) * taken rest (amount - price * size) -
                  spent rest (amount - price * size) * taken rest (larger - price * size)) :=
              add_nonneg (mul_nonneg isSize marginal) onward
          _ = _ := by ring

end Offers
