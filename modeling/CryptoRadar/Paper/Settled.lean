import CryptoRadar.Lib.DecimalHeld
import CryptoRadar.Lib.DecimalRounded
import CryptoRadar.Paper.Sound
import CryptoRadar.Paper.Wallet

/-!
# What a settlement adds up to

The sums of `settle` run at 50 digits and round there; three of their results are rounded to cents. Against
the exact amounts (`priceResult`, `exactFees`) the net is off by the three roundings to cents and by some
units of the last digit of the amounts (`settle_adds_up`), as long as the amounts have digits to spare and
the prices are within the exponents.
-/

set_option autoImplicit false

namespace CryptoRadar.Paper

open Checked Decimal

/-! ## Exact amounts -/

/-- The mid without rounding. -/
def Quote.exactMid (quote : Quote) : ℚ := (quote.bid.toRat + quote.ask.toRat) / 2

/-- The gross result at the mids, without rounding. -/
def exactGross (direction : Direction) (stake : ℚ) (entry exit : Quote) : ℚ :=
  match direction with
  | .long => stake * (exit.exactMid / entry.exactMid - 1)
  | .short => stake * (1 - exit.exactMid / entry.exactMid)

/-- The result at the touched prices. -/
def priceResult (direction : Direction) (stake : ℚ) (entry exit : Quote) : ℚ :=
  match direction with
  | .long => stake * (exit.bid.toRat / entry.ask.toRat - 1)
  | .short => stake * (entry.bid.toRat - exit.ask.toRat) / entry.bid.toRat

/-- The fees of both sides. -/
def exactFees (direction : Direction) (stake feeBps : ℚ) (entry exit : Quote) : ℚ :=
  let prices := touchPrices direction entry exit
  stake * (feeBps / 10000) + stake * prices.2.toRat / prices.1.toRat * (feeBps / 10000)

/-- A size that no amount of a settlement exceeds. -/
def amountScale (stake feeBps : ℚ) (entry exit : Quote) : ℚ :=
  (1 + stake) * (1 + exit.ask.toRat / entry.bid.toRat) * (1 + feeBps / 10000)

/-- Prices up to this one, and its inverse, are far from the ends of the exponents. -/
@[irreducible] def greatestPrice : ℚ := 10 ^ (300000 : ℤ)

structure Quote.InRange (quote : Quote) : Prop where
  least : 1 / greatestPrice ≤ quote.bid.toRat
  most : quote.ask.toRat ≤ greatestPrice

/-! ## Sizes -/

theorem greatestPrice_large : (10 : ℚ) ^ 50 ≤ greatestPrice := by
  unfold greatestPrice
  rw [← zpow_natCast]
  exact zpow_le_zpow_right₀ (by norm_num) (by decide)

theorem greatestPrice_pos : 0 < greatestPrice := lt_of_lt_of_le (by norm_num) greatestPrice_large

/-- A size between the prices, their squares or some amount times these. -/
theorem ordinary_of {size : ℚ} (least : 1 ≤ size * greatestPrice ^ 2)
    (most : size ≤ 10 ^ 50 * greatestPrice ^ 2) : Ordinary size := by
  have large := greatestPrice_large
  have positive := greatestPrice_pos
  have cube : greatestPrice ^ 3 = 10 ^ (900000 : ℤ) := by
    unfold greatestPrice
    rw [← zpow_natCast, ← zpow_mul]
    congr 1
  have square : (0 : ℚ) < greatestPrice ^ 2 := by positivity
  constructor
  · have inverse : 1 / greatestPrice ^ 3 ≤ size := by
      rw [div_le_iff₀ (by positivity)]
      have sizePos : 0 ≤ size := by
        by_contra negative
        nlinarith
      nlinarith
    refine le_trans ?_ inverse
    rw [cube, one_div, ← zpow_neg]
    exact zpow_le_zpow_right₀ (by norm_num) (by decide)
  · have below : (10 : ℚ) ^ (900000 : ℤ) * 10 < 10 ^ DecimalContext.emax := by
      rw [← zpow_add_one₀ (by norm_num)]
      exact zpow_lt_zpow_right₀ (by norm_num) (by decide)
    rw [← cube] at below
    have scaled : 10 ^ 50 * greatestPrice ^ 2 ≤ greatestPrice ^ 3 := by
      rw [pow_succ' greatestPrice 2]
      exact mul_le_mul_of_nonneg_right large square.le
    have cubePos : 0 < greatestPrice ^ 3 := by positivity
    refine lt_of_le_of_lt ?_ below
    linarith only [most, scaled, cubePos]

theorem paperContext_rounds : Rounds paperContext := ⟨rfl, by decide⟩

section Quotes

variable {quote : Quote}

theorem Quote.bid_pos (quote : Quote) : 0 < quote.bid.toRat := by
  have positive := Bool.eq_false_iff.mp quote.positive
  rw [Ne, Decimal.le_iff, not_le] at positive
  rwa [zero, toRat_ofNat, Nat.cast_zero] at positive

theorem Quote.bid_le_ask (quote : Quote) : quote.bid.toRat ≤ quote.ask.toRat := by
  have ordered := Bool.eq_false_iff.mp quote.ordered
  rwa [Ne, Decimal.lt_iff, not_lt] at ordered

theorem Quote.exactMid_bounds (quote : Quote) :
    quote.bid.toRat ≤ quote.exactMid ∧ quote.exactMid ≤ quote.ask.toRat := by
  have ordered := quote.bid_le_ask
  unfold Quote.exactMid
  constructor <;> linarith

theorem Quote.InRange.one_le (inRange : quote.InRange) : 1 ≤ quote.bid.toRat * greatestPrice :=
  (div_le_iff₀ greatestPrice_pos).mp inRange.least

theorem Quote.InRange.ask_one_le (inRange : quote.InRange) : 1 ≤ quote.ask.toRat * greatestPrice :=
  inRange.one_le.trans (mul_le_mul_of_nonneg_right quote.bid_le_ask greatestPrice_pos.le)

theorem Quote.InRange.bid_most (inRange : quote.InRange) : quote.bid.toRat ≤ greatestPrice :=
  quote.bid_le_ask.trans inRange.most

/-- The computed mid. -/
theorem mid_near (inRange : quote.InRange) :
    ∃ mid, quote.mid = .ok mid ∧ Near paperContext 6 mid quote.exactMid quote.exactMid := by
  have bid := quote.bid_pos
  have ask := quote.bid_le_ask
  have large := greatestPrice_large
  have least := inRange.one_le
  have most := inRange.most
  obtain ⟨both, isSum, sumNear⟩ := (near_exact paperContext quote.bid (abs_of_pos bid).le).add
    (near_exact paperContext quote.ask (abs_of_pos (bid.trans_le ask)).le) paperContext_rounds
    (ordinary_of (by nlinarith) (by nlinarith)) (by decide)
  have two : (Decimal.ofNat 2).toRat = 2 := toRat_ofNat 2
  have divisor : Near paperContext 0 (.ofNat 2) _ 2 :=
    near_exact paperContext (.ofNat 2) (by rw [two]; norm_num)
  rw [two] at divisor
  obtain ⟨mid, isMid, midNear⟩ := sumNear.div divisor (by norm_num) paperContext_rounds
    (ordinary_of (by nlinarith) (by nlinarith)) (by decide)
  refine ⟨mid, ?_, midNear⟩
  unfold Quote.mid
  rw [isSum]
  exact isMid

end Quotes

/-! ## The amounts before cents -/

/-- A stake, a rate and two quotes whose amounts have digits to spare. -/
structure Settleable (stake feeBps : Decimal) (entry exit : Quote) : Prop where
  positive : 0 < stake.toRat
  nonneg : 0 ≤ feeBps.toRat
  entryInRange : entry.InRange
  exitInRange : exit.InRange
  spare : amountScale stake.toRat feeBps.toRat entry exit ≤ 10 ^ 44

section Amounts

variable {stake feeBps : Decimal} {entry exit : Quote}

/-- The ratio of the mids is below the ratio of the outer prices. -/
theorem midRatio_le (entry exit : Quote) :
    exit.exactMid / entry.exactMid ≤ exit.ask.toRat / entry.bid.toRat :=
  div_le_div₀ ((exit.bid_pos.trans_le exit.bid_le_ask).le) exit.exactMid_bounds.2 entry.bid_pos
    entry.exactMid_bounds.1

theorem exactMid_pos (quote : Quote) : 0 < quote.exactMid :=
  quote.bid_pos.trans_le quote.exactMid_bounds.1

/-- A ratio of two prices in range is ordinary. -/
theorem ordinary_ratio {above below : ℚ} (abovePos : 0 < above) (belowPos : 0 < below)
    (aboveLeast : 1 ≤ above * greatestPrice) (belowLeast : 1 ≤ below * greatestPrice)
    (aboveMost : above ≤ greatestPrice) (belowMost : below ≤ greatestPrice) : Ordinary (above / below) := by
  have large := greatestPrice_large
  have positive := greatestPrice_pos
  refine ordinary_of ?_ ?_
  · rw [div_mul_eq_mul_div, one_le_div belowPos]
    nlinarith
  · rw [div_le_iff₀ belowPos]
    nlinarith

theorem move_near (entryInRange : entry.InRange) (exitInRange : exit.InRange) :
    ∃ exitMid entryMid move, exit.mid = .ok exitMid ∧ entry.mid = .ok entryMid ∧
      Decimal.div paperContext exitMid entryMid = .ok move ∧
      Near paperContext 15 move (exit.exactMid / entry.exactMid) (exit.exactMid / entry.exactMid) := by
  obtain ⟨exitMid, isExit, exitNear⟩ := mid_near exitInRange
  obtain ⟨entryMid, isEntry, entryNear⟩ := mid_near entryInRange
  have inner : ∀ {quote : Quote}, quote.InRange →
      1 ≤ quote.exactMid * greatestPrice ∧ quote.exactMid ≤ greatestPrice := by
    intro quote inRange
    refine ⟨inRange.one_le.trans ?_, quote.exactMid_bounds.2.trans inRange.most⟩
    exact mul_le_mul_of_nonneg_right quote.exactMid_bounds.1 greatestPrice_pos.le
  obtain ⟨move, isMove, moveNear⟩ := exitNear.div entryNear (exactMid_pos entry) paperContext_rounds
    (ordinary_ratio (exactMid_pos exit) (exactMid_pos entry) (inner exitInRange).1 (inner entryInRange).1
      (inner exitInRange).2 (inner entryInRange).2) (by decide)
  exact ⟨exitMid, entryMid, move, isExit, isEntry, isMove, moveNear⟩

/-- An amount within the scale. -/
theorem ordinary_amount {size : ℚ} (least : 1 ≤ size) (most : size ≤ 10 ^ 44) : Ordinary size := by
  have square : 1 ≤ greatestPrice ^ 2 := one_le_pow₀ (le_trans (by norm_num) greatestPrice_large)
  refine ordinary_of (one_le_mul_of_one_le_of_one_le least square) ?_
  linarith

theorem ordinary_double {size : ℚ} (least : 1 ≤ size) (most : size ≤ 10 ^ 44) : Ordinary (size + size) := by
  have one : Ordinary size := ordinary_amount least most
  refine ⟨by linarith [one.least, one.pos], ?_⟩
  have power : (10 : ℚ) ^ (46 : ℤ) < 10 ^ DecimalContext.emax := zpow_lt_zpow_right₀ (by norm_num) (by decide)
  have whole : (10 : ℚ) ^ (46 : ℤ) = 10 ^ 46 := zpow_natCast 10 46
  rw [whole] at power
  refine lt_of_le_of_lt ?_ power
  linarith only [most]

/-- An amount times a price. -/
theorem ordinary_value {amount price : ℚ} (amountLeast : 1 ≤ amount) (amountMost : amount ≤ 10 ^ 44)
    (priceLeast : 1 ≤ price * greatestPrice) (priceMost : price ≤ 2 * greatestPrice) :
    Ordinary (amount * price) := by
  have large := greatestPrice_large
  have positive := greatestPrice_pos
  have pricePos : 0 < price := (pos_iff_pos_of_mul_pos (by linarith)).mpr positive
  refine ordinary_of ?_ ?_
  · calc (1 : ℚ) ≤ amount * (price * greatestPrice) := one_le_mul_of_one_le_of_one_le amountLeast priceLeast
      _ ≤ amount * (price * greatestPrice) * greatestPrice :=
          le_mul_of_one_le_right (by positivity) (by linarith)
      _ = amount * price * greatestPrice ^ 2 := by ring
  · calc amount * price ≤ 10 ^ 44 * (2 * greatestPrice) :=
          mul_le_mul amountMost priceMost pricePos.le (by norm_num)
      _ ≤ 10 ^ 50 * greatestPrice * 1 := by linarith
      _ ≤ 10 ^ 50 * greatestPrice * greatestPrice :=
          mul_le_mul_of_nonneg_left (by linarith) (by positivity)
      _ = 10 ^ 50 * greatestPrice ^ 2 := by ring

/-- The scale of the amounts that no fee is taken from. -/
def stakeScale (stake : ℚ) (entry exit : Quote) : ℚ := (1 + stake) * (1 + exit.ask.toRat / entry.bid.toRat)

theorem ratio_pos (entry exit : Quote) : 0 < exit.ask.toRat / entry.bid.toRat :=
  div_pos (exit.bid_pos.trans_le exit.bid_le_ask) entry.bid_pos

theorem Settleable.stakeScale_le (settleable : Settleable stake feeBps entry exit) :
    stakeScale stake.toRat entry exit ≤ amountScale stake.toRat feeBps.toRat entry exit := by
  have ratio := ratio_pos entry exit
  have positive := settleable.positive
  have nonneg := settleable.nonneg
  exact le_mul_of_one_le_right (by unfold stakeScale; positivity) (by linarith [div_nonneg nonneg (show (0 : ℚ) ≤ 10000 by norm_num)])

theorem stake_near (positive : 0 < stake.toRat) :
    Near paperContext 0 stake stake.toRat (1 + stake.toRat) :=
  near_exact paperContext stake (by rw [abs_of_pos positive]; linarith)

theorem one_near : Near paperContext 0 (.ofNat 1) 1 1 := by
  have near : Near paperContext 0 (.ofNat 1) _ 1 :=
    near_exact paperContext (.ofNat 1) (by rw [toRat_ofNat]; norm_num)
  rwa [toRat_ofNat, Nat.cast_one] at near

/-- A gain on the stake: the stake times a ratio less one. -/
theorem stakeGain_near (positive : 0 < stake.toRat) {turns : ℕ} (few : turns ≤ 40) {moved : Decimal}
    {value size most : ℚ} (near : Near paperContext turns moved value (size + 1)) (nonneg : 0 ≤ size)
    (below : size ≤ most) (bounded : (1 + stake.toRat) * (1 + most) ≤ 10 ^ 44) :
    ∃ gain, Decimal.mul paperContext stake moved = .ok gain ∧
      Near paperContext (turns + 3) gain (stake.toRat * value) ((1 + stake.toRat) * (1 + most)) := by
  have wider : (1 + stake.toRat) * (size + 1) ≤ (1 + stake.toRat) * (1 + most) :=
    mul_le_mul_of_nonneg_left (by linarith) (by linarith)
  have least : 1 ≤ (1 + stake.toRat) * (size + 1) :=
    one_le_mul_of_one_le_of_one_le (by linarith) (by linarith)
  obtain ⟨gain, isGain, gainNear⟩ := (stake_near positive).mul near paperContext_rounds
    (ordinary_amount least (wider.trans bounded)) (by omega)
  exact ⟨gain, isGain, (gainNear.more (by omega)).widen wider⟩

/-- The ratio of two prices of the quotes. -/
theorem touchRatio_near {above below : Decimal} (aboveLeast : 1 ≤ above.toRat * greatestPrice)
    (belowLeast : 1 ≤ below.toRat * greatestPrice) (aboveMost : above.toRat ≤ greatestPrice)
    (belowMost : below.toRat ≤ greatestPrice) :
    ∃ ratio, Decimal.div paperContext above below = .ok ratio ∧
      Near paperContext 3 ratio (above.toRat / below.toRat) (above.toRat / below.toRat) := by
  have abovePos : 0 < above.toRat := (pos_iff_pos_of_mul_pos (by linarith)).mpr greatestPrice_pos
  have belowPos : 0 < below.toRat := (pos_iff_pos_of_mul_pos (by linarith)).mpr greatestPrice_pos
  exact (near_exact paperContext above (abs_of_pos abovePos).le).div
    (near_exact paperContext below (abs_of_pos belowPos).le) belowPos paperContext_rounds
    (ordinary_ratio abovePos belowPos aboveLeast belowLeast aboveMost belowMost) (by decide)

/-- **The gains** at the mid and at the touch. -/
theorem gains_near (settleable : Settleable stake feeBps entry exit) (direction : Direction) {move : Decimal}
    (moveNear : Near paperContext 15 move (exit.exactMid / entry.exactMid) (exit.exactMid / entry.exactMid)) :
    ∃ gross price, gains direction stake move (touchPrices direction entry exit).1
        (touchPrices direction entry exit).2 = .ok (gross, price) ∧
      Near paperContext 21 gross (exactGross direction stake.toRat entry exit)
        (stakeScale stake.toRat entry exit) ∧
      Near paperContext 21 price (priceResult direction stake.toRat entry exit)
        (stakeScale stake.toRat entry exit) := by
  have positive := settleable.positive
  have bounded := settleable.stakeScale_le.trans settleable.spare
  have ratio := midRatio_le entry exit
  have ratioPos : 0 < exit.exactMid / entry.exactMid := div_pos (exactMid_pos exit) (exactMid_pos entry)
  have most : exit.ask.toRat / entry.bid.toRat + 1 ≤ 10 ^ 44 := by
    refine le_trans ?_ bounded
    unfold stakeScale
    nlinarith [ratio_pos entry exit]
  have entryBid := entry.bid_pos
  have entryAsk := entryBid.trans_le entry.bid_le_ask
  have exitAsk := exit.bid_pos.trans_le exit.bid_le_ask
  have moved : Ordinary (exit.exactMid / entry.exactMid + 1) := ordinary_amount (by linarith) (by linarith)
  cases direction with
  | long =>
      obtain ⟨movedBy, isMoved, movedNear⟩ := moveNear.sub one_near paperContext_rounds moved (by decide)
      obtain ⟨gross, isGross, grossNear⟩ := stakeGain_near positive (by decide) movedNear ratioPos.le ratio
        bounded
      obtain ⟨share, isShare, shareNear⟩ := touchRatio_near settleable.exitInRange.one_le
        settleable.entryInRange.ask_one_le settleable.exitInRange.bid_most settleable.entryInRange.most
      have touchRatio : exit.bid.toRat / entry.ask.toRat ≤ exit.ask.toRat / entry.bid.toRat :=
        div_le_div₀ exitAsk.le exit.bid_le_ask entryBid entry.bid_le_ask
      have sharePos : 0 < exit.bid.toRat / entry.ask.toRat := div_pos exit.bid_pos entryAsk
      obtain ⟨gained, isGained, gainedNear⟩ := shareNear.sub one_near paperContext_rounds
        (ordinary_amount (by linarith) (by linarith)) (by decide)
      obtain ⟨price, isPrice, priceNear⟩ := stakeGain_near positive (by decide) gainedNear sharePos.le
        touchRatio bounded
      refine ⟨gross, price, ?_, grossNear, priceNear.more (by decide)⟩
      exact bind_eq_ok.mpr ⟨movedBy, isMoved, bind_eq_ok.mpr ⟨gross, isGross, bind_eq_ok.mpr ⟨share, isShare,
        bind_eq_ok.mpr ⟨gained, isGained, bind_eq_ok.mpr ⟨price, isPrice, rfl⟩⟩⟩⟩⟩
  | short =>
      have flipped : Ordinary (1 + exit.exactMid / entry.exactMid) := by rwa [add_comm]
      obtain ⟨movedBy, isMoved, movedNear⟩ := one_near.sub moveNear paperContext_rounds flipped (by decide)
      rw [add_comm (1 : ℚ) (exit.exactMid / entry.exactMid)] at movedNear
      obtain ⟨gross, isGross, grossNear⟩ := stakeGain_near positive (by decide) movedNear ratioPos.le ratio
        bounded
      have large := greatestPrice_large
      have bidLeast := settleable.entryInRange.one_le
      have bidMost := settleable.entryInRange.bid_most
      have askMost := settleable.exitInRange.most
      have stakeMost : 1 + stake.toRat ≤ 10 ^ 44 := by
        refine le_trans ?_ bounded
        unfold stakeScale
        nlinarith [ratio_pos entry exit]
      have sumLeast : 1 ≤ (entry.bid.toRat + exit.ask.toRat) * greatestPrice := by nlinarith
      have sumOrdinary : Ordinary (entry.bid.toRat + exit.ask.toRat) :=
        ordinary_of (by nlinarith) (by nlinarith)
      have productOrdinary : Ordinary ((1 + stake.toRat) * (entry.bid.toRat + exit.ask.toRat)) :=
        ordinary_value (by linarith) stakeMost sumLeast (by linarith)
      have least : 1 ≤ stakeScale stake.toRat entry exit :=
        one_le_mul_of_one_le_of_one_le (by linarith) (by linarith [ratio_pos entry exit])
      -- the difference of the prices, on the scale of their sum
      obtain ⟨difference, isDifference, differenceNear⟩ :=
        (near_exact paperContext entry.bid (abs_of_pos entryBid).le).sub
          (near_exact paperContext exit.ask (abs_of_pos exitAsk).le) paperContext_rounds sumOrdinary (by decide)
      obtain ⟨product, isProduct, productNear⟩ := (stake_near positive).mul differenceNear paperContext_rounds
        productOrdinary (by decide)
      have scale : (1 + stake.toRat) * (entry.bid.toRat + exit.ask.toRat) / entry.bid.toRat =
          stakeScale stake.toRat entry exit := by
        unfold stakeScale
        field_simp
      obtain ⟨price, isPrice, priceNear⟩ := productNear.div
        (near_exact paperContext entry.bid (abs_of_pos entryBid).le) entryBid paperContext_rounds
        (by rw [scale]; exact ordinary_amount least bounded) (by decide)
      rw [scale] at priceNear
      refine ⟨gross, price, ?_, grossNear, priceNear.more (by decide)⟩
      exact bind_eq_ok.mpr ⟨movedBy, isMoved, bind_eq_ok.mpr ⟨gross, isGross, bind_eq_ok.mpr ⟨difference,
        isDifference, bind_eq_ok.mpr ⟨product, isProduct, bind_eq_ok.mpr ⟨price, isPrice, rfl⟩⟩⟩⟩⟩

/-- What is known of the prices a play trades at. -/
structure Touches (entry exit : Quote) (prices : Decimal × Decimal) : Prop where
  entryPos : 0 < prices.1.toRat
  entryLeast : 1 ≤ prices.1.toRat * greatestPrice
  entryMost : prices.1.toRat ≤ greatestPrice
  exitPos : 0 < prices.2.toRat
  exitLeast : 1 ≤ prices.2.toRat * greatestPrice
  exitMost : prices.2.toRat ≤ greatestPrice
  ratio : prices.2.toRat / prices.1.toRat ≤ exit.ask.toRat / entry.bid.toRat

theorem touches (entryInRange : entry.InRange) (exitInRange : exit.InRange) (direction : Direction) :
    Touches entry exit (touchPrices direction entry exit) := by
  have exitAsk := exit.bid_pos.trans_le exit.bid_le_ask
  cases direction with
  | long => exact ⟨entry.bid_pos.trans_le entry.bid_le_ask, entryInRange.ask_one_le, entryInRange.most,
      exit.bid_pos, exitInRange.one_le, exitInRange.bid_most,
      div_le_div₀ exitAsk.le exit.bid_le_ask entry.bid_pos entry.bid_le_ask⟩
  | short => exact ⟨entry.bid_pos, entryInRange.one_le, entryInRange.bid_most, exitAsk,
      exitInRange.ask_one_le, exitInRange.most, le_rfl⟩

/-- An amount at the ratio of two prices. -/
theorem ordinary_share {amount : ℚ} {prices : Decimal × Decimal} (known : Touches entry exit prices)
    (least : 1 ≤ amount) (most : amount * prices.2.toRat / prices.1.toRat ≤ 10 ^ 44) :
    Ordinary (amount * prices.2.toRat / prices.1.toRat) := by
  have positive := greatestPrice_pos
  have entryPos := known.entryPos
  have exitPos := known.exitPos
  refine ordinary_of ?_ ?_
  · rw [div_mul_eq_mul_div, one_le_div entryPos]
    calc prices.1.toRat ≤ greatestPrice := known.entryMost
      _ ≤ amount * (prices.2.toRat * greatestPrice) * greatestPrice :=
          le_mul_of_one_le_left positive.le (one_le_mul_of_one_le_of_one_le least known.exitLeast)
      _ = amount * prices.2.toRat * greatestPrice ^ 2 := by ring
  · have square : 1 ≤ greatestPrice ^ 2 := one_le_pow₀ (le_trans (by norm_num) greatestPrice_large)
    linarith

/-- **The fees** of both sides. -/
theorem fees_near (settleable : Settleable stake feeBps entry exit) {prices : Decimal × Decimal}
    (known : Touches entry exit prices) :
    ∃ fraction exitValue exitNotional entryFee exitFee fees,
      Decimal.div paperContext feeBps bps = .ok fraction ∧
      Decimal.mul paperContext stake prices.2 = .ok exitValue ∧
      Decimal.div paperContext exitValue prices.1 = .ok exitNotional ∧
      Decimal.mul paperContext stake fraction = .ok entryFee ∧
      Decimal.mul paperContext exitNotional fraction = .ok exitFee ∧
      Decimal.add paperContext entryFee exitFee = .ok fees ∧
      Near paperContext 21 fees (stake.toRat * (feeBps.toRat / 10000) +
          stake.toRat * prices.2.toRat / prices.1.toRat * (feeBps.toRat / 10000))
        (amountScale stake.toRat feeBps.toRat entry exit) := by
  have positive := settleable.positive
  have nonneg := settleable.nonneg
  have bounded := settleable.spare
  have entryPos := known.entryPos
  have exitPos := known.exitPos
  obtain ⟨rate, isRate⟩ : ∃ rate, rate = feeBps.toRat / 10000 := ⟨_, rfl⟩
  obtain ⟨share, isShare⟩ : ∃ share, share = prices.2.toRat / prices.1.toRat := ⟨_, rfl⟩
  have rateNonneg : 0 ≤ rate := by rw [isRate]; positivity
  have sharePos : 0 < share := by rw [isShare]; positivity
  have whole : (1 + stake.toRat) * (1 + rate) + (1 + stake.toRat) * share * (1 + rate) ≤
      amountScale stake.toRat feeBps.toRat entry exit := by
    have ratio := known.ratio
    rw [← isShare] at ratio
    unfold amountScale
    rw [← isRate]
    have factor : 0 ≤ (1 + stake.toRat) * (1 + rate) := by positivity
    have scaled := mul_le_mul_of_nonneg_left ratio factor
    linarith
  have least : 1 ≤ (1 + stake.toRat) * (1 + rate) := one_le_mul_of_one_le_of_one_le (by linarith) (by linarith)
  have other : 0 < (1 + stake.toRat) * share * (1 + rate) := by positivity
  -- the rate
  have feeNear : Near paperContext 0 feeBps _ (10000 * (1 + rate)) := near_exact paperContext feeBps (by
    rw [abs_of_nonneg nonneg, isRate]
    linarith)
  have bpsNear : Near paperContext 0 bps _ 10000 := near_exact paperContext bps (by
    rw [bps, toRat_ofNat]
    norm_num)
  rw [bps, toRat_ofNat] at bpsNear
  have rateScale : 10000 * (1 + rate) / 10000 = 1 + rate := by ring
  have rateMost : 1 + rate ≤ (1 + stake.toRat) * (1 + rate) :=
    le_mul_of_one_le_left (by linarith) (by linarith)
  obtain ⟨fraction, isFraction, fractionNear⟩ := feeNear.div (y := 10000) (by exact_mod_cast bpsNear)
    (by norm_num) paperContext_rounds
    (by rw [rateScale]; exact ordinary_amount (by linarith) (by linarith)) (by decide)
  rw [rateScale, ← isRate] at fractionNear
  -- the fee of the entry
  obtain ⟨entryFee, isEntryFee, entryNear⟩ := (stake_near positive).mul fractionNear paperContext_rounds
    (ordinary_amount least (by linarith)) (by decide)
  -- the value at the exit
  have stakeMost : 1 + stake.toRat ≤ (1 + stake.toRat) * (1 + rate) :=
    le_mul_of_one_le_right (by linarith) (by linarith)
  obtain ⟨exitValue, isExitValue, valueNear⟩ := (stake_near positive).mul
    (near_exact paperContext prices.2 (abs_of_pos exitPos).le) paperContext_rounds
    (ordinary_value (by linarith) (by linarith) known.exitLeast
      (by linarith [known.exitMost, greatestPrice_pos])) (by decide)
  have notionalScale : (1 + stake.toRat) * prices.2.toRat / prices.1.toRat = (1 + stake.toRat) * share := by
    rw [isShare, mul_div_assoc]
  have notionalMost : (1 + stake.toRat) * share ≤ (1 + stake.toRat) * share * (1 + rate) :=
    le_mul_of_one_le_right (by positivity) (by linarith)
  obtain ⟨exitNotional, isNotional, notionalNear⟩ := valueNear.div
    (near_exact paperContext prices.1 (abs_of_pos entryPos).le) entryPos paperContext_rounds
    (ordinary_share known (by linarith) (by rw [notionalScale]; linarith)) (by decide)
  rw [notionalScale] at notionalNear
  -- the fee of the exit
  have exitScale : (1 + stake.toRat) * share * (1 + rate) =
      (1 + stake.toRat) * (1 + rate) * prices.2.toRat / prices.1.toRat := by
    rw [isShare]
    ring
  obtain ⟨exitFee, isExitFee, exitNear⟩ := notionalNear.mul fractionNear paperContext_rounds
    (by rw [exitScale]; exact ordinary_share known least (by rw [← exitScale]; linarith)) (by decide)
  obtain ⟨fees, isFees, feesNear⟩ := entryNear.add exitNear paperContext_rounds
    (ordinary_amount (by linarith) (by linarith)) (by decide)
  exact ⟨fraction, exitValue, exitNotional, entryFee, exitFee, fees, isFraction, isExitValue, isNotional,
    isEntryFee, isExitFee, isFees, isRate ▸ (feesNear.more (by decide)).widen whole⟩

/-! ## The settlement -/

/-- A number not far below zero is rounded to cents that are not below zero. -/
theorem cents_nonneg {amount result : Decimal} (above : -1 / 200 < amount.toRat) (isCents : cents amount = .ok result) :
    0 ≤ result.toRat := by
  obtain ⟨count, units⟩ := isUnits_of_quantize isCents
  have near := (abs_le.mp (quantize_halfEven_near isCents)).1
  have unit : (10 : ℚ) ^ centExponent = 1 / 100 := by norm_num [centExponent]
  rw [units, unit] at near ⊢
  have least : (-1 : ℚ) < count := by linarith
  have nonneg : (0 : ℤ) ≤ count := by
    have whole : (-1 : ℤ) < count := by exact_mod_cast least
    omega
  have nonnegRat : (0 : ℚ) ≤ count := by exact_mod_cast nonneg
  positivity

/-- An amount of the scale is rounded to cents. -/
theorem exists_cents (amount : Decimal) (most : |amount.toRat| ≤ 3 * 10 ^ 44) :
    ∃ count result, cents amount = .ok result ∧ IsCents count result ∧ |count| ≤ 10 ^ 47 ∧
      |result.toRat - amount.toRat| ≤ 1 / 200 := by
  have power : (10 : ℚ) ^ ((paperContext.precision : ℤ) - 1 + centExponent) = 10 ^ 47 := by
    rw [← zpow_natCast]
    rfl
  have small : |amount.toRat| < 10 ^ ((paperContext.precision : ℤ) - 1 + centExponent) := by
    rw [power]
    linarith
  obtain ⟨result, isResult⟩ := exists_quantize paperContext_holdsCents small
  obtain ⟨count, units⟩ := isUnits_of_quantize isResult
  have near := quantize_halfEven_near isResult
  have unit : (10 : ℚ) ^ centExponent = 1 / 100 := by norm_num [centExponent]
  rw [unit] at near
  have close : |result.toRat - amount.toRat| ≤ 1 / 200 := by linarith
  refine ⟨count, result, isResult, units, ?_, close⟩
  have triangle := abs_sub_abs_le_abs_sub result.toRat amount.toRat
  have size : |result.toRat| = |(count : ℚ)| / 100 := by
    rw [units, unit, abs_mul, abs_of_pos (by norm_num : (0 : ℚ) < 1 / 100)]
    ring
  have bounded : |(count : ℚ)| ≤ 10 ^ 47 := by linarith
  exact_mod_cast bounded

/-- The amounts of a settlement are right. -/
structure AddsUp (direction : Direction) (stake feeBps : ℚ) (entry exit : Quote) (result : PlayResult) :
    Prop where
  cents : ∃ gross spread fees net, IsCents gross result.grossMid ∧ IsCents spread result.spreadCost ∧
    IsCents fees result.fees ∧ IsCents net result.net
  net : result.net.toRat = result.grossMid.toRat - result.spreadCost.toRat - result.fees.toRat
  spread : 0 ≤ result.spreadCost.toRat
  fees : 0 ≤ result.fees.toRat
  near : |result.net.toRat - (priceResult direction stake entry exit -
    exactFees direction stake feeBps entry exit)| ≤
      15 / 1000 + amountScale stake feeBps entry exit / 10 ^ 46

/-- The spread is no gain. -/
theorem priceResult_le (direction : Direction) {stake : ℚ} (positive : 0 < stake) (entry exit : Quote) :
    priceResult direction stake entry exit ≤ exactGross direction stake entry exit := by
  have entryBid := entry.bid_pos
  cases direction with
  | long =>
      have ratio : exit.bid.toRat / entry.ask.toRat ≤ exit.exactMid / entry.exactMid :=
        div_le_div₀ (exactMid_pos exit).le exit.exactMid_bounds.1 (exactMid_pos entry)
          entry.exactMid_bounds.2
      exact mul_le_mul_of_nonneg_left (by linarith) positive.le
  | short =>
      have touch : (entry.bid.toRat - exit.ask.toRat) / entry.bid.toRat =
          1 - exit.ask.toRat / entry.bid.toRat := by
        rw [sub_div, div_self entryBid.ne']
      change stake * _ / _ ≤ _
      rw [mul_div_assoc, touch]
      exact mul_le_mul_of_nonneg_left (by linarith [midRatio_le entry exit]) positive.le

theorem exactFees_nonneg (settleable : Settleable stake feeBps entry exit) (direction : Direction) :
    0 ≤ exactFees direction stake.toRat feeBps.toRat entry exit := by
  have positive := settleable.positive
  have nonneg := settleable.nonneg
  have known := touches settleable.entryInRange settleable.exitInRange direction
  have entryPos := known.entryPos
  have exitPos := known.exitPos
  unfold exactFees
  positivity

/-- Few turns at the scale of the amounts, in parts of it. -/
theorem turns_scale {turns : ℕ} {number : Decimal} {value scale : ℚ}
    (near : Near paperContext turns number value scale) :
    |number.toRat - value| ≤ turns * (scale / 10 ^ 49) := by
  have unit : Decimal.unit paperContext = 1 / 10 ^ 49 := by
    unfold Decimal.unit
    norm_num [paperContext]
  have error := near.error
  rw [unit] at error
  linarith

theorem settleAmounts_addsUp (settleable : Settleable stake feeBps entry exit) (direction : Direction) :
    ∃ result, settleAmounts direction stake feeBps entry exit = .ok result ∧
      AddsUp direction stake.toRat feeBps.toRat entry exit result := by
  have bounded := settleable.spare
  have scaleLe := settleable.stakeScale_le
  obtain ⟨exitMid, entryMid, move, isExit, isEntry, isMove, moveNear⟩ :=
    move_near settleable.entryInRange settleable.exitInRange
  obtain ⟨gross, price, isGains, grossNear, priceNear⟩ := gains_near settleable direction moveNear
  obtain ⟨fraction, exitValue, exitNotional, entryFee, exitFee, fees, isFraction, isExitValue, isNotional,
    isEntryFee, isExitFee, isFees, feesNear⟩ :=
      fees_near settleable (touches settleable.entryInRange settleable.exitInRange direction)
  have feesNear : Near paperContext 21 fees (exactFees direction stake.toRat feeBps.toRat entry exit)
      (amountScale stake.toRat feeBps.toRat entry exit) := feesNear
  have least : 1 ≤ stakeScale stake.toRat entry exit :=
    one_le_mul_of_one_le_of_one_le (by linarith [settleable.positive]) (by linarith [ratio_pos entry exit])
  obtain ⟨spread, isSpread, spreadNear⟩ := grossNear.sub priceNear paperContext_rounds
    (ordinary_double least (by linarith)) (by decide)
  have grossSize := grossNear.toRat_le paperContext_rounds (by decide)
  have spreadSize := spreadNear.toRat_le paperContext_rounds (by decide)
  have feesSize := feesNear.toRat_le paperContext_rounds (by decide)
  obtain ⟨grossCount, grossCents, isGrossCents, grossUnits, grossFew, grossClose⟩ :=
    exists_cents gross (by linarith)
  obtain ⟨spreadCount, spreadCents, isSpreadCents, spreadUnits, spreadFew, spreadClose⟩ :=
    exists_cents spread (by linarith)
  obtain ⟨feeCount, feeCents, isFeeCents, feeUnits, feeFew, feeClose⟩ :=
    exists_cents fees (by linarith)
  have few : |grossCount - spreadCount| < 10 ^ 50 := by
    have triangle := abs_sub grossCount spreadCount
    omega
  have fewer : |grossCount - spreadCount - feeCount| < 10 ^ 50 := by
    have triangle := abs_sub grossCount spreadCount
    have another := abs_sub (grossCount - spreadCount) feeCount
    omega
  obtain ⟨afterSpread, isAfterSpread, afterUnits⟩ := grossUnits.sub spreadUnits paperContext_holdsCents few
  obtain ⟨net, isNet, netUnits⟩ := afterUnits.sub feeUnits paperContext_holdsCents fewer
  have netValue : net.toRat = grossCents.toRat - spreadCents.toRat - feeCents.toRat := by
    rw [netUnits, grossUnits, spreadUnits, feeUnits]
    push_cast
    ring
  have grossError := abs_le.mp (turns_scale grossNear)
  have spreadError := abs_le.mp (turns_scale spreadNear)
  have feesError := abs_le.mp (turns_scale feesNear)
  have gains := priceResult_le direction settleable.positive entry exit
  have feesNonneg : 0 ≤ exactFees direction stake.toRat feeBps.toRat entry exit :=
    exactFees_nonneg settleable direction
  refine ⟨_, bind_eq_ok.mpr ⟨fraction, isFraction, bind_eq_ok.mpr ⟨exitMid, isExit, bind_eq_ok.mpr ⟨entryMid,
    isEntry, bind_eq_ok.mpr ⟨move, isMove, bind_eq_ok.mpr ⟨(gross, price), isGains, bind_eq_ok.mpr ⟨exitValue,
    isExitValue, bind_eq_ok.mpr ⟨exitNotional, isNotional, bind_eq_ok.mpr ⟨entryFee, isEntryFee,
    bind_eq_ok.mpr ⟨exitFee, isExitFee, bind_eq_ok.mpr ⟨fees, isFees, bind_eq_ok.mpr ⟨grossCents,
    isGrossCents, bind_eq_ok.mpr ⟨spread, isSpread, bind_eq_ok.mpr ⟨spreadCents, isSpreadCents,
    bind_eq_ok.mpr ⟨feeCents, isFeeCents, bind_eq_ok.mpr ⟨afterSpread, isAfterSpread,
    bind_eq_ok.mpr ⟨net, isNet, rfl⟩⟩⟩⟩⟩⟩⟩⟩⟩⟩⟩⟩⟩⟩⟩⟩, ?_⟩
  refine ⟨⟨grossCount, spreadCount, feeCount, _, grossUnits, spreadUnits, feeUnits, netUnits⟩, netValue,
    cents_nonneg ?_ isSpreadCents, cents_nonneg ?_ isFeeCents, ?_⟩
  · push_cast at spreadError
    linarith
  · push_cast at feesError
    linarith
  · dsimp only
    rw [netValue, abs_le]
    have one := abs_le.mp grossClose
    have two := abs_le.mp spreadClose
    have three := abs_le.mp feeClose
    push_cast at grossError spreadError feesError
    constructor
    · linarith
    · linarith

/-- **A settlement adds up**: cent amounts, of which the net is the exact difference, without a gain from
the spread or the fees, and next to the exact result. -/
theorem settle_adds_up (direction : Direction) (stake feeBps : Decimal) (entry exit : Quote)
    (settleable : Settleable stake feeBps entry exit) :
    ∃ result, settle direction stake feeBps entry exit = .ok result ∧
      AddsUp direction stake.toRat feeBps.toRat entry exit result := by
  obtain ⟨result, isResult, addsUp⟩ := settleAmounts_addsUp settleable direction
  have zeroValue : zero.toRat = 0 := by
    rw [zero, toRat_ofNat]
    rfl
  refine ⟨result, ?_, addsUp⟩
  refine bind_eq_ok.mpr ⟨(), ensure_of ?_, bind_eq_ok.mpr ⟨(), ensure_of ?_, mapError_eq_ok.mpr isResult⟩⟩
  · rw [Decimal.lt_iff, Decimal.eq_iff, zeroValue]
    have positive := settleable.positive
    rintro (below | ⟨none, _⟩)
    · linarith
    · linarith
  · rw [Decimal.lt_iff, zeroValue]
    have nonneg := settleable.nonneg
    rintro (below | ⟨_, forbidden⟩)
    · linarith
    · exact forbidden rfl

end Amounts

/-- A quote without a spread. -/
def evenQuote : Quote where
  bid := .ofNat 1
  ask := .ofNat 1
  positive := by decide
  askPositive := by decide
  ordered := by decide

def doubleQuote : Quote where
  bid := .ofNat 2
  ask := .ofNat 2
  positive := by decide
  askPositive := by decide
  ordered := by decide

/-- A touch with more digits than the context. -/
def longQuote : Quote where
  bid := ⟨false, 125 * 10 ^ 58 - 1, -60⟩
  ask := ⟨false, 126 * 10 ^ 58 + 1, -60⟩
  positive := by decide
  askPositive := by decide
  ordered := by decide

/-- What `settle` returns of three ties, each rounded against the others. -/
def threeTies : PlayResult :=
  ⟨.ofNat 1, longQuote.bid, ⟨false, 26, -2⟩, ⟨false, 0, -2⟩, ⟨false, 4, -2⟩, ⟨false, 22, -2⟩, .win⟩

theorem settlements_at_the_edge :
    settle .long ⟨false, 1, 48⟩ (.ofNat 0) evenQuote doubleQuote = .error (.decimal .invalidOperation) ∧
    settle .long (.ofNat 1) (.ofNat 200) evenQuote longQuote = .ok threeTies ∧
    15 / 1000 < |threeTies.net.toRat -
      (priceResult .long 1 evenQuote longQuote - exactFees .long 1 200 evenQuote longQuote)| := by
  refine ⟨by decide +kernel, by decide +kernel, ?_⟩
  unfold priceResult exactFees threeTies evenQuote longQuote touchPrices Decimal.toRat Decimal.magnitude
    Decimal.ofNat
  rw [lt_abs]
  norm_num

theorem settle_adds_up_double :
    ∃ result, settle .long (.ofNat 100) (.ofNat 25) evenQuote doubleQuote = .ok result ∧
      AddsUp .long (Decimal.ofNat 100).toRat (Decimal.ofNat 25).toRat evenQuote doubleQuote result := by
  have large := greatestPrice_large
  have one : (Decimal.ofNat 1).toRat = 1 := by rw [toRat_ofNat, Nat.cast_one]
  have two : (Decimal.ofNat 2).toRat = 2 := toRat_ofNat 2
  have stake : (Decimal.ofNat 100).toRat = 100 := toRat_ofNat 100
  have rate : (Decimal.ofNat 25).toRat = 25 := toRat_ofNat 25
  have inverse : 1 / greatestPrice ≤ 1 := by
    rw [div_le_one greatestPrice_pos]
    linarith
  refine settle_adds_up .long (.ofNat 100) (.ofNat 25) evenQuote doubleQuote ⟨?_, ?_, ⟨?_, ?_⟩, ⟨?_, ?_⟩, ?_⟩
  · rw [stake]
    norm_num
  · rw [rate]
    norm_num
  · exact inverse.trans one.ge
  · exact one.le.trans (by linarith)
  · exact inverse.trans (by change 1 ≤ (Decimal.ofNat 2).toRat; rw [two]; norm_num)
  · exact two.le.trans (by linarith)
  · have ask : doubleQuote.ask.toRat = 2 := two
    have bid : evenQuote.bid.toRat = 1 := one
    rw [amountScale, stake, rate, ask, bid]
    norm_num

end CryptoRadar.Paper
