import CryptoRadar.Lib.Checked
import CryptoRadar.Lib.ExactNumber
import CryptoRadar.Lib.Offers
import CryptoRadar.Microstructure.Book

/-!
# The walk of a book fills at a fair price

In exact arithmetic the walk of a side spends the reference amount along the levels as offers
(`walkBookForFill_exact`). So a fill is full when the levels reach the reference, its average price lies
between the best price and the last level it takes from, and the slippage of `compute_depth_metrics` is never
negative and never falls when the reference grows (`book_walk_is_a_fair_fill`).
-/

set_option autoImplicit false

namespace CryptoRadar.Microstructure

open Checked ExactNumber Offers

variable {K : Type} [Field K] [LinearOrder K]

/-- The direction in which the prices of a side get worse. -/
def BookSide.sign : BookSide → K
  | .bid => -1
  | .ask => 1

def BookSide.levels (side : BookSide) (bids asks : List (K × K)) : List (K × K) :=
  match side with
  | .bid => bids
  | .ask => asks

/-- `worse` is strictly worse for a taker than `better`. -/
def BookSide.Worse (side : BookSide) (better worse : K) : Prop :=
  match side with
  | .bid => worse < better
  | .ask => better < worse

/-- `price` is no better than `best` and no worse than `last`. -/
def BookSide.Between (side : BookSide) (best price last : K) : Prop :=
  match side with
  | .bid => last ≤ price ∧ price ≤ best
  | .ask => best ≤ price ∧ price ≤ last

/-- Strictly ordered positive prices from `best` on, and sizes of which the first is positive. -/
structure GoodSide (side : BookSide) (best : K) (levels : List (K × K)) : Prop where
  ordered : levels.Pairwise fun earlier later => side.Worse earlier.1 later.1
  pricePos : ∀ level ∈ levels, 0 < level.1
  sizeNonneg : ∀ level ∈ levels, 0 ≤ level.2
  firstSized : ∃ size rest, levels = (best, size) :: rest ∧ 0 < size

/-- Both sides have a positive best price, and they do not cross. -/
def Quoted (bids asks : List (K × K)) : Prop :=
  ∃ bid bidSize bidRest ask askSize askRest,
    bids = (bid, bidSize) :: bidRest ∧ asks = (ask, askSize) :: askRest ∧ 0 < bid ∧ bid ≤ ask

def DepthMetrics.slippageOf (metrics : DepthMetrics K) : BookSide → Option K
  | .bid => metrics.slippageSellBps
  | .ask => metrics.slippageBuyBps

section Good

variable {side : BookSide} {best : K} {levels : List (K × K)}

theorem GoodSide.sound (good : GoodSide side best levels) : Sound levels :=
  fun level isMem => ⟨good.pricePos level isMem, good.sizeNonneg level isMem⟩

theorem GoodSide.best_pos (good : GoodSide side best levels) : 0 < best := by
  obtain ⟨size, rest, rfl, sized⟩ := good.firstSized
  exact good.pricePos _ List.mem_cons_self

end Good

theorem slippage_isOk (price : Option K) {formula : K → Except NumberError K}
    (isOk : ∀ price, ∃ bps, formula price = .ok bps) :
    ∃ bps, slippage price formula = .ok bps := by
  cases price with
  | none => exact ⟨none, rfl⟩
  | some price =>
      obtain ⟨bps, isBps⟩ := isOk price
      simp only [slippage, isBps]
      split_ifs <;> exact ⟨_, rfl⟩

variable [IsStrictOrderedRing K]

section Signs

theorem BookSide.sign_of_worse {side : BookSide} {better worse : K} (isWorse : side.Worse better worse) :
    0 ≤ side.sign * (worse - better) := by
  cases side with
  | bid =>
      simp only [BookSide.Worse, BookSide.sign] at isWorse ⊢
      linarith
  | ask =>
      simp only [BookSide.Worse, BookSide.sign] at isWorse ⊢
      linarith

theorem BookSide.between_of_sign {side : BookSide} {best price last : K}
    (noBetter : 0 ≤ side.sign * (price - best)) (noWorse : 0 ≤ side.sign * (last - price)) :
    side.Between best price last := by
  cases side with
  | bid =>
      simp only [BookSide.sign] at noBetter noWorse
      exact ⟨by linarith, by linarith⟩
  | ask =>
      simp only [BookSide.sign] at noBetter noWorse
      exact ⟨by linarith, by linarith⟩

variable {side : BookSide} {best : K} {levels : List (K × K)}

theorem GoodSide.worsening (good : GoodSide side best levels) : Worsening side.sign levels :=
  good.ordered.imp BookSide.sign_of_worse

end Signs

section Walk

theorem ratioIfPositive_exact (first second : K) :
    ratioIfPositive first second = .ok (if 0 < second then some (first / second) else none) := by
  unfold ratioIfPositive
  by_cases positive : 0 < second
  · simp [positive, divide_of_ne positive.ne', bind, Except.bind, pure, Except.pure]
  · simp [positive, pure, Except.pure]

/-- The loop spends what is left of the reference along the levels. -/
theorem walkLevels_exact {reference : K} {levels : List (K × K)} (sound : Sound levels) {usd : K}
    (open_ : usd < reference) (base : K) :
    walkLevels reference levels usd base =
      .ok (if 0 < base + taken levels (reference - usd) then
          some ((usd + spent levels (reference - usd)) / (base + taken levels (reference - usd)))
        else none, decide (reference - usd ≤ cost levels)) := by
  induction levels generalizing usd base with
  | nil =>
      have short : ¬ reference - usd ≤ 0 := not_le.mpr (sub_pos.mpr open_)
      simp [walkLevels, ratioIfPositive_exact, taken, spent, short, bind, Except.bind, pure, Except.pure]
  | cons level rest ih =>
      obtain ⟨price, size⟩ := level
      have isPositive := sound.head.1
      have later := cost_nonneg sound.tail
      rcases le_or_gt (reference - usd) (price * size) with within | beyond
      · have reached : reference ≤ usd + price * size := by linarith
        have full : reference - usd ≤ price * size + cost rest := by linarith
        simp [walkLevels, reached, isPositive, divide_of_ne isPositive.ne', ratioIfPositive_exact,
          taken_within within, spent_within within, full, bind, Except.bind, pure, Except.pure]
      · have unreached : usd + price * size < reference := by linarith
        have left : reference - (usd + price * size) = reference - usd - price * size := by ring
        simp only [walkLevels, add_exact, mul_exact, le_exact, not_le.mpr unreached, decide_false,
          Bool.false_eq_true, if_false, ih sound.tail unreached, left, taken_beyond beyond,
          spent_beyond beyond, cost_cons, add_assoc, sub_le_iff_le_add']

variable {side : BookSide} {best : K} {levels : List (K × K)}

theorem GoodSide.taken_pos (good : GoodSide side best levels) {reference : K}
    (positive : 0 < reference) : 0 < taken levels reference := by
  have sound := good.sound
  obtain ⟨size, rest, rfl, sized⟩ := good.firstSized
  exact Offers.taken_pos sound sized positive

theorem GoodSide.spent_pos (good : GoodSide side best levels) {reference : K}
    (positive : 0 < reference) : 0 < spent levels reference := by
  have sound := good.sound
  obtain ⟨size, rest, rfl, sized⟩ := good.firstSized
  exact Offers.spent_pos sound sized positive

/-- The walk of levels of which the first is sized: the average of what is spent, full when the levels reach
the reference. -/
theorem walkBookForFill_of_sized {price size : K} {rest : List (K × K)}
    (sound : Sound ((price, size) :: rest)) (sized : 0 < size) {reference : K} (positive : 0 < reference) :
    walkBookForFill ((price, size) :: rest) reference =
      .ok (some (spent ((price, size) :: rest) reference / taken ((price, size) :: rest) reference),
        decide (reference ≤ cost ((price, size) :: rest))) := by
  have base := Offers.taken_pos sound sized positive
  have walked := walkLevels_exact sound positive 0
  rw [sub_zero, zero_add, zero_add, if_pos base] at walked
  simpa only [walkBookForFill, zero_exact] using walked

theorem walkBookForFill_exact (good : GoodSide side best levels) {reference : K}
    (positive : 0 < reference) :
    walkBookForFill levels reference =
      .ok (some (spent levels reference / taken levels reference),
        decide (reference ≤ cost levels)) := by
  have sound := good.sound
  obtain ⟨size, rest, rfl, sized⟩ := good.firstSized
  exact walkBookForFill_of_sized sound sized positive

theorem GoodSide.best_le_average (good : GoodSide side best levels) {reference : K}
    (positive : 0 < reference) :
    0 ≤ side.sign * (spent levels reference / taken levels reference - best) := by
  have base := good.taken_pos positive
  have noBetter : 0 ≤ side.sign * (spent levels reference - best * taken levels reference) := by
    have sound := good.sound
    have worsening := good.worsening
    obtain ⟨size, rest, rfl, sized⟩ := good.firstSized
    exact first_le_average sound worsening positive.le
  have split : side.sign * (spent levels reference / taken levels reference - best) =
      side.sign * (spent levels reference - best * taken levels reference) /
        taken levels reference := by
    field_simp
  rw [split]
  exact div_nonneg noBetter base.le

theorem GoodSide.average_le_last (good : GoodSide side best levels) {reference : K}
    (positive : 0 < reference) :
    0 ≤ side.sign *
      (lastPrice best levels reference - spent levels reference / taken levels reference) := by
  have base := good.taken_pos positive
  have noWorseBest : NoWorse side.sign best levels := by
    have worsening := good.worsening
    obtain ⟨size, rest, rfl, sized⟩ := good.firstSized
    intro offer isMem
    rcases List.mem_cons.mp isMem with rfl | isRest
    · simp
    · exact worsening.noWorse offer isRest
  have noWorse := Offers.average_le_last good.sound noWorseBest good.worsening reference
  have split : side.sign *
        (lastPrice best levels reference - spent levels reference / taken levels reference) =
      side.sign * (lastPrice best levels reference * taken levels reference -
        spent levels reference) / taken levels reference := by
    field_simp
  rw [split]
  exact div_nonneg noWorse base.le

theorem GoodSide.average_mono (good : GoodSide side best levels) {reference larger : K}
    (positive : 0 < reference) (grows : reference ≤ larger) :
    0 ≤ side.sign * (spent levels larger / taken levels larger -
      spent levels reference / taken levels reference) := by
  have base := good.taken_pos positive
  have largerBase := good.taken_pos (positive.trans_le grows)
  have crossed := Offers.average_mono good.sound good.worsening positive.le grows
  have split : side.sign * (spent levels larger / taken levels larger -
        spent levels reference / taken levels reference) =
      side.sign * (spent levels larger * taken levels reference -
        spent levels reference * taken levels larger) /
          (taken levels larger * taken levels reference) := by
    field_simp
  rw [split]
  exact div_nonneg crossed (mul_pos largerBase base).le

end Walk

section Metrics

/-- In exact arithmetic the walk of any levels returns. -/
theorem walkLevels_isOk (reference : K) (levels : List (K × K)) (usd base : K) :
    ∃ filled, walkLevels reference levels usd base = .ok filled := by
  induction levels generalizing usd base with
  | nil => simp [walkLevels, ratioIfPositive_exact, bind, Except.bind, pure, Except.pure]
  | cons level rest ih =>
      obtain ⟨price, size⟩ := level
      rw [walkLevels]
      split_ifs with reached isPositive
      · have nonzero : price ≠ 0 := by
          have positive : 0 < price := by simpa using isPositive
          exact positive.ne'
        simp [divide_of_ne nonzero, ratioIfPositive_exact, bind, Except.bind, pure, Except.pure]
      · simp [ratioIfPositive_exact, bind, Except.bind, pure, Except.pure]
      · exact ih _ _

theorem walkBookForFill_isOk (levels : List (K × K)) (reference : K) :
    ∃ filled, walkBookForFill levels reference = .ok filled := by
  cases levels with
  | nil => exact ⟨_, rfl⟩
  | cons level rest => exact walkLevels_isOk reference (level :: rest) _ _

theorem depthUsdWithinBand_isOk (levels : List (K × K)) (mid bandPct : K) (side : BookSide) :
    ∃ depth, depthUsdWithinBand levels mid bandPct side = .ok depth := by
  have nonzero : @OfScientific.ofScientific K exact.toOfScientific 1000 true 1 ≠ 0 := by
    change (OfScientific.ofScientific 1000 true 1 : K) ≠ 0
    norm_num
  unfold depthUsdWithinBand
  split_ifs
  · exact ⟨_, rfl⟩
  · rw [divide_of_ne nonzero]
    exact ⟨_, rfl⟩

/-- In exact arithmetic a book with usable best prices has metrics. -/
theorem computeDepthMetrics_of_quoted {bids asks : List (K × K)} (quoted : Quoted bids asks)
    (reference : K) : ∃ metrics, computeDepthMetrics bids asks reference = .ok (some metrics) := by
  obtain ⟨bid, bidSize, bidRest, ask, askSize, askRest, rfl, rfl, bidPos, uncrossed⟩ := quoted
  have askPos : 0 < ask := bidPos.trans_le uncrossed
  have two : @OfScientific.ofScientific K exact.toOfScientific 20 true 1 ≠ 0 := by
    change (OfScientific.ofScientific 20 true 1 : K) ≠ 0
    norm_num
  have usable : (PyFloat.le bid 0.0 || PyFloat.le ask 0.0 || PyFloat.lt ask bid) = false := by
    simp [bidPos, askPos, uncrossed]
  simp only [computeDepthMetrics, usable, Bool.false_eq_true, if_false]
  refine bind_gives ⟨_, divide_of_ne two⟩ fun mid => ?_
  refine bind_gives ⟨_, ratioIfPositive_exact _ _⟩ fun spread => ?_
  refine bind_gives (depthUsdWithinBand_isOk _ _ _ _) fun bid05 => ?_
  refine bind_gives (depthUsdWithinBand_isOk _ _ _ _) fun ask05 => ?_
  refine bind_gives (depthUsdWithinBand_isOk _ _ _ _) fun bid1 => ?_
  refine bind_gives (depthUsdWithinBand_isOk _ _ _ _) fun ask1 => ?_
  refine bind_gives ⟨_, ratioIfPositive_exact _ _⟩ fun imbalance => ?_
  refine bind_gives (walkBookForFill_isOk _ _) fun buy => ?_
  refine bind_gives (walkBookForFill_isOk _ _) fun sell => ?_
  refine bind_gives (slippage_isOk _ fun price => ?_) fun buyBps => ?_
  · rw [divide_of_ne askPos.ne']
    exact ⟨_, rfl⟩
  refine bind_gives (slippage_isOk _ fun price => ?_) fun sellBps => ?_
  · rw [divide_of_ne bidPos.ne']
    exact ⟨_, rfl⟩
  exact ⟨_, rfl⟩

/-- Metrics come from the touch and from the walk of each side. -/
theorem computeDepthMetrics_parts {F : Type} [PyFloat F] {bid bidSize ask askSize reference : F}
    {bidRest askRest : List (F × F)} {metrics : DepthMetrics F}
    (computed : computeDepthMetrics ((bid, bidSize) :: bidRest) ((ask, askSize) :: askRest) reference =
      .ok (some metrics)) :
    (∃ mid spread, PyFloat.divide (bid + ask) 2.0 = .ok mid ∧
      ratioIfPositive (ask - bid) mid = .ok spread ∧ metrics.spreadBps = spread.map (· * 10000.0)) ∧
    ∃ buy sell, walkBookForFill ((ask, askSize) :: askRest) reference = .ok buy ∧
      walkBookForFill ((bid, bidSize) :: bidRest) reference = .ok sell ∧
      (slippage buy.1 fun price => do
        let ratio ← PyFloat.divide price ask
        return (ratio - 1.0) * 10000.0) = .ok metrics.slippageBuyBps ∧
      (slippage sell.1 fun price => do
        let ratio ← PyFloat.divide price bid
        return (1.0 - ratio) * 10000.0) = .ok metrics.slippageSellBps ∧
      metrics.depthAvailableAtReference = (buy.2 && sell.2) := by
  simp only [computeDepthMetrics] at computed
  split_ifs at computed
  · cases computed
  obtain ⟨mid, isMid, computed⟩ := bind_eq_ok.mp computed
  obtain ⟨spread, isSpread, computed⟩ := bind_eq_ok.mp computed
  obtain ⟨bid05, -, computed⟩ := bind_eq_ok.mp computed
  obtain ⟨ask05, -, computed⟩ := bind_eq_ok.mp computed
  obtain ⟨bid1, -, computed⟩ := bind_eq_ok.mp computed
  obtain ⟨ask1, -, computed⟩ := bind_eq_ok.mp computed
  obtain ⟨imbalance, -, computed⟩ := bind_eq_ok.mp computed
  obtain ⟨buy, isBuy, computed⟩ := bind_eq_ok.mp computed
  obtain ⟨sell, isSell, computed⟩ := bind_eq_ok.mp computed
  obtain ⟨buyBps, isBuyBps, computed⟩ := bind_eq_ok.mp computed
  obtain ⟨sellBps, isSellBps, computed⟩ := bind_eq_ok.mp computed
  cases computed
  exact ⟨⟨mid, spread, isMid, isSpread, rfl⟩, buy, sell, isBuy, isSell, isBuyBps, isSellBps, rfl⟩

/-- A price that is filled has a slippage. -/
theorem slippage_filled {average bps : K} (nonzero : average ≠ 0) {formula : K → Except NumberError K}
    (isBps : formula average = .ok bps) : slippage (some average) formula = .ok (some bps) := by
  have truthy : PyFloat.eq average 0.0 = false := by simp [nonzero]
  rw [slippage, truthy, isBps]
  rfl

/-- The slippage of a good side is the distance of its average price from the touch. -/
theorem slippageOf_exact {side : BookSide} {bids asks : List (K × K)} {best reference : K}
    (quoted : Quoted bids asks) (good : GoodSide side best (side.levels bids asks))
    (positive : 0 < reference) {metrics : DepthMetrics K}
    (computed : computeDepthMetrics bids asks reference = .ok (some metrics)) :
    metrics.slippageOf side = some (side.sign * (spent (side.levels bids asks) reference /
      taken (side.levels bids asks) reference - best) * (10000 / best)) := by
  have tenThousand : @OfScientific.ofScientific K exact.toOfScientific 100000 true 1 = 10000 := by
    change (OfScientific.ofScientific 100000 true 1 : K) = 10000
    norm_num
  have filled := walkBookForFill_exact good positive
  have nonzero := (div_pos (good.spent_pos positive) (good.taken_pos positive)).ne'
  have bestNonzero := good.best_pos.ne'
  obtain ⟨bid, bidSize, bidRest, ask, askSize, askRest, rfl, rfl, -, -⟩ := quoted
  obtain ⟨-, buy, sell, isBuy, isSell, isBuyBps, isSellBps, -⟩ := computeDepthMetrics_parts computed
  obtain ⟨size, rest, isLevels, -⟩ := good.firstSized
  cases side with
  | bid =>
      simp only [BookSide.levels] at filled nonzero isLevels ⊢
      obtain ⟨⟨rfl, rfl⟩, rfl⟩ : (bid = best ∧ bidSize = size) ∧ bidRest = rest := by
        simpa using isLevels
      cases isSell.symm.trans filled
      rw [slippage_filled nonzero (by rw [divide_of_ne bestNonzero]; rfl)] at isSellBps
      rw [DepthMetrics.slippageOf, ← Except.ok.inj isSellBps]
      simp only [BookSide.sign, sub_exact, mul_exact, one_exact, tenThousand]
      congr 1
      field_simp
      ring
  | ask =>
      simp only [BookSide.levels] at filled nonzero isLevels ⊢
      obtain ⟨⟨rfl, rfl⟩, rfl⟩ : (ask = best ∧ askSize = size) ∧ askRest = rest := by
        simpa using isLevels
      cases isBuy.symm.trans filled
      rw [slippage_filled nonzero (by rw [divide_of_ne bestNonzero]; rfl)] at isBuyBps
      rw [DepthMetrics.slippageOf, ← Except.ok.inj isBuyBps]
      simp only [BookSide.sign, sub_exact, mul_exact, one_exact, tenThousand]
      congr 1
      field_simp

end Metrics

/-- **The walk of a book fills at a fair price** in exact arithmetic: a fill of a good side is full exactly
when its levels reach the reference, and its average price lies between the best price and the last level it
takes from. The slippage of the metrics of a quoted book is not negative on a good side, and it does not
fall when the reference grows. -/
theorem book_walk_is_a_fair_fill (side : BookSide) :
    (∀ (best : K) (levels : List (K × K)), GoodSide side best levels →
      ∀ reference, 0 < reference → ∃ average full,
        walkBookForFill levels reference = .ok (some average, full) ∧
          (full = true ↔ reference ≤ cost levels) ∧
          side.Between best average (lastPrice best levels reference)) ∧
      ∀ (bids asks : List (K × K)) (best : K), Quoted bids asks →
        GoodSide side best (side.levels bids asks) →
        ∀ reference larger, 0 < reference → reference ≤ larger →
          ∃ metrics largerMetrics slipped largerSlipped,
            computeDepthMetrics bids asks reference = .ok (some metrics) ∧
            computeDepthMetrics bids asks larger = .ok (some largerMetrics) ∧
            metrics.slippageOf side = some slipped ∧
            largerMetrics.slippageOf side = some largerSlipped ∧
            0 ≤ slipped ∧ slipped ≤ largerSlipped := by
  constructor
  · intro best levels good reference positive
    refine ⟨_, _, walkBookForFill_exact good positive, decide_eq_true_iff, ?_⟩
    exact BookSide.between_of_sign (good.best_le_average positive) (good.average_le_last positive)
  · intro bids asks best quoted good reference larger positive grows
    obtain ⟨metrics, computed⟩ := computeDepthMetrics_of_quoted quoted reference
    obtain ⟨largerMetrics, largerComputed⟩ := computeDepthMetrics_of_quoted quoted larger
    have scale : 0 ≤ 10000 / best := div_nonneg (by norm_num) good.best_pos.le
    refine ⟨metrics, largerMetrics, _, _, computed, largerComputed,
      slippageOf_exact quoted good positive computed,
      slippageOf_exact quoted good (positive.trans_le grows) largerComputed,
      mul_nonneg (good.best_le_average positive) scale, ?_⟩
    refine mul_le_mul_of_nonneg_right ?_ scale
    have average := good.average_mono positive grows
    rw [mul_sub] at average ⊢
    linarith

/-- Two asks with an empty level between them, for 150 and for 500 dollars. -/
theorem book_walk_is_a_fair_fill_two_asks :
    (∃ average full,
      walkBookForFill [((100 : ℚ), 1), (101, 0), (102, 2)] 150 = .ok (some average, full) ∧
        (full = true ↔ (150 : ℚ) ≤ cost [(100, 1), (101, 0), (102, 2)]) ∧
        BookSide.ask.Between 100 average (lastPrice 100 [(100, 1), (101, 0), (102, 2)] 150)) ∧
      ∃ metrics largerMetrics slipped largerSlipped,
        computeDepthMetrics [((99 : ℚ), 1)] [(100, 1), (101, 0), (102, 2)] 150 = .ok (some metrics) ∧
        computeDepthMetrics [((99 : ℚ), 1)] [(100, 1), (101, 0), (102, 2)] 500 =
          .ok (some largerMetrics) ∧
        metrics.slippageOf .ask = some slipped ∧
        largerMetrics.slippageOf .ask = some largerSlipped ∧ 0 ≤ slipped ∧ slipped ≤ largerSlipped := by
  have good : GoodSide .ask (100 : ℚ) [(100, 1), (101, 0), (102, 2)] :=
    { ordered := by norm_num [BookSide.Worse]
      pricePos := by norm_num
      sizeNonneg := by norm_num
      firstSized := ⟨1, _, rfl, by norm_num⟩ }
  have quoted : Quoted [((99 : ℚ), 1)] [(100, 1), (101, 0), (102, 2)] :=
    ⟨_, _, _, _, _, _, rfl, rfl, by norm_num, by norm_num⟩
  exact ⟨(book_walk_is_a_fair_fill .ask).1 100 _ good 150 (by norm_num),
    (book_walk_is_a_fair_fill .ask).2 _ _ 100 quoted good 150 500 (by norm_num) (by norm_num)⟩

end CryptoRadar.Microstructure
