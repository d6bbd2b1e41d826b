import CryptoRadar.Microstructure.FairFill
import CryptoRadar.Tradeability.Scenarios

/-!
# A thin book and its cost

In exact arithmetic the touch spread of an ordered book is below 20000 bps and the slippage of a sell below
10000 bps, as the cost domain demands. The slippage of a buy has no bound: along a sparse ask side the average
price goes as far above the touch as the next level does.

So the scenarios of a venue are there exactly when the asks sell the reference amount below twice the touch
(`WithinTwiceTouch`), and else the slippage is refused and the refusal is not caught, also for a book that does
not hold the reference amount, whose scenario would be incomplete (`thin_book_iff`).
-/

set_option autoImplicit false

namespace CryptoRadar.Tradeability

open Checked ExactNumber Offers
open Costs (CostFailure CostStatus DepthCoverage Leg Missing Required Side TradeDirection legDirection outOfRange)
open Invocation (InstrumentKind)
open Microstructure

/-! ## Books -/

def NoBetter : BookSide → ℚ → ℚ → Prop
  | .bid, earlier, later => later ≤ earlier
  | .ask, earlier, later => earlier ≤ later

structure OrderedSide (side : BookSide) (levels : List (ℚ × ℚ)) : Prop where
  ordered : levels.Pairwise fun earlier later => NoBetter side earlier.1 later.1
  pricePos : ∀ level ∈ levels, 0 < level.1
  sizePos : ∀ level ∈ levels, 0 < level.2

/-- What the asks take of the amount buys more than half of what it buys at the touch. -/
def WithinTwiceTouch (asks : List (ℚ × ℚ)) (amount : ℚ) : Prop :=
  ∀ touch ∈ asks.head?, min amount (cost asks) < 2 * touch.1 * taken asks amount

/-- The measurements lie in the ranges of `SpreadInput` and `SlippageInput`. -/
structure InRanges (metrics : DepthMetrics ℚ) : Prop where
  spread : ∃ bps, metrics.spreadBps = some bps ∧ 0 ≤ bps ∧ bps < 20000
  buy : ∃ bps, metrics.slippageBuyBps = some bps ∧ 0 ≤ bps ∧ bps < 10000
  sell : ∃ bps, metrics.slippageSellBps = some bps ∧ 0 ≤ bps ∧ bps < 10000

section Book

variable {side : BookSide} {levels : List (ℚ × ℚ)} {price size : ℚ} {rest : List (ℚ × ℚ)}

theorem OrderedSide.sound (isOrdered : OrderedSide side levels) : Sound levels :=
  fun level isMem => ⟨isOrdered.pricePos level isMem, (isOrdered.sizePos level isMem).le⟩

theorem OrderedSide.worsening (isOrdered : OrderedSide side levels) : Worsening side.sign levels := by
  refine isOrdered.ordered.imp ?_
  intro earlier later noBetter
  cases side with
  | bid =>
      simp only [NoBetter, BookSide.sign] at noBetter ⊢
      linarith
  | ask =>
      simp only [NoBetter, BookSide.sign] at noBetter ⊢
      linarith

/-- The average price is no better than the touch. -/
theorem OrderedSide.touch_le_average (isOrdered : OrderedSide side ((price, size) :: rest)) {amount : ℚ}
    (positive : 0 < amount) :
    0 ≤ side.sign * (spent ((price, size) :: rest) amount - price * taken ((price, size) :: rest) amount) :=
  first_le_average isOrdered.sound isOrdered.worsening positive.le

theorem OrderedSide.taken_pos (isOrdered : OrderedSide side ((price, size) :: rest)) {amount : ℚ}
    (positive : 0 < amount) : 0 < taken ((price, size) :: rest) amount :=
  Offers.taken_pos isOrdered.sound (isOrdered.sizePos _ List.mem_cons_self) positive

theorem OrderedSide.spent_pos (isOrdered : OrderedSide side ((price, size) :: rest)) {amount : ℚ}
    (positive : 0 < amount) : 0 < spent ((price, size) :: rest) amount :=
  Offers.spent_pos isOrdered.sound (isOrdered.sizePos _ List.mem_cons_self) positive

end Book

/-! ## The measurements of a book -/

section Measured

variable {bids asks : List (ℚ × ℚ)} {reference : ℚ} {metrics : DepthMetrics ℚ}

/-- A book with metrics has a touch on both sides, and it is not crossed. -/
theorem quoted_of_computed (computed : computeDepthMetrics bids asks reference = .ok (some metrics)) :
    Quoted bids asks := by
  unfold computeDepthMetrics at computed
  split at computed
  next bid bidSize bidRest ask askSize askRest =>
    split_ifs at computed with refused
    · cases computed
    simp only [le_exact, lt_exact, zero_exact, Bool.or_eq_true, decide_eq_true_eq, not_or, not_le,
      not_lt] at refused
    exact ⟨bid, bidSize, bidRest, ask, askSize, askRest, rfl, rfl, refused.1.1, refused.2⟩
  next => cases computed

structure Measured (bid ask : ℚ) (bids asks : List (ℚ × ℚ)) (reference : ℚ) (metrics : DepthMetrics ℚ) :
    Prop where
  spread : metrics.spreadBps = some ((ask - bid) / ((bid + ask) / 2) * 10000)
  buy : metrics.slippageBuyBps = some ((spent asks reference / taken asks reference / ask - 1) * 10000)
  sell : metrics.slippageSellBps = some ((1 - spent bids reference / taken bids reference / bid) * 10000)
  available : metrics.depthAvailableAtReference = true ↔ reference ≤ cost asks ∧ reference ≤ cost bids

theorem measured_of_computed {bid bidSize ask askSize : ℚ} {bidRest askRest : List (ℚ × ℚ)}
    (bidSide : OrderedSide .bid ((bid, bidSize) :: bidRest))
    (askSide : OrderedSide .ask ((ask, askSize) :: askRest)) (positive : 0 < reference)
    (computed : computeDepthMetrics ((bid, bidSize) :: bidRest) ((ask, askSize) :: askRest) reference =
      .ok (some metrics)) :
    Measured bid ask ((bid, bidSize) :: bidRest) ((ask, askSize) :: askRest) reference metrics := by
  have tenThousand : @OfScientific.ofScientific ℚ exact.toOfScientific 100000 true 1 = 10000 := by
    change (OfScientific.ofScientific 100000 true 1 : ℚ) = 10000
    norm_num
  have two : @OfScientific.ofScientific ℚ exact.toOfScientific 20 true 1 = 2 := by
    change (OfScientific.ofScientific 20 true 1 : ℚ) = 2
    norm_num
  have bidPos := bidSide.pricePos _ List.mem_cons_self
  have askPos := askSide.pricePos _ List.mem_cons_self
  have buyWalk := walkBookForFill_of_sized askSide.sound (askSide.sizePos _ List.mem_cons_self) positive
  have sellWalk := walkBookForFill_of_sized bidSide.sound (bidSide.sizePos _ List.mem_cons_self) positive
  have buyNonzero := (div_pos (askSide.spent_pos positive) (askSide.taken_pos positive)).ne'
  have sellNonzero := (div_pos (bidSide.spent_pos positive) (bidSide.taken_pos positive)).ne'
  obtain ⟨⟨mid, spread, isMid, isSpread, spreads⟩, buy, sell, isBuy, isSell, buys, sells, available⟩ :=
    computeDepthMetrics_parts computed
  cases isBuy.symm.trans buyWalk
  cases isSell.symm.trans sellWalk
  refine ⟨?_, ?_, ?_, ?_⟩
  · rw [two, divide_exact] at isMid
    have midPos : 0 < mid := by
      rw [isMid.2]
      exact div_pos (add_pos bidPos askPos) two_pos
    rw [ratioIfPositive_exact, if_pos midPos] at isSpread
    rw [spreads, ← Except.ok.inj isSpread, Option.map_some, tenThousand, isMid.2]
  · rw [slippage_filled buyNonzero (by rw [divide_of_ne askPos.ne']; rfl)] at buys
    rw [← Except.ok.inj buys, tenThousand, one_exact]
  · rw [slippage_filled sellNonzero (by rw [divide_of_ne bidPos.ne']; rfl)] at sells
    rw [← Except.ok.inj sells, tenThousand, one_exact]
  · rw [available, Bool.and_eq_true, decide_eq_true_iff, decide_eq_true_iff]

end Measured

/-! ## Ranges -/

section Ranges

variable {bid bidSize ask askSize reference : ℚ} {bidRest askRest : List (ℚ × ℚ)}

theorem spread_inRange (bidPos : 0 < bid) (uncrossed : bid ≤ ask) :
    0 ≤ (ask - bid) / ((bid + ask) / 2) * 10000 ∧ (ask - bid) / ((bid + ask) / 2) * 10000 < 20000 := by
  have midPos : 0 < (bid + ask) / 2 := by linarith
  have nonneg : 0 ≤ (ask - bid) / ((bid + ask) / 2) := div_nonneg (sub_nonneg.mpr uncrossed) midPos.le
  have below : (ask - bid) / ((bid + ask) / 2) < 2 := by
    rw [div_lt_iff₀ midPos]
    linarith
  constructor <;> linarith

/-- A sell fills no better than the touch, and not for nothing. -/
theorem sell_inRange (bidSide : OrderedSide .bid ((bid, bidSize) :: bidRest)) (positive : 0 < reference) :
    0 ≤ (1 - spent ((bid, bidSize) :: bidRest) reference /
      taken ((bid, bidSize) :: bidRest) reference / bid) * 10000 ∧
    (1 - spent ((bid, bidSize) :: bidRest) reference /
      taken ((bid, bidSize) :: bidRest) reference / bid) * 10000 < 10000 := by
  have bidPos := bidSide.pricePos _ List.mem_cons_self
  have base := bidSide.taken_pos positive
  have noBetter := bidSide.touch_le_average positive
  have some_ : 0 < spent ((bid, bidSize) :: bidRest) reference /
      taken ((bid, bidSize) :: bidRest) reference / bid :=
    div_pos (div_pos (bidSide.spent_pos positive) base) bidPos
  have most : spent ((bid, bidSize) :: bidRest) reference /
      taken ((bid, bidSize) :: bidRest) reference / bid ≤ 1 := by
    rw [div_div, div_le_one (mul_pos base bidPos)]
    simp only [BookSide.sign] at noBetter
    linarith
  constructor <;> linarith

/-- A buy fills no better than the touch. -/
theorem buy_nonneg (askSide : OrderedSide .ask ((ask, askSize) :: askRest)) (positive : 0 < reference) :
    0 ≤ (spent ((ask, askSize) :: askRest) reference /
      taken ((ask, askSize) :: askRest) reference / ask - 1) * 10000 := by
  have askPos := askSide.pricePos _ List.mem_cons_self
  have base := askSide.taken_pos positive
  have noBetter := askSide.touch_le_average positive
  have least : 1 ≤ spent ((ask, askSize) :: askRest) reference /
      taken ((ask, askSize) :: askRest) reference / ask := by
    rw [div_div, le_div_iff₀ (mul_pos base askPos)]
    simp only [BookSide.sign] at noBetter
    linarith
  linarith

theorem buy_below_iff (askSide : OrderedSide .ask ((ask, askSize) :: askRest)) (positive : 0 < reference) :
    (spent ((ask, askSize) :: askRest) reference /
      taken ((ask, askSize) :: askRest) reference / ask - 1) * 10000 < 10000 ↔
    WithinTwiceTouch ((ask, askSize) :: askRest) reference := by
  have askPos := askSide.pricePos _ List.mem_cons_self
  have base := askSide.taken_pos positive
  have double : spent ((ask, askSize) :: askRest) reference /
        taken ((ask, askSize) :: askRest) reference / ask < 2 ↔
      spent ((ask, askSize) :: askRest) reference <
        2 * ask * taken ((ask, askSize) :: askRest) reference := by
    rw [div_div, div_lt_iff₀ (mul_pos base askPos)]
    constructor <;> intro less <;> linarith
  unfold WithinTwiceTouch
  rw [List.head?_cons, ← spent_eq_min askSide.sound positive.le]
  simp only [Option.mem_def, Option.some.injEq, forall_eq']
  rw [← double]
  constructor <;> intro less <;> linarith

end Ranges

/-! ## The scenarios -/

theorem construct_of_ok {Input : Type} {check : Except CostFailure Unit} {make : check = .ok () → Input}
    (isOk : check = .ok ()) : construct check make = .ok (make isOk) := by
  subst isOk
  rfl

theorem construct_of_error {Input : Type} {check : Except CostFailure Unit} {make : check = .ok () → Input}
    {failure : CostFailure} (isError : check = .error failure) : construct check make = .error failure := by
  subst isError
  rfl

def refusedSlippage : CostFailure := outOfRange "SlippageInput.bps" "must be in [0, 10000)"

/-- A slippage that was walked from the touch for the size of the scenario. -/
structure Walked (size : ScenarioSize) (coverage : DepthCoverage) (input : SlippageInput) : Prop where
  basis : input.basis = .fromTouch
  measuredNotional : input.measuredNotional = size.notional
  coverage : input.coverage = coverage

section Observe

variable (size : ScenarioSize) (coverage : DepthCoverage) (name : String) {bookSide : String} {bps : ℚ}

theorem notional_pos : 0 < size.notional := ensure_eq_ok.mp size.positive

theorem walkedSlippage_given (bookSides : bookSide = "asks" ∨ bookSide = "bids") (nonneg : 0 ≤ bps)
    (below : bps < 10000) : ∃ input, walkedSlippage size coverage name bookSide (some bps) =
      .ok (.given input) ∧ Walked size coverage input := by
  have usable : usableSlippage (some bps) = some bps := if_neg (not_lt.mpr nonneg)
  have named : Costs.requireText "SlippageInput.source" ("order book walk of the " ++ bookSide ++
      " from the touch (legacy float measurement)") = .ok () := by
    rcases bookSides with rfl | rfl <;> decide +kernel
  have checked : checkSlippage bps size.notional ("order book walk of the " ++ bookSide ++
      " from the touch (legacy float measurement)") = .ok () :=
    bind_eq_ok.mpr ⟨(), ensure_of ⟨nonneg, below⟩, bind_eq_ok.mpr ⟨(), ensure_of (notional_pos size), named⟩⟩
  unfold walkedSlippage
  rw [usable]
  dsimp only
  rw [construct_of_ok checked]
  exact ⟨_, rfl, ⟨rfl, rfl, rfl⟩⟩

theorem walkedSlippage_refused (nonneg : 0 ≤ bps) (tooLarge : ¬ bps < 10000) :
    walkedSlippage size coverage name bookSide (some bps) = .error refusedSlippage := by
  have usable : usableSlippage (some bps) = some bps := if_neg (not_lt.mpr nonneg)
  have refused : checkSlippage bps size.notional ("order book walk of the " ++ bookSide ++
      " from the touch (legacy float measurement)") = .error refusedSlippage :=
    bind_eq_error.mpr (.inl (if_neg fun inRange => tooLarge inRange.2))
  unfold walkedSlippage
  rw [usable]
  dsimp only
  rw [construct_of_error refused]
  rfl

theorem touchSpread_given (nonneg : 0 ≤ bps) (below : bps < 20000) :
    ∃ input, touchSpread (some bps) = .ok (.given input) := by
  have checked : checkSpread bps "order book touch spread (legacy float measurement)" = .ok () :=
    bind_eq_ok.mpr ⟨(), ensure_of ⟨nonneg, below⟩, by decide⟩
  unfold touchSpread
  dsimp only
  rw [construct_of_ok checked]
  exact ⟨_, rfl⟩

end Observe

section Price

variable (written : ℚ → String) (kind : InstrumentKind) (side : Side) {size : ScenarioSize}
  (spread : SpreadInput) {buy sell : SlippageInput} (fee : FeeInput) {coverage : DepthCoverage}

/-- A scenario whose inputs are given is priced, and it is complete when the book covers the size. -/
theorem priceRoundTrip_given (isBuy : Walked size coverage buy) (isSell : Walked size coverage sell) :
    ∃ priced, priceRoundTrip written
        ⟨kind, side, size, .given spread, .given buy, .given sell, .given fee, .given fee⟩ = .ok priced ∧
      (priced.status = .complete ↔ coverage = .full) := by
  generalize isScenario : (⟨kind, side, size, .given spread, .given buy, .given sell, .given fee,
    .given fee⟩ : CostScenarioInput) = scenario
  have walks : ∀ direction, ∃ input, scenario.slippage direction = .given input ∧
      Walked scenario.size coverage input := by
    intro direction
    subst isScenario
    cases direction with
    | buy => exact ⟨buy, rfl, isBuy⟩
    | sell => exact ⟨sell, rfl, isSell⟩
  have matched : ∀ direction, matchSlippage written scenario direction = .ok () := by
    intro direction
    obtain ⟨input, isInput, walked⟩ := walks direction
    unfold matchSlippage
    rw [isInput]
    exact bind_eq_ok.mpr ⟨(), ensure_of walked.basis, ensure_of walked.measuredNotional⟩
  have hasSpread : scenario.spread = .given spread := by rw [← isScenario]
  have fees : ∀ leg fill, (feePart scenario leg fill).missing = [] := by
    intro leg fill
    have isFee : scenario.fee leg = .given fee := by
      subst isScenario
      cases leg <;> rfl
    unfold feePart
    rw [isFee]
    cases fill <;> rfl
  have legs : ∀ leg, (legPart written scenario (spreadPart scenario).value leg).missing = [] ↔
      coverage = .full := by
    intro leg
    obtain ⟨input, isInput, walked⟩ := walks (legDirection scenario.side leg)
    unfold legPart
    dsimp only
    rw [isInput]
    dsimp only
    rw [walked.coverage]
    cases coverage with
    | full => simp [spreadPart, hasSpread]
    | partialDepth => simp
  have known : (spreadPart scenario).missing = [] := by
    unfold spreadPart
    rw [hasSpread]
  by_cases full : coverage = .full
  · have complete := (legs · |>.mpr full)
    refine ⟨_, bind_eq_ok.mpr ⟨(), matched .buy, bind_eq_ok.mpr ⟨(), matched .sell, if_neg ?_⟩⟩,
      iff_of_true rfl full⟩
    simp [known, fees, complete]
  · have lacking := mt (legs .entry).mp full
    refine ⟨_, bind_eq_ok.mpr ⟨(), matched .buy, bind_eq_ok.mpr ⟨(), matched .sell, if_pos ?_⟩⟩,
      iff_of_false (by simp) full⟩
    simp [known, fees, lacking]

end Price

section Venue

variable {written : ℚ → String} {kind : InstrumentKind} {metrics : DepthMetrics ℚ} {reference fee : ℚ}

/-- Both sides have a scenario, and it is complete when the book holds the reference amount. -/
def ReturnsBoth (written : ℚ → String) (reference : ℚ) (kind : InstrumentKind) (metrics : DepthMetrics ℚ)
    (fee : ℚ) : Prop :=
  ∃ long short, venueCostScenarios written reference kind (some metrics) fee =
      .ok [(.long, long), (.short, short)] ∧
    ∀ scenario ∈ [long, short],
      scenario.status = .complete ↔ metrics.depthAvailableAtReference = true

theorem returnsBoth_of_inRanges (positive : 0 < reference) (inRanges : InRanges metrics)
    (rate : |fee| < 10000) : ReturnsBoth written reference kind metrics fee := by
  obtain ⟨spreadBps, isSpread, spreadNonneg, spreadBelow⟩ := inRanges.spread
  obtain ⟨buyBps, isBuy, buyNonneg, buyBelow⟩ := inRanges.buy
  obtain ⟨sellBps, isSell, sellNonneg, sellBelow⟩ := inRanges.sell
  have sized : ensure (0 < reference) (outOfRange "ScenarioSize.notional" "must be > 0") = .ok () :=
    ensure_of positive
  have charged : checkFee fee "config.UNCALIBRATED_FEES taker rate" = .ok () :=
    bind_eq_ok.mpr ⟨(), ensure_of rate, by decide⟩
  generalize isCoverage : (if metrics.depthAvailableAtReference then DepthCoverage.full
    else .partialDepth) = coverage
  obtain ⟨spread, givenSpread⟩ := touchSpread_given spreadNonneg spreadBelow
  obtain ⟨buy, givenBuy, walkedBuy⟩ := walkedSlippage_given ⟨reference, .referenceConfig, sized⟩
    coverage "buy" (.inl rfl) buyNonneg buyBelow
  obtain ⟨sell, givenSell, walkedSell⟩ := walkedSlippage_given ⟨reference, .referenceConfig, sized⟩
    coverage "sell" (.inr rfl) sellNonneg sellBelow
  have observed : observeBook ⟨reference, .referenceConfig, sized⟩ (some metrics) =
      .ok (.given spread, .given buy, .given sell) := by
    unfold observeBook
    dsimp only
    rw [isCoverage, isSpread, isBuy, isSell, givenSpread]
    change (walkedSlippage _ _ _ _ _ >>= _) = _
    rw [givenBuy]
    change (walkedSlippage _ _ _ _ _ >>= _) = _
    rw [givenSell]
    rfl
  have covers : coverage = .full ↔ metrics.depthAvailableAtReference = true := by
    subst isCoverage
    cases metrics.depthAvailableAtReference <;> decide
  obtain ⟨long, isLong, longStatus⟩ := priceRoundTrip_given written kind .long spread
    ⟨fee, .uncalibratedAssumption, _, charged⟩ walkedBuy walkedSell
  obtain ⟨short, isShort, shortStatus⟩ := priceRoundTrip_given written kind .short spread
    ⟨fee, .uncalibratedAssumption, _, charged⟩ walkedBuy walkedSell
  refine ⟨long, short, ?_, ?_⟩
  · unfold venueCostScenarios venueScenarios
    rw [construct_of_ok sized]
    change (observeBook _ _ >>= _) = _
    rw [observed]
    change (construct _ _ >>= _) = _
    rw [construct_of_ok charged]
    refine mapM_eq_ok.mpr (.cons ?_ (.cons ?_ .nil))
    · exact bind_eq_ok.mpr ⟨long, isLong, rfl⟩
    · exact bind_eq_ok.mpr ⟨short, isShort, rfl⟩
  · intro scenario member
    rcases List.mem_pair.mp member with rfl | rfl
    · exact longStatus.trans covers
    · exact shortStatus.trans covers

/-- A buy slippage that is out of range is refused. -/
theorem venueScenarios_refused {buyBps spreadBps : ℚ} (positive : 0 < reference)
    (isSpread : metrics.spreadBps = some spreadBps) (spreadNonneg : 0 ≤ spreadBps)
    (spreadBelow : spreadBps < 20000) (isBuy : metrics.slippageBuyBps = some buyBps)
    (buyNonneg : 0 ≤ buyBps) (tooLarge : ¬ buyBps < 10000) :
    venueScenarios written reference kind (some metrics) fee = .error refusedSlippage := by
  have sized : ensure (0 < reference) (outOfRange "ScenarioSize.notional" "must be > 0") = .ok () :=
    ensure_of positive
  obtain ⟨spread, givenSpread⟩ := touchSpread_given spreadNonneg spreadBelow
  have refused : observeBook ⟨reference, .referenceConfig, sized⟩ (some metrics) =
      .error refusedSlippage := by
    unfold observeBook
    dsimp only
    rw [isSpread, isBuy, givenSpread]
    change (walkedSlippage _ _ _ _ _ >>= _) = _
    rw [walkedSlippage_refused _ _ _ buyNonneg tooLarge]
    rfl
  unfold venueScenarios
  rw [construct_of_ok sized]
  change (observeBook _ _ >>= _) = _
  rw [refused]
  rfl

/-- A preview is there exactly when the scenarios of its venue are. -/
theorem venuePreview_isOk_iff {spreadBps : Option ℚ} {depth : Option (DepthMetrics ℚ)} :
    (∃ preview, venuePreview written reference kind spreadBps depth fee = .ok preview) ↔
      ∃ scenarios, venueScenarios written reference kind depth fee = .ok scenarios := by
  constructor
  · rintro ⟨preview, returned⟩
    obtain ⟨scenarios, isScenarios, -⟩ := bind_eq_ok.mp returned
    exact ⟨scenarios, isScenarios⟩
  · rintro ⟨scenarios, isScenarios⟩
    exact ⟨_, bind_eq_ok.mpr ⟨scenarios, isScenarios, rfl⟩⟩

end Venue

/-! ## Thin books -/

section Thin

variable {bids asks : List (ℚ × ℚ)} {reference : ℚ} {metrics : DepthMetrics ℚ}

/-- The measurements of an ordered book are in their ranges when a buy is, and else that of the buy is not. -/
theorem inRanges_or_refused (bidSide : OrderedSide .bid bids) (askSide : OrderedSide .ask asks)
    (positive : 0 < reference) (computed : computeDepthMetrics bids asks reference = .ok (some metrics)) :
    ∃ spreadBps buyBps, metrics.spreadBps = some spreadBps ∧ 0 ≤ spreadBps ∧ spreadBps < 20000 ∧
      metrics.slippageBuyBps = some buyBps ∧ 0 ≤ buyBps ∧
      (buyBps < 10000 ↔ WithinTwiceTouch asks reference) ∧
      (InRanges metrics ↔ WithinTwiceTouch asks reference) := by
  obtain ⟨bid, bidSize, bidRest, ask, askSize, askRest, rfl, rfl, bidPos, uncrossed⟩ :=
    quoted_of_computed computed
  have measured := measured_of_computed bidSide askSide positive computed
  obtain ⟨spreadNonneg, spreadBelow⟩ := spread_inRange bidPos uncrossed
  have buyNonneg := buy_nonneg askSide positive
  have buyBelow := buy_below_iff askSide positive
  refine ⟨_, _, measured.spread, spreadNonneg, spreadBelow, measured.buy, buyNonneg, buyBelow, ?_⟩
  constructor
  · intro inRanges
    obtain ⟨bps, isBuy, -, below⟩ := inRanges.buy
    cases isBuy.symm.trans measured.buy
    exact buyBelow.mp below
  · intro within
    exact ⟨⟨_, measured.spread, spreadNonneg, spreadBelow⟩,
      ⟨_, measured.buy, buyNonneg, buyBelow.mpr within⟩, ⟨_, measured.sell, sell_inRange bidSide positive⟩⟩

/-- **A thin book and its cost**: for an ordered book with metrics the measurements lie in the ranges of the
cost domain, a venue has its scenario of both sides, and the preview is there, each exactly when the asks sell
the reference amount below twice the touch. -/
theorem thin_book_iff (written : ℚ → String) (bids asks : List (ℚ × ℚ)) (reference : ℚ)
    (metrics : DepthMetrics ℚ) (bidSide : OrderedSide .bid bids) (askSide : OrderedSide .ask asks)
    (positive : 0 < reference) (computed : computeDepthMetrics bids asks reference = .ok (some metrics)) :
    (InRanges metrics ↔ WithinTwiceTouch asks reference) ∧
      (∀ kind fee, |fee| < 10000 →
        (ReturnsBoth written reference kind metrics fee ↔ WithinTwiceTouch asks reference)) ∧
      ∀ (fees : TakerFees), |fees.spotTakerBps| < 10000 → |fees.futuresTakerBps| < 10000 →
        ∀ market spotSpread futuresAvailable futuresSpread funding,
          (∃ preview, buildCostPreview written reference fees market spotSpread (some metrics)
            futuresAvailable futuresSpread (some metrics) funding = .ok preview) ↔
          WithinTwiceTouch asks reference := by
  obtain ⟨spreadBps, buyBps, isSpread, spreadNonneg, spreadBelow, isBuy, buyNonneg, buyBelow, ranges⟩ :=
    inRanges_or_refused bidSide askSide positive computed
  have returns : ∀ kind fee, |fee| < 10000 → WithinTwiceTouch asks reference →
      ReturnsBoth written reference kind metrics fee :=
    fun kind fee rate within => returnsBoth_of_inRanges positive (ranges.mpr within) rate
  have refused : ∀ kind fee, ¬ WithinTwiceTouch asks reference →
      venueScenarios written reference kind (some metrics) fee = .error refusedSlippage :=
    fun kind fee beyond => venueScenarios_refused positive isSpread spreadNonneg spreadBelow isBuy buyNonneg
      (mt buyBelow.mp beyond)
  refine ⟨ranges, fun kind fee rate => ⟨?_, returns kind fee rate⟩, ?_⟩
  · rintro ⟨long, short, returned, -⟩
    by_contra beyond
    cases returned.symm.trans (refused kind fee beyond)
  · intro fees spotRate futuresRate market spotSpread futuresAvailable futuresSpread funding
    have previews : ∀ kind fee spread, |fee| < 10000 → WithinTwiceTouch asks reference →
        ∃ preview, venuePreview written reference kind spread (some metrics) fee = .ok preview := by
      intro kind fee spread rate within
      obtain ⟨long, short, returned, -⟩ := returns kind fee rate within
      exact venuePreview_isOk_iff.mpr ⟨_, returned⟩
    constructor
    · rintro ⟨preview, built⟩
      obtain ⟨spot, isSpot, -⟩ := bind_eq_ok.mp built
      by_contra beyond
      obtain ⟨scenarios, returned⟩ := venuePreview_isOk_iff.mp ⟨spot, isSpot⟩
      cases returned.symm.trans (refused .spot fees.spotTakerBps beyond)
    · intro within
      obtain ⟨spot, isSpot⟩ := previews .spot fees.spotTakerBps spotSpread spotRate within
      obtain ⟨futures, isFutures⟩ :=
        previews .futures fees.futuresTakerBps futuresSpread futuresRate within
      cases futuresAvailable with
      | false => exact ⟨_, bind_eq_ok.mpr ⟨spot, isSpot, rfl⟩⟩
      | true => exact ⟨_, bind_eq_ok.mpr ⟨spot, isSpot, bind_eq_ok.mpr ⟨futures, isFutures, rfl⟩⟩⟩

end Thin

/-! ### Two asks far apart -/

/-- One unit at the touch, and the next one at a hundred times its price. -/
def sparseAsks : List (ℚ × ℚ) := [(1, 1), (100, 1)]

def touchBids : List (ℚ × ℚ) := [(1, 1)]

theorem sparseAsks_ordered : OrderedSide .ask sparseAsks where
  ordered := by norm_num [sparseAsks, NoBetter]
  pricePos := by norm_num [sparseAsks]
  sizePos := by norm_num [sparseAsks]

theorem touchBids_ordered : OrderedSide .bid touchBids where
  ordered := by norm_num [touchBids]
  pricePos := by norm_num [touchBids]
  sizePos := by norm_num [touchBids]

theorem sparseAsks_metrics :
    ∃ metrics, computeDepthMetrics touchBids sparseAsks 250 = .ok (some metrics) :=
  computeDepthMetrics_of_quoted ⟨_, _, _, _, _, _, rfl, rfl, one_pos, le_refl _⟩ _

theorem sparseAsks_beyond : ¬ WithinTwiceTouch sparseAsks 250 := by
  norm_num [WithinTwiceTouch, sparseAsks, cost, taken]

/-- The book does not hold 250 dollars, and its scenario is an exception. -/
theorem sparse_book_raises : ∃ metrics,
    computeDepthMetrics touchBids sparseAsks 250 = .ok (some metrics) ∧
      metrics.depthAvailableAtReference = false ∧
      ∀ written, venueCostScenarios written 250 .spot (some metrics) 26 = .error refusedSlippage := by
  obtain ⟨metrics, computed⟩ := sparseAsks_metrics
  have measured := measured_of_computed touchBids_ordered sparseAsks_ordered (by norm_num) computed
  obtain ⟨_, _, isSpread, spreadNonneg, spreadBelow, isBuy, buyNonneg, buyBelow, -⟩ :=
    inRanges_or_refused touchBids_ordered sparseAsks_ordered (by norm_num) computed
  refine ⟨metrics, computed, ?_, fun written => venueScenarios_refused (by norm_num) isSpread spreadNonneg
    spreadBelow isBuy buyNonneg (mt buyBelow.mp sparseAsks_beyond)⟩
  have short : ¬ ((250 : ℚ) ≤ cost sparseAsks ∧ (250 : ℚ) ≤ cost touchBids) := by
    norm_num [cost, sparseAsks, touchBids]
  exact Bool.eq_false_iff.mpr (mt measured.available.mp short)

theorem thin_book_iff_sparse : ∃ metrics,
    computeDepthMetrics touchBids sparseAsks 250 = .ok (some metrics) ∧
      (InRanges metrics ↔ WithinTwiceTouch sparseAsks 250) := by
  obtain ⟨metrics, computed⟩ := sparseAsks_metrics
  exact ⟨metrics, computed, (thin_book_iff (fun _ => "250") touchBids sparseAsks 250 metrics touchBids_ordered
    sparseAsks_ordered (by norm_num) computed).1⟩

end CryptoRadar.Tradeability
