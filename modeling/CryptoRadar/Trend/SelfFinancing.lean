import CryptoRadar.Lib.ExactNumber
import CryptoRadar.Trend.Finality
import Mathlib.Algebra.BigOperators.Group.List.Basic
import Mathlib.Algebra.Order.Field.Rat
import Mathlib.Tactic.LinearCombination

/-!
# The books finance themselves

`book_day` in exact arithmetic. A step of a sleeve, of either family, loses its fee and nothing else
(`stepFraction_selfFinanced`, `stepUnits_selfFinanced`), so over a run of booked days, whichever days they
are, the equity of a sleeve is its starting share, plus what the units it held gained from one booked day to
the next, less the fees (`books_self_financing`).

The sleeves of the TREND5 family borrow nothing and sell nothing short, as long as the opens are positive and
the weights that the caller gives are not negative (`stepUnits_solvent`): `_finite_weight` and the validation
of bars see to both, `book_day` itself does not (`negative_weight_sells_short`).
-/

set_option autoImplicit false

namespace CryptoRadar.Trend

open Checked ExactNumber

variable {K : Type} [Field K] [LinearOrder K] [IsStrictOrderedRing K]

/-! ## One step -/

/-- A step of a sleeve at a price: the notional is what the traded units are worth, the fee is a part of it,
and the equity loses the fee. -/
structure SelfFinanced (rate price : K) (sleeve : Sleeve K) (fill : Fill K) : Prop where
  before : fill.equityBefore = sleeve.cash + sleeve.units * price
  after : fill.equityAfter = fill.sleeve.cash + fill.sleeve.units * price
  notional : |fill.notional| = |(fill.sleeve.units - sleeve.units) * price|
  fee : fill.fee = rate * fill.notional
  paid : fill.equityAfter = fill.equityBefore - fill.fee

/-- A day without a trade. -/
theorem SelfFinanced.idle (rate price : K) (sleeve : Sleeve K) (held target before : K) :
    SelfFinanced rate price sleeve ⟨⟨sleeve.cash, sleeve.units, held⟩, target, before, false, 0.0, 0.0,
      sleeve.cash + sleeve.units * price, sleeve.cash + sleeve.units * price⟩ where
  before := rfl
  after := rfl
  notional := by simp
  fee := by simp
  paid := by simp

theorem stepFraction_selfFinanced {sleeve : Sleeve K} {price target rate : K} {buyAndHold firstDay : Bool}
    {fill : Fill K} (stepped : stepFraction sleeve price target rate buyAndHold firstDay = .ok fill) :
    SelfFinanced rate price sleeve fill := by
  unfold stepFraction at stepped
  generalize fractionDecision sleeve.held target buyAndHold firstDay = decision at stepped
  obtain ⟨wantedTarget, trade⟩ := decision
  cases trade with
  | true =>
      obtain ⟨wanted, divided, same⟩ := bind_eq_ok.mp stepped
      cases same
      refine ⟨rfl, rfl, ?_, mul_comm _ _, ?_⟩
      · simp [abs_mul]
      · simp only [add_exact, mul_exact, sub_exact, abs_exact]
        ring
  | false =>
      cases stepped
      exact .idle rate price sleeve sleeve.held _ _

/-- The quantity that a step of units trades, and the sleeve after it. -/
theorem stepUnits_eq_ok {sleeve : Sleeve K} {price target band cost : K} {fill : Fill K}
    (stepped : stepUnits sleeve price target band cost = .ok fill) :
    ∃ current result, unitsTraded sleeve price target band cost (sleeve.cash + sleeve.units * price) current =
        .ok result ∧
      SelfFinanced cost price sleeve fill ∧
      fill.sleeve.units = sleeve.units + result.getD 0 ∧
      fill.sleeve.cash = sleeve.cash -
        (result.getD 0 * price + |result.getD 0 * price| * cost) ∧
      weightOf fill.sleeve.units price (fill.sleeve.cash + fill.sleeve.units * price) =
        .ok fill.sleeve.held := by
  unfold stepUnits at stepped
  obtain ⟨current, weighed, stepped⟩ := bind_eq_ok.mp stepped
  obtain ⟨result, traded, stepped⟩ := bind_eq_ok.mp stepped
  refine ⟨current, result, traded, ?_⟩
  cases result with
  | none =>
      obtain ⟨held, isHeld, same⟩ := bind_eq_ok.mp stepped
      cases same
      exact ⟨.idle cost price sleeve held target current, by simp, by simp, isHeld⟩
  | some quantity =>
      obtain ⟨held, isHeld, same⟩ := bind_eq_ok.mp stepped
      cases same
      refine ⟨⟨rfl, rfl, by simp, mul_comm _ _, ?_⟩, rfl, rfl, isHeld⟩
      simp only [add_exact, mul_exact, sub_exact, abs_exact]
      ring

/-! ## Neither debts nor short sales -/

/-- A sleeve without debts and without a short position, which weighs no more than its equity. -/
structure Solvent (sleeve : Sleeve K) : Prop where
  cash : 0 ≤ sleeve.cash
  units : 0 ≤ sleeve.units
  held_nonneg : 0 ≤ sleeve.held
  held_le_one : sleeve.held ≤ 1

/-- The cash pays for the part of a buy that is made, with its fee. -/
theorem scaledBuy_paid {cash price cost quantity bought : K} (covered : 0 ≤ cash) (buys : 0 < quantity)
    (isBought : scaledBuy cash price cost quantity = .ok bought) :
    0 ≤ bought ∧ (0 < price → 0 ≤ cost → bought * price * (1 + cost) ≤ cash) := by
  unfold scaledBuy at isBought
  simp only [lt_exact, zero_exact, one_exact, zero_add, add_exact, mul_exact, larger_exact, smaller_exact,
    max_eq_left covered, buys, decide_true, if_true, decide_eq_true_eq] at isBought
  by_cases short : cash < quantity * price * (1 + cost)
  · rw [if_pos short] at isBought
    obtain ⟨scale, divided, same⟩ := bind_eq_ok.mp isBought
    obtain ⟨nonzero, rfl⟩ := divide_exact.mp divided
    cases same
    have needed : 0 < quantity * price * (1 + cost) := lt_of_le_of_lt covered short
    have part : 0 ≤ min 1 (cash / (quantity * price * (1 + cost))) :=
      le_min zero_le_one (div_nonneg covered needed.le)
    refine ⟨mul_nonneg buys.le part, fun positive charged => ?_⟩
    calc quantity * min 1 (cash / (quantity * price * (1 + cost))) * price * (1 + cost)
        = min 1 (cash / (quantity * price * (1 + cost))) * (quantity * price * (1 + cost)) := by ring
      _ ≤ cash / (quantity * price * (1 + cost)) * (quantity * price * (1 + cost)) :=
          mul_le_mul_of_nonneg_right (min_le_right _ _) needed.le
      _ = cash := div_mul_cancel₀ cash needed.ne'
  · rw [if_neg short] at isBought
    cases isBought
    rw [mul_one]
    exact ⟨buys.le, fun _ _ => not_lt.mp short⟩

/-- What is traded towards a weight that is not negative is covered by what the sleeve holds. -/
theorem unitsTraded_covered {sleeve : Sleeve K} {price target band cost current : K} {result : Option K}
    (cash : 0 ≤ sleeve.cash) (units : 0 ≤ sleeve.units) (positive : 0 < price) (weight : 0 ≤ target)
    (charged : 0 ≤ cost) (within : cost ≤ 1)
    (traded : unitsTraded sleeve price target band cost (sleeve.cash + sleeve.units * price) current =
      .ok result) :
    0 ≤ sleeve.units + result.getD 0 ∧
      result.getD 0 * price + |result.getD 0 * price| * cost ≤ sleeve.cash := by
  have nothing : 0 ≤ sleeve.units + (none : Option K).getD 0 ∧
      (none : Option K).getD 0 * price + |(none : Option K).getD 0 * price| * cost ≤ sleeve.cash := by
    simpa using ⟨units, cash⟩
  unfold unitsTraded at traded
  dsimp only at traded
  split at traded
  next worth =>
    split at traded
    next =>
      obtain ⟨wanted, divided, traded⟩ := bind_eq_ok.mp traded
      obtain ⟨quantity, bought, same⟩ := bind_eq_ok.mp traded
      obtain ⟨_, rfl⟩ := divide_exact.mp divided
      have equity : 0 ≤ sleeve.cash + sleeve.units * price :=
        add_nonneg cash (mul_nonneg units positive.le)
      have wantedNonneg : 0 ≤ target * (sleeve.cash + sleeve.units * price) / price :=
        div_nonneg (mul_nonneg weight equity) positive.le
      have covered : 0 ≤ sleeve.units + quantity ∧
          quantity * price + |quantity * price| * cost ≤ sleeve.cash := by
        rcases le_or_gt (target * (sleeve.cash + sleeve.units * price) / price - sleeve.units) 0 with
          sells | buys
        · have isSell : quantity = target * (sleeve.cash + sleeve.units * price) / price - sleeve.units := by
            have notBuy : ¬ (0 : K) < target * (sleeve.cash + sleeve.units * price) / price - sleeve.units :=
              not_lt.mpr sells
            simp only [scaledBuy, lt_exact, zero_exact, sub_exact, mul_exact, add_exact, notBuy, decide_false,
              Bool.false_eq_true, if_false] at bought
            cases bought
            rfl
          subst isSell
          have brings := mul_nonpos_of_nonpos_of_nonneg sells positive.le
          rw [abs_of_nonpos brings]
          exact ⟨by linarith, by nlinarith⟩
        · obtain ⟨nonneg, paid⟩ := scaledBuy_paid cash buys bought
          have costs : 0 ≤ quantity * price := mul_nonneg nonneg positive.le
          rw [abs_of_nonneg costs]
          exact ⟨add_nonneg units nonneg, by linarith [paid positive charged]⟩
      by_cases zero : quantity = 0
      · simp only [eq_exact, zero_exact, zero, decide_true, if_true] at same
        cases same
        exact nothing
      · simp only [eq_exact, zero_exact, zero, decide_false, Bool.false_eq_true, if_false] at same
        cases same
        exact covered
    next =>
      cases traded
      exact nothing
  next =>
    cases traded
    exact nothing

/-- The weight of what a sleeve holds is within its equity. -/
theorem weightOf_mem_unit {cash units price held : K} (covered : 0 ≤ cash) (owned : 0 ≤ units)
    (positive : 0 < price) (weighed : weightOf units price (cash + units * price) = .ok held) :
    0 ≤ held ∧ held ≤ 1 := by
  unfold weightOf at weighed
  split at weighed
  next worth =>
    have equity : 0 < cash + units * price := by simpa using worth
    obtain ⟨_, rfl⟩ := divide_exact.mp weighed
    have value : 0 ≤ units * price := mul_nonneg owned positive.le
    exact ⟨div_nonneg value equity.le, (div_le_one equity).mpr (by simpa using covered)⟩
  next =>
    cases weighed
    rw [zero_exact]
    exact ⟨le_rfl, zero_le_one⟩

/-- **A step of units** towards a weight that is not negative leaves the sleeve solvent. -/
theorem stepUnits_solvent {sleeve : Sleeve K} {price target band cost : K} {fill : Fill K}
    (solvent : Solvent sleeve) (positive : 0 < price) (weight : 0 ≤ target) (charged : 0 ≤ cost)
    (within : cost ≤ 1) (stepped : stepUnits sleeve price target band cost = .ok fill) :
    Solvent fill.sleeve := by
  obtain ⟨current, result, traded, _, isUnits, isCash, weighed⟩ := stepUnits_eq_ok stepped
  obtain ⟨units, cash⟩ :=
    unitsTraded_covered solvent.cash solvent.units positive weight charged within traded
  rw [← isUnits] at units
  have rest : 0 ≤ fill.sleeve.cash := by
    rw [isCash]
    exact sub_nonneg.mpr cash
  obtain ⟨nonneg, le_one⟩ := weightOf_mem_unit rest units positive weighed
  exact ⟨rest, units, nonneg, le_one⟩

/-- A step of a sleeve, of either family. -/
theorem stepSleeve_selfFinanced {book : Book} {strategy : Strategy K} {sleeve : Sleeve K} {price target : K}
    {firstDay : Bool} {fill : Fill K}
    (stepped : stepSleeve book strategy sleeve price target firstDay = .ok fill) :
    SelfFinanced book.fee.rate price sleeve fill := by
  unfold stepSleeve at stepped
  split at stepped
  next => exact stepFraction_selfFinanced stepped
  next =>
    obtain ⟨slippage, divided, stepped⟩ := bind_eq_ok.mp stepped
    obtain ⟨_, rfl⟩ := divide_exact.mp divided
    obtain ⟨_, _, _, financed, _⟩ := stepUnits_eq_ok stepped
    simpa [slippageBps] using financed

theorem Fee.rate_mem_unit (fee : Fee) : (0 : K) ≤ fee.rate ∧ (fee.rate : K) ≤ 1 := by
  cases fee with
  | tenBps =>
      change (0 : K) ≤ OfScientific.ofScientific 1 true 3 ∧ (OfScientific.ofScientific 1 true 3 : K) ≤ 1
      norm_num
  | fortyBps =>
      change (0 : K) ≤ OfScientific.ofScientific 4 true 3 ∧ (OfScientific.ofScientific 4 true 3 : K) ≤ 1
      norm_num
  | eightyBps =>
      change (0 : K) ≤ OfScientific.ofScientific 8 true 3 ∧ (OfScientific.ofScientific 8 true 3 : K) ≤ 1
      norm_num

theorem stepSleeve_solvent {book : Book} (family : book.rule.family = .trend5) {strategy : Strategy K}
    {sleeve : Sleeve K} {price target : K} {firstDay : Bool} {fill : Fill K} (solvent : Solvent sleeve)
    (positive : 0 < price) (weight : 0 ≤ target)
    (stepped : stepSleeve book strategy sleeve price target firstDay = .ok fill) : Solvent fill.sleeve := by
  unfold stepSleeve at stepped
  rw [family] at stepped
  obtain ⟨slippage, divided, stepped⟩ := bind_eq_ok.mp stepped
  obtain ⟨_, rfl⟩ := divide_exact.mp divided
  obtain ⟨nonneg, le_one⟩ := Fee.rate_mem_unit (K := K) book.fee
  refine stepUnits_solvent solvent positive weight ?_ ?_ stepped
  · simpa [slippageBps] using nonneg
  · simpa [slippageBps] using le_one

/-! ## Prices and signals -/

def PositiveOpens (market : Market K) : Prop :=
  ∀ item ∈ market, ∀ bar ∈ item.2.closed, 0 < bar.openPrice

theorem PositiveOpens.openOn {market : Market K} (positive : PositiveOpens market) {symbol : String}
    {series : DailySeries K} (found : seriesOf market symbol = .ok series) {day : Date} {price : K}
    (opened : series.openOn day = some price) : 0 < price := by
  rw [series.openOn_eq] at opened
  cases isLive : series.live.filter fun pair => pair.1 = day with
  | some pair =>
      rw [isLive] at opened
      cases opened
      obtain ⟨same, -⟩ := Option.filter_eq_some_iff.mp isLive
      have priced := (series.livePriced pair.1 pair.2 same).2
      simpa using priced
  | none =>
      rw [isLive] at opened
      obtain ⟨bar, isBar, rfl⟩ := Option.map_eq_some_iff.mp opened
      have member := List.mem_reverse.mp (List.mem_of_find?_eq_some isBar)
      unfold seriesOf at found
      cases known : market.get? symbol with
      | none =>
          rw [known] at found
          cases found
          cases member
      | some other =>
          rw [known] at found
          dsimp only at found
          split at found
          · cases found
            exact positive _ (Dict.mem_of_get?_eq_some known) bar member
          · cases found

theorem PositiveOpens.fillPrice {market : Market K} (positive : PositiveOpens market) {asset : Asset}
    {quote : Quote} {day : Date} {price : K} {source : String}
    (priced : fillPrice market asset quote day = .ok (price, source)) : 0 < price := by
  unfold Trend.fillPrice at priced
  obtain ⟨usdt, isUsdt, priced⟩ := bind_eq_ok.mp priced
  obtain ⟨usdtOpen, isOpen, priced⟩ := bind_eq_ok.mp priced
  have usdtPositive := positive.openOn isUsdt (require_eq_ok.mp isOpen)
  split at priced
  next =>
    cases priced
    exact usdtPositive
  next =>
    obtain ⟨eur, isEur, priced⟩ := bind_eq_ok.mp priced
    split at priced
    next eurOpen isEurOpen =>
      cases priced
      exact positive.openOn isEur isEurOpen
    next =>
      obtain ⟨rate, isRate, priced⟩ := bind_eq_ok.mp priced
      split at priced
      next fx isFx =>
        obtain ⟨quotient, divided, same⟩ := bind_eq_ok.mp priced
        cases same
        obtain ⟨_, rfl⟩ := divide_exact.mp (mapError_eq_ok.mp divided)
        exact div_pos usdtPositive (positive.openOn isRate isFx)
      next => cases priced

/-- The weights of the TREND5 signal are not negative. -/
def NonnegWeights (signals : DaySignals K) : Prop :=
  ∀ rule : Rule, rule.family = .trend5 → ∀ weight,
    signals.trend5.values.get? rule.text = some weight → 0 ≤ weight

theorem NonnegWeights.target {signals : DaySignals K} (nonneg : NonnegWeights signals) {rule : Rule}
    (family : rule.family = .trend5) {asset : Asset} {target : K}
    (isTarget : targetOf rule signals asset = .ok target) : 0 ≤ target := by
  cases rule with
  | ens => cases family
  | ensVt => cases family
  | bh5050 => cases family
  | bhBtc =>
      cases isTarget
      rw [one_exact]
      exact zero_le_one
  | btcTrend5 => exact nonneg .btcTrend5 rfl target (require_eq_ok.mp isTarget)
  | btcTrend5Vt => exact nonneg .btcTrend5Vt rfl target (require_eq_ok.mp isTarget)

theorem finiteWeight_nonneg [Functions K] {value weight : K} {what : String}
    (checked : finiteWeight value what = .ok weight) : 0 ≤ weight := by
  unfold finiteWeight at checked
  split at checked
  next within =>
    cases checked
    simp only [isFinite_exact, le_exact, zero_exact, one_exact, Bool.true_and, Bool.and_eq_true,
      decide_eq_true_eq] at within
    exact within.1
  next => cases checked

/-- The weights that the day's signals hold when they come from the market. -/
theorem daySignals_nonneg [Functions K] {market : Market K} {day : Date} {signals : DaySignals K}
    (isSignals : daySignals market day = .ok signals) : NonnegWeights signals := by
  unfold daySignals at isSignals
  obtain ⟨ens, -, isSignals⟩ := bind_eq_ok.mp isSignals
  obtain ⟨trend5, isTrend5, same⟩ := bind_eq_ok.mp isSignals
  cases same
  unfold trend5Signal at isTrend5
  obtain ⟨series, -, isTrend5⟩ := bind_eq_ok.mp isTrend5
  obtain ⟨previous, -, isTrend5⟩ := bind_eq_ok.mp isTrend5
  obtain ⟨close, -, isTrend5⟩ := bind_eq_ok.mp isTrend5
  obtain ⟨history, -, isTrend5⟩ := bind_eq_ok.mp isTrend5
  obtain ⟨plain, -, isTrend5⟩ := bind_eq_ok.mp isTrend5
  obtain ⟨scaled, -, isTrend5⟩ := bind_eq_ok.mp isTrend5
  obtain ⟨closes, -, isTrend5⟩ := bind_eq_ok.mp isTrend5
  obtain ⟨votes, -, isTrend5⟩ := bind_eq_ok.mp isTrend5
  obtain ⟨bars, -, isTrend5⟩ := bind_eq_ok.mp isTrend5
  obtain ⟨scale, -, isTrend5⟩ := bind_eq_ok.mp isTrend5
  obtain ⟨plainWeight, plainChecked, isTrend5⟩ := bind_eq_ok.mp isTrend5
  obtain ⟨scaledWeight, scaledChecked, same⟩ := bind_eq_ok.mp isTrend5
  cases same
  intro rule family weight found
  cases rule with
  | ens => cases family
  | ensVt => cases family
  | bh5050 => cases family
  | bhBtc => simp [Dict.get?, Rule.text] at found
  | btcTrend5 =>
      have same : plainWeight = weight := by simpa [Dict.get?, Rule.text] using found
      rw [← same]
      exact finiteWeight_nonneg plainChecked
  | btcTrend5Vt =>
      have same : scaledWeight = weight := by simpa [Dict.get?, Rule.text] using found
      rw [← same]
      exact finiteWeight_nonneg scaledChecked

/-! ## One booked day -/

/-- A booked day: what `book_day` was called with, and what it returned. -/
structure DayLog (K : Type) [PyFloat K] where
  market : Market K
  day : Date
  states : Dict String (BookState K)
  ts : PyStr
  start : Date
  signals : Option (DaySignals K)
  records : List (Record K)
  after : Dict String (BookState K)

/-- The sleeve of a book, which starts anew where the states have none. -/
def HasSleeve (states : Dict String (BookState K)) (book : Book) (asset : Asset) (sleeve : Sleeve K) : Prop :=
  ∃ state, stateBefore states book = .ok state ∧ state.get? asset.text = some sleeve

/-- The fill of a sleeve on a booked day: at the day's price of the quote, in the record of the book, and in
the new state. -/
structure SleeveBooked (log : DayLog K) (book : Book) (asset : Asset) (price : K) (fill : Fill K) : Prop where
  priced : ∃ source, fillPrice log.market asset book.quote log.day = .ok (price, source)
  recorded : ∃ record ∈ log.records, ∃ assets, record.get? (pyStr "book") = some (text book.id) ∧
    record.get? (pyStr "assets") = some (.object assets) ∧
    ∃ strategy signal openUsdt source, Dict.get? assets (pyStr asset.text) =
      some (assetRecord asset strategy signal openUsdt price source fill)
  kept : HasSleeve log.after book asset fill.sleeve

/-- The opens are positive and the weights that the caller gives are not negative. -/
def Proper (log : DayLog K) : Prop :=
  PositiveOpens log.market ∧ ∀ given, log.signals = some given → NonnegWeights given

/-- **A booked day** of one sleeve. -/
theorem sleeve_booked [Functions K] {log : DayLog K}
    (isBooked : bookDay log.market log.day log.states log.ts log.start log.signals =
      .ok (log.records, log.after))
    {book : Book} (isBook : book ∈ books) {asset : Asset} (isAsset : asset ∈ book.rule.assets) :
    ∃ price sleeve fill, HasSleeve log.states book asset sleeve ∧
      SleeveBooked log book asset price fill ∧ SelfFinanced book.fee.rate price sleeve fill ∧
      (book.rule.family = .trend5 → Proper log → Solvent sleeve → Solvent fill.sleeve) := by
  obtain ⟨inputs, _, _, isSignals, isPrices, news, isAfter, newsLength, booked, lengths⟩ :=
    bookDay_eq_ok isBooked
  obtain ⟨written, isWritten, new, isNew, state, totals, parts, isState, totalled, rfl, rfl⟩ :=
    booked_of_mem booked lengths newsLength isBook
  obtain ⟨strategy, part, inZip⟩ := exists_part totalled isAsset
  have stepped := (List.forall₂_iff_zip.mp totalled.steps).2 inZip
  have lengths := totalled.steps.length_eq
  obtain ⟨⟨price, source⟩, isPrice, stepped⟩ := bind_eq_ok.mp stepped
  obtain ⟨target, isTarget, stepped⟩ := bind_eq_ok.mp stepped
  obtain ⟨sleeve, isSleeve, stepped⟩ := bind_eq_ok.mp stepped
  obtain ⟨fill, isFill, stepped⟩ := bind_eq_ok.mp stepped
  obtain ⟨signal, isSignal, stepped⟩ := bind_eq_ok.mp stepped
  obtain ⟨⟨openUsdt, openSource⟩, isOpen, same⟩ := bind_eq_ok.mp stepped
  cases same
  have filled := mapError_eq_ok.mp isFill
  have priced := get?_dayPrices isPrices (require_eq_ok.mp isPrice)
  refine ⟨price, sleeve, fill, ⟨state, isState, require_eq_ok.mp isSleeve⟩, ⟨⟨source, priced⟩, ?_, ?_⟩,
    stepSleeve_selfFinanced filled, fun family proper solvent => ?_⟩
  · refine ⟨_, isWritten, totals.assets, rfl, rfl, strategy, signal, openUsdt, source, ?_⟩
    rw [totalled.assets]
    have entry := get?_of_sleeve (fun asset => pyStr asset.text)
      (pyStr_injective.comp Asset.text_injective) lengths Prod.fst inZip
    exact entry
  · have found : totals.sleeves.get? asset.text = some fill.sleeve := by
      rw [totalled.sleeves]
      exact get?_of_sleeve Asset.text Asset.text_injective lengths (fun part => part.2.sleeve) inZip
    have hasState : log.after.get? book.id = some totals.sleeves := by
      rw [isAfter]
      refine (Dict.get?_eq_some_iff ?_).mpr isNew
      unfold Dict.Distinct
      rw [List.map_fst_zip (by simp [newsLength])]
      exact books_distinct
    refine ⟨totals.sleeves, ?_, found⟩
    unfold stateBefore
    rw [hasState]
    cases isEmpty : totals.sleeves with
    | nil =>
        rw [isEmpty] at found
        cases found
    | cons first rest => rfl
  · have weight : 0 ≤ target := by
      refine NonnegWeights.target ?_ family isTarget
      cases given : log.signals with
      | none =>
          rw [given] at isSignals
          exact daySignals_nonneg isSignals
      | some signals =>
          rw [given] at isSignals
          cases isSignals
          exact proper.2 _ given
    exact stepSleeve_solvent family solvent (proper.1.fillPrice priced) weight filled

/-! ## Runs -/

/-- The days booked one after another from nothing. -/
inductive BookedRun [Functions K] : List (DayLog K) → Dict String (BookState K) → Prop
  | start : BookedRun [] []
  | day {logs : List (DayLog K)} {log : DayLog K} (run : BookedRun logs log.states)
      (isBooked : bookDay log.market log.day log.states log.ts log.start log.signals =
        .ok (log.records, log.after)) : BookedRun (logs ++ [log]) log.after

/-- What the units held gain from one booked day to the next. -/
def gains : List (K × Fill K) → K
  | earlier :: later :: rest => earlier.2.sleeve.units * (later.1 - earlier.1) + gains (later :: rest)
  | [_] => 0
  | [] => 0

/-- The fees of the days. -/
def feesPaid (days : List (K × Fill K)) : K := (days.map fun day => day.2.fee).sum

/-- Every day is financed by the one before. -/
def FinancedDays (rate : K) : Sleeve K → List (K × Fill K) → Prop
  | _, [] => True
  | sleeve, day :: rest => SelfFinanced rate day.1 sleeve day.2 ∧ FinancedDays rate day.2.sleeve rest

/-- What a sleeve holds in the end. -/
def heldAfter (sleeve : Sleeve K) (days : List (K × Fill K)) : Sleeve K :=
  days.getLast?.elim sleeve fun day => day.2.sleeve

omit [IsStrictOrderedRing K] in
theorem FinancedDays.concat {rate : K} {days : List (K × Fill K)} {day : K × Fill K} :
    ∀ {sleeve : Sleeve K}, FinancedDays rate sleeve days →
      SelfFinanced rate day.1 (heldAfter sleeve days) day.2 → FinancedDays rate sleeve (days ++ [day]) := by
  induction days with
  | nil => exact fun _ step => ⟨step, trivial⟩
  | cons first rest ih =>
      intro sleeve chained step
      refine ⟨chained.1, ih chained.2 ?_⟩
      cases rest with
      | nil => exact step
      | cons second later => exact step

/-- **The equity** of a chain of days: what the sleeve was worth at the first price, and the gains, less the
fees. -/
theorem FinancedDays.equity {rate : K} {last : K × Fill K} :
    ∀ {days : List (K × Fill K)} {first : K × Fill K} {sleeve : Sleeve K},
      FinancedDays rate sleeve (first :: days) → (first :: days).getLast? = some last →
      last.2.equityAfter = sleeve.cash + sleeve.units * first.1 + gains (first :: days) -
        feesPaid (first :: days) := by
  intro days
  induction days with
  | nil =>
      intro first sleeve chained isLast
      obtain rfl : first = last := by simpa using isLast
      have step := chained.1
      rw [step.paid, step.before]
      simp [gains, feesPaid]
  | cons second rest ih =>
      intro first sleeve chained isLast
      have step := chained.1
      rw [ih chained.2 (by simpa using isLast)]
      have start : first.2.sleeve.cash + first.2.sleeve.units * first.1 =
          sleeve.cash + sleeve.units * first.1 - first.2.fee := by
        rw [← step.after, step.paid, step.before]
      simp only [gains, feesPaid, List.map_cons, List.sum_cons]
      linear_combination start

/-- The even share of a sleeve. -/
def startingSleeve (book : Book) : Sleeve K := ⟨capital / book.rule.assets.length, 0.0, 0.0⟩

theorem startingSleeve_solvent (book : Book) : Solvent (startingSleeve book : Sleeve K) where
  cash := by
    have positive : (0 : K) < capital := by
      change (0 : K) < OfScientific.ofScientific 70000 true 1
      norm_num
    exact div_nonneg positive.le (Nat.cast_nonneg _)
  units := zero_exact.ge
  held_nonneg := zero_exact.ge
  held_le_one := zero_exact.trans_le zero_le_one

omit [Field K] [LinearOrder K] [IsStrictOrderedRing K] in
theorem heldAfter_eq (sleeve : Sleeve K) (days : List (K × Fill K)) :
    heldAfter sleeve days = sleeve ∨ ∃ day ∈ days, heldAfter sleeve days = day.2.sleeve := by
  unfold heldAfter
  cases isLast : days.getLast? with
  | none => exact .inl rfl
  | some day => exact .inr ⟨day, List.mem_of_getLast? isLast, rfl⟩

omit [IsStrictOrderedRing K] in
theorem HasSleeve.start {book : Book} {asset : Asset} {sleeve : Sleeve K}
    (has : HasSleeve [] book asset sleeve) : sleeve = startingSleeve book := by
  obtain ⟨state, isState, found⟩ := has
  obtain ⟨share, divided, same⟩ := bind_eq_ok.mp isState
  obtain ⟨_, rfl⟩ := divide_exact.mp (mapError_eq_ok.mp divided)
  cases same
  obtain ⟨_, _, same⟩ := List.mem_map.mp (Dict.mem_of_get?_eq_some found)
  have isSleeve := congrArg Prod.snd same
  rw [ofCount_exact] at isSleeve
  exact isSleeve.symm

omit [IsStrictOrderedRing K] in
theorem HasSleeve.unique {states : Dict String (BookState K)} {book : Book} {asset : Asset}
    {first second : Sleeve K} (hasFirst : HasSleeve states book asset first)
    (hasSecond : HasSleeve states book asset second) : first = second := by
  obtain ⟨state, isState, found⟩ := hasFirst
  obtain ⟨other, isOther, foundOther⟩ := hasSecond
  cases isState.symm.trans isOther
  exact Option.some.inj (found.symm.trans foundOther)

/-- The state after a run holds what the sleeve holds after its days. -/
theorem sleeve_run [Functions K] {logs : List (DayLog K)} {states : Dict String (BookState K)}
    (run : BookedRun logs states) {book : Book} (isBook : book ∈ books) {asset : Asset}
    (isAsset : asset ∈ book.rule.assets) :
    ∃ days, List.Forall₂ (fun log day => SleeveBooked log book asset day.1 day.2) logs days ∧
      FinancedDays book.fee.rate (startingSleeve book) days ∧
      (∀ sleeve, HasSleeve states book asset sleeve → sleeve = heldAfter (startingSleeve book) days) ∧
      (book.rule.family = .trend5 → (∀ log ∈ logs, Proper log) → ∀ day ∈ days, Solvent day.2.sleeve) := by
  induction run with
  | start => exact ⟨[], .nil, trivial, fun sleeve has => has.start, fun _ _ day isDay => by cases isDay⟩
  | @day logs log run isBooked ih =>
      obtain ⟨days, booked, chained, held, solvent⟩ := ih
      obtain ⟨price, sleeve, fill, has, isFill, financed, keeps⟩ := sleeve_booked isBooked isBook isAsset
      have isHeld := held sleeve has
      refine ⟨days ++ [(price, fill)], List.rel_append booked (.cons isFill .nil), ?_, ?_, ?_⟩
      · exact chained.concat (isHeld ▸ financed)
      · intro other hasOther
        rw [hasOther.unique isFill.kept]
        simp [heldAfter]
      · intro family proper day isDay
        have before := solvent family fun earlier isEarlier => proper earlier (List.mem_append_left _ isEarlier)
        rcases List.mem_append.mp isDay with isOld | isNew
        · exact before day isOld
        · obtain rfl := List.mem_singleton.mp isNew
          refine keeps family (proper log (by simp)) ?_
          rw [isHeld]
          rcases heldAfter_eq (startingSleeve book) days with same | ⟨last, isLast, same⟩
          · rw [same]
            exact startingSleeve_solvent book
          · rw [same]
            exact before last isLast

/-- **The books finance themselves** in exact arithmetic: over every run of booked days, from empty states,
every sleeve of every book loses its fee on each day and nothing else, the fee being the book's rate of the
traded notional; its equity is its share of the capital, and what its units gained, less the fees. In the
TREND5 family the sleeves are solvent on every day, when the opens are positive and the weights that the
caller gave are not negative. -/
theorem books_self_financing [Functions K] {logs : List (DayLog K)} {states : Dict String (BookState K)}
    (run : BookedRun logs states) {book : Book} (isBook : book ∈ books) {asset : Asset}
    (isAsset : asset ∈ book.rule.assets) :
    ∃ days : List (K × Fill K),
      List.Forall₂ (fun log day => SleeveBooked log book asset day.1 day.2) logs days ∧
      FinancedDays book.fee.rate (startingSleeve book) days ∧
      (∀ last, days.getLast? = some last → last.2.equityAfter =
        capital / book.rule.assets.length + gains days - feesPaid days) ∧
      (book.rule.family = .trend5 → (∀ log ∈ logs, Proper log) → ∀ day ∈ days, Solvent day.2.sleeve) := by
  obtain ⟨days, booked, chained, _, solvent⟩ := sleeve_run run isBook isAsset
  refine ⟨days, booked, chained, fun last isLast => ?_, solvent⟩
  cases days with
  | nil => cases isLast
  | cons first rest =>
      rw [chained.equity isLast]
      simp [startingSleeve]

/-- No function of `math` is called when the signals are given. -/
instance givenSignals : Functions ℚ where
  log _ := .error .domain
  sqrt _ := .error .domain
  square _ := .error .overflow
  repr _ := ""

def oneCandle (day : Date) (symbol : String) (price : ℚ) : DailySeries ℚ where
  symbol := symbol
  closed := [⟨dayOpenMs day, price, price, price, price⟩]
  live := none
  ascending := List.pairwise_singleton _ _
  livePriced := by simp
  liveLast := by simp
  dated := by
    intro bar isBar
    obtain rfl := List.mem_singleton.mp isBar
    rw [utcDay?_dayOpenMs]
    rfl

def candlesOn (day : Date) (price : ℚ) : Market ℚ :=
  [("BTCUSDT", oneCandle day "BTCUSDT" price), ("ETHUSDT", oneCandle day "ETHUSDT" 25),
    ("EURUSDT", oneCandle day "EURUSDT" 2)]

/-- Signals of a day that all have one weight. -/
def oneWeight (day : Date) (weight : ℚ) : DaySignals ℚ :=
  let ens (asset : Asset) : AssetSignal ℚ :=
    ⟨asset, asset.usdtSymbol, day, 100, [("ENS", weight), ("ENS_VT", weight)]⟩
  ⟨day, [(.btc, ens .btc), (.eth, ens .eth)],
    ⟨.btc, btcusdt, day, 100, [("BTC_TREND5", weight), ("BTC_TREND5_VT", weight)]⟩⟩

/-- A day is booked at this price and weight. -/
def bookOn (day : Date) (states : Dict String (BookState ℚ)) (price weight : ℚ) :
    Except PaperFailure (List (Record ℚ) × Dict String (BookState ℚ)) :=
  bookDay (candlesOn day price) day states (pyStr "t") paperStart (some (oneWeight day weight))

def logOn (day : Date) (states : Dict String (BookState ℚ)) (price weight : ℚ)
    (booked : List (Record ℚ) × Dict String (BookState ℚ)) : DayLog ℚ :=
  ⟨candlesOn day price, day, states, pyStr "t", paperStart, some (oneWeight day weight), booked.1, booked.2⟩

/-- The units of the BTC_TREND5 book in USDT. -/
def trendUnits (states : Dict String (BookState ℚ)) : Option ℚ :=
  (states.get? (Book.id ⟨.usdt, .btcTrend5, .tenBps⟩)).bind fun state => (state.get? "BTC").map Sleeve.units

/-- The units of that book after the first day. -/
def firstUnits (price weight : ℚ) : Option ℚ :=
  (bookOn paperStart [] price weight).toOption.bind fun booked => trendUnits booked.2

theorem exists_of_trendUnits {booked : Except PaperFailure (List (Record ℚ) × Dict String (BookState ℚ))}
    {units : ℚ} (check : (booked.toOption.bind fun booked => trendUnits booked.2) = some units) :
    ∃ found, booked = .ok found ∧ trendUnits found.2 = some units := by
  cases booked with
  | error failure => cases check
  | ok found => exact ⟨found, rfl, check⟩

/-- The run of the first day, and the sleeve of the BTC_TREND5 book in USDT after it. -/
theorem exists_firstRun {price weight units : ℚ} (check : firstUnits price weight = some units) :
    ∃ booked sleeve, BookedRun [logOn paperStart [] price weight booked] booked.2 ∧
      HasSleeve booked.2 ⟨.usdt, .btcTrend5, .tenBps⟩ .btc sleeve ∧ sleeve.units = units := by
  obtain ⟨booked, isBooked, check⟩ := exists_of_trendUnits check
  obtain ⟨state, isState, check⟩ := Option.bind_eq_some_iff.mp check
  obtain ⟨sleeve, isSleeve, isUnits⟩ := Option.map_eq_some_iff.mp check
  have run : BookedRun ([] ++ [logOn paperStart [] price weight booked]) booked.2 := .day .start isBooked
  refine ⟨booked, sleeve, run, ⟨state, ?_, isSleeve⟩, isUnits⟩
  unfold stateBefore
  rw [isState]
  cases state with
  | nil => cases isSleeve
  | cons first rest => rfl

theorem candlesOn_positive {day : Date} {price : ℚ} (positive : 0 < price) : PositiveOpens (candlesOn day price) := by
  intro item isItem bar isBar
  simp only [candlesOn, List.mem_cons, List.not_mem_nil, or_false] at isItem
  rcases isItem with rfl | rfl | rfl <;> obtain rfl := List.mem_singleton.mp isBar
  · exact positive
  · norm_num
  · norm_num

theorem oneWeight_nonneg {day : Date} {weight : ℚ} (nonneg : 0 ≤ weight) :
    NonnegWeights (oneWeight day weight) := by
  intro rule family found isFound
  have member := Dict.mem_of_get?_eq_some isFound
  simp only [oneWeight, List.mem_cons, List.not_mem_nil, or_false, Prod.mk.injEq] at member
  rcases member with ⟨_, rfl⟩ | ⟨_, rfl⟩ <;> exact nonneg

theorem logOn_proper {day : Date} {states : Dict String (BookState ℚ)} {price weight : ℚ}
    (positive : 0 < price) (nonneg : 0 ≤ weight)
    (booked : List (Record ℚ) × Dict String (BookState ℚ)) : Proper (logOn day states price weight booked) := by
  refine ⟨candlesOn_positive positive, fun given isGiven => ?_⟩
  cases isGiven
  exact oneWeight_nonneg nonneg

/-- Half of the equity at the price 100, and a quarter at 110 on the next day, which sells. -/
theorem twoDays_booked :
    ((bookOn paperStart [] 100 (1 / 2)).toOption.bind fun first =>
      (bookOn dayAfterStart first.2 110 (1 / 4)).toOption.bind fun second => trendUnits second.2).isSome =
        true := by
  decide +kernel

/-- Two days, the second of which sells at a higher price. -/
theorem books_self_financing_two : ∃ first second,
    BookedRun [logOn paperStart [] 100 (1 / 2) first, logOn dayAfterStart first.2 110 (1 / 4) second] second.2 ∧
    ∃ days : List (ℚ × Fill ℚ),
      List.Forall₂ (fun log day => SleeveBooked log ⟨.usdt, .btcTrend5, .tenBps⟩ .btc day.1 day.2)
        [logOn paperStart [] 100 (1 / 2) first, logOn dayAfterStart first.2 110 (1 / 4) second] days ∧
      (∀ last, days.getLast? = some last →
        last.2.equityAfter = capital / 1 + gains days - feesPaid days) ∧
      ∀ day ∈ days, Solvent day.2.sleeve := by
  obtain ⟨units, check⟩ := Option.isSome_iff_exists.mp twoDays_booked
  obtain ⟨first, isFirst, check⟩ := Option.bind_eq_some_iff.mp check
  obtain ⟨second, isSecond, -⟩ := exists_of_trendUnits check
  have isFirst : bookOn paperStart [] 100 (1 / 2) = .ok first := by
    cases booked : bookOn paperStart [] 100 (1 / 2) with
    | error failure =>
        rw [booked] at isFirst
        cases isFirst
    | ok found =>
        rw [booked] at isFirst
        cases isFirst
        rfl
  have run : BookedRun (([] ++ [logOn paperStart [] 100 (1 / 2) first]) ++
      [logOn dayAfterStart first.2 110 (1 / 4) second]) second.2 := .day (.day .start isFirst) isSecond
  have isBook : (⟨.usdt, .btcTrend5, .tenBps⟩ : Book) ∈ books := by decide
  have isAsset : Asset.btc ∈ Rule.btcTrend5.assets := List.mem_cons_self
  obtain ⟨days, isDays, _, equity, solvent⟩ := books_self_financing run isBook isAsset
  refine ⟨first, second, run, days, isDays, ?_, solvent rfl ?_⟩
  · simpa [Rule.assets] using equity
  · intro log isLog
    rcases List.mem_pair.mp isLog with rfl | rfl
    · exact logOn_proper (by norm_num) (by norm_num) _
    · exact logOn_proper (by norm_num) (by norm_num) _

/-- A weight that the caller gives and that is negative sells short, and so does a bar with a negative
open. -/
theorem negative_weight_sells_short :
    (∃ booked sleeve, BookedRun [logOn paperStart [] 100 (-1) booked] booked.2 ∧
      PositiveOpens (logOn paperStart [] 100 (-1) booked).market ∧
      HasSleeve booked.2 ⟨.usdt, .btcTrend5, .tenBps⟩ .btc sleeve ∧ sleeve.units < 0) ∧
    ∃ booked sleeve, BookedRun [logOn paperStart [] (-100) 1 booked] booked.2 ∧ NonnegWeights (oneWeight paperStart 1) ∧
      HasSleeve booked.2 ⟨.usdt, .btcTrend5, .tenBps⟩ .btc sleeve ∧ sleeve.units < 0 := by
  constructor
  · obtain ⟨booked, sleeve, run, has, units⟩ :=
      exists_firstRun (by decide +kernel : firstUnits 100 (-1) = some (-70))
    exact ⟨booked, sleeve, run, candlesOn_positive (by norm_num), has, by rw [units]; norm_num⟩
  · obtain ⟨booked, sleeve, run, has, units⟩ :=
      exists_firstRun (by decide +kernel : firstUnits (-100) 1 = some (-70))
    exact ⟨booked, sleeve, run, oneWeight_nonneg zero_le_one, has, by rw [units]; norm_num⟩

end CryptoRadar.Trend
