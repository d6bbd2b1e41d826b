import CryptoRadar.Costs.RoundTrip
import Mathlib.Tactic.LinearCombination

/-!
# Lines and cash of a round trip

The lines of a leg add up to what its fill costs against the mid (`legPart_lines`), so the lines of
a complete scenario, which come from spread, slippage, fees and funding, add up to the cash that is
paid, which comes from the signed notionals of the fills (`itemised_costs_and_cash_agree`). All
sums are exact: what the context of costs does not refuse is arithmetic of rational numbers.
-/

set_option autoImplicit false

namespace CryptoRadar.Costs

open Checked Decimal

/-! ## Exact computations -/

theorem exact_eq_ok {α : Type} {field : String} {computed : Except TrapError α} {result : α} :
    exact_ field computed = .ok result ↔ computed = .ok result := by
  cases computed with
  | ok other => simp [exact_]
  | error error =>
      match error with
      | .inexact => simp [exact_]
      | .invalid .divisionByZero => simp [exact_]
      | .invalid .overflow => simp [exact_]
      | .invalid .invalidOperation => simp [exact_]

/-- The sign of a direction as a number. -/
def TradeDirection.factor : TradeDirection → ℚ
  | .buy => 1
  | .sell => -1

theorem one_toRat : one.toRat = 1 := by simp [one, toRat_ofNat]

theorem minusOne_toRat : minusOne.toRat = -1 := by
  simp [minusOne, ofInt, toRat, magnitude]

theorem sign_toRat (direction : TradeDirection) : direction.sign.toRat = direction.factor := by
  cases direction with
  | buy => exact one_toRat
  | sell => exact minusOne_toRat

theorem bps_toRat : bps.toRat = 10000 := by
  simp [bps, toRat_ofNat]

theorem factor_mul_self (direction : TradeDirection) : direction.factor * direction.factor = 1 := by
  cases direction <;> norm_num [TradeDirection.factor]

/-- What an exact division by 10,000 gives. -/
theorem rate_toRat {value rate : Decimal} (isRate : divExact costContext value bps = .ok rate) :
    rate.toRat = value.toRat / 10000 := by
  rw [divExact_toRat (by rw [bps_toRat]; norm_num) isRate, bps_toRat]

theorem moved_toRat {field : String} {direction : TradeDirection} {rate result : Decimal}
    (isMoved : moved field direction rate = .ok result) :
    result.toRat = 1 + direction.factor * rate.toRat := by
  obtain ⟨step, isStep, isSum⟩ := bind_eq_ok.mp (exact_eq_ok.mp isMoved)
  rw [addExact_toRat isSum, mulExact_toRat isStep, one_toRat, sign_toRat]

/-! ## One leg -/

/-- The sum of the fractions of some lines. -/
def linesTotal (lines : List CostLine) : ℚ := (lines.map fun line => line.fraction.toRat).sum

theorem linesTotal_append (first second : List CostLine) :
    linesTotal (first ++ second) = linesTotal first + linesTotal second := by
  simp [linesTotal]

/-- The exact sum of the fractions of some lines. -/
theorem total_toRat {lines : List CostLine} {total : Decimal}
    (isSum : sumExact costContext (lines.map CostLine.fraction) = .ok total) :
    total.toRat = linesTotal lines := by
  rw [sumExact_toRat isSum, List.map_map]
  rfl

/-- A fill from the mid, or from a touch half a spread away from it. -/
theorem fillOf_toRat {direction : TradeDirection} {half : Option Decimal} {slippage : Decimal}
    {fill : Fill} (isFill : fillOf direction half slippage = .ok fill) :
    fill.spread = half ∧
      fill.notionalFraction.toRat = (1 + direction.factor * (half.elim 0 toRat)) *
        (1 + direction.factor * slippage.toRat) ∧
      fill.slippage.toRat = (1 + direction.factor * (half.elim 0 toRat)) * slippage.toRat := by
  cases half with
  | none =>
      obtain ⟨moved, isMoved, made⟩ := bind_eq_ok.mp isFill
      cases made
      simp [moved_toRat isMoved]
  | some half =>
      obtain ⟨touch, isTouch, isFill⟩ := bind_eq_ok.mp isFill
      obtain ⟨fraction, isFraction, isFill⟩ := bind_eq_ok.mp isFill
      obtain ⟨slip, isSlip, made⟩ := bind_eq_ok.mp isFill
      cases made
      obtain ⟨step, isStep, product⟩ := bind_eq_ok.mp (exact_eq_ok.mp isFraction)
      obtain ⟨beyond, isBeyond, isProduct⟩ := bind_eq_ok.mp product
      refine ⟨rfl, ?_, ?_⟩
      · rw [mulExact_toRat isProduct, moved_toRat isTouch, addExact_toRat isBeyond,
          mulExact_toRat isStep, one_toRat, sign_toRat]
        rfl
      · rw [mulExact_toRat (exact_eq_ok.mp isSlip), moved_toRat isTouch]
        rfl

/-- The lines of a leg with a fill add up to its distance from the mid. -/
theorem legPart_lines {scenario : CostScenarioInput} {spread : Part (Option Decimal)} {leg : Leg}
    {part : Part (Option Fill)} (isPart : legPart scenario spread leg = .ok part) {fill : Fill}
    (filled : part.value = some fill) :
    linesTotal part.lines =
      (legDirection scenario.side leg).factor * (fill.notionalFraction.toRat - 1) := by
  unfold legPart at isPart
  generalize legDirection scenario.side leg = direction at isPart ⊢
  simp only at isPart
  split at isPart
  next =>
    cases isPart
    cases filled
  next slippage _ =>
    split at isPart
    next =>
      cases isPart
      cases filled
    next =>
      split at isPart
      next =>
        cases isPart
        cases filled
      next =>
        obtain ⟨fraction, _, isPart⟩ := bind_eq_ok.mp isPart
        obtain ⟨other, isFill, made⟩ := bind_eq_ok.mp isPart
        cases made
        cases filled
        obtain ⟨isSpread, notional, slip⟩ := fillOf_toRat isFill
        rw [linesTotal_append, isSpread, notional]
        have square := factor_mul_self direction
        clear isPart isFill
        generalize direction.factor = factor at *
        generalize spread.value = half at *
        cases half with
        | none =>
            simp only [linesTotal, Option.toList_none, List.map_nil, List.sum_nil, List.map_cons,
              List.sum_cons, slip, Option.elim_none]
            linear_combination -fraction.toRat * square
        | some half =>
            simp only [linesTotal, Option.toList_some, List.map_nil, List.sum_nil, List.map_cons,
              List.sum_cons, slip, Option.elim_some]
            linear_combination
              (-half.toRat - fraction.toRat - factor * half.toRat * fraction.toRat) * square

theorem feePart_lines {scenario : CostScenarioInput} {leg : Leg} {fill : Option Fill}
    {part : Part (Option Decimal)} (isPart : feePart scenario leg fill = .ok part) {fee : Decimal}
    (charged : part.value = some fee) : linesTotal part.lines = fee.toRat := by
  unfold feePart at isPart
  split at isPart
  next =>
    cases isPart
    cases charged
  next =>
    cases fill with
    | none =>
        cases isPart
        cases charged
    | some fill =>
        obtain ⟨fraction, _, made⟩ := bind_eq_ok.mp isPart
        cases made
        cases charged
        simp [linesTotal]

theorem fundingPart_lines {scenario : CostScenarioInput} {part : Part Decimal}
    (isPart : fundingPart scenario = .ok part) : linesTotal part.lines = part.value.toRat := by
  have none : zero.toRat = 0 := by simp [zero, toRat_ofNat]
  unfold fundingPart at isPart
  split at isPart
  next =>
    split at isPart
    next => cases isPart
    next =>
      cases isPart
      simp [linesTotal, none]
  next =>
    split at isPart
    next =>
      cases isPart
      simp [linesTotal, none]
    next =>
      split at isPart
      next =>
        obtain ⟨fraction, _, made⟩ := bind_eq_ok.mp isPart
        cases made
        simp [linesTotal]
      next =>
        cases isPart
        simp [linesTotal, none]

/-! ## The scenario -/

structure PricedFrom (scenario : CostScenarioInput) (priced : CostScenario) : Prop where
  parts : ∃ spread entry exit entryFee exitFee funding fx total money,
    spreadPart scenario = .ok spread ∧ legPart scenario spread .entry = .ok entry ∧
      legPart scenario spread .exit = .ok exit ∧
      feePart scenario .entry entry.value = .ok entryFee ∧
      feePart scenario .exit exit.value = .ok exitFee ∧ fundingPart scenario = .ok funding ∧
      fxPart scenario = .ok fx ∧
      (spread.missing = [] ∧ entry.missing = [] ∧ exit.missing = [] ∧ entryFee.missing = [] ∧
        exitFee.missing = [] ∧ funding.missing = []) ∧
      priced.lines = entry.lines ++ exit.lines ++ entryFee.lines ++ exitFee.lines ++ funding.lines ∧
      sumExact costContext (priced.lines.map CostLine.fraction) = .ok total ∧
      priced.totalFraction = some total ∧
      moneyOf scenario entry.value exit.value entryFee.value exitFee.value funding.value total
        fx.value = .ok money ∧
      priced.totalQuote = money.totalQuote ∧ priced.cashflow = money.cashflow
  size : priced.size = scenario.size

theorem pricedFrom_of_complete {scenario : CostScenarioInput} {priced : CostScenario}
    (isPriced : priceRoundTrip scenario = .ok priced) (complete : priced.status = .complete) :
    PricedFrom scenario priced := by
  obtain ⟨spread, isSpread, isPriced⟩ := bind_eq_ok.mp isPriced
  obtain ⟨_, _, isPriced⟩ := bind_eq_ok.mp isPriced
  obtain ⟨_, _, isPriced⟩ := bind_eq_ok.mp isPriced
  obtain ⟨entry, isEntry, isPriced⟩ := bind_eq_ok.mp isPriced
  obtain ⟨exit, isExit, isPriced⟩ := bind_eq_ok.mp isPriced
  obtain ⟨entryFee, isEntryFee, isPriced⟩ := bind_eq_ok.mp isPriced
  obtain ⟨exitFee, isExitFee, isPriced⟩ := bind_eq_ok.mp isPriced
  obtain ⟨funding, isFunding, isPriced⟩ := bind_eq_ok.mp isPriced
  obtain ⟨fx, isFx, isPriced⟩ := bind_eq_ok.mp isPriced
  dsimp only at isPriced
  split at isPriced
  next =>
    cases isPriced
    cases complete
  next nothing =>
    obtain ⟨total, isTotal, isPriced⟩ := bind_eq_ok.mp isPriced
    obtain ⟨money, isMoney, made⟩ := bind_eq_ok.mp isPriced
    cases made
    rw [not_not] at nothing
    simp only [List.append_eq_nil_iff] at nothing
    exact ⟨⟨spread, entry, exit, entryFee, exitFee, funding, fx, total, money, isSpread, isEntry,
      isExit, isEntryFee, isExitFee, isFunding, isFx, by tauto, rfl, exact_eq_ok.mp isTotal, rfl,
      isMoney, rfl, rfl⟩, rfl⟩

theorem tradeOf_toRat {direction : TradeDirection} {fill : Fill} {trade : Decimal}
    (isTrade : tradeOf direction fill = .ok trade) :
    trade.toRat = -direction.factor * fill.notionalFraction.toRat := by
  rw [mulExact_toRat (exact_eq_ok.mp isTrade)]
  cases direction with
  | buy => rw [minusOne_toRat, TradeDirection.factor]
  | sell => rw [one_toRat, TradeDirection.factor, neg_neg]

/-- The legs of a round trip go in opposite directions. -/
theorem factor_legs (side : Side) :
    (legDirection side .exit).factor = -(legDirection side .entry).factor := by
  cases side <;> simp [legDirection, TradeDirection.factor]

/-- The net cash is what the lines cost, taken from the account, and it is the sum of its
parts. -/
theorem cashflowOf_toRat {scenario : CostScenarioInput} {entry exit : Fill}
    {entryFee exitFee funding : Decimal} {currency : String} {cashflow : HypotheticalCashflow}
    (isCashflow : cashflowOf scenario entry exit entryFee exitFee funding currency = .ok cashflow) :
    cashflow.net.amount.toRat = -((legDirection scenario.side .entry).factor *
          (entry.notionalFraction.toRat - exit.notionalFraction.toRat) +
        entryFee.toRat + exitFee.toRat + funding.toRat) * scenario.size.notional.toRat ∧
      cashflow.net.amount.toRat = cashflow.entryTrade.amount.toRat + cashflow.entryFee.amount.toRat +
        cashflow.exitTrade.amount.toRat + cashflow.exitFee.amount.toRat +
        cashflow.funding.amount.toRat := by
  obtain ⟨entryTrade, isEntryTrade, isCashflow⟩ := bind_eq_ok.mp isCashflow
  obtain ⟨exitTrade, isExitTrade, isCashflow⟩ := bind_eq_ok.mp isCashflow
  obtain ⟨paidEntry, isPaidEntry, isCashflow⟩ := bind_eq_ok.mp isCashflow
  obtain ⟨paidExit, isPaidExit, isCashflow⟩ := bind_eq_ok.mp isCashflow
  obtain ⟨paidFunding, isPaidFunding, isCashflow⟩ := bind_eq_ok.mp isCashflow
  obtain ⟨net, isNet, isCashflow⟩ := bind_eq_ok.mp isCashflow
  obtain ⟨entryMoney, isEntryMoney, isCashflow⟩ := bind_eq_ok.mp isCashflow
  obtain ⟨entryFeeMoney, isEntryFeeMoney, isCashflow⟩ := bind_eq_ok.mp isCashflow
  obtain ⟨exitMoney, isExitMoney, isCashflow⟩ := bind_eq_ok.mp isCashflow
  obtain ⟨exitFeeMoney, isExitFeeMoney, isCashflow⟩ := bind_eq_ok.mp isCashflow
  obtain ⟨fundingMoney, isFundingMoney, isCashflow⟩ := bind_eq_ok.mp isCashflow
  obtain ⟨netMoney, isNetMoney, made⟩ := bind_eq_ok.mp isCashflow
  cases made
  have amount : ∀ {field : String} {value : Decimal} {money : Money},
      (exact_ field (mulExact costContext value scenario.size.notional) >>= fun amount =>
        (.ok ⟨amount, currency⟩ : Except CostFailure Money)) = .ok money →
      money.amount.toRat = value.toRat * scenario.size.notional.toRat := by
    intro field value money isMoney
    obtain ⟨amount, isAmount, made⟩ := bind_eq_ok.mp isMoney
    cases made
    exact mulExact_toRat (exact_eq_ok.mp isAmount)
  obtain ⟨trades, isTrades, isNet⟩ := bind_eq_ok.mp (exact_eq_ok.mp isNet)
  obtain ⟨withEntry, isWithEntry, isNet⟩ := bind_eq_ok.mp isNet
  obtain ⟨withExit, isWithExit, isNet⟩ := bind_eq_ok.mp isNet
  have netValue : net.toRat = entryTrade.toRat + exitTrade.toRat + paidEntry.toRat + paidExit.toRat +
      paidFunding.toRat := by
    rw [addExact_toRat isNet, addExact_toRat isWithExit, addExact_toRat isWithEntry,
      addExact_toRat isTrades]
  simp only [amount isNetMoney, amount isEntryMoney, amount isEntryFeeMoney, amount isExitMoney,
    amount isExitFeeMoney, amount isFundingMoney, netValue]
  constructor
  · rw [tradeOf_toRat isEntryTrade, tradeOf_toRat isExitTrade, factor_legs,
      negExact_toRat (exact_eq_ok.mp isPaidEntry), negExact_toRat (exact_eq_ok.mp isPaidExit),
      negExact_toRat (exact_eq_ok.mp isPaidFunding)]
    ring
  · ring

/-- **Itemised costs and cash agree**: for a complete scenario with an identified quote currency
the lines' fractions of the notional add up to the total, and the net cash is the total paid and
the sum of the cash of both trades, both fees and the funding. -/
theorem itemised_costs_and_cash_agree (scenario : CostScenarioInput) (priced : CostScenario)
    (isPriced : priceRoundTrip scenario = .ok priced) (complete : priced.status = .complete)
    (currency : String) (identified : scenario.instrument.quoteCurrency = some currency) :
    ∃ total cashflow, priced.totalQuote = some total ∧ priced.cashflow = some cashflow ∧
      total.currency = currency ∧
      (priced.lines.map fun line => line.fraction.toRat).sum * priced.size.notional.toRat =
        total.amount.toRat ∧
      cashflow.net.amount.toRat = -total.amount.toRat ∧
      cashflow.net.amount.toRat = cashflow.entryTrade.amount.toRat + cashflow.entryFee.amount.toRat +
        cashflow.exitTrade.amount.toRat + cashflow.exitFee.amount.toRat +
        cashflow.funding.amount.toRat := by
  obtain ⟨⟨spread, entryPart, exitPart, entryFeePart, exitFeePart, funding, fx, sum, money, _, isEntry,
    isExit, isEntryFee, isExitFee, isFunding, _, _, lines, isSum, _, isMoney, totalQuote,
    cashflows⟩, size⟩ := pricedFrom_of_complete isPriced complete
  unfold moneyOf at isMoney
  rw [identified] at isMoney
  obtain ⟨amount, isAmount, isMoney⟩ := bind_eq_ok.mp isMoney
  obtain ⟨report, _, isMoney⟩ := bind_eq_ok.mp isMoney
  obtain ⟨entry, isFilled, isMoney⟩ := bind_eq_ok.mp isMoney
  obtain ⟨exit, isExitFilled, isMoney⟩ := bind_eq_ok.mp isMoney
  obtain ⟨entryFee, isCharged, isMoney⟩ := bind_eq_ok.mp isMoney
  obtain ⟨exitFee, isExitCharged, isMoney⟩ := bind_eq_ok.mp isMoney
  obtain ⟨cashflow, isCashflow, made⟩ := bind_eq_ok.mp isMoney
  cases made
  have entryLines := legPart_lines isEntry (require_eq_ok.mp isFilled)
  have exitLines := legPart_lines isExit (require_eq_ok.mp isExitFilled)
  have entryFeeLines := feePart_lines isEntryFee (require_eq_ok.mp isCharged)
  have exitFeeLines := feePart_lines isExitFee (require_eq_ok.mp isExitCharged)
  have fundingLines := fundingPart_lines isFunding
  have added : (priced.lines.map fun line => line.fraction.toRat).sum =
      (legDirection scenario.side .entry).factor *
          (entry.notionalFraction.toRat - exit.notionalFraction.toRat) +
        entryFee.toRat + exitFee.toRat + funding.value.toRat := by
    change linesTotal priced.lines = _
    rw [lines, linesTotal_append, linesTotal_append, linesTotal_append, linesTotal_append,
      entryLines, exitLines, entryFeeLines, exitFeeLines, fundingLines, factor_legs]
    ring
  have total : amount.toRat = (priced.lines.map fun line => line.fraction.toRat).sum *
      scenario.size.notional.toRat := by
    rw [mulExact_toRat (exact_eq_ok.mp isAmount), total_toRat isSum]
    rfl
  obtain ⟨net, parts⟩ := cashflowOf_toRat isCashflow
  refine ⟨⟨amount, currency⟩, cashflow, totalQuote, cashflows, rfl, ?_, ?_, parts⟩
  · rw [size, total]
  · rw [net, total, added]
    ring

/-! ## A round trip in spot -/

/-- 1000 EUR of a spot pair with 26 bps a leg, whose book was not observed. -/
def spotScenario : CostScenarioInput where
  instrument := ⟨.spot, some "BTC/EUR", some "EUR", by decide +kernel⟩
  side := .long
  size := ⟨.ofNat 1000, .referenceConfig, by decide +kernel⟩
  spreadConvention := .halfSpreadPlusTouchSlippage
  spread := .missing ⟨.notObserved, ""⟩
  buySlippage := .missing ⟨.notObserved, ""⟩
  sellSlippage := .missing ⟨.notObserved, ""⟩
  entryFee := .given ⟨.ofNat 26, .uncalibratedAssumption, "config", by decide +kernel⟩
  exitFee := .given ⟨.ofNat 26, .uncalibratedAssumption, "config", by decide +kernel⟩
  fundingIntervals := 0
  funding := .absent
  reportCurrency := none
  fx := .absent
  checked := rfl

def tenBps : Supplied SpreadInput := .given ⟨.ofNat 10, "book", by decide +kernel⟩

/-- A slippage of 5 bps from the touch at 1000 EUR. -/
def fiveBps : Required SlippageInput :=
  .given ⟨.ofNat 5, .fromTouch, .ofNat 1000, .full, "book", by decide +kernel⟩

/-- The same round trip with its book. -/
def observedScenario : CostScenarioInput :=
  { spotScenario with spread := tenBps, buySlippage := fiveBps, sellSlippage := fiveBps }

theorem priced_of_complete {scenario : CostScenarioInput}
    (check : (priceRoundTrip scenario).toOption.map CostScenario.status = some .complete) :
    ∃ priced, priceRoundTrip scenario = .ok priced ∧ priced.status = .complete := by
  obtain ⟨priced, isPriced, complete⟩ := Option.map_eq_some_iff.mp check
  cases result : priceRoundTrip scenario with
  | error failure =>
      rw [result] at isPriced
      cases isPriced
  | ok other =>
      rw [result] at isPriced
      cases isPriced
      exact ⟨priced, rfl, complete⟩

theorem observedScenario_priced : ∃ priced, priceRoundTrip observedScenario = .ok priced ∧
    priced.status = .complete := priced_of_complete (by decide +kernel)

/-- Its lines and its cash agree. -/
theorem itemised_costs_and_cash_agree_spot : ∃ priced, priceRoundTrip observedScenario = .ok priced ∧
    ∃ total cashflow, priced.totalQuote = some total ∧ priced.cashflow = some cashflow ∧
      cashflow.net.amount.toRat = -total.amount.toRat := by
  obtain ⟨priced, isPriced, complete⟩ := observedScenario_priced
  obtain ⟨total, cashflow, isTotal, isCashflow, _, _, net, _⟩ :=
    itemised_costs_and_cash_agree observedScenario priced isPriced complete "EUR" rfl
  exact ⟨priced, isPriced, total, cashflow, isTotal, isCashflow, net⟩

end CryptoRadar.Costs
