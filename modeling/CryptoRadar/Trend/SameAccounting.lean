import CryptoRadar.Trend.Books
import CryptoRadar.Trend.NoBorrowing

/-!
# The paper step is the engine's day

In exact arithmetic, `stepUnits` of the paper books and a day of `simulateUnits` on one spot
instrument are the same accounting: run over the same opens and targets from cash 1, they have the
same cash, units and equity before trading after every day (`paper_is_backtest`).

The engine keeps its one position in a dictionary; `Account.Matches` relates it to a sleeve. One day
keeps the relation (`matching_day`): both sides compare the target with the same weight, and both
trade the same quantity, the sell in one branch and the scaled buy in the other.
-/

set_option autoImplicit false

namespace CryptoRadar.Trend

open Checked ExactNumber

/-! ## The panel of one instrument -/

section OneInstrument

variable {F : Type} {instrument : String} {bars : List (Bar F)}

/-- Each bar gives the open of its own time. -/
theorem opensAt_own (ascending : Ascending bars) :
    Panel.opensAt bars (bars.map Bar.openTimeMs) = bars.map fun bar => some bar.openPrice := by
  unfold Panel.opensAt
  rw [List.map_map]
  refine List.map_congr_left fun bar member => ?_
  change (Dict.ofItems (bars.map fun bar => (bar.openTimeMs, bar.openPrice))).get? bar.openTimeMs = _
  refine Dict.get?_ofItems_of_mem ?_ (List.mem_map_of_mem member)
  unfold Dict.Distinct
  rw [List.map_map]
  exact ascending.times.imp fun less => less.ne

/-- The price of a day is the open of its bar. -/
theorem openOf_single {panel : Panel F} (ascending : Ascending bars)
    (built : Panel.build [(instrument, bars)] [instrument] none = .ok panel) {index : ℕ} {bar : Bar F}
    (isBar : bars[index]? = some bar) :
    panel.openOf instrument index = .ok (some bar.openPrice) := by
  obtain ⟨_, _, _, _, _, _, _, opens⟩ := Panel.build_eq_ok built
  have known : panel.openAt.get? instrument = some (bars.map fun bar => some bar.openPrice) := by
    have rows : Panel.rowsOf [(instrument, bars)] instrument = bars := by
      simp [Panel.rowsOf, Dict.get?]
    rw [opens, List.map_singleton, timesOf_single ascending, rows, opensAt_own ascending]
    simp [Dict.get?]
  unfold Panel.openOf
  rw [known]
  change require EngineFailure.index (bars.map fun bar => some bar.openPrice)[index]? = _
  rw [List.getElem?_map, isBar]
  rfl

theorem history_single {panel : Panel F} (ascending : Ascending bars)
    (built : Panel.build [(instrument, bars)] [instrument] none = .ok panel) {index : ℕ}
    (bound : index < bars.length) :
    ∃ day history, panel.dates[index]? = some day ∧ History.build panel index = .ok history := by
  obtain ⟨_, _, dated, _, _, times, _, _⟩ := Panel.build_eq_ok built
  rw [timesOf_single ascending] at dated times
  have dates : panel.dates.length = bars.length := by
    rw [← (mapM_eq_some.mp dated).length_eq, List.length_map]
  obtain ⟨day, isDay⟩ : ∃ day, panel.dates[index]? = some day :=
    ⟨_, List.getElem?_eq_getElem (dates ▸ bound)⟩
  have isTime : panel.times[index]? = some bars[index].openTimeMs := by
    rw [times, List.getElem?_map, List.getElem?_eq_getElem bound]
    rfl
  refine ⟨day, ⟨panel, day, bars[index].openTimeMs⟩, isDay, ?_⟩
  refine bind_eq_ok.mpr ⟨day, require_eq_ok.mpr isDay, ?_⟩
  exact bind_eq_ok.mpr ⟨_, require_eq_ok.mpr isTime, rfl⟩

theorem price_of_openOf {panel : Panel F} {index : ℕ} {price : F}
    (opened : panel.openOf instrument index = .ok (some price)) :
    panel.price instrument index = .ok price := by
  unfold Panel.price
  rw [opened]
  rfl

end OneInstrument

/-! ## One position -/

section OnePosition

variable {K : Type} [Field K] [LinearOrder K] {instrument : String}

/-- The account holds what the sleeve holds, and nothing else. -/
structure Account.Matches (instrument : String) (account : Account K) (sleeve : Sleeve K) : Prop where
  cash : account.cash = sleeve.cash
  qty : (account.qty = [] ∧ sleeve.units = 0) ∨ account.qty = [(instrument, sleeve.units)]

variable [IsStrictOrderedRing K] {account : Account K} {sleeve : Sleeve K}

theorem Account.Matches.held (alike : account.Matches instrument sleeve) :
    account.held instrument = sleeve.units := by
  unfold Account.held
  rcases alike.qty with ⟨empty, none⟩ | own
  · rw [empty, none]
    exact zero_exact
  · rw [own]
    simp [Dict.get?]

omit [LinearOrder K] [IsStrictOrderedRing K] in
theorem Account.Matches.assign (alike : account.Matches instrument sleeve) (quantity : K) :
    account.qty.assign instrument quantity = [(instrument, quantity)] := by
  rcases alike.qty with ⟨empty, _⟩ | own
  · rw [empty]
    rfl
  · rw [own]
    simp [Dict.assign, Dict.get?]

omit [IsStrictOrderedRing K] in
/-- The positions are worth the units of the sleeve. -/
theorem Account.Matches.values (alike : account.Matches instrument sleeve) {panel : Panel K}
    {index : ℕ} {price : K} (priced : panel.price instrument index = .ok price) :
    ∃ values, positionValues panel account.qty index = .ok values ∧
      values.sum = sleeve.units * price := by
  unfold positionValues
  rcases alike.qty with ⟨empty, none⟩ | own
  · rw [empty, none]
    exact ⟨[], rfl, by simp⟩
  · rw [own]
    refine ⟨[sleeve.units * price], ?_, by simp⟩
    rw [List.mapM_cons, priced]
    rfl

omit [IsStrictOrderedRing K] in
theorem Account.Matches.equity (alike : account.Matches instrument sleeve) {panel : Panel K}
    {index : ℕ} {price : K} (priced : panel.price instrument index = .ok price) :
    account.equity panel index = .ok (sleeve.cash + sleeve.units * price) := by
  obtain ⟨values, valued, total⟩ := alike.values priced
  unfold Account.equity
  rw [valued]
  change Except.ok (account.cash + values.sum) = _
  rw [alike.cash, total]

/-- The target of one instrument alone. -/
def onlyTarget (instrument : String) (target : K) : Dict String K :=
  if target = 0 then [] else [(instrument, target)]

omit [IsStrictOrderedRing K] in
theorem get?_onlyTarget (target : K) :
    ((onlyTarget instrument target).get? instrument).getD 0 = target := by
  unfold onlyTarget
  by_cases zero : target = 0
  · simp [zero, Dict.get?]
  · simp [zero, Dict.get?]

/-- The instrument is involved when there is a target or a position. -/
theorem involved_single (alike : account.Matches instrument sleeve) (target : K) :
    involved (onlyTarget instrument target) account.qty =
      if target = 0 ∧ sleeve.units = 0 then [] else [instrument] := by
  unfold involved onlyTarget
  rcases alike.qty with ⟨empty, none⟩ | own
  · by_cases zero : target = 0 <;> simp [empty, none, zero]
  · by_cases zero : target = 0 <;> by_cases none : sleeve.units = 0 <;> simp [own, zero, none]

/-- A sold or bought quantity as the paper step books it. -/
def Sleeve.traded (sleeve : Sleeve K) (cost price quantity : K) : Sleeve K :=
  ⟨sleeve.cash - (quantity * price + |quantity * price| * cost), sleeve.units + quantity, 0⟩

/-- One trade of the engine is one trade of the sleeve. -/
theorem Account.Matches.trade (alike : account.Matches instrument sleeve) {run : Backtest K}
    (untaxed : run.tax = false) {index : ℕ} {price : K}
    (priced : run.panel.price instrument index = .ok price) (quantity : K) :
    ∃ done, account.trade run index instrument quantity = .ok done ∧
      done.1.Matches instrument (sleeve.traded run.cost price quantity) := by
  have taxed : taxTrade run index account.taxbook instrument quantity price
      (|quantity * price| * run.cost) = .ok account.taxbook := by
    unfold taxTrade
    rw [untaxed]
    rfl
  refine ⟨(⟨account.cash - (quantity * price + |quantity * price| * run.cost),
    account.qty.assign instrument (account.held instrument + quantity), account.taxbook,
    account.trades + 1⟩, |quantity * price|), ?_, ?_, ?_⟩
  · unfold Account.trade
    rw [priced]
    exact bind_eq_ok.mpr ⟨price, rfl, bind_eq_ok.mpr ⟨account.taxbook, taxed, rfl⟩⟩
  · change account.cash - _ = sleeve.cash - _
    rw [alike.cash]
  · refine .inr ?_
    rw [alike.assign, alike.held]
    rfl

/-! ## One day -/

/-- The target is out of the band, or a position is to be closed. -/
def Outside (band target current : K) : Prop :=
  band ≤ |target - current| ∨ (target = 0 ∧ current ≠ 0)

instance (band target current : K) : Decidable (Outside band target current) :=
  inferInstanceAs (Decidable (_ ∨ _))

theorem orderFor_single (alike : account.Matches instrument sleeve) {run : Backtest K} {index : ℕ}
    {price : K} (opened : run.panel.openOf instrument index = .ok (some price)) (nonzero : price ≠ 0)
    {equity : K} (worth : 0 < equity) (target : K) :
    orderFor run index account equity (onlyTarget instrument target) instrument =
      .ok (if Outside run.band target (sleeve.units * price / equity) then
        some ⟨instrument, target * equity / price - sleeve.units, price⟩ else none) := by
  have weight : ((onlyTarget instrument target).get? instrument).getD (0.0 : K) = target := by
    rw [zero_exact]
    exact get?_onlyTarget target
  unfold orderFor
  rw [price_of_openOf opened, opened, alike.held, weight]
  refine bind_eq_ok.mpr ⟨price, rfl, bind_eq_ok.mpr ⟨sleeve.units * price / equity, ?_, ?_⟩⟩
  · exact mapError_eq_ok.mpr (divide_of_ne worth.ne')
  by_cases outside : Outside run.band target (sleeve.units * price / equity)
  · have divided : PyFloat.divide (target * equity) price = .ok (target * equity / price) :=
      divide_of_ne nonzero
    rw [if_pos (by simpa [Outside] using outside), if_pos outside]
    refine bind_eq_ok.mpr ⟨some price, rfl, ?_⟩
    exact bind_eq_ok.mpr ⟨_, mapError_eq_ok.mpr divided, rfl⟩
  · rw [if_neg (by simpa [Outside] using outside), if_neg outside]
    rfl

/-- Without buys the scale is 1. -/
theorem buyScale_nil (cost cash : K) : buyScale cost cash ([] : List (Order K)) = .ok 1 := by
  unfold buyScale
  simp
  rfl

theorem scaledBuy_of_not {cash price cost quantity : K} (notBuy : ¬ 0 < quantity) :
    scaledBuy cash price cost quantity = .ok quantity := by
  unfold scaledBuy
  rw [zero_exact, lt_exact, if_neg (by simpa using notBuy)]
  rfl

/-- The scale of the one buy is that of the paper step. -/
theorem scaledBuy_eq (instrument : String) (cash price cost : K) {quantity : K}
    (buys : 0 < quantity) :
    ∃ scale, buyScale cost cash [⟨instrument, quantity, price⟩] = .ok scale ∧
      scaledBuy cash price cost quantity = .ok (quantity * scale) := by
  unfold buyScale scaledBuy
  simp only [List.map_singleton, List.sum_singleton, sum_exact, mul_exact, add_exact, one_exact,
    larger_exact, zero_exact, lt_exact, smaller_exact, zero_add, decide_eq_true_eq]
  rw [if_pos buys]
  by_cases short : max cash 0 < quantity * price * (1 + cost)
  · have nonzero : quantity * price * (1 + cost) ≠ 0 :=
      (lt_of_le_of_lt (le_max_right cash 0) short).ne'
    rw [if_pos short, if_pos short, divide_of_ne nonzero]
    exact ⟨_, rfl, rfl⟩
  · rw [if_neg short, if_neg short]
    exact ⟨_, rfl, rfl⟩

/-- One trade in a list of its own. -/
theorem Account.Matches.tradeAll (alike : account.Matches instrument sleeve) {run : Backtest K}
    (untaxed : run.tax = false) {index : ℕ} {price : K}
    (priced : run.panel.price instrument index = .ok price) (start quantity : K) :
    ∃ done, tradeAll run index (account, start) [(instrument, quantity)] = .ok done ∧
      done.1.Matches instrument (sleeve.traded run.cost price quantity) := by
  obtain ⟨done, isTrade, after⟩ := alike.trade untaxed priced quantity
  refine ⟨(done.1, start + done.2), ?_, after⟩
  unfold Trend.tradeAll
  rw [List.foldlM_cons]
  exact bind_eq_ok.mpr ⟨(done.1, start + done.2), bind_eq_ok.mpr ⟨done, isTrade, rfl⟩, rfl⟩

omit [IsStrictOrderedRing K] in
/-- The trades of a day on given orders. -/
theorem rebalance_of {run : Backtest K} {index : ℕ} {equity : K} {target : Dict String K}
    {found : List (Option (Order K))} (sold : Account K × K) (scale : K) {done : Account K × K}
    (asked : (involved target account.qty).mapM (orderFor run index account equity target) =
      .ok found)
    (isSold : tradeAll run index (account, 0.0)
      (((found.filterMap id).filter fun order => PyFloat.lt order.quantity 0.0).map fun order =>
        (order.instrument, order.quantity)) = .ok sold)
    (scaled : buyScale run.cost sold.1.cash
      ((found.filterMap id).filter fun order => PyFloat.lt 0.0 order.quantity) = .ok scale)
    (bought : tradeAll run index sold
      (((found.filterMap id).filter fun order => PyFloat.lt 0.0 order.quantity).map fun order =>
        (order.instrument, order.quantity * scale)) = .ok done) :
    rebalance run index account equity target = .ok done :=
  bind_eq_ok.mpr ⟨found, asked, bind_eq_ok.mpr ⟨sold, isSold,
    bind_eq_ok.mpr ⟨scale, mapError_eq_ok.mpr scaled, bought⟩⟩⟩

/-- Without an order nothing trades. -/
theorem rebalance_idle {run : Backtest K} {index : ℕ} {equity : K} {target : Dict String K}
    {found : List (Option (Order K))}
    (asked : (involved target account.qty).mapM (orderFor run index account equity target) =
      .ok found)
    (idle : found.filterMap id = []) :
    rebalance run index account equity target = .ok (account, 0.0) := by
  refine rebalance_of (account, 0.0) 1 asked ?_ ?_ ?_
  · rw [idle]
    rfl
  · rw [idle]
    exact buyScale_nil _ _
  · rw [idle]
    rfl

/-- One order trades its scaled quantity; a buy of nothing changes nothing. -/
theorem Account.Matches.order (alike : account.Matches instrument sleeve) {run : Backtest K}
    (untaxed : run.tax = false) {index : ℕ} {price : K}
    (priced : run.panel.price instrument index = .ok price) {equity : K} {target : Dict String K}
    (wanted : K)
    (asked : (involved target account.qty).mapM (orderFor run index account equity target) =
      .ok [some ⟨instrument, wanted, price⟩]) :
    ∃ done quantity, rebalance run index account equity target = .ok done ∧
      scaledBuy sleeve.cash price run.cost wanted = .ok quantity ∧
      done.1.Matches instrument
        (if quantity = 0 then sleeve else sleeve.traded run.cost price quantity) := by
  rcases lt_trichotomy wanted 0 with sells | nothing | buys
  · obtain ⟨done, traded, after⟩ := alike.tradeAll untaxed priced 0.0 wanted
    refine ⟨done, wanted, rebalance_of done 1 asked ?_ ?_ ?_, scaledBuy_of_not sells.not_gt, ?_⟩
    · simpa [sells] using traded
    · simpa [sells.le] using buyScale_nil run.cost done.1.cash
    · simp [sells.le, Trend.tradeAll]
      rfl
    · rw [if_neg sells.ne]
      exact after
  · refine ⟨(account, 0.0), wanted, rebalance_of (account, 0.0) 1 asked ?_ ?_ ?_,
      scaledBuy_of_not nothing.not_gt, ?_⟩
    · simp [nothing, Trend.tradeAll]
      rfl
    · simpa [nothing] using buyScale_nil run.cost account.cash
    · simp [nothing, Trend.tradeAll]
      rfl
    · rw [if_pos nothing]
      exact alike
  · obtain ⟨scale, scaled, bought⟩ := scaledBuy_eq instrument sleeve.cash price run.cost buys
    obtain ⟨done, traded, after⟩ := alike.tradeAll untaxed priced 0.0 (wanted * scale)
    refine ⟨done, wanted * scale, rebalance_of (account, 0.0) scale asked ?_ ?_ ?_, bought, ?_⟩
    · simp [buys.le, Trend.tradeAll]
      rfl
    · simpa [buys, alike.cash] using scaled
    · simpa [buys] using traded
    · by_cases zero : wanted * scale = 0
      · rw [if_pos zero]
        rw [zero] at after
        refine ⟨by simpa [Sleeve.traded] using after.cash, ?_⟩
        simpa [Sleeve.traded] using after.qty
      · rw [if_neg zero]
        exact after

/-- Out of the band the paper step trades the scaled quantity. -/
theorem unitsTraded_outside {price target band cost equity current quantity : K}
    (worth : 0 < equity) (wants : ¬ (target = 0 ∧ sleeve.units = 0)) (nonzero : price ≠ 0)
    (outside : Outside band target current)
    (bought : scaledBuy sleeve.cash price cost (target * equity / price - sleeve.units) =
      .ok quantity) :
    unitsTraded sleeve price target band cost equity current =
      .ok (if quantity = 0 then none else some quantity) := by
  have holdsOrWants : (!PyFloat.eq sleeve.units 0.0 || !PyFloat.eq target 0.0) = true := by
    rcases not_and_or.mp wants with some | some <;> simp [some]
  have divided : PyFloat.divide (target * equity) price = .ok (target * equity / price) :=
    divide_of_ne nonzero
  unfold unitsTraded
  rw [holdsOrWants, if_pos (by simpa using worth), if_pos (by simpa [Outside] using outside)]
  refine bind_eq_ok.mpr ⟨_, divided, bind_eq_ok.mpr ⟨quantity, bought, ?_⟩⟩
  by_cases zero : quantity = 0 <;> simp [zero] <;> rfl

/-- Inside the band it trades nothing. -/
theorem unitsTraded_inside {price target band cost equity current : K}
    (inside : ¬ Outside band target current) :
    unitsTraded sleeve price target band cost equity current = .ok none := by
  unfold unitsTraded
  dsimp only
  split
  · rw [if_neg (by simpa [Outside] using inside)]
    rfl
  · rfl

/-- Both sides trade the same quantity, or neither trades. -/
theorem rebalance_single (alike : account.Matches instrument sleeve) {run : Backtest K}
    (untaxed : run.tax = false) {index : ℕ} {price : K}
    (opened : run.panel.openOf instrument index = .ok (some price)) (positive : 0 < price)
    {equity : K} (worth : 0 < equity) (target : K) :
    ∃ done result, rebalance run index account equity (onlyTarget instrument target) = .ok done ∧
      unitsTraded sleeve price target run.band run.cost equity (sleeve.units * price / equity) =
        .ok result ∧
      done.1.Matches instrument (result.elim sleeve (sleeve.traded run.cost price)) := by
  have isInvolved := involved_single alike target
  have isOrder := orderFor_single alike opened positive.ne' worth target
  by_cases idle : target = 0 ∧ sleeve.units = 0
  · -- neither a target nor a position: nothing is asked on either side
    have asked : (involved (onlyTarget instrument target) account.qty).mapM
        (orderFor run index account equity (onlyTarget instrument target)) = .ok [] := by
      rw [isInvolved, if_pos idle]
      rfl
    refine ⟨(account, 0.0), none, rebalance_idle asked rfl, ?_, alike⟩
    unfold unitsTraded
    simp [idle.1, idle.2]
    rfl
  rw [if_neg idle] at isInvolved
  by_cases outside : Outside run.band target (sleeve.units * price / equity)
  · have asked : (involved (onlyTarget instrument target) account.qty).mapM
        (orderFor run index account equity (onlyTarget instrument target)) =
        .ok [some ⟨instrument, target * equity / price - sleeve.units, price⟩] := by
      rw [isInvolved, List.mapM_cons, isOrder, if_pos outside]
      rfl
    obtain ⟨done, quantity, traded, bought, after⟩ :=
      alike.order untaxed (price_of_openOf opened) _ asked
    refine ⟨done, _, traded, unitsTraded_outside worth idle positive.ne' outside bought, ?_⟩
    by_cases zero : quantity = 0
    · rw [if_pos zero] at after ⊢
      exact after
    · rw [if_neg zero] at after ⊢
      exact after
  · have asked : (involved (onlyTarget instrument target) account.qty).mapM
        (orderFor run index account equity (onlyTarget instrument target)) = .ok [none] := by
      rw [isInvolved, List.mapM_cons, isOrder, if_neg outside]
      rfl
    exact ⟨(account, 0.0), none, rebalance_idle asked rfl, unitsTraded_inside outside, alike⟩

/-- Without equity the weight is 0, else the part of the equity; never a failure. -/
theorem weightOf_isOk (units price equity : K) : ∃ weight, weightOf units price equity = .ok weight ∧
    (0 < equity → weight = units * price / equity) := by
  unfold weightOf
  by_cases worth : 0 < equity
  · rw [if_pos (by simpa using worth)]
    exact ⟨_, divide_of_ne worth.ne', fun _ => rfl⟩
  · rw [if_neg (by simpa using worth)]
    exact ⟨_, rfl, fun positive => absurd positive worth⟩

/-- The paper step from the quantity it trades. -/
theorem stepUnits_of {price target band cost current : K} {result : Option K}
    (weighed : weightOf sleeve.units price (sleeve.cash + sleeve.units * price) = .ok current)
    (traded : unitsTraded sleeve price target band cost (sleeve.cash + sleeve.units * price) current =
      .ok result) :
    ∃ fill, stepUnits sleeve price target band cost = .ok fill ∧
      fill.equityBefore = sleeve.cash + sleeve.units * price ∧
      fill.sleeve.cash = (result.elim sleeve (sleeve.traded cost price)).cash ∧
      fill.sleeve.units = (result.elim sleeve (sleeve.traded cost price)).units := by
  cases result with
  | none =>
      obtain ⟨held, isHeld, _⟩ :=
        weightOf_isOk sleeve.units price (sleeve.cash + sleeve.units * price)
      refine ⟨⟨⟨sleeve.cash, sleeve.units, held⟩, target, current, false, 0.0, 0.0,
        sleeve.cash + sleeve.units * price, sleeve.cash + sleeve.units * price⟩, ?_, rfl, rfl, rfl⟩
      unfold stepUnits
      exact bind_eq_ok.mpr ⟨_, weighed,
        bind_eq_ok.mpr ⟨none, traded, bind_eq_ok.mpr ⟨held, isHeld, rfl⟩⟩⟩
  | some quantity =>
      let after := sleeve.traded cost price quantity
      obtain ⟨held, isHeld, _⟩ := weightOf_isOk after.units price (after.cash + after.units * price)
      refine ⟨⟨⟨after.cash, after.units, held⟩, target, current, true, |quantity * price|,
        |quantity * price| * cost, sleeve.cash + sleeve.units * price,
        after.cash + after.units * price⟩, ?_, rfl, rfl, rfl⟩
      unfold stepUnits
      exact bind_eq_ok.mpr ⟨_, weighed,
        bind_eq_ok.mpr ⟨some quantity, traded, bind_eq_ok.mpr ⟨held, isHeld, rfl⟩⟩⟩

/-- The strategy gives the instrument a weight within [0, 1], which the engine accepts. -/
structure Follows (run : Backtest K) (instrument : String) (index : ℕ) (target : K) : Prop where
  spot : isSpot instrument = true
  known : instrument ∈ run.strategy.universe_
  room : 1 ≤ run.maxGross
  nonneg : 0 ≤ target
  le_one : target ≤ 1
  weights : ∃ history, History.build run.panel index = .ok history ∧
    run.strategy.weights history = .ok [(instrument, target)]

theorem Follows.targets {run : Backtest K} {target : K} {history : History K}
    (weights : run.strategy.weights history = .ok [(instrument, target)]) :
    targetsOf run.strategy history = .ok (onlyTarget instrument target) := by
  unfold targetsOf
  rw [weights]
  change Except.ok (List.filter _ [(instrument, target)]) = _
  unfold onlyTarget
  by_cases zero : target = 0 <;> simp [zero]

theorem Follows.validate {run : Backtest K} {index : ℕ} {target price : K}
    (follows : Follows run instrument index target)
    (opened : run.panel.openOf instrument index = .ok (some price)) (today : Date) :
    validate (onlyTarget instrument target) run.strategy run.panel index today run.maxGross =
      .ok () := by
  have tolerance : (0 : K) ≤ grossTolerance := by
    change (0 : K) ≤ (OfScientific.ofScientific 1 true 9 : K)
    norm_num
  have room := follows.room
  have small := follows.le_one
  unfold Trend.validate onlyTarget
  by_cases zero : target = 0
  · rw [if_pos zero]
    refine bind_eq_ok.mpr ⟨0.0, rfl, ensure_of ?_⟩
    rw [lt_exact, zero_exact, add_exact]
    exact decide_eq_false (not_lt.mpr (by linarith))
  · rw [if_neg zero]
    have weighed : validateWeight run.strategy run.panel index today 0.0 (instrument, target) =
        .ok |target| := by
      unfold validateWeight
      refine bind_eq_ok.mpr ⟨(), ensure_of follows.known, ?_⟩
      refine bind_eq_ok.mpr ⟨(), ensure_of follows.spot, ?_⟩
      refine bind_eq_ok.mpr ⟨(), ensure_of rfl, ?_⟩
      refine bind_eq_ok.mpr ⟨(), ensure_of (by simpa using follows.nonneg), ?_⟩
      rw [if_neg (by simpa using zero), opened]
      refine bind_eq_ok.mpr ⟨some price, rfl, bind_eq_ok.mpr ⟨(), ensure_of rfl, ?_⟩⟩
      rw [zero_exact, abs_exact, add_exact, zero_add]
      rfl
    refine bind_eq_ok.mpr ⟨|target|, ?_, ensure_of ?_⟩
    · rw [List.foldlM_cons, weighed]
      rfl
    · rw [lt_exact, add_exact, abs_of_nonneg follows.nonneg]
      exact decide_eq_false (not_lt.mpr (by linarith))

/-- One day of the engine is one paper step. -/
theorem matching_day {run : Backtest K} (untaxed : run.tax = false) {state : SimState K}
    (alike : state.account.Matches instrument sleeve) {index : ℕ} {price target : K}
    (opened : run.panel.openOf instrument index = .ok (some price)) (positive : 0 < price)
    (follows : Follows run instrument index target) :
    ∃ after fill, simulateDay run state index = .ok after ∧
      stepUnits sleeve price target run.band run.cost = .ok fill ∧
      after.account.Matches instrument fill.sleeve ∧
      after.equityMarks = state.equityMarks ++ [fill.equityBefore] := by
  have priced := price_of_openOf opened
  have isEquity := alike.equity priced
  obtain ⟨history, built, weights⟩ := follows.weights
  obtain ⟨current, weighed, part⟩ :=
    weightOf_isOk sleeve.units price (sleeve.cash + sleeve.units * price)
  obtain ⟨done, result, traded, quantity, after⟩ : ∃ done result,
      tradeToday run index state.account (sleeve.cash + sleeve.units * price)
        (onlyTarget instrument target) = .ok done ∧
      unitsTraded sleeve price target run.band run.cost (sleeve.cash + sleeve.units * price) current =
        .ok result ∧
      done.1.Matches instrument (result.elim sleeve (sleeve.traded run.cost price)) := by
    unfold tradeToday
    by_cases worth : 0 < sleeve.cash + sleeve.units * price
    · rw [if_pos (by simpa using worth), part worth]
      exact rebalance_single alike untaxed opened positive worth target
    · rw [if_neg (by simpa using worth)]
      refine ⟨(state.account, 0.0), none, rfl, ?_, alike⟩
      unfold unitsTraded
      rw [zero_exact, lt_exact, decide_eq_false worth]
      rfl
  obtain ⟨fill, stepped, before, cash, units⟩ := stepUnits_of weighed quantity
  have shared : ∀ amount : K, ∃ result, share amount (sleeve.cash + sleeve.units * price) =
      .ok result := by
    intro amount
    unfold share
    by_cases worth : 0 < sleeve.cash + sleeve.units * price
    · rw [if_pos (by simpa using worth)]
      exact ⟨_, mapError_eq_ok.mpr (divide_of_ne worth.ne')⟩
    · rw [if_neg (by simpa using worth)]
      exact ⟨_, rfl⟩
  have alikeAfter : done.1.Matches instrument fill.sleeve :=
    ⟨after.cash.trans cash.symm, units ▸ after.qty⟩
  obtain ⟨turned, isTurned⟩ := shared done.2
  obtain ⟨values, valued, _⟩ := alikeAfter.values priced
  obtain ⟨exposed, isExposed⟩ := shared (PyFloat.sum (values.map PyFloat.abs))
  have yearly : yearEnd run state index = .ok state := by
    unfold yearEnd
    rw [untaxed]
    rfl
  refine ⟨{ state with
    account := done.1
    turnover := state.turnover + turned
    expo := state.expo + exposed
    equityMarks := state.equityMarks ++ [sleeve.cash + sleeve.units * price]
    targets := state.targets ++ [onlyTarget instrument target] }, fill, ?_, stepped, alikeAfter, ?_⟩
  · unfold simulateDay
    refine bind_eq_ok.mpr ⟨state, yearly, bind_eq_ok.mpr ⟨_, mapError_eq_ok.mpr isEquity, ?_⟩⟩
    refine bind_eq_ok.mpr ⟨history, mapError_eq_ok.mpr built, ?_⟩
    refine bind_eq_ok.mpr ⟨_, Follows.targets weights, ?_⟩
    refine bind_eq_ok.mpr ⟨(), follows.validate opened history.today, ?_⟩
    refine bind_eq_ok.mpr ⟨done, traded, bind_eq_ok.mpr ⟨turned, isTurned, ?_⟩⟩
    refine bind_eq_ok.mpr ⟨values, mapError_eq_ok.mpr valued, ?_⟩
    exact bind_eq_ok.mpr ⟨exposed, isExposed, rfl⟩
  · rw [before]

/-! ## Runs -/

/-- The paper step of a day at an open towards a target, with the fills so far. -/
def paperDay (band cost : K) (done : Sleeve K × List (Fill K)) (day : K × K) :
    Except NumberError (Sleeve K × List (Fill K)) := do
  let fill ← stepUnits done.1 day.1 day.2 band cost
  return (fill.sleeve, done.2 ++ [fill])

/-- The sleeve is solvent and not empty. -/
structure Sleeve.Worth (sleeve : Sleeve K) : Prop where
  cash : 0 ≤ sleeve.cash
  units : 0 ≤ sleeve.units
  filled : 0 < sleeve.cash + sleeve.units

theorem Sleeve.Worth.equity (worth : sleeve.Worth) {price : K} (positive : 0 < price) :
    0 < sleeve.cash + sleeve.units * price := by
  have value : 0 ≤ sleeve.units * price := mul_nonneg worth.units positive.le
  rcases worth.cash.lt_or_eq with cash | none
  · linarith
  · have units : 0 < sleeve.units := by
      have total := worth.filled
      rw [← none, zero_add] at total
      exact total
    have more := mul_pos units positive
    linarith [worth.cash]

/-- What the paper step trades is the scaled way to the wanted units, and not 0. -/
theorem unitsTraded_eq_some {price target band cost equity current quantity : K}
    (trades : unitsTraded sleeve price target band cost equity current = .ok (some quantity)) :
    ∃ wanted, wanted = target * equity / price ∧
      scaledBuy sleeve.cash price cost (wanted - sleeve.units) = .ok quantity ∧ quantity ≠ 0 := by
  unfold unitsTraded at trades
  dsimp only at trades
  split at trades
  next =>
    split at trades
    next =>
      obtain ⟨wanted, divided, rest⟩ := bind_eq_ok.mp trades
      obtain ⟨_, rfl⟩ := divide_exact.mp divided
      obtain ⟨bought, scaled, same⟩ := bind_eq_ok.mp rest
      by_cases zero : bought = 0
      · rw [if_pos (by simpa using zero)] at same
        cases same
      · rw [if_neg (by simpa using zero)] at same
        cases same
        exact ⟨_, rfl, scaled, zero⟩
    next => cases trades
  next => cases trades

/-- What the paper step trades leaves the sleeve solvent and not empty. -/
theorem Sleeve.Worth.traded (worth : sleeve.Worth) {price target band cost current quantity : K}
    (positive : 0 < price) (nonneg : 0 ≤ target) (within : cost < 1)
    (trades : unitsTraded sleeve price target band cost (sleeve.cash + sleeve.units * price)
      current = .ok (some quantity)) :
    (sleeve.traded cost price quantity).Worth := by
  have equity := worth.equity positive
  obtain ⟨wanted, rfl, scaled, traded⟩ := unitsTraded_eq_some trades
  have wantedNonneg : 0 ≤ target * (sleeve.cash + sleeve.units * price) / price :=
    div_nonneg (mul_nonneg nonneg equity.le) positive.le
  generalize target * (sleeve.cash + sleeve.units * price) / price = wanted at *
  by_cases buys : 0 < wanted - sleeve.units
  · obtain ⟨scale, isScale, isBought⟩ := scaledBuy_eq "" sleeve.cash price cost buys
    cases scaled.symm.trans isBought
    obtain ⟨part, covered⟩ := scaled_need_le worth.cash isScale
    rw [List.map_singleton, List.sum_singleton] at covered
    have more : 0 < (wanted - sleeve.units) * scale :=
      lt_of_le_of_ne (mul_nonneg buys.le part) (Ne.symm traded)
    have units := worth.units
    refine ⟨?_, ?_, ?_⟩
    · change 0 ≤ sleeve.cash - charge cost price ((wanted - sleeve.units) * scale)
      rw [charge_buy buys.le part positive]
      exact sub_nonneg.mpr covered
    · change 0 ≤ sleeve.units + (wanted - sleeve.units) * scale
      linarith
    · change 0 < sleeve.cash - charge cost price ((wanted - sleeve.units) * scale) +
        (sleeve.units + (wanted - sleeve.units) * scale)
      rw [charge_buy buys.le part positive]
      linarith
  · rw [scaledBuy_of_not buys] at scaled
    cases scaled
    have sells : wanted - sleeve.units < 0 := lt_of_le_of_ne (not_lt.mp buys) traded
    have notional : (wanted - sleeve.units) * price < 0 := mul_neg_of_neg_of_pos sells positive
    have brings : 0 < -charge cost price (wanted - sleeve.units) := by
      unfold charge
      rw [abs_of_neg notional]
      nlinarith
    have cash := worth.cash
    refine ⟨?_, ?_, ?_⟩
    · change 0 ≤ sleeve.cash - charge cost price (wanted - sleeve.units)
      linarith
    · change 0 ≤ sleeve.units + (wanted - sleeve.units)
      linarith
    · change 0 < sleeve.cash - charge cost price (wanted - sleeve.units) +
        (sleeve.units + (wanted - sleeve.units))
      linarith

/-- A paper step starts with something and ends with something. -/
theorem Sleeve.Worth.step (worth : sleeve.Worth) {price target band cost : K} (positive : 0 < price)
    (nonneg : 0 ≤ target) (within : cost < 1) {fill : Fill K}
    (stepped : stepUnits sleeve price target band cost = .ok fill) :
    fill.sleeve.Worth ∧ 0 < fill.equityBefore := by
  obtain ⟨current, weighed, rest⟩ := bind_eq_ok.mp stepped
  obtain ⟨result, traded, _⟩ := bind_eq_ok.mp rest
  obtain ⟨found, isFound, before, cash, units⟩ := stepUnits_of weighed traded
  cases stepped.symm.trans isFound
  refine ⟨?_, before ▸ worth.equity positive⟩
  have after : (result.elim sleeve (sleeve.traded cost price)).Worth := by
    cases result with
    | none => exact worth
    | some quantity => exact worth.traded positive nonneg within traded
  exact ⟨cash ▸ after.cash, units ▸ after.units, by rw [cash, units]; exact after.filled⟩

/-- After the same days the account is the sleeve, and the marks are the equities before trading. -/
structure Alike (instrument : String) (state : SimState K) (done : Sleeve K × List (Fill K)) :
    Prop where
  account : state.account.Matches instrument done.1
  marks : state.equityMarks = done.2.map Fill.equityBefore
  worth : done.1.Worth
  positive : ∀ mark ∈ state.equityMarks, 0 < mark

theorem alike_start : Alike instrument (.start : SimState K) (⟨1, 0, 0⟩, []) where
  account := ⟨one_exact, .inl ⟨rfl, rfl⟩⟩
  marks := rfl
  worth := ⟨zero_le_one, le_rfl, by simp⟩
  positive := fun mark member => absurd member List.not_mem_nil

/-- What a day is given: a positive open, and a strategy that follows the target. -/
structure GivenDay (run : Backtest K) (instrument : String) (price target : ℕ → K) (index : ℕ) :
    Prop where
  opened : run.panel.openOf instrument index = .ok (some (price index))
  positive : 0 < price index
  follows : Follows run instrument index (target index)

/-- One day keeps the engine and the paper step alike. -/
theorem alike_day {run : Backtest K} (untaxed : run.tax = false) (within : run.cost < 1)
    {price target : ℕ → K} {state : SimState K} {done : Sleeve K × List (Fill K)}
    (alike : Alike instrument state done) {index : ℕ}
    (given : GivenDay run instrument price target index) :
    ∃ after next, simulateDay run state index = .ok after ∧
      paperDay run.band run.cost done (price index, target index) = .ok next ∧
      Alike instrument after next := by
  obtain ⟨after, fill, simulated, stepped, account, marks⟩ :=
    matching_day untaxed alike.account given.opened given.positive given.follows
  obtain ⟨worth, positive⟩ := alike.worth.step given.positive given.follows.nonneg within stepped
  refine ⟨after, (fill.sleeve, done.2 ++ [fill]), simulated, ?_, account, ?_, worth, ?_⟩
  · unfold paperDay
    rw [stepped]
    rfl
  · rw [marks, alike.marks, List.map_append, List.map_singleton]
  · intro mark member
    rw [marks] at member
    rcases List.mem_append.mp member with earlier | last
    · exact alike.positive mark earlier
    · rw [List.mem_singleton.mp last]
      exact positive

/-- Any number of days keeps them alike. -/
theorem alike_run (run : Backtest K) (untaxed : run.tax = false) (within : run.cost < 1)
    {price target : ℕ → K} {daysIdx : List ℕ}
    (given : ∀ index ∈ daysIdx, GivenDay run instrument price target index) {state : SimState K}
    {done : Sleeve K × List (Fill K)} (alike : Alike instrument state done) :
    ∃ after next, daysIdx.foldlM (simulateDay run) state = .ok after ∧
      (daysIdx.map fun index => (price index, target index)).foldlM
        (paperDay run.band run.cost) done = .ok next ∧
      Alike instrument after next := by
  induction daysIdx generalizing state done with
  | nil => exact ⟨state, done, rfl, rfl, alike⟩
  | cons index later ih =>
      obtain ⟨middle, between, simulated, stepped, kept⟩ :=
        alike_day untaxed within alike (given index List.mem_cons_self)
      obtain ⟨after, next, rest, steps, ends⟩ :=
        ih (fun index member => given index (List.mem_cons_of_mem _ member)) kept
      refine ⟨after, next, ?_, ?_, ends⟩
      · rw [List.foldlM_cons]
        exact bind_eq_ok.mpr ⟨middle, simulated, rest⟩
      · rw [List.map_cons, List.foldlM_cons]
        exact bind_eq_ok.mpr ⟨between, stepped, steps⟩

omit [IsStrictOrderedRing K] in
theorem returnsOf_isOk {marks : List K} (last : K) (positive : ∀ mark ∈ marks, mark ≠ 0) :
    ∃ returns, returnsOf (marks ++ [last]) = .ok returns := by
  refine mapM_isOk fun pair member => ?_
  have earlier : pair.1 ∈ marks := by
    obtain ⟨place, bound, rfl⟩ := List.mem_iff_getElem.mp member
    have inside : place < marks.length := by
      simpa using bound
    rw [List.getElem_zip, List.getElem_append_left inside]
    exact List.getElem_mem inside
  refine ⟨pair.2 / pair.1 - 1.0, ?_⟩
  exact bind_eq_ok.mpr ⟨_, divide_of_ne (positive _ earlier), rfl⟩

/-- After the days both sides hold the same, and the marks are the equities before trading. -/
structure SameBooks (instrument : String) (state : SimState K) (done : Sleeve K × List (Fill K)) :
    Prop where
  cash : state.account.cash = done.1.cash
  units : state.account.held instrument = done.1.units
  marks : state.equityMarks = done.2.map Fill.equityBefore

theorem Alike.same {state : SimState K} {done : Sleeve K × List (Fill K)}
    (alike : Alike instrument state done) : SameBooks instrument state done :=
  ⟨alike.account.cash, alike.account.held, alike.marks⟩

omit [IsStrictOrderedRing K] in
/-- With alike states at the end of the days, the simulation returns their marks. -/
theorem simulateUnits_of_alike {run : Backtest K} (untaxed : run.tax = false) {daysIdx : List ℕ}
    {state : SimState K} (simulated : daysIdx.foldlM (simulateDay run) .start = .ok state)
    {done : Sleeve K × List (Fill K)} (alike : Alike instrument state done) {last : ℕ}
    (isLast : daysIdx.getLast? = some last) {next : K}
    (priced : run.panel.price instrument (last + 1) = .ok next)
    (dated : ∀ index ∈ daysIdx, ∃ day, run.panel.dates[index]? = some day) :
    ∃ simulation, simulateUnits run daysIdx = .ok simulation ∧
      simulation.equity =
        done.2.map Fill.equityBefore ++ [done.1.cash + done.1.units * next] := by
  obtain ⟨returns, isReturns⟩ := returnsOf_isOk (done.1.cash + done.1.units * next)
    fun mark member => (alike.positive mark member).ne'
  obtain ⟨days, isDays⟩ : ∃ days, daysIdx.mapM (fun index =>
      engine (require .index run.panel.dates[index]?)) = Except.ok days := by
    refine mapM_isOk fun index member => ?_
    obtain ⟨day, isDay⟩ := dated index member
    rw [isDay]
    exact ⟨day, rfl⟩
  have taxed : finalTaxes run state (last + 1) = .ok state := by
    unfold finalTaxes
    rw [untaxed]
    rfl
  unfold simulateUnits
  refine ⟨_, bind_eq_ok.mpr ⟨state, simulated, bind_eq_ok.mpr ⟨last, ?_, bind_eq_ok.mpr
    ⟨state, taxed, bind_eq_ok.mpr ⟨_, mapError_eq_ok.mpr (alike.account.equity priced),
    bind_eq_ok.mpr ⟨returns, mapError_eq_ok.mpr isReturns,
    bind_eq_ok.mpr ⟨days, isDays, rfl⟩⟩⟩⟩⟩⟩, ?_⟩
  · rw [isLast]
    rfl
  · change state.equityMarks ++ _ = _
    rw [alike.marks]

/-- In exact arithmetic the paper step is the engine's day: after every number of days both sides
succeed with the same cash, units and equities before trading, and the backtest returns these
equities and the one at the next open. -/
theorem paper_is_backtest {bars : List (Bar K)} (ascending : Ascending bars)
    (positive : ∀ bar ∈ bars, 0 < bar.openPrice) {panel : Panel K}
    (built : Panel.build [(instrument, bars)] [instrument] none = .ok panel)
    {price target : ℕ → K} (opens : ∀ index bar, bars[index]? = some bar →
      price index = bar.openPrice)
    {strategy : StrategyProtocol K} (known : instrument ∈ strategy.universe_) {daysIdx : List ℕ}
    (days : ∀ index ∈ daysIdx, index + 1 < bars.length)
    (targets : ∀ index ∈ daysIdx, 0 ≤ target index ∧ target index ≤ 1 ∧
      ∀ history, History.build panel index = .ok history →
        strategy.weights history = .ok [(instrument, target index)])
    (band : K) {maxGross cost : K} (room : 1 ≤ maxGross) (within : cost < 1) :
    let run : Backtest K := ⟨strategy, panel, band, maxGross, cost, false⟩
    let paper := fun count => ((daysIdx.take count).map fun index =>
      (price index, target index)).foldlM (paperDay band cost) (⟨1, 0, 0⟩, [])
    (∀ count, ∃ state done, (daysIdx.take count).foldlM (simulateDay run) .start = .ok state ∧
      paper count = .ok done ∧ SameBooks instrument state done) ∧
    ∀ last, daysIdx.getLast? = some last → ∃ simulation done,
      simulateUnits run daysIdx = .ok simulation ∧ paper daysIdx.length = .ok done ∧
      simulation.equity =
        done.2.map Fill.equityBefore ++ [done.1.cash + done.1.units * price (last + 1)] := by
  intro run paper
  have spot : isSpot instrument = true :=
    (Panel.build_eq_ok built).1 (instrument, bars) List.mem_cons_self
  have opened : ∀ {index : ℕ}, index < bars.length →
      panel.openOf instrument index = .ok (some (price index)) := by
    intro index bound
    have isBar : bars[index]? = some bars[index] := List.getElem?_eq_getElem bound
    rw [opens index _ isBar]
    exact openOf_single ascending built isBar
  have given : ∀ index ∈ daysIdx, GivenDay run instrument price target index := by
    intro index member
    have bound : index < bars.length := Nat.lt_of_succ_lt (days index member)
    obtain ⟨nonneg, small, weights⟩ := targets index member
    obtain ⟨_, history, _, isHistory⟩ := history_single ascending built bound
    refine ⟨opened bound, ?_, spot, known, room, nonneg, small, history, isHistory,
      weights _ isHistory⟩
    rw [opens index _ (List.getElem?_eq_getElem bound)]
    exact positive _ (List.getElem_mem bound)
  have runs : ∀ count, ∃ state done,
      (daysIdx.take count).foldlM (simulateDay run) .start = .ok state ∧
      paper count = .ok done ∧ Alike instrument state done := fun count =>
    alike_run run rfl within
      (fun index member => given index (List.mem_of_mem_take member)) alike_start
  constructor
  · intro count
    obtain ⟨state, done, simulated, steps, alike⟩ := runs count
    exact ⟨state, done, simulated, steps, alike.same⟩
  · intro last isLast
    obtain ⟨state, done, simulated, steps, alike⟩ := runs daysIdx.length
    rw [List.take_length] at simulated
    have next : run.panel.price instrument (last + 1) = .ok (price (last + 1)) :=
      price_of_openOf (opened (days last (List.mem_of_getLast? isLast)))
    obtain ⟨simulation, returned, marks⟩ := simulateUnits_of_alike rfl simulated alike isLast next
      fun index member => by
        obtain ⟨day, _, isDay, _⟩ := history_single ascending built
          (Nat.lt_of_succ_lt (days index member))
        exact ⟨day, isDay⟩
    exact ⟨simulation, done, returned, steps, marks⟩

end OnePosition

/-! ## A run of two days -/

def threeBars : List (Bar ℚ) :=
  [⟨0, 100, 100, 100, 110⟩, ⟨86400000, 110, 110, 110, 120⟩, ⟨172800000, 90, 90, 90, 90⟩]

def allThenQuarter : StrategyProtocol ℚ :=
  ⟨"quarter", ["BTCUSDT"], 0, 1 / 10, 1, fun history =>
    .ok [("BTCUSDT", if history.now = 0 then 1 else 1 / 4)]⟩

def threePanel : Panel ℚ where
  rows := [("BTCUSDT", threeBars)]
  tradeable := ["BTCUSDT"]
  times := [0, 86400000, 172800000]
  dates := [epoch, ⟨719164, dayAfterEpoch_first, dayAfterEpoch_last⟩, ⟨719165, thirdDay_first, thirdDay_last⟩]
  openTimes := [("BTCUSDT", [0, 86400000, 172800000])]
  openAt := [("BTCUSDT", [some 100, some 110, some 90])]

theorem threeBars_ascending : Ascending threeBars := by
  unfold Ascending threeBars
  decide

theorem threePanel_built : Panel.build [("BTCUSDT", threeBars)] ["BTCUSDT"] none = .ok threePanel := by
  unfold Panel.build
  rw [timesOf_single threeBars_ascending]
  rfl

theorem paper_is_backtest_two_days :
    let run : Backtest ℚ := ⟨allThenQuarter, threePanel, 1 / 10, 1, 1 / 100, false⟩
    let price := fun index : ℕ => ((threeBars[index]?).map Bar.openPrice).getD 0
    let target := fun index : ℕ => if index = 0 then (1 : ℚ) else 1 / 4
    let paper := fun count => (([0, 1].take count).map fun index =>
      (price index, target index)).foldlM (paperDay (1 / 10) (1 / 100)) (⟨1, 0, 0⟩, [])
    (∀ count, ∃ state done, ([0, 1].take count).foldlM (simulateDay run) .start = .ok state ∧
      paper count = .ok done ∧ SameBooks "BTCUSDT" state done) ∧
    ∀ last, [0, 1].getLast? = some last → ∃ simulation done,
      simulateUnits run [0, 1] = .ok simulation ∧ paper [0, 1].length = .ok done ∧
      simulation.equity =
        done.2.map Fill.equityBefore ++ [done.1.cash + done.1.units * price (last + 1)] := by
  intro run price target paper
  refine paper_is_backtest threeBars_ascending ?_ threePanel_built ?_ ?_ ?_ ?_ (1 / 10) le_rfl
    (by norm_num)
  · unfold threeBars
    simp
  · intro index bar isBar
    simp only [price, isBar, Option.map_some, Option.getD_some]
  · exact List.mem_cons_self
  · decide
  · intro index member
    rcases List.mem_cons.mp member with rfl | later
    · exact ⟨by norm_num [target], by norm_num [target], fun history built => by cases built; rfl⟩
    · rw [List.mem_singleton.mp later]
      exact ⟨by norm_num [target], by norm_num [target], fun history built => by cases built; rfl⟩

end CryptoRadar.Trend
