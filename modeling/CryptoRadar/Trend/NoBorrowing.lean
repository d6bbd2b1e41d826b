import CryptoRadar.Lib.ExactNumber
import CryptoRadar.Trend.Simulation
import Mathlib.Algebra.BigOperators.Ring.List
import Mathlib.Algebra.Order.Field.Rat

/-!
# The backtest never borrows

In exact arithmetic, with tax off, over a panel of positive prices: after every simulated day the
cash and every held quantity are at least 0 (`never_borrows`), so the positions are never worth
more than the equity.

A sequence of trades changes the cash by what each of them is charged (`tradeAll_cash`) and each
quantity by its own trade (`tradeAll_held`). Sells are charged at most 0, down to a quantity that
is not negative; the buys together are charged the scaled need, which the cash covers
(`scaled_need_le`).
-/

set_option autoImplicit false

namespace CryptoRadar.Trend

open Checked ExactNumber

variable {K : Type} [Field K] [LinearOrder K]

/-! ## Prices -/

/-- Every bar of the panel has a positive open and a positive close. -/
def PositiveRows (rows : Dict String (List (Bar K))) : Prop :=
  ∀ item ∈ rows, ∀ bar ∈ item.2, 0 < bar.openPrice ∧ 0 < bar.close

theorem PositiveRows.of_get? {rows : Dict String (List (Bar K))} (positive : PositiveRows rows)
    {instrument : String} {bars : List (Bar K)} (found : rows.get? instrument = some bars) :
    ∀ bar ∈ bars, 0 < bar.openPrice ∧ 0 < bar.close :=
  positive _ (Dict.mem_of_get?_eq_some found)

/-- A price of the panel is the open or the close of one of its bars. -/
theorem Panel.price_pos {rows : Dict String (List (Bar K))} {tradeable : List String}
    {endTime : Option ℤ} {panel : Panel K} (built : Panel.build rows tradeable endTime = .ok panel)
    (positive : PositiveRows rows) {instrument : String} {index : ℕ} {price : K}
    (priced : panel.price instrument index = .ok price) : 0 < price := by
  obtain ⟨_, _, _, isRows, _, _, _, isOpen⟩ := Panel.build_eq_ok built
  unfold Panel.price at priced
  obtain ⟨opened, isOpened, rest⟩ := bind_eq_ok.mp priced
  cases opened with
  | some found =>
      cases rest
      unfold Panel.openOf at isOpened
      obtain ⟨opens, known, atIndex⟩ := bind_eq_ok.mp isOpened
      have member := Dict.mem_of_get?_eq_some (require_eq_ok.mp known)
      rw [isOpen] at member
      obtain ⟨tradeable, _, same⟩ := List.mem_map.mp member
      cases same
      have inOpens := List.mem_of_getElem? (require_eq_ok.mp atIndex)
      obtain ⟨bar, isBar, rfl⟩ := mem_opensAt inOpens
      unfold Panel.rowsOf at isBar
      cases has : rows.get? instrument with
      | none =>
          rw [has] at isBar
          cases isBar
      | some bars =>
          rw [has] at isBar
          exact (positive.of_get? has bar isBar).1
  | none =>
      unfold Panel.lastClose at rest
      obtain ⟨times, _, rest⟩ := bind_eq_ok.mp rest
      obtain ⟨now, _, rest⟩ := bind_eq_ok.mp rest
      dsimp only at rest
      split at rest
      · obtain ⟨day, _, rest⟩ := bind_eq_ok.mp rest
        cases rest
      · obtain ⟨bars, known, rest⟩ := bind_eq_ok.mp rest
        obtain ⟨bar, atIndex, rest⟩ := bind_eq_ok.mp rest
        cases rest
        rw [isRows] at known
        exact (positive.of_get? (require_eq_ok.mp known) bar
          (List.mem_of_getElem? (require_eq_ok.mp atIndex))).2

/-- The price of a day, 0 where there is none. -/
def priceOf (run : Backtest K) (index : ℕ) (instrument : String) : K :=
  match run.panel.price instrument index with
  | .ok price => price
  | .error _ => 0

omit [LinearOrder K] in
theorem priceOf_eq {run : Backtest K} {index : ℕ} {instrument : String} {price : K}
    (priced : run.panel.price instrument index = .ok price) :
    priceOf run index instrument = price := by
  rw [priceOf, priced]

/-! ## Trades -/

/-- What a trade takes out of the cash: its notional and the cost of it. -/
def charge (cost price quantity : K) : K := quantity * price + |quantity * price| * cost

/-- An account without tax after a trade. -/
theorem Account.trade_eq_ok {run : Backtest K} (untaxed : run.tax = false) {index : ℕ}
    {account : Account K} {instrument : String} {quantity : K} {done : Account K × K}
    (traded : account.trade run index instrument quantity = .ok done) :
    ∃ price, run.panel.price instrument index = .ok price ∧
      done = (⟨account.cash - charge run.cost price quantity,
        account.qty.assign instrument (account.held instrument + quantity), account.taxbook,
        account.trades + 1⟩, |quantity * price|) := by
  unfold Account.trade at traded
  obtain ⟨price, priced, rest⟩ := bind_eq_ok.mp traded
  obtain ⟨taxbook, isTaxed, same⟩ := bind_eq_ok.mp rest
  unfold taxTrade at isTaxed
  rw [untaxed] at isTaxed
  cases isTaxed
  cases same
  exact ⟨price, mapError_eq_ok.mp priced, rfl⟩

theorem Account.held_assign (account : Account K) (instrument other : String) (quantity : K) :
    (((account.qty.assign instrument quantity).get? other).getD 0.0 : K) =
      if instrument = other then quantity else account.held other := by
  rw [Dict.get?_assign]
  by_cases same : instrument = other
  · simp [same]
  · simp [same, Account.held]

/-- The trades of a list, taken apart at its head. -/
theorem tradeAll_cons {run : Backtest K} {index : ℕ} {start done : Account K × K}
    {order : String × K} {orders : List (String × K)}
    (traded : tradeAll run index start (order :: orders) = .ok done) :
    ∃ account notional, start.1.trade run index order.1 order.2 = .ok (account, notional) ∧
      tradeAll run index (account, start.2 + notional) orders = .ok done := by
  unfold tradeAll at traded
  rw [List.foldlM_cons] at traded
  obtain ⟨middle, first, rest⟩ := bind_eq_ok.mp traded
  obtain ⟨⟨account, notional⟩, isTrade, same⟩ := bind_eq_ok.mp first
  cases same
  exact ⟨account, notional, isTrade, rest⟩

/-- Trades change the cash by their charges. -/
theorem tradeAll_cash {run : Backtest K} (untaxed : run.tax = false) {index : ℕ} :
    ∀ {orders : List (String × K)} {start done : Account K × K},
      tradeAll run index start orders = .ok done →
      done.1.cash = start.1.cash -
        (orders.map fun order => charge run.cost (priceOf run index order.1) order.2).sum
  | [], start, done, traded => by
      cases traded
      simp
  | order :: orders, start, done, traded => by
      obtain ⟨account, notional, isTrade, rest⟩ := tradeAll_cons traded
      obtain ⟨price, priced, same⟩ := Account.trade_eq_ok untaxed isTrade
      cases same
      have later := tradeAll_cash untaxed rest
      rw [later, List.map_cons, List.sum_cons, priceOf_eq priced]
      ring

/-- Trades of different instruments leave the positions they had and one for each trade. -/
theorem mem_tradeAll {run : Backtest K} (untaxed : run.tax = false) {index : ℕ} :
    ∀ {orders : List (String × K)} {start done : Account K × K},
      (orders.map Prod.fst).Nodup → tradeAll run index start orders = .ok done →
      ∀ item ∈ done.1.qty, item ∈ start.1.qty ∨
        ∃ order ∈ orders, item.2 = start.1.held order.1 + order.2
  | [], start, done, _, traded, item, member => by
      cases traded
      exact .inl member
  | order :: orders, start, done, distinct, traded, item, member => by
      obtain ⟨account, notional, isTrade, rest⟩ := tradeAll_cons traded
      obtain ⟨price, priced, same⟩ := Account.trade_eq_ok untaxed isTrade
      cases same
      obtain ⟨fresh, laterDistinct⟩ := List.nodup_cons.mp distinct
      rcases mem_tradeAll untaxed laterDistinct rest item member with old | ⟨later, inRest, value⟩
      · rcases Dict.mem_assign old with before | rfl
        · exact .inl before
        · exact .inr ⟨order, List.mem_cons_self, rfl⟩
      · have differs : order.1 ≠ later.1 := fun same =>
          fresh (same ▸ List.mem_map_of_mem inRest)
        have unchanged := (start.1.held_assign order.1 later.1 (start.1.held order.1 + order.2)).trans
          (if_neg differs)
        exact .inr ⟨later, List.mem_cons_of_mem _ inRest, value.trans (congrArg (· + later.2) unchanged)⟩

/-! ## Orders -/

/-- The account owes nothing and holds no negative quantity. -/
structure Account.Solvent (account : Account K) : Prop where
  cash : 0 ≤ account.cash
  qty : ∀ item ∈ account.qty, 0 ≤ item.2

theorem Account.Solvent.held [IsStrictOrderedRing K] {account : Account K}
    (solvent : account.Solvent) (instrument : String) : 0 ≤ account.held instrument := by
  unfold Account.held
  cases found : account.qty.get? instrument with
  | none => simp
  | some quantity => exact solvent.qty _ (Dict.mem_of_get?_eq_some found)

/-- An order is at the price of the day, towards the weight of its target. -/
theorem orderFor_eq_some {run : Backtest K} {index : ℕ} {account : Account K} {equity : K}
    {target : Dict String K} {instrument : String} {order : Order K}
    (found : orderFor run index account equity target instrument = .ok (some order)) :
    order.instrument = instrument ∧ run.panel.price instrument index = .ok order.price ∧
      order.quantity = (target.get? instrument).getD 0.0 * equity / order.price -
        account.held instrument := by
  unfold orderFor at found
  obtain ⟨price, priced, rest⟩ := bind_eq_ok.mp found
  obtain ⟨current, _, rest⟩ := bind_eq_ok.mp rest
  split at rest
  · obtain ⟨opened, _, rest⟩ := bind_eq_ok.mp rest
    cases opened with
    | none => cases rest
    | some _ =>
        obtain ⟨wanted, divided, rest⟩ := bind_eq_ok.mp rest
        cases rest
        obtain ⟨_, rfl⟩ := divide_exact.mp (mapError_eq_ok.mp divided)
        exact ⟨rfl, mapError_eq_ok.mp priced, rfl⟩
  · cases rest

/-- The orders of the instruments involved are in their order, each instrument once at most. -/
theorem orders_sublist {run : Backtest K} {index : ℕ} {account : Account K} {equity : K}
    {target : Dict String K} {instruments : List String} {found : List (Option (Order K))}
    (asked : List.Forall₂ (fun instrument order =>
      orderFor run index account equity target instrument = .ok order) instruments found) :
    ((found.filterMap id).map Order.instrument).Sublist instruments := by
  induction asked with
  | nil => exact .slnil
  | @cons instrument order rest others first later hyp =>
      cases order with
      | none => exact hyp.cons _
      | some order =>
          have same := (orderFor_eq_some first).1
          change (order.instrument :: (others.filterMap id).map Order.instrument).Sublist _
          rw [same]
          exact hyp.cons_cons _

theorem involved_nodup (target qty : Dict String K) : (involved target qty).Nodup :=
  (List.perm_insertionSort _ _).nodup_iff.mpr (List.nodup_dedup _)

variable [IsStrictOrderedRing K]

/-- The scaled buys need no more than the cash. -/
theorem scaled_need_le {cost cash scale : K} {buys : List (Order K)} (covered : 0 ≤ cash)
    (scaled : buyScale cost cash buys = .ok scale) :
    (0 ≤ scale) ∧
      scale * (buys.map fun order => order.quantity * order.price * (1 + cost)).sum ≤ cash := by
  unfold buyScale at scaled
  simp only [sum_exact, mul_exact, add_exact, one_exact, larger_exact, zero_exact, lt_exact,
    max_eq_left covered] at scaled
  generalize (buys.map fun order => order.quantity * order.price * (1 + cost)).sum = need at scaled ⊢
  by_cases short : cash < need
  · rw [if_pos (by simpa using short)] at scaled
    obtain ⟨part, divided, rest⟩ := bind_eq_ok.mp scaled
    obtain ⟨nonzero, rfl⟩ := divide_exact.mp divided
    cases rest
    have positive : 0 < need := lt_of_le_of_lt covered short
    rw [smaller_exact]
    refine ⟨le_min zero_le_one (div_nonneg covered positive.le), ?_⟩
    calc min 1 (cash / need) * need ≤ cash / need * need :=
          mul_le_mul_of_nonneg_right (min_le_right _ _) positive.le
      _ = cash := div_mul_cancel₀ cash nonzero
  · rw [if_neg (by simpa using short)] at scaled
    cases scaled
    rw [one_mul]
    exact ⟨zero_le_one, not_lt.mp short⟩

/-- A sell is charged at most 0: its cost is a part of what it brings. -/
theorem charge_sell {cost price quantity : K} (within : cost ≤ 1) (sells : quantity ≤ 0)
    (positive : 0 < price) : charge cost price quantity ≤ 0 := by
  have notional : quantity * price ≤ 0 := mul_nonpos_of_nonpos_of_nonneg sells positive.le
  unfold charge
  rw [abs_of_nonpos notional]
  nlinarith

/-- A scaled buy is charged its part of the need. -/
theorem charge_buy {cost price quantity scale : K} (buys : 0 ≤ quantity) (part : 0 ≤ scale)
    (positive : 0 < price) :
    charge cost price (quantity * scale) = scale * (quantity * price * (1 + cost)) := by
  have notional : 0 ≤ quantity * scale * price := by positivity
  unfold charge
  rw [abs_of_nonneg notional]
  ring

/-! ## Days -/

section Days

variable {run : Backtest K} {index : ℕ}

/-- Trades of different instruments leave an account solvent that can pay their charges and holds what
they take out. -/
theorem Account.Solvent.trades (untaxed : run.tax = false) {account : Account K}
    (solvent : account.Solvent) {orders : List (String × K)} (distinct : (orders.map Prod.fst).Nodup)
    (charged : (orders.map fun order => charge run.cost (priceOf run index order.1) order.2).sum ≤
      account.cash)
    (covered : ∀ order ∈ orders, 0 ≤ account.held order.1 + order.2)
    {start : K} {done : Account K × K}
    (traded : tradeAll run index (account, start) orders = .ok done) : done.1.Solvent := by
  constructor
  · rw [tradeAll_cash untaxed traded]
    exact sub_nonneg.mpr charged
  · intro item member
    rcases mem_tradeAll untaxed distinct traded item member with old | ⟨order, isOrder, value⟩
    · exact solvent.qty item old
    · rw [value]
      exact covered order isOrder

/-- Sells leave the account solvent, and every position what it had and its own trade. -/
theorem Account.Solvent.sells (untaxed : run.tax = false) (within : run.cost ≤ 1)
    (positive : ∀ instrument price, run.panel.price instrument index = .ok price → 0 < price)
    {account : Account K} (solvent : account.Solvent) {orders : List (Order K)}
    (distinct : (orders.map Order.instrument).Nodup)
    (priced : ∀ order ∈ orders, run.panel.price order.instrument index = .ok order.price)
    (selling : ∀ order ∈ orders, order.quantity ≤ 0)
    (covered : ∀ order ∈ orders, 0 ≤ account.held order.instrument + order.quantity)
    {start : K} {sold : Account K × K}
    (traded : tradeAll run index (account, start)
      (orders.map fun order => (order.instrument, order.quantity)) = .ok sold) :
    sold.1.Solvent := by
  refine solvent.trades untaxed ?_ (le_trans ?_ solvent.cash) ?_ traded
  · rw [List.map_map]
    exact distinct
  · refine (List.sum_le_card_nsmul _ 0 fun amount member => ?_).trans_eq (nsmul_zero _)
    rw [List.map_map] at member
    obtain ⟨order, isOrder, rfl⟩ := List.mem_map.mp member
    have isPriced := priced order isOrder
    change charge run.cost (priceOf run index order.instrument) order.quantity ≤ 0
    rw [priceOf_eq isPriced]
    exact charge_sell within (selling order isOrder) (positive _ _ isPriced)
  · intro trade member
    obtain ⟨order, isOrder, rfl⟩ := List.mem_map.mp member
    exact covered order isOrder

/-- Scaled buys leave the account solvent. -/
theorem Account.Solvent.buys (untaxed : run.tax = false)
    (positive : ∀ instrument price, run.panel.price instrument index = .ok price → 0 < price)
    {account : Account K} (solvent : account.Solvent) {orders : List (Order K)}
    (distinct : (orders.map Order.instrument).Nodup)
    (priced : ∀ order ∈ orders, run.panel.price order.instrument index = .ok order.price)
    (buying : ∀ order ∈ orders, 0 ≤ order.quantity) {scale : K}
    (scaled : buyScale run.cost account.cash orders = .ok scale)
    {start : K} {bought : Account K × K}
    (traded : tradeAll run index (account, start)
      (orders.map fun order => (order.instrument, order.quantity * scale)) = .ok bought) :
    bought.1.Solvent := by
  obtain ⟨part, needed⟩ := scaled_need_le solvent.cash scaled
  refine solvent.trades untaxed ?_ ?_ ?_ traded
  · rw [List.map_map]
    exact distinct
  · have amounts : ((orders.map fun order => (order.instrument, order.quantity * scale)).map
        fun order => charge run.cost (priceOf run index order.1) order.2) =
        orders.map fun order => scale * (order.quantity * order.price * (1 + run.cost)) := by
      rw [List.map_map]
      refine List.map_congr_left fun order isOrder => ?_
      have isPriced := priced order isOrder
      change charge run.cost (priceOf run index order.instrument) (order.quantity * scale) = _
      rw [priceOf_eq isPriced]
      exact charge_buy (buying order isOrder) part (positive _ _ isPriced)
    rw [amounts, List.sum_map_mul_left]
    exact needed
  · intro trade member
    obtain ⟨order, isOrder, rfl⟩ := List.mem_map.mp member
    exact add_nonneg (solvent.held _) (mul_nonneg (buying order isOrder) part)

/-- The trades of a day leave the account solvent. -/
theorem Account.Solvent.rebalance (untaxed : run.tax = false) (within : run.cost ≤ 1)
    (positive : ∀ instrument price, run.panel.price instrument index = .ok price → 0 < price)
    {account : Account K} (solvent : account.Solvent) {equity : K} (worth : 0 < equity)
    {target : Dict String K} (weights : ∀ item ∈ target, 0 ≤ item.2) {done : Account K × K}
    (traded : rebalance run index account equity target = .ok done) : done.1.Solvent := by
  unfold Trend.rebalance at traded
  obtain ⟨found, asked, rest⟩ := bind_eq_ok.mp traded
  obtain ⟨sold, isSold, rest⟩ := bind_eq_ok.mp rest
  obtain ⟨scale, scaled, bought⟩ := bind_eq_ok.mp rest
  have distinct : ((found.filterMap id).map Order.instrument).Nodup :=
    (involved_nodup target account.qty).sublist (orders_sublist (mapM_eq_ok.mp asked))
  have isOrder : ∀ order ∈ found.filterMap id,
      run.panel.price order.instrument index = .ok order.price ∧
        0 ≤ account.held order.instrument + order.quantity := by
    intro order member
    have inFound : some order ∈ found := by simpa using member
    obtain ⟨instrument, _, isFound⟩ := mem_of_mapM_eq_ok asked _ inFound
    obtain ⟨same, priced, quantity⟩ := orderFor_eq_some isFound
    subst same
    refine ⟨priced, ?_⟩
    have weight : 0 ≤ (target.get? order.instrument).getD (0.0 : K) := by
      cases has : target.get? order.instrument with
      | none => simp
      | some value => exact weights _ (Dict.mem_of_get?_eq_some has)
    have wanted : 0 ≤ (target.get? order.instrument).getD (0.0 : K) * equity / order.price :=
      div_nonneg (mul_nonneg weight worth.le) (positive _ _ priced).le
    rw [quantity]
    linarith
  have part : ∀ (keep : Order K → Bool) order, order ∈ (found.filterMap id).filter keep →
      order ∈ found.filterMap id := fun keep order member => List.mem_of_mem_filter member
  have afterSells : sold.1.Solvent := by
    refine solvent.sells untaxed within positive (distinct.sublist (List.filter_sublist.map _))
      (fun order member => (isOrder order (part _ order member)).1) (fun order member => ?_)
      (fun order member => (isOrder order (part _ order member)).2) isSold
    have sells := (List.mem_filter.mp member).2
    exact le_of_lt (by simpa using sells)
  refine afterSells.buys untaxed positive (distinct.sublist (List.filter_sublist.map _))
    (fun order member => (isOrder order (part _ order member)).1) (fun order member => ?_)
    (mapError_eq_ok.mp scaled) bought
  have buys := (List.mem_filter.mp member).2
  exact le_of_lt (by simpa using buys)

/-- The weights of a validated target are not negative. -/
theorem validate_weights {target : Dict String K} {strategy : StrategyProtocol K} {panel : Panel K}
    {today : Date} {maxGross : K}
    (valid : validate target strategy panel index today maxGross = .ok ()) :
    ∀ item ∈ target, 0 ≤ item.2 := by
  unfold validate at valid
  obtain ⟨gross, checked, _⟩ := bind_eq_ok.mp valid
  refine foldlM_reaches (fun item _ => 0 ≤ item.2) target ?_ checked
  intro item _ before after turned
  refine ⟨?_, fun other kept => kept⟩
  unfold validateWeight at turned
  obtain ⟨_, _, rest⟩ := bind_eq_ok.mp turned
  obtain ⟨_, _, rest⟩ := bind_eq_ok.mp rest
  obtain ⟨_, _, rest⟩ := bind_eq_ok.mp rest
  obtain ⟨_, nonnegative, _⟩ := bind_eq_ok.mp rest
  have notLess : PyFloat.lt item.2 0.0 = false := ensure_eq_ok.mp nonnegative
  simpa using notLess

/-- A simulated day without tax, taken apart. -/
theorem simulateDay_eq_ok {run : Backtest K} (untaxed : run.tax = false) {state after : SimState K}
    (simulated : simulateDay run state index = .ok after) :
    ∃ equity target today, state.account.equity run.panel index = .ok equity ∧
      validate target run.strategy run.panel index today run.maxGross = .ok () ∧
      ((0 < equity ∧ ∃ traded,
          rebalance run index state.account equity target = .ok (after.account, traded)) ∨
        after.account = state.account) := by
  unfold simulateDay yearEnd at simulated
  rw [untaxed] at simulated
  obtain ⟨_, same, rest⟩ := bind_eq_ok.mp simulated
  cases same
  obtain ⟨equity, isEquity, rest⟩ := bind_eq_ok.mp rest
  obtain ⟨history, _, rest⟩ := bind_eq_ok.mp rest
  obtain ⟨target, _, rest⟩ := bind_eq_ok.mp rest
  obtain ⟨⟨⟩, valid, rest⟩ := bind_eq_ok.mp rest
  obtain ⟨⟨account, traded⟩, isTraded, rest⟩ := bind_eq_ok.mp rest
  obtain ⟨turned, _, rest⟩ := bind_eq_ok.mp rest
  obtain ⟨values, _, rest⟩ := bind_eq_ok.mp rest
  obtain ⟨exposed, _, rest⟩ := bind_eq_ok.mp rest
  cases rest
  refine ⟨equity, target, history.today, mapError_eq_ok.mp isEquity, valid, ?_⟩
  unfold tradeToday at isTraded
  split at isTraded
  next worth => exact .inl ⟨by simpa using worth, traded, isTraded⟩
  next =>
    cases isTraded
    exact .inr rfl

/-- The positions of a solvent account are worth no more than its equity. -/
theorem Account.Solvent.value_le {account : Account K} (solvent : account.Solvent) {panel : Panel K}
    {values : List K} (valued : positionValues panel account.qty index = .ok values) {equity : K}
    (isEquity : account.equity panel index = .ok equity) : values.sum ≤ equity := by
  unfold Account.equity at isEquity
  rw [valued] at isEquity
  cases isEquity
  exact le_add_of_nonneg_left solvent.cash

end Days

/-- After any simulated days of an untaxed run over a panel of positive prices the account is
solvent, and its positions are worth no more than its equity. -/
theorem never_borrows {rows : Dict String (List (Bar K))} {tradeable : List String}
    {endTime : Option ℤ} {panel : Panel K} (built : Panel.build rows tradeable endTime = .ok panel)
    (positive : PositiveRows rows) (strategy : StrategyProtocol K) (band maxGross : K) {cost : K}
    (within : cost < 1) (daysIdx : List ℕ) {state : SimState K}
    (simulated : daysIdx.foldlM (simulateDay ⟨strategy, panel, band, maxGross, cost, false⟩) .start =
      .ok state) :
    0 ≤ state.account.cash ∧ (∀ item ∈ state.account.qty, 0 ≤ item.2) ∧
      ∀ index values equity, positionValues panel state.account.qty index = .ok values →
        state.account.equity panel index = .ok equity → values.sum ≤ equity := by
  have solvent : state.account.Solvent := by
    refine foldlM_invariant (fun state => state.account.Solvent) ?_ daysIdx ?_ simulated
    · intro before index after held turned
      obtain ⟨equity, target, today, _, valid, ⟨worth, traded, isTraded⟩ | same⟩ :=
        simulateDay_eq_ok rfl turned
      · have kept : (after.account, traded).1.Solvent :=
          held.rebalance rfl within.le (fun instrument price => Panel.price_pos built positive) worth
            (validate_weights valid) isTraded
        exact kept
      · rw [same]
        exact held
    · exact ⟨by simp [SimState.start], by simp [SimState.start]⟩
  exact ⟨solvent.cash, solvent.qty, fun index values equity valued isEquity =>
    solvent.value_le valued isEquity⟩

/-! ## A run of two days -/

def twoRows : Dict String (List (Bar ℚ)) :=
  [("BTCUSDT", [⟨0, 100, 100, 100, 110⟩, ⟨86400000, 110, 110, 110, 120⟩]),
    ("ETHUSDT", [⟨0, 10, 10, 10, 11⟩, ⟨86400000, 12, 12, 12, 12⟩])]

/-- Half of each on the first day; then all of the one is sold and a quarter of the other kept. -/
def halvesThenQuarter : StrategyProtocol ℚ :=
  ⟨"halves", ["BTCUSDT", "ETHUSDT"], 0, 1 / 10, 1, fun history =>
    if history.now = 0 then .ok [("BTCUSDT", 1 / 2), ("ETHUSDT", 1 / 2)]
    else .ok [("ETHUSDT", 1 / 4)]⟩

def twoPanel : Panel ℚ where
  rows := twoRows
  tradeable := ["BTCUSDT", "ETHUSDT"]
  times := [0, 86400000]
  dates := [epoch, ⟨719164, dayAfterEpoch_first, dayAfterEpoch_last⟩]
  openTimes := [("BTCUSDT", [0, 86400000]), ("ETHUSDT", [0, 86400000])]
  openAt := [("BTCUSDT", [some 100, some 110]), ("ETHUSDT", [some 10, some 12])]

theorem twoPanel_built : Panel.build twoRows ["BTCUSDT", "ETHUSDT"] none = .ok twoPanel := by
  have times : Panel.timesOf twoRows ["BTCUSDT", "ETHUSDT"] none = [0, 86400000] := by
    have all : (["BTCUSDT", "ETHUSDT"].flatMap fun instrument =>
        (Panel.rowsOf twoRows instrument).map Bar.openTimeMs).dedup = [0, 86400000] := by
      decide +kernel
    unfold Panel.timesOf
    dsimp only
    rw [all]
    exact List.mergeSort_of_pairwise (by decide)
  unfold Panel.build
  rw [times]
  rfl

theorem never_borrows_two_days : ∃ state,
    [0, 1].foldlM (simulateDay ⟨halvesThenQuarter, twoPanel, 1 / 10, 1, 1 / 100, false⟩) .start =
      .ok state ∧ 0 ≤ state.account.cash ∧ (∀ item ∈ state.account.qty, 0 ≤ item.2) ∧
      ∀ index values equity, positionValues twoPanel state.account.qty index = .ok values →
        state.account.equity twoPanel index = .ok equity → values.sum ≤ equity := by
  have positive : PositiveRows twoRows := by
    unfold PositiveRows twoRows
    simp
  have runs : ([0, 1].foldlM (simulateDay ⟨halvesThenQuarter, twoPanel, 1 / 10, 1, 1 / 100, false⟩)
      .start).toBool = true := by
    decide +kernel
  cases simulated : [0, 1].foldlM
      (simulateDay ⟨halvesThenQuarter, twoPanel, 1 / 10, 1, 1 / 100, false⟩) .start with
  | error failure =>
      rw [simulated] at runs
      cases runs
  | ok state =>
      exact ⟨state, rfl, never_borrows twoPanel_built positive halvesThenQuarter (1 / 10) 1
        (by norm_num) [0, 1] simulated⟩

end CryptoRadar.Trend
