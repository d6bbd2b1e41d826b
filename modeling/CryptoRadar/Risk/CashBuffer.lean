import CryptoRadar.Lib.DecimalHeld
import CryptoRadar.Risk.Account
import CryptoRadar.Risk.Maximal

/-!
# Opening keeps the cash buffer

An opened plan has costs within the room of its budget (`opening_of_opened`). The plan rounds the entry
fee up to the cent and the cost basis rounds it half to even, so the basis is not above what the plan
needed, and the cash left is at least the buffer (`opening_keeps_the_buffer`). The mark of a position
rounds the exit fee up where its settlement rounds half to even, so the mark is above the settled net by
half a cent at most (`mark_le_net`). Between the roundings to cents no operation rounds: every value is
held by the context of the risk engine (`Held`).
-/

set_option autoImplicit false

namespace CryptoRadar.Risk

open Checked Decimal
open Paper (ExitLevels Quote bps cents)

/-! ## Opened plans -/

structure Opening (envelope : Envelope) (account : SizingAccount) (feeBps : Decimal) (plan : EntryPlan)
    (equity cash : Decimal) (quote : Quote) (costs : FinalCosts) where
  stressed : Decimal
  room : Budget
  isEquity : account.equity = some equity
  isCash : account.cash = some cash
  isQuote : plan.quote = some quote
  isFee : plan.feeBps = feeBps
  isRoom : budget envelope equity cash account.openPlannedLoss account.openNotional = .ok room
  isCosts : plan.costs = some costs
  computes : finalCosts costs.quantity quote.ask stressed feeBps = .ok costs
  within : Within room costs

theorem finalCosts_quantity {quantity ask stressed feeBps : Decimal} {costs : FinalCosts}
    (isCosts : finalCosts quantity ask stressed feeBps = .ok costs) : costs.quantity = quantity := by
  unfold finalCosts at isCosts
  simp only [bind_eq_ok] at isCosts
  obtain ⟨_, _, _, _, _, _, _, _, _, _, _, _, _, _, _, _, _, _, _, _, _, _, made⟩ := isCosts
  cases made
  rfl

/-- A loop that ends without a refusal opens at a quantity, and keeps the quote and the fee. -/
theorem sizingLoop_opened {terms : SizingTerms} {result : EntryPlan} (open_ : result.noTrade = none)
    (remaining : ℕ) : ∀ {plan : EntryPlan} {quantity : Decimal} {passes : ℕ},
      sizingLoop terms plan quantity passes remaining = .ok result →
      result.quote = plan.quote ∧ result.feeBps = plan.feeBps ∧
        ∃ costs, result.costs = some costs ∧
          finalCosts costs.quantity terms.ask terms.stressed terms.feeBps = .ok costs ∧
          Within terms.room costs := by
  induction remaining using Nat.strong_induction_on with
  | _ remaining ih =>
      intro plan quantity passes run
      cases sizingLoop_turn run with
      | below | spent => cases open_
      | fitting _ isCosts isFitting =>
          exact ⟨rfl, rfl, _, rfl, by rwa [finalCosts_quantity isCosts], fits_eq_true.mp isFitting⟩
      | pass _ run =>
          have kept := ih _ (Nat.lt_succ_self _) run
          exact kept

section Opened

variable {runtime : Runtime} {envelope : Envelope} {offer : EntryOffer} {account : SizingAccount}
  {feeBps : Decimal} {plan result : EntryPlan}

theorem sizeWithin_opened {terms : SizingTerms} {perUnit : Decimal} (open_ : result.noTrade = none)
    (sized : sizeWithin terms plan perUnit = .ok result) :
    result.quote = plan.quote ∧ result.feeBps = plan.feeBps ∧
      ∃ costs, result.costs = some costs ∧
        finalCosts costs.quantity terms.ask terms.stressed terms.feeBps = .ok costs ∧
        Within terms.room costs := by
  unfold sizeWithin at sized
  simp only at sized
  split at sized
  next =>
    obtain ⟨_, _, made⟩ := bind_eq_ok.mp sized
    cases made
    cases open_
  next =>
    split at sized
    next =>
      obtain ⟨_, _, made⟩ := bind_eq_ok.mp sized
      cases made
      cases open_
    next =>
      split at sized
      next =>
        obtain ⟨_, _, made⟩ := bind_eq_ok.mp sized
        cases made
        cases open_
      next =>
        obtain ⟨candidates, _, sized⟩ := bind_eq_ok.mp sized
        obtain ⟨quantity, _, run⟩ := bind_eq_ok.mp sized
        have kept := sizingLoop_opened open_ _ run
        exact kept

theorem sizeAtLevels_opened {equity cash : Decimal} {quote : Quote} {rules : PairRules} {levels : ExitLevels}
    (open_ : result.noTrade = none) (isEquity : account.equity = some equity) (isCash : account.cash = some cash)
    (isQuote : plan.quote = some quote) (isFee : plan.feeBps = feeBps)
    (sized : sizeAtLevels envelope account equity cash feeBps plan quote rules levels = .ok result) :
    ∃ costs, Nonempty (Opening envelope account feeBps result equity cash quote costs) := by
  unfold sizeAtLevels at sized
  obtain ⟨stop, _, sized⟩ := bind_eq_ok.mp sized
  obtain ⟨target, _, sized⟩ := bind_eq_ok.mp sized
  simp only at sized
  split at sized
  next =>
    obtain ⟨_, _, made⟩ := bind_eq_ok.mp sized
    cases made
    cases open_
  next =>
    split at sized
    next =>
      obtain ⟨_, _, made⟩ := bind_eq_ok.mp sized
      cases made
      cases open_
    next =>
      obtain ⟨stressed, _, sized⟩ := bind_eq_ok.mp sized
      obtain ⟨perUnit, _, sized⟩ := bind_eq_ok.mp sized
      split at sized
      next =>
        cases sized
        cases open_
      next =>
        obtain ⟨room, isRoom, sized⟩ := bind_eq_ok.mp sized
        obtain ⟨sameQuote, sameFee, costs, isCosts, computes, within⟩ := sizeWithin_opened open_ sized
        exact ⟨costs, ⟨stressed, room, isEquity, isCash, sameQuote.trans isQuote, sameFee.trans isFee, isRoom,
          isCosts, computes, within⟩⟩

theorem sizeQuoted_opened {quote : Quote} (open_ : result.noTrade = none) (isQuote : plan.quote = some quote)
    (isFee : plan.feeBps = feeBps)
    (sized : sizeQuoted runtime envelope offer account feeBps plan quote = .ok result) :
    ∃ equity cash costs, Nonempty (Opening envelope account feeBps result equity cash quote costs) := by
  unfold sizeQuoted at sized
  split at sized
  next =>
    cases sized
    cases open_
  next =>
    simp only at sized
    split at sized
    next =>
      cases sized
      cases open_
    next =>
      split at sized
      next =>
        cases sized
        cases open_
      next equity isEquity =>
        split at sized
        next =>
          cases sized
          cases open_
        next =>
          split at sized
          next =>
            cases sized
            cases open_
          next cash isCash =>
            obtain ⟨levels, _, sized⟩ := bind_eq_ok.mp sized
            cases levels with
            | none =>
                cases sized
                cases open_
            | some levels =>
                obtain ⟨costs, opening⟩ := sizeAtLevels_opened open_ isEquity isCash (by exact isQuote) (by exact isFee) sized
                exact ⟨equity, cash, costs, opening⟩

/-- A plan that opened was sized on an equity and a cash amount, and its costs are within the room of the
budget there. -/
theorem opening_of_opened (planned : planLongEntry runtime envelope offer account feeBps = .ok result)
    (opened : result.opened = true) :
    ∃ equity cash quote costs, Nonempty (Opening envelope account feeBps result equity cash quote costs) := by
  have open_ : result.noTrade = none := by simpa [EntryPlan.opened] using opened
  obtain ⟨_, _, planned⟩ := bind_eq_ok.mp planned
  obtain ⟨_, _, planned⟩ := bind_eq_ok.mp planned
  obtain ⟨_, _, planned⟩ := bind_eq_ok.mp planned
  simp only at planned
  split at planned
  next =>
    cases planned
    cases open_
  next =>
    split at planned
    next =>
      cases planned
      cases open_
    next quote _ =>
      obtain ⟨equity, cash, costs, opening⟩ := sizeQuoted_opened open_ (by rfl) (by rfl) planned
      exact ⟨equity, cash, quote, costs, opening⟩

end Opened

/-! ## Amounts that are held -/

/-- An amount that the context of the risk engine does not round. -/
abbrev Held (amount : ℚ) : Prop := Holds riskContext amount

/-- The buffer of an equity and the room that it leaves of the cash. -/
structure HeldRoom (equity pct cash : ℚ) : Prop where
  product : Held (equity * pct)
  buffer : Held (equity * pct / 100)
  room : Held (cash - equity * pct / 100)

structure HeldFee (notional feeBps : ℚ) : Prop where
  rate : Held (feeBps / 10000)
  product : Held (notional * feeBps)
  fee : Held (notional * feeBps / 10000)

/-- The cost of a quantity, with the entry fee rounded up and with the fee rounded half to even. -/
structure HeldCost (quantity ask feeBps : ℚ) : Prop where
  notional : Held (quantity * ask)
  entryFee : HeldFee (quantity * ask) feeBps
  needed : ∀ fee up : Decimal, fee.toRat = quantity * ask * feeBps / 10000 → centsUp fee = .ok up →
    Held (quantity * ask + up.toRat)
  basis : ∀ fee near : Decimal, fee.toRat = quantity * ask * feeBps / 10000 → cents fee = .ok near →
    Held (quantity * ask + near.toRat)

theorem bps_eq : bps = ofNat (10 ^ 4) := rfl

theorem hundred_eq : hundred = ofNat (10 ^ 2) := rfl

section Amounts

variable {notional feeBps rate product fee : Decimal}

/-- The fee by its rate. -/
theorem fee_by_rate (held : HeldFee notional.toRat feeBps.toRat) (isRate : div riskContext feeBps bps = .ok rate)
    (isFee : mul riskContext notional rate = .ok fee) :
    fee.toRat = notional.toRat * feeBps.toRat / 10000 := by
  have ten : (10 : ℚ) ^ 4 = 10000 := by norm_num
  have rateValue : rate.toRat = feeBps.toRat / 10000 := by
    rw [bps_eq] at isRate
    rw [← ten]
    exact div_power_toRat 4 (by rw [ten]; exact held.rate) isRate
  have value : notional.toRat * rate.toRat = notional.toRat * feeBps.toRat / 10000 := by
    rw [rateValue]
    ring
  rw [← value]
  exact mul_toRat (by rw [value]; exact held.fee) isFee

theorem fee_by_product (held : HeldFee notional.toRat feeBps.toRat)
    (isProduct : mul riskContext notional feeBps = .ok product) (isFee : div riskContext product bps = .ok fee) :
    fee.toRat = notional.toRat * feeBps.toRat / 10000 := by
  have ten : (10 : ℚ) ^ 4 = 10000 := by norm_num
  have productValue := mul_toRat held.product isProduct
  rw [bps_eq] at isFee
  rw [← productValue, ← ten]
  exact div_power_toRat 4 (by rw [productValue, ten]; exact held.fee) isFee

/-- What is left of the cash above the buffer. -/
theorem budget_cashRoom {envelope : Envelope} {equity cash openPlannedLoss openNotional : Decimal}
    {room : Budget} (held : HeldRoom equity.toRat envelope.cashBufferPct.toRat cash.toRat)
    (isRoom : budget envelope equity cash openPlannedLoss openNotional = .ok room) :
    room.cashRoom.toRat = cash.toRat - equity.toRat * envelope.cashBufferPct.toRat / 100 := by
  unfold budget at isRoom
  simp only [bind_eq_ok, Risk.computed_eq_ok] at isRoom
  obtain ⟨_, _, _, _, _, _, _, _, _, _, _, _, buffer, isBuffer, _, _, _, _, cashRoom, isCashRoom, made⟩ := isRoom
  cases made
  obtain ⟨product, isProduct, isBuffer⟩ := bind_eq_ok.mp isBuffer
  have ten : (10 : ℚ) ^ 2 = 100 := by norm_num
  have productValue := mul_toRat held.product isProduct
  have bufferValue : buffer.toRat = equity.toRat * envelope.cashBufferPct.toRat / 100 := by
    rw [hundred_eq] at isBuffer
    rw [← productValue, ← ten]
    exact div_power_toRat 2 (by rw [productValue, ten]; exact held.buffer) isBuffer
  rw [← bufferValue]
  exact sub_toRat (by rw [bufferValue]; exact held.room) isCashRoom

theorem finalCosts_entry {quantity ask stressed feeBps : Decimal} {costs : FinalCosts}
    (held : HeldCost quantity.toRat ask.toRat feeBps.toRat)
    (isCosts : finalCosts quantity ask stressed feeBps = .ok costs) :
    costs.notional.toRat = quantity.toRat * ask.toRat ∧
      ∃ fee, fee.toRat = quantity.toRat * ask.toRat * feeBps.toRat / 10000 ∧ centsUp fee = .ok costs.entryFee := by
  unfold finalCosts at isCosts
  obtain ⟨rate, isRate, isCosts⟩ := bind_eq_ok.mp isCosts
  obtain ⟨notional, isNotional, isCosts⟩ := bind_eq_ok.mp isCosts
  obtain ⟨fee, isFee, isCosts⟩ := bind_eq_ok.mp isCosts
  obtain ⟨entryFee, isEntryFee, isCosts⟩ := bind_eq_ok.mp isCosts
  simp only [bind_eq_ok] at isCosts
  obtain ⟨_, _, _, _, _, _, _, _, _, _, _, _, _, _, made⟩ := isCosts
  cases made
  have notionalValue := mul_toRat held.notional isNotional
  refine ⟨notionalValue, fee, ?_, isEntryFee⟩
  rw [← notionalValue]
  exact fee_by_rate (by rw [notionalValue]; exact held.entryFee) isRate isFee

/-- The cost basis is the notional with the fee rounded half to even. -/
theorem entryCostBasis_entry {quantity ask feeBps basis : Decimal}
    (held : HeldCost quantity.toRat ask.toRat feeBps.toRat)
    (isBasis : entryCostBasis quantity ask feeBps = .ok basis) :
    ∃ fee near, fee.toRat = quantity.toRat * ask.toRat * feeBps.toRat / 10000 ∧ cents fee = .ok near ∧
      basis.toRat = quantity.toRat * ask.toRat + near.toRat := by
  unfold entryCostBasis at isBasis
  simp only [bind_eq_ok, Risk.computed_eq_ok] at isBasis
  obtain ⟨_, _, _, _, _, _, notional, isNotional, product, isProduct, fee, isFee, near, isNear, isBasis⟩ :=
    isBasis
  have notionalValue := mul_toRat held.notional isNotional
  have feeValue : fee.toRat = quantity.toRat * ask.toRat * feeBps.toRat / 10000 := by
    rw [← notionalValue]
    exact fee_by_product (by rw [notionalValue]; exact held.entryFee) isProduct isFee
  refine ⟨fee, near, feeValue, isNear, ?_⟩
  rw [← notionalValue]
  exact add_toRat (by rw [notionalValue]; exact held.basis fee near feeValue isNear) isBasis

/-- **The buffer is kept**: what an opened plan takes from the cash leaves the buffer. -/
theorem buffer_le_left {envelope : Envelope} {account : SizingAccount} {plan : EntryPlan}
    {equity cash basis : Decimal} {quote : Quote} {costs : FinalCosts}
    (opening : Opening envelope account feeBps plan equity cash quote costs)
    (heldRoom : HeldRoom equity.toRat envelope.cashBufferPct.toRat cash.toRat)
    (heldCost : HeldCost costs.quantity.toRat quote.ask.toRat feeBps.toRat)
    (isBasis : entryCostBasis costs.quantity quote.ask feeBps = .ok basis) :
    equity.toRat * envelope.cashBufferPct.toRat / 100 ≤ cash.toRat - basis.toRat := by
  obtain ⟨notionalValue, fee, feeValue, isUp⟩ := finalCosts_entry heldCost opening.computes
  obtain ⟨other, near, otherValue, isNear, basisValue⟩ := entryCostBasis_entry heldCost isBasis
  obtain ⟨needed, isNeeded, enough⟩ := opening.within.cash
  have roomValue := budget_cashRoom heldRoom opening.isRoom
  have neededValue : needed.toRat = costs.quantity.toRat * quote.ask.toRat + costs.entryFee.toRat := by
    rw [← notionalValue]
    exact add_toRat (by rw [notionalValue]; exact heldCost.needed fee _ feeValue isUp) isNeeded
  have fees : near.toRat ≤ costs.entryFee.toRat :=
    quantize_halfEven_le_ceiling (otherValue.trans feeValue.symm) isNear isUp
  linarith

/-! ## The cash left -/

/-- The sums of the nets and of the cost bases, and the cash of an account. -/
structure HeldCash (assigned : ℚ) (nets bases : List ℚ) : Prop where
  realized : ∀ front, front <+: nets → Held front.sum
  settled : Held (assigned + nets.sum)
  tied : ∀ front, front <+: bases → Held front.sum
  left : Held (assigned + nets.sum - bases.sum)

theorem total_toRat {values : List Decimal} (held : ∀ front, front <+: values.map toRat → Held front.sum) :
    ∀ {sum}, total values = .ok sum → sum.toRat = (values.map toRat).sum := by
  unfold total
  induction values using List.reverseRecOn with
  | nil =>
      intro sum isSum
      cases isSum
      simp [Paper.zero, toRat_ofNat]
  | append_singleton values value ih =>
      intro sum isSum
      rw [List.foldlM_append] at isSum
      obtain ⟨before, isBefore, isSum⟩ := bind_eq_ok.mp isSum
      obtain ⟨last, isLast, made⟩ := bind_eq_ok.mp isSum
      cases made
      have front : (values.map toRat).sum = before.toRat := by
        refine (ih (fun front isFront => held front ?_) isBefore).symm
        rw [List.map_append]
        exact isFront.trans (List.prefix_append _ _)
      have all := held _ (List.prefix_refl _)
      rw [List.map_append, List.sum_append, front, List.map_singleton, List.sum_singleton] at all ⊢
      exact add_toRat all isLast

theorem availableCash_toRat {assigned cash : Decimal} {nets bases : List Decimal}
    (held : HeldCash assigned.toRat (nets.map toRat) (bases.map toRat))
    (isCash : availableCash assigned nets bases = .ok cash) :
    cash.toRat = assigned.toRat + (nets.map toRat).sum - (bases.map toRat).sum := by
  unfold availableCash at isCash
  simp only [bind_eq_ok, Risk.computed_eq_ok] at isCash
  obtain ⟨_, _, realized, isRealized, settled, isSettled, tied, isTied, isCash⟩ := isCash
  have realizedValue := total_toRat held.realized isRealized
  have tiedValue := total_toRat held.tied isTied
  have settledValue : settled.toRat = assigned.toRat + (nets.map toRat).sum := by
    rw [← realizedValue]
    exact add_toRat (by rw [realizedValue]; exact held.settled) isSettled
  rw [← settledValue, ← tiedValue]
  exact sub_toRat (by rw [settledValue, tiedValue]; exact held.left) isCash

/-- A further cost basis is taken from the cash. -/
theorem availableCash_opened {assigned cash basis after : Decimal} {nets bases : List Decimal}
    (held : HeldCash assigned.toRat (nets.map toRat) (bases.map toRat))
    (heldAfter : HeldCash assigned.toRat (nets.map toRat) ((bases ++ [basis]).map toRat))
    (isCash : availableCash assigned nets bases = .ok cash)
    (isAfter : availableCash assigned nets (bases ++ [basis]) = .ok after) :
    after.toRat = cash.toRat - basis.toRat := by
  rw [availableCash_toRat heldAfter isAfter, availableCash_toRat held isCash, List.map_append,
    List.sum_append, List.map_singleton, List.sum_singleton]
  ring

/-! ## The mark and the settlement -/

/-- The proceeds of a quantity, with the exit fee rounded up, and the mark. -/
structure HeldMark (quantity bid basis feeBps : ℚ) : Prop where
  proceeds : Held (quantity * bid)
  exitFee : HeldFee (quantity * bid) feeBps
  left : ∀ fee up : Decimal, fee.toRat = quantity * bid * feeBps / 10000 → centsUp fee = .ok up →
    Held (quantity * bid - up.toRat) ∧ Held (quantity * bid - up.toRat - basis)

/-- The move, the notionals, the fees and the net of a settlement. -/
structure HeldSettlement (quantity ask bid feeBps : ℚ) : Prop where
  move : Held (bid - ask)
  result : Held (quantity * (bid - ask))
  entryNotional : Held (quantity * ask)
  entryFee : HeldFee (quantity * ask) feeBps
  exitNotional : Held (quantity * bid)
  exitFee : HeldFee (quantity * bid) feeBps
  net : ∀ result gross entryCost entryFee exitCost exitFee : Decimal,
    result.toRat = quantity * (bid - ask) → cents result = .ok gross →
    entryCost.toRat = quantity * ask * feeBps / 10000 → cents entryCost = .ok entryFee →
    exitCost.toRat = quantity * bid * feeBps / 10000 → cents exitCost = .ok exitFee →
    Held (entryFee.toRat + exitFee.toRat) ∧ Held (gross.toRat - (entryFee.toRat + exitFee.toRat))

theorem unrealizedMark_toRat {quantity bid basis mark : Decimal}
    (held : HeldMark quantity.toRat bid.toRat basis.toRat feeBps.toRat)
    (isMark : unrealizedMark quantity bid basis feeBps = .ok mark) :
    ∃ fee up, fee.toRat = quantity.toRat * bid.toRat * feeBps.toRat / 10000 ∧ centsUp fee = .ok up ∧
      mark.toRat = quantity.toRat * bid.toRat - up.toRat - basis.toRat := by
  unfold unrealizedMark at isMark
  simp only [bind_eq_ok, Risk.computed_eq_ok] at isMark
  obtain ⟨_, _, _, _, _, _, _, _, proceeds, isProceeds, product, isProduct, fee, isFee, up, isUp, left, isLeft,
    isMark⟩ := isMark
  have proceedsValue := mul_toRat held.proceeds isProceeds
  have feeValue : fee.toRat = quantity.toRat * bid.toRat * feeBps.toRat / 10000 := by
    rw [← proceedsValue]
    exact fee_by_product (by rw [proceedsValue]; exact held.exitFee) isProduct isFee
  obtain ⟨heldLeft, heldMark⟩ := held.left fee up feeValue isUp
  have leftValue : left.toRat = quantity.toRat * bid.toRat - up.toRat := by
    rw [← proceedsValue]
    exact sub_toRat (by rwa [proceedsValue]) isLeft
  refine ⟨fee, up, feeValue, isUp, ?_⟩
  rw [← leftValue]
  exact sub_toRat (by rwa [leftValue]) isMark

theorem settleLong_net {quantity ask bid : Decimal} {settlement : Settlement}
    (held : HeldSettlement quantity.toRat ask.toRat bid.toRat feeBps.toRat)
    (settled : settleLong quantity ask bid feeBps = .ok settlement) :
    ∃ result gross entryCost entryFee exitCost exitFee : Decimal,
      result.toRat = quantity.toRat * (bid.toRat - ask.toRat) ∧ cents result = .ok gross ∧
      entryCost.toRat = quantity.toRat * ask.toRat * feeBps.toRat / 10000 ∧ cents entryCost = .ok entryFee ∧
      exitCost.toRat = quantity.toRat * bid.toRat * feeBps.toRat / 10000 ∧ cents exitCost = .ok exitFee ∧
      settlement.net.toRat = gross.toRat - (entryFee.toRat + exitFee.toRat) := by
  unfold settleLong at settled
  simp only [bind_eq_ok, Risk.computed_eq_ok] at settled
  obtain ⟨_, _, _, _, _, _, _, _, rate, isRate, move, isMove, result, isResult, gross, isGross, entryNotional,
    isEntryNotional, entryCost, isEntryCost, entryFee, isEntryFee, exitNotional, isExitNotional, exitCost,
    isExitCost, exitFee, isExitFee, fees, isFees, net, isNet, made⟩ := settled
  cases made
  have moveValue := sub_toRat held.move isMove
  have resultValue : result.toRat = quantity.toRat * (bid.toRat - ask.toRat) := by
    rw [← moveValue]
    exact mul_toRat (by rw [moveValue]; exact held.result) isResult
  have entryValue := mul_toRat held.entryNotional isEntryNotional
  have exitValue := mul_toRat held.exitNotional isExitNotional
  have entryCostValue : entryCost.toRat = quantity.toRat * ask.toRat * feeBps.toRat / 10000 := by
    rw [← entryValue]
    exact fee_by_rate (by rw [entryValue]; exact held.entryFee) isRate isEntryCost
  have exitCostValue : exitCost.toRat = quantity.toRat * bid.toRat * feeBps.toRat / 10000 := by
    rw [← exitValue]
    exact fee_by_rate (by rw [exitValue]; exact held.exitFee) isRate isExitCost
  obtain ⟨heldFees, heldNet⟩ := held.net result gross entryCost entryFee exitCost exitFee resultValue isGross
    entryCostValue isEntryFee exitCostValue isExitFee
  have feesValue := add_toRat heldFees isFees
  refine ⟨result, gross, entryCost, entryFee, exitCost, exitFee, resultValue, isGross, entryCostValue,
    isEntryFee, exitCostValue, isExitFee, ?_⟩
  rw [← feesValue]
  exact sub_toRat (by rwa [feesValue]) isNet

/-- **The mark is conservative**: it is above the net of a settlement at the bid by half a cent at most. -/
theorem mark_le_net {quantity ask bid basis mark : Decimal} {settlement : Settlement}
    (heldCost : HeldCost quantity.toRat ask.toRat feeBps.toRat)
    (heldMark : HeldMark quantity.toRat bid.toRat basis.toRat feeBps.toRat)
    (heldSettlement : HeldSettlement quantity.toRat ask.toRat bid.toRat feeBps.toRat)
    (isBasis : entryCostBasis quantity ask feeBps = .ok basis)
    (isMark : unrealizedMark quantity bid basis feeBps = .ok mark)
    (settled : settleLong quantity ask bid feeBps = .ok settlement) :
    mark.toRat ≤ settlement.net.toRat + 5 / 1000 := by
  obtain ⟨cost, near, costValue, isNear, basisValue⟩ := entryCostBasis_entry heldCost isBasis
  obtain ⟨fee, up, feeValue, isUp, markValue⟩ := unrealizedMark_toRat heldMark isMark
  obtain ⟨result, gross, entryCost, entryFee, exitCost, exitFee, resultValue, isGross, entryCostValue,
    isEntryFee, exitCostValue, isExitFee, netValue⟩ := settleLong_net heldSettlement settled
  -- the entry fee is rounded alike in both
  have entryFees : near.toRat = entryFee.toRat :=
    quantize_congr (costValue.trans entryCostValue.symm) isNear isEntryFee
  have exitFees : exitFee.toRat ≤ up.toRat :=
    quantize_halfEven_le_ceiling (exitCostValue.trans feeValue.symm) isExitFee isUp
  have grossNear := (abs_le.mp (quantize_halfEven_near isGross)).1
  have halfCent : (10 : ℚ) ^ Paper.centExponent / 2 = 5 / 1000 := by norm_num [Paper.centExponent]
  rw [halfCent, resultValue] at grossNear
  rw [markValue, netValue, basisValue, entryFees]
  linarith

end Amounts

/-! ## Opening -/

/-- What is left of the cash after an opening, and the mark of the position. -/
structure BufferKept (buffer : ℚ) (cash quantity ask feeBps basis : Decimal) : Prop where
  left : buffer ≤ cash.toRat - basis.toRat
  available : ∀ assigned nets bases after, availableCash assigned nets bases = .ok cash →
    availableCash assigned nets (bases ++ [basis.throughText]) = .ok after →
    HeldCash assigned.toRat (nets.map toRat) (bases.map toRat) →
    HeldCash assigned.toRat (nets.map toRat) ((bases ++ [basis.throughText]).map toRat) →
    buffer ≤ after.toRat
  mark : ∀ bid mark settlement, unrealizedMark quantity bid basis feeBps = .ok mark →
    settleLong quantity ask bid feeBps = .ok settlement →
    HeldMark quantity.toRat bid.toRat basis.toRat feeBps.toRat →
    HeldSettlement quantity.toRat ask.toRat bid.toRat feeBps.toRat →
    mark.toRat ≤ settlement.net.toRat + 5 / 1000

/-- **Opening keeps the cash buffer.** Where nothing but the roundings to cents rounds, the cost basis of
an opened plan leaves the buffer of the cash it was sized on, also when the basis is counted with the
others, and the mark of the new position is above the net of a settlement by half a cent at most. -/
theorem opening_keeps_the_buffer (runtime : Runtime) (envelope : Envelope) (offer : EntryOffer)
    (account : SizingAccount) (feeBps : Decimal) (plan : EntryPlan)
    (planned : planLongEntry runtime envelope offer account feeBps = .ok plan) (opened : plan.opened = true) :
    ∃ equity cash quote costs, account.equity = some equity ∧ account.cash = some cash ∧
      plan.quote = some quote ∧ plan.costs = some costs ∧
      (HeldRoom equity.toRat envelope.cashBufferPct.toRat cash.toRat →
        HeldCost costs.quantity.toRat quote.ask.toRat feeBps.toRat →
        ∀ basis, entryCostBasis costs.quantity quote.ask feeBps = .ok basis →
          BufferKept (equity.toRat * envelope.cashBufferPct.toRat / 100) cash costs.quantity quote.ask feeBps
            basis) := by
  obtain ⟨equity, cash, quote, costs, ⟨opening⟩⟩ := opening_of_opened planned opened
  refine ⟨equity, cash, quote, costs, opening.isEquity, opening.isCash, opening.isQuote, opening.isCosts, ?_⟩
  intro heldRoom heldCost basis isBasis
  have left := buffer_le_left opening heldRoom heldCost isBasis
  refine ⟨left, ?_, ?_⟩
  · intro assigned nets bases after isCash isAfter heldCash heldAfter
    rw [availableCash_opened heldCash heldAfter isCash isAfter, throughText_sameValue basis]
    exact left
  · intro bid mark settlement isMark settled heldMark heldSettlement
    exact mark_le_net heldCost heldMark heldSettlement isBasis isMark settled

/-! ### The plain entry -/

/-- A number of few digits near the point is not rounded. -/
theorem held_of_fit (number : Decimal) {amount : ℚ}
    (few : number.coeff < 10 ^ 50 ∧ -1000 ≤ number.exponent ∧ number.exponent ≤ 1000)
    (value : number.toRat = amount) : Held amount := by
  obtain ⟨below, least, most⟩ := few
  have digits : digitCount number.coeff ≤ 50 :=
    (Nat.length_toDigits_le_iff (by decide) (by decide)).mpr below
  have lowest : riskContext.etiny = -1000048 := by decide
  have highest : riskContext.etop = 999950 := by decide
  have precision : riskContext.precision = 50 := rfl
  refine ⟨number, ?_, value⟩
  rw [fit, lowest, highest, precision]
  split
  next zero =>
    have kept : min (max number.exponent (-1000048)) DecimalContext.emax = number.exponent := by
      rw [show DecimalContext.emax = 999999 from rfl]
      omega
    rw [kept]
  next =>
    dsimp only
    rw [if_neg (by omega), if_neg (by omega)]

/-- Whether a plan opened, and what it buys at which price. -/
def EntryPlan.order (plan : EntryPlan) : Bool × Option Decimal × Option Decimal :=
  (plan.opened, plan.costs.map FinalCosts.quantity, plan.quote.map Quote.ask)

theorem plainOffer_heldRoom : HeldRoom 100 10 100 where
  product := held_of_fit (.ofNat 1000) (by decide) (by norm_num [toRat_ofNat])
  buffer := held_of_fit (.ofNat 10) (by decide) (by norm_num [toRat_ofNat])
  room := held_of_fit (.ofNat 90) (by decide) (by norm_num [toRat_ofNat])

theorem plainOffer_rate : Held (26 / 10000) :=
  held_of_fit ⟨false, 26, -4⟩ (by decide) (by norm_num [toRat, magnitude])

theorem plainOffer_entryFee : HeldFee (7 / 100 * (1001 / 10)) 26 where
  rate := plainOffer_rate
  product := held_of_fit ⟨false, 182182, -3⟩ (by decide) (by norm_num [toRat, magnitude])
  fee := held_of_fit ⟨false, 182182, -7⟩ (by decide) (by norm_num [toRat, magnitude])

theorem plainOffer_exitFee : HeldFee (7 / 100 * (999 / 10)) 26 where
  rate := plainOffer_rate
  product := held_of_fit ⟨false, 181818, -3⟩ (by decide) (by norm_num [toRat, magnitude])
  fee := held_of_fit ⟨false, 181818, -7⟩ (by decide) (by norm_num [toRat, magnitude])

/-- A number that is rounded like a known one. -/
theorem rounds_to {rounding : Rounding} {context : DecimalContext} (known rounded : Decimal)
    (isRounded : quantize context rounding known Paper.centExponent = .ok rounded) {number result : Decimal}
    (same : number.toRat = known.toRat)
    (isResult : quantize context rounding number Paper.centExponent = .ok result) :
    result.toRat = rounded.toRat := quantize_congr same isResult isRounded

/-- The fees and the loss of the plain entry to the cent. -/
theorem plainOffer_cents :
    (∀ rounding ∈ [Rounding.ceiling, .halfEven], ∀ fee ∈ [182182, 181818],
      quantize riskContext rounding ⟨false, fee, -7⟩ Paper.centExponent = .ok ⟨false, 2, -2⟩) ∧
    quantize riskContext .halfEven ⟨true, 14, -3⟩ Paper.centExponent = .ok ⟨true, 1, -2⟩ := by
  decide +kernel

theorem plainOffer_heldCost : HeldCost (7 / 100) (1001 / 10) 26 where
  notional := held_of_fit ⟨false, 7007, -3⟩ (by decide) (by norm_num [toRat, magnitude])
  entryFee := plainOffer_entryFee
  needed := by
    intro fee up isFee isUp
    have two := rounds_to ⟨false, 182182, -7⟩ ⟨false, 2, -2⟩ (plainOffer_cents.1 _ (by simp) _ (by simp))
      (isFee.trans (by norm_num [toRat, magnitude])) isUp
    rw [two]
    exact held_of_fit ⟨false, 7027, -3⟩ (by decide) (by norm_num [toRat, magnitude])
  basis := by
    intro fee near isFee isNear
    have two := rounds_to ⟨false, 182182, -7⟩ ⟨false, 2, -2⟩ (plainOffer_cents.1 _ (by simp) _ (by simp))
      (isFee.trans (by norm_num [toRat, magnitude])) isNear
    rw [two]
    exact held_of_fit ⟨false, 7027, -3⟩ (by decide) (by norm_num [toRat, magnitude])

theorem plainOffer_heldMark : HeldMark (7 / 100) (999 / 10) (7027 / 1000) 26 where
  proceeds := held_of_fit ⟨false, 6993, -3⟩ (by decide) (by norm_num [toRat, magnitude])
  exitFee := plainOffer_exitFee
  left := by
    intro fee up isFee isUp
    have two := rounds_to ⟨false, 181818, -7⟩ ⟨false, 2, -2⟩ (plainOffer_cents.1 _ (by simp) _ (by simp))
      (isFee.trans (by norm_num [toRat, magnitude])) isUp
    rw [two]
    exact ⟨held_of_fit ⟨false, 6973, -3⟩ (by decide) (by norm_num [toRat, magnitude]),
      held_of_fit ⟨true, 54, -3⟩ (by decide) (by norm_num [toRat, magnitude])⟩

theorem plainOffer_heldSettlement : HeldSettlement (7 / 100) (1001 / 10) (999 / 10) 26 where
  move := held_of_fit ⟨true, 2, -1⟩ (by decide) (by norm_num [toRat, magnitude])
  result := held_of_fit ⟨true, 14, -3⟩ (by decide) (by norm_num [toRat, magnitude])
  entryNotional := plainOffer_heldCost.notional
  entryFee := plainOffer_entryFee
  exitNotional := plainOffer_heldMark.proceeds
  exitFee := plainOffer_exitFee
  net := by
    intro result gross entryCost entryFee exitCost exitFee isResult isGross isEntry isEntryFee isExit isExitFee
    have one := rounds_to ⟨true, 14, -3⟩ ⟨true, 1, -2⟩ plainOffer_cents.2
      (isResult.trans (by norm_num [toRat, magnitude])) isGross
    have entry := rounds_to ⟨false, 182182, -7⟩ ⟨false, 2, -2⟩ (plainOffer_cents.1 _ (by simp) _ (by simp))
      (isEntry.trans (by norm_num [toRat, magnitude])) isEntryFee
    have exit := rounds_to ⟨false, 181818, -7⟩ ⟨false, 2, -2⟩ (plainOffer_cents.1 _ (by simp) _ (by simp))
      (isExit.trans (by norm_num [toRat, magnitude])) isExitFee
    rw [one, entry, exit]
    exact ⟨held_of_fit ⟨false, 4, -2⟩ (by decide) (by norm_num [toRat, magnitude]),
      held_of_fit ⟨true, 5, -2⟩ (by decide) (by norm_num [toRat, magnitude])⟩

theorem plainOffer_heldCash (bases : List ℚ) (known : bases = [] ∨ bases = [7027 / 1000]) :
    HeldCash 100 [] bases := by
  have none : Held 0 := held_of_fit (.ofNat 0) (by decide) (by norm_num [toRat_ofNat])
  have all : Held 100 := held_of_fit (.ofNat 100) (by decide) (by norm_num [toRat_ofNat])
  have basis : Held (7027 / 1000) :=
    held_of_fit ⟨false, 7027, -3⟩ (by decide) (by norm_num [toRat, magnitude])
  have left : Held (100 - 7027 / 1000) :=
    held_of_fit ⟨false, 92973, -3⟩ (by decide) (by norm_num [toRat, magnitude])
  refine ⟨?_, by simpa using all, ?_, ?_⟩
  · intro front isFront
    rw [List.prefix_nil.mp isFront]
    exact none
  · intro front isFront
    rcases known with rfl | rfl
    · rw [List.prefix_nil.mp isFront]
      exact none
    · rcases List.prefix_cons_iff.mp isFront with rfl | ⟨rest, rfl, isRest⟩
      · exact none
      · rw [List.prefix_nil.mp isRest]
        simpa using basis
  · rcases known with rfl | rfl
    · simpa using all
    · simpa using left

/-- The plain entry buys 0.07 at 100.1 of 100 USD, and is marked and closed at 99.9. -/
theorem opening_keeps_the_buffer_plain :
    ∃ plan after mark settlement, samplePlan plainOffer ⟨false, 10000, -2⟩ = .ok plan ∧
      plan.order = (true, some ⟨false, 7, -2⟩, some ⟨false, 1001, -1⟩) ∧
      entryCostBasis ⟨false, 7, -2⟩ ⟨false, 1001, -1⟩ (.ofNat 26) = .ok ⟨false, 7027, -3⟩ ∧
      availableCash ⟨false, 10000, -2⟩ [] [⟨false, 7027, -3⟩] = .ok after ∧
      unrealizedMark ⟨false, 7, -2⟩ ⟨false, 999, -1⟩ ⟨false, 7027, -3⟩ (.ofNat 26) = .ok mark ∧
      settleLong ⟨false, 7, -2⟩ ⟨false, 1001, -1⟩ ⟨false, 999, -1⟩ (.ofNat 26) = .ok settlement ∧
      (10 : ℚ) ≤ 100 - 7027 / 1000 ∧ 10 ≤ after.toRat ∧ mark.toRat ≤ settlement.net.toRat + 5 / 1000 := by
  obtain ⟨plan, planned, isOrder⟩ := show ∃ plan, samplePlan plainOffer ⟨false, 10000, -2⟩ = .ok plan ∧
      plan.order = (true, some ⟨false, 7, -2⟩, some ⟨false, 1001, -1⟩) from plan_of_map (by decide +kernel)
  have order := isOrder
  simp only [EntryPlan.order, Prod.mk.injEq] at order
  obtain ⟨equity, cash, quote, costs, isEquity, isCash, isQuote, isCosts, kept⟩ :=
    opening_keeps_the_buffer sampleRuntime sampleEnvelope plainOffer _ _ plan planned order.1
  rw [isQuote, isCosts, Option.map_some, Option.map_some, Option.some_inj, Option.some_inj] at order
  cases isEquity
  cases isCash
  rw [order.2.1, order.2.2] at kept
  have hundred : (⟨false, 10000, -2⟩ : Decimal).toRat = 100 := by norm_num [toRat, magnitude]
  have ten : sampleEnvelope.cashBufferPct.toRat = 10 := toRat_ofNat 10
  have quantity : (⟨false, 7, -2⟩ : Decimal).toRat = 7 / 100 := by norm_num [toRat, magnitude]
  have ask : (⟨false, 1001, -1⟩ : Decimal).toRat = 1001 / 10 := by norm_num [toRat, magnitude]
  have bid : (⟨false, 999, -1⟩ : Decimal).toRat = 999 / 10 := by norm_num [toRat, magnitude]
  have basis : (⟨false, 7027, -3⟩ : Decimal).toRat = 7027 / 1000 := by norm_num [toRat, magnitude]
  have fee : (ofNat 26).toRat = 26 := toRat_ofNat 26
  have isBasis : entryCostBasis ⟨false, 7, -2⟩ ⟨false, 1001, -1⟩ (.ofNat 26) = .ok ⟨false, 7027, -3⟩ := by
    decide +kernel
  have isAfter : availableCash ⟨false, 10000, -2⟩ [] [⟨false, 7027, -3⟩] = .ok ⟨false, 92973, -3⟩ := by
    decide +kernel
  have isMark : unrealizedMark ⟨false, 7, -2⟩ ⟨false, 999, -1⟩ ⟨false, 7027, -3⟩ (.ofNat 26) =
      .ok ⟨true, 54, -3⟩ := by decide +kernel
  have settled : ∃ settlement, settleLong ⟨false, 7, -2⟩ ⟨false, 1001, -1⟩ ⟨false, 999, -1⟩ (.ofNat 26) =
      .ok settlement := ⟨_, rfl⟩
  obtain ⟨settlement, settled⟩ := settled
  rw [hundred, ten, quantity, ask, fee] at kept
  have keeps := kept plainOffer_heldRoom plainOffer_heldCost _ isBasis
  refine ⟨plan, _, _, settlement, planned, isOrder, isBasis, isAfter, isMark, settled, ?_, ?_, ?_⟩
  · have left := keeps.left
    rw [hundred, basis] at left
    linarith
  · have available := keeps.available ⟨false, 10000, -2⟩ [] [] _ (by decide +kernel) isAfter
      (by rw [hundred]; exact plainOffer_heldCash [] (.inl rfl))
      (by rw [hundred]; exact plainOffer_heldCash _ (.inr (by simp [basis, throughText])))
    linarith
  · have mark := keeps.mark _ _ settlement isMark settled
      (by rw [quantity, bid, basis, fee]; exact plainOffer_heldMark)
      (by rw [quantity, ask, bid, fee]; exact plainOffer_heldSettlement)
    exact mark

end CryptoRadar.Risk
