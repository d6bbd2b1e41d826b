import CryptoRadar.Lib.DecimalBounds
import CryptoRadar.Risk.Sizing

/-!
# One lot less

The sizing loop takes one lot off a quantity that does not fit. The quantity was computed with 50
digits, and the lot is taken off in the context of the thread, with 28. So a pass removes exactly one
lot when the lots that are left have no digit but zeros after the 28th, and only then
(`pass_removes_one_lot`); otherwise the rounding decides, and the quantity may grow
(`passes_can_grow`).
-/

set_option autoImplicit false

namespace CryptoRadar.Risk

open Checked Decimal
open Paper (ExitLevels Quote)

/-! ## The loop -/

/-- One pass: a quantity above the minimums that does not fit, and the one after it. -/
structure Pass (terms : SizingTerms) (quantity smaller : Decimal) : Prop where
  minimum : belowMinimum quantity terms.ask terms.rules = .ok none
  tooMuch : ∃ costs, finalCosts quantity terms.ask terms.stressed terms.feeBps = .ok costs ∧
    fits costs terms.room = .ok false
  taken : Decimal.sub .default quantity terms.rules.lot = .ok smaller

/-- The quantities the loop tries, with the number of passes before each. -/
inductive Tried (terms : SizingTerms) (first : Decimal) : ℕ → Decimal → Prop where
  | first : Tried terms first 0 first
  | pass {passes : ℕ} {quantity smaller : Decimal} (tried : Tried terms first passes quantity)
      (more : passes < maxDownwardPasses) (isPass : Pass terms quantity smaller) :
      Tried terms first (passes + 1) smaller

/-- The plan of a quantity the loop tries. -/
def EntryPlan.trying (plan : EntryPlan) (quantity : Decimal) (passes : ℕ)
    (costs : Option FinalCosts) : EntryPlan :=
  { plan with passes := passes, quantity := some quantity, costs := costs }

/-- What a turn of the loop can do: end with a quantity below a minimum, with one that fits, or with one
that does not after the last pass, or make a pass. -/
inductive Turn (terms : SizingTerms) (plan : EntryPlan) (quantity : Decimal) (passes : ℕ) :
    ℕ → EntryPlan → Prop where
  | below {remaining : ℕ} (minimum : NoTrade)
      (isMinimum : belowMinimum quantity terms.ask terms.rules = .ok (some minimum)) :
      Turn terms plan quantity passes remaining
        ((plan.trying quantity passes none).refuse minimum.reason minimum.detail)
  | fitting {remaining : ℕ} {costs : FinalCosts}
      (isMinimum : belowMinimum quantity terms.ask terms.rules = .ok none)
      (isCosts : finalCosts quantity terms.ask terms.stressed terms.feeBps = .ok costs)
      (isFitting : fits costs terms.room = .ok true) :
      Turn terms plan quantity passes remaining (plan.trying quantity passes (some costs))
  | spent {costs : FinalCosts}
      (isCosts : finalCosts quantity terms.ask terms.stressed terms.feeBps = .ok costs)
      (tooMuch : fits costs terms.room = .ok false) :
      Turn terms plan quantity passes 0 ((plan.trying quantity passes (some costs)).refuse
        .sizingInconsistent ("passes:" ++ toString passes))
  | pass {fewer : ℕ} {result : EntryPlan} {costs : FinalCosts} {smaller : Decimal}
      (isPass : Pass terms quantity smaller)
      (run : sizingLoop terms (plan.trying quantity passes (some costs)) smaller (passes + 1) fewer =
        .ok result) :
      Turn terms plan quantity passes (fewer + 1) result

theorem sizingLoop_turn {terms : SizingTerms} {plan result : EntryPlan} {quantity : Decimal}
    {passes remaining : ℕ} (run : sizingLoop terms plan quantity passes remaining = .ok result) :
    Turn terms plan quantity passes remaining result := by
  rw [sizingLoop.eq_def] at run
  obtain ⟨minimum, isMinimum, run⟩ := bind_eq_ok.mp run
  rw [computed_eq_ok] at isMinimum
  cases minimum with
  | some minimum =>
      cases run
      exact .below minimum isMinimum
  | none =>
      obtain ⟨costs, isCosts, run⟩ := bind_eq_ok.mp run
      obtain ⟨fitting, isFitting, run⟩ := bind_eq_ok.mp run
      rw [computed_eq_ok] at isCosts isFitting
      cases fitting with
      | true =>
          cases run
          exact .fitting isMinimum isCosts isFitting
      | false =>
          cases remaining with
          | zero =>
              cases run
              exact .spent isCosts isFitting
          | succ remaining =>
              obtain ⟨smaller, isSmaller, run⟩ := bind_eq_ok.mp run
              exact .pass ⟨isMinimum, ⟨costs, isCosts, isFitting⟩, computed_eq_ok.mp isSmaller⟩ run

/-- What the loop ends with: the last quantity it tried, below a minimum, fitting, or given up. -/
theorem sizingLoop_eq_ok {terms : SizingTerms} {first : Decimal} (remaining : ℕ) :
    ∀ {plan result : EntryPlan} {quantity : Decimal} {passes : ℕ},
      passes + remaining = maxDownwardPasses → Tried terms first passes quantity →
      sizingLoop terms plan quantity passes remaining = .ok result →
      ∃ last, Tried terms first result.passes last ∧ result.quantity = some last ∧
        result.lotQuantity = plan.lotQuantity ∧ result.candidates = plan.candidates := by
  induction remaining using Nat.strong_induction_on with
  | _ remaining ih =>
      intro plan result quantity passes count tried run
      cases sizingLoop_turn run with
      | below | fitting | spent => exact ⟨quantity, tried, rfl, rfl, rfl⟩
      | @pass fewer _ _ smaller isPass run =>
          have ended := ih fewer fewer.lt_succ_self (by omega) (tried.pass (by omega) isPass) run
          exact ended

/-! ## The start -/

/-- What the loop of an entry starts from: the terms, the candidates and the least of them, rounded
down to the lot. -/
structure SizingStart (runtime : Runtime) (envelope : Envelope) (offer : EntryOffer)
    (account : SizingAccount) (feeBps : Decimal) where
  terms : SizingTerms
  plan : EntryPlan
  candidates : Candidates
  quantity : Decimal
  rules : parsePairRules runtime offer.pairEntry = .ok terms.rules
  floored : floorToLot candidates.quantity terms.rules.lotDecimals = .ok quantity
  recorded : plan.noTrade = none ∧ plan.candidates = some candidates ∧
    plan.lotQuantity = some quantity
  loops : planLongEntry runtime envelope offer account feeBps =
    sizingLoop terms plan quantity 0 maxDownwardPasses

/-- A plan that was not refused and has no quantity yet. -/
def EntryPlan.Unsized (plan : EntryPlan) : Prop := plan.noTrade = none ∧ plan.lotQuantity = none

theorem sizeWithin_eq_loop {terms : SizingTerms} {plan result : EntryPlan} {perUnit : Decimal}
    (sized : sizeWithin terms plan perUnit = .ok result) (unsized : plan.Unsized)
    (reached : result.lotQuantity ≠ none) :
    ∃ candidates quantity,
      candidateQuantities terms.room terms.ask perUnit terms.feeBps = .ok candidates ∧
        floorToLot candidates.quantity terms.rules.lotDecimals = .ok quantity ∧
        sizeWithin terms plan perUnit = sizingLoop terms
          { plan with candidates := some candidates, lotQuantity := some quantity } quantity 0
          maxDownwardPasses := by
  unfold sizeWithin at sized ⊢
  simp only at sized ⊢
  split at sized
  next =>
    obtain ⟨_, _, made⟩ := bind_eq_ok.mp sized
    cases made
    exact absurd unsized.2 reached
  next =>
    split at sized
    next =>
      obtain ⟨_, _, made⟩ := bind_eq_ok.mp sized
      cases made
      exact absurd unsized.2 reached
    next =>
      split at sized
      next =>
        obtain ⟨_, _, made⟩ := bind_eq_ok.mp sized
        cases made
        exact absurd unsized.2 reached
      next noLoss noNotional noCash =>
        obtain ⟨candidates, isCandidates, sized⟩ := bind_eq_ok.mp sized
        obtain ⟨quantity, isQuantity, _⟩ := bind_eq_ok.mp sized
        refine ⟨candidates, quantity, computed_eq_ok.mp isCandidates, computed_eq_ok.mp isQuantity, ?_⟩
        rw [if_neg noLoss, if_neg noNotional, if_neg noCash, isCandidates]
        simp only [bind, Except.bind, isQuantity]

section Start

variable {runtime : Runtime} {envelope : Envelope} {offer : EntryOffer} {account : SizingAccount}
  {feeBps : Decimal} {plan : EntryPlan}

theorem sizeAtLevels_eq_sizeWithin {equity cash : Decimal} {quote : Quote} {rules : PairRules}
    {levels : ExitLevels} {result : EntryPlan}
    (sized : sizeAtLevels envelope account equity cash feeBps plan quote rules levels = .ok result)
    (unsized : plan.Unsized) (reached : result.lotQuantity ≠ none) :
    ∃ (terms : SizingTerms) (other : EntryPlan) (perUnit : Decimal), terms.rules = rules ∧
      other.Unsized ∧
      sizeAtLevels envelope account equity cash feeBps plan quote rules levels =
        sizeWithin terms other perUnit := by
  unfold sizeAtLevels at sized ⊢
  obtain ⟨stop, isStop, sized⟩ := bind_eq_ok.mp sized
  obtain ⟨target, isTarget, sized⟩ := bind_eq_ok.mp sized
  simp only [isStop, isTarget, bind, Except.bind] at sized ⊢
  split at sized
  next =>
    obtain ⟨_, _, made⟩ := bind_eq_ok.mp sized
    cases made
    exact absurd unsized.2 reached
  next above =>
    split at sized
    next =>
      obtain ⟨_, _, made⟩ := bind_eq_ok.mp sized
      cases made
      exact absurd unsized.2 reached
    next below =>
      rw [if_neg above, if_neg below]
      obtain ⟨stressed, isStressed, sized⟩ := bind_eq_ok.mp sized
      obtain ⟨perUnit, isPerUnit, sized⟩ := bind_eq_ok.mp sized
      simp only [isStressed, isPerUnit] at sized ⊢
      split at sized
      next =>
        cases sized
        exact absurd unsized.2 reached
      next positive =>
        rw [if_neg positive]
        obtain ⟨room, isRoom, sized⟩ := bind_eq_ok.mp sized
        simp only [isRoom]
        refine ⟨_, _, perUnit, ?_, ?_, rfl⟩
        · rfl
        · exact unsized

theorem sizeQuoted_eq_sizeWithin {quote : Quote} {result : EntryPlan}
    (sized : sizeQuoted runtime envelope offer account feeBps plan quote = .ok result)
    (unsized : plan.Unsized) (reached : result.lotQuantity ≠ none) :
    ∃ (terms : SizingTerms) (other : EntryPlan) (perUnit : Decimal),
      parsePairRules runtime offer.pairEntry = .ok terms.rules ∧ other.Unsized ∧
      sizeQuoted runtime envelope offer account feeBps plan quote =
        sizeWithin terms other perUnit := by
  unfold sizeQuoted at sized ⊢
  split at sized
  next =>
    cases sized
    exact absurd unsized.2 reached
  next atr isAtr =>
    simp only at sized ⊢
    split at sized
    next =>
      cases sized
      exact absurd unsized.2 reached
    next rules isRules =>
      split at sized
      next =>
        cases sized
        exact absurd unsized.2 reached
      next equity isEquity =>
        split at sized
        next =>
          cases sized
          exact absurd unsized.2 reached
        next positive =>
          split at sized
          next =>
            cases sized
            exact absurd unsized.2 reached
          next cash isCash =>
            obtain ⟨levels, isLevels, sized⟩ := bind_eq_ok.mp sized
            cases levels with
            | none =>
                cases sized
                exact absurd unsized.2 reached
            | some levels =>
                obtain ⟨terms, other, perUnit, sameRules, free, same⟩ :=
                  sizeAtLevels_eq_sizeWithin sized unsized reached
                refine ⟨terms, other, perUnit, by rw [sameRules, isRules], free, ?_⟩
                simp only [if_neg positive, isLevels, bind, Except.bind]
                exact same

theorem planLongEntry_eq_sizeQuoted
    (planned : planLongEntry runtime envelope offer account feeBps = .ok plan)
    (reached : plan.lotQuantity ≠ none) :
    ∃ (quote : Quote) (other : EntryPlan), other.Unsized ∧
      planLongEntry runtime envelope offer account feeBps =
        sizeQuoted runtime envelope offer account feeBps other quote := by
  have planned' := planned
  obtain ⟨_, _, planned⟩ := bind_eq_ok.mp planned
  obtain ⟨_, _, planned⟩ := bind_eq_ok.mp planned
  obtain ⟨_, _, planned⟩ := bind_eq_ok.mp planned
  simp only at planned
  split at planned
  next =>
    cases planned
    exact absurd rfl reached
  next =>
    split at planned
    next =>
      cases planned
      exact absurd rfl reached
    next quote isQuote =>
      exact ⟨quote, _, ⟨rfl, rfl⟩, planned'.trans planned.symm⟩

/-- A plan with a quantity in lots went through the loop. -/
theorem sizingStart_of_lotQuantity
    (planned : planLongEntry runtime envelope offer account feeBps = .ok plan)
    (reached : plan.lotQuantity ≠ none) :
    ∃ start : SizingStart runtime envelope offer account feeBps,
      plan.lotQuantity = some start.quantity := by
  obtain ⟨quote, quoted, quotedFree, asQuoted⟩ := planLongEntry_eq_sizeQuoted planned reached
  have sizedQuoted := asQuoted.symm.trans planned
  obtain ⟨terms, other, perUnit, isRules, free, asSized⟩ :=
    sizeQuoted_eq_sizeWithin sizedQuoted quotedFree reached
  have sized := asSized.symm.trans sizedQuoted
  obtain ⟨candidates, quantity, _, isQuantity, asLoop⟩ := sizeWithin_eq_loop sized free reached
  obtain ⟨_, _, _, lots, _⟩ := sizingLoop_eq_ok _ (by decide) .first (asLoop.symm.trans sized)
  refine ⟨⟨terms, _, candidates, quantity, isRules, isQuantity, ?_,
    (asQuoted.trans asSized).trans asLoop⟩, lots⟩
  exact ⟨free.1, rfl, rfl⟩

end Start

/-! ## Lots -/

def IsLots (rules : PairRules) (quantity : Decimal) : Prop :=
  ∃ lots : ℤ, quantity.toRat = lots * rules.lot.toRat

/-- What a pass is to do: the quantity loses one lot, so it is smaller and still a multiple. -/
structure RemovesOneLot (rules : PairRules) (quantity smaller : Decimal) : Prop where
  oneLess : smaller.toRat = quantity.toRat - rules.lot.toRat
  decreases : smaller.toRat < quantity.toRat
  multiple : IsLots rules smaller

/-- The lots that are left without one have no digit but zeros after those that the context of the
thread holds. -/
def LeavesHeldLots (rules : PairRules) (quantity : Decimal) : Prop :=
  ∃ left : ℕ, quantity.toRat = (left + 1) * rules.lot.toRat ∧
    10 ^ (digitCount left - DecimalContext.default.precision) ∣ left

theorem lot_toRat (rules : PairRules) : rules.lot.toRat = 10 ^ (-rules.lotDecimals : ℤ) := by
  simp [PairRules.lot, lotStep, toRat, magnitude]

theorem lot_pos (rules : PairRules) : 0 < rules.lot.toRat := by
  rw [lot_toRat]
  positivity

/-- A lot has at most 18 decimals. -/
theorem lotDecimals_le {runtime : Runtime} {entry : PairEntry} {rules : PairRules}
    (isRules : parsePairRules runtime entry = .ok rules) : rules.lotDecimals ≤ 18 := by
  cases entry with
  | none => cases isRules
  | some entry =>
      obtain ⟨decimals, isDecimals, isRules⟩ := bind_eq_ok.mp isRules
      obtain ⟨ordermin, _, isRules⟩ := bind_eq_ok.mp isRules
      obtain ⟨costmin, _, isRules⟩ := bind_eq_ok.mp isRules
      obtain ⟨tick, _, made⟩ := bind_eq_ok.mp isRules
      cases made
      obtain ⟨value, _, isDecimals⟩ := bind_eq_ok.mp isDecimals
      cases value with
      | integer number =>
          simp only at isDecimals
          split at isDecimals
          next => cases isDecimals
          next =>
            split at isDecimals
            next => cases isDecimals
            next small =>
              cases isDecimals
              unfold maxPairDecimals at small
              simp only
              omega
      | _ => cases isDecimals

theorem floorToLot_isLots {quantity floored : Decimal} {rules : PairRules}
    (isFloor : floorToLot quantity rules.lotDecimals = .ok floored) : IsLots rules floored := by
  have value := toRat_quantize isFloor
  generalize isRescaled : rescale .floor quantity (lotStep rules.lotDecimals).exponent = rescaled at value
  have exponent : rescaled.exponent = -rules.lotDecimals := by
    rw [← isRescaled]
    unfold rescale
    split <;> rfl
  refine ⟨rescaled.scaled rescaled.exponent, ?_⟩
  rw [value, lot_toRat, ← exponent, scaled_mul rescaled le_rfl]

/-- A pass rounds the number of lots that are left to the digits of the context. -/
theorem pass_eq_fit {terms : SizingTerms} {quantity smaller : Decimal}
    (isPass : Pass terms quantity smaller) (lots : IsLots terms.rules quantity) :
    ∃ left : ℕ, quantity.toRat = (left + 1) * terms.rules.lot.toRat ∧
      ∃ fitted, fit .default ⟨false, left, -terms.rules.lotDecimals⟩ = .ok fitted ∧
        smaller.toRat = fitted.toRat := by
  obtain ⟨count, isCount⟩ := lots
  have positive : 0 < quantity.toRat := by
    have minimum := isPass.minimum
    unfold belowMinimum at minimum
    split at minimum
    next =>
      obtain ⟨_, _, made⟩ := bind_eq_ok.mp minimum
      cases made
    next above =>
      rw [Bool.or_eq_true, not_or, Bool.not_eq_true, Bool.eq_false_iff, ne_eq, le_iff, not_le] at above
      simpa [Paper.zero, toRat_ofNat] using above.1
  have some : 0 < count := by
    rw [isCount] at positive
    exact_mod_cast pos_of_mul_pos_left positive (lot_pos _).le
  have isLeft : (count : ℚ) = ((count - 1).toNat : ℕ) + 1 := by
    have whole : ((count - 1).toNat : ℤ) + 1 = count := by omega
    exact_mod_cast whole.symm
  refine ⟨(count - 1).toNat, by rw [isCount, isLeft], ?_⟩
  obtain ⟨sum, isSum, value⟩ := add_eq_fit .default quantity terms.rules.lot.copyNegate
  have taken := isPass.taken
  unfold sub at taken
  rw [isSum] at taken
  have same : SameValue sum ⟨false, (count - 1).toNat, -terms.rules.lotDecimals⟩ := by
    have leftValue : toRat ⟨false, (count - 1).toNat, -terms.rules.lotDecimals⟩ =
        ((count - 1).toNat : ℕ) * terms.rules.lot.toRat := by
      rw [lot_toRat]
      rfl
    rw [SameValue, value, toRat_copyNegate, leftValue, isCount, isLeft]
    ring
  have alike := fit_alike .default same
  rw [taken] at alike
  generalize fit .default ⟨false, (count - 1).toNat, -terms.rules.lotDecimals⟩ = rounded at alike
  cases alike with
  | ok equal => exact ⟨_, rfl, equal⟩

theorem pass_isLots {terms : SizingTerms} {quantity smaller : Decimal}
    (isPass : Pass terms quantity smaller) (lots : IsLots terms.rules quantity) :
    IsLots terms.rules smaller := by
  obtain ⟨left, _, fitted, isFit, value⟩ := pass_eq_fit isPass lots
  obtain ⟨count, isCount⟩ := fit_multiple (by decide) isFit
  exact ⟨count, by rw [value, isCount, lot_toRat]⟩

/-- Every quantity the loop tries is a multiple of the lot. -/
theorem tried_isLots {terms : SizingTerms} {first : Decimal} (lots : IsLots terms.rules first)
    {passes : ℕ} {quantity : Decimal} (tried : Tried terms first passes quantity) :
    IsLots terms.rules quantity := by
  induction tried with
  | first => exact lots
  | pass _ _ isPass ih => exact pass_isLots isPass ih

theorem pass_exact_iff {terms : SizingTerms} (few : terms.rules.lotDecimals ≤ 18)
    {quantity smaller : Decimal} (isPass : Pass terms quantity smaller)
    (lots : IsLots terms.rules quantity) :
    RemovesOneLot terms.rules quantity smaller ↔ LeavesHeldLots terms.rules quantity := by
  obtain ⟨left, isLeft, fitted, isFit, value⟩ := pass_eq_fit isPass lots
  have held : (DecimalContext.default.etiny : ℤ) ≤ -terms.rules.lotDecimals := by
    have least : DecimalContext.default.etiny = -1000026 := by decide
    omega
  have digits := fit_eq_iff (by decide) held isFit
  have leftValue : toRat ⟨false, left, -terms.rules.lotDecimals⟩ = left * terms.rules.lot.toRat := by
    rw [lot_toRat]
    rfl
  have lot := lot_pos terms.rules
  rw [leftValue, ← value] at digits
  constructor
  · intro removes
    refine ⟨left, isLeft, digits.mp ?_⟩
    rw [removes.oneLess, isLeft]
    ring
  · rintro ⟨other, isOther, whole⟩
    have same : other = left := by
      rw [isLeft, mul_left_inj' lot.ne', add_left_inj] at isOther
      exact_mod_cast isOther.symm
    rw [same] at whole
    have oneLess : smaller.toRat = quantity.toRat - terms.rules.lot.toRat := by
      rw [digits.mpr whole, isLeft]
      ring
    exact ⟨oneLess, by linarith, pass_isLots isPass lots⟩

/-- **A pass removes one lot**: whenever the loop makes a pass, the quantity loses exactly one lot if
and only if the lots that are left have no digit but zeros after the 28th. -/
theorem pass_removes_one_lot (runtime : Runtime) (envelope : Envelope) (offer : EntryOffer)
    (account : SizingAccount) (feeBps : Decimal)
    (start : SizingStart runtime envelope offer account feeBps) (passes : ℕ)
    (quantity smaller : Decimal) (tried : Tried start.terms start.quantity passes quantity)
    (isPass : Pass start.terms quantity smaller) :
    RemovesOneLot start.terms.rules quantity smaller ↔
      LeavesHeldLots start.terms.rules quantity :=
  pass_exact_iff (lotDecimals_le start.rules) isPass
    (tried_isLots (floorToLot_isLots start.floored) tried)

/-! ## Samples -/

def sampleRuntime : Runtime where
  sha256Hex text := text
  digit? char := if char.isDigit then some (char.toNat - 48) else none
  isPrintable _ := true
  parseAware _ := none

/-- 100 USD in the EX-1 envelope. -/
def sampleEnvelope : Envelope :=
  ⟨{ equity := ⟨false, 10000, -2⟩, currency := pyStr "USD" }, by decide +kernel⟩

/-- A pair quoted at one price, with an ATR and the decimals of its lot. -/
def sampleOffer (price atr : Decimal) (lotDecimals : ℤ) : EntryOffer where
  quoteCurrency := "USD"
  bid := .decimal (some price)
  ask := .decimal (some price)
  status := .missing
  atr := .decimal (some atr)
  pairEntry := some [("lot_decimals", .integer lotDecimals), ("ordermin", .integer 0),
    ("costmin", .integer 0), ("tick_size", .decimal (some ⟨false, 1, -18⟩))]

def sampleAccount (equity : Decimal) : SizingAccount := ⟨some equity, some equity, Paper.zero, Paper.zero⟩

def samplePlan (offer : EntryOffer) (equity : Decimal) : Except RiskFailure EntryPlan :=
  planLongEntry sampleRuntime sampleEnvelope offer (sampleAccount equity) (.ofNat 26)

/-- 100.1 USD in lots of 0.01. -/
def plainOffer : EntryOffer := sampleOffer ⟨false, 1001, -1⟩ (.ofNat 1) 2

/-- 0.000000000101 USD in lots of 10^-18. -/
def tinyOffer : EntryOffer := sampleOffer ⟨false, 101, -12⟩ ⟨false, 5, -12⟩ 18

def EntryPlan.lots (plan : EntryPlan) : Option Decimal × ℕ × Option Decimal :=
  (plan.lotQuantity, plan.passes, plan.quantity)

theorem plan_of_map {α : Type} {result : Except RiskFailure EntryPlan} {read : EntryPlan → α} {value : α}
    (check : result.toOption.map read = some value) : ∃ plan, result = .ok plan ∧ read plan = value := by
  obtain ⟨plan, isPlan, same⟩ := Option.map_eq_some_iff.mp check
  cases result with
  | error failure => cases isPlan
  | ok other =>
      cases isPlan
      exact ⟨plan, rfl, same⟩

/-- The start and the quantities of a plan with a quantity in lots. -/
theorem tried_of_lots {runtime : Runtime} {envelope : Envelope} {offer : EntryOffer}
    {account : SizingAccount} {feeBps first last : Decimal} {plan : EntryPlan} {passes : ℕ}
    (planned : planLongEntry runtime envelope offer account feeBps = .ok plan)
    (isLots : plan.lots = (some first, passes, some last)) :
    ∃ start : SizingStart runtime envelope offer account feeBps, start.quantity = first ∧
      Tried start.terms start.quantity passes last := by
  simp only [EntryPlan.lots, Prod.mk.injEq] at isLots
  obtain ⟨isFirst, rfl, isLast⟩ := isLots
  obtain ⟨start, isStart⟩ := sizingStart_of_lotQuantity planned (by simp [isFirst])
  obtain ⟨other, tried, isOther, _⟩ :=
    sizingLoop_eq_ok _ (by decide) .first (start.loops.symm.trans planned)
  rw [isFirst, Option.some_inj] at isStart
  rw [isLast, Option.some_inj] at isOther
  rw [isOther]
  exact ⟨start, isStart.symm, tried⟩

/-- An entry that makes one pass, from 0.08 to 0.07. -/
theorem pass_removes_one_lot_plain :
    ∃ (start : SizingStart sampleRuntime sampleEnvelope plainOffer
        (sampleAccount ⟨false, 10000, -2⟩) (.ofNat 26)) (quantity smaller : Decimal),
      Pass start.terms quantity smaller ∧
        (RemovesOneLot start.terms.rules quantity smaller ↔
          LeavesHeldLots start.terms.rules quantity) := by
  obtain ⟨plan, planned, isLots⟩ := show ∃ plan, samplePlan plainOffer ⟨false, 10000, -2⟩ = .ok plan ∧
      plan.lots = (some ⟨false, 8, -2⟩, 1, some ⟨false, 7, -2⟩) from plan_of_map (by decide +kernel)
  obtain ⟨start, _, tried⟩ := tried_of_lots planned isLots
  cases tried with
  | @pass passes quantity _ tried more isPass =>
      exact ⟨start, quantity, _, isPass, pass_removes_one_lot _ _ _ _ _ start 0 _ _ tried isPass⟩

/-- With 29 digits three passes leave a larger quantity, so one of them did not take a lot off. -/
theorem passes_can_grow :
    ∃ (start : SizingStart sampleRuntime sampleEnvelope tinyOffer
        (sampleAccount ⟨false, 10000, -2⟩) (.ofNat 26)) (passes : ℕ) (quantity smaller : Decimal),
      Tried start.terms start.quantity passes quantity ∧ Pass start.terms quantity smaller ∧
        ¬ RemovesOneLot start.terms.rules quantity smaller := by
  obtain ⟨plan, planned, isLots⟩ := show ∃ plan, samplePlan tinyOffer ⟨false, 10000, -2⟩ = .ok plan ∧
      plan.lots = (some ⟨false, 22824761433311022889857652918, -18⟩, 3,
        some ⟨false, 2282476143331102288985765292, -17⟩) from plan_of_map (by decide +kernel)
  obtain ⟨start, isFirst, tried⟩ := tried_of_lots planned isLots
  by_contra none
  push Not at none
  -- Each pass would leave less.
  have falls : ∀ {passes : ℕ} {quantity : Decimal}, Tried start.terms start.quantity passes quantity →
      quantity.toRat ≤ start.quantity.toRat := by
    intro passes quantity tried
    induction tried with
    | first => exact le_rfl
    | pass before _ isPass ih => exact (none start _ _ _ before isPass).decreases.le.trans ih
  have grown := falls tried
  rw [isFirst, ← le_iff] at grown
  revert grown
  decide +kernel

end CryptoRadar.Risk
