import CryptoRadar.Lib.ExactNumber
import CryptoRadar.Trend.Simulation
import Mathlib.Algebra.BigOperators.Group.List.Basic
import Mathlib.Tactic.LinearCombination

/-!
# The tax lots conserve quantity and cost

`FifoTax.trade` in exact arithmetic. A turn of its loop takes a signed amount from the front lot: either all
of the lot, which goes, or all that is left of the trade, and then the loop is over (`turn_takes`). So the
loop ends (`Loop`), what is left of the trade and the open lots always add up to the same quantity, and the
gains, the cost of the open lots and the value of what is left balance (`turn_keeps`, `loop_keeps`).

Over a sequence of trades the open lots are of one sign and add up to what was traded, and the gains are the
cost of the open lots less what was paid (`fifo_lots_conserve`). A call with the quantity 0 is no trade: its
fee is not counted (`fee_without_quantity`).
-/

set_option autoImplicit false

namespace CryptoRadar.Trend

open Checked ExactNumber

variable {K : Type} [Field K]

/-! ## What is open -/

/-- The quantity of lots. -/
def openQuantity (lots : List (TaxLot K)) : K := (lots.map TaxLot.qty).sum

/-- The cost of lots. -/
def openCost (lots : List (TaxLot K)) : K := (lots.map fun lot => lot.qty * lot.unitCost).sum

/-- The gains of all years. -/
def realizedGains (realized : Dict ℕ K) : K := (realized.map Prod.snd).sum

@[simp] theorem openQuantity_nil : openQuantity ([] : List (TaxLot K)) = 0 := rfl

@[simp] theorem openQuantity_cons (lot : TaxLot K) (lots : List (TaxLot K)) :
    openQuantity (lot :: lots) = lot.qty + openQuantity lots := by
  simp [openQuantity]

@[simp] theorem openQuantity_append (lots others : List (TaxLot K)) :
    openQuantity (lots ++ others) = openQuantity lots + openQuantity others := by
  simp [openQuantity]

@[simp] theorem openCost_nil : openCost ([] : List (TaxLot K)) = 0 := rfl

@[simp] theorem openCost_cons (lot : TaxLot K) (lots : List (TaxLot K)) :
    openCost (lot :: lots) = lot.qty * lot.unitCost + openCost lots := by
  simp [openCost]

@[simp] theorem openCost_append (lots others : List (TaxLot K)) :
    openCost (lots ++ others) = openCost lots + openCost others := by
  simp [openCost]

/-- Replacing the value of a key changes the sum of the values by the difference. -/
theorem sum_replace {dict : Dict ℕ K} (distinct : dict.Distinct) {key : ℕ} {old : K} (value : K)
    (found : dict.get? key = some old) :
    ((dict.map fun item => if item.1 = key then (key, value) else item).map Prod.snd).sum =
      (dict.map Prod.snd).sum - old + value := by
  induction dict with
  | nil => simp [Dict.get?] at found
  | cons item rest ih =>
      obtain ⟨fresh, distinctRest⟩ := List.nodup_cons.mp distinct
      rw [Dict.get?_cons] at found
      by_cases isKey : item.1 = key
      · rw [if_pos isKey] at found
        cases found
        have unchanged : (rest.map fun other => if other.1 = key then (key, value) else other) = rest := by
          conv_rhs => rw [← List.map_id rest]
          refine List.map_congr_left fun other isMem => ?_
          refine if_neg fun isOther => fresh ?_
          rw [isKey, ← isOther]
          exact List.mem_map_of_mem isMem
        rw [List.map_cons, unchanged, if_pos isKey]
        simp only [List.map_cons, List.sum_cons]
        ring
      · rw [if_neg isKey] at found
        have later := ih distinctRest found
        rw [List.map_cons, if_neg isKey]
        simp only [List.map_cons, List.sum_cons, later]
        ring

/-- A gain that is booked adds to the gains of all years. -/
theorem realizedGains_bookGain [LinearOrder K] [IsStrictOrderedRing K] {realized : Dict ℕ K}
    (distinct : realized.Distinct) (year : ℕ) (amount : K) :
    realizedGains (bookGain realized year amount) = realizedGains realized + amount := by
  unfold realizedGains bookGain Dict.assign
  cases found : realized.get? year with
  | none => simp
  | some old =>
      simp only [Option.isSome_some, if_true, Option.getD_some, add_exact]
      rw [sum_replace distinct _ found]
      ring

variable [LinearOrder K]

/-- All lots are long, or all are short. -/
def SameSign (lots : List (TaxLot K)) : Prop :=
  (∀ lot ∈ lots, 0 < lot.qty) ∨ ∀ lot ∈ lots, lot.qty < 0

theorem SameSign.tail {lot : TaxLot K} {lots : List (TaxLot K)} (same : SameSign (lot :: lots)) :
    SameSign lots := by
  rcases same with long | short
  · exact .inl fun other isMem => long other (List.mem_cons_of_mem _ isMem)
  · exact .inr fun other isMem => short other (List.mem_cons_of_mem _ isMem)

theorem SameSign.ne_zero {lot : TaxLot K} {lots : List (TaxLot K)} (same : SameSign (lot :: lots)) :
    lot.qty ≠ 0 := by
  rcases same with long | short
  · exact (long lot List.mem_cons_self).ne'
  · exact (short lot List.mem_cons_self).ne

/-- A lot of the sign of the front lot may take its place. -/
theorem SameSign.replace {lot other : TaxLot K} {lots : List (TaxLot K)} (same : SameSign (lot :: lots))
    (sign : 0 < other.qty ↔ 0 < lot.qty) (nonzero : other.qty ≠ 0) : SameSign (other :: lots) := by
  rcases same with long | short
  · refine .inl (List.forall_mem_cons.mpr ⟨sign.mpr (long lot List.mem_cons_self), ?_⟩)
    exact fun next isMem => long next (List.mem_cons_of_mem _ isMem)
  · refine .inr (List.forall_mem_cons.mpr ⟨?_, ?_⟩)
    · have below := short lot List.mem_cons_self
      exact lt_of_le_of_ne (not_lt.mp fun above => absurd (sign.mp above) (not_lt.mpr below.le)) nonzero
    · exact fun next isMem => short next (List.mem_cons_of_mem _ isMem)

/-- A lot of the sign of the front lot may be added. -/
theorem SameSign.append {lots : List (TaxLot K)} {other : TaxLot K} (same : SameSign lots)
    (nonzero : other.qty ≠ 0) (sign : ∀ lot ∈ lots.head?, (0 < lot.qty ↔ 0 < other.qty)) :
    SameSign (lots ++ [other]) := by
  cases lots with
  | nil =>
      rcases lt_or_gt_of_ne nonzero with below | above
      · exact .inr (by simpa using below)
      · exact .inl (by simpa using above)
  | cons front rest =>
      have isFront := sign front rfl
      rcases same with long | short
      · refine .inl fun lot isMem => ?_
        rcases List.mem_append.mp isMem with isOld | isNew
        · exact long lot isOld
        · rw [List.mem_singleton.mp isNew]
          exact isFront.mp (long front List.mem_cons_self)
      · refine .inr fun lot isMem => ?_
        rcases List.mem_append.mp isMem with isOld | isNew
        · exact short lot isOld
        · rw [List.mem_singleton.mp isNew]
          have notAbove : ¬ 0 < other.qty :=
            fun above => absurd (isFront.mpr above) (not_lt.mpr (short front List.mem_cons_self).le)
          exact lt_of_le_of_ne (not_lt.mp notAbove) nonzero

/-! ## One turn -/

/-- Turns of the loop lead to a state. -/
inductive Reaches (price feeUnit : K) (day : Date) : Matching K → Matching K → Prop
  | here {matching : Matching K} : Reaches price feeUnit day matching matching
  | turn {matching last : Matching K} : matching.continues = true →
      Reaches price feeUnit day (matching.turn price feeUnit day) last →
      Reaches price feeUnit day matching last

/-- The loop ends in a state. -/
def EndsIn (price feeUnit : K) (day : Date) (matching last : Matching K) : Prop :=
  Reaches price feeUnit day matching last ∧ last.continues = false

/-- No residual of a turn is smaller than `LOT_EPSILON` other than zero. The trade and the lot are of
opposite signs, so what remains of one of them is the sum of both, and nothing remains of the other. -/
def CleanTurn (matching : Matching K) : Prop :=
  ∀ lot ∈ matching.lots.head?,
    lot.qty + matching.rest = 0 ∨ lotEpsilon ≤ |lot.qty + matching.rest|

/-- The front lot was held under 365 days. -/
def FreshTurn (day : Date) (matching : Matching K) : Prop :=
  ∀ lot ∈ matching.lots.head?, day.daysSince lot.day < ptExemptHoldingDays

/-- The signed amount that a turn takes from a lot: what is left of the trade, or all of the lot. -/
def takenFrom (lot : TaxLot K) (rest : K) : K := if |rest| ≤ |lot.qty| then -rest else lot.qty

/-- What remains of the lot and of the trade: of one of them nothing, of the other the sum. -/
theorem remains (lot : TaxLot K) (rest : K) :
    lot.qty - takenFrom lot rest = lot.qty + rest ∧ rest + takenFrom lot rest = 0 ∨
      lot.qty - takenFrom lot rest = 0 ∧ rest + takenFrom lot rest = lot.qty + rest := by
  unfold takenFrom
  split
  · exact .inl ⟨by ring, by ring⟩
  · exact .inr ⟨by ring, by ring⟩

/-- The open lots and what is left of the trade. -/
def Matching.total (matching : Matching K) : K := openQuantity matching.lots + matching.rest

/-- What is kept from one state of the loop to a later one. -/
structure Kept (matching last : Matching K) : Prop where
  total : last.total = matching.total
  sameSign : SameSign last.lots
  distinct : last.realized.Distinct

theorem Kept.trans {first second third : Matching K} (before : Kept first second)
    (after : Kept second third) : Kept first third :=
  ⟨after.total.trans before.total, after.sameSign, after.distinct⟩

theorem run_of_stopped (price feeUnit : K) (day : Date) {matching : Matching K}
    (stopped : matching.continues = false) (turns : ℕ) :
    Matching.run price feeUnit day turns matching = matching := by
  cases turns with
  | zero => rfl
  | succ turns => rw [Matching.run, stopped, if_neg Bool.false_ne_true]

variable [IsStrictOrderedRing K]

theorem lotEpsilon_pos : (0 : K) < lotEpsilon := by
  change (0 : K) < (OfScientific.ofScientific 1 true 15 : K)
  norm_num

/-- The state after a turn that takes this amount. -/
def takenState (price feeUnit : K) (day : Date) (lot : TaxLot K) (later : List (TaxLot K)) (rest : K)
    (realized : Dict ℕ K) : Matching K where
  lots := if lot.qty - takenFrom lot rest = 0 then later
    else { lot with qty := lot.qty - takenFrom lot rest } :: later
  rest := rest + takenFrom lot rest
  realized := if day.daysSince lot.day < ptExemptHoldingDays
    then bookGain realized day.ymd.1
      (takenFrom lot rest * (price - lot.unitCost) - |takenFrom lot rest| * feeUnit)
    else realized

/-- The trade and the front lot of a loop that goes on are of opposite signs. -/
theorem opposite_of_continues {lot : TaxLot K} {later : List (TaxLot K)} {rest : K} {realized : Dict ℕ K}
    (continues : Matching.continues ⟨lot :: later, rest, realized⟩ = true) (nonzero : lot.qty ≠ 0) :
    0 < lot.qty ∧ rest < 0 ∨ lot.qty < 0 ∧ 0 < rest := by
  have parts : rest ≠ 0 ∧ (decide (0 < lot.qty) != decide (0 < rest)) = true := by
    simpa [Matching.continues] using continues
  obtain ⟨restNonzero, differ⟩ := parts
  rcases lt_or_gt_of_ne nonzero with below | above
  · right
    have restPos : 0 < rest := by
      by_contra notPos
      simp [not_lt.mpr below.le, notPos] at differ
    exact ⟨below, restPos⟩
  · left
    have notPos : ¬ 0 < rest := by
      intro restPos
      simp [above, restPos] at differ
    exact ⟨above, lt_of_le_of_ne (not_lt.mp notPos) restNonzero⟩

/-- **A turn** takes from the front lot what is left of the trade, or all of the lot. -/
theorem turn_takes (price feeUnit : K) (day : Date) {lot : TaxLot K} {later : List (TaxLot K)} {rest : K}
    {realized : Dict ℕ K} (nonzero : lot.qty ≠ 0)
    (continues : Matching.continues ⟨lot :: later, rest, realized⟩ = true)
    (clean : CleanTurn ⟨lot :: later, rest, realized⟩) :
    Matching.turn price feeUnit day ⟨lot :: later, rest, realized⟩ =
      takenState price feeUnit day lot later rest realized := by
  have opposite := opposite_of_continues continues nonzero
  have takes : (if 0 < lot.qty then 1 else (0 : K) - 1) * min |rest| |lot.qty| = takenFrom lot rest ∧
      min |rest| |lot.qty| = |takenFrom lot rest| := by
    unfold takenFrom
    rcases opposite with ⟨above, below⟩ | ⟨below, above⟩
    · rw [if_pos above, one_mul, abs_of_neg below, abs_of_pos above]
      split
      next within => exact ⟨min_eq_left within, by rw [min_eq_left within, abs_neg, abs_of_neg below]⟩
      next beyond =>
        have reached := (not_le.mp beyond).le
        exact ⟨min_eq_right reached, by rw [min_eq_right reached, abs_of_pos above]⟩
    · rw [if_neg (not_lt.mpr below.le), abs_of_pos above, abs_of_neg below]
      split
      next within =>
        exact ⟨by rw [min_eq_left within]; ring, by rw [min_eq_left within, abs_neg, abs_of_pos above]⟩
      next beyond =>
        have reached := (not_le.mp beyond).le
        exact ⟨by rw [min_eq_right reached]; ring, by rw [min_eq_right reached, abs_of_neg below]⟩
  obtain ⟨isTaken, isSize⟩ := takes
  -- what remains is dropped only where it is zero
  have small (residual : K) (isClean : residual = 0 ∨ lotEpsilon ≤ |residual|) :
      |residual| < lotEpsilon ↔ residual = 0 := by
    constructor
    · intro less
      exact isClean.resolve_right (not_le.mpr less)
    · rintro rfl
      rw [abs_zero]
      exact lotEpsilon_pos
  have cleanSum := clean lot rfl
  have lotSmall : |lot.qty - takenFrom lot rest| < lotEpsilon ↔ lot.qty - takenFrom lot rest = 0 := by
    refine small _ ?_
    rcases remains lot rest with ⟨same, -⟩ | ⟨zero, -⟩
    · rw [same]
      exact cleanSum
    · exact .inl zero
  have restSmall : |rest + takenFrom lot rest| < lotEpsilon ↔ rest + takenFrom lot rest = 0 := by
    refine small _ ?_
    rcases remains lot rest with ⟨-, zero⟩ | ⟨-, same⟩
    · exact .inl zero
    · rw [same]
      exact cleanSum
  simp only [Matching.turn, takenState, lt_exact, zero_exact, one_exact, sub_exact, mul_exact, add_exact,
    abs_exact, smaller_exact, decide_eq_true_eq]
  rw [isTaken, isSize]
  simp only [lotSmall, restSmall]
  congr 1
  split
  next zero => exact zero.symm
  next => rfl

/-! ## The loop -/

/-- The gains less the cost of the open lots and what is left to pay. -/
def Matching.balance (price feeUnit : K) (matching : Matching K) : K :=
  realizedGains matching.realized - openCost matching.lots -
    (matching.rest * price + |matching.rest| * feeUnit)

/-- A turn keeps the total and the sign of the lots, and it takes the lot away or ends the trade. -/
theorem turn_kept (price feeUnit : K) (day : Date) {lot : TaxLot K} {later : List (TaxLot K)} {rest : K}
    {realized : Dict ℕ K} (same : SameSign (lot :: later)) (distinct : realized.Distinct)
    (continues : Matching.continues ⟨lot :: later, rest, realized⟩ = true) :
    Kept ⟨lot :: later, rest, realized⟩
        (takenState price feeUnit day lot later rest realized) ∧
      ((takenState price feeUnit day lot later rest realized).rest = 0 ∨
        (takenState price feeUnit day lot later rest realized).lots = later) := by
  have opposite := opposite_of_continues continues same.ne_zero
  refine ⟨⟨?_, ?_, ?_⟩, ?_⟩
  · unfold Matching.total takenState
    dsimp only
    split
    next zero =>
      rw [openQuantity_cons]
      linear_combination -zero
    next =>
      rw [openQuantity_cons, openQuantity_cons]
      ring
  · unfold takenState
    dsimp only
    split
    next => exact same.tail
    next nonzero =>
      refine same.replace ?_ nonzero
      unfold takenFrom at nonzero ⊢
      dsimp only
      split at nonzero
      next within =>
        rw [if_pos within]
        rcases opposite with ⟨above, below⟩ | ⟨below, above⟩
        · rw [abs_of_neg below, abs_of_pos above] at within
          exact ⟨fun _ => above, fun _ => lt_of_le_of_ne (by linarith) (Ne.symm nonzero)⟩
        · rw [abs_of_pos above, abs_of_neg below] at within
          exact ⟨fun positive => absurd positive (by linarith), fun positive => absurd positive (by linarith)⟩
      next => exact absurd (sub_self lot.qty) nonzero
  · unfold takenState
    dsimp only
    split
    next => exact distinct.assign _ _
    next => exact distinct
  · rcases remains lot rest with ⟨-, zero⟩ | ⟨zero, -⟩
    · exact .inl zero
    · exact .inr (if_pos zero)

/-- The balance of a turn whose lot is taxed is kept. -/
theorem turn_balance (price feeUnit : K) (day : Date) {lot : TaxLot K} {later : List (TaxLot K)} {rest : K}
    {realized : Dict ℕ K} (nonzero : lot.qty ≠ 0) (distinct : realized.Distinct)
    (continues : Matching.continues ⟨lot :: later, rest, realized⟩ = true)
    (fresh : day.daysSince lot.day < ptExemptHoldingDays) :
    Matching.balance price feeUnit (takenState price feeUnit day lot later rest realized) =
      Matching.balance price feeUnit ⟨lot :: later, rest, realized⟩ := by
  have opposite := opposite_of_continues continues nonzero
  have left : |rest + takenFrom lot rest| = |rest| - |takenFrom lot rest| := by
    unfold takenFrom
    split
    next => rw [add_neg_cancel, abs_zero, abs_neg, sub_self]
    next beyond =>
      rcases opposite with ⟨above, below⟩ | ⟨below, above⟩
      · rw [abs_of_neg below, abs_of_pos above] at beyond ⊢
        rw [abs_of_neg (by linarith)]
        ring
      · rw [abs_of_pos above, abs_of_neg below] at beyond ⊢
        rw [abs_of_pos (by linarith)]
        ring
  have cost : openCost (takenState price feeUnit day lot later rest realized).lots =
      openCost (lot :: later) - takenFrom lot rest * lot.unitCost := by
    unfold takenState
    dsimp only
    split
    next zero =>
      rw [openCost_cons]
      linear_combination -lot.unitCost * zero
    next =>
      rw [openCost_cons, openCost_cons]
      ring
  unfold Matching.balance
  rw [cost]
  unfold takenState
  dsimp only
  rw [if_pos fresh, realizedGains_bookGain distinct, left]
  ring

/-- Without anything left of the trade the loop is over. -/
theorem stopped_of_rest {matching : Matching K} (nothing : matching.rest = 0) :
    matching.continues = false := by
  unfold Matching.continues
  split
  · rfl
  · simp [nothing]

/-- **The loop ends**, in the state that the bounded loop gives. It keeps the total, and where every
matched lot is taxed the balance. -/
theorem loop_ends (price feeUnit : K) (day : Date) (lots : List (TaxLot K)) {rest : K}
    {realized : Dict ℕ K} (same : SameSign lots) (distinct : realized.Distinct)
    (clean : ∀ matching, Reaches price feeUnit day ⟨lots, rest, realized⟩ matching →
      matching.continues = true → CleanTurn matching) :
    ∃ last, EndsIn price feeUnit day ⟨lots, rest, realized⟩ last ∧
      Matching.run price feeUnit day (lots.length + 1) ⟨lots, rest, realized⟩ = last ∧
      Kept ⟨lots, rest, realized⟩ last ∧
      ((∀ matching, Reaches price feeUnit day ⟨lots, rest, realized⟩ matching →
          matching.continues = true → FreshTurn day matching) →
        last.balance price feeUnit = Matching.balance price feeUnit ⟨lots, rest, realized⟩) := by
  have stops : ∀ {lots : List (TaxLot K)} {rest : K} {realized : Dict ℕ K}, SameSign lots →
      realized.Distinct → Matching.continues ⟨lots, rest, realized⟩ = false →
      ∃ last, EndsIn price feeUnit day ⟨lots, rest, realized⟩ last ∧
        Matching.run price feeUnit day (lots.length + 1) ⟨lots, rest, realized⟩ = last ∧
        Kept ⟨lots, rest, realized⟩ last ∧
        ((∀ matching, Reaches price feeUnit day ⟨lots, rest, realized⟩ matching →
            matching.continues = true → FreshTurn day matching) →
          last.balance price feeUnit = Matching.balance price feeUnit ⟨lots, rest, realized⟩) := by
    intro lots rest realized same distinct stopped
    exact ⟨_, ⟨.here, stopped⟩, run_of_stopped price feeUnit day stopped _, ⟨rfl, same, distinct⟩,
      fun _ => rfl⟩
  induction lots generalizing rest realized with
  | nil => exact stops same distinct rfl
  | cons lot later ih =>
      cases continues : Matching.continues ⟨lot :: later, rest, realized⟩ with
      | false => exact stops same distinct continues
      | true =>
          have takes := turn_takes price feeUnit day same.ne_zero continues (clean _ .here continues)
          obtain ⟨kept, progress⟩ := turn_kept price feeUnit day same distinct continues
          have balance := turn_balance price feeUnit day same.ne_zero distinct continues
          have first : Matching.run price feeUnit day ((lot :: later).length + 1)
              ⟨lot :: later, rest, realized⟩ = Matching.run price feeUnit day (later.length + 1)
                (takenState price feeUnit day lot later rest realized) := by
            rw [List.length_cons, Matching.run, continues, if_pos rfl, takes]
          have onward : ∀ {matching : Matching K},
              Reaches price feeUnit day (takenState price feeUnit day lot later rest realized) matching →
              Reaches price feeUnit day ⟨lot :: later, rest, realized⟩ matching := by
            intro matching reaches
            rw [← takes] at reaches
            exact .turn continues reaches
          rw [first]
          rcases progress with nothing | popped
          · -- the trade is used up
            have stopped := stopped_of_rest nothing
            refine ⟨_, ⟨onward .here, stopped⟩, run_of_stopped price feeUnit day stopped _, kept, ?_⟩
            intro fresh
            exact balance (fresh _ .here continues lot rfl)
          · -- the lot is used up, and the loop goes on with the later ones
            obtain ⟨after, isAfter⟩ : ∃ after, takenState price feeUnit day lot later rest realized = after :=
              ⟨_, rfl⟩
            rw [isAfter] at kept popped balance onward ⊢
            obtain ⟨afterLots, afterRest, afterRealized⟩ := after
            cases popped
            obtain ⟨last, ⟨reaches, stopped⟩, isLast, keptLater, balanceLater⟩ :=
              ih kept.sameSign kept.distinct fun matching reaches => clean matching (onward reaches)
            refine ⟨last, ⟨onward reaches, stopped⟩, isLast, kept.trans keptLater, fun fresh => ?_⟩
            rw [balanceLater fun matching reaches => fresh matching (onward reaches)]
            exact balance (fresh _ .here continues lot rfl)

/-! ## Trades -/

/-- The arguments of a call of `trade`. -/
structure TradeCall (F : Type) where
  qty : F
  price : F
  feeCost : F
  day : Date

/-- The open lots of an instrument. -/
def FifoTax.lotsOf (taxbook : FifoTax K) (instrument : String) : List (TaxLot K) :=
  (taxbook.lots.get? instrument).getD []

/-- The state in which the loop of a call starts. -/
def TradeCall.start (call : TradeCall K) (taxbook : FifoTax K) (instrument : String) : Matching K :=
  ⟨taxbook.lotsOf instrument, call.qty, taxbook.realized⟩

/-- The fee for one unit. -/
def TradeCall.feeUnit (call : TradeCall K) : K := call.feeCost / |call.qty|

/-- What the call leaves of the trade, as a lot of its own. -/
def TradeCall.opened (call : TradeCall K) (rest : K) : TaxLot K :=
  ⟨rest, call.price + (if 0 < rest then 1 else 0 - 1) * call.feeUnit, call.day⟩

/-- No turn of the call leaves a small residual. -/
def CleanCall (instrument : String) (taxbook : FifoTax K) (call : TradeCall K) : Prop :=
  call.qty ≠ 0 → ∀ matching,
    Reaches call.price call.feeUnit call.day (call.start taxbook instrument) matching →
    matching.continues = true → CleanTurn matching

/-- Every lot that the call matches was held under 365 days. -/
def FreshCall (instrument : String) (taxbook : FifoTax K) (call : TradeCall K) : Prop :=
  call.qty ≠ 0 → ∀ matching,
    Reaches call.price call.feeUnit call.day (call.start taxbook instrument) matching →
    matching.continues = true → FreshTurn call.day matching

/-- The loop of a call comes to its end. -/
def LoopEnds (instrument : String) (taxbook : FifoTax K) (call : TradeCall K) : Prop :=
  call.qty ≠ 0 → ∃ last,
    EndsIn call.price call.feeUnit call.day (call.start taxbook instrument) last

/-- What holds between calls: the open lots are of one sign, and no year has two sums of gains. -/
structure Orderly (instrument : String) (taxbook : FifoTax K) : Prop where
  sameSign : SameSign (taxbook.lotsOf instrument)
  distinct : taxbook.realized.Distinct

/-- The effect of a call. -/
structure Booked (instrument : String) (taxbook : FifoTax K) (call : TradeCall K) (after : FifoTax K) :
    Prop where
  ends : LoopEnds instrument taxbook call
  orderly : Orderly instrument after
  quantity : openQuantity (after.lotsOf instrument) =
    openQuantity (taxbook.lotsOf instrument) + call.qty
  balance : FreshCall instrument taxbook call →
    realizedGains after.realized - openCost (after.lotsOf instrument) =
      realizedGains taxbook.realized - openCost (taxbook.lotsOf instrument) -
        if call.qty = 0 then 0 else call.qty * call.price + call.feeCost

/-- The price of a lot that is opened holds its part of the fee. -/
theorem opened_cost (call : TradeCall K) {rest : K} (nonzero : rest ≠ 0) :
    rest * (call.opened rest).unitCost = rest * call.price + |rest| * call.feeUnit := by
  unfold TradeCall.opened
  dsimp only
  rcases lt_or_gt_of_ne nonzero with below | above
  · rw [if_neg (not_lt.mpr below.le), abs_of_neg below]
    ring
  · rw [if_pos above, abs_of_pos above]
    ring

/-- **A call** returns, and books its quantity and its price. -/
theorem trade_booked (instrument : String) (taxbook : FifoTax K) (call : TradeCall K)
    (orderly : Orderly instrument taxbook) (clean : CleanCall instrument taxbook call) :
    ∃ after, taxbook.trade instrument call.qty call.price call.feeCost call.day = .ok after ∧
      Booked instrument taxbook call after := by
  by_cases zero : call.qty = 0
  · refine ⟨taxbook, ?_, fun nonzero => absurd zero nonzero, orderly, by rw [zero, add_zero], fun _ => ?_⟩
    · simp [FifoTax.trade, zero, pure, Except.pure]
    · rw [if_pos zero, sub_zero]
  obtain ⟨last, ends, isLast, kept, balance⟩ := loop_ends call.price call.feeUnit call.day
    (taxbook.lotsOf instrument) orderly.sameSign orderly.distinct (clean zero)
  have sized : |call.qty| ≠ 0 := abs_ne_zero.mpr zero
  obtain ⟨lots, isLots⟩ : ∃ lots, lots =
      if last.rest = 0 then last.lots else last.lots ++ [call.opened last.rest] := ⟨_, rfl⟩
  have traded : taxbook.trade instrument call.qty call.price call.feeCost call.day =
      .ok ⟨taxbook.lots.assign instrument lots, last.realized⟩ := by
    have isRun : Matching.run call.price (call.feeCost / |call.qty|) call.day
        (((taxbook.lots.get? instrument).getD []).length + 1)
        ⟨(taxbook.lots.get? instrument).getD [], call.qty, taxbook.realized⟩ = last := isLast
    unfold FifoTax.trade
    simp only [abs_exact, divide_of_ne sized, bind, Except.bind, pure,
      Except.pure, isRun, eq_exact, zero_exact, decide_eq_true_eq, lt_exact, one_exact, sub_exact, mul_exact,
      add_exact, isLots]
    exact if_neg zero
  have afterLots : FifoTax.lotsOf ⟨taxbook.lots.assign instrument lots, last.realized⟩ instrument = lots := by
    simp [FifoTax.lotsOf, Dict.get?_assign]
  have quantity : openQuantity lots = openQuantity (taxbook.lotsOf instrument) + call.qty := by
    have total := kept.total
    unfold Matching.total at total
    rw [isLots, ← total]
    split
    next nothing => rw [nothing, add_zero]
    next => simp [TradeCall.opened]
  refine ⟨_, traded, fun _ => ⟨last, ends⟩, ⟨?_, kept.distinct⟩, ?_, fun fresh => ?_⟩
  · rw [afterLots, isLots]
    split
    next => exact kept.sameSign
    next some =>
      refine kept.sameSign.append some fun front isFront => ?_
      have stopped := ends.2
      obtain ⟨lastLots, lastRest, lastRealized⟩ := last
      cases lastLots with
      | nil => cases isFront
      | cons other later =>
          cases isFront
          have same : decide (0 < front.qty) = decide (0 < lastRest) := by
            simpa [Matching.continues, some] using stopped
          simpa [TradeCall.opened] using same
  · rw [afterLots, quantity]
  · rw [afterLots, if_neg zero]
    have balanced := balance (fresh zero)
    have fee : |call.qty| * call.feeUnit = call.feeCost := mul_div_cancel₀ _ sized
    have cost : openCost lots = openCost last.lots +
        (last.rest * call.price + |last.rest| * call.feeUnit) := by
      rw [isLots]
      split
      next nothing => simp [nothing]
      next some => simp [← opened_cost call some, TradeCall.opened]
    unfold Matching.balance at balanced
    rw [fee] at balanced
    rw [cost]
    linear_combination balanced

/-! ## Sequences of trades -/

/-- The trades one after the other. -/
def runCalls {F : Type} [PyFloat F] (instrument : String) (taxbook : FifoTax F)
    (calls : List (TradeCall F)) : Except NumberError (FifoTax F) :=
  calls.foldlM (fun taxbook call =>
    taxbook.trade instrument call.qty call.price call.feeCost call.day) taxbook

/-- Something holds of every call, with the lots it finds. -/
def EveryCall (instrument : String) (holds : FifoTax K → TradeCall K → Prop) :
    FifoTax K → List (TradeCall K) → Prop
  | _, [] => True
  | taxbook, call :: rest => holds taxbook call ∧ ∀ after,
      taxbook.trade instrument call.qty call.price call.feeCost call.day = .ok after →
      EveryCall instrument holds after rest

/-- What the trades cost. -/
def paid (calls : List (TradeCall K)) : K :=
  ((calls.filter fun call => call.qty ≠ 0).map fun call => call.qty * call.price + call.feeCost).sum

/-- The calls from orderly lots on. -/
theorem runCalls_booked (instrument : String) (calls : List (TradeCall K)) {taxbook : FifoTax K}
    (orderly : Orderly instrument taxbook)
    (clean : EveryCall instrument (CleanCall instrument) taxbook calls) :
    ∃ after, runCalls instrument taxbook calls = .ok after ∧
      EveryCall instrument (LoopEnds instrument) taxbook calls ∧ Orderly instrument after ∧
      openQuantity (after.lotsOf instrument) =
        openQuantity (taxbook.lotsOf instrument) + (calls.map TradeCall.qty).sum ∧
      (EveryCall instrument (FreshCall instrument) taxbook calls →
        realizedGains after.realized - openCost (after.lotsOf instrument) =
          realizedGains taxbook.realized - openCost (taxbook.lotsOf instrument) - paid calls) := by
  induction calls generalizing taxbook with
  | nil => exact ⟨taxbook, rfl, trivial, orderly, by simp, fun _ => by simp [paid]⟩
  | cons call rest ih =>
      obtain ⟨cleanHere, cleanLater⟩ := clean
      obtain ⟨next, traded, booked⟩ := trade_booked instrument taxbook call orderly cleanHere
      obtain ⟨after, isAfter, ends, orderlyAfter, quantity, balance⟩ :=
        ih booked.orderly (cleanLater next traded)
      refine ⟨after, ?_, ⟨booked.ends, ?_⟩, orderlyAfter, ?_, ?_⟩
      · exact bind_eq_ok.mpr ⟨next, traded, isAfter⟩
      · intro other otherTraded
        cases traded.symm.trans otherTraded
        exact ends
      · rw [quantity, booked.quantity, List.map_cons, List.sum_cons, add_assoc]
      · rintro ⟨freshHere, freshLater⟩
        rw [balance (freshLater next traded), booked.balance freshHere]
        by_cases zero : call.qty = 0
        · simp [paid, zero]
        · simp only [paid, zero, if_false, List.filter_cons, ne_eq, not_false_eq_true, decide_true, if_true,
            List.map_cons, List.sum_cons]
          ring

/-- **FIFO lots conserve quantity and cost** in exact arithmetic: for every sequence of calls on one
instrument that leaves no residual below `LOT_EPSILON` other than zero, the loop of every call ends, the open
lots are of one sign and add up to what was traded, and, when every matched lot was held under 365 days, the
gains of all years are the signed cost of the open lots less what the calls that trade something paid. -/
theorem fifo_lots_conserve (instrument : String) (calls : List (TradeCall K))
    (clean : EveryCall instrument (CleanCall instrument) FifoTax.empty calls) :
    ∃ taxbook, runCalls instrument FifoTax.empty calls = .ok taxbook ∧
      EveryCall instrument (LoopEnds instrument) FifoTax.empty calls ∧
      SameSign (taxbook.lotsOf instrument) ∧
      openQuantity (taxbook.lotsOf instrument) = (calls.map TradeCall.qty).sum ∧
      (EveryCall instrument (FreshCall instrument) FifoTax.empty calls →
        realizedGains taxbook.realized = openCost (taxbook.lotsOf instrument) - paid calls) := by
  have orderly : Orderly instrument (FifoTax.empty : FifoTax K) :=
    ⟨.inl (List.forall_mem_nil _), List.nodup_nil⟩
  obtain ⟨taxbook, isRun, ends, orderlyAfter, quantity, balance⟩ :=
    runCalls_booked instrument calls orderly clean
  refine ⟨taxbook, isRun, ends, orderlyAfter.sameSign, ?_, fun fresh => ?_⟩
  · simpa [FifoTax.empty, FifoTax.lotsOf, Dict.get?] using quantity
  · have balanced := balance fresh
    simp only [FifoTax.empty, FifoTax.lotsOf, Dict.get?, realizedGains, openCost, List.find?_nil,
      Option.map_none, Option.getD_none, List.map_nil, List.sum_nil, sub_zero, zero_sub] at balanced ⊢
    linear_combination balanced

/-- The days of a purchase and of a sale. -/
def buyDay : Date := ⟨700000, by decide, by decide⟩

def sellDay : Date := ⟨700030, by decide, by decide⟩

/-- A purchase of two units and the sale of them thirty days later. -/
def roundTrip : List (TradeCall ℚ) := [⟨2, 10, 1, buyDay⟩, ⟨-2, 12, 1, sellDay⟩]

theorem fifo_lots_conserve_roundTrip :
    EveryCall "BTC" (CleanCall "BTC") FifoTax.empty roundTrip ∧
      ∃ taxbook, runCalls "BTC" FifoTax.empty roundTrip = .ok taxbook ∧
        EveryCall "BTC" (LoopEnds "BTC") FifoTax.empty roundTrip ∧
        SameSign (taxbook.lotsOf "BTC") ∧
        openQuantity (taxbook.lotsOf "BTC") = (roundTrip.map TradeCall.qty).sum ∧
        (EveryCall "BTC" (FreshCall "BTC") FifoTax.empty roundTrip →
          realizedGains taxbook.realized = openCost (taxbook.lotsOf "BTC") - paid roundTrip) := by
  have clean : EveryCall "BTC" (CleanCall "BTC") FifoTax.empty roundTrip := by
    refine ⟨?_, fun bought isBought => ⟨?_, fun sold isSold => trivial⟩⟩
    · intro _ matching reaches continues
      cases reaches with
      | here => cases continues
      | turn goes _ => cases goes
    · intro _ matching reaches continues
      have isLots : bought.lotsOf "BTC" = [⟨2, 10 + 2⁻¹, buyDay⟩] := by
        simp [FifoTax.trade, bind, Except.bind, pure, Except.pure, FifoTax.empty, Dict.get?, Matching.run,
          Matching.continues, divide_of_ne] at isBought
        subst isBought
        simp [FifoTax.lotsOf, Dict.get?_assign]
      unfold TradeCall.start at reaches
      rw [isLots] at reaches
      have cleanHere (realized : Dict ℕ ℚ) : CleanTurn ⟨[⟨2, 10 + 2⁻¹, buyDay⟩], -2, realized⟩ := by
        intro lot isLot
        cases isLot
        exact .inl (by norm_num)
      cases reaches with
      | here => exact cleanHere _
      | turn goes later =>
          rw [turn_takes _ _ _ (by norm_num) goes (cleanHere _)] at later
          -- the sale is used up by the one lot
          have usedUp (feeUnit : ℚ) (realized : Dict ℕ ℚ) : (takenState (12 : ℚ) feeUnit sellDay
              ⟨2, 10 + 2⁻¹, buyDay⟩ [] (-2) realized).continues = false :=
            stopped_of_rest (by norm_num [takenState, takenFrom])
          cases later with
          | here => exact absurd ((usedUp _ _).symm.trans continues) Bool.false_ne_true
          | turn again _ => exact absurd ((usedUp _ _).symm.trans again) Bool.false_ne_true
  exact ⟨clean, fifo_lots_conserve "BTC" roundTrip clean⟩

/-- The fee of a call with the quantity 0 is not booked: the gains are then not the cost of the open lots
less what all calls paid. -/
theorem fee_without_quantity :
    ¬ ∀ calls : List (TradeCall ℚ), EveryCall "BTC" (CleanCall "BTC") FifoTax.empty calls →
      ∃ taxbook, runCalls "BTC" FifoTax.empty calls = .ok taxbook ∧
        (EveryCall "BTC" (FreshCall "BTC") FifoTax.empty calls →
          realizedGains taxbook.realized = openCost (taxbook.lotsOf "BTC") -
            (calls.map fun call => call.qty * call.price + call.feeCost).sum) := by
  intro conserves
  obtain ⟨taxbook, isRun, balance⟩ := conserves [⟨0, 1, 1, buyDay⟩]
    ⟨fun nonzero => absurd rfl nonzero, fun _ _ => trivial⟩
  have isEmpty : (FifoTax.empty : FifoTax ℚ) = taxbook := by
    simpa [runCalls, FifoTax.trade, pure, Except.pure, bind, Except.bind] using isRun
  subst isEmpty
  have balanced := balance ⟨fun nonzero => absurd rfl nonzero, fun _ _ => trivial⟩
  simp [FifoTax.empty, FifoTax.lotsOf, Dict.get?, realizedGains] at balanced

end CryptoRadar.Trend
