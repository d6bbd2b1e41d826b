import CryptoRadar.Lib.DecimalNearest
import CryptoRadar.Outcomes.Labels

/-!
# Which steps of a label round

`label_horizon` computes the return and the net markout in `OUTCOME_CONTEXT`, but the sign change of a SHORT
is an operation of the thread's own context (`negated`).

The net markout is always the exact difference, rounded once. The gross markout of a SHORT is exactly the
negated return where the context of the thread holds the return of the exit quote (`label_values_exact_iff`):
the number of fifty digits that is nearest to `exit / entry`, less one. A return of more digits than the
context has loses some of them (`short_gross_rounded`).

The exit is told by its window alone (`IsExit`): the first quote with a mid from the target on, or the one
nearest to the target.
-/

set_option autoImplicit false

namespace CryptoRadar.Outcomes

open Checked
open Invocation (Direction)

/-! ## The exit by its window -/

/-- Whether a quote lies in the window of a target. -/
def InWindow (subject : OutcomeSubject) (target : Moment) (tolerance : ℤ) (window : LabelWindow)
    (quote : QuoteObservation) : Prop :=
  quote.observedAt.micros ≤ target.micros + tolerance ∧
    match window with
    | .forward => target ≤ quote.observedAt
    | .symmetric =>
        target.micros - tolerance ≤ quote.observedAt.micros ∧ subject.decisionAsOf < quote.observedAt

instance (subject : OutcomeSubject) (target : Moment) (tolerance : ℤ) (window : LabelWindow) :
    DecidablePred (InWindow subject target tolerance window) := fun quote => by
  unfold InWindow
  cases window <;> infer_instance

/-- Of the quotes with a mid the forward exit is the first; the symmetric one is nearer to the target than
those before it, and none after it is nearer than it (the later of two that are as near). -/
def Precedes (target : Moment) (window : LabelWindow) (quote : QuoteObservation) (mid : Decimal)
    (front back : List QuoteObservation) : Prop :=
  match window with
  | .forward => ∀ earlier ∈ front, earlier.mid = .ok none
  | .symmetric =>
      (∀ earlier ∈ front, ∀ other, earlier.mid = .ok (some other) →
        closer target (some (earlier, other)) quote = true) ∧
      ∀ later ∈ back, ∀ other, later.mid = .ok (some other) →
        closer target (some (quote, mid)) later = false

/-- A quote with this mid is the exit among the quotes of the window, in the order of their times. -/
def IsExit (subject : OutcomeSubject) (target : Moment) (quotes : List QuoteObservation) (now : Moment)
    (tolerance : ℤ) (window : LabelWindow) (mid : Decimal) : Prop :=
  ∃ front quote back, quote.mid = .ok (some mid) ∧ Precedes target window quote mid front back ∧
    windowQuotes (fun quote => InWindow subject target tolerance window quote) now quotes =
      front ++ quote :: back

section Exits

variable {subject : OutcomeSubject} {target now : Moment} {quotes : List QuoteObservation} {tolerance : ℤ}
  {window : LabelWindow}

theorem firstValid_eq_some {quote : QuoteObservation} {mid : Decimal} :
    ∀ {quotes : List QuoteObservation}, firstValid quotes = .ok (some (quote, mid)) →
      ∃ front back, quote.mid = .ok (some mid) ∧ (∀ earlier ∈ front, earlier.mid = .ok none) ∧
        quotes = front ++ quote :: back
  | first :: rest, found => by
      unfold firstValid at found
      split at found
      next => cases found
      next isMid =>
        cases found
        exact ⟨[], rest, isMid, List.forall_mem_nil _, rfl⟩
      next noMid =>
        obtain ⟨front, back, isMid, none, rfl⟩ := firstValid_eq_some found
        exact ⟨first :: front, back, isMid, List.forall_mem_cons.mpr ⟨noMid, none⟩, rfl⟩

theorem closer_iff {best quote : QuoteObservation} {mid : Decimal} :
    closer target (some (best, mid)) quote = true ↔
      distance target quote < distance target best ∨
        (distance target quote = distance target best ∧ best.observedAt < quote.observedAt) := by
  simp [closer]

/-- What is nearer than one is nearer than all that this one is nearer than. -/
theorem closer_trans {first second third : QuoteObservation} {mid other : Decimal}
    (nearer : closer target (some (first, mid)) second = true)
    (nearest : closer target (some (second, other)) third = true) :
    closer target (some (first, mid)) third = true := by
  simp only [closer_iff, Moment.lt_iff] at *
  omega

/-- What is nearer than one is nearer than all that are not nearer than this one. -/
theorem closer_of_not {first second third : QuoteObservation} {mid other : Decimal}
    (notNearer : closer target (some (second, other)) first = false)
    (nearest : closer target (some (second, other)) third = true) :
    closer target (some (first, mid)) third = true := by
  rw [← Bool.not_eq_true] at notNearer
  simp only [closer_iff, Moment.lt_iff] at *
  omega

/-- What the symmetric window has found among its first quotes. -/
def Found (target : Moment) (seen : List QuoteObservation) :
    Option (QuoteObservation × Decimal) → Prop
  | none => ∀ quote ∈ seen, quote.mid = .ok none
  | some (quote, mid) => ∃ front back, quote.mid = .ok (some mid) ∧
      Precedes target .symmetric quote mid front back ∧ seen = front ++ quote :: back

theorem consider_found {seen : List QuoteObservation} {best after : Option (QuoteObservation × Decimal)}
    {quote : QuoteObservation} (found : Found target seen best)
    (considered : consider target best quote = .ok after) : Found target (seen ++ [quote]) after := by
  unfold consider at considered
  split at considered
  next => cases considered
  next noMid =>
    cases considered
    cases best with
    | none => exact List.forall_mem_append.mpr ⟨found, List.forall_mem_singleton.mpr noMid⟩
    | some pair =>
        obtain ⟨front, back, isMid, ⟨before, behind⟩, rfl⟩ := found
        refine ⟨front, back ++ [quote], isMid, ⟨before, ?_⟩, by rw [List.append_assoc]; rfl⟩
        refine List.forall_mem_append.mpr ⟨behind, List.forall_mem_singleton.mpr fun other isOther => ?_⟩
        rw [noMid] at isOther
        cases isOther
  next mid isMid =>
    cases best with
    | none =>
        cases considered
        refine ⟨seen, [], isMid, ⟨fun earlier member other isOther => ?_, List.forall_mem_nil _⟩, rfl⟩
        rw [found earlier member] at isOther
        cases isOther
    | some pair =>
        obtain ⟨best, bestMid⟩ := pair
        obtain ⟨front, back, isBest, ⟨before, behind⟩, rfl⟩ := found
        split at considered
        next nearer =>
          cases considered
          refine ⟨front ++ best :: back, [], isMid, ⟨fun earlier member other isOther => ?_,
            List.forall_mem_nil _⟩, rfl⟩
          rcases List.mem_append.mp member with inFront | inRest
          · exact closer_trans (before earlier inFront other isOther) nearer
          · rcases List.mem_cons.mp inRest with rfl | inBack
            · rw [isBest] at isOther
              cases isOther
              exact nearer
            · exact closer_of_not (behind earlier inBack other isOther) nearer
        next notNearer =>
          cases considered
          refine ⟨front, back ++ [quote], isBest, ⟨before, ?_⟩, by rw [List.append_assoc]; rfl⟩
          refine List.forall_mem_append.mpr ⟨behind, List.forall_mem_singleton.mpr fun other isOther => ?_⟩
          exact Bool.not_eq_true _ ▸ notNearer

theorem fold_found : ∀ {quotes seen : List QuoteObservation} {best after : Option (QuoteObservation × Decimal)},
    Found target seen best → quotes.foldlM (consider target) best = .ok after →
      Found target (seen ++ quotes) after
  | [], seen, best, after, found, folded => by
      cases folded
      rwa [List.append_nil]
  | quote :: rest, seen, best, after, found, folded => by
      rw [List.foldlM_cons] at folded
      obtain ⟨next, considered, folded⟩ := bind_eq_ok.mp folded
      have onward := fold_found (consider_found found considered) folded
      rwa [List.append_assoc] at onward

/-- Without an exit there is no quote. -/
theorem quote_of_withoutExit {windowEnd : Moment} {seen : List QuoteObservation} {exit : Exit}
    (final : withoutExit now windowEnd seen = .final exit) : exit.quote = none := by
  unfold withoutExit at final
  split at final
  next => cases final
  next =>
    cases final
    rfl

/-- The chosen exit is the exit by its window. -/
theorem isExit_of_choice {exit : Exit} {quote : QuoteObservation} {mid : Decimal}
    (chosen : chooseExit subject target (some quotes) now tolerance window = .ok (.final exit))
    (isQuote : exit.quote = some (quote, mid)) : IsExit subject target quotes now tolerance window mid := by
  cases window with
  | forward =>
      obtain ⟨windowEnd, isEnd, chosen⟩ := bind_eq_ok.mp chosen
      obtain ⟨found, isFound, chosen⟩ := bind_eq_ok.mp chosen
      have ends := Moment.plus?_eq_some.mp (require_eq_ok.mp isEnd)
      have sameWindow : insideForward target windowEnd =
          fun quote => decide (InWindow subject target tolerance .forward quote) := by
        funext quote
        simp only [insideForward, InWindow, Moment.le_iff, ends, Bool.decide_and, Bool.and_comm]
      rw [sameWindow] at isFound
      cases found with
      | none =>
          rw [quote_of_withoutExit (Except.ok.inj chosen)] at isQuote
          cases isQuote
      | some pair =>
          cases chosen
          cases isQuote
          obtain ⟨front, back, isMid, none, whole⟩ := firstValid_eq_some isFound
          exact ⟨front, _, back, isMid, none, whole⟩
  | symmetric =>
      obtain ⟨windowStart, isStart, chosen⟩ := bind_eq_ok.mp chosen
      obtain ⟨windowEnd, isEnd, chosen⟩ := bind_eq_ok.mp chosen
      obtain ⟨found, isFound, chosen⟩ := bind_eq_ok.mp chosen
      have starts := Moment.plus?_eq_some.mp (require_eq_ok.mp isStart)
      have ends := Moment.plus?_eq_some.mp (require_eq_ok.mp isEnd)
      have sameWindow : insideSymmetric subject.decisionAsOf windowStart windowEnd =
          fun quote => decide (InWindow subject target tolerance .symmetric quote) := by
        funext quote
        rw [insideSymmetric, ← Bool.decide_and, ← Bool.decide_and, decide_eq_decide]
        simp only [InWindow, Moment.le_iff, starts, ends, ← sub_eq_add_neg]
        tauto
      rw [sameWindow] at isFound
      have start : Found target [] none := List.forall_mem_nil _
      have whole := fold_found start isFound
      cases found with
      | none =>
          rw [quote_of_withoutExit (Except.ok.inj chosen)] at isQuote
          cases isQuote
      | some pair =>
          obtain ⟨availableAt, _, chosen⟩ := bind_eq_ok.mp chosen
          split at chosen
          next => cases chosen
          next =>
            cases chosen
            cases isQuote
            obtain ⟨front, back, isMid, precedes, whole⟩ := whole
            exact ⟨front, _, back, isMid, precedes, whole⟩

/-- There is one exit at most. -/
theorem IsExit.unique {mid other : Decimal} (first : IsExit subject target quotes now tolerance window mid)
    (second : IsExit subject target quotes now tolerance window other) : mid = other := by
  obtain ⟨front, quote, back, isMid, precedes, whole⟩ := first
  obtain ⟨otherFront, otherQuote, otherBack, isOther, otherPrecedes, same⟩ := second
  rw [whole] at same
  -- one of two exits would stand before the other
  have apart {early late : QuoteObservation} {earlyMid lateMid : Decimal}
      {earlyFront earlyBack lateFront lateBack : List QuoteObservation}
      (isEarly : early.mid = .ok (some earlyMid)) (isLate : late.mid = .ok (some lateMid))
      (precedesEarly : Precedes target window early earlyMid earlyFront earlyBack)
      (precedesLate : Precedes target window late lateMid lateFront lateBack)
      (before : early ∈ lateFront) (after : late ∈ earlyBack) : False := by
    cases window with
    | forward =>
        have none := precedesLate early before
        rw [isEarly] at none
        cases none
    | symmetric =>
        have nearer := precedesLate.1 early before earlyMid isEarly
        rw [precedesEarly.2 late after lateMid isLate] at nearer
        cases nearer
  rcases List.append_eq_append_iff.mp same with ⟨between, rfl, rest⟩ | ⟨between, rfl, rest⟩
  · cases between with
    | nil =>
        cases rest
        rw [isMid] at isOther
        cases isOther
        rfl
    | cons next between =>
        cases rest
        exact (apart isMid isOther precedes otherPrecedes (by simp) (by simp)).elim
  · cases between with
    | nil =>
        cases rest
        rw [isMid] at isOther
        cases isOther
        rfl
    | cons next between =>
        cases rest
        exact (apart isOther isMid otherPrecedes precedes (by simp) (by simp)).elim

end Exits

/-! ## The values of a label -/

/-- The context holds the return of an exit over the entry: what is nearest to the quotient, less one, with the
digits of `OUTCOME_CONTEXT`. -/
def ReturnHeld (thread : ThreadContext) (entryMid exitMid : ℚ) : Prop :=
  ∃ share held, Decimal.IsNearest outcomeContext (exitMid / entryMid) share ∧
    Decimal.IsNearest outcomeContext (share - 1) held ∧ thread.Holds held

/-- The context holds the return of the exit, if there is one. -/
def HoldsReturn (thread : ThreadContext) (subject : OutcomeSubject) (horizon : Horizon)
    (quotes : Option (List QuoteObservation)) (now : Moment) (tolerance : ℤ) (window : LabelWindow) : Prop :=
  ∀ given target mid, quotes = some given → subject.targetAt horizon = .ok target →
    IsExit subject target given now tolerance window mid →
      ReturnHeld thread subject.entryMid.toRat mid.toRat

/-- The subject with the direction `LONG`: the same decision at the same entry price. -/
structure AsLong (twin subject : OutcomeSubject) : Prop where
  long : twin.direction = .long
  sameDecision : twin.decisionAsOf = subject.decisionAsOf
  sameEntry : twin.entryMid = subject.entryMid

section Values

variable {F : Type} {thread : ThreadContext} {codec : Codec F} {subject : OutcomeSubject}
  {horizon : Horizon} {quotes : Option (List QuoteObservation)} {now : Moment} {tolerance : ℤ}
  {window : LabelWindow} {label : OutcomeLabel}

/-- A SHORT has the negated market return, which is also that of a LONG, as its gross markout. -/
structure ShortNegates (thread : ThreadContext) (codec : Codec F) (subject : OutcomeSubject)
    (horizon : Horizon) (quotes : Option (List QuoteObservation)) (now : Moment) (tolerance : ℤ)
    (window : LabelWindow) (label : OutcomeLabel) : Prop where
  negates : ∃ marketReturn gross, label.marketReturn = some marketReturn ∧
    label.grossMarkout = some gross ∧ gross.toRat = -marketReturn.toRat
  opposite : ∀ twin twinLabel, AsLong twin subject →
    labelHorizonIn thread codec twin horizon quotes now tolerance window = .ok (.label twinLabel) →
    ∃ gross long, label.grossMarkout = some gross ∧ twinLabel.grossMarkout = some long ∧
      gross.toRat = -long.toRat

/-- The net markout is the gross markout less the recorded cost, rounded once. -/
def NetRoundedOnce (subject : OutcomeSubject) (horizon : Horizon) (label : OutcomeLabel) : Prop :=
  ∀ gross net, label.grossMarkout = some gross → label.netMarkout = some net →
    ∃ cost total, subject.costFor horizon = some cost ∧ cost.totalFraction = some total ∧
      Decimal.IsNearest outcomeContext (gross.toRat - total.toRat) net.toRat

theorem returns_eq_ok {exitMid marketReturn : Decimal} {gross : Option Decimal}
    (isReturns : returns thread subject exitMid = .ok (marketReturn, gross)) :
    (∃ share, Decimal.IsNearest outcomeContext (exitMid.toRat / subject.entryMid.toRat) share ∧
        Decimal.IsNearest outcomeContext (share - 1) marketReturn.toRat) ∧
      match subject.direction with
      | .long => gross = some marketReturn
      | .short => ∃ negative, gross = some negative ∧ thread.neg marketReturn = .ok (some negative)
      | .none => gross = none := by
  obtain ⟨ratio, isRatio, isReturns⟩ := bind_eq_ok.mp isReturns
  obtain ⟨difference, isDifference, isReturns⟩ := bind_eq_ok.mp isReturns
  have ratioValue := Decimal.div_toRat_nearest (by decide) rfl (mapError_eq_ok.mp isRatio)
  have differenceValue := Decimal.sub_toRat_nearest (by decide) rfl (mapError_eq_ok.mp isDifference)
  rw [Decimal.toRat_ofNat, Nat.cast_one] at differenceValue
  have value : ∃ share, Decimal.IsNearest outcomeContext (exitMid.toRat / subject.entryMid.toRat) share ∧
      Decimal.IsNearest outcomeContext (share - 1) difference.toRat :=
    ⟨_, Decimal.isNearest_iff.mpr ratioValue, Decimal.isNearest_iff.mpr differenceValue⟩
  cases isDirection : subject.direction with
  | long =>
      rw [isDirection] at isReturns
      cases isReturns
      exact ⟨value, rfl⟩
  | short =>
      rw [isDirection] at isReturns
      obtain ⟨negative, isNegated, isReturns⟩ := bind_eq_ok.mp isReturns
      cases isReturns
      refine ⟨value, negative, rfl, ?_⟩
      unfold negated at isNegated
      split at isNegated
      next => cases isNegated
      next => cases isNegated
      next isNeg =>
        cases isNegated
        exact isNeg
  | none =>
      rw [isDirection] at isReturns
      cases isReturns
      exact ⟨value, rfl⟩

theorem finishLabel_status {subjectId : PyStr} {target : Moment} {exit : Exit}
    (finished : finishLabel thread subject horizon subjectId target exit = .ok label) :
    label.status = if exit.quote.isSome then .available else .unavailable := by
  obtain ⟨_, _, finished⟩ := bind_eq_ok.mp finished
  obtain ⟨_, _, finished⟩ := bind_eq_ok.mp finished
  cases make_eq_ok finished
  rfl

/-- The values of an available label. -/
theorem finishLabel_available {subjectId : PyStr} {target : Moment} {exit : Exit}
    (finished : finishLabel thread subject horizon subjectId target exit = .ok label)
    (available : label.status = .available) :
    ∃ mid marketReturn gross missing, exit.quote.map Prod.snd = some mid ∧
      returns thread subject mid = .ok (marketReturn, gross) ∧
      netMarkout gross (subject.costFor horizon) = .ok (label.netMarkout, missing) ∧
      label.marketReturn = some marketReturn ∧ label.grossMarkout = gross := by
  obtain ⟨⟨marketReturn, gross⟩, isReturns, finished⟩ := bind_eq_ok.mp finished
  obtain ⟨⟨net, missing⟩, isNet, finished⟩ := bind_eq_ok.mp finished
  cases make_eq_ok finished
  cases isQuote : exit.quote with
  | none => simp [isQuote] at available
  | some found =>
      obtain ⟨quote, mid⟩ := found
      rw [isQuote] at isReturns
      unfold exitReturns at isReturns
      cases computed : returns thread subject mid with
      | error failure =>
          simp only [computed] at isReturns
          cases isReturns
      | ok values =>
          simp only [computed] at isReturns
          cases isReturns
          exact ⟨mid, _, _, missing, rfl, computed, isNet, rfl, rfl⟩

/-- The net markout of a cost that is recorded and complete. -/
theorem netMarkout_eq_ok {gross net : Decimal} {cost : Option RecordedCost}
    {missing : Option MissingReason} (isNet : netMarkout (some gross) cost = .ok (some net, missing)) :
    ∃ recorded total, cost = some recorded ∧ recorded.totalFraction = some total ∧
      Decimal.IsNearest outcomeContext (gross.toRat - total.toRat) net.toRat := by
  unfold netMarkout at isNet
  split at isNet
  next => cases isNet
  next => cases isNet
  next recorded isGross =>
    cases isGross
    split at isNet
    next total _ isTotal =>
      obtain ⟨difference, isDifference, isNet⟩ := bind_eq_ok.mp isNet
      cases isNet
      exact ⟨recorded, total, rfl, isTotal,
        Decimal.isNearest_iff.mpr
          (Decimal.sub_toRat_nearest (by decide) rfl (mapError_eq_ok.mp isDifference))⟩
    next => cases isNet

end Values

/-- What is nearest is held, wherever something nearest is. -/
theorem holds_of_returnHeld {thread : ThreadContext} {entryMid exitMid marketReturn : ℚ}
    (isReturn : ∃ share, Decimal.IsNearest outcomeContext (exitMid / entryMid) share ∧
      Decimal.IsNearest outcomeContext (share - 1) marketReturn) :
    ReturnHeld thread entryMid exitMid ↔ thread.Holds marketReturn := by
  obtain ⟨share, isShare, isReturn⟩ := isReturn
  constructor
  · rintro ⟨other, held, isOther, isHeld, holds⟩
    rw [Decimal.isNearest_iff.mp isOther, ← Decimal.isNearest_iff.mp isShare] at isHeld
    rwa [Decimal.isNearest_iff.mp isReturn, ← Decimal.isNearest_iff.mp isHeld]
  · intro holds
    exact ⟨share, marketReturn, isShare, isReturn, holds⟩

/-- **Where the values of a label are exact.** In every available label the net markout is the gross
markout less the recorded cost, rounded once. The gross markout of a SHORT is exactly the negated market
return, and that of the same subject as a LONG, if and only if the context of the thread holds the return of
the exit quote. -/
theorem label_values_exact_iff {F : Type} (thread : ThreadContext) (codec : Codec F)
    (subject : OutcomeSubject) (horizon : Horizon) (quotes : Option (List QuoteObservation))
    (now : Moment) (tolerance : ℤ) (window : LabelWindow) (label : OutcomeLabel)
    (labelled : labelHorizonIn thread codec subject horizon quotes now tolerance window =
      .ok (.label label))
    (available : label.status = .available) :
    ((subject.direction = .short →
        ShortNegates thread codec subject horizon quotes now tolerance window label) ∧
      NetRoundedOnce subject horizon label) ↔
      (subject.direction = .short → HoldsReturn thread subject horizon quotes now tolerance window) := by
  obtain ⟨_, subjectId, target, exit, _, isTarget, _, chosen, finished⟩ := labelHorizonIn_eq_label labelled
  obtain ⟨mid, marketReturn, gross, missing, isMid, isReturns, isNet, isMarket, isGross⟩ :=
    finishLabel_available finished available
  obtain ⟨value, byDirection⟩ := returns_eq_ok isReturns
  have netRounded : NetRoundedOnce subject horizon label := by
    intro grossValue net hasGross hasNet
    rw [hasNet, ← isGross, hasGross] at isNet
    exact netMarkout_eq_ok isNet
  -- the quote of the exit is that of the window
  obtain ⟨⟨quote, _⟩, isQuote, rfl⟩ := Option.map_eq_some_iff.mp isMid
  cases quotes with
  | none =>
      cases chosen
      cases isQuote
  | some given =>
  have isExit := isExit_of_choice chosen isQuote
  have held : HoldsReturn thread subject horizon (some given) now tolerance window ↔
      thread.Holds marketReturn.toRat := by
    rw [← holds_of_returnHeld value]
    constructor
    · intro holds
      exact holds given target _ rfl isTarget isExit
    · rintro holds other otherTarget otherMid ⟨⟩ isOther exitOther
      rw [isTarget] at isOther
      cases isOther
      rwa [← isExit.unique exitOther]
  rw [held]
  constructor
  · rintro ⟨negates, -⟩ isShort
    obtain ⟨market, negative, hasMarket, hasGross, isNegated⟩ := (negates isShort).negates
    rw [isShort] at byDirection
    obtain ⟨computed, isComputed, isNeg⟩ := byDirection
    cases isMarket.symm.trans hasMarket
    cases (isGross.symm.trans hasGross).symm.trans isComputed
    exact (ThreadContext.neg_exact_iff isNeg).mp isNegated
  · intro holds
    refine ⟨fun isShort => ?_, netRounded⟩
    rw [isShort] at byDirection
    obtain ⟨negative, isNegative, isNeg⟩ := byDirection
    have isNegated := (ThreadContext.neg_exact_iff isNeg).mpr (holds isShort)
    refine ⟨⟨marketReturn, negative, isMarket, isGross.trans isNegative, isNegated⟩, ?_⟩
    intro twin twinLabel asLong twinLabelled
    -- the window chooses the same quote for the LONG
    obtain ⟨_, _, twinTarget, twinExit, _, isTwinTarget, _, twinChosen, twinFinished⟩ :=
      labelHorizonIn_eq_label twinLabelled
    have sameTarget : twinTarget = target := by
      have targets : twin.targetAt horizon = subject.targetAt horizon := by
        unfold OutcomeSubject.targetAt
        rw [asLong.sameDecision]
      rw [targets, isTarget] at isTwinTarget
      exact (Except.ok.inj isTwinTarget).symm
    have sameExit : twinExit = exit := by
      have choices : chooseExit twin target (some given) now tolerance window =
          chooseExit subject target (some given) now tolerance window := by
        unfold chooseExit
        rw [asLong.sameDecision]
      rw [sameTarget, choices, chosen] at twinChosen
      cases twinChosen
      rfl
    rw [sameExit] at twinFinished
    have twinAvailable : twinLabel.status = .available := by
      rw [finishLabel_status twinFinished, ← finishLabel_status finished, available]
    obtain ⟨twinMid, twinReturn, twinGross, _, isTwinMid, isTwinReturns, -, -, isTwinGross⟩ :=
      finishLabel_available twinFinished twinAvailable
    obtain ⟨⟨twinShare, isTwinShare, isTwinValue⟩, twinDirection⟩ := returns_eq_ok isTwinReturns
    rw [asLong.long] at twinDirection
    rw [isMid] at isTwinMid
    cases isTwinMid
    obtain ⟨share, isShare, isValue⟩ := value
    rw [asLong.sameEntry] at isTwinShare
    rw [Decimal.isNearest_iff.mp isTwinShare, ← Decimal.isNearest_iff.mp isShare] at isTwinValue
    refine ⟨negative, twinReturn, isGross.trans isNegative, isTwinGross.trans twinDirection, ?_⟩
    rw [isNegated, Decimal.isNearest_iff.mp isValue, ← Decimal.isNearest_iff.mp isTwinValue]

/-! ## A return of too many digits -/

/-- The sample subject as a SHORT that was entered at this price. -/
def shortSubject (entryMid : Decimal) (positive : Decimal.lt (Decimal.ofNat 0) entryMid = true) :
    OutcomeSubject :=
  { sampleSubject with
    direction := .short
    entryMid := entryMid
    entryPositive := positive
    costsFit := by simp [sampleSubject] }

/-- The JSON text of the identity of a SHORT and its hash; other inputs do not occur. -/
def shortCodec : Codec Unit where
  loads _ := .error .notJson
  dumps _ := some (bytesOf ["\x7b\"arm\":\x7b\"missing\":\"not_recorded\"\x7d,\"base\":\"BTC\",",
    "\"decision\":\x7b\"missing\":\"not_recorded\"\x7d,",
    "\"decision_as_of\":\"1970-01-01T00:00:00.000000+00:00\",", "\"direction\":\"SHORT\",",
    "\"evidence\":\x7b\"missing\":\"not_recorded\"\x7d,", "\"kind\":\"spot\",\"pair\":\"XXBTZUSD\",",
    "\"policy\":\"OUTCOME-1\",\"quote\":\"USD\",", "\"size_unit\":\"BTC\",\"symbol\":\"BTC/USD\",",
    "\"venue\":\"kraken\"\x7d"])
  sha256Hex _ := textOf ["e19a4c6dd6daa4f0", "aa94138ca58a1213", "d7bcc3f2ac221338", "bd09379f54d98950"]
  floatEquals _ _ := false

/-- The label of the short subject at a quote of this mid, with these returns. -/
def shortLabel (exitMid marketReturn gross : Decimal) : OutcomeLabel :=
  { sampleLabel with
    subjectId := pyStr "outcome:sha256:" ++ shortCodec.sha256Hex []
    exitMid := some exitMid
    marketReturn := some marketReturn
    grossMarkout := some gross }

/-- The return `-0.66` is negated exactly. -/
theorem label_values_exact_iff_short :
    ShortNegates .default shortCodec (shortSubject (Decimal.ofNat 300) (by decide)) .m15
      (some [targetQuote]) (moment 900 (by decide)) (Moment.seconds 60) .forward
      (shortLabel (Decimal.ofNat 102) ⟨true, 66, -2⟩ ⟨false, 66, -2⟩) := by
  have labelled : labelHorizonIn .default shortCodec (shortSubject (Decimal.ofNat 300) (by decide)) .m15
      (some [targetQuote]) (moment 900 (by decide)) (Moment.seconds 60) .forward =
        .ok (.label (shortLabel (Decimal.ofNat 102) ⟨true, 66, -2⟩ ⟨false, 66, -2⟩)) := by
    decide +kernel
  have held : ReturnHeld .default 300 102 := by
    have computed : returns .default (shortSubject (Decimal.ofNat 300) (by decide)) (Decimal.ofNat 102) =
        .ok (⟨true, 66, -2⟩, some ⟨false, 66, -2⟩) := by
      decide +kernel
    have value := (returns_eq_ok computed).1
    rw [shortSubject, Decimal.toRat_ofNat, Decimal.toRat_ofNat] at value
    exact (holds_of_returnHeld (by exact_mod_cast value)).mpr
      ⟨-66, -2, by norm_num [Decimal.toRat, Decimal.magnitude], by decide, by decide, by decide⟩
  refine ((label_values_exact_iff .default shortCodec _ .m15 _ _ _ .forward _ labelled rfl).mpr ?_).1 rfl
  rintro _ given target mid ⟨⟩ isTarget ⟨front, quote, back, isMid, _, whole⟩
  -- the only quote of the window has the mid 102
  obtain rfl : quote = targetQuote := by
    have member : quote ∈ front ++ quote :: back := by simp
    rw [← whole] at member
    have given := (List.mem_filter.mp ((List.mem_insertionSort quoteOrder).mp member)).1
    exact List.mem_singleton.mp given
  obtain rfl : mid = Decimal.ofNat 102 := by
    have isTargetMid : targetQuote.mid = .ok (some (Decimal.ofNat 102)) := by decide +kernel
    cases isTargetMid.symm.trans isMid
    rfl
  rw [shortSubject, Decimal.toRat_ofNat, Decimal.toRat_ofNat]
  exact_mod_cast held

/-- From 300 to 101 the market return has fifty digits, and the gross markout of the SHORT only 28. -/
theorem short_gross_rounded :
    ∃ marketReturn gross : Decimal,
      labelHorizonIn .default shortCodec (shortSubject (Decimal.ofNat 300) (by decide)) .m15
        (some [sampleQuote (moment 900 (by decide)) (Decimal.ofNat 101)]) (moment 900 (by decide))
        (Moment.seconds 60) .forward =
          .ok (.label (shortLabel (Decimal.ofNat 101) marketReturn gross)) ∧
      (shortLabel (Decimal.ofNat 101) marketReturn gross).status = .available ∧
      gross.toRat ≠ -marketReturn.toRat := by
  refine ⟨⟨true, 66333333333333333333333333333333333333333333333333, -50⟩,
    ⟨false, 6633333333333333333333333333, -28⟩, by decide +kernel, rfl, ?_⟩
  rw [← Decimal.toRat_copyNegate, Ne, ← Decimal.eq_iff]
  decide +kernel

end CryptoRadar.Outcomes
