import CryptoRadar.Lib.DecimalThread
import CryptoRadar.Lib.Sorting
import CryptoRadar.Outcomes.Domain

/-!
# Labelling a subject at a horizon

`label_horizon` of `domain/outcomes.py`: the exit quote is chosen from the quotes of a window
(`forwardExit`, `symmetricExit`), and the label is computed from the exit (`finishLabel`). All times
are UTC datetimes, as the store reads and writes them: those of one other zone would be compared by
their wall clocks.

`label_final` is the causality of labels. A label is available between its target and the
moment it was made, and it depends on nothing observed after its availability: with any later
quotes, and at any later moment, the same label is returned. The one exception is the
symmetric window, which computes the mid of every quote in it: a later quote whose mid
overflows makes the call raise (`overflowing_quote_raises`).

Both windows are sorted, and the quotes up to a moment come first in the sorted window
whatever follows them (`sorted_window`); the choice is then decided by that front part.
-/

set_option autoImplicit false

namespace CryptoRadar.Outcomes

open Checked
open Invocation (Direction)

/-! ## The exit quote -/

/-- The order of the window: by time, then by source. -/
def quoteOrder (first second : QuoteObservation) : Prop :=
  first.observedAt < second.observedAt ∨
    (first.observedAt = second.observedAt ∧ ¬ second.source < first.source)

instance : DecidableRel quoteOrder := fun _ _ => inferInstanceAs (Decidable (_ ∨ _))

/-- `sorted(quotes, key=lambda q: (q.observed_at, q.source))`. -/
def sortQuotes (quotes : List QuoteObservation) : List QuoteObservation :=
  quotes.insertionSort quoteOrder

/-- The sorted quotes inside the window that were observed by `now`. -/
def windowQuotes (inside : QuoteObservation → Bool) (now : Moment) (quotes : List QuoteObservation) :
    List QuoteObservation :=
  sortQuotes (quotes.filter fun quote => inside quote && quote.observedAt ≤ now)

/-- The exit of a label: the quote with its mid, or the reason that there is none, and the moment
the choice is final. -/
structure Exit where
  quote : Option (QuoteObservation × Decimal)
  missing : Option MissingReason
  availableAt : Moment

/-- There is an exit, or the time before which there is none. -/
inductive Choice where
  | notBefore (moment : Moment)
  | final (exit : Exit)

/-- The first quote with a mid. -/
def firstValid : List QuoteObservation → Except OutcomeFailure (Option (QuoteObservation × Decimal))
  | [] => .ok none
  | quote :: rest =>
      match quote.mid with
      | .error failure => .error failure
      | .ok (some mid) => .ok (some (quote, mid))
      | .ok none => firstValid rest

/-- Without a quote the label waits for the end of its window. -/
def withoutExit (now windowEnd : Moment) (window : List QuoteObservation) : Choice :=
  if now < windowEnd then .notBefore windowEnd
  else .final ⟨none, some (if window.isEmpty then .quoteMissingAtHorizon else .quoteInvalidAtHorizon),
    windowEnd⟩

/-- A quote of the window after the target. -/
def insideForward (target windowEnd : Moment) (quote : QuoteObservation) : Bool :=
  target ≤ quote.observedAt && quote.observedAt ≤ windowEnd

/-- The `FORWARD` exit: the first valid quote from the target on. -/
def forwardExit (target : Moment) (quotes : List QuoteObservation) (now : Moment) (tolerance : ℤ) :
    Except OutcomeFailure Choice := do
  let windowEnd ← require .overflow (target.plus? tolerance)
  let window := windowQuotes (insideForward target windowEnd) now quotes
  match ← firstValid window with
  | some (quote, mid) => return .final ⟨some (quote, mid), none, quote.observedAt⟩
  | none => return withoutExit now windowEnd window

/-- How far a quote is from the target. -/
def distance (target : Moment) (quote : QuoteObservation) : ℤ :=
  (quote.observedAt.micros - target.micros).natAbs

/-- The quote is nearer to the target than the best one, or as near and later. -/
def closer (target : Moment) (best : Option (QuoteObservation × Decimal)) (quote : QuoteObservation) :
    Bool :=
  match best with
  | none => true
  | some (best, _) =>
      distance target quote < distance target best ||
        (distance target quote = distance target best && best.observedAt < quote.observedAt)

/-- One candidate of the symmetric window. -/
def consider (target : Moment) (best : Option (QuoteObservation × Decimal)) (quote : QuoteObservation) :
    Except OutcomeFailure (Option (QuoteObservation × Decimal)) :=
  match quote.mid with
  | .error failure => .error failure
  | .ok none => .ok best
  | .ok (some mid) => .ok (if closer target best quote then some (quote, mid) else best)

/-- A quote of the window around the target, after the decision. -/
def insideSymmetric (decisionAsOf windowStart windowEnd : Moment) (quote : QuoteObservation) : Bool :=
  windowStart ≤ quote.observedAt && quote.observedAt ≤ windowEnd && decisionAsOf < quote.observedAt

/-- `_nearest_exit`: the `SYMMETRIC` exit. -/
def symmetricExit (decisionAsOf target : Moment) (quotes : List QuoteObservation) (now : Moment)
    (tolerance : ℤ) : Except OutcomeFailure Choice := do
  let windowStart ← require .overflow (target.plus? (-tolerance))
  let windowEnd ← require .overflow (target.plus? tolerance)
  let window := windowQuotes (insideSymmetric decisionAsOf windowStart windowEnd) now quotes
  match ← window.foldlM (consider target) none with
  | none => return withoutExit now windowEnd window
  | some (quote, mid) =>
      let availableAt ← require .overflow (target.plus? (distance target quote))
      return if now < availableAt then .notBefore availableAt
        else .final ⟨some (quote, mid), none, availableAt⟩

/-! ## The label -/

/-- `-market_return` in the context of the thread. A label does not take an infinity. -/
def negated (thread : ThreadContext) (marketReturn : Decimal) : Except OutcomeFailure Decimal :=
  match thread.neg marketReturn with
  | .error error => .error (.decimal error)
  | .ok none => .error (.outcome .outOfRange "gross_markout" "must be finite")
  | .ok (some gross) => .ok gross

/-- The return of the exit, and its sign by the direction. The negation is made in the context of
the thread. -/
def returns (thread : ThreadContext) (subject : OutcomeSubject) (exitMid : Decimal) :
    Except OutcomeFailure (Decimal × Option Decimal) := do
  let ratio ← exactOrRounded "market_return" (Decimal.div outcomeContext exitMid subject.entryMid)
  let marketReturn ← exactOrRounded "market_return"
    (Decimal.sub outcomeContext ratio (Decimal.ofNat 1))
  match subject.direction with
  | .long => return (marketReturn, some marketReturn)
  | .short =>
      let gross ← negated thread marketReturn
      return (marketReturn, some gross)
  | .none => return (marketReturn, none)

/-- The market return and the gross markout of an exit; none without a quote. -/
def exitReturns (thread : ThreadContext) (subject : OutcomeSubject)
    (quote : Option (QuoteObservation × Decimal)) :
    Except OutcomeFailure (Option Decimal × Option Decimal) :=
  match quote with
  | none => .ok (none, none)
  | some (_, mid) => (returns thread subject mid).map fun values => (some values.1, values.2)

/-- The return after costs, or why there is none. -/
def netMarkout (gross : Option Decimal) (cost : Option RecordedCost) :
    Except OutcomeFailure (Option Decimal × Option MissingReason) :=
  match gross, cost with
  | none, _ => .ok (none, some .grossUnavailable)
  | some _, none => .ok (none, some .costNotRecorded)
  | some gross, some cost =>
      match cost.status, cost.totalFraction with
      | .complete, some total => do
          let net ← exactOrRounded "net_markout" (Decimal.sub outcomeContext gross total)
          return (some net, none)
      | _, _ => .ok (none, some .costIncomplete)

/-- The label of an exit. -/
def finishLabel (thread : ThreadContext) (subject : OutcomeSubject) (horizon : Horizon) (subjectId : PyStr)
    (target : Moment) (exit : Exit) : Except OutcomeFailure OutcomeLabel := do
  let (marketReturn, gross) ← exitReturns thread subject exit.quote
  let cost := subject.costFor horizon
  let (net, netMissing) ← netMarkout gross cost
  OutcomeLabel.make {
    subjectId := subjectId
    horizon := horizon
    status := if exit.quote.isSome then .available else .unavailable
    targetAt := target
    labelAvailableAt := exit.availableAt
    exitMid := exit.quote.map Prod.snd
    exitObservedAt := exit.quote.map fun found => found.1.observedAt
    exitSource := exit.quote.map fun found => found.1.source
    marketReturn := marketReturn
    marketMissing := exit.missing
    grossMarkout := gross
    grossMissing := if gross.isSome then none
      else if exit.quote.isSome then some .noDirection else exit.missing
    netMarkout := net
    netMissing := netMissing
    costPolicyVersion := cost.map RecordedCost.policyVersion }

/-- A label, or the time before which there is none. -/
inductive Labelled where
  | notMature (subjectId : PyStr) (horizon : Horizon) (notBefore : Moment)
  | label (label : OutcomeLabel)
  deriving DecidableEq

/-- The choice of an exit by the window; without a price source there is none. -/
def chooseExit (subject : OutcomeSubject) (target : Moment) (quotes : Option (List QuoteObservation))
    (now : Moment) (tolerance : ℤ) (window : LabelWindow) : Except OutcomeFailure Choice :=
  match quotes, window with
  | none, _ => .ok (.final ⟨none, some .priceSourceUnsupported, target⟩)
  | some quotes, .forward => forwardExit target quotes now tolerance
  | some quotes, .symmetric => symmetricExit subject.decisionAsOf target quotes now tolerance

/-- Label `subject` at `horizon` as of `now`, or say it is not mature yet, in a thread with this
context. -/
def labelHorizonIn {F : Type} (thread : ThreadContext) (codec : Codec F) (subject : OutcomeSubject)
    (horizon : Horizon) (quotes : Option (List QuoteObservation)) (now : Moment) (tolerance : ℤ)
    (window : LabelWindow) : Except OutcomeFailure Labelled := do
  ensure (0 ≤ tolerance) (.outcome .outOfRange "tolerance" "must be a non-negative timedelta")
  let subjectId ← subjectId codec subject
  let target ← subject.targetAt horizon
  if now < target then return .notMature subjectId horizon target
  else
    match ← chooseExit subject target quotes now tolerance window with
    | .notBefore moment => return .notMature subjectId horizon moment
    | .final exit =>
        let label ← finishLabel thread subject horizon subjectId target exit
        return .label label

/-- `label_horizon` in a thread that has set no context. -/
def labelHorizon {F : Type} (codec : Codec F) (subject : OutcomeSubject) (horizon : Horizon)
    (quotes : Option (List QuoteObservation)) (now : Moment) (tolerance : ℤ) (window : LabelWindow) :
    Except OutcomeFailure Labelled :=
  labelHorizonIn .default codec subject horizon quotes now tolerance window

/-! ## The window up to a moment -/

/-- The quotes observed by a time. -/
def observedBy (moment : Moment) (quotes : List QuoteObservation) : List QuoteObservation :=
  quotes.filter fun quote => quote.observedAt ≤ moment

/-- The part of the window that was observed after the moment. -/
def lateQuotes (inside : QuoteObservation → Bool) (moment now : Moment)
    (quotes : List QuoteObservation) : List QuoteObservation :=
  sortQuotes (quotes.filter fun quote =>
    inside quote && moment < quote.observedAt && quote.observedAt ≤ now)

/-- The window starts with its quotes up to the moment, whatever comes after them. -/
theorem sorted_window {inside : QuoteObservation → Bool} {moment now : Moment}
    (reached : moment ≤ now) (quotes : List QuoteObservation) :
    windowQuotes inside now quotes =
      sortQuotes ((observedBy moment quotes).filter inside) ++ lateQuotes inside moment now quotes := by
  unfold windowQuotes lateQuotes sortQuotes observedBy
  rw [Sorting.insertionSort_split fun quote => decide (quote.observedAt ≤ moment)]
  · rw [List.filter_filter, List.filter_filter, List.filter_filter]
    congr 2
    · refine List.filter_congr fun quote _ => ?_
      by_cases early : quote.observedAt ≤ moment
      · simp [early, early.trans reached]
      · simp [early]
    · refine List.filter_congr fun quote _ => ?_
      by_cases early : quote.observedAt ≤ moment
      · simp [early, not_lt.mpr early]
      · simp [early, not_le.mp early]
  · intro first second early late
    have before : first.observedAt < second.observedAt :=
      lt_of_le_of_lt (by simpa using early) (by simpa using late)
    exact .inl before
  · intro first second early late
    have before : first.observedAt < second.observedAt :=
      lt_of_le_of_lt (by simpa using early) (by simpa using late)
    rintro (after | ⟨same, _⟩)
    · exact lt_asymm before after
    · exact absurd same.symm before.ne

theorem mem_windowQuotes {inside : QuoteObservation → Bool} {now : Moment}
    {quotes : List QuoteObservation} {quote : QuoteObservation}
    (member : quote ∈ windowQuotes inside now quotes) :
    inside quote = true ∧ quote.observedAt ≤ now := by
  have kept := (List.mem_filter.mp ((List.mem_insertionSort quoteOrder).mp member)).2
  simpa using kept

theorem mem_lateQuotes {inside : QuoteObservation → Bool} {moment now : Moment}
    {quotes : List QuoteObservation} {quote : QuoteObservation} :
    quote ∈ lateQuotes inside moment now quotes ↔
      quote ∈ quotes ∧ inside quote = true ∧ moment < quote.observedAt ∧ quote.observedAt ≤ now := by
  unfold lateQuotes sortQuotes
  rw [List.mem_insertionSort, List.mem_filter]
  simp [and_assoc]

/-- At the end of the window nothing of it is late. -/
theorem lateQuotes_eq_nil {inside : QuoteObservation → Bool} {moment now : Moment}
    (ended : ∀ quote, inside quote = true → quote.observedAt ≤ moment)
    (quotes : List QuoteObservation) : lateQuotes inside moment now quotes = [] := by
  refine List.eq_nil_iff_forall_not_mem.mpr fun quote member => ?_
  obtain ⟨_, isInside, late, _⟩ := mem_lateQuotes.mp member
  exact absurd (ended quote isInside) (not_le.mpr late)

/-- A window whose end is reached is the same for all quotes that agree up to its end. -/
theorem windowQuotes_eq {inside : QuoteObservation → Bool} {moment now later : Moment}
    {quotes others : List QuoteObservation}
    (ended : ∀ quote, inside quote = true → quote.observedAt ≤ moment) (reached : moment ≤ now)
    (reachedLater : moment ≤ later) (agree : observedBy moment others = observedBy moment quotes) :
    windowQuotes inside later others = windowQuotes inside now quotes := by
  rw [sorted_window reached, sorted_window reachedLater, agree, lateQuotes_eq_nil ended,
    lateQuotes_eq_nil ended]

/-- No valid quote at the end of the window is final. -/
theorem withoutExit_final {now windowEnd : Moment} {window : List QuoteObservation} {exit : Exit}
    (final : withoutExit now windowEnd window = .final exit) :
    exit.availableAt = windowEnd ∧ windowEnd ≤ now ∧
      ∀ later, windowEnd ≤ later → withoutExit later windowEnd window = .final exit := by
  unfold withoutExit at final ⊢
  split at final
  next => cases final
  next reached =>
    cases final
    refine ⟨rfl, not_lt.mp reached, fun later reachedLater => ?_⟩
    rw [if_neg (not_lt.mpr reachedLater)]

/-! ## The forward window -/

theorem firstValid_append (first second : List QuoteObservation) :
    firstValid (first ++ second) = firstValid first >>= fun found =>
      match found with
      | none => firstValid second
      | some pair => .ok (some pair) := by
  induction first with
  | nil => rfl
  | cons quote rest hyp =>
      rw [List.cons_append, firstValid, firstValid]
      cases quote.mid with
      | error failure => rfl
      | ok value =>
          cases value with
          | none => exact hyp
          | some mid => rfl

theorem mem_of_firstValid {pair : QuoteObservation × Decimal} :
    ∀ {quotes : List QuoteObservation}, firstValid quotes = .ok (some pair) → pair.1 ∈ quotes
  | quote :: rest, found => by
      unfold firstValid at found
      split at found
      next => cases found
      next =>
        cases found
        exact List.mem_cons_self
      next => exact List.mem_cons_of_mem _ (mem_of_firstValid found)

/-- The forward exit is between the target and now, and is the same with any later quotes and at
any later moment. -/
theorem forwardExit_final {target now : Moment} {quotes : List QuoteObservation} {tolerance : ℤ}
    {exit : Exit} (forward : 0 ≤ tolerance)
    (chosen : forwardExit target quotes now tolerance = .ok (.final exit)) :
    target ≤ exit.availableAt ∧ exit.availableAt ≤ now ∧
      ∀ others later, exit.availableAt ≤ later →
        observedBy exit.availableAt others = observedBy exit.availableAt quotes →
          forwardExit target others later tolerance = .ok (.final exit) := by
  unfold forwardExit at chosen ⊢
  obtain ⟨windowEnd, isEnd, chosen⟩ := bind_eq_ok.mp chosen
  obtain ⟨found, isFound, chosen⟩ := bind_eq_ok.mp chosen
  have window := Moment.plus?_eq_some.mp (require_eq_ok.mp isEnd)
  rw [isEnd]
  cases found with
  | none =>
      obtain ⟨available, reached, final⟩ := withoutExit_final (Except.ok.inj chosen)
      refine ⟨?_, available ▸ reached, fun others later reachedLater agree => ?_⟩
      · rw [available, Moment.le_iff]
        omega
      · rw [available] at agree reachedLater
        have ended : ∀ quote, insideForward target windowEnd quote = true →
            quote.observedAt ≤ windowEnd := fun quote isInside => by
          unfold insideForward at isInside
          simp_all
        change firstValid (windowQuotes _ later others) >>= _ = _
        rw [windowQuotes_eq ended reached reachedLater agree, isFound]
        exact congrArg Except.ok (final later reachedLater)
  | some pair =>
      cases chosen
      obtain ⟨isInside, reached⟩ := mem_windowQuotes (mem_of_firstValid isFound)
      have fromTarget : target ≤ pair.1.observedAt := by
        unfold insideForward at isInside
        simp_all
      refine ⟨fromTarget, reached, fun others later reachedLater agree => ?_⟩
      -- The quote found is not late, so it was found among the quotes up to its own time.
      rw [sorted_window reached, firstValid_append] at isFound
      obtain ⟨early, isEarly, isFound⟩ := bind_eq_ok.mp isFound
      cases early with
      | none =>
          obtain ⟨_, _, late, _⟩ := mem_lateQuotes.mp (mem_of_firstValid isFound)
          exact absurd late (lt_irrefl _)
      | some other =>
          cases isFound
          change firstValid (windowQuotes _ later others) >>= _ = _
          rw [sorted_window reachedLater, agree, firstValid_append, isEarly]
          rfl

/-! ## The symmetric window -/

/-- The best quote of more candidates is the one before them or one of them. -/
theorem consider_origin {target : Moment} :
    ∀ {quotes : List QuoteObservation} {best after : Option (QuoteObservation × Decimal)},
      quotes.foldlM (consider target) best = .ok after →
        after = best ∨ ∃ pair, after = some pair ∧ pair.1 ∈ quotes
  | [], best, after, folded => by
      cases folded
      exact .inl rfl
  | quote :: rest, best, after, folded => by
      rw [List.foldlM_cons] at folded
      obtain ⟨next, considered, folded⟩ := bind_eq_ok.mp folded
      rcases consider_origin folded with same | ⟨pair, isPair, member⟩
      · unfold consider at considered
        split at considered
        next => cases considered
        next =>
          cases considered
          exact .inl same
        next mid _ =>
          split at considered
          next =>
            cases considered
            exact .inr ⟨(quote, mid), same, List.mem_cons_self⟩
          next =>
            cases considered
            exact .inl same
      · exact .inr ⟨pair, isPair, List.mem_cons_of_mem _ member⟩

/-- A mid fails with `OUT_OF_RANGE` only. -/
theorem mid_error {quote : QuoteObservation} {failure : OutcomeFailure}
    (failed : quote.mid = .error failure) : ∃ detail, failure = .outcome .outOfRange "mid" detail := by
  unfold QuoteObservation.mid at failed
  split at failed
  next bid ask _ _ =>
    split at failed
    next => cases failed
    next =>
      cases sum : Decimal.add outcomeContext bid ask with
      | error error =>
          rw [sum] at failed
          cases failed
          exact ⟨_, rfl⟩
      | ok total =>
          rw [sum] at failed
          cases half : Decimal.div outcomeContext total (Decimal.ofNat 2) with
          | error error =>
              simp only [half, exactOrRounded, Except.mapError, bind, Except.bind] at failed
              cases failed
              exact ⟨_, rfl⟩
          | ok mid =>
              simp [half, exactOrRounded, Except.mapError, bind, Except.bind, pure, Except.pure] at failed
  next => cases failed

/-- A candidate that is not closer leaves the best quote as it is, or raises. -/
theorem consider_farther {target : Moment} {best : QuoteObservation × Decimal}
    {quote : QuoteObservation} (farther : closer target (some best) quote = false) :
    consider target (some best) quote = quote.mid.map fun _ => some best := by
  unfold consider
  cases quote.mid with
  | error failure => rfl
  | ok value =>
      cases value with
      | none => rfl
      | some mid => simp [farther, Except.map]

/-- So do more of them; they raise where one of them does. -/
theorem considerAll_farther (target : Moment) (best : QuoteObservation × Decimal) :
    ∀ quotes : List QuoteObservation, (∀ quote ∈ quotes, closer target (some best) quote = false) →
      ((∀ quote ∈ quotes, quote.mid.isOk) →
        quotes.foldlM (consider target) (some best) = .ok (some best)) ∧
      ((∃ quote ∈ quotes, ¬ quote.mid.isOk) →
        ∃ detail, quotes.foldlM (consider target) (some best) =
          .error (.outcome .outOfRange "mid" detail))
  | [], _ => by
      refine ⟨fun _ => rfl, ?_⟩
      rintro ⟨quote, member, _⟩
      cases member
  | quote :: rest, farther => by
      obtain ⟨kept, raised⟩ := considerAll_farther target best rest fun later member =>
        farther later (List.mem_cons_of_mem _ member)
      rw [List.foldlM_cons, consider_farther (farther quote List.mem_cons_self)]
      cases isMid : quote.mid with
      | error failure =>
          obtain ⟨detail, rfl⟩ := mid_error isMid
          refine ⟨fun all => ?_, fun _ => ⟨detail, rfl⟩⟩
          have contrary := all quote List.mem_cons_self
          rw [isMid] at contrary
          cases contrary
      | ok value =>
          refine ⟨fun all => kept fun other member => all other (List.mem_cons_of_mem _ member), ?_⟩
          rintro ⟨other, member, fails⟩
          rcases List.mem_cons.mp member with rfl | later
          · rw [isMid] at fails
            exact absurd rfl fails
          · exact raised ⟨other, later, fails⟩

/-- A quote after the availability of the best one is farther from the target. -/
theorem closer_late {target availableAt : Moment} {best : QuoteObservation × Decimal}
    {quote : QuoteObservation}
    (available : availableAt.micros = target.micros + distance target best.1)
    (late : availableAt < quote.observedAt) : closer target (some best) quote = false := by
  have after := Moment.lt_iff.mp late
  have farther : distance target best.1 < distance target quote := by
    unfold distance at available ⊢
    omega
  unfold closer
  simp [not_lt.mpr farther.le, farther.ne']

/-- The best quote of a window is the best of the quotes up to its availability: it is not after
its availability itself, and only late quotes are. -/
theorem considerEarly {target availableAt now : Moment} {inside : QuoteObservation → Bool}
    {quotes : List QuoteObservation} {best : QuoteObservation × Decimal}
    (reached : availableAt ≤ now)
    (available : availableAt.micros = target.micros + distance target best.1)
    (isBest : (windowQuotes inside now quotes).foldlM (consider target) none = .ok (some best)) :
    (sortQuotes ((observedBy availableAt quotes).filter inside)).foldlM (consider target) none =
      .ok (some best) := by
  rw [sorted_window reached, List.foldlM_append] at isBest
  obtain ⟨early, isEarly, isLate⟩ := bind_eq_ok.mp isBest
  rcases consider_origin isLate with same | ⟨other, isOther, member⟩
  · rw [isEarly, same]
  · cases isOther
    obtain ⟨_, _, late, _⟩ := mem_lateQuotes.mp member
    have after := Moment.lt_iff.mp late
    unfold distance at available
    omega

theorem insideSymmetric_ended {decisionAsOf windowStart windowEnd : Moment}
    {quote : QuoteObservation}
    (inside : insideSymmetric decisionAsOf windowStart windowEnd quote = true) :
    quote.observedAt ≤ windowEnd := by
  unfold insideSymmetric at inside
  simp_all

/-- A quote after a moment from the target on is a candidate up to the end of the window. -/
theorem insideSymmetric_late {decisionAsOf target moment windowStart windowEnd : Moment}
    {quote : QuoteObservation} (starts : windowStart.micros ≤ target.micros)
    (decided : decisionAsOf ≤ target) (fromTarget : target ≤ moment)
    (late : moment < quote.observedAt) (inWindow : quote.observedAt ≤ windowEnd) :
    insideSymmetric decisionAsOf windowStart windowEnd quote = true := by
  have afterTarget : target < quote.observedAt := lt_of_le_of_lt fromTarget late
  have started : windowStart ≤ quote.observedAt := (Moment.le_iff.mpr starts).trans afterTarget.le
  unfold insideSymmetric
  simp [started, lt_of_le_of_lt decided afterTarget, inWindow]

/-- A quote after the moment, in the window and observed by `later`, has a mid that overflows. -/
def OverflowsAfter (moment windowEnd later : Moment) (quotes : List QuoteObservation) : Prop :=
  ∃ quote ∈ quotes, moment < quote.observedAt ∧ quote.observedAt ≤ windowEnd ∧
    quote.observedAt ≤ later ∧ ¬ quote.mid.isOk

/-- The best quote is the same with any later quotes, and at any later moment, unless the mid of a
later quote of the window overflows. -/
theorem symmetricBest_later {decisionAsOf target availableAt windowStart windowEnd later : Moment}
    {quotes others : List QuoteObservation} {best : QuoteObservation × Decimal}
    (starts : windowStart.micros ≤ target.micros) (decided : decisionAsOf ≤ target)
    (fromTarget : target ≤ availableAt)
    (available : availableAt.micros = target.micros + distance target best.1)
    (isBest : (sortQuotes ((observedBy availableAt quotes).filter
      (insideSymmetric decisionAsOf windowStart windowEnd))).foldlM (consider target) none =
        .ok (some best))
    (reached : availableAt ≤ later)
    (agree : observedBy availableAt others = observedBy availableAt quotes) :
    (¬ OverflowsAfter availableAt windowEnd later others →
      (windowQuotes (insideSymmetric decisionAsOf windowStart windowEnd) later others).foldlM
        (consider target) none = .ok (some best)) ∧
    (OverflowsAfter availableAt windowEnd later others →
      ∃ detail, (windowQuotes (insideSymmetric decisionAsOf windowStart windowEnd) later
        others).foldlM (consider target) none = .error (.outcome .outOfRange "mid" detail)) := by
  have farther : ∀ quote ∈ lateQuotes (insideSymmetric decisionAsOf windowStart windowEnd)
      availableAt later others, closer target (some best) quote = false :=
    fun quote member => closer_late available (mem_lateQuotes.mp member).2.2.1
  obtain ⟨kept, raised⟩ := considerAll_farther target best _ farther
  rw [sorted_window reached, agree, List.foldlM_append, isBest]
  constructor
  · intro noOverflow
    apply kept
    intro quote member
    obtain ⟨inOthers, isInside, late, seen⟩ := mem_lateQuotes.mp member
    by_contra fails
    exact noOverflow ⟨quote, inOthers, late, insideSymmetric_ended isInside, seen, fails⟩
  · rintro ⟨quote, inOthers, late, inWindow, seen, fails⟩
    have isInside : insideSymmetric decisionAsOf windowStart windowEnd quote = true :=
      insideSymmetric_late starts decided fromTarget late inWindow
    exact raised ⟨quote, mem_lateQuotes.mpr ⟨inOthers, isInside, late, seen⟩, fails⟩

/-- The symmetric exit is between the target and now. With any later quotes, and at any later
moment, it is the same, or the mid of a later quote of the window overflows and that raises. -/
theorem symmetricExit_final {decisionAsOf target windowEnd now : Moment}
    {quotes : List QuoteObservation} {tolerance : ℤ} {exit : Exit} (forward : 0 ≤ tolerance)
    (decided : decisionAsOf ≤ target) (isEnd : target.plus? tolerance = some windowEnd)
    (chosen : symmetricExit decisionAsOf target quotes now tolerance = .ok (.final exit)) :
    target ≤ exit.availableAt ∧ exit.availableAt ≤ now ∧
      ∀ others later, exit.availableAt ≤ later →
        observedBy exit.availableAt others = observedBy exit.availableAt quotes →
          (¬ OverflowsAfter exit.availableAt windowEnd later others →
            symmetricExit decisionAsOf target others later tolerance = .ok (.final exit)) ∧
          (OverflowsAfter exit.availableAt windowEnd later others →
            ∃ detail, symmetricExit decisionAsOf target others later tolerance =
              .error (.outcome .outOfRange "mid" detail)) := by
  unfold symmetricExit at chosen ⊢
  obtain ⟨windowStart, isStart, chosen⟩ := bind_eq_ok.mp chosen
  obtain ⟨same, isSame, chosen⟩ := bind_eq_ok.mp chosen
  cases (require_eq_ok.mp isSame).symm.trans isEnd
  obtain ⟨best, isBest, chosen⟩ := bind_eq_ok.mp chosen
  have starts := Moment.plus?_eq_some.mp (require_eq_ok.mp isStart)
  have ends := Moment.plus?_eq_some.mp isEnd
  rw [isStart, isSame]
  cases best with
  | none =>
      obtain ⟨available, reached, final⟩ := withoutExit_final (Except.ok.inj chosen)
      refine ⟨?_, available ▸ reached, fun others later reachedLater agree => ⟨fun _ => ?_, ?_⟩⟩
      · rw [available, Moment.le_iff]
        omega
      · rw [available] at agree reachedLater
        change (windowQuotes _ later others).foldlM (consider target) none >>= _ = _
        rw [windowQuotes_eq (fun _ => insideSymmetric_ended) reached reachedLater agree, isBest]
        exact congrArg Except.ok (final later reachedLater)
      · rintro ⟨quote, _, late, inWindow, _⟩
        exact absurd inWindow (not_le.mpr (available ▸ late))
  | some pair =>
      obtain ⟨availableAt, isAvailable, chosen⟩ := bind_eq_ok.mp chosen
      have available := Moment.plus?_eq_some.mp (require_eq_ok.mp isAvailable)
      have result := Except.ok.inj chosen
      split at result
      next => cases result
      next notBefore =>
        cases result
        have reached := not_lt.mp notBefore
        have fromTarget : target ≤ availableAt := by
          rw [Moment.le_iff, available]
          unfold distance
          omega
        refine ⟨fromTarget, reached, fun others later reachedLater agree => ?_⟩
        obtain ⟨kept, raised⟩ := symmetricBest_later (by omega) decided fromTarget available
          (considerEarly reached available isBest) reachedLater agree
        constructor
        · intro noOverflow
          change (windowQuotes _ later others).foldlM (consider target) none >>= _ = _
          rw [kept noOverflow]
          change require _ (target.plus? (distance target pair.1)) >>= _ = _
          rw [isAvailable]
          exact congrArg Except.ok (if_neg (not_lt.mpr reachedLater))
        · intro overflows
          obtain ⟨detail, isRaised⟩ := raised overflows
          refine ⟨detail, ?_⟩
          change (windowQuotes _ later others).foldlM (consider target) none >>= _ = _
          rw [isRaised]
          rfl

/-! ## Labels -/

theorem make_eq_ok {given label : OutcomeLabel} (made : given.make = .ok label) : label = given := by
  revert label
  unfold OutcomeLabel.make
  iterate 7 (apply forall_of_bind; intro _)
  rintro _ ⟨⟩
  rfl

theorem finishLabel_times {thread : ThreadContext} {subject : OutcomeSubject} {horizon : Horizon} {subjectId : PyStr}
    {target : Moment} {exit : Exit} {label : OutcomeLabel}
    (finished : finishLabel thread subject horizon subjectId target exit = .ok label) :
    label.targetAt = target ∧ label.labelAvailableAt = exit.availableAt := by
  unfold finishLabel at finished
  obtain ⟨_, _, finished⟩ := bind_eq_ok.mp finished
  obtain ⟨_, _, finished⟩ := bind_eq_ok.mp finished
  cases make_eq_ok finished
  exact ⟨rfl, rfl⟩

/-- A label comes from a final exit of a target that has been reached. -/
theorem labelHorizonIn_eq_label {F : Type} {thread : ThreadContext} {codec : Codec F}
    {subject : OutcomeSubject} {horizon : Horizon} {quotes : Option (List QuoteObservation)} {now : Moment} {tolerance : ℤ}
    {window : LabelWindow} {label : OutcomeLabel}
    (labelled : labelHorizonIn thread codec subject horizon quotes now tolerance window =
      .ok (.label label)) :
    0 ≤ tolerance ∧ ∃ subjectId target exit, Outcomes.subjectId codec subject = .ok subjectId ∧
      subject.targetAt horizon = .ok target ∧ target ≤ now ∧
      chooseExit subject target quotes now tolerance window = .ok (.final exit) ∧
      finishLabel thread subject horizon subjectId target exit = .ok label := by
  obtain ⟨_, forward, labelled⟩ := bind_eq_ok.mp labelled
  obtain ⟨subjectId, isSubject, labelled⟩ := bind_eq_ok.mp labelled
  obtain ⟨target, isTarget, labelled⟩ := bind_eq_ok.mp labelled
  split at labelled
  next => cases labelled
  next reached =>
    obtain ⟨choice, chosen, labelled⟩ := bind_eq_ok.mp labelled
    cases choice with
    | notBefore moment => cases labelled
    | final exit =>
        obtain ⟨made, finished, labelled⟩ := bind_eq_ok.mp labelled
        cases labelled
        exact ⟨ensure_eq_ok.mp forward, subjectId, target, exit, isSubject, isTarget,
          not_lt.mp reached, chosen, finished⟩

/-- Once the target is reached, the label is decided by the choice of the exit. -/
theorem labelHorizon_of_choice {F : Type} {codec : Codec F} {subject : OutcomeSubject}
    {horizon : Horizon} {quotes : Option (List QuoteObservation)} {now target : Moment}
    {tolerance : ℤ} {window : LabelWindow} {subjectId : PyStr} (forward : 0 ≤ tolerance)
    (isSubject : Outcomes.subjectId codec subject = .ok subjectId)
    (isTarget : subject.targetAt horizon = .ok target) (reached : target ≤ now) :
    labelHorizon codec subject horizon quotes now tolerance window =
      chooseExit subject target quotes now tolerance window >>= fun choice =>
        match choice with
        | .notBefore moment => .ok (.notMature subjectId horizon moment)
        | .final exit =>
            (finishLabel .default subject horizon subjectId target exit).map Labelled.label := by
  unfold labelHorizon labelHorizonIn
  rw [ensure_of forward, isSubject, isTarget]
  change (if now < target then _ else _) = _
  rw [if_neg (not_lt.mpr reached)]
  refine bind_congr fun choice => ?_
  cases choice with
  | notBefore moment => rfl
  | final exit => cases finishLabel .default subject horizon subjectId target exit <;> rfl

theorem decisionAsOf_le_targetAt {subject : OutcomeSubject} {horizon : Horizon} {target : Moment}
    (isTarget : subject.targetAt horizon = .ok target) : subject.decisionAsOf ≤ target := by
  have moved := Moment.plus?_eq_some.mp (require_eq_ok.mp isTarget)
  have ahead : 0 ≤ horizon.duration := by cases horizon <;> decide
  rw [Moment.le_iff, moved]
  omega

/-- A later quote of the symmetric window has a mid that overflows. -/
def LaterOverflow (window : LabelWindow) (tolerance : ℤ) (label : OutcomeLabel)
    (quotes : List QuoteObservation) (now : Moment) : Prop :=
  window = .symmetric ∧ ∃ quote ∈ quotes, label.labelAvailableAt < quote.observedAt ∧
    quote.observedAt.micros ≤ label.targetAt.micros + tolerance ∧ quote.observedAt ≤ now ∧
      ¬ quote.mid.isOk

/-- **Labels are causal and final**: a label is available between its target and the moment it was
made. With any later quotes, and at any later moment, it is the same; only where a later quote
of a symmetric window overflows the call raises instead. -/
theorem label_final {F : Type} (codec : Codec F) (subject : OutcomeSubject) (horizon : Horizon)
    (tolerance : ℤ) (window : LabelWindow) (quotes : List QuoteObservation) (now : Moment)
    (label : OutcomeLabel) (labelled :
      labelHorizon codec subject horizon (some quotes) now tolerance window = .ok (.label label)) :
    label.targetAt ≤ label.labelAvailableAt ∧ label.labelAvailableAt ≤ now ∧
      ∀ others later, label.labelAvailableAt ≤ later →
        observedBy label.labelAvailableAt others = observedBy label.labelAvailableAt quotes →
          (¬ LaterOverflow window tolerance label others later →
            labelHorizon codec subject horizon (some others) later tolerance window =
              .ok (.label label)) ∧
          (LaterOverflow window tolerance label others later →
            ∃ detail, labelHorizon codec subject horizon (some others) later tolerance window =
              .error (.outcome .outOfRange "mid" detail)) := by
  obtain ⟨forward, subjectId, target, exit, isSubject, isTarget, reached, chosen, finished⟩ :=
    labelHorizonIn_eq_label labelled
  obtain ⟨isTargetAt, isAvailable⟩ := finishLabel_times finished
  rw [isTargetAt, isAvailable]
  cases window with
  | forward =>
      obtain ⟨after, before, same⟩ := forwardExit_final forward chosen
      refine ⟨after, before, fun others later reachedLater agree => ⟨fun _ => ?_, ?_⟩⟩
      · rw [labelHorizon_of_choice forward isSubject isTarget (after.trans reachedLater)]
        change forwardExit target others later tolerance >>= _ = _
        rw [same others later reachedLater agree]
        exact congrArg (Except.map Labelled.label) finished
      · rintro ⟨isSymmetric, _⟩
        cases isSymmetric
  | symmetric =>
      obtain ⟨windowEnd, isEnd⟩ : ∃ windowEnd, target.plus? tolerance = some windowEnd := by
        obtain ⟨_, _, chosen⟩ := bind_eq_ok.mp chosen
        obtain ⟨windowEnd, isEnd, _⟩ := bind_eq_ok.mp chosen
        exact ⟨windowEnd, require_eq_ok.mp isEnd⟩
      have ends := Moment.plus?_eq_some.mp isEnd
      obtain ⟨after, before, same⟩ :=
        symmetricExit_final forward (decisionAsOf_le_targetAt isTarget) isEnd chosen
      refine ⟨after, before, fun others later reachedLater agree => ?_⟩
      obtain ⟨kept, raised⟩ := same others later reachedLater agree
      have sameOverflow : LaterOverflow .symmetric tolerance label others later ↔
          OverflowsAfter exit.availableAt windowEnd later others := by
        unfold LaterOverflow OverflowsAfter
        rw [isTargetAt, isAvailable, ← ends]
        simp [Moment.le_iff]
      rw [sameOverflow, labelHorizon_of_choice forward isSubject isTarget (after.trans reachedLater)]
      change (_ → symmetricExit subject.decisionAsOf target others later tolerance >>= _ = _) ∧
        (_ → ∃ detail, symmetricExit subject.decisionAsOf target others later tolerance >>= _ = _)
      constructor
      · intro noOverflow
        rw [kept noOverflow]
        exact congrArg (Except.map Labelled.label) finished
      · intro overflows
        obtain ⟨detail, isRaised⟩ := raised overflows
        rw [isRaised]
        exact ⟨detail, rfl⟩

/-! ## A later quote that overflows -/

/-- A time some seconds after the epoch. -/
def moment (seconds : ℕ) (small : seconds ≤ 100000) : Moment :=
  ⟨Moment.seconds seconds, by unfold Moment.least Moment.greatest Moment.seconds; omega⟩

theorem target_soon : 900 ≤ 100000 := by decide

theorem kraken_sourced : requireText "kraken" "QuoteObservation.source" = .ok () := by
  rfl

theorem noCosts_fit : ∀ entry ∈ ([] : List HorizonCost),
    sideOf .long = some entry.cost.side ∧ entry.cost.kind = .spot := by
  simp

/-- A long subject, decided at the epoch. -/
def sampleSubject : OutcomeSubject where
  instrument := ⟨"kraken", "BTC/USD", .spot, "BTC", "USD", "BTC"⟩
  pair := "XXBTZUSD"
  direction := .long
  decisionAsOf := moment 0 (by decide)
  entryMid := Decimal.ofNat 100
  entryObservedAt := moment 0 (by decide)
  evidence := .inr .notRecorded
  decision := none
  arm := none
  costs := []
  entryBefore := le_refl _
  entryPositive := hundred_positive
  costsOnce := List.nodup_nil
  costsFit := noCosts_fit

/-- The JSON text of the subject's identity and its hash; other inputs do not occur. -/
def sampleCodec : Codec Unit where
  loads _ := .error .notJson
  dumps _ := some (bytesOf ["\x7b\"arm\":\x7b\"missing\":\"not_recorded\"\x7d,\"base\":\"BTC\",",
    "\"decision\":\x7b\"missing\":\"not_recorded\"\x7d,",
    "\"decision_as_of\":\"1970-01-01T00:00:00.000000+00:00\",", "\"direction\":\"LONG\",",
    "\"evidence\":\x7b\"missing\":\"not_recorded\"\x7d,", "\"kind\":\"spot\",\"pair\":\"XXBTZUSD\",",
    "\"policy\":\"OUTCOME-1\",\"quote\":\"USD\",", "\"size_unit\":\"BTC\",\"symbol\":\"BTC/USD\",",
    "\"venue\":\"kraken\"\x7d"])
  sha256Hex _ := textOf ["d4c04a804bc1960a", "e5ebe2f9a96e6861", "c4a9b5fc01753516", "74b4296a14ce983c"]
  floatEquals _ _ := false

/-- A quote whose bid and ask are one price. -/
def sampleQuote (observedAt : Moment) (price : Decimal) : QuoteObservation :=
  ⟨observedAt, some price, some price, "kraken", kraken_sourced⟩

/-- A quote at the target. -/
def targetQuote : QuoteObservation := sampleQuote (moment 900 target_soon) (Decimal.ofNat 102)

/-- A second later, a price whose double has no exponent. -/
def hugeQuote : QuoteObservation := sampleQuote (moment 901 (by decide)) ⟨false, 9, 999999⟩

/-- The label of `sampleSubject` on `targetQuote`. -/
def sampleLabel : OutcomeLabel where
  subjectId := pyStr "outcome:sha256:" ++ sampleCodec.sha256Hex []
  horizon := .m15
  status := .available
  targetAt := moment 900 target_soon
  labelAvailableAt := moment 900 target_soon
  exitMid := some (Decimal.ofNat 102)
  exitObservedAt := some (moment 900 target_soon)
  exitSource := some "kraken"
  marketReturn := some ⟨false, 2, -2⟩
  marketMissing := none
  grossMarkout := some ⟨false, 2, -2⟩
  grossMissing := none
  netMarkout := none
  netMissing := some .costNotRecorded
  costPolicyVersion := none

theorem sampleLabel_labelled :
    labelHorizon sampleCodec sampleSubject .m15 (some [targetQuote]) (moment 900 (by decide))
      (Moment.seconds 60) .symmetric = .ok (.label sampleLabel) := by
  decide +kernel

/-- A label that was returned is not returned any more once a later quote overflows. -/
theorem overflowing_quote_raises :
    labelHorizon sampleCodec sampleSubject .m15 (some [targetQuote]) (moment 900 (by decide))
        (Moment.seconds 60) .symmetric = .ok (.label sampleLabel) ∧
      sampleLabel.labelAvailableAt ≤ moment 901 (by decide) ∧
      observedBy sampleLabel.labelAvailableAt [targetQuote, hugeQuote] =
        observedBy sampleLabel.labelAvailableAt [targetQuote] ∧
      labelHorizon sampleCodec sampleSubject .m15 (some [targetQuote, hugeQuote])
        (moment 901 (by decide)) (Moment.seconds 60) .symmetric ≠ .ok (.label sampleLabel) := by
  refine ⟨sampleLabel_labelled, by decide, rfl, ?_⟩
  decide +kernel

/-- In the forward window the label stays, with the same later quote. -/
theorem label_final_sample :
    labelHorizon sampleCodec sampleSubject .m15 (some [targetQuote]) (moment 900 (by decide))
        (Moment.seconds 60) .forward = .ok (.label sampleLabel) ∧
      labelHorizon sampleCodec sampleSubject .m15 (some [targetQuote, hugeQuote])
        (moment 901 (by decide)) (Moment.seconds 60) .forward = .ok (.label sampleLabel) := by
  have labelled : labelHorizon sampleCodec sampleSubject .m15 (some [targetQuote])
      (moment 900 (by decide)) (Moment.seconds 60) .forward = .ok (.label sampleLabel) := by
    decide +kernel
  obtain ⟨_, _, same⟩ := label_final sampleCodec sampleSubject .m15 (Moment.seconds 60) .forward
    [targetQuote] (moment 900 (by decide)) sampleLabel labelled
  have notSymmetric : ¬ LaterOverflow .forward (Moment.seconds 60) sampleLabel
      [targetQuote, hugeQuote] (moment 901 (by decide)) := by
    rintro ⟨isSymmetric, _⟩
    cases isSymmetric
  exact ⟨labelled, (same [targetQuote, hugeQuote] (moment 901 (by decide)) (by decide) rfl).1
    notSymmetric⟩

end CryptoRadar.Outcomes
