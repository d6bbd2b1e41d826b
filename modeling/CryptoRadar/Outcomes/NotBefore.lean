import CryptoRadar.Outcomes.Labels

/-!
# Waiting for a label

A horizon that is not mature waits for the end of its window, or for the moment at which its best quote is
final. A quote that arrives before then is nearer to the target than the best one, so the wait goes on
only while no valid quote arrives (`not_mature_until`). The first one that does ends it at once.
-/

set_option autoImplicit false

namespace CryptoRadar.Outcomes

open Checked

/-- The second quotes are the first ones, with others that were observed after the moment. -/
def ExtendsAfter (moment : Moment) : Option (List QuoteObservation) → Option (List QuoteObservation) → Prop
  | none, none => True
  | some quotes, some others => quotes.Sublist others ∧ observedBy moment others = observedBy moment quotes
  | _, _ => False

/-- No quote that arrives in this time is valid. -/
def Silent (now later : Moment) (others : List QuoteObservation) : Prop :=
  ∀ quote ∈ others, now < quote.observedAt → quote.observedAt ≤ later → quote.mid = .ok none

section Windows

variable {inside : QuoteObservation → Bool} {now later target windowEnd : Moment}
  {quotes others : List QuoteObservation} {tolerance : ℤ}

/-- Later quotes come after the window up to now. -/
theorem windowQuotes_append (after : now ≤ later) (agree : observedBy now others = observedBy now quotes) :
    windowQuotes inside later others = windowQuotes inside now quotes ++ lateQuotes inside now later others := by
  have nothing : lateQuotes inside now now quotes = [] := by
    refine List.eq_nil_iff_forall_not_mem.mpr fun quote member => ?_
    obtain ⟨_, _, late, early⟩ := mem_lateQuotes.mp member
    exact absurd early (not_le.mpr late)
  rw [sorted_window after, sorted_window le_rfl quotes, agree, nothing, List.append_nil]

theorem firstValid_eq_none : firstValid quotes = .ok none ↔ ∀ quote ∈ quotes, quote.mid = .ok none := by
  induction quotes with
  | nil => exact iff_of_true rfl (List.forall_mem_nil _)
  | cons quote rest ih =>
      rw [firstValid, List.forall_mem_cons]
      cases isMid : quote.mid with
      | error failure => exact iff_of_false (by intro same; cases same) (by rintro ⟨same, -⟩; cases same)
      | ok mid =>
          cases mid with
          | some mid => exact iff_of_false (by intro same; cases same) (by rintro ⟨same, -⟩; cases same)
          | none => exact ih.trans (and_iff_right rfl).symm

/-- The late quotes of a window are all that arrive in this time, when it is over before the window is. -/
theorem silent_iff (lateInside : ∀ quote : QuoteObservation, now < quote.observedAt → quote.observedAt ≤ later →
    inside quote = true) :
    (∀ quote ∈ lateQuotes inside now later others, quote.mid = .ok none) ↔ Silent now later others := by
  constructor
  · intro quiet quote member late seen
    exact quiet quote (mem_lateQuotes.mpr ⟨member, lateInside quote late seen, late, seen⟩)
  · intro silent quote member
    obtain ⟨inOthers, _, late, seen⟩ := mem_lateQuotes.mp member
    exact silent quote inOthers late seen

theorem withoutExit_notBefore {moment : Moment} {window : List QuoteObservation}
    (waits : withoutExit now windowEnd window = .notBefore moment) :
    moment = windowEnd := by
  unfold withoutExit at waits
  split at waits
  next => cases waits; rfl
  next => cases waits

/-- The forward window waits on while no valid quote arrives. -/
theorem forwardExit_waits {moment : Moment} (reached : target ≤ now)
    (chosen : forwardExit target quotes now tolerance = .ok (.notBefore moment)) (after : now ≤ later)
    (before : later < moment) (agree : observedBy now others = observedBy now quotes) :
    (Silent now later others → forwardExit target others later tolerance = .ok (.notBefore moment)) ∧
      (¬ Silent now later others →
        ∀ other, forwardExit target others later tolerance ≠ .ok (.notBefore other)) := by
  unfold forwardExit at chosen ⊢
  obtain ⟨windowEnd, isEnd, chosen⟩ := bind_eq_ok.mp chosen
  obtain ⟨found, isFound, chosen⟩ := bind_eq_ok.mp chosen
  cases found with
  | some pair => cases chosen
  | none =>
      obtain rfl := withoutExit_notBefore (Except.ok.inj chosen)
      have lateInside : ∀ quote : QuoteObservation, now < quote.observedAt → quote.observedAt ≤ later →
          insideForward target moment quote = true := by
        intro quote late seen
        unfold insideForward
        simp [reached.trans late.le, (seen.trans_lt before).le]
      rw [← silent_iff lateInside, isEnd]
      show (_ → firstValid (windowQuotes _ later others) >>= _ = _) ∧
        (_ → ∀ other, firstValid (windowQuotes _ later others) >>= _ ≠ _)
      rw [windowQuotes_append after agree, firstValid_append, isFound]
      show (_ → firstValid _ >>= _ = _) ∧ (_ → ∀ other, firstValid _ >>= _ ≠ _)
      constructor
      · intro silent
        rw [firstValid_eq_none.mpr silent]
        exact congrArg Except.ok (if_pos before)
      · intro loud other waits
        obtain ⟨found, isFound, waits⟩ := bind_eq_ok.mp waits
        cases found with
        | some pair => cases waits
        | none => exact loud (firstValid_eq_none.mp isFound)

/-- Candidates without a mid leave the best quote as it is. -/
theorem considerAll_silent (best : Option (QuoteObservation × Decimal))
    (silent : ∀ quote ∈ quotes, quote.mid = .ok none) :
    quotes.foldlM (consider target) best = .ok best := by
  induction quotes with
  | nil => rfl
  | cons quote rest ih =>
      rw [List.forall_mem_cons] at silent
      rw [List.foldlM_cons, consider, silent.1]
      exact ih silent.2

/-- Of candidates that are all closer than the best quote so far, the best is one of them. -/
theorem considerAll_closer {best after : Option (QuoteObservation × Decimal)}
    (nearer : ∀ quote ∈ quotes, closer target best quote = true)
    (loud : ¬ ∀ quote ∈ quotes, quote.mid = .ok none)
    (folded : quotes.foldlM (consider target) best = .ok after) :
    ∃ pair, after = some pair ∧ pair.1 ∈ quotes := by
  induction quotes with
  | nil => exact absurd (List.forall_mem_nil _) loud
  | cons quote rest ih =>
      rw [List.forall_mem_cons] at nearer loud
      rw [List.foldlM_cons] at folded
      obtain ⟨next, considered, folded⟩ := bind_eq_ok.mp folded
      unfold consider at considered
      cases isMid : quote.mid with
      | error failure =>
          rw [isMid] at considered
          cases considered
      | ok mid =>
          rw [isMid] at considered loud
          cases mid with
          | none =>
              cases considered
              have loudRest : ¬ ∀ quote ∈ rest, quote.mid = .ok none := fun silent => loud ⟨rfl, silent⟩
              obtain ⟨pair, isPair, member⟩ := ih nearer.2 loudRest folded
              exact ⟨pair, isPair, List.mem_cons_of_mem _ member⟩
          | some mid =>
              rw [nearer.1] at considered
              obtain rfl : some (quote, mid) = next := Except.ok.inj considered
              rcases consider_origin folded with same | ⟨pair, isPair, member⟩
              · exact ⟨(quote, mid), same, List.mem_cons_self⟩
              · exact ⟨pair, isPair, List.mem_cons_of_mem _ member⟩

def waitOn (target windowEnd now : Moment) (window : List QuoteObservation) :
    Option (QuoteObservation × Decimal) → Except OutcomeFailure Choice
  | none => .ok (withoutExit now windowEnd window)
  | some (quote, mid) => do
      let availableAt ← require .overflow (target.plus? (distance target quote))
      return if now < availableAt then .notBefore availableAt
        else .final ⟨some (quote, mid), none, availableAt⟩

/-- The symmetric window waits on while no valid quote arrives. -/
theorem symmetricExit_waits {decisionAsOf moment : Moment} (forward : 0 ≤ tolerance)
    (decided : decisionAsOf ≤ target) (reached : target ≤ now)
    (chosen : symmetricExit decisionAsOf target quotes now tolerance = .ok (.notBefore moment))
    (after : now ≤ later) (before : later < moment) (agree : observedBy now others = observedBy now quotes) :
    (Silent now later others →
        symmetricExit decisionAsOf target others later tolerance = .ok (.notBefore moment)) ∧
      (¬ Silent now later others →
        ∀ other, symmetricExit decisionAsOf target others later tolerance ≠ .ok (.notBefore other)) := by
  unfold symmetricExit at chosen ⊢
  obtain ⟨windowStart, isStart, chosen⟩ := bind_eq_ok.mp chosen
  obtain ⟨windowEnd, isEnd, chosen⟩ := bind_eq_ok.mp chosen
  obtain ⟨best, isBest, chosen⟩ := bind_eq_ok.mp chosen
  have starts := Moment.plus?_eq_some.mp (require_eq_ok.mp isStart)
  have ends := Moment.plus?_eq_some.mp (require_eq_ok.mp isEnd)
  rw [isStart, isEnd]
  -- what arrives is in the window and closer, and without it the wait is the same
  obtain ⟨inWindow, nearer, same⟩ : moment ≤ windowEnd ∧
      (∀ quote : QuoteObservation, now < quote.observedAt → quote.observedAt ≤ later →
        closer target best quote = true) ∧
      ∀ window, waitOn target windowEnd later window best = .ok (.notBefore moment) := by
    cases best with
    | none =>
        obtain rfl := withoutExit_notBefore (Except.ok.inj chosen)
        exact ⟨le_rfl, fun _ _ _ => rfl, fun window => congrArg Except.ok (if_pos before)⟩
    | some pair =>
        obtain ⟨availableAt, isAvailable, chosen⟩ := bind_eq_ok.mp chosen
        have available := Moment.plus?_eq_some.mp (require_eq_ok.mp isAvailable)
        have result := Except.ok.inj chosen
        split at result
        next =>
          cases result
          rcases consider_origin isBest with none | ⟨_, isPair, member⟩
          · cases none
          cases isPair
          have inside := (mem_windowQuotes member).1
          unfold insideSymmetric at inside
          simp only [Bool.and_eq_true, decide_eq_true_eq, Moment.le_iff] at inside
          have order := Moment.lt_iff.mp before
          refine ⟨?_, ?_, ?_⟩
          · rw [Moment.le_iff, available]
            unfold distance
            omega
          · intro quote late seen
            have closerBy : distance target quote < distance target pair.1 := by
              rw [Moment.le_iff] at seen reached
              rw [Moment.lt_iff] at late
              unfold distance at available ⊢
              omega
            unfold closer
            simp [closerBy]
          · intro window
            exact bind_eq_ok.mpr ⟨moment, isAvailable, congrArg Except.ok (if_pos before)⟩
        next => cases result
  have lateInside : ∀ quote : QuoteObservation, now < quote.observedAt → quote.observedAt ≤ later →
      insideSymmetric decisionAsOf windowStart windowEnd quote = true := by
    intro quote late seen
    exact insideSymmetric_late (by omega) decided reached late ((seen.trans_lt before).le.trans inWindow)
  show (_ → (windowQuotes _ later others).foldlM (consider target) none >>=
      waitOn target windowEnd later (windowQuotes _ later others) = _) ∧
    (_ → ∀ other, (windowQuotes _ later others).foldlM (consider target) none >>=
      waitOn target windowEnd later (windowQuotes _ later others) ≠ _)
  rw [← silent_iff lateInside]
  generalize isWindow : windowQuotes _ later others = window
  rw [windowQuotes_append after agree] at isWindow
  have folded : window.foldlM (consider target) none =
      (lateQuotes (insideSymmetric decisionAsOf windowStart windowEnd) now later others).foldlM
        (consider target) best := by
    rw [← isWindow, List.foldlM_append, isBest]
    rfl
  rw [folded]
  constructor
  · intro silent
    rw [considerAll_silent best silent]
    exact same window
  · intro loud other waits
    obtain ⟨found, isFound, waits⟩ := bind_eq_ok.mp waits
    have closerAll : ∀ quote ∈ lateQuotes (insideSymmetric decisionAsOf windowStart windowEnd) now later others,
        closer target best quote = true := by
      intro quote member
      obtain ⟨_, _, late, seen⟩ := mem_lateQuotes.mp member
      exact nearer quote late seen
    obtain ⟨pair, rfl, member⟩ := considerAll_closer closerAll loud isFound
    obtain ⟨_, _, late, seen⟩ := mem_lateQuotes.mp member
    obtain ⟨availableAt, isAvailable, waits⟩ := bind_eq_ok.mp waits
    have available := Moment.plus?_eq_some.mp (require_eq_ok.mp isAvailable)
    have arrived : ¬ later < availableAt := by
      rw [not_lt, Moment.le_iff, available]
      rw [Moment.le_iff] at seen reached
      rw [Moment.lt_iff] at late
      unfold distance
      omega
    rw [if_neg arrived] at waits
    cases waits

end Windows

/-! ## The wait of a label -/

/-- What a horizon that is not mature waits through: its target is ahead, or no valid quote arrives. -/
def WaitsThrough (subject : OutcomeSubject) (horizon : Horizon) (now later : Moment)
    (others : Option (List QuoteObservation)) : Prop :=
  (∀ target, subject.targetAt horizon = .ok target → later < target) ∨ Silent now later (others.getD [])

theorem chooseExit_waits {subject : OutcomeSubject} {target now later moment : Moment} {tolerance : ℤ}
    {window : LabelWindow} {quotes others : Option (List QuoteObservation)} (forward : 0 ≤ tolerance)
    (decided : subject.decisionAsOf ≤ target) (reached : target ≤ now)
    (chosen : chooseExit subject target quotes now tolerance window = .ok (.notBefore moment))
    (after : now ≤ later) (before : later < moment) (extended : ExtendsAfter now quotes others) :
    (Silent now later (others.getD []) →
        chooseExit subject target others later tolerance window = .ok (.notBefore moment)) ∧
      (¬ Silent now later (others.getD []) →
        ∀ other, chooseExit subject target others later tolerance window ≠ .ok (.notBefore other)) := by
  cases quotes with
  | none => cases chosen
  | some quotes =>
      cases others with
      | none => cases extended
      | some others =>
          cases window with
          | forward => exact forwardExit_waits reached chosen after before extended.2
          | symmetric => exact symmetricExit_waits forward decided reached chosen after before extended.2

/-- **A horizon that is not mature stays so** before the moment that it names while no valid quote arrives,
and its wait is over when one does. -/
theorem not_mature_until {F : Type} (codec : Codec F) (subject : OutcomeSubject) (horizon : Horizon)
    (tolerance : ℤ) (window : LabelWindow) (quotes : Option (List QuoteObservation)) (now : Moment)
    (subjectId : PyStr) (notBefore : Moment)
    (waiting : labelHorizon codec subject horizon quotes now tolerance window =
      .ok (.notMature subjectId horizon notBefore)) (later : Moment)
    (others : Option (List QuoteObservation)) (after : now ≤ later) (before : later < notBefore)
    (extended : ExtendsAfter now quotes others) :
    (WaitsThrough subject horizon now later others →
        labelHorizon codec subject horizon others later tolerance window =
          .ok (.notMature subjectId horizon notBefore)) ∧
      (¬ WaitsThrough subject horizon now later others → ∀ otherId other,
        labelHorizon codec subject horizon others later tolerance window ≠
          .ok (.notMature otherId horizon other)) := by
  obtain ⟨_, forward, rest⟩ := bind_eq_ok.mp waiting
  have nonneg := ensure_eq_ok.mp forward
  obtain ⟨_, isSubject, rest⟩ := bind_eq_ok.mp rest
  obtain ⟨target, isTarget, rest⟩ := bind_eq_ok.mp rest
  have isLater : WaitsThrough subject horizon now later others ↔
      later < target ∨ Silent now later (others.getD []) := by
    unfold WaitsThrough
    rw [isTarget]
    refine or_congr_left ⟨fun all => all target rfl, ?_⟩
    rintro ahead _ ⟨⟩
    exact ahead
  rw [isLater]
  split at rest
  next ahead =>
    cases rest
    refine ⟨fun _ => ?_, fun not => absurd (.inl before) not⟩
    unfold labelHorizon labelHorizonIn
    rw [ensure_of nonneg, isSubject, isTarget]
    exact if_pos before
  next reached =>
    have fromTarget := not_lt.mp reached
    obtain ⟨choice, isChoice, rest⟩ := bind_eq_ok.mp rest
    cases choice with
    | final exit =>
        obtain ⟨label, _, rest⟩ := bind_eq_ok.mp rest
        cases rest
    | notBefore moment =>
        cases rest
        obtain ⟨waits, ends⟩ := chooseExit_waits nonneg (decisionAsOf_le_targetAt isTarget) fromTarget isChoice
          after before extended
        rw [labelHorizon_of_choice nonneg isSubject isTarget (fromTarget.trans after),
          or_iff_right (not_lt.mpr (fromTarget.trans after))]
        constructor
        · intro silent
          rw [waits silent]
          rfl
        · intro loud otherId other same
          obtain ⟨choice, isChoice, same⟩ := bind_eq_ok.mp same
          cases choice with
          | notBefore moment => exact ends loud moment isChoice
          | final exit =>
              change (finishLabel .default subject horizon subjectId target exit).map Labelled.label = _ at same
              cases isLabel : finishLabel .default subject horizon subjectId target exit with
              | error failure =>
                  rw [isLabel] at same
                  cases same
              | ok label =>
                  rw [isLabel] at same
                  cases same

/-- An empty window of a minute waits for its end. -/
theorem emptyWindow_waits :
    labelHorizon sampleCodec sampleSubject .m15 (some []) (moment 900 (by decide)) (Moment.seconds 60) .forward =
      .ok (.notMature sampleLabel.subjectId .m15 (moment 960 (by decide))) := by
  decide +kernel

/-- With a quote a second later that has no bid, it waits on. -/
theorem not_mature_until_sample :
    labelHorizon sampleCodec sampleSubject .m15
        (some [⟨moment 901 (by decide), none, none, "kraken", kraken_sourced⟩]) (moment 950 (by decide))
        (Moment.seconds 60) .forward =
      .ok (.notMature sampleLabel.subjectId .m15 (moment 960 (by decide))) := by
  refine (not_mature_until sampleCodec sampleSubject .m15 (Moment.seconds 60) .forward (some [])
    (moment 900 (by decide)) _ (moment 960 (by decide)) emptyWindow_waits (moment 950 (by decide))
    (some [⟨moment 901 (by decide), none, none, "kraken", kraken_sourced⟩]) (by decide) (by decide)
    ⟨List.nil_sublist _, rfl⟩).1 (.inr ?_)
  intro quote member _ _
  rw [List.mem_singleton.mp member]
  rfl

/-- With a valid quote a second later, the label is there long before the end of the window. -/
theorem label_before_notBefore :
    ¬ ∀ (subject : OutcomeSubject) (horizon : Horizon) (tolerance : ℤ) (window : LabelWindow)
      (quotes : Option (List QuoteObservation)) (now : Moment) (subjectId : PyStr) (notBefore : Moment),
      labelHorizon sampleCodec subject horizon quotes now tolerance window =
        .ok (.notMature subjectId horizon notBefore) →
      ∀ later others, now ≤ later → later < notBefore → ExtendsAfter now quotes others →
        ∃ otherId other, labelHorizon sampleCodec subject horizon others later tolerance window =
          .ok (.notMature otherId horizon other) := by
  intro always
  obtain ⟨otherId, other, waits⟩ := always sampleSubject .m15 (Moment.seconds 60) .forward (some [])
    (moment 900 (by decide)) _ (moment 960 (by decide)) emptyWindow_waits (moment 901 (by decide))
    (some [sampleQuote (moment 901 (by decide)) (Decimal.ofNat 102)]) (by decide) (by decide)
    ⟨List.nil_sublist _, rfl⟩
  have labelled : labelHorizon sampleCodec sampleSubject .m15
      (some [sampleQuote (moment 901 (by decide)) (Decimal.ofNat 102)]) (moment 901 (by decide))
      (Moment.seconds 60) .forward = .ok (.label { sampleLabel with
        labelAvailableAt := moment 901 (by decide), exitObservedAt := some (moment 901 (by decide)) }) := by
    decide +kernel
  rw [labelled] at waits
  cases waits

end CryptoRadar.Outcomes
