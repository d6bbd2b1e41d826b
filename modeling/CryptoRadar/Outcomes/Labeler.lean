import CryptoRadar.Outcomes.Store
import Mathlib.Data.Prod.Lex

/-!
# The labeler and the rule of the domain

The labeler reads the quotes of a window only, the domain's rule takes any quotes. Both windows
are made of the same quotes (`spotQuotes_window`), because the bounds of the text selection are
a minute further out than the window and a time text begins with its minute.
-/

set_option autoImplicit false

namespace CryptoRadar.Outcomes

open Checked

/-! ## The choice depends on the window -/

/-- What the window is ordered by. -/
def QuoteObservation.key (quote : QuoteObservation) : Lex (Moment × String) :=
  toLex (quote.observedAt, quote.source)

theorem quoteOrder_eq : quoteOrder = fun first second => first.key ≤ second.key := by
  funext first second
  rw [quoteOrder, QuoteObservation.key, QuoteObservation.key, Prod.Lex.toLex_le_toLex, not_lt]

theorem sortQuotes_eq_of_perm {first second : List QuoteObservation}
    (distinct : (first.map QuoteObservation.key).Nodup) (same : first.Perm second) :
    sortQuotes first = sortQuotes second := by
  unfold sortQuotes
  simp only [quoteOrder_eq]
  exact Sorting.insertionSort_eq_of_perm QuoteObservation.key distinct same

/-- The forward choice sees the quotes of its window. -/
theorem forwardExit_congr {target now : Moment} {tolerance : ℤ} {quotes others : List QuoteObservation}
    (same : ∀ windowEnd, target.plus? tolerance = some windowEnd →
      windowQuotes (insideForward target windowEnd) now quotes =
        windowQuotes (insideForward target windowEnd) now others) :
    forwardExit target quotes now tolerance = forwardExit target others now tolerance := by
  unfold forwardExit
  cases isEnd : target.plus? tolerance with
  | none => rfl
  | some windowEnd =>
      change (firstValid (windowQuotes _ now quotes) >>= fun _ => _) = _
      rw [same windowEnd isEnd]
      rfl

theorem symmetricExit_congr {decisionAsOf target now : Moment} {tolerance : ℤ}
    {quotes others : List QuoteObservation}
    (same : ∀ windowStart windowEnd, target.plus? (-tolerance) = some windowStart →
      target.plus? tolerance = some windowEnd →
      windowQuotes (insideSymmetric decisionAsOf windowStart windowEnd) now quotes =
        windowQuotes (insideSymmetric decisionAsOf windowStart windowEnd) now others) :
    symmetricExit decisionAsOf target quotes now tolerance =
      symmetricExit decisionAsOf target others now tolerance := by
  unfold symmetricExit
  cases isStart : target.plus? (-tolerance) with
  | none => rfl
  | some windowStart =>
      cases isEnd : target.plus? tolerance with
      | none => rfl
      | some windowEnd =>
          change ((windowQuotes _ now quotes).foldlM (consider target) none >>= _ :
            Except OutcomeFailure Choice) = _
          rw [same windowStart windowEnd isStart isEnd]
          rfl

/-! ## The quotes of a pair -/

section Quotes

variable (runtime : Runtime)

/-- The quote of a row whose time is UTC ISO text. -/
def SnapshotRow.quote? (row : SnapshotRow) : Option QuoteObservation := do
  let observedAt ← row.observedAt? runtime
  (row.toQuote observedAt).toOption

/-- Every snapshot of the pair with UTC ISO time, however far from a target. -/
def everyQuote (snapshots : List SnapshotRow) (pair : String) : List QuoteObservation :=
  (snapshots.filter fun row => row.pair = pair).filterMap (SnapshotRow.quote? runtime)

/-- The time of a row, if it is UTC ISO text, begins with its minute as the heartbeat writes it. -/
def SnapshotRow.Dated (row : SnapshotRow) : Prop :=
  ∀ ts ∈ row.ts, ∀ observedAt ∈ row.observedAt? runtime, observedAt.Begins ts

end Quotes

variable {runtime : Runtime}

theorem toQuote_eq_ok {row : SnapshotRow} {observedAt : Moment} {quote : QuoteObservation}
    (made : row.toQuote observedAt = .ok quote) :
    quote.observedAt = observedAt ∧ quote.source = row.source := by
  obtain ⟨bid, _, made⟩ := bind_eq_ok.mp made
  obtain ⟨ask, _, made⟩ := bind_eq_ok.mp made
  have made := mapError_eq_ok.mp made
  unfold QuoteObservation.make at made
  split at made
  next =>
    cases made
    exact ⟨rfl, rfl⟩
  next => cases made

theorem quote?_eq_some {row : SnapshotRow} {quote : QuoteObservation}
    (found : row.quote? runtime = some quote) :
    row.observedAt? runtime = some quote.observedAt ∧ quote.source = row.source := by
  obtain ⟨observedAt, placed, made⟩ := Option.bind_eq_some_iff.mp found
  cases isQuote : row.toQuote observedAt with
  | error failure =>
      rw [isQuote] at made
      cases made
  | ok other =>
      rw [isQuote] at made
      cases made
      obtain ⟨rfl, isSource⟩ := toQuote_eq_ok isQuote
      exact ⟨placed, isSource⟩

theorem pyStr_integerText (number : ℤ) : pyStr (integerText number) =
    (if number < 0 then [45] else []) ++ JsonText.decimal number.natAbs := by
  unfold integerText
  rw [Date.pyStr_append]
  split <;> simp [pyStr, JsonText.decimal]

theorem integerText_injective : Function.Injective integerText := by
  intro first second same
  have codes := congrArg pyStr same
  rw [pyStr_integerText, pyStr_integerText] at codes
  have noMinus : ∀ number : ℕ, ∀ rest, JsonText.decimal number ≠ 45 :: rest := by
    intro number rest isMinus
    have isDigit := JsonText.isDigit_of_mem_decimal number 45 (by simp [isMinus])
    exact absurd isDigit (by decide)
  have sameSize : first.natAbs = second.natAbs ∧ (first < 0 ↔ second < 0) := by
    by_cases isFirst : first < 0 <;> by_cases isSecond : second < 0
    · simp only [isFirst, isSecond, if_true, List.append_cancel_left_eq] at codes
      have values := congrArg JsonText.naturalOf codes
      rw [JsonText.naturalOf_decimal, JsonText.naturalOf_decimal] at values
      exact ⟨values, by simp [isFirst, isSecond]⟩
    · simp only [isFirst, isSecond, if_true, if_false, List.nil_append] at codes
      exact absurd codes.symm (noMinus _ _)
    · simp only [isFirst, isSecond, if_true, if_false, List.nil_append] at codes
      exact absurd codes (noMinus _ _)
    · simp only [isFirst, isSecond, if_false, List.nil_append] at codes
      have values := congrArg JsonText.naturalOf codes
      rw [JsonText.naturalOf_decimal, JsonText.naturalOf_decimal] at values
      exact ⟨values, by simp [isFirst, isSecond]⟩
  omega

theorem source_injective {first second : SnapshotRow} (same : first.source = second.source) :
    first.id = second.id := by
  apply integerText_injective
  have codes := congrArg String.toList same
  unfold SnapshotRow.source at codes
  rw [String.toList_append, String.toList_append] at codes
  exact String.toList_inj.mp (List.append_cancel_left codes)

/-- The quotes of rows with distinct ids have distinct places in a window. -/
theorem everyQuote_keys {snapshots : List SnapshotRow}
    (once : (snapshots.map SnapshotRow.id).Nodup) :
    ((snapshots.filterMap (SnapshotRow.quote? runtime)).map QuoteObservation.key).Nodup := by
  induction snapshots with
  | nil => exact List.nodup_nil
  | cons row rest hyp =>
      rw [List.map_cons, List.nodup_cons] at once
      rw [List.filterMap_cons]
      cases isQuote : row.quote? runtime with
      | none => exact hyp once.2
      | some quote =>
          rw [List.map_cons, List.nodup_cons]
          refine ⟨fun member => once.1 ?_, hyp once.2⟩
          obtain ⟨other, isOther, sameKey⟩ := List.mem_map.mp member
          obtain ⟨otherRow, isRow, isOther⟩ := List.mem_filterMap.mp isOther
          have sameSource : other.source = quote.source := (Prod.ext_iff.mp (toLex.injective sameKey)).2
          rw [(quote?_eq_some isOther).2, (quote?_eq_some isQuote).2] at sameSource
          exact List.mem_map.mpr ⟨otherRow, isRow, source_injective sameSource⟩

/-! ## The text selection keeps the window -/

/-- What a row gives when it is read. -/
def SnapshotRow.quoteIn (runtime : Runtime) (start stop : Moment) (row : SnapshotRow) :
    Option QuoteObservation := do
  let (row, observedAt) ← row.placedIn runtime start stop
  (row.toQuote observedAt).toOption

theorem spotQuotes_eq_ok {snapshots : List SnapshotRow} {pair : String} {start stop : Moment}
    {quotes : List QuoteObservation} (read : spotQuotes runtime snapshots pair start stop = .ok quotes) :
    ∃ lower upper, start.plus? (-snapshotTextMargin) = some lower ∧
      stop.plus? snapshotTextMargin = some upper ∧
      quotes.Perm ((snapshots.filter (SnapshotRow.between pair (utcText lower) (utcText upper))).filterMap
        (SnapshotRow.quoteIn runtime start stop)) := by
  obtain ⟨lower, isLower, read⟩ := bind_eq_ok.mp read
  obtain ⟨upper, isUpper, read⟩ := bind_eq_ok.mp read
  refine ⟨lower, upper, require_eq_ok.mp isLower, require_eq_ok.mp isUpper, ?_⟩
  rw [toOption_of_mapM read, List.filterMap_filterMap]
  exact (List.perm_insertionSort _ _).filterMap _

/-- A row of the window is between the bounds, which are a minute further out. -/
theorem between_of_placed {row : SnapshotRow} {pair : String} {start stop lower upper observedAt : Moment}
    (dated : row.Dated runtime) (ofPair : row.pair = pair)
    (isLower : start.plus? (-snapshotTextMargin) = some lower)
    (isUpper : stop.plus? snapshotTextMargin = some upper)
    (placed : row.observedAt? runtime = some observedAt) (after : start ≤ observedAt)
    (before : observedAt ≤ stop) :
    row.between pair (utcText lower) (utcText upper) = true := by
  obtain ⟨ts, isText, _⟩ := Option.bind_eq_some_iff.mp placed
  have begins := dated ts isText observedAt placed
  have lowerMoved := Moment.plus?_eq_some.mp isLower
  have upperMoved := Moment.plus?_eq_some.mp isUpper
  rw [Moment.le_iff] at after before
  have overLower : utcText lower < ts := by
    apply Moment.utcText_lt begins
    unfold Moment.minute Moment.seconds
    unfold snapshotTextMargin Moment.seconds at lowerMoved
    omega
  have underUpper : ts < utcText upper := by
    apply Moment.lt_utcText begins
    unfold Moment.minute Moment.seconds
    unfold snapshotTextMargin Moment.seconds at upperMoved
    omega
  unfold SnapshotRow.between
  rw [isText]
  simp only [ofPair, decide_true, Option.any_some, Bool.true_and, Bool.and_eq_true,
    Bool.not_eq_true', decide_eq_false_iff_not]
  exact ⟨lt_asymm overLower, lt_asymm underUpper⟩

/-- **The text selection keeps the window**: what is read between two moments and every quote of
the pair have the same window, when the window lies between the moments. -/
theorem spotQuotes_window {snapshots : List SnapshotRow} {pair : String} {start stop now : Moment}
    {inside : QuoteObservation → Bool} {quotes : List QuoteObservation}
    (once : (snapshots.map SnapshotRow.id).Nodup)
    (dated : ∀ row ∈ snapshots, row.pair = pair → row.Dated runtime)
    (read : spotQuotes runtime snapshots pair start stop = .ok quotes)
    (within : ∀ quote, inside quote = true → quote.observedAt ≤ now →
      start ≤ quote.observedAt ∧ quote.observedAt ≤ stop) :
    windowQuotes inside now quotes = windowQuotes inside now (everyQuote runtime snapshots pair) := by
  obtain ⟨lower, upper, isLower, isUpper, permuted⟩ := spotQuotes_eq_ok read
  unfold windowQuotes
  refine (sortQuotes_eq_of_perm ?_ ?_).symm
  · refine List.Nodup.sublist (List.Sublist.map _ List.filter_sublist) (everyQuote_keys ?_)
    exact once.sublist (List.Sublist.map _ List.filter_sublist)
  · refine List.Perm.symm ((permuted.filter _).trans (List.Perm.of_eq ?_))
    unfold everyQuote
    rw [List.filter_filterMap, List.filter_filterMap, List.filterMap_filter, List.filterMap_filter]
    refine List.filterMap_congr fun row isRow => ?_
    by_cases ofPair : row.pair = pair
    · rw [if_pos (decide_eq_true ofPair)]
      cases placed : row.observedAt? runtime with
      | none => simp [SnapshotRow.quote?, SnapshotRow.quoteIn, SnapshotRow.placedIn, placed]
      | some observedAt =>
          by_cases reached : start ≤ observedAt ∧ observedAt ≤ stop
          · have isBetween := between_of_placed (dated row isRow ofPair) ofPair isLower isUpper placed
              reached.1 reached.2
            rw [if_pos isBetween]
            simp [SnapshotRow.quote?, SnapshotRow.quoteIn, SnapshotRow.placedIn, placed, reached]
          · have noQuote : row.quoteIn runtime start stop = none := by
              simp [SnapshotRow.quoteIn, SnapshotRow.placedIn, placed, reached]
            rw [noQuote, Option.filter_none, ite_self]
            cases isQuote : row.quote? runtime with
            | none => rfl
            | some quote =>
                have isPlace := (quote?_eq_some isQuote).1
                rw [placed, Option.some.injEq] at isPlace
                cases passes : inside quote && decide (quote.observedAt ≤ now) with
                | false =>
                    rw [Option.filter_some, passes]
                    rfl
                | true =>
                    rw [Bool.and_eq_true, decide_eq_true_eq] at passes
                    exact absurd (isPlace ▸ within quote passes.1 passes.2) reached
    · have notBetween : row.between pair (utcText lower) (utcText upper) = false := by
        simp [SnapshotRow.between, ofPair]
      rw [if_neg (by simp [notBetween]), if_neg (by simp [ofPair])]

/-! ## One label -/

theorem quotesFor_eq_some {snapshots : List SnapshotRow} {subject : OutcomeSubject} {horizon : Horizon}
    {clock : Moment} {tolerance : ℤ} {window : LabelWindow} {quotes : Option (List QuoteObservation)}
    (read : quotesFor runtime snapshots subject horizon clock tolerance window = .ok quotes)
    (sourced : subject.priceSource = true) :
    ∃ target start windowEnd found, subject.targetAt horizon = .ok target ∧
      windowStart subject target tolerance window = .ok start ∧
      target.plus? tolerance = some windowEnd ∧ quotes = some found ∧
      spotQuotes runtime snapshots subject.pair start (min windowEnd clock) = .ok found := by
  unfold quotesFor at read
  rw [if_pos sourced] at read
  obtain ⟨target, isTarget, read⟩ := bind_eq_ok.mp read
  obtain ⟨start, isStart, read⟩ := bind_eq_ok.mp read
  obtain ⟨windowEnd, isEnd, read⟩ := bind_eq_ok.mp read
  obtain ⟨found, isFound, read⟩ := bind_eq_ok.mp read
  cases read
  exact ⟨target, start, windowEnd, found, mapError_eq_ok.mp isTarget, isStart, require_eq_ok.mp isEnd,
    rfl, isFound⟩

theorem quotesFor_eq_none {snapshots : List SnapshotRow} {subject : OutcomeSubject} {horizon : Horizon}
    {clock : Moment} {tolerance : ℤ} {window : LabelWindow} {quotes : Option (List QuoteObservation)}
    (read : quotesFor runtime snapshots subject horizon clock tolerance window = .ok quotes)
    (unsourced : subject.priceSource = false) : quotes = none := by
  unfold quotesFor at read
  rw [unsourced] at read
  cases read
  rfl

/-- The exit chosen from what is read is the one chosen from every quote of the pair. -/
theorem chooseExit_everyQuote {snapshots : List SnapshotRow} {subject : OutcomeSubject}
    {target start windowEnd clock : Moment} {tolerance : ℤ} {window : LabelWindow}
    {quotes : List QuoteObservation} (once : (snapshots.map SnapshotRow.id).Nodup)
    (dated : ∀ row ∈ snapshots, row.pair = subject.pair → row.Dated runtime)
    (isStart : windowStart subject target tolerance window = .ok start)
    (isEnd : target.plus? tolerance = some windowEnd)
    (read : spotQuotes runtime snapshots subject.pair start (min windowEnd clock) = .ok quotes) :
    chooseExit subject target (some quotes) clock tolerance window =
      chooseExit subject target (some (everyQuote runtime snapshots subject.pair)) clock tolerance
        window := by
  cases window with
  | forward =>
      cases isStart
      refine forwardExit_congr fun other isOther => spotQuotes_window once dated read ?_
      cases isEnd.symm.trans isOther
      intro quote isInside byNow
      unfold insideForward at isInside
      rw [Bool.and_eq_true, decide_eq_true_eq, decide_eq_true_eq] at isInside
      exact ⟨isInside.1, le_min isInside.2 byNow⟩
  | symmetric =>
      obtain ⟨early, isEarly, isStart⟩ := bind_eq_ok.mp isStart
      obtain ⟨after, isAfter, isStart⟩ := bind_eq_ok.mp isStart
      cases isStart
      refine symmetricExit_congr fun first other isFirst isOther => spotQuotes_window once dated read ?_
      cases isEnd.symm.trans isOther
      cases (require_eq_ok.mp isEarly).symm.trans isFirst
      intro quote isInside byNow
      unfold insideSymmetric at isInside
      rw [Bool.and_eq_true, Bool.and_eq_true, decide_eq_true_eq, decide_eq_true_eq,
        decide_eq_true_eq] at isInside
      have next : after ≤ quote.observedAt := by
        have moved := Moment.plus?_eq_some.mp (require_eq_ok.mp isAfter)
        have later := Moment.lt_iff.mp isInside.2
        rw [Moment.le_iff]
        omega
      exact ⟨max_le isInside.1.1 next, le_min isInside.1.2 byNow⟩

/-- What the domain is given for a subject, if the labeler narrowed nothing. -/
def allQuotes (runtime : Runtime) (snapshots : List SnapshotRow) (subject : OutcomeSubject) :
    Option (List QuoteObservation) :=
  if subject.priceSource then some (everyQuote runtime snapshots subject.pair) else none

/-- **One label follows the rule**: the domain gives the same for what is read as for every quote of
the pair. -/
theorem labelHorizon_allQuotes {F : Type} {codec : Codec F} {snapshots : List SnapshotRow}
    {subject : OutcomeSubject} {horizon : Horizon} {clock : Moment} {tolerance : ℤ}
    {window : LabelWindow} {quotes : Option (List QuoteObservation)}
    (once : (snapshots.map SnapshotRow.id).Nodup)
    (dated : ∀ row ∈ snapshots, row.pair = subject.pair → row.Dated runtime)
    (read : quotesFor runtime snapshots subject horizon clock tolerance window = .ok quotes) :
    labelHorizon codec subject horizon quotes clock tolerance window =
      labelHorizon codec subject horizon (allQuotes runtime snapshots subject) clock tolerance
        window := by
  unfold allQuotes
  cases sourced : subject.priceSource with
  | false =>
      rw [quotesFor_eq_none read sourced]
      rfl
  | true =>
      obtain ⟨target, start, windowEnd, found, isTarget, isStart, isEnd, rfl, isFound⟩ :=
        quotesFor_eq_some read sourced
      have sameChoice := chooseExit_everyQuote once dated isStart isEnd isFound
      unfold labelHorizon labelHorizonIn
      rw [isTarget]
      refine bind_congr fun _ => bind_congr fun subjectId => ?_
      change (if clock < target then _ else chooseExit subject target (some found) clock tolerance window
        >>= _) = _
      rw [sameChoice]
      rfl

/-! ## One pass -/

theorem insert_eq_ok {table after : LabelTable} {label : OutcomeLabel} {labeledAt : String}
    (inserted : table.insert label labeledAt = .ok after) :
    after.rows = table.rows ∨ after.rows = table.rows ++ [⟨label, labeledAt⟩] := by
  unfold LabelTable.insert at inserted
  split at inserted
  next =>
    split at inserted
    next =>
      cases inserted
      exact .inl rfl
    next => cases inserted
  next =>
    cases inserted
    exact .inr rfl

theorem finishLabel_key {thread : ThreadContext} {subject : OutcomeSubject} {horizon : Horizon} {subjectId : PyStr}
    {target : Moment} {exit : Exit} {label : OutcomeLabel}
    (finished : finishLabel thread subject horizon subjectId target exit = .ok label) :
    label.subjectId = subjectId ∧ label.horizon = horizon := by
  obtain ⟨_, _, finished⟩ := bind_eq_ok.mp finished
  obtain ⟨_, _, finished⟩ := bind_eq_ok.mp finished
  cases make_eq_ok finished
  exact ⟨rfl, rfl⟩

theorem labelHorizon_key {F : Type} {codec : Codec F} {subject : OutcomeSubject} {horizon : Horizon}
    {quotes : Option (List QuoteObservation)} {now : Moment} {tolerance : ℤ} {window : LabelWindow}
    {label : OutcomeLabel}
    (labelled : labelHorizon codec subject horizon quotes now tolerance window = .ok (.label label)) :
    subjectId codec subject = .ok label.subjectId ∧ label.horizon = horizon := by
  obtain ⟨_, subjectId, target, exit, isSubject, _, _, _, finished⟩ := labelHorizonIn_eq_label labelled
  obtain ⟨rfl, isHorizon⟩ := finishLabel_key finished
  exact ⟨isSubject, isHorizon⟩

section Rule

variable {F : Type} (codec : Codec F) (runtime : Runtime) (tolerance : ℤ) (window : LabelWindow)

/-- The rule of the domain gives the label for a stored subject and every quote of its pair. -/
def FollowsRule (snapshots : List SnapshotRow) (subjects : List SubjectRow) (now : Moment)
    (label : OutcomeLabel) : Prop :=
  ∃ stored ∈ subjects, ∃ subject, stored.load codec = .ok subject ∧
    label.subjectId = pyStr stored.subjectId ∧
    labelHorizon codec subject label.horizon (allQuotes runtime snapshots subject) now tolerance
      window = .ok (.label label)

/-- The labels are the earlier ones and then labels that follow the rule, made at `now`. -/
def Extends (database : Database) (now : Moment) (labels : LabelTable) : Prop :=
  ∃ written, labels.rows = database.labels.rows ++ written ∧
    ∀ row ∈ written, row.labeledAt = utcText now ∧
      FollowsRule codec runtime tolerance window database.snapshots database.subjects now row.label

variable {codec runtime tolerance window}

theorem load_eq_ok {row : SubjectRow} {subject : OutcomeSubject} (loaded : row.load codec = .ok subject) :
    subjectId codec subject = .ok (pyStr row.subjectId) := by
  obtain ⟨content, _, loaded⟩ := bind_eq_ok.mp loaded
  obtain ⟨found, isFound, loaded⟩ := bind_eq_ok.mp loaded
  obtain ⟨_, same, loaded⟩ := bind_eq_ok.mp loaded
  cases loaded
  rw [mapError_eq_ok.mp isFound, ensure_eq_ok.mp same]

/-- One subject adds one label that follows the rule, or none. -/
theorem labelSubject_extends {database : Database} {now : Moment} {horizon : Horizon}
    {row : SubjectRow} {state after : LabelTable × LabelRun}
    (dated : ∀ row ∈ database.snapshots, row.Dated runtime) (isRow : row ∈ database.subjects)
    (holds : Extends codec runtime tolerance window database now state.1)
    (turned : labelSubject codec runtime database.snapshots now tolerance window horizon state row =
      .ok after) : Extends codec runtime tolerance window database now after.1 := by
  obtain ⟨subject, loaded, turned⟩ := bind_eq_ok.mp turned
  obtain ⟨quotes, read, turned⟩ := bind_eq_ok.mp turned
  obtain ⟨result, labelled, turned⟩ := bind_eq_ok.mp turned
  have ruled := mapError_eq_ok.mp labelled
  rw [labelHorizon_allQuotes database.snapshotsOnce (fun row isSnapshot _ => dated row isSnapshot) read] at ruled
  cases result with
  | notMature id other moment =>
      cases turned
      exact holds
  | label label =>
      obtain ⟨labels, inserted, turned⟩ := bind_eq_ok.mp turned
      cases turned
      obtain ⟨written, isRows, follow⟩ := holds
      rcases insert_eq_ok inserted with same | added
      · exact ⟨written, same.trans isRows, follow⟩
      · refine ⟨written ++ [⟨label, utcText now⟩], ?_, ?_⟩
        · rw [added, isRows, List.append_assoc]
        · intro other member
          rcases List.mem_append.mp member with earlier | new
          · exact follow other earlier
          · obtain rfl := List.mem_singleton.mp new
            obtain ⟨isSubject, isHorizon⟩ := labelHorizon_key ruled
            have isStored := Except.ok.inj (isSubject.symm.trans (load_eq_ok loaded))
            refine ⟨rfl, row, isRow, subject, loaded, isStored, ?_⟩
            rw [isHorizon]
            exact ruled

theorem labelDueHorizon_extends {database : Database} {now : Moment} {limit : ℤ} {horizon : Horizon}
    {state after : LabelTable × LabelRun} (dated : ∀ row ∈ database.snapshots, row.Dated runtime)
    (holds : Extends codec runtime tolerance window database now state.1)
    (turned : labelDueHorizon codec runtime database now tolerance limit window state horizon =
      .ok after) : Extends codec runtime tolerance window database now after.1 := by
  obtain ⟨bound, _, turned⟩ := bind_eq_ok.mp turned
  obtain ⟨_, _, turned⟩ := bind_eq_ok.mp turned
  refine foldlM_invariant_of_mem (fun state : LabelTable × LabelRun =>
    Extends codec runtime tolerance window database now state.1) _ ?_ holds turned
  intro row isDue state after holds turned
  have isRow : row ∈ database.subjects := by
    have sorted := (List.mem_insertionSort _).mp (List.mem_of_mem_take isDue)
    exact List.mem_of_mem_filter sorted
  exact labelSubject_extends dated isRow holds turned

/-- **One pass follows the rule**: it adds labels, and each is what the domain gives for its subject
and every quote of the pair. -/
theorem labelDueOutcomes_extends {database : Database} {now : Moment} {limit : ℤ}
    {labels : LabelTable} {run : LabelRun} (dated : ∀ row ∈ database.snapshots, row.Dated runtime)
    (passed : labelDueOutcomes codec runtime database now tolerance limit window = .ok (labels, run)) :
    Extends codec runtime tolerance window database now labels := by
  obtain ⟨_, _, passed⟩ := bind_eq_ok.mp passed
  obtain ⟨_, _, passed⟩ := bind_eq_ok.mp passed
  refine foldlM_invariant (fun state : LabelTable × LabelRun =>
    Extends codec runtime tolerance window database now state.1) ?_ horizons ?_ passed
  · intro state horizon after holds turned
    exact labelDueHorizon_extends dated holds turned
  · exact ⟨[], (List.append_nil _).symm, by simp⟩

end Rule

/-! ## Sequences of passes -/

/-- The snapshots and subjects that are stored sooner or later. -/
structure Arrival where
  snapshots : List SnapshotRow
  subjects : List SubjectRow
  snapshotsOnce : (snapshots.map SnapshotRow.id).Nodup
  subjectsOnce : (subjects.map SubjectRow.subjectId).Nodup

/-- A pass at a clock, and what has been stored before it. -/
structure Pass where
  now : Moment
  limit : ℤ
  stored : SnapshotRow → Bool
  registered : SubjectRow → Bool

def Pass.database (pass : Pass) (arrival : Arrival) (labels : LabelTable) : Database where
  snapshots := arrival.snapshots.filter pass.stored
  subjects := arrival.subjects.filter pass.registered
  labels := labels
  snapshotsOnce := arrival.snapshotsOnce.sublist (List.Sublist.map _ List.filter_sublist)
  subjectsOnce := arrival.subjectsOnce.sublist (List.Sublist.map _ List.filter_sublist)

/-- Every snapshot is stored before a pass whose clock is at or after its time. -/
def Pass.Fits (runtime : Runtime) (arrival : Arrival) (pass : Pass) : Prop :=
  ∀ row ∈ arrival.snapshots, ∀ observedAt ∈ row.observedAt? runtime, observedAt ≤ pass.now →
    pass.stored row = true

section Runs

variable {F : Type} (codec : Codec F) (runtime : Runtime) (tolerance : ℤ) (window : LabelWindow)
  (arrival : Arrival)

def runPasses (labels : LabelTable) (passes : List Pass) : LabelTable :=
  passes.foldl (fun labels pass => labelsAfter codec runtime (pass.database arrival labels) pass.now
    tolerance pass.limit window) labels

/-- The labels are the first ones and then labels that follow the rule at some pass. -/
def WrittenBy (labels : LabelTable) (passes : List Pass) (after : LabelTable) : Prop :=
  ∃ written, after.rows = labels.rows ++ written ∧ ∀ row ∈ written, ∃ pass ∈ passes,
    FollowsRule codec runtime tolerance window (arrival.snapshots.filter pass.stored)
      (arrival.subjects.filter pass.registered) pass.now row.label

variable {codec runtime tolerance window arrival}

theorem labelsAfter_writtenBy {labels after : LabelTable} {pass : Pass} {passes : List Pass}
    (dated : ∀ row ∈ arrival.snapshots, row.Dated runtime) (isPass : pass ∈ passes)
    (holds : WrittenBy codec runtime tolerance window arrival labels passes after) :
    WrittenBy codec runtime tolerance window arrival labels passes
      (labelsAfter codec runtime (pass.database arrival after) pass.now tolerance pass.limit window) := by
  unfold labelsAfter
  split
  next later run passed =>
    obtain ⟨written, isRows, follow⟩ := holds
    obtain ⟨added, isAdded, follows⟩ := labelDueOutcomes_extends
      (fun row isRow => dated row (List.mem_of_mem_filter isRow)) passed
    refine ⟨written ++ added, ?_, ?_⟩
    · rw [isAdded, ← List.append_assoc, ← isRows]
      rfl
    · intro row member
      rcases List.mem_append.mp member with earlier | new
      · exact follow row earlier
      · exact ⟨pass, isPass, (follows row new).2⟩
  next => exact holds

/-- A run adds labels that follow the rule. -/
theorem runPasses_writtenBy (codec : Codec F) (dated : ∀ row ∈ arrival.snapshots, row.Dated runtime)
    (labels : LabelTable) (passes : List Pass) :
    WrittenBy codec runtime tolerance window arrival labels passes
      (runPasses codec runtime tolerance window arrival labels passes) := by
  have start : WrittenBy codec runtime tolerance window arrival labels passes labels :=
    ⟨[], (List.append_nil _).symm, by simp⟩
  have turns : ∀ rest ⊆ passes, ∀ after,
      WrittenBy codec runtime tolerance window arrival labels passes after →
      WrittenBy codec runtime tolerance window arrival labels passes
        (runPasses codec runtime tolerance window arrival after rest) := by
    intro rest
    induction rest with
    | nil =>
        intro _ after holds
        exact holds
    | cons pass rest hyp =>
        intro within after holds
        rw [List.cons_subset] at within
        exact hyp within.2 _ (labelsAfter_writtenBy dated within.1 holds)
  exact turns passes (List.Subset.refl _) labels start

/-- Up to the clock of a pass the quotes are those of the whole arrival. -/
theorem observedBy_everyQuote {pass : Pass} (fits : pass.Fits runtime arrival) {moment : Moment}
    (reached : moment ≤ pass.now) (pair : String) :
    observedBy moment (everyQuote runtime (arrival.snapshots.filter pass.stored) pair) =
      observedBy moment (everyQuote runtime arrival.snapshots pair) := by
  unfold observedBy everyQuote
  rw [List.filter_filterMap, List.filter_filterMap, List.filter_filter, List.filterMap_filter,
    List.filterMap_filter]
  refine List.filterMap_congr fun row isRow => ?_
  by_cases ofPair : row.pair = pair
  · cases stored : pass.stored row with
    | true => simp [ofPair]
    | false =>
        cases isQuote : row.quote? runtime with
        | none => simp
        | some quote =>
            by_cases early : quote.observedAt ≤ moment
            · have isStored := fits row isRow _ (quote?_eq_some isQuote).1 (early.trans reached)
              exact absurd (stored.symm.trans isStored) Bool.false_ne_true
            · rw [Option.filter_some, decide_eq_false early]
              simp
  · simp [ofPair]

/-- Of two labels of one subject the later one is the earlier one. -/
theorem label_eq_of_le {first second : Pass} {subject : OutcomeSubject} {horizon : Horizon}
    {label other : OutcomeLabel} (firstFits : first.Fits runtime arrival)
    (secondFits : second.Fits runtime arrival) (le : first.now ≤ second.now)
    (labelled : labelHorizon codec subject horizon
      (allQuotes runtime (arrival.snapshots.filter first.stored) subject) first.now tolerance window =
        .ok (.label label))
    (relabelled : labelHorizon codec subject horizon
      (allQuotes runtime (arrival.snapshots.filter second.stored) subject) second.now tolerance window =
        .ok (.label other)) : label = other := by
  unfold allQuotes at labelled relabelled
  split at labelled
  next sourced =>
    rw [if_pos sourced] at relabelled
    obtain ⟨_, reached, same⟩ := label_final codec subject horizon tolerance window _ _ _ labelled
    have agree := (observedBy_everyQuote secondFits (reached.trans le) subject.pair).trans
      (observedBy_everyQuote firstFits reached subject.pair).symm
    obtain ⟨kept, raised⟩ := same _ _ (reached.trans le) agree
    by_cases overflows : LaterOverflow window tolerance label
        (everyQuote runtime (arrival.snapshots.filter second.stored) subject.pair) second.now
    · obtain ⟨detail, isRaised⟩ := raised overflows
      cases isRaised.symm.trans relabelled
    · cases (kept overflows).symm.trans relabelled
      rfl
  next unsourced =>
    rw [if_neg unsourced] at relabelled
    obtain ⟨_, id, target, exit, isId, isTarget, _, chosen, finished⟩ := labelHorizonIn_eq_label labelled
    obtain ⟨_, otherId, otherTarget, otherExit, isOtherId, isOtherTarget, _, otherChosen,
      otherFinished⟩ := labelHorizonIn_eq_label relabelled
    cases isId.symm.trans isOtherId
    cases isTarget.symm.trans isOtherTarget
    cases chosen
    cases otherChosen
    exact Except.ok.inj (finished.symm.trans otherFinished)

/-- Two labels with one key that follow the rule at passes that fit are the same. -/
theorem followsRule_unique {first second : Pass} {label other : OutcomeLabel}
    (firstFits : first.Fits runtime arrival) (secondFits : second.Fits runtime arrival)
    (sameSubject : label.subjectId = other.subjectId) (sameHorizon : label.horizon = other.horizon)
    (follows : FollowsRule codec runtime tolerance window (arrival.snapshots.filter first.stored)
      (arrival.subjects.filter first.registered) first.now label)
    (otherFollows : FollowsRule codec runtime tolerance window
      (arrival.snapshots.filter second.stored) (arrival.subjects.filter second.registered) second.now
      other) : label = other := by
  obtain ⟨stored, isStored, subject, loaded, isSubject, labelled⟩ := follows
  obtain ⟨otherStored, isOtherStored, otherSubject, otherLoaded, isOtherSubject, otherLabelled⟩ :=
    otherFollows
  have sameId : stored.subjectId = otherStored.subjectId := by
    apply pyStr_injective
    rw [← isSubject, ← isOtherSubject, sameSubject]
  obtain rfl := List.inj_on_of_nodup_map arrival.subjectsOnce (List.mem_of_mem_filter isStored)
    (List.mem_of_mem_filter isOtherStored) sameId
  cases loaded.symm.trans otherLoaded
  rw [← sameHorizon] at otherLabelled
  rcases le_total first.now second.now with le | le
  · exact label_eq_of_le firstFits secondFits le labelled otherLabelled
  · exact (label_eq_of_le secondFits firstFits le otherLabelled labelled).symm

theorem eq_of_first {labels after : LabelTable} {written : List LabelRow}
    (isRows : after.rows = labels.rows ++ written) {row : LabelRow} (member : row ∈ after.rows)
    {first : LabelRow} (isFirst : first ∈ labels.rows) (same : row.key = first.key) : row = first :=
  List.inj_on_of_nodup_map after.once member (isRows ▸ List.mem_append_left _ isFirst) same

/-- **Two runs agree** on every label that both have. -/
theorem runs_agree (dated : ∀ row ∈ arrival.snapshots, row.Dated runtime) (labels : LabelTable)
    {first second : List Pass} (firstFits : ∀ pass ∈ first, pass.Fits runtime arrival)
    (secondFits : ∀ pass ∈ second, pass.Fits runtime arrival) :
    ∀ row ∈ (runPasses codec runtime tolerance window arrival labels first).rows,
    ∀ other ∈ (runPasses codec runtime tolerance window arrival labels second).rows,
      row.key = other.key → row.label = other.label := by
  intro row isRow other isOther same
  obtain ⟨written, isRows, follow⟩ := runPasses_writtenBy codec dated labels first
  obtain ⟨otherWritten, isOtherRows, otherFollow⟩ := runPasses_writtenBy codec dated labels second
  by_cases known : ∃ initial ∈ labels.rows, initial.key = row.key
  · obtain ⟨initial, isInitial, isKey⟩ := known
    rw [eq_of_first isRows isRow isInitial isKey.symm,
      eq_of_first isOtherRows isOther isInitial (same.symm.trans isKey.symm)]
  · have notInitial : ∀ initial ∈ labels.rows, initial.key ≠ row.key := fun initial isInitial isKey =>
      known ⟨initial, isInitial, isKey⟩
    rw [isRows] at isRow
    rw [isOtherRows] at isOther
    rcases List.mem_append.mp isRow with isInitial | isWritten
    · exact absurd rfl (notInitial row isInitial)
    rcases List.mem_append.mp isOther with isInitial | isOtherWritten
    · exact absurd same.symm (notInitial other isInitial)
    obtain ⟨pass, isPass, follows⟩ := follow row isWritten
    obtain ⟨otherPass, isOtherPass, otherFollows⟩ := otherFollow other isOtherWritten
    exact followsRule_unique (firstFits pass isPass) (secondFits otherPass isOtherPass)
      (congrArg Prod.fst same) (congrArg Prod.snd same) follows otherFollows

end Runs

/-- **The labeler agrees with the rule of the domain and with itself**, where the time texts of
snapshots begin as the heartbeat writes them: what a pass writes is what the rule gives for the
subject, with every snapshot of its pair as its quotes when it has a price source. No label is
rewritten, and two runs over one arrival agree on the labels that both have. -/
theorem labels_follow_the_rule {F : Type} (codec : Codec F) (runtime : Runtime) (tolerance : ℤ)
    (window : LabelWindow) :
    (∀ (database : Database) (now : Moment) (limit : ℤ) (labels : LabelTable) (run : LabelRun),
      (∀ row ∈ database.snapshots, row.Dated runtime) →
      labelDueOutcomes codec runtime database now tolerance limit window = .ok (labels, run) →
      ∃ written, labels.rows = database.labels.rows ++ written ∧ ∀ row ∈ written,
        ∃ stored ∈ database.subjects, ∃ subject, stored.load codec = .ok subject ∧
          row.label.subjectId = pyStr stored.subjectId ∧
          labelHorizon codec subject row.label.horizon
            (if subject.priceSource then some (everyQuote runtime database.snapshots subject.pair)
              else none) now tolerance window = .ok (.label row.label)) ∧
    (∀ (arrival : Arrival) (labels : LabelTable) (first second : List Pass),
      (∀ row ∈ arrival.snapshots, row.Dated runtime) →
      (∀ pass ∈ first, pass.Fits runtime arrival) → (∀ pass ∈ second, pass.Fits runtime arrival) →
      (∀ passes more,
        (runPasses codec runtime tolerance window arrival labels passes).rows <+:
          (runPasses codec runtime tolerance window arrival labels (passes ++ more)).rows) ∧
      ∀ row ∈ (runPasses codec runtime tolerance window arrival labels first).rows,
      ∀ other ∈ (runPasses codec runtime tolerance window arrival labels second).rows,
        row.key = other.key → row.label = other.label) := by
  constructor
  · intro database now limit labels run dated passed
    obtain ⟨written, isRows, follow⟩ := labelDueOutcomes_extends dated passed
    exact ⟨written, isRows, fun row member => (follow row member).2⟩
  · intro arrival labels first second dated firstFits secondFits
    refine ⟨fun passes more => ?_, runs_agree dated labels firstFits secondFits⟩
    have split : runPasses codec runtime tolerance window arrival labels (passes ++ more) =
        runPasses codec runtime tolerance window arrival
          (runPasses codec runtime tolerance window arrival labels passes) more :=
      List.foldl_append
    obtain ⟨written, isRows, _⟩ := runPasses_writtenBy codec dated
      (runPasses codec runtime tolerance window arrival labels passes) more
    rw [split, isRows]
    exact List.prefix_append _ _

/-! ## A time text that is not read -/

/-- A runtime that reads two texts of one time. -/
def sampleRuntime : Runtime where
  sha256Hex _ := ""
  digit? := asciiDigit?
  isPrintable _ := true
  parseAware text :=
    if text = "1970-01-01T00:15:00+00:00" ∨ text = "19700101T001500Z" then
      some ⟨moment 900 target_soon, 0⟩
    else none

def sampleRow (ts : String) : SnapshotRow where
  id := 1
  pair := "XXBTZUSD"
  ts := some ts
  bid := .real ⟨102.0⟩
  ask := .real ⟨102.0⟩
  idRange := by decide

def sampleStored : SubjectRow where
  subjectId := "outcome:sha256:d4c04a804bc1960ae5ebe2f9a96e6861c4a9b5fc0175351674b4296a14ce983c"
  decisionAsOf := "1970-01-01T00:00:00.000000+00:00"
  content := .ok sampleSubject

def sampleDatabase (ts : String) : Database where
  snapshots := [sampleRow ts]
  subjects := [sampleStored]
  labels := ⟨[], List.nodup_nil⟩
  snapshotsOnce := List.nodup_singleton _
  subjectsOnce := List.nodup_singleton _

/-- The labels that a pass writes, at a minute after the target of the first horizon. -/
def sampleWritten (ts : String) : List LabelRow :=
  (labelsAfter sampleCodec sampleRuntime (sampleDatabase ts) (moment 960 (by decide))
    (Moment.seconds 60) 1 .forward).rows

theorem sampleSubject_identified :
    (subjectId sampleCodec sampleSubject).mapError StoreFailure.domain =
      .ok (pyStr sampleStored.subjectId) := by
  decide +kernel

theorem sampleStored_load : sampleStored.load sampleCodec = .ok sampleSubject := by
  refine bind_eq_ok.mpr ⟨sampleSubject, rfl, bind_eq_ok.mpr ⟨pyStr sampleStored.subjectId, ?_, ?_⟩⟩
  · exact sampleSubject_identified
  · exact bind_eq_ok.mpr ⟨(), ensure_of rfl, rfl⟩

/-- The one label that is written for a text without dashes is not the one of the rule. -/
theorem basicText_written :
    (sampleWritten "19700101T001500Z").map LabelRow.key = [(pyStr sampleStored.subjectId, .m15)] ∧
      ∀ row ∈ sampleWritten "19700101T001500Z",
        labelHorizon sampleCodec sampleSubject row.label.horizon
          (some (everyQuote sampleRuntime [sampleRow "19700101T001500Z"] sampleSubject.pair))
          (moment 960 (by decide)) (Moment.seconds 60) .forward ≠ .ok (.label row.label) := by
  decide +kernel

/-- A snapshot at the target whose time text has no dashes is left out by the text selection: the
label that is written is not the one that the rule gives for every snapshot of the pair. -/
theorem basic_time_text_is_not_read :
    (sampleRow "19700101T001500Z").observedAt? sampleRuntime = some (moment 900 (by decide)) ∧
      sampleStored.load sampleCodec = .ok sampleSubject ∧ sampleSubject.priceSource = true ∧
      (sampleWritten "19700101T001500Z").map LabelRow.key = [(pyStr sampleStored.subjectId, .m15)] ∧
      ∀ row ∈ sampleWritten "19700101T001500Z",
        labelHorizon sampleCodec sampleSubject row.label.horizon
          (some (everyQuote sampleRuntime [sampleRow "19700101T001500Z"] sampleSubject.pair))
          (moment 960 (by decide)) (Moment.seconds 60) .forward ≠ .ok (.label row.label) := by
  exact ⟨rfl, sampleStored_load, rfl, basicText_written⟩

/-- The same snapshot with the text of the heartbeat is read, and the label is the one of the
rule. -/
theorem labels_follow_the_rule_sample :
    ∃ labels run, labelDueOutcomes sampleCodec sampleRuntime
        (sampleDatabase "1970-01-01T00:15:00+00:00") (moment 960 (by decide)) (Moment.seconds 60) 1
        .forward = .ok (labels, run) ∧ run.labeledAvailable = 1 ∧
      ∃ written, labels.rows = [] ++ written ∧ ∀ row ∈ written,
        ∃ stored ∈ [sampleStored], ∃ subject, stored.load sampleCodec = .ok subject ∧
          row.label.subjectId = pyStr stored.subjectId ∧
          labelHorizon sampleCodec subject row.label.horizon
            (if subject.priceSource then some (everyQuote sampleRuntime
              [sampleRow "1970-01-01T00:15:00+00:00"] subject.pair) else none)
            (moment 960 (by decide)) (Moment.seconds 60) .forward = .ok (.label row.label) := by
  have available : (labelDueOutcomes sampleCodec sampleRuntime
      (sampleDatabase "1970-01-01T00:15:00+00:00") (moment 960 (by decide)) (Moment.seconds 60) 1
      .forward).map (fun result => result.2.labeledAvailable) = .ok 1 := by
    decide +kernel
  cases passed : labelDueOutcomes sampleCodec sampleRuntime
      (sampleDatabase "1970-01-01T00:15:00+00:00") (moment 960 (by decide)) (Moment.seconds 60) 1
      .forward with
  | error failure =>
      rw [passed] at available
      cases available
  | ok result =>
      rw [passed] at available
      refine ⟨result.1, result.2, rfl, Except.ok.inj available, ?_⟩
      refine (labels_follow_the_rule sampleCodec sampleRuntime (Moment.seconds 60) .forward).1
        (sampleDatabase "1970-01-01T00:15:00+00:00") _ _ _ result.2 ?_ passed
      intro row isRow
      obtain rfl := List.mem_singleton.mp isRow
      intro ts isText observedAt placed
      cases isText
      cases placed
      decide +kernel

end CryptoRadar.Outcomes
