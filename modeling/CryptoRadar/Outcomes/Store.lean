import CryptoRadar.Lib.CalendarOrder
import CryptoRadar.Lib.Double
import CryptoRadar.Lib.Runtime
import CryptoRadar.Outcomes.Labels

/-!
# The labeler of the outcome store

`label_due_outcomes` of `adapters/outcome_store.py`: one pass reads, for every due subject and
horizon, the snapshots of the subject's pair around the target, and writes the label that the
domain gives for them. A pass is one transaction: when it raises, the tables are as before.

A snapshot, a subject and a label are kept by the key of their table. Of a stored subject the
labeler itself reads the id and the text of the decision time; what loading the row and its
costs makes of the other columns is part of the row. The columns of a label are the texts of
its fields, which determine them.
-/

set_option autoImplicit false

namespace CryptoRadar.Outcomes

open Checked

/-- The codes of an `OutcomeStoreError`. -/
inductive StoreErrorCode where
  | invalidArgument
  | malformedRow
  | labelConflict
  deriving DecidableEq, Repr

/-- What a pass raises: an `OutcomeStoreError`, an error of the domain, a number that has no
decimal, a time outside the calendar. -/
inductive StoreFailure where
  | store (code : StoreErrorCode)
  | domain (failure : OutcomeFailure)
  | decimal (error : DecimalError)
  | overflow
  deriving DecidableEq, Repr

/-! ## Snapshots -/

/-- A number as sqlite stores it. -/
inductive SqlNumber where
  | null
  | integer (value : ℤ)
  | real (value : Double)
  | other
  deriving DecidableEq

/-- A row of `spot_snapshots`; its time is there when the column holds text. -/
structure SnapshotRow where
  id : ℤ
  pair : String
  ts : Option String
  bid : SqlNumber
  ask : SqlNumber
  idRange : -(2 ^ 63) ≤ id ∧ id < 2 ^ 63
  deriving DecidableEq

/-- `SNAPSHOT_TEXT_MARGIN`, in microseconds. -/
def snapshotTextMargin : ℤ := Moment.seconds 60

/-- The value of a decimal digit. -/
def asciiDigit? (char : Char) : Option ℕ := if char.isDigit then some (char.toNat - 48) else none

/-- `_finite_decimal`. -/
def finiteDecimal : SqlNumber → Except StoreFailure (Option Decimal)
  | .integer value => .ok (some (.ofInt value))
  | .real value =>
      if PyFloat.isFinite value then
        match Decimal.read asciiDigit? (String.ofList (value.repr.map Char.ofNat)) with
        | .finite number => .ok (some number)
        | _ => .error (.decimal .invalidOperation)
      else .ok none
  | .null => .ok none
  | .other => .ok none

/-- `str` of an integer. -/
def integerText (number : ℤ) : String :=
  (if number < 0 then "-" else "") ++ String.ofList (Nat.toDigits 10 number.natAbs)

/-- The constructor of a quote. -/
def QuoteObservation.make (observedAt : Moment) (bid ask : Option Decimal) (source : String) :
    Except OutcomeFailure QuoteObservation :=
  match sourced : requireText source "QuoteObservation.source" with
  | .ok () => .ok ⟨observedAt, bid, ask, source, sourced⟩
  | .error failure => .error failure

namespace SnapshotRow

/-- The source of a quote that was read from the row. -/
def source (row : SnapshotRow) : String := "spot_snapshots:" ++ integerText row.id

/-- The quote of a row. -/
def toQuote (row : SnapshotRow) (observedAt : Moment) : Except StoreFailure QuoteObservation := do
  let bid ← finiteDecimal row.bid
  let ask ← finiteDecimal row.ask
  (QuoteObservation.make observedAt bid ask row.source).mapError .domain

/-- `ORDER BY ts, id`. -/
def notAfter (first second : SnapshotRow) : Prop :=
  first.ts.getD "" < second.ts.getD "" ∨ (first.ts.getD "" = second.ts.getD "" ∧ first.id ≤ second.id)

instance : DecidableRel notAfter := fun _ _ => inferInstanceAs (Decidable (_ ∨ _))

/-- `pair = ? AND ts >= ? AND ts <= ?`. -/
def between (pair lower upper : String) (row : SnapshotRow) : Bool :=
  row.pair = pair && row.ts.any fun ts => !(ts < lower) && !(upper < ts)

/-- The moment of a row whose time is UTC ISO text. -/
def observedAt? (runtime : Runtime) (row : SnapshotRow) : Option Moment := do
  let ts ← row.ts
  let aware ← runtime.parseAware ts
  if aware.offset = 0 then some aware.moment else none

/-- The row with its moment, when that is between two others. -/
def placedIn (runtime : Runtime) (start stop : Moment) (row : SnapshotRow) :
    Option (SnapshotRow × Moment) := do
  let observedAt ← row.observedAt? runtime
  if start ≤ observedAt ∧ observedAt ≤ stop then some (row, observedAt) else none

end SnapshotRow

/-! ## Subjects and labels -/

/-- A row of `outcome_subjects`, with what its other columns and its costs are loaded as. -/
structure SubjectRow where
  subjectId : String
  decisionAsOf : String
  content : Except StoreFailure OutcomeSubject

/-- `ORDER BY decision_as_of, subject_id`. -/
def SubjectRow.notAfter (first second : SubjectRow) : Prop :=
  first.decisionAsOf < second.decisionAsOf ∨
    (first.decisionAsOf = second.decisionAsOf ∧ ¬ second.subjectId < first.subjectId)

instance : DecidableRel SubjectRow.notAfter := fun _ _ => inferInstanceAs (Decidable (_ ∨ _))

/-- A row of `outcome_labels`. -/
structure LabelRow where
  label : OutcomeLabel
  labeledAt : String
  deriving DecidableEq

/-- The key of a label. -/
def LabelRow.key (row : LabelRow) : PyStr × Horizon := (row.label.subjectId, row.label.horizon)

/-- The table of labels, one row for each key. -/
structure LabelTable where
  rows : List LabelRow
  once : (rows.map LabelRow.key).Nodup

namespace LabelTable

/-- The label with this key. -/
def find? (table : LabelTable) (subjectId : PyStr) (horizon : Horizon) : Option LabelRow :=
  table.rows.find? fun row => row.key = (subjectId, horizon)

theorem not_mem_of_find? {table : LabelTable} {subjectId : PyStr} {horizon : Horizon}
    (missing : table.find? subjectId horizon = none) :
    (subjectId, horizon) ∉ table.rows.map LabelRow.key := by
  intro member
  obtain ⟨row, isRow, isKey⟩ := List.mem_map.mp member
  have other := List.find?_eq_none.mp missing row isRow
  exact other (by simpa using isKey)

/-- `_insert_label`: a label that is there already is left as it is. -/
def insert (table : LabelTable) (label : OutcomeLabel) (labeledAt : String) :
    Except StoreFailure LabelTable :=
  match missing : table.find? label.subjectId label.horizon with
  | some existing => if existing.label = label then .ok table else .error (.store .labelConflict)
  | none => .ok ⟨table.rows ++ [⟨label, labeledAt⟩], by
      rw [List.map_append, List.nodup_append]
      refine ⟨table.once, List.nodup_singleton _, fun key isKey other isOther => ?_⟩
      obtain rfl := List.mem_singleton.mp isOther
      rintro rfl
      exact not_mem_of_find? missing isKey⟩

end LabelTable

/-- The tables the labels are made from. -/
structure Database where
  snapshots : List SnapshotRow
  subjects : List SubjectRow
  labels : LabelTable
  snapshotsOnce : (snapshots.map SnapshotRow.id).Nodup
  subjectsOnce : (subjects.map SubjectRow.subjectId).Nodup

/-! ## The labeler -/

/-- What one pass did. -/
structure LabelRun where
  considered : ℕ
  labeledAvailable : ℕ
  labeledUnavailable : ℕ
  notMature : ℕ
  deriving DecidableEq

/-- `_price_source`: the snapshots are of one spot venue. -/
def OutcomeSubject.priceSource (subject : OutcomeSubject) : Bool :=
  subject.instrument.kind = .spot && subject.instrument.venue = "kraken"

/-- The horizons, in the order of a pass. -/
def horizons : List Horizon := [.m15, .h1, .h4, .h24]

section Pass

variable {F : Type} (codec : Codec F) (runtime : Runtime)

/-- `_spot_quotes`: selected by text with a margin, then by time. -/
def spotQuotes (snapshots : List SnapshotRow) (pair : String) (start stop : Moment) :
    Except StoreFailure (List QuoteObservation) := do
  let lower ← require .overflow (start.plus? (-snapshotTextMargin))
  let upper ← require .overflow (stop.plus? snapshotTextMargin)
  let rows := (snapshots.filter (SnapshotRow.between pair (utcText lower) (utcText upper))).insertionSort
    SnapshotRow.notAfter
  (rows.filterMap (SnapshotRow.placedIn runtime start stop)).mapM fun (row, observedAt) =>
    row.toQuote observedAt

/-- `_load_subject`, whose last check binds the id to the row. -/
def SubjectRow.load (row : SubjectRow) : Except StoreFailure OutcomeSubject := do
  let subject ← row.content
  let loaded ← (Outcomes.subjectId codec subject).mapError .domain
  ensure (loaded = pyStr row.subjectId) (.store .malformedRow)
  return subject

/-- The first moment whose quotes are read. -/
def windowStart (subject : OutcomeSubject) (target : Moment) (tolerance : ℤ) :
    LabelWindow → Except StoreFailure Moment
  | .forward => .ok target
  | .symmetric => do
      let early ← require .overflow (target.plus? (-tolerance))
      let after ← require .overflow (subject.decisionAsOf.plus? 1)
      return max early after

/-- The quotes that a label is made from; none without a price source. -/
def quotesFor (snapshots : List SnapshotRow) (subject : OutcomeSubject) (horizon : Horizon)
    (clock : Moment) (tolerance : ℤ) (window : LabelWindow) :
    Except StoreFailure (Option (List QuoteObservation)) :=
  if subject.priceSource then do
    let target ← (subject.targetAt horizon).mapError .domain
    let start ← windowStart subject target tolerance window
    let windowEnd ← require .overflow (target.plus? tolerance)
    let quotes ← spotQuotes runtime snapshots subject.pair start (min windowEnd clock)
    return some quotes
  else .ok none

/-- The label of one due subject. -/
def labelSubject (snapshots : List SnapshotRow) (clock : Moment) (tolerance : ℤ)
    (window : LabelWindow) (horizon : Horizon) (state : LabelTable × LabelRun) (row : SubjectRow) :
    Except StoreFailure (LabelTable × LabelRun) := do
  let (labels, run) := state
  let subject ← row.load codec
  let quotes ← quotesFor runtime snapshots subject horizon clock tolerance window
  let result ← (labelHorizon codec subject horizon quotes clock tolerance window).mapError .domain
  match result with
  | .notMature _ _ _ =>
      return (labels, { run with considered := run.considered + 1, notMature := run.notMature + 1 })
  | .label label =>
      let labels ← labels.insert label (utcText clock)
      return (labels, { run with
        considered := run.considered + 1
        labeledAvailable := run.labeledAvailable + if label.status = .available then 1 else 0
        labeledUnavailable := run.labeledUnavailable + if label.status = .available then 0 else 1 })

/-- The subjects of a horizon that are due and not labelled, the oldest ones first. -/
def dueSubjects (subjects : List SubjectRow) (labels : LabelTable) (horizon : Horizon)
    (bound : String) (limit : ℕ) : List SubjectRow :=
  ((subjects.filter fun row => !(bound < row.decisionAsOf) &&
    (labels.find? (pyStr row.subjectId) horizon).isNone).insertionSort SubjectRow.notAfter).take limit

/-- The labels of one horizon. -/
def labelDueHorizon (database : Database) (clock : Moment) (tolerance : ℤ) (limit : ℤ)
    (window : LabelWindow) (state : LabelTable × LabelRun) (horizon : Horizon) :
    Except StoreFailure (LabelTable × LabelRun) := do
  let bound ← require .overflow (clock.plus? (-horizon.duration))
  ensure (limit < 2 ^ 63) .overflow
  (dueSubjects database.subjects state.1 horizon (utcText bound) limit.toNat).foldlM
    (labelSubject codec runtime database.snapshots clock tolerance window horizon) state

/-- `label_due_outcomes`: every matured, still unlabelled horizon, up to `limit` subjects of each. -/
def labelDueOutcomes (database : Database) (now : Moment) (tolerance : ℤ) (limit : ℤ)
    (window : LabelWindow) : Except StoreFailure (LabelTable × LabelRun) := do
  ensure (0 ≤ tolerance) (.store .invalidArgument)
  ensure (1 ≤ limit) (.store .invalidArgument)
  horizons.foldlM (labelDueHorizon codec runtime database now tolerance limit window)
    (database.labels, ⟨0, 0, 0, 0⟩)

/-- The labels after a pass, which writes all of its labels or none. -/
def labelsAfter (database : Database) (now : Moment) (tolerance : ℤ) (limit : ℤ)
    (window : LabelWindow) : LabelTable :=
  match labelDueOutcomes codec runtime database now tolerance limit window with
  | .ok (labels, _) => labels
  | .error _ => database.labels

end Pass

end CryptoRadar.Outcomes
