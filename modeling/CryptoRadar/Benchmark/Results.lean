import CryptoRadar.Benchmark.Sequence
import CryptoRadar.Lib.Double
import CryptoRadar.Lib.JsonText
import Mathlib.Data.List.ReduceOption

/-!
# The results file

`parse_results` of `workflow/t051_sequence.py`. A line that is no object of JSON is a line cut
short; the runner appends a `truncated_tail` record that names it before it writes on. So a file is
well formed when each such line is its last one or has its marker on the next line
(`WellFormed`).

The parser collects the markers of the whole file instead. It accepts every well-formed file, but
also a file whose markers stand elsewhere, and a marker whose line is a list or a dictionary, or
a line that is nested too deep, stops it with an error of Python.
`parseResults_wellFormed_iff` says of which files it tells rightly whether they are well formed.
-/

set_option autoImplicit false

namespace CryptoRadar.Benchmark

open Checked

/-- What `parse_results` raises: a `ResultsCorrupt` that names a line, the `TypeError` of a value
that has no hash, and a `RecursionError`. -/
inductive ResultsFailure where
  | corrupt (line : ℕ)
  | unhashable
  | recursion
  deriving DecidableEq, Repr

/-- The records of a file and its broken line. -/
structure ParsedResults where
  records : List Record
  truncatedLine : Option ℕ
  markedTruncatedLines : List ℕ

/-! ## Lines -/

/-- The lines of a text, without the empty one behind the last line feed. -/
def resultLines (text : PyStr) : List PyStr :=
  let lines := if text = [] then [] else text.splitOn 10
  if text.getLast? = some 10 then lines.dropLast else lines

/-- A line as an object of JSON; none where it is cut short. -/
def readLine (limits : JsonLimits) (line : PyStr) : Except ResultsFailure (Option Record) :=
  match JsonText.loads Double.floatText limits (fun _ => none) line with
  | .ok (.object members) => .ok (some members)
  | .error .recursion => .error .recursion
  | _ => .ok none

/-! ## Markers -/

/-- `record.get("record_type") == "truncated_tail"`. -/
def isMarker (record : Record) : Bool :=
  (Record.field record "record_type").equalsStr (pyStr "truncated_tail")

/-- A list and a dictionary have no hash. -/
def isHashable : Json Double → Bool
  | .array _ => false
  | .object _ => false
  | _ => true

/-- The record is a marker whose `line` equals the number. -/
def namesLine (number : ℕ) (record : Record) : Bool :=
  isMarker record && (Record.field record "line").equalsInt Double.equalsInt number

/-- `marked`; a value of a set has a hash. -/
def checkMarkers (records : List Record) : Except ResultsFailure Unit :=
  ensure (∀ record ∈ records, isMarker record = true → isHashable (Record.field record "line") = true)
    .unhashable

/-- `number in marked`. -/
def isMarked (records : List Record) (number : ℕ) : Bool := records.any (namesLine number)

/-! ## The parser -/

/-- `bad`: the numbers of the lines that are no object, from 1 on. -/
def badLines (entries : List (Option Record)) : List ℕ :=
  (entries.zipIdx 1).filterMap fun (entry, number) => if entry.isNone then some number else none

/-- The turn of the last loop for a bad line. -/
def judgeLine (records : List Record) (count : ℕ) (truncated : Option ℕ) (number : ℕ) :
    Except ResultsFailure (Option ℕ) :=
  if isMarked records number then .ok truncated
  else if number = count then .ok (some number)
  else .error (.corrupt number)

/-- `parse_results`. -/
def parseResults (limits : JsonLimits) (text : PyStr) : Except ResultsFailure ParsedResults := do
  let lines := resultLines text
  let entries ← lines.mapM (readLine limits)
  let records := entries.reduceOption
  checkMarkers records
  let bad := badLines entries
  let truncated ← bad.foldlM (judgeLine records lines.length) none
  return { records := records, truncatedLine := truncated,
           markedTruncatedLines := (bad.filter (isMarked records)).insertionSort (· ≤ ·) }

/-! ## Well-formed files -/

/-- The lines of a text as objects of JSON; none where a line is no object. -/
def entriesOf (limits : JsonLimits) (text : PyStr) : List (Option Record) :=
  (resultLines text).map fun line =>
    match JsonText.loads Double.floatText limits (fun _ => none) line with
    | .ok (.object members) => some members
    | _ => none

/-- A line that is no object is the last one, or the next line is a marker that names it. -/
def WellFormed (entries : List (Option Record)) : Prop :=
  ∀ number ∈ badLines entries,
    number = entries.length ∨ (entries[number]?.join.any (namesLine number)) = true

instance (entries : List (Option Record)) : Decidable (WellFormed entries) :=
  inferInstanceAs (Decidable (∀ _ ∈ _, _))

/-- The parser returns for a well-formed file, and raises `ResultsCorrupt` for any other. -/
def TellsWellFormed (limits : JsonLimits) (text : PyStr) : Prop :=
  ((∃ parsed, parseResults limits text = .ok parsed) ↔ WellFormed (entriesOf limits text)) ∧
    ∀ failure, parseResults limits text = .error failure → ∃ line, failure = .corrupt line

/-! ## Which files are told rightly -/

/-- No line is nested too deep for the decoder. -/
def Decodable (limits : JsonLimits) (text : PyStr) : Prop :=
  ∀ line ∈ resultLines text,
    JsonText.loads Double.floatText limits (fun _ => none) line ≠ .error .recursion

/-- No marker has a list or a dictionary for its line. -/
def HashableMarkers (entries : List (Option Record)) : Prop :=
  ∀ record ∈ entries.reduceOption, isMarker record = true →
    isHashable (Record.field record "line") = true

/-- A line that is no object, is not the last one and is named by no marker of the file. -/
def Unmarked (entries : List (Option Record)) : Prop :=
  ∃ number ∈ badLines entries,
    number ≠ entries.length ∧ isMarked entries.reduceOption number = false

section Lines

variable {limits : JsonLimits} {text : PyStr}

theorem length_entriesOf : (entriesOf limits text).length = (resultLines text).length :=
  List.length_map _

theorem readLine_eq_ok {line : PyStr}
    (decoded : JsonText.loads Double.floatText limits (fun _ => none) line ≠ .error .recursion) :
    readLine limits line = .ok (match JsonText.loads Double.floatText limits (fun _ => none) line with
      | .ok (.object members) => some members
      | _ => none) := by
  unfold readLine
  generalize JsonText.loads Double.floatText limits (fun _ => none) line = found at decoded
  cases found with
  | ok value => cases value <;> rfl
  | error failure =>
      cases failure with
      | recursion => exact absurd rfl decoded
      | _ => rfl

theorem readLine_eq_error {line : PyStr} {failure : ResultsFailure}
    (raised : readLine limits line = .error failure) :
    failure = .recursion ∧
      JsonText.loads Double.floatText limits (fun _ => none) line = .error .recursion := by
  unfold readLine at raised
  split at raised
  next => cases raised
  next isError =>
    cases raised
    exact ⟨rfl, isError⟩
  next => cases raised

/-- Lines that are decoded are read. -/
theorem readLines_eq_ok (decodable : Decodable limits text) :
    (resultLines text).mapM (readLine limits) = .ok (entriesOf limits text) := by
  rw [mapM_eq_ok, entriesOf, List.forall₂_map_right_iff, List.forall₂_same]
  exact fun line member => readLine_eq_ok (decodable line member)

/-- A line that is nested too deep stops the parser. -/
theorem readLines_eq_error (deep : ¬ Decodable limits text) :
    (resultLines text).mapM (readLine limits) = .error .recursion := by
  cases read : (resultLines text).mapM (readLine limits) with
  | error failure =>
      obtain ⟨line, -, raised⟩ := mapM_eq_error read
      rw [(readLine_eq_error raised).1]
  | ok entries =>
      refine absurd (fun line member decoded => ?_) deep
      obtain ⟨entry, -, found⟩ := exists_of_mapM_eq_ok read line member
      unfold readLine at found
      rw [decoded] at found
      cases found

end Lines

section Judge

variable {records : List Record} {count : ℕ}

/-- The loop goes on over a line that is marked or the last one. -/
theorem judgeLine_eq_ok {truncated after : Option ℕ} {number : ℕ}
    (judged : judgeLine records count truncated number = .ok after) :
    isMarked records number = true ∨ number = count := by
  unfold judgeLine at judged
  split at judged
  next marked => exact .inl marked
  next =>
    split at judged
    next last => exact .inr last
    next => cases judged

theorem judgeLine_eq_error {truncated : Option ℕ} {number : ℕ} {failure : ResultsFailure}
    (judged : judgeLine records count truncated number = .error failure) :
    failure = .corrupt number := by
  unfold judgeLine at judged
  split at judged
  next => cases judged
  next =>
    split at judged
    next => cases judged
    next =>
      cases judged
      rfl

theorem judgeLines_isOk_iff {bad : List ℕ} (truncated : Option ℕ) :
    (∃ after, bad.foldlM (judgeLine records count) truncated = .ok after) ↔
      ∀ number ∈ bad, isMarked records number = true ∨ number = count := by
  induction bad generalizing truncated with
  | nil => exact iff_of_true ⟨truncated, rfl⟩ (List.forall_mem_nil _)
  | cons number rest hyp =>
      rw [List.forall_mem_cons, List.foldlM_cons]
      constructor
      · rintro ⟨after, judged⟩
        obtain ⟨middle, first, later⟩ := bind_eq_ok.mp judged
        exact ⟨judgeLine_eq_ok first, (hyp middle).mp ⟨after, later⟩⟩
      · rintro ⟨first, later⟩
        have judged : ∃ middle, judgeLine records count truncated number = .ok middle := by
          unfold judgeLine
          rcases first with marked | last
          · exact ⟨truncated, if_pos marked⟩
          · by_cases marked : isMarked records number = true
            · exact ⟨truncated, if_pos marked⟩
            · exact ⟨some number, by rw [if_neg marked, if_pos last]⟩
        obtain ⟨middle, judged⟩ := judged
        obtain ⟨after, rest⟩ := (hyp middle).mpr later
        exact ⟨after, bind_eq_ok.mpr ⟨middle, judged, rest⟩⟩

theorem judgeLines_eq_error {bad : List ℕ} {failure : ResultsFailure} (truncated : Option ℕ)
    (judged : bad.foldlM (judgeLine records count) truncated = .error failure) :
    ∃ number, failure = .corrupt number := by
  induction bad generalizing truncated with
  | nil => cases judged
  | cons number rest hyp =>
      rw [List.foldlM_cons] at judged
      rcases bind_eq_error.mp judged with here | ⟨middle, -, later⟩
      · exact ⟨number, judgeLine_eq_error here⟩
      · exact hyp middle later

end Judge

/-- The marker on the next line is one of the file. -/
theorem isMarked_of_next {entries : List (Option Record)} {number : ℕ}
    (next : (entries[number]?.join.any (namesLine number)) = true) :
    isMarked entries.reduceOption number = true := by
  obtain ⟨record, found, names⟩ := (Option.any_eq_true _ _).mp next
  have member : some record ∈ entries := List.mem_of_getElem? (Option.join_eq_some_iff.mp found)
  exact List.any_eq_true.mpr ⟨record, (List.reduceOption_mem_iff).mpr member, names⟩

/-! ## The parser as a whole -/

section Whole

variable {limits : JsonLimits} {text : PyStr}

theorem parseResults_of_deep (deep : ¬ Decodable limits text) :
    parseResults limits text = .error .recursion := by
  change ((resultLines text).mapM (readLine limits) >>= _) = _
  rw [readLines_eq_error deep]
  rfl

theorem parseResults_of_unhashable (decodable : Decodable limits text)
    (unhashable : ¬ HashableMarkers (entriesOf limits text)) :
    parseResults limits text = .error .unhashable := by
  have refused : checkMarkers (entriesOf limits text).reduceOption = .error .unhashable :=
    if_neg unhashable
  change ((resultLines text).mapM (readLine limits) >>= _) = _
  rw [readLines_eq_ok decodable]
  change (checkMarkers _ >>= _) = _
  rw [refused]
  rfl

/-- What the parser does with decoded lines and markers that have a hash. -/
theorem parseResults_of_hashable (decodable : Decodable limits text)
    (hashable : HashableMarkers (entriesOf limits text)) :
    parseResults limits text =
      let entries := entriesOf limits text
      let records := entries.reduceOption
      (badLines entries).foldlM (judgeLine records entries.length) none >>= fun truncated =>
        .ok ⟨records, truncated,
          ((badLines entries).filter (isMarked records)).insertionSort (· ≤ ·)⟩ := by
  have accepted : checkMarkers (entriesOf limits text).reduceOption = .ok () := if_pos hashable
  change ((resultLines text).mapM (readLine limits) >>= _) = _
  rw [readLines_eq_ok decodable]
  change (checkMarkers _ >>= _) = _
  rw [accepted]
  dsimp only
  rw [length_entriesOf]
  rfl

theorem parseResults_isOk_iff (decodable : Decodable limits text)
    (hashable : HashableMarkers (entriesOf limits text)) :
    (∃ parsed, parseResults limits text = .ok parsed) ↔
      ∀ number ∈ badLines (entriesOf limits text),
        isMarked (entriesOf limits text).reduceOption number = true ∨
          number = (entriesOf limits text).length := by
  rw [← judgeLines_isOk_iff none, parseResults_of_hashable decodable hashable]
  constructor
  · rintro ⟨parsed, returned⟩
    obtain ⟨truncated, judged, -⟩ := bind_eq_ok.mp returned
    exact ⟨truncated, judged⟩
  · rintro ⟨truncated, judged⟩
    exact ⟨_, bind_eq_ok.mpr ⟨truncated, judged, rfl⟩⟩

theorem parseResults_corrupt (decodable : Decodable limits text)
    (hashable : HashableMarkers (entriesOf limits text)) {failure : ResultsFailure}
    (raised : parseResults limits text = .error failure) : ∃ line, failure = .corrupt line := by
  rw [parseResults_of_hashable decodable hashable] at raised
  rcases bind_eq_error.mp raised with judged | ⟨_, _, returned⟩
  · exact judgeLines_eq_error none judged
  · cases returned

end Whole

/-- The parser tells rightly whether a file is well formed just where each line is decoded, each
marker has a hash, and a file that is not well formed has a line that no marker names. -/
theorem parseResults_wellFormed_iff (limits : JsonLimits) (text : PyStr) :
    TellsWellFormed limits text ↔ Decodable limits text ∧
      HashableMarkers (entriesOf limits text) ∧
      (WellFormed (entriesOf limits text) ∨ Unmarked (entriesOf limits text)) := by
  constructor
  · rintro ⟨tells, onlyCorrupt⟩
    have decodable : Decodable limits text := by
      by_contra deep
      obtain ⟨line, isLine⟩ := onlyCorrupt _ (parseResults_of_deep deep)
      cases isLine
    have hashable : HashableMarkers (entriesOf limits text) := by
      by_contra unhashable
      obtain ⟨line, isLine⟩ := onlyCorrupt _ (parseResults_of_unhashable decodable unhashable)
      cases isLine
    refine ⟨decodable, hashable, ?_⟩
    by_cases wellFormed : WellFormed (entriesOf limits text)
    · exact .inl wellFormed
    · right
      have refused := mt tells.mp wellFormed
      rw [parseResults_isOk_iff decodable hashable] at refused
      push Not at refused
      obtain ⟨number, bad, unmarked, inner⟩ := refused
      exact ⟨number, bad, inner, Bool.eq_false_iff.mpr unmarked⟩
  · rintro ⟨decodable, hashable, shape⟩
    refine ⟨?_, fun failure => parseResults_corrupt decodable hashable⟩
    rw [parseResults_isOk_iff decodable hashable]
    rcases shape with wellFormed | ⟨number, bad, inner, unmarked⟩
    · refine iff_of_true (fun number bad => ?_) wellFormed
      rcases wellFormed number bad with last | next
      · exact .inr last
      · exact .inl (isMarked_of_next next)
    · refine iff_of_false (fun accepted => ?_) fun wellFormed => ?_
      · rcases accepted number bad with marked | last
        · exact absurd marked (ne_true_of_eq_false unmarked)
        · exact inner last
      · rcases wellFormed number bad with last | next
        · exact inner last
        · exact absurd (isMarked_of_next next) (ne_true_of_eq_false unmarked)

def pythonLimits : JsonLimits :=
  ⟨4300, 900, 900, JsonLimits.pythonDepth, JsonLimits.pythonDepth, JsonLimits.pythonDigits⟩

/-- A line cut short, an empty object, and only then the marker of the first line. -/
def misplacedMarker : PyStr :=
  pyStr "x\n\x7b\x7d\n\x7b\"record_type\": \"truncated_tail\", \"line\": 1\x7d\n"

/-- The marker stands two lines behind the line it names, and the parser accepts the file. -/
theorem misplacedMarker_accepted :
    (∃ parsed, parseResults pythonLimits misplacedMarker = .ok parsed) ∧
      ¬ WellFormed (entriesOf pythonLimits misplacedMarker) ∧
      ¬ TellsWellFormed pythonLimits misplacedMarker := by
  have accepted : ∃ parsed, parseResults pythonLimits misplacedMarker = .ok parsed := by
    have some_ : (parseResults pythonLimits misplacedMarker).toOption.isSome = true := by
      decide +kernel
    cases isParsed : parseResults pythonLimits misplacedMarker with
    | ok parsed => exact ⟨parsed, rfl⟩
    | error failure =>
        rw [isParsed] at some_
        cases some_
  have misplaced : ¬ WellFormed (entriesOf pythonLimits misplacedMarker) := by decide +kernel
  exact ⟨accepted, misplaced, fun tells => misplaced (tells.1.mp accepted)⟩

end CryptoRadar.Benchmark
