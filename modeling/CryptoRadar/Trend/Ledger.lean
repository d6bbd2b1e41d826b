import CryptoRadar.Lib.Lines
import CryptoRadar.Trend.Books

/-!
# The paper ledger

`domain/trend_paper.py`: the ledger is a file of JSON lines. Each line is in canonical form
and carries its position, the hash of the line before it and its own hash (`verifyChain`). On
top of the chain stands the structure of the days: from the start on every day once, each
either one skip line or the records of all 24 books in order (`scanDays`). `extendLedger`
reads more bytes after a ledger that is already verified.
-/

set_option autoImplicit false

namespace CryptoRadar.Trend

open Checked

variable {F : Type} [PyFloat F]

/-- The JSON encoder and decoder, SHA-256 and `repr` of a JSON value. -/
structure LedgerCodec (F : Type) extends Codec F where
  repr : Json F → String

/-- `str(value)`: a string as it is, any other value as `repr` writes it. -/
def LedgerCodec.str (codec : LedgerCodec F) : Json F → PyStr
  | .str text => text
  | value => pyStr (codec.repr value)

/-- `LEDGER_SCHEMA`. -/
def ledgerSchema : ℤ := 1

/-- `GENESIS`. -/
def genesis : PyStr := pyStr "genesis"

/-! ## Skipped days and ledgers -/

/-- Why a day is skipped; `noKrakenOpen` stands only in the ledger of the Kraken books. -/
inductive SkipReason where
  | noFillCandle
  | noSignalClose
  | noEurPrice
  | noKrakenOpen
  deriving DecidableEq, Repr

namespace SkipReason

/-- The text of a reason in the ledger. -/
def text : SkipReason → String
  | .noFillCandle => "NO_FILL_CANDLE"
  | .noSignalClose => "NO_SIGNAL_CLOSE"
  | .noEurPrice => "NO_EUR_PRICE"
  | .noKrakenOpen => "NO_KRAKEN_OPEN"

/-- `SkipReason(value)`; none where Python raises `ValueError`. -/
def ofJson? (value : Json F) : Option SkipReason :=
  [noFillCandle, noSignalClose, noEurPrice].find? fun reason => value.equalsStr (pyStr reason.text)

/-- The symbols a gap for this reason can name. -/
def symbols : SkipReason → List PyStr
  | .noFillCandle => [pyStr "BTCUSDT", pyStr "ETHUSDT"]
  | .noSignalClose => [pyStr "BTCUSDT", pyStr "ETHUSDT"]
  | .noEurPrice => [pyStr "BTCEUR", pyStr "ETHEUR", pyStr eurusdt]
  | .noKrakenOpen => [pyStr "XBTEUR", pyStr "ETHEUR"]

end SkipReason

/-- A paper day that booked no record because a public candle is missing for good. -/
structure SkippedDay where
  day : Date
  reason : SkipReason
  missing : List PyStr
  gapDay : Date
  deriving DecidableEq

/-- A verified ledger: its book records in order, the next `prev`, the booked days, the books'
last states, its size in bytes and its skipped days. -/
structure Ledger (F : Type) where
  records : List (Record F)
  tip : PyStr
  days : List Date
  states : Dict String (BookState F)
  size : ℕ
  skipped : List SkippedDay

namespace Ledger

/-- The number of lines: one per book record and one per skipped day. -/
def entries (ledger : Ledger F) : ℕ := ledger.records.length + ledger.skipped.length

/-- The later of the last booked day and the last skipped day. -/
def lastDayOf (days : List Date) (skipped : List SkippedDay) : Option Date :=
  match days.getLast?, skipped.getLast? with
  | none, none => none
  | some day, none => some day
  | none, some skip => some skip.day
  | some day, some skip => some (max day skip.day)

/-- The last day of the ledger. -/
def lastDay (ledger : Ledger F) : Option Date := lastDayOf ledger.days ledger.skipped

/-- A ledger without lines. -/
def empty : Ledger F := ⟨[], genesis, [], [], 0, []⟩

end Ledger

/-! ## Fields of a line -/

/-- `record.get(key)`. -/
def Record.get (record : Record F) (key : String) : Option (Json F) := record.get? (pyStr key)

/-- The record has a key. -/
def Record.has (record : Record F) (key : String) : Bool := (record.get key).isSome

/-- The value of the key is a string equal to the text. -/
def Record.isText (record : Record F) (key : String) (text : PyStr) : Bool :=
  ((record.get key).map fun value => value.equalsStr text).getD false

/-- `_iso_day`. -/
def isoDay (value : Option (Json F)) (what : String) : Except PaperFailure Date :=
  let failure := PaperFailure.paper .ledgerInvalid (what ++ " is not a YYYY-MM-DD date")
  match value with
  | some (.str text) => do
      let day ← require failure (Date.fromIsoformat? text)
      ensure (pyStr day.isoformat = text) failure
      return day
  | _ => .error failure

/-- `_number`: a finite number that is not a Boolean; `float` of a large integer raises. -/
def numberOf (value : Option (Json F)) (what : String) : Except PaperFailure F := do
  let failure := PaperFailure.paper .ledgerInvalid (what ++ " is not a finite number")
  let number ← match value with
    | some (.int number) => uncaught (PyFloat.ofInt number)
    | some (.float number) => .ok number
    | _ => .error failure
  ensure (PyFloat.isFinite number) failure
  return number

/-- The keys are exactly these, in any order. -/
def hasKeys (record : Record F) (keys : List PyStr) : Bool :=
  record.all (fun item => keys.contains item.1) && keys.all fun key => (record.get? key).isSome

/-- The keys of a skip line. -/
def skipKeys : List PyStr :=
  ["kind", "ts", "date", "reason", "missing", "gap_day", "schema", "seq", "prev", "sha256"].map pyStr

/-- The missing symbols of a skip: a sorted list of different symbols of the reason, not
empty. -/
def missingOf (reason : SkipReason) (value : Option (Json F)) : Option (List PyStr) := do
  match value with
  | some (.array items) =>
      let texts ← items.mapM Json.str?
      if texts ≠ [] ∧ (∀ text ∈ texts, text ∈ reason.symbols) ∧ texts = texts.dedup.mergeSort then
        some texts
      else none
  | _ => none

/-- The gap of a skip lies before its day when a signal misses a close, and else on the day. -/
def gapFits (reason : SkipReason) (day gapDay : Date) : Bool :=
  gapDay ≤ day && (if reason = .noSignalClose then gapDay ≠ day else gapDay = day)

/-- `_skip_of`: the skipped day of line `n`. -/
def skipOf (record : Record F) (n : ℕ) : Except PaperFailure SkippedDay := do
  let line := "line " ++ toString n
  ensure (hasKeys record skipKeys ∧ record.isText "kind" (pyStr "skip") ∧
      ((record.get "ts").bind Json.str?).isSome)
    (.paper .ledgerInvalid (line ++ ": not a valid skip entry"))
  let reason ← require (.paper .ledgerInvalid (line ++ ": unknown skip reason"))
    ((record.get "reason").bind SkipReason.ofJson?)
  let day ← isoDay (record.get "date") (line ++ " date")
  let gapDay ← isoDay (record.get "gap_day") (line ++ " gap_day")
  let mismatch := PaperFailure.paper .ledgerInvalid (line ++ ": skip entry does not match its reason")
  let missing ← require mismatch (missingOf reason (record.get "missing"))
  ensure (gapFits reason day gapDay) mismatch
  return ⟨day, reason, missing, gapDay⟩

/-- The sleeve that a record states for an asset. -/
def sleeveOf (assets : Dict PyStr (Json F)) (place : String) (asset : Asset) :
    Except PaperFailure (String × Sleeve F) :=
  match assets.get? (pyStr asset.text) with
  | some (.object members) => do
      let cash ← numberOf (Record.get members "cash_after") (place ++ " " ++ asset.text ++ " cash")
      let units ← numberOf (Record.get members "units_after") (place ++ " " ++ asset.text ++ " units")
      let held ← numberOf (Record.get members "held_after") (place ++ " " ++ asset.text ++ " held")
      return (asset.text, ⟨cash, units, held⟩)
  | _ => .error (.paper .ledgerInvalid (place ++ ": sleeve " ++ asset.text))

/-- `_sleeves_of`: the state of the book after a record. -/
def sleevesOf (record : Record F) (book : Book) (place : String) :
    Except PaperFailure (BookState F) := do
  let mismatch := PaperFailure.paper .ledgerInvalid (place ++ ": sleeves do not match " ++ book.id)
  match record.get "assets" with
  | some (.object assets) =>
      ensure (hasKeys assets (book.rule.assets.map fun asset => pyStr asset.text)) mismatch
      let sleeves ← book.rule.assets.mapM (sleeveOf assets place)
      let _ ← numberOf (record.get "equity") (place ++ " equity")
      return sleeves
  | _ => .error mismatch

/-! ## The chain -/

section Chain

variable (codec : LedgerCodec F)

/-- A verified part of the chain: the number of the next line, its `prev` and the lines. -/
structure Chain (F : Type) where
  next : ℕ
  tip : PyStr
  lines : List (Record F)

/-- The JSON object of a line, which is its canonical form. -/
def decodeLine (n : ℕ) (line : Bytes) : Except PaperFailure (Record F) := do
  let place := "line " ++ toString n
  let torn := PaperFailure.paper .ledgerTorn (place ++ " is not a JSON record")
  ensure (line.all fun byte => byte < 128) torn
  match codec.loads line with
  | .error (.constant token) => .error (.paper .ledgerEdited ("JSON constant " ++ token))
  | .error _ => .error torn
  | .ok (.object record) =>
      ensure (codec.dumps (.object record) = some line)
        (.paper .ledgerEdited (place ++ " is not canonical"))
      return record
  | .ok _ => .error (.paper .ledgerEdited (place ++ " is not an object"))

/-- `_sha` of the record without its own hash; the encoder's error is not caught. -/
def bodySha (record : Record F) : Except PaperFailure PyStr := do
  let encoded ← require .encoding
    (codec.dumps (.object (record.filter fun item => item.1 ≠ pyStr "sha256")))
  return codec.sha256Hex encoded

/-- Line `n` after the tip: its record and its hash. -/
def checkLine (n : ℕ) (tip : PyStr) (line : Bytes) : Except PaperFailure (Record F × PyStr) := do
  let place := "line " ++ toString n
  let record ← decodeLine codec n line
  let schema := (record.get "schema").getD .null
  ensure (schema.equalsInt codec.floatEquals ledgerSchema)
    (.paper .ledgerInvalid (place ++ ": unsupported schema " ++ codec.repr schema))
  let seq := (record.get "seq").getD .null
  ensure (seq.equalsInt codec.floatEquals n ∧ record.isText "prev" tip)
    (.paper .ledgerEdited (place ++ ": chain broken"))
  let digest ← bodySha codec record
  ensure (record.isText "sha256" digest) (.paper .ledgerEdited (place ++ ": hash mismatch"))
  return (record, digest)

/-- One more line is checked against the chain. -/
def verifyLine (chain : Chain F) (line : Bytes) : Except PaperFailure (Chain F) := do
  let (record, digest) ← checkLine codec chain.next chain.tip line
  return ⟨chain.next + 1, digest, chain.lines ++ [record]⟩

/-- The lines of `data`, not empty, checked as a continuation of the ledger's chain. -/
def verifyChain (ledger : Ledger F) (data : Bytes) : Except PaperFailure (Chain F) := do
  ensure (data.getLast? = some 10) (.paper .ledgerTorn "the last line is not terminated")
  (Lines.linesOf 10 data).foldlM (verifyLine codec) ⟨ledger.entries, ledger.tip, []⟩

end Chain

/-! ## The days -/

section Days

variable (codec : LedgerCodec F) (start : Date)

theorem books_length : books.length = 24 := rfl

/-- The scan of the days after some lines: what a ledger holds of them, the last day covered and
the number of the next line. -/
structure Scan (F : Type) where
  position : ℕ
  records : List (Record F)
  days : List Date
  skipped : List SkippedDay
  states : Dict String (BookState F)
  last : Option Date

/-- The day that must come next. -/
def Scan.expected (scan : Scan F) : Except PaperFailure Date :=
  match scan.last with
  | none => .ok start
  | some last => plusDays last 1

/-- The day found is the one that must come next. -/
def checkExpected (position : ℕ) (day expected : Date) : Except PaperFailure Unit :=
  ensure (day = expected) (.paper .ledgerInvalid ("line " ++ toString position ++ ": day " ++
    day.isoformat ++ ", expected " ++ expected.isoformat))

/-- A skipped day: one line, the books carry over unchanged. -/
def scanSkip (scan : Scan F) (record : Record F) : Except PaperFailure (Scan F) := do
  let expected ← scan.expected start
  let skip ← skipOf record scan.position
  checkExpected scan.position skip.day expected
  return { scan with
    position := scan.position + 1
    skipped := scan.skipped ++ [skip]
    last := some skip.day }

/-- The record of a book is read into the states. -/
def scanRecord (day : Date) (states : Dict String (BookState F)) (pair : Book × Record F) :
    Except PaperFailure (Dict String (BookState F)) := do
  let (book, record) := pair
  let place := day.isoformat ++ " " ++ book.id
  ensure (record.isText "date" (pyStr day.isoformat) ∧ record.isText "book" (pyStr book.id))
    (.paper .ledgerInvalid (place ++ ": books out of order or incomplete day"))
  let sleeves ← sleevesOf record book place
  return states.assign book.id sleeves

/-- A booked day: the records of all books, in order. -/
def scanGroup (scan : Scan F) (group : List (Record F)) : Except PaperFailure (Scan F) := do
  let expected ← scan.expected start
  ensure (books.length ≤ group.length ∧ ∀ record ∈ group, ¬ Record.has record "kind")
    (.paper .ledgerInvalid "a day does not hold all books")
  let date := ((group.head?.bind fun record => record.get "date").getD .null)
  let day ← require (.paper .ledgerInvalid ("line " ++ toString scan.position ++ ": bad date"))
    (Date.fromIsoformat? (codec.str date))
  checkExpected scan.position day expected
  let states ← (books.zip group).foldlM (scanRecord day) scan.states
  return { scan with
    position := scan.position + group.length
    records := scan.records ++ group
    days := scan.days ++ [day]
    states := states
    last := some day }

/-- Booked and skipped days, consecutive from the start, each exactly once. -/
def scanDays (scan : Scan F) : List (Record F) → Except PaperFailure (Scan F)
  | [] => .ok scan
  | record :: rest =>
      if Record.has record "kind" then
        match scanSkip start scan record with
        | .error failure => .error failure
        | .ok after => scanDays after rest
      else
        match scanGroup codec start scan ((record :: rest).take books.length) with
        | .error failure => .error failure
        | .ok after => scanDays after ((record :: rest).drop books.length)
  termination_by lines => lines.length
  decreasing_by
    · simp
    · simp only [List.length_drop, List.length_cons, books_length]
      omega

/-- A ledger as a scan to go on from. -/
def Ledger.scan (ledger : Ledger F) : Scan F :=
  ⟨ledger.entries, ledger.records, ledger.days, ledger.skipped, ledger.states, ledger.lastDay⟩

/-- `ledger` followed by the lines in `data`, verified as the whole file would be; only `data` is
parsed. -/
def extendLedger (ledger : Ledger F) (data : Bytes) : Except PaperFailure (Ledger F) :=
  if data = [] then .ok ledger
  else do
    let chain ← verifyChain codec ledger data
    let scan ← scanDays codec start ledger.scan chain.lines
    return ⟨scan.records, chain.tip, scan.days, scan.states, ledger.size + data.length, scan.skipped⟩

/-- Verify every line and the day structure. -/
def parseLedger (data : Bytes) : Except PaperFailure (Ledger F) :=
  extendLedger codec start Ledger.empty data

end Days

end CryptoRadar.Trend
