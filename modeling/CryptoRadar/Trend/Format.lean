import CryptoRadar.Trend.Ledger

/-!
# One format, two ledgers

The ledger of the Kraken books (`domain/trend_paper_kraken.py`) has the chain of the main ledger and
a scan of its days of the same kind: other books, other reasons to skip a day, two more fields that
a record must have and other messages. `LedgerFormat` is what the two differ in, and `extend` the
one verification with these parts left open. `mainFormat` gives the verification of the main ledger
(`extend_mainFormat`).
-/

set_option autoImplicit false

namespace CryptoRadar.Trend

open Checked

/-- What a ledger's format fixes: the books of a day, the reasons to skip one, the texts that a
record must hold besides, and the messages. -/
structure LedgerFormat where
  books : List Book
  reasons : List SkipReason
  fields : List (String × String)
  notSkip : String
  incomplete : String
  outOfOrder : String
  foreign : String
  someBook : books ≠ []

namespace LedgerFormat

variable {F : Type} [PyFloat F] (format : LedgerFormat)

/-- The skipped day of line `n`. -/
def skipOf (record : Record F) (n : ℕ) : Except PaperFailure SkippedDay := do
  let line := "line " ++ toString n
  ensure (hasKeys record skipKeys ∧ record.isText "kind" (pyStr "skip") ∧
      ((record.get "ts").bind Json.str?).isSome)
    (.paper .ledgerInvalid (line ++ format.notSkip))
  let reason ← require (.paper .ledgerInvalid (line ++ ": unknown skip reason"))
    ((record.get "reason").bind fun value =>
      format.reasons.find? fun reason => value.equalsStr (pyStr reason.text))
  let day ← isoDay (record.get "date") (line ++ " date")
  let gapDay ← isoDay (record.get "gap_day") (line ++ " gap_day")
  let mismatch := PaperFailure.paper .ledgerInvalid (line ++ ": skip entry does not match its reason")
  let missing ← require mismatch (missingOf reason (record.get "missing"))
  ensure (gapFits reason day gapDay) mismatch
  return ⟨day, reason, missing, gapDay⟩

section Days

variable (codec : LedgerCodec F) (start : Date)

/-- A skipped day: one line, the books carry over unchanged. -/
def scanSkip (scan : Scan F) (record : Record F) : Except PaperFailure (Scan F) := do
  let expected ← scan.expected start
  let skip ← format.skipOf record scan.position
  checkExpected scan.position skip.day expected
  return { scan with
    position := scan.position + 1
    skipped := scan.skipped ++ [skip]
    last := some skip.day }

def scanRecord (day : Date) (states : Dict String (BookState F)) (pair : Book × Record F) :
    Except PaperFailure (Dict String (BookState F)) := do
  let (book, record) := pair
  let place := day.isoformat ++ " " ++ book.id
  ensure (record.isText "date" (pyStr day.isoformat) ∧ record.isText "book" (pyStr book.id))
    (.paper .ledgerInvalid (place ++ format.outOfOrder))
  ensure (∀ field ∈ format.fields, record.isText field.1 (pyStr field.2))
    (.paper .ledgerInvalid (place ++ format.foreign))
  let sleeves ← sleevesOf record book place
  return states.assign book.id sleeves

/-- A booked day: the records of all books, in order. -/
def scanGroup (scan : Scan F) (group : List (Record F)) : Except PaperFailure (Scan F) := do
  let expected ← scan.expected start
  ensure (format.books.length ≤ group.length ∧ ∀ record ∈ group, ¬ Record.has record "kind")
    (.paper .ledgerInvalid format.incomplete)
  let date := ((group.head?.bind fun record => record.get "date").getD .null)
  let day ← require (.paper .ledgerInvalid ("line " ++ toString scan.position ++ ": bad date"))
    (Date.fromIsoformat? (codec.str date))
  checkExpected scan.position day expected
  let states ← (format.books.zip group).foldlM (format.scanRecord day) scan.states
  return { scan with
    position := scan.position + group.length
    records := scan.records ++ group
    days := scan.days ++ [day]
    states := states
    last := some day }

/-- Booked and skipped days, consecutive from the start, each exactly once. -/
def scanDays (scan : Scan F) : List (Record F) → Except PaperFailure (Scan F)
  | [] => .ok scan
  | record :: rest =>
      if Record.has record "kind" then
        match format.scanSkip start scan record with
        | .error failure => .error failure
        | .ok after => scanDays after rest
      else
        match format.scanGroup codec start scan ((record :: rest).take format.books.length) with
        | .error failure => .error failure
        | .ok after => scanDays after ((record :: rest).drop format.books.length)
  termination_by lines => lines.length
  decreasing_by
    · simp
    · have some := List.length_pos_iff.mpr format.someBook
      simp only [List.length_drop, List.length_cons]
      omega

/-- A ledger of the format followed by the lines in `data`, verified as the whole file would be. -/
def extend (ledger : Ledger F) (data : Bytes) : Except PaperFailure (Ledger F) :=
  if data = [] then .ok ledger
  else do
    let chain ← verifyChain codec ledger data
    let scan ← format.scanDays codec start ledger.scan chain.lines
    return ⟨scan.records, chain.tip, scan.days, scan.states, ledger.size + data.length, scan.skipped⟩

end Days

end LedgerFormat

/-! ## The main ledger -/

def mainFormat : LedgerFormat where
  books := books
  reasons := [.noFillCandle, .noSignalClose, .noEurPrice]
  fields := []
  notSkip := ": not a valid skip entry"
  incomplete := "a day does not hold all books"
  outOfOrder := ": books out of order or incomplete day"
  foreign := ""
  someBook := by decide

theorem scanSkip_mainFormat {F : Type} (start : Date) (scan : Scan F) (record : Record F) :
    mainFormat.scanSkip start scan record = scanSkip start scan record := rfl

section Main

variable {F : Type} [PyFloat F] (codec : LedgerCodec F) (start : Date)

theorem scanRecord_mainFormat (day : Date) :
    mainFormat.scanRecord (F := F) day = scanRecord day := by
  funext states pair
  unfold LedgerFormat.scanRecord scanRecord
  have noField : ∀ field ∈ mainFormat.fields, pair.2.isText field.1 (pyStr field.2) = true := by
    intro field member
    cases member
  simp only [ensure_of noField]
  rfl

theorem scanGroup_mainFormat (scan : Scan F) (group : List (Record F)) :
    mainFormat.scanGroup codec start scan group = scanGroup codec start scan group := by
  unfold LedgerFormat.scanGroup scanGroup
  simp only [scanRecord_mainFormat]
  rfl

theorem books_mainFormat : mainFormat.books = books := rfl

theorem scanDays_mainFormat (scan : Scan F) (lines : List (Record F)) :
    mainFormat.scanDays codec start scan lines = scanDays codec start scan lines := by
  fun_induction scanDays codec start scan lines with
  | case1 scan => rw [LedgerFormat.scanDays]
  | case2 scan record rest isSkip failure failed =>
      rw [LedgerFormat.scanDays, if_pos isSkip, scanSkip_mainFormat, failed]
  | case3 scan record rest isSkip after scanned hyp =>
      rw [LedgerFormat.scanDays, if_pos isSkip, scanSkip_mainFormat, scanned]
      exact hyp
  | case4 scan record rest noSkip failure failed =>
      rw [LedgerFormat.scanDays, if_neg noSkip, scanGroup_mainFormat, books_mainFormat, failed]
  | case5 scan record rest noSkip after scanned hyp =>
      rw [LedgerFormat.scanDays, if_neg noSkip, scanGroup_mainFormat, books_mainFormat, scanned]
      exact hyp

/-- The main ledger is verified by its format. -/
theorem extend_mainFormat (ledger : Ledger F) (data : Bytes) :
    mainFormat.extend codec start ledger data = extendLedger codec start ledger data := by
  unfold LedgerFormat.extend extendLedger
  simp only [scanDays_mainFormat]

end Main

end CryptoRadar.Trend
