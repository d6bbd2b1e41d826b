import CryptoRadar.Trend.Format

/-!
# Reading a ledger on

A ledger that is extended keeps only a summary of what it has read: the number of its lines,
the tip of its chain, its last day and the states of its books. `extendLedger_append` shows
that the summary is enough: to extend a ledger by some bytes and then by others is to extend
it by both at once, with the same ledger or the same failure at the end. So an appended file
is read as the whole file would be.

The argument has two parts. The chain of two pieces is the chain of the first, continued
(`verifyChain_append`). A scan of the days stops only between days, where its state is the
summary of the ledger it leads to (`Scan.Summed`), and goes on from there
(`LedgerFormat.scanDays_append`). It is the same for every format of a ledger.
-/

set_option autoImplicit false

namespace CryptoRadar.Trend

open Checked

/-! ## The chain -/

section Chain

variable {F : Type} {codec : LedgerCodec F}

/-- The chain with more lines read before its own. -/
def Chain.after (before : List (Record F)) (chain : Chain F) : Chain F :=
  { chain with lines := before ++ chain.lines }

theorem verifyLine_eq_ok {chain more : Chain F} {line : Bytes}
    (verified : verifyLine codec chain line = .ok more) :
    ∃ record digest, more = ⟨chain.next + 1, digest, chain.lines ++ [record]⟩ := by
  obtain ⟨⟨record, digest⟩, _, result⟩ := bind_eq_ok.mp verified
  cases result
  exact ⟨record, digest, rfl⟩

/-- The lines already read do not matter to the next line. -/
theorem verifyLine_after (before : List (Record F)) (chain : Chain F) (line : Bytes) :
    verifyLine codec (chain.after before) line =
      (verifyLine codec chain line).map (Chain.after before) := by
  change checkLine codec chain.next chain.tip line >>= _ =
    Except.map _ (checkLine codec chain.next chain.tip line >>= _)
  cases checkLine codec chain.next chain.tip line with
  | error failure => rfl
  | ok checked => simp [bind, Except.bind, Chain.after, Except.map, pure, Except.pure]

/-- Nor do they to all further lines. -/
theorem verifyLines_after (before : List (Record F)) (lines : List Bytes) :
    ∀ chain : Chain F, lines.foldlM (verifyLine codec) (chain.after before) =
      (lines.foldlM (verifyLine codec) chain).map (Chain.after before) := by
  induction lines with
  | nil =>
      intro chain
      rfl
  | cons line rest hyp =>
      intro chain
      rw [List.foldlM_cons, List.foldlM_cons, verifyLine_after]
      cases verifyLine codec chain line with
      | error failure => rfl
      | ok more => exact hyp more

/-- The number of the next line counts the lines read. -/
theorem verifyLines_next {lines : List Bytes} {base : ℕ} {tip : PyStr} {chain : Chain F}
    (verified : lines.foldlM (verifyLine codec) ⟨base, tip, []⟩ = .ok chain) :
    chain.next = base + chain.lines.length := by
  refine foldlM_invariant (fun chain : Chain F => chain.next = base + chain.lines.length) ?_ lines
    (by simp) verified
  intro chain line more counted step
  obtain ⟨record, digest, rfl⟩ := verifyLine_eq_ok step
  simp only [List.length_append, List.length_singleton]
  omega

theorem terminated_of_getLast {data : Bytes} (last : data.getLast? = some 10) :
    Lines.Terminated 10 data :=
  .inr ⟨data.dropLast, (List.dropLast_append_getLast? 10 last).symm⟩

theorem verifyChain_eq_ok {ledger : Ledger F} {data : Bytes} {chain : Chain F}
    (verified : verifyChain codec ledger data = .ok chain) :
    data.getLast? = some 10 ∧
      (Lines.linesOf 10 data).foldlM (verifyLine codec) ⟨ledger.entries, ledger.tip, []⟩ =
        .ok chain := by
  obtain ⟨_, last, folded⟩ := bind_eq_ok.mp verified
  exact ⟨ensure_eq_ok.mp last, folded⟩

/-- The chain of more bytes continues the chain of the first: `middle` is any ledger with the
number of lines and the tip that the first leads to. -/
theorem verifyChain_append {ledger middle : Ledger F} {data more : Bytes} {chain : Chain F}
    (verified : verifyChain codec ledger data = .ok chain) (notEmpty : more ≠ [])
    (entries : middle.entries = chain.next) (tip : middle.tip = chain.tip) :
    verifyChain codec ledger (data ++ more) =
      (verifyChain codec middle more).map (Chain.after chain.lines) := by
  obtain ⟨last, folded⟩ := verifyChain_eq_ok verified
  have sameLast : (data ++ more).getLast? = more.getLast? := by
    rw [List.getLast?_append]
    obtain ⟨byte, found⟩ := Option.isSome_iff_exists.mp (List.getLast?_isSome.mpr notEmpty)
    rw [found]
    rfl
  have resumed : (⟨middle.entries, middle.tip, []⟩ : Chain F).after chain.lines = chain := by
    rw [entries, tip]
    simp [Chain.after]
  unfold verifyChain
  rw [sameLast, Lines.linesOf_append (terminated_of_getLast last), List.foldlM_append, folded]
  by_cases terminated : more.getLast? = some 10
  · rw [ensure_of terminated]
    have continued : (Lines.linesOf 10 more).foldlM (verifyLine codec) chain = _ :=
      resumed ▸ verifyLines_after chain.lines (Lines.linesOf 10 more) ⟨middle.entries, middle.tip, []⟩
    exact continued
  · unfold ensure
    rw [if_neg terminated]
    rfl

end Chain

/-! ## The days -/

section Days

variable {F : Type} {format : LedgerFormat} {codec : LedgerCodec F} {start : Date}

/-- The scan is at the end of a day: the number of the next line and the last day are those of a
ledger that holds what the scan has read. -/
structure Scan.Summed (scan : Scan F) : Prop where
  position : scan.position = scan.records.length + scan.skipped.length
  last : scan.last = Ledger.lastDayOf scan.days scan.skipped

theorem Ledger.scan_summed (ledger : Ledger F) : ledger.scan.Summed := ⟨rfl, rfl⟩

/-- The day that comes next is after every day covered. -/
theorem Scan.expected_after {scan : Scan F} {expected last : Date}
    (isExpected : scan.expected start = .ok expected) (covered : scan.last = some last) :
    last < expected := by
  unfold Scan.expected at isExpected
  rw [covered] at isExpected
  have moved := Date.plusDays?_eq_some.mp (require_eq_ok.mp isExpected)
  rw [Date.lt_iff]
  omega

/-- A later day at the end of the booked days is the last day covered. -/
theorem lastDayOf_book {days : List Date} {skipped : List SkippedDay} {day : Date}
    (later : ∀ last, Ledger.lastDayOf days skipped = some last → last < day) :
    Ledger.lastDayOf (days ++ [day]) skipped = some day := by
  unfold Ledger.lastDayOf at later ⊢
  rw [List.getLast?_concat]
  cases found : skipped.getLast? with
  | none => rfl
  | some skip =>
      have before : skip.day < day := by
        cases booked : days.getLast? with
        | none => exact later skip.day (by rw [found, booked])
        | some last => exact lt_of_le_of_lt (le_max_right _ _) (later _ (by rw [found, booked]))
      exact congrArg some (max_eq_left before.le)

/-- So is a later day at the end of the skipped days. -/
theorem lastDayOf_skip {days : List Date} {skipped : List SkippedDay} {skip : SkippedDay}
    (later : ∀ last, Ledger.lastDayOf days skipped = some last → last < skip.day) :
    Ledger.lastDayOf days (skipped ++ [skip]) = some skip.day := by
  unfold Ledger.lastDayOf at later ⊢
  rw [List.getLast?_concat]
  cases found : days.getLast? with
  | none => rfl
  | some booked =>
      have before : booked < skip.day := by
        cases already : skipped.getLast? with
        | none => exact later booked (by rw [found, already])
        | some last => exact lt_of_le_of_lt (le_max_left _ _) (later _ (by rw [found, already]))
      exact congrArg some (max_eq_right before.le)

theorem checkExpected_eq_ok {position : ℕ} {day expected : Date} {done : Unit}
    (checked : checkExpected position day expected = .ok done) : day = expected :=
  ensure_eq_ok.mp checked

theorem LedgerFormat.scanSkip_summed {scan after : Scan F} {record : Record F}
    (summed : scan.Summed) (scanned : format.scanSkip start scan record = .ok after) :
    after.Summed ∧ after.position = scan.position + 1 := by
  obtain ⟨expected, isExpected, scanned⟩ := bind_eq_ok.mp scanned
  obtain ⟨skip, _, scanned⟩ := bind_eq_ok.mp scanned
  obtain ⟨_, checked, scanned⟩ := bind_eq_ok.mp scanned
  cases scanned
  have isDay := checkExpected_eq_ok checked
  refine ⟨⟨?_, ?_⟩, rfl⟩
  · simp only [summed.position, List.length_append, List.length_singleton]
    omega
  · refine (lastDayOf_skip fun last covered => ?_).symm
    rw [isDay]
    exact Scan.expected_after isExpected (summed.last.trans covered)

variable [PyFloat F]

theorem LedgerFormat.scanGroup_summed {scan after : Scan F} {group : List (Record F)}
    (summed : scan.Summed) (scanned : format.scanGroup codec start scan group = .ok after) :
    after.Summed ∧ after.position = scan.position + group.length := by
  obtain ⟨expected, isExpected, scanned⟩ := bind_eq_ok.mp scanned
  obtain ⟨_, _, scanned⟩ := bind_eq_ok.mp scanned
  obtain ⟨day, _, scanned⟩ := bind_eq_ok.mp scanned
  obtain ⟨_, checked, scanned⟩ := bind_eq_ok.mp scanned
  obtain ⟨states, _, scanned⟩ := bind_eq_ok.mp scanned
  cases scanned
  have isDay := checkExpected_eq_ok checked
  refine ⟨⟨?_, ?_⟩, rfl⟩
  · simp only [summed.position, List.length_append]
    omega
  · refine (lastDayOf_book fun last covered => ?_).symm
    rw [isDay]
    exact Scan.expected_after isExpected (summed.last.trans covered)

/-- A booked day has as many lines as there are books. -/
theorem LedgerFormat.scanGroup_length {scan after : Scan F} {group : List (Record F)}
    (scanned : format.scanGroup codec start scan group = .ok after) :
    format.books.length ≤ group.length := by
  obtain ⟨_, _, scanned⟩ := bind_eq_ok.mp scanned
  obtain ⟨_, complete, _⟩ := bind_eq_ok.mp scanned
  exact (ensure_eq_ok.mp complete).1

/-- The rule of a scan that is carried out, from its end: what holds when no line is left, and with a
skip line or a day before lines that it holds of, holds of the lines scanned. -/
theorem LedgerFormat.scanDays_rule {after : Scan F} (holds : Scan F → List (Record F) → Prop)
    (ended : holds after [])
    (skipped : ∀ {scan next : Scan F} {record : Record F} {rest : List (Record F)},
      Record.has record "kind" → format.scanSkip start scan record = .ok next →
      holds next rest → holds scan (record :: rest))
    (booked : ∀ {scan next : Scan F} {record : Record F} {rest : List (Record F)},
      ¬ Record.has record "kind" →
      format.scanGroup codec start scan ((record :: rest).take format.books.length) = .ok next →
      holds next ((record :: rest).drop format.books.length) → holds scan (record :: rest))
    (scan : Scan F) (lines : List (Record F))
    (scanned : format.scanDays codec start scan lines = .ok after) : holds scan lines := by
  induction scan, lines using LedgerFormat.scanDays.induct format codec start with
  | case1 scan =>
      rw [LedgerFormat.scanDays] at scanned
      cases scanned
      exact ended
  | case2 scan record rest isSkip failure failed =>
      rw [LedgerFormat.scanDays, if_pos isSkip, failed] at scanned
      cases scanned
  | case3 scan record rest isSkip next stepped hyp =>
      rw [LedgerFormat.scanDays, if_pos isSkip, stepped] at scanned
      exact skipped isSkip stepped (hyp scanned)
  | case4 scan record rest isBook failure failed =>
      rw [LedgerFormat.scanDays, if_neg isBook, failed] at scanned
      cases scanned
  | case5 scan record rest isBook next stepped hyp =>
      rw [LedgerFormat.scanDays, if_neg isBook, stepped] at scanned
      exact booked isBook stepped (hyp scanned)

/-- A scan that starts between days ends between days, and counts its lines. -/
theorem LedgerFormat.scanDays_summed (scan : Scan F) (lines : List (Record F)) {after : Scan F}
    (summed : scan.Summed) (scanned : format.scanDays codec start scan lines = .ok after) :
    after.Summed ∧ after.position = scan.position + lines.length := by
  revert summed
  refine LedgerFormat.scanDays_rule
    (fun scan lines => scan.Summed → after.Summed ∧ after.position = scan.position + lines.length)
    (fun summed => ⟨summed, rfl⟩) ?_ ?_ scan lines scanned
  · intro scan next record rest _ stepped hyp summed
    obtain ⟨nextSummed, nextPosition⟩ := LedgerFormat.scanSkip_summed summed stepped
    obtain ⟨afterSummed, position⟩ := hyp nextSummed
    refine ⟨afterSummed, ?_⟩
    rw [position, nextPosition, List.length_cons]
    omega
  · intro scan next record rest _ stepped hyp summed
    obtain ⟨nextSummed, nextPosition⟩ := LedgerFormat.scanGroup_summed summed stepped
    obtain ⟨afterSummed, position⟩ := hyp nextSummed
    refine ⟨afterSummed, ?_⟩
    rw [position, nextPosition, Nat.add_assoc, ← List.length_append, List.take_append_drop]

/-- A scan goes on from where it stopped. -/
theorem LedgerFormat.scanDays_append (scan : Scan F) (lines more : List (Record F))
    {after : Scan F} (scanned : format.scanDays codec start scan lines = .ok after) :
    format.scanDays codec start scan (lines ++ more) = format.scanDays codec start after more := by
  refine LedgerFormat.scanDays_rule (fun scan lines =>
    format.scanDays codec start scan (lines ++ more) = format.scanDays codec start after more)
    rfl ?_ ?_ scan lines scanned
  · intro scan next record rest isSkip stepped hyp
    rw [List.cons_append, LedgerFormat.scanDays, if_pos isSkip, stepped]
    exact hyp
  · intro scan next record rest isBook stepped hyp
    -- The day is whole, so its lines are the same with more lines after them.
    have whole : format.books.length ≤ (record :: rest).length :=
      (LedgerFormat.scanGroup_length stepped).trans (List.length_take_le' _ _)
    rw [List.cons_append, LedgerFormat.scanDays, if_neg isBook, ← List.cons_append,
      List.take_append_of_le_length whole, List.drop_append_of_le_length whole, stepped]
    exact hyp

end Days

/-! ## The ledger -/

section Ledger

variable {F : Type} [PyFloat F] {format : LedgerFormat} {codec : LedgerCodec F} {start : Date}

theorem LedgerFormat.extend_nil (ledger : Ledger F) :
    format.extend codec start ledger [] = .ok ledger :=
  if_pos rfl

theorem LedgerFormat.extend_of_ne {data : Bytes} (notEmpty : data ≠ []) (ledger : Ledger F) :
    format.extend codec start ledger data = (do
      let chain ← verifyChain codec ledger data
      let scan ← format.scanDays codec start ledger.scan chain.lines
      return ⟨scan.records, chain.tip, scan.days, scan.states, ledger.size + data.length,
        scan.skipped⟩) :=
  if_neg notEmpty

/-- What a ledger that was extended has of the lines read: its chain goes on where theirs ended
and its scan where theirs stopped. -/
theorem LedgerFormat.extend_eq_ok {ledger extended : Ledger F} {data : Bytes} (notEmpty : data ≠ [])
    (isExtended : format.extend codec start ledger data = .ok extended) :
    ∃ chain, verifyChain codec ledger data = .ok chain ∧
      extended.entries = chain.next ∧ extended.tip = chain.tip ∧
      format.scanDays codec start ledger.scan chain.lines = .ok extended.scan ∧
      extended.size = ledger.size + data.length := by
  rw [LedgerFormat.extend_of_ne notEmpty] at isExtended
  obtain ⟨chain, verified, isExtended⟩ := bind_eq_ok.mp isExtended
  obtain ⟨scan, scanned, isExtended⟩ := bind_eq_ok.mp isExtended
  cases isExtended
  obtain ⟨summed, position⟩ :=
    LedgerFormat.scanDays_summed ledger.scan chain.lines ledger.scan_summed scanned
  have counted : chain.next = ledger.entries + chain.lines.length :=
    verifyLines_next (verifyChain_eq_ok verified).2
  refine ⟨chain, verified, ?_, rfl, ?_, rfl⟩
  · exact (summed.position.symm.trans position).trans counted.symm
  · rw [scanned]
    have same : scan = ⟨scan.records.length + scan.skipped.length, scan.records, scan.days,
        scan.skipped, scan.states, Ledger.lastDayOf scan.days scan.skipped⟩ := by
      rw [← summed.position, ← summed.last]
    exact congrArg Except.ok same

/-- A ledger extended twice is the ledger extended by both pieces at once, or fails as it does. -/
theorem LedgerFormat.extend_twice {ledger extended : Ledger F} {data : Bytes} (more : Bytes)
    (isExtended : format.extend codec start ledger data = .ok extended) :
    format.extend codec start extended more = format.extend codec start ledger (data ++ more) := by
  by_cases dataEmpty : data = []
  · subst dataEmpty
    rw [LedgerFormat.extend_nil] at isExtended
    cases isExtended
    rfl
  by_cases moreEmpty : more = []
  · subst moreEmpty
    rw [List.append_nil, LedgerFormat.extend_nil, isExtended]
  obtain ⟨chain, verified, entries, tip, scanned, size⟩ :=
    LedgerFormat.extend_eq_ok dataEmpty isExtended
  rw [LedgerFormat.extend_of_ne moreEmpty,
    LedgerFormat.extend_of_ne (List.append_ne_nil_of_left_ne_nil dataEmpty _),
    verifyChain_append verified moreEmpty entries tip]
  cases verifyChain codec extended more with
  | error failure => rfl
  | ok continued =>
      have resumed :=
        LedgerFormat.scanDays_append ledger.scan chain.lines continued.lines scanned
      change format.scanDays codec start extended.scan continued.lines >>= _ =
        format.scanDays codec start ledger.scan (chain.lines ++ continued.lines) >>= _
      rw [resumed]
      refine bind_congr fun scan => ?_
      rw [size, List.length_append, Nat.add_assoc]
      rfl

theorem extendLedger_nil (ledger : Ledger F) : extendLedger codec start ledger [] = .ok ledger :=
  if_pos rfl

theorem extendLedger_twice {ledger extended : Ledger F} {data : Bytes} (more : Bytes)
    (isExtended : extendLedger codec start ledger data = .ok extended) :
    extendLedger codec start extended more = extendLedger codec start ledger (data ++ more) := by
  rw [← extend_mainFormat] at isExtended
  rw [← extend_mainFormat, ← extend_mainFormat, LedgerFormat.extend_twice more isExtended]

/-- A ledger counts the bytes it was read from. -/
theorem extendLedger_size {ledger extended : Ledger F} {data : Bytes}
    (isExtended : extendLedger codec start ledger data = .ok extended) :
    extended.size = ledger.size + data.length := by
  by_cases empty : data = []
  · subst empty
    rw [extendLedger_nil] at isExtended
    cases isExtended
    rfl
  · rw [← extend_mainFormat] at isExtended
    obtain ⟨_, _, _, _, _, size⟩ := LedgerFormat.extend_eq_ok empty isExtended
    exact size

/-- **Incremental verification equals whole-file verification**: a ledger extended twice is the
ledger extended by both pieces at once, or fails as it does. -/
theorem extendLedger_append (codec : LedgerCodec F) (start : Date) (ledger extended : Ledger F)
    (data more : Bytes) (isExtended : extendLedger codec start ledger data = .ok extended) :
    extendLedger codec start extended more = extendLedger codec start ledger (data ++ more) :=
  extendLedger_twice more isExtended

end Ledger

/-! ## A ledger of one skipped day -/

def skipDigest : List String :=
  ["98ddad573cdc6237", "f85118c9358153e6", "3a0af5728653f50d", "c472b16d0d1d09af"]

/-- The line that skips the first day, with the text of its own hash, if any. -/
def skipText (hash : List String) : Bytes := bytesOf (
  ["\x7b\"date\":\"2026-10-04\"", ",\"gap_day\":\"2026-10-04\"", ",\"kind\":\"skip\"",
    ",\"missing\":[\"BTCUSDT\"]", ",\"prev\":\"genesis\"", ",\"reason\":\"NO_FILL_CANDLE\"",
    ",\"schema\":1,\"seq\":0"] ++ hash ++ [",\"ts\":\"t\"\x7d"])

def skipLine : Bytes := skipText ([",\"sha256\":\""] ++ skipDigest ++ ["\""])

def skipRecord : Record Float :=
  [(pyStr "date", text "2026-10-04"), (pyStr "gap_day", text "2026-10-04"),
    (pyStr "kind", text "skip"), (pyStr "missing", .array [text "BTCUSDT"]),
    (pyStr "prev", text "genesis"), (pyStr "reason", text "NO_FILL_CANDLE"),
    (pyStr "schema", .int 1), (pyStr "seq", .int 0), (pyStr "sha256", .str (textOf skipDigest)),
    (pyStr "ts", text "t")]

/-- `json` and `sha256` on the skip line and on its body; other inputs do not occur. -/
def skipCodec : LedgerCodec Float where
  loads line := if line = skipLine then .ok (.object skipRecord) else .error .notJson
  dumps
    | .object members => some (if Record.has members "sha256" then skipLine else skipText [])
    | _ => none
  sha256Hex data := if data = skipText [] then textOf skipDigest else []
  floatEquals float number := float == Float.ofInt number
  repr _ := ""

/-- 2026-10-03. -/
def eveOfStart : Date := ⟨739892, by decide, by decide⟩

/-- 2026-10-04. -/
def paperStart : Date := ⟨739893, by decide, by decide⟩

/-- 2026-10-05. -/
def dayAfterStart : Date := ⟨739894, by decide, by decide⟩

/-- 2026-10-06. -/
def twoDaysAfterStart : Date := ⟨739895, by decide, by decide⟩

theorem skipLine_verified :
    (extendLedger skipCodec paperStart Ledger.empty (skipLine ++ [10])).isOk = true := by
  decide +kernel

theorem skipLine_extends :
    ∃ extended, extendLedger skipCodec paperStart Ledger.empty (skipLine ++ [10]) = .ok extended := by
  have verified := skipLine_verified
  cases found : extendLedger skipCodec paperStart Ledger.empty (skipLine ++ [10]) with
  | ok extended => exact ⟨extended, rfl⟩
  | error failure =>
      rw [found] at verified
      cases verified

def nextDigest : List String :=
  ["bfe6b9df0c0b79cb", "6364c81f2ffd103c", "60d7f94d11e8cb67", "7e6e6a49e3039b53"]

/-- The line that skips the second day, with the text of its own hash, if any. -/
def nextText (hash : List String) : Bytes := bytesOf (
  ["\x7b\"date\":\"2026-10-05\"", ",\"gap_day\":\"2026-10-05\"", ",\"kind\":\"skip\"",
    ",\"missing\":[\"BTCUSDT\"]", ",\"prev\":\""] ++ skipDigest ++ ["\",\"reason\":\"NO_FILL_CANDLE\"",
    ",\"schema\":1,\"seq\":1"] ++ hash ++ [",\"ts\":\"t\"\x7d"])

def nextLine : Bytes := nextText ([",\"sha256\":\""] ++ nextDigest ++ ["\""])

def nextRecord : Record Float :=
  [(pyStr "date", text "2026-10-05"), (pyStr "gap_day", text "2026-10-05"),
    (pyStr "kind", text "skip"), (pyStr "missing", .array [text "BTCUSDT"]),
    (pyStr "prev", .str (textOf skipDigest)), (pyStr "reason", text "NO_FILL_CANDLE"),
    (pyStr "schema", .int 1), (pyStr "seq", .int 1), (pyStr "sha256", .str (textOf nextDigest)),
    (pyStr "ts", text "t")]

/-- `json` and `sha256` on both skip lines and on their bodies. -/
def twoSkipsCodec : LedgerCodec Float where
  loads line := if line = nextLine then .ok (.object nextRecord) else skipCodec.loads line
  dumps
    | .object members =>
        match Record.get members "seq" with
        | some (.int 1) => some (if Record.has members "sha256" then nextLine else nextText [])
        | _ => skipCodec.dumps (.object members)
    | other => skipCodec.dumps other
  sha256Hex data := if data = nextText [] then textOf nextDigest else skipCodec.sha256Hex data
  floatEquals := skipCodec.floatEquals
  repr := skipCodec.repr

theorem twoSkips_verified :
    (extendLedger twoSkipsCodec paperStart Ledger.empty (skipLine ++ [10])).isOk = true ∧
      (extendLedger twoSkipsCodec paperStart Ledger.empty (skipLine ++ [10] ++ (nextLine ++ [10]))).isOk =
        true := by
  decide +kernel

/-- The first skipped day, and then the second. -/
theorem extendLedger_append_next :
    ∃ first both, extendLedger twoSkipsCodec paperStart Ledger.empty (skipLine ++ [10]) = .ok first ∧
      extendLedger twoSkipsCodec paperStart first (nextLine ++ [10]) = .ok both ∧
      extendLedger twoSkipsCodec paperStart Ledger.empty (skipLine ++ [10] ++ (nextLine ++ [10])) = .ok both := by
  obtain ⟨isFirst, isBoth⟩ := twoSkips_verified
  cases first : extendLedger twoSkipsCodec paperStart Ledger.empty (skipLine ++ [10]) with
  | error failure =>
      rw [first] at isFirst
      cases isFirst
  | ok extended =>
      have appended := extendLedger_append twoSkipsCodec paperStart Ledger.empty extended (skipLine ++ [10])
        (nextLine ++ [10]) first
      cases both : extendLedger twoSkipsCodec paperStart Ledger.empty
        (skipLine ++ [10] ++ (nextLine ++ [10])) with
      | error failure =>
          rw [both] at isBoth
          cases isBoth
      | ok last => exact ⟨extended, last, rfl, appended.trans both, rfl⟩

end CryptoRadar.Trend
