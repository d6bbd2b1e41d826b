import CryptoRadar.Trend.Encoding
import CryptoRadar.Trend.Finality

/-!
# The lines of one more day

The lines that the encoder writes for the next day of a ledger extend it by that day: the records
of a booked day by the records, with their chain fields, and by the new states of the books
(`LedgerFormat.extend_encodeDay`), a skip entry by the skipped day (`LedgerFormat.extend_encodeSkip`).
What a record must have for it is `DayRecord`, what a gap must have is `SkipFits`.
-/

set_option autoImplicit false

namespace CryptoRadar.Trend

open Checked JsonText

/-! ## Records that were read back -/

section Read

variable {F : Type} {platform : Platform F}

/-- A field of a line besides those of the chain. -/
theorem get_chained {fields : Record F} (chainable : Chainable platform fields) (n : ℕ)
    {tip digest : PyStr} (tipValid : tip.Valid) (digestValid : digest.Valid) {key : String}
    (notChain : pyStr key ∉ chainKeys.map pyStr) :
    Record.get (Record.inOrder (chained fields n tip digest)) key =
      (Record.get fields key).map (Json.arranged true) := by
  let chain : Record F := chainFields n tip ++ [(pyStr "sha256", .str digest)]
  have absent : Dict.get? chain (pyStr key) = none := by
    refine Dict.get?_eq_none_iff.mpr fun item member same => notChain ?_
    have keys : chain.map Prod.fst = chainKeys.map pyStr := rfl
    rw [← keys, ← same]
    exact List.mem_map_of_mem member
  cases chainable.readable_chained n tipValid digestValid with
  | object distinct keys inner =>
      change Dict.get? (Record.inOrder (chained fields n tip digest)) (pyStr key) = _
      rw [Record.get?_inOrder distinct, chained, List.append_assoc, Dict.get?_append, absent,
        Option.or_none]
      rfl

/-- A text of a record is the text of its line. -/
theorem isText_chained {fields : Record F} (chainable : Chainable platform fields) (n : ℕ)
    {tip digest : PyStr} (tipValid : tip.Valid) (digestValid : digest.Valid) {key : String}
    (notChain : pyStr key ∉ chainKeys.map pyStr) {value : PyStr}
    (isText : Record.get fields key = some (.str value)) :
    (Record.inOrder (chained fields n tip digest)).isText key value = true := by
  unfold Record.isText
  rw [get_chained chainable n tipValid digestValid notChain, isText]
  simp [Json.arranged, Json.equalsStr]

/-- A record in order has the keys it had. -/
theorem hasKeys_inOrder {record : Record F} (distinct : (record.map Prod.fst).Nodup)
    (keys : List PyStr) : hasKeys (Record.inOrder record) keys = hasKeys record keys := by
  unfold hasKeys
  congr 1
  · rw [(Record.inOrder_perm record).all_eq, List.all_map]
    rfl
  · refine List.all_congr rfl fun key => ?_
    rw [Record.get?_inOrder distinct, Option.isSome_map]

variable [PyFloat F]

theorem numberOf_arranged (value : Option (Json F)) (what : String) :
    numberOf (value.map (Json.arranged true)) what = numberOf value what := by
  cases value with
  | none => rfl
  | some value => cases value <;> rw [Option.map_some, Json.arranged] <;> rfl

theorem sleeveOf_inOrder {assets : Dict PyStr (Json F)} (readable : (Json.object assets).Readable)
    (place : String) (asset : Asset) :
    sleeveOf (Record.inOrder assets) place asset = sleeveOf assets place asset := by
  unfold sleeveOf
  cases readable with
  | object distinct keys inner =>
      rw [Record.get?_inOrder distinct]
      cases found : Dict.get? assets (pyStr asset.text) with
      | none => rfl
      | some entry =>
          cases entry with
          | object members =>
              rw [Option.map_some, arranged_object]
              cases inner _ (Dict.mem_of_get?_eq_some found) with
              | object distinctMembers _ _ =>
                  unfold Record.get
                  simp only [Record.get?_inOrder distinctMembers, numberOf_arranged]
          | _ => rw [Option.map_some, Json.arranged]

/-- The state of the book is the same in the line as in the record. -/
theorem sleevesOf_chained {fields : Record F} (chainable : Chainable platform fields) (n : ℕ)
    {tip digest : PyStr} (tipValid : tip.Valid) (digestValid : digest.Valid) (book : Book)
    (place : String) :
    sleevesOf (Record.inOrder (chained fields n tip digest)) book place =
      sleevesOf fields book place := by
  unfold sleevesOf
  rw [get_chained chainable n tipValid digestValid (by decide),
    get_chained chainable n tipValid digestValid (by decide), numberOf_arranged]
  cases found : Record.get fields "assets" with
  | none => rfl
  | some value =>
      cases value with
      | object assets =>
          rw [Option.map_some, arranged_object]
          cases chainable.readable with
          | object _ _ inner =>
              have readable := inner _ (Dict.mem_of_get?_eq_some found)
              have sameSleeves : sleeveOf (Record.inOrder assets) place = sleeveOf assets place :=
                funext (sleeveOf_inOrder readable place)
              cases readable with
              | object distinct _ _ => simp only [hasKeys_inOrder distinct, sameSleeves]
      | _ => rw [Option.map_some, Json.arranged]

end Read

/-! ## A booked day -/

section Booked

variable {F : Type} [PyFloat F] {format : LedgerFormat} {platform : Platform F} {start day : Date}

/-- What the record of a book must have to be read back: it can be written in a line, it is no skip
entry, it has the texts of its day, its book and its format, and it tells the new state. -/
structure DayRecord (format : LedgerFormat) (platform : Platform F) (day : Date) (book : Book)
    (record : Record F) (after : BookState F) : Prop where
  chainable : Chainable platform record
  plain : Record.get record "kind" = none
  date : Record.get record "date" = some (text day.isoformat)
  isBook : Record.get record "book" = some (text book.id)
  fields : ∀ field ∈ format.fields, pyStr field.1 ∉ chainKeys.map pyStr ∧
    Record.get record field.1 = some (text field.2)
  sleeves : ∀ place, sleevesOf record book place = .ok after

theorem DayRecord.scanRecord {book : Book} {record : Record F} {after : BookState F}
    (isRecord : DayRecord format platform day book record after) (n : ℕ) {tip digest : PyStr}
    (tipValid : tip.Valid) (digestValid : digest.Valid) (states : Dict String (BookState F)) :
    format.scanRecord day states (book, Record.inOrder (chained record n tip digest)) =
      .ok (states.assign book.id after) := by
  have date := isText_chained isRecord.chainable n tipValid digestValid (by decide) isRecord.date
  have isBook := isText_chained isRecord.chainable n tipValid digestValid (by decide) isRecord.isBook
  have fields : ∀ field ∈ format.fields, (Record.inOrder (chained record n tip digest)).isText
      field.1 (pyStr field.2) = true := by
    intro field member
    obtain ⟨notChain, isText⟩ := isRecord.fields field member
    exact isText_chained isRecord.chainable n tipValid digestValid notChain isText
  have sleeves : ∀ place, sleevesOf (Record.inOrder (chained record n tip digest)) book place =
      .ok after := by
    intro place
    rw [sleevesOf_chained isRecord.chainable n tipValid digestValid, isRecord.sleeves]
  unfold LedgerFormat.scanRecord
  simp only [ensure_of (And.intro date isBook), ensure_of fields, sleeves, bind, Except.bind]
  rfl

/-- The lines of the records of a day, each with its book and the new state of the book. -/
inductive DayLines (format : LedgerFormat) (platform : Platform F) (day : Date) :
    List Book → List (Record F) → List (BookState F) → Prop where
  | nil : DayLines format platform day [] [] []
  | cons {book : Book} {record : Record F} {after : BookState F} {books : List Book}
      {records : List (Record F)} {news : List (BookState F)}
      (first : DayRecord format platform day book record after)
      (others : DayLines format platform day books records news) :
      DayLines format platform day (book :: books) (record :: records) (after :: news)

theorem DayLines.chainable {books : List Book} {records : List (Record F)}
    {news : List (BookState F)} (lines : DayLines format platform day books records news) :
    ∀ record ∈ records, Chainable platform record := by
  induction lines with
  | nil => simp
  | cons first others hyp => exact List.forall_mem_cons.mpr ⟨first.chainable, hyp⟩

theorem DayLines.length {books : List Book} {records : List (Record F)} {news : List (BookState F)}
    (lines : DayLines format platform day books records news) :
    records.length = books.length ∧ news.length = books.length := by
  induction lines with
  | nil => exact ⟨rfl, rfl⟩
  | cons first others hyp => simp [hyp.1, hyp.2]

def assignStates (states : Dict String (BookState F)) (books : List Book)
    (news : List (BookState F)) : Dict String (BookState F) :=
  (books.zip news).foldl (fun states pair => states.assign pair.1.id pair.2) states

omit [PyFloat F] in
theorem get?_assignStates_of_notMem {id : String} : ∀ {books : List Book} {news : List (BookState F)}
    {states : Dict String (BookState F)}, id ∉ books.map Book.id →
      (assignStates states books news).get? id = states.get? id := by
  intro books
  induction books with
  | nil =>
      intro news states absent
      rfl
  | cons book books hyp =>
      intro news states absent
      rw [List.map_cons, List.mem_cons, not_or] at absent
      cases news with
      | nil => rfl
      | cons after news =>
          have unchanged : (states.assign book.id after).get? id = states.get? id := by
            rw [Dict.get?_assign, if_neg (Ne.symm absent.1)]
          rw [assignStates, List.zip_cons_cons, List.foldl_cons, ← unchanged]
          exact hyp absent.2

omit [PyFloat F] in
theorem get?_assignStates {news : List (BookState F)} : ∀ {books : List Book}
    {states : Dict String (BookState F)}, (books.map Book.id).Nodup → news.length = books.length →
      ∀ book ∈ books, (assignStates states books news).get? book.id =
        Dict.get? ((books.map Book.id).zip news) book.id := by
  induction news with
  | nil =>
      intro books states _ lengths book member
      rw [List.eq_nil_of_length_eq_zero lengths.symm] at member
      cases member
  | cons after news hyp =>
      intro books states distinct lengths book member
      cases books with
      | nil => cases member
      | cons first books =>
          rw [List.map_cons, List.nodup_cons] at distinct
          rw [assignStates, List.zip_cons_cons, List.foldl_cons, ← assignStates, List.map_cons,
            List.zip_cons_cons, Dict.get?_cons]
          dsimp only
          by_cases same : first.id = book.id
          · rw [if_pos same, ← same, get?_assignStates_of_notMem distinct.1, Dict.get?_assign,
              if_pos rfl]
          · rw [if_neg same]
            have later : book ∈ books := (List.mem_cons.mp member).resolve_left fun equal =>
              same (congrArg Book.id equal.symm)
            exact hyp distinct.2 (Nat.succ.inj lengths) book later

/-- The lines of a day give the books their new states. -/
theorem foldlM_scanRecord {records lines : List (Record F)} {n : ℕ} {tip last : PyStr}
    (isChained : Chained n tip records lines last) :
    ∀ {books : List Book} {news : List (BookState F)} (states : Dict String (BookState F)),
      tip.Valid → DayLines format platform day books records news →
      (books.zip lines).foldlM (format.scanRecord day) states =
        .ok (assignStates states books news) := by
  induction isChained with
  | nil n tip =>
      intro books news states _ dayLines
      cases dayLines
      rfl
  | cons digestValid others hyp =>
      intro books news states tipValid dayLines
      cases dayLines with
      | cons first dayLines =>
          rw [List.zip_cons_cons, List.foldlM_cons,
            first.scanRecord _ tipValid digestValid states]
          exact hyp _ digestValid dayLines

theorem Chained.not_kind {records lines : List (Record F)} {n : ℕ} {tip last : PyStr}
    (isChained : Chained n tip records lines last) (tipValid : tip.Valid) :
    ∀ {books : List Book} {news : List (BookState F)},
      DayLines format platform day books records news →
      ∀ line ∈ lines, ¬ Record.has line "kind" := by
  induction isChained with
  | nil n tip => simp
  | cons digestValid others hyp =>
      intro books news dayLines
      cases dayLines with
      | cons first dayLines =>
          refine List.forall_mem_cons.mpr ⟨?_, hyp digestValid dayLines⟩
          unfold Record.has
          rw [get_chained first.chainable _ tipValid digestValid (by decide), first.plain]
          simp

/-- The lines of a day are scanned as the day. -/
theorem scanGroup_chained (codec : LedgerCodec F) {records lines : List (Record F)} {n : ℕ}
    {tip last : PyStr} {news : List (BookState F)} {scan : Scan F}
    (isExpected : scan.expected start = .ok day) (isChained : Chained n tip records lines last)
    (tipValid : tip.Valid) (dayLines : DayLines format platform day format.books records news) :
    format.scanGroup codec start scan lines = .ok { scan with
      position := scan.position + lines.length
      records := scan.records ++ lines
      days := scan.days ++ [day]
      states := assignStates scan.states format.books news
      last := some day } := by
  have whole : format.books.length ≤ lines.length := by
    rw [isChained.length, dayLines.length.1]
  have noKind := isChained.not_kind tipValid dayLines
  have head : ∃ line, lines.head? = some line ∧
      Record.get line "date" = some (text day.isoformat) := by
    have some := format.someBook
    cases isChained with
    | nil n tip =>
        exact absurd (List.eq_nil_of_length_eq_zero dayLines.length.1.symm) some
    | cons digestValid others =>
        refine ⟨_, rfl, ?_⟩
        generalize format.books = books at dayLines
        cases dayLines with
        | cons first dayLines =>
            rw [get_chained first.chainable _ tipValid digestValid (by decide), first.date]
            simp [text, Json.arranged]
  obtain ⟨line, isHead, date⟩ := head
  unfold LedgerFormat.scanGroup
  simp only [isExpected, bind, Except.bind, ensure_of (And.intro whole noKind), isHead,
    Option.bind_some, date, Option.getD_some, text, LedgerCodec.str,
    Date.fromIsoformat?_isoformat, require, checkExpected]
  have folded := foldlM_scanRecord isChained scan.states tipValid dayLines
  simp only [folded]
  rfl

/-- **An encoded day extends the ledger by the day**: by the records with their chain fields and by
the new states. -/
theorem LedgerFormat.extend_encodeDay (lawful : platform.Lawful) (few : format.books.length ≤ 24)
    (distinct : (format.books.map Book.id).Nodup) {ledger : Ledger F}
    (verified : format.Verified platform.codec start ledger)
    (isExpected : firstDayToBook ledger start = .ok day) {records : List (Record F)}
    {news : List (BookState F)} (dayLines : DayLines format platform day format.books records news) :
    ∃ data extended lines, encodeDay platform.codec ledger records = .ok data ∧
      format.extend platform.codec start ledger data = .ok extended ∧
      Chained ledger.entries ledger.tip records lines extended.tip ∧
      extended.records = ledger.records ++ lines ∧ extended.days = ledger.days ++ [day] ∧
      extended.skipped = ledger.skipped ∧
      ∀ book ∈ format.books, extended.states.get? book.id =
        Dict.get? ((format.books.map Book.id).zip news) book.id := by
  have tipValid := verified.tip_valid lawful
  have lengths := dayLines.length
  obtain ⟨data, last, lines, encoded, terminated, notEmpty, _, isChained, isVerified⟩ :=
    verifyLines_encodeRecord lawful records [] [] dayLines.chainable tipValid
      (verified.short isExpected few lengths.1.le)
  have someRecord : records ≠ [] := by
    rw [← List.length_pos_iff, lengths.1]
    exact List.length_pos_iff.mpr format.someBook
  have dataSome := notEmpty someRecord
  have lineCount : lines.length = format.books.length := isChained.length.trans lengths.1
  have chain : verifyChain platform.codec ledger data =
      .ok ⟨ledger.entries + records.length, last, lines⟩ := by
    have isLast : data.getLast? = some 10 := by
      rcases terminated with empty | ⟨front, rfl⟩
      · exact absurd empty dataSome
      · simp
    unfold verifyChain
    rw [ensure_of isLast]
    exact isVerified
  have scanned : format.scanDays platform.codec start ledger.scan lines = .ok { ledger.scan with
      position := ledger.entries + lines.length
      records := ledger.records ++ lines
      days := ledger.days ++ [day]
      states := assignStates ledger.states format.books news
      last := some day } := by
    have isNext : ledger.scan.expected start = .ok day := isExpected
    have group := scanGroup_chained platform.codec isNext isChained tipValid dayLines
    have noKind := isChained.not_kind tipValid dayLines
    cases lines with
    | nil => exact absurd lineCount.symm (List.length_pos_iff.mpr format.someBook).ne'
    | cons line rest =>
        rw [LedgerFormat.scanDays, if_neg (noKind line List.mem_cons_self), ← lineCount,
          List.take_length, group, List.drop_length]
        exact LedgerFormat.scanDays.eq_1 format platform.codec start _
  refine ⟨data, ⟨ledger.records ++ lines, last, ledger.days ++ [day],
    assignStates ledger.states format.books news, ledger.size + data.length, ledger.skipped⟩, lines, ?_,
    ?_, isChained, rfl, rfl, rfl, ?_⟩
  · unfold encodeDay
    rw [encoded]
    rfl
  · rw [LedgerFormat.extend_of_ne dataSome, chain]
    simp only [bind, Except.bind]
    rw [scanned]
    rfl
  · exact get?_assignStates distinct lengths.2

end Booked

/-! ## A skipped day -/

section Skipped

variable {F : Type} {format : LedgerFormat} {platform : Platform F} {start : Date}

/-- What a gap must have to be read back: a reason of the format, symbols of the reason and the day
that the reason asks for. -/
structure SkipFits (format : LedgerFormat) (found : DayGap) : Prop where
  reason : found.reason ∈ format.reasons
  symbols : ∀ gap ∈ found.gaps, pyStr gap.symbol ∈ found.reason.symbols
  gapDay : gapFits found.reason found.day found.gapDay = true

theorem SkipReason.text_injective : Function.Injective SkipReason.text := by
  intro first second
  cases first <;> cases second <;> decide

theorem skipFields_keys (found : DayGap) (ts : PyStr) : (skipFields (F := F) found ts).map Prod.fst =
    ["kind", "ts", "date", "reason", "missing", "gap_day"].map pyStr := rfl

theorem skipFields_chainable (found : DayGap) {ts : PyStr} (tsValid : ts.Valid) :
    Chainable platform (skipFields (F := F) found ts) := by
  have symbolsValid : ∀ symbol ∈ found.symbols, symbol.Valid := by
    intro symbol member
    rw [DayGap.symbols, List.mem_mergeSort, List.mem_dedup, List.mem_map] at member
    obtain ⟨gap, _, rfl⟩ := member
    exact valid_pyStr gap.symbol
  have distinct : ((skipFields (F := F) found ts).map Prod.fst).Nodup := by
    rw [skipFields_keys]
    decide
  refine ⟨.object distinct ?_ ?_, ?_, ?_⟩
  · intro item member
    simp only [skipFields, List.mem_cons, List.not_mem_nil, or_false] at member
    rcases member with rfl | rfl | rfl | rfl | rfl | rfl
    all_goals exact valid_pyStr _
  · intro item member
    simp only [skipFields, List.mem_cons, List.not_mem_nil, or_false] at member
    rcases member with rfl | rfl | rfl | rfl | rfl | rfl
    · exact .str (valid_pyStr _)
    · exact .str tsValid
    · exact .str (valid_pyStr _)
    · exact .str (valid_pyStr _)
    · refine .array fun value isSymbol => ?_
      obtain ⟨symbol, member, rfl⟩ := List.mem_map.mp isSymbol
      exact .str (symbolsValid symbol member)
    · exact .str (valid_pyStr _)
  · intro item member
    simp only [skipFields, List.mem_cons, List.not_mem_nil, or_false] at member
    rcases member with rfl | rfl | rfl | rfl | rfl | rfl
    · exact .str 7 _
    · exact .str 7 _
    · exact .str 7 _
    · exact .str 7 _
    · refine .array fun value isSymbol => ?_
      obtain ⟨symbol, _, rfl⟩ := List.mem_map.mp isSymbol
      exact .str 6 symbol
    · exact .str 7 _
  · intro key isChain
    simp only [chainKeys, List.mem_cons, List.not_mem_nil, or_false] at isChain
    rcases isChain with rfl | rfl | rfl | rfl
    all_goals rfl

/-- The symbols of a gap are sorted and each stands once. -/
theorem DayGap.symbols_sorted (found : DayGap) :
    found.symbols = found.symbols.dedup.mergeSort := by
  have once : found.symbols.Nodup :=
    (List.mergeSort_perm _ _).nodup_iff.mpr (List.nodup_dedup _)
  have sorted : found.symbols.Pairwise (· ≤ ·) := List.pairwise_mergeSort' (· ≤ ·) _
  rw [once.dedup, List.mergeSort_of_pairwise (by simpa using sorted)]

theorem DayGap.symbols_ne_nil (found : DayGap) : found.symbols ≠ [] := by
  intro none
  obtain ⟨gap, member⟩ := List.exists_mem_of_ne_nil _ found.blocking
  have inSymbols : pyStr gap.symbol ∈ found.symbols := by
    rw [DayGap.symbols, List.mem_mergeSort, List.mem_dedup]
    exact List.mem_map_of_mem member
  rw [none] at inSymbols
  cases inSymbols

theorem isoDay_isoformat (day : Date) (what : String) :
    isoDay (F := F) (some (.str (pyStr day.isoformat))) what = .ok day := by
  unfold isoDay
  simp only [Date.fromIsoformat?_isoformat, require, bind, Except.bind]
  rfl

theorem missingOf_symbols {found : DayGap}
    (known : ∀ gap ∈ found.gaps, pyStr gap.symbol ∈ found.reason.symbols) :
    missingOf (F := F) found.reason (some (.array (found.symbols.map .str))) = some found.symbols := by
  have texts : (found.symbols.map fun symbol => (.str symbol : Json F)).mapM Json.str? =
      some found.symbols := by
    refine mapM_eq_some.mpr (List.forall₂_map_left_iff.mpr ?_)
    exact List.forall₂_same.mpr fun symbol _ => rfl
  have inReason : ∀ symbol ∈ found.symbols, symbol ∈ found.reason.symbols := by
    intro symbol member
    rw [DayGap.symbols, List.mem_mergeSort, List.mem_dedup, List.mem_map] at member
    obtain ⟨gap, isGap, rfl⟩ := member
    exact known gap isGap
  unfold missingOf
  simp only [texts]
  exact if_pos ⟨found.symbols_ne_nil, inReason, found.symbols_sorted⟩

theorem skipFields_hasKeys (found : DayGap) {ts : PyStr} (n : ℕ) {tip digest : PyStr}
    (tipValid : tip.Valid) (digestValid : digest.Valid)
    (chainable : Chainable platform (skipFields found ts)) :
    hasKeys (Record.inOrder (chained (skipFields (F := F) found ts) n tip digest)) skipKeys = true := by
  cases chainable.readable_chained n tipValid digestValid with
  | object distinct _ _ =>
      rw [hasKeys_inOrder distinct]
      rfl

/-- A skip entry is read back as the skipped day. -/
theorem skipOf_chained (platform : Platform F) {found : DayGap} (fits : SkipFits format found)
    {ts : PyStr} (tsValid : ts.Valid) (n : ℕ) {tip digest : PyStr} (tipValid : tip.Valid)
    (digestValid : digest.Valid) (position : ℕ) :
    format.skipOf (Record.inOrder (chained (skipFields (F := F) found ts) n tip digest)) position =
      .ok ⟨found.day, found.reason, found.symbols, found.gapDay⟩ := by
  have chainable : Chainable platform (skipFields (F := F) found ts) := skipFields_chainable found tsValid
  have keys := skipFields_hasKeys found n tipValid digestValid chainable
  have isKind : Record.get (skipFields (F := F) found ts) "kind" = some (.str (pyStr "skip")) := rfl
  have kind := isText_chained chainable n tipValid digestValid (by decide) isKind
  have get : ∀ (key : String) (value : Json F), pyStr key ∉ chainKeys.map pyStr →
      Record.get (skipFields (F := F) found ts) key = some value → value.arranged true = value →
      Record.get (Record.inOrder (chained (skipFields (F := F) found ts) n tip digest)) key =
        some value := by
    intro key value notChain isValue same
    rw [get_chained chainable n tipValid digestValid notChain, isValue, Option.map_some, same]
  have arrangedText : ∀ value : PyStr, (.str value : Json F).arranged true = .str value := by
    intro value
    rw [Json.arranged]
  have isTs := get "ts" (.str ts) (by decide) rfl (arrangedText ts)
  have isReason := get "reason" (.str (pyStr found.reason.text)) (by decide) rfl (arrangedText _)
  have date := get "date" (.str (pyStr found.day.isoformat)) (by decide) rfl (arrangedText _)
  have gapDay := get "gap_day" (.str (pyStr found.gapDay.isoformat)) (by decide) rfl (arrangedText _)
  have missing := get "missing" (.array (found.symbols.map .str)) (by decide) rfl
    (by simp [Json.arranged, Function.comp_def])
  generalize Record.inOrder (chained (skipFields (F := F) found ts) n tip digest) = record at *
  have reason : format.reasons.find? (fun reason =>
      (.str (pyStr found.reason.text) : Json F).equalsStr (pyStr reason.text)) =
        some found.reason := by
    have same : (fun reason : SkipReason =>
        (.str (pyStr found.reason.text) : Json F).equalsStr (pyStr reason.text)) =
          fun reason => decide (reason = found.reason) := by
      funext reason
      refine decide_eq_decide.mpr ⟨fun equal => ?_, fun equal => by rw [equal]⟩
      exact (SkipReason.text_injective (pyStr_injective equal)).symm
    rw [same]
    cases search : format.reasons.find? fun reason => decide (reason = found.reason) with
    | none => exact absurd (List.find?_eq_none.mp search _ fits.reason) (by simp)
    | some other =>
        have equal := List.find?_some search
        rw [decide_eq_true_eq] at equal
        rw [equal]
  have valid : hasKeys record skipKeys = true ∧ record.isText "kind" (pyStr "skip") = true ∧
      ((Record.get record "ts").bind Json.str?).isSome = true := by
    rw [isTs]
    exact ⟨keys, kind, rfl⟩
  unfold LedgerFormat.skipOf
  simp only [ensure_of valid, bind, Except.bind, isReason, Option.bind_some, reason, require, date, gapDay,
    isoDay_isoformat, missing, missingOf_symbols fits.symbols, ensure_of fits.gapDay]
  rfl

variable [PyFloat F]

/-- **An encoded skip entry extends the ledger by the skipped day**, and by nothing else. -/
theorem LedgerFormat.extend_encodeSkip (lawful : platform.Lawful) (few : format.books.length ≤ 24)
    {ledger : Ledger F} (verified : format.Verified platform.codec start ledger) {found : DayGap}
    (isExpected : firstDayToBook ledger start = .ok found.day) (fits : SkipFits format found)
    {ts : PyStr} (tsValid : ts.Valid) :
    ∃ data extended, encodeSkip platform.codec ledger found ts = .ok data ∧
      format.extend platform.codec start ledger data = .ok extended ∧
      extended.skipped = ledger.skipped ++ [⟨found.day, found.reason, found.symbols, found.gapDay⟩] ∧
      extended.records = ledger.records ∧ extended.days = ledger.days ∧
      extended.states = ledger.states := by
  have tipValid := verified.tip_valid lawful
  have chainable : Chainable platform (skipFields (F := F) found ts) :=
    skipFields_chainable found tsValid
  have short := verified.short isExpected few (Nat.zero_le _) ledger.entries (Nat.le_add_right _ _)
  obtain ⟨line, hashed, encoded, whole, checked⟩ := checkLine_encodeBody lawful chainable tipValid short
  have digestValid := valid_of_ascii (digest_ascii lawful hashed)
  generalize platform.sha256Hex hashed = digest at *
  let record := Record.inOrder (chained (skipFields (F := F) found ts) ledger.entries ledger.tip digest)
  have chain : verifyChain platform.codec ledger (line ++ [10]) =
      .ok ⟨ledger.entries + 1, digest, [record]⟩ := by
    unfold verifyChain
    rw [ensure_of (by simp), Lines.linesOf_line whole]
    simp only [bind, Except.bind, List.foldlM_cons, verifyLine, checked, List.foldlM_nil]
    rfl
  have isSkip : Record.has record "kind" = true := by
    unfold Record.has
    rw [get_chained chainable _ tipValid digestValid (by decide)]
    rfl
  have scanned : format.scanDays platform.codec start ledger.scan [record] = .ok { ledger.scan with
      position := ledger.entries + 1
      skipped := ledger.skipped ++ [⟨found.day, found.reason, found.symbols, found.gapDay⟩]
      last := some found.day } := by
    have isNext : ledger.scan.expected start = .ok found.day := isExpected
    have read := skipOf_chained platform fits tsValid ledger.entries tipValid digestValid
      ledger.scan.position
    have skipped : format.scanSkip start ledger.scan record = .ok { ledger.scan with
        position := ledger.entries + 1
        skipped := ledger.skipped ++ [⟨found.day, found.reason, found.symbols, found.gapDay⟩]
        last := some found.day } := by
      unfold LedgerFormat.scanSkip
      simp only [isNext, bind, Except.bind]
      rw [read]
      simp only [checkExpected]
      rfl
    rw [LedgerFormat.scanDays, if_pos isSkip, skipped]
    exact LedgerFormat.scanDays.eq_1 format platform.codec start _
  refine ⟨line ++ [10], ⟨ledger.records, digest, ledger.days, ledger.states,
    ledger.size + (line ++ [10]).length,
    ledger.skipped ++ [⟨found.day, found.reason, found.symbols, found.gapDay⟩]⟩, ?_, ?_, rfl, rfl, rfl, rfl⟩
  · unfold encodeSkip
    rw [encoded]
    rfl
  · rw [LedgerFormat.extend_of_ne (by simp), chain]
    simp only [bind, Except.bind]
    rw [scanned]
    rfl

end Skipped

end CryptoRadar.Trend
