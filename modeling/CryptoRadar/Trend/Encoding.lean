import CryptoRadar.Lib.CalendarText
import CryptoRadar.Trend.Booked
import CryptoRadar.Trend.Canonical
import CryptoRadar.Trend.Extend
import CryptoRadar.Trend.Format

/-!
# What is encoded is verified

The lines that the encoder writes after a ledger are verified as a continuation of it, and what is
read back is what was encoded.
-/

set_option autoImplicit false

namespace CryptoRadar.Trend

open Checked JsonText

/-! ## One line -/

theorem valid_of_ascii {text : PyStr} (ascii : Ascii text) : text.Valid := by
  induction text with
  | nil => exact valid_nil
  | cons code text hyp =>
      have small := ascii code List.mem_cons_self
      refine valid_cons (by omega) (hyp ascii.tail) fun high => ?_
      unfold isHigh at high
      simp only [Bool.and_eq_true, decide_eq_true_eq] at high
      omega

section Line

variable {F : Type} {platform : Platform F}

theorem digest_ascii (lawful : platform.Lawful) (data : Bytes) : Ascii (platform.sha256Hex data) := by
  intro code member
  have isHex := (lawful.hexDigits data).2 code member
  unfold hexValue? at isHex
  grind

/-- Fields that a line can hold besides those of the chain. -/
structure Chainable (platform : Platform F) (fields : Record F) : Prop where
  readable : (Json.object fields).Readable
  encodable : ∀ item ∈ fields, Encodable platform.floats platform.limits 7 item.2
  unchained : ∀ key ∈ chainKeys, Record.get fields key = none

/-- The record of a line: the fields, those of the chain and the hash. -/
def chained (fields : Record F) (n : ℕ) (tip digest : PyStr) : Record F :=
  fields ++ chainFields n tip ++ [(pyStr "sha256", .str digest)]

theorem chainFields_keys (n : ℕ) (tip : PyStr) :
    (chainFields (F := F) n tip).map Prod.fst = ["schema", "seq", "prev"].map pyStr := rfl

theorem Chainable.fresh {fields : Record F} (chainable : Chainable platform fields) {key : String}
    (isChain : key ∈ chainKeys) : pyStr key ∉ fields.map Prod.fst := by
  intro member
  obtain ⟨item, isItem, same⟩ := List.mem_map.mp member
  exact Dict.get?_eq_none_iff.mp (chainable.unchained key isChain) item isItem same

theorem Chainable.readable_body {fields : Record F} (chainable : Chainable platform fields) (n : ℕ)
    {tip : PyStr} (tipValid : tip.Valid) : (Json.object (fields ++ chainFields n tip)).Readable := by
  cases chainable.readable with
  | object distinct keys inner =>
      refine .object ?_ ?_ ?_
      · rw [List.map_append, chainFields_keys, List.nodup_append]
        refine ⟨distinct, by decide, ?_⟩
        rintro key known other isChain rfl
        obtain ⟨name, isName, rfl⟩ := List.mem_map.mp isChain
        exact chainable.fresh (List.mem_append_left ["sha256"] isName) known
      · intro item member
        rcases List.mem_append.mp member with known | isChain
        · exact keys item known
        · simp only [chainFields, List.mem_cons, List.not_mem_nil, or_false] at isChain
          rcases isChain with rfl | rfl | rfl
          all_goals exact valid_pyStr _
      · intro item member
        rcases List.mem_append.mp member with known | isChain
        · exact inner item known
        · simp only [chainFields, List.mem_cons, List.not_mem_nil, or_false] at isChain
          rcases isChain with rfl | rfl | rfl
          · exact .int _
          · exact .int _
          · exact .str tipValid

theorem Chainable.readable_chained {fields : Record F} (chainable : Chainable platform fields) (n : ℕ)
    {tip digest : PyStr} (tipValid : tip.Valid) (digestValid : digest.Valid) :
    (Json.object (chained fields n tip digest)).Readable := by
  cases chainable.readable_body n tipValid with
  | object distinct keys inner =>
      refine .object ?_ ?_ ?_
      · rw [chained, List.map_append, List.nodup_append]
        refine ⟨distinct, by simp, ?_⟩
        intro key known other isSha
        obtain rfl := List.mem_singleton.mp isSha
        rintro rfl
        rw [List.map_append, List.mem_append] at known
        rcases known with inFields | inChain
        · exact chainable.fresh (by decide) inFields
        · rw [chainFields_keys] at inChain
          exact absurd inChain (by decide : pyStr "sha256" ∉ ["schema", "seq", "prev"].map pyStr)
      · intro item member
        rcases List.mem_append.mp member with known | isSha
        · exact keys item known
        · obtain rfl := List.mem_singleton.mp isSha
          exact valid_pyStr _
      · intro item member
        rcases List.mem_append.mp member with known | isSha
        · exact inner item known
        · obtain rfl := List.mem_singleton.mp isSha
          exact .str digestValid

/-- A short number has few digits. -/
theorem Chainable.encodable_chained {fields : Record F} (chainable : Chainable platform fields)
    {n : ℕ} (short : (decimal n).length ≤ platform.limits.digits) (tip digest : PyStr) :
    ∀ item ∈ chained fields n tip digest, Encodable platform.floats platform.limits 7 item.2 := by
  intro item member
  rcases List.mem_append.mp member with known | isSha
  · rcases List.mem_append.mp known with inFields | isChain
    · exact chainable.encodable item inFields
    · simp only [chainFields, List.mem_cons, List.not_mem_nil, or_false] at isChain
      rcases isChain with rfl | rfl | rfl
      · refine .int 7 (le_trans ?_ platform.limits.digitsRoom)
        decide
      · exact .int 7 (by simpa using short)
      · exact .str 7 _
  · obtain rfl := List.mem_singleton.mp isSha
    exact .str 7 _

/-- The line without its hash is the body that was hashed. -/
theorem dumps_without_sha {fields : Record F} (chainable : Chainable platform fields) (n : ℕ)
    {tip digest : PyStr} (tipValid : tip.Valid) (digestValid : digest.Valid) :
    platform.codec.dumps (.object ((Record.inOrder (chained fields n tip digest)).filter
        fun item => item.1 ≠ pyStr "sha256")) =
      platform.codec.dumps (.object (fields ++ chainFields n tip)) := by
  have body : (chained fields n tip digest).filter (fun item => item.1 ≠ pyStr "sha256") =
      fields ++ chainFields n tip := by
    cases chainable.readable_chained n tipValid digestValid with
    | object distinct keys inner =>
        rw [chained, List.filter_append, List.filter_eq_self.mpr ?_]
        · simp
        · intro item member
          rw [chained, List.map_append, List.nodup_append] at distinct
          exact decide_eq_true (distinct.2.2 _ (List.mem_map_of_mem member) _ (by simp))
  have same : ((Record.inOrder (chained fields n tip digest)).filter
      fun item => item.1 ≠ pyStr "sha256").Perm
        ((fields ++ chainFields n tip).map fun item : PyStr × Json F =>
          (item.1, item.2.arranged true)) := by
    refine ((Record.inOrder_perm _).filter _).trans ?_
    rw [List.filter_map]
    exact List.Perm.of_eq (congrArg (List.map _) body)
  cases chainable.readable_body n tipValid with
  | object distinct keys inner =>
      have distinctBody : ((Record.inOrder (fields ++ chainFields n tip)).map Prod.fst).Nodup :=
        Record.inOrder_distinct distinct
      rw [← dumps_arranged (.object (fields ++ chainFields n tip)), arranged_object]
      exact (dumps_perm ((Record.inOrder_perm _).trans same.symm) distinctBody).symm

/-- What the fields of the chain hold in the record of a line. -/
theorem get_inOrder_chained {fields : Record F} (chainable : Chainable platform fields) (n : ℕ)
    {tip digest : PyStr} (tipValid : tip.Valid) (digestValid : digest.Valid) :
    let record := Record.inOrder (chained fields n tip digest)
    Record.get record "schema" = some (.int ledgerSchema) ∧ Record.get record "seq" = some (.int n) ∧
      Record.get record "prev" = some (.str tip) ∧ Record.get record "sha256" = some (.str digest) := by
  intro record
  have found : ∀ key ∈ chainKeys, ∀ value, Dict.get? (chainFields (F := F) n tip ++
      [(pyStr "sha256", .str digest)]) (pyStr key) = some value →
        Record.get record key = some (value.arranged true) := by
    intro key isChain value isValue
    cases chainable.readable_chained n tipValid digestValid with
    | object distinct keys inner =>
        have absent : Dict.get? fields (pyStr key) = none := chainable.unchained key isChain
        change Dict.get? (Record.inOrder (chained fields n tip digest)) (pyStr key) = _
        rw [Record.get?_inOrder distinct, chained, List.append_assoc, Dict.get?_append, absent,
          Option.none_or, isValue, Option.map_some]
  refine ⟨?_, ?_, ?_, ?_⟩
  · rw [found "schema" (by decide) (.int ledgerSchema) rfl, Json.arranged]
  · rw [found "seq" (by decide) (.int n) rfl, Json.arranged]
  · rw [found "prev" (by decide) (.str tip) rfl, Json.arranged]
  · rw [found "sha256" (by decide) (.str digest) rfl, Json.arranged]

/-- **An encoded line is verified**: the line of a body is the next line of the chain, and its
record is the one that was encoded. -/
theorem checkLine_encodeBody (lawful : platform.Lawful) {fields : Record F}
    (chainable : Chainable platform fields) {n : ℕ} {tip : PyStr} (tipValid : tip.Valid)
    (short : (decimal n).length ≤ platform.limits.digits) :
    ∃ line data, let digest := platform.sha256Hex data
      encodeBody platform.codec (fields ++ chainFields n tip) = .ok (line ++ [10], digest) ∧
        10 ∉ line ∧ checkLine platform.codec n tip line =
          .ok (Record.inOrder (chained fields n tip digest), digest) := by
  have bodyEncodable : Encodable platform.floats platform.limits 8
      (.object (fields ++ chainFields n tip)) :=
    .object fun item member =>
      chainable.encodable_chained short tip [] item (List.mem_append_left _ member)
  obtain ⟨data, isBody, _⟩ :=
    decodeLine_of_encodable lawful bodyEncodable (chainable.readable_body n tipValid)
  have digestValid : (platform.sha256Hex data).Valid := valid_of_ascii (digest_ascii lawful data)
  have lineEncodable : Encodable platform.floats platform.limits 8
      (.object (chained fields n tip (platform.sha256Hex data))) :=
    .object fun item member =>
      chainable.encodable_chained short tip (platform.sha256Hex data) item member
  obtain ⟨line, isLine, decoded⟩ := decodeLine_of_encodable lawful lineEncodable
    (chainable.readable_chained n tipValid digestValid)
  refine ⟨line, data, ?_, (dumps_line lawful isLine).1, ?_⟩
  · unfold encodeBody canonical
    rw [isBody]
    simp only [require, bind, Except.bind]
    change (require PaperFailure.encoding (platform.codec.dumps
      (.object (chained fields n tip (platform.sha256Hex data)))) >>= _) = _
    rw [isLine]
    rfl
  · obtain ⟨schema, seq, prev, sha⟩ := get_inOrder_chained chainable n tipValid digestValid
    have again := dumps_without_sha chainable n tipValid digestValid
    have isDigest : bodySha platform.codec
        (Record.inOrder (chained fields n tip (platform.sha256Hex data))) =
          .ok (platform.sha256Hex data) := by
      unfold bodySha
      rw [again, isBody]
      rfl
    have isPrev : (Record.inOrder (chained fields n tip (platform.sha256Hex data))).isText "prev" tip =
        true := by
      unfold Record.isText
      rw [prev]
      simp [Json.equalsStr]
    have isSha : (Record.inOrder (chained fields n tip (platform.sha256Hex data))).isText "sha256"
        (platform.sha256Hex data) = true := by
      unfold Record.isText
      rw [sha]
      simp [Json.equalsStr]
    unfold checkLine
    simp only [decoded, bind, Except.bind, schema, seq, Option.getD_some, isDigest]
    rw [ensure_of (by simp [Json.equalsInt])]
    dsimp only
    rw [ensure_of ⟨by simp [Json.equalsInt], isPrev⟩]
    dsimp only
    rw [ensure_of isSha]
    rfl

/-! ## Lines in a row -/

/-- The records of lines that chain the given ones: the first after `n` lines and the tip, and the
tip they lead to. -/
inductive Chained : ℕ → PyStr → List (Record F) → List (Record F) → PyStr → Prop where
  | nil (n : ℕ) (tip : PyStr) : Chained n tip [] [] tip
  | cons {n : ℕ} {tip digest last : PyStr} {fields : Record F} {rest lines : List (Record F)}
      (valid : digest.Valid) (others : Chained (n + 1) digest rest lines last) :
      Chained n tip (fields :: rest) (Record.inOrder (chained fields n tip digest) :: lines) last

theorem Chained.length {n : ℕ} {tip last : PyStr} {records lines : List (Record F)}
    (isChained : Chained n tip records lines last) : lines.length = records.length := by
  induction isChained with
  | nil => rfl
  | cons valid others hyp => rw [List.length_cons, List.length_cons, hyp]

/-- **Encoded lines are verified**: the lines of some records continue the chain, and their records
are the ones that were encoded. -/
theorem verifyLines_encodeRecord (lawful : platform.Lawful) (records : List (Record F)) :
    ∀ {n : ℕ} {tip : PyStr} (out : Bytes) (before : List (Record F)),
      (∀ record ∈ records, Chainable platform record) → tip.Valid →
      (∀ m ≤ n + records.length, (decimal m).length ≤ platform.limits.digits) →
      ∃ data last lines,
        records.foldlM (encodeRecord platform.codec) ⟨out, tip, n⟩ =
          .ok ⟨out ++ data, last, n + records.length⟩ ∧
        Lines.Terminated 10 data ∧ (records ≠ [] → data ≠ []) ∧ last.Valid ∧
        Chained n tip records lines last ∧
        (Lines.linesOf 10 data).foldlM (verifyLine platform.codec) ⟨n, tip, before⟩ =
          .ok ⟨n + records.length, last, before ++ lines⟩ := by
  induction records with
  | nil =>
      intro n tip out before _ tipValid _
      exact ⟨[], tip, [], by simp; rfl, .inl rfl, by simp, tipValid, .nil n tip, by simp [Lines.linesOf]; rfl⟩
  | cons record rest hyp =>
      intro n tip out before chainable tipValid short
      rw [List.forall_mem_cons] at chainable
      obtain ⟨line, hashed, encoded, whole, checked⟩ :=
        checkLine_encodeBody lawful chainable.1 tipValid (short n (by omega))
      have digestValid : (platform.sha256Hex hashed).Valid := valid_of_ascii (digest_ascii lawful hashed)
      obtain ⟨data, last, lines, more, terminated, _, lastValid, isChained, verified⟩ :=
        hyp (out ++ (line ++ [10]))
          (before ++ [Record.inOrder (chained record n tip (platform.sha256Hex hashed))]) chainable.2
          digestValid (n := n + 1) fun m within => short m (by rw [List.length_cons]; omega)
      have noChain : ∀ key ∈ chainKeys, ¬ Record.has record key := by
        intro key isChain
        unfold Record.has
        simp [chainable.1.unchained key isChain]
      have lineTerminated : Lines.Terminated 10 (line ++ [10]) := .inr ⟨line, rfl⟩
      refine ⟨line ++ [10] ++ data, last, _, ?_, ?_, by simp, lastValid, .cons digestValid isChained, ?_⟩
      · rw [List.foldlM_cons]
        unfold encodeRecord at more ⊢
        rw [ensure_of noChain]
        simp only [bind, Except.bind, encoded, pure, Except.pure] at more ⊢
        rw [more, List.append_assoc, List.length_cons]
        congr 2
        omega
      · rcases terminated with rfl | ⟨front, rfl⟩
        · exact .inr ⟨line, by simp⟩
        · exact .inr ⟨line ++ [10] ++ front, by simp⟩
      · rw [Lines.linesOf_append lineTerminated, Lines.linesOf_line whole, List.singleton_append,
          List.foldlM_cons]
        have step : verifyLine platform.codec ⟨n, tip, before⟩ line = .ok ⟨n + 1, platform.sha256Hex hashed,
            before ++ [Record.inOrder (chained record n tip (platform.sha256Hex hashed))]⟩ := by
          unfold verifyLine
          rw [checked]
          rfl
        rw [step]
        simp only [bind, Except.bind, verified, List.append_assoc, List.singleton_append,
          List.length_cons]
        congr 2
        omega

end Line

/-! ## Verified ledgers -/

section Covered

variable {F : Type} {format : LedgerFormat} {start : Date}

/-- The number of the last day covered, 0 before the first one. -/
def Scan.covered (scan : Scan F) : ℕ := (scan.last.map Date.ordinal).getD 0

/-- There are at most as many lines as books for each day up to the last one. -/
def Scan.Counted (format : LedgerFormat) (scan : Scan F) : Prop :=
  scan.position ≤ format.books.length * scan.covered

theorem Scan.covered_lt {scan : Scan F} {expected : Date}
    (isExpected : scan.expected start = .ok expected) : scan.covered + 1 ≤ expected.ordinal := by
  unfold Scan.expected at isExpected
  unfold Scan.covered
  cases last : scan.last with
  | none =>
      rw [last] at isExpected
      cases isExpected
      simpa using start.lower
  | some day =>
      rw [last] at isExpected
      have moved := Date.plusDays?_eq_some.mp (require_eq_ok.mp isExpected)
      simp only [Option.map_some, Option.getD_some]
      omega

/-- The lines of one more day. -/
theorem Scan.Counted.add {scan : Scan F} {expected : Date} (counted : scan.Counted format)
    (isExpected : scan.expected start = .ok expected) {count : ℕ}
    (small : count ≤ format.books.length) :
    scan.position + count ≤ format.books.length * expected.ordinal := by
  calc scan.position + count
      ≤ format.books.length * (scan.covered + 1) := by
        rw [Nat.mul_succ]
        exact Nat.add_le_add counted small
    _ ≤ format.books.length * expected.ordinal :=
        Nat.mul_le_mul_left _ (Scan.covered_lt isExpected)

theorem LedgerFormat.scanSkip_counted {scan after : Scan F} {record : Record F}
    (counted : scan.Counted format) (scanned : format.scanSkip start scan record = .ok after) :
    after.Counted format := by
  obtain ⟨expected, isExpected, scanned⟩ := bind_eq_ok.mp scanned
  obtain ⟨skip, _, scanned⟩ := bind_eq_ok.mp scanned
  obtain ⟨_, checked, scanned⟩ := bind_eq_ok.mp scanned
  cases scanned
  change scan.position + 1 ≤ format.books.length * skip.day.ordinal
  rw [checkExpected_eq_ok checked]
  exact counted.add isExpected (List.length_pos_iff.mpr format.someBook)

variable [PyFloat F] {codec : LedgerCodec F}

theorem LedgerFormat.scanGroup_counted {scan after : Scan F} {group : List (Record F)}
    (counted : scan.Counted format) (small : group.length ≤ format.books.length)
    (scanned : format.scanGroup codec start scan group = .ok after) : after.Counted format := by
  obtain ⟨expected, isExpected, scanned⟩ := bind_eq_ok.mp scanned
  obtain ⟨_, _, scanned⟩ := bind_eq_ok.mp scanned
  obtain ⟨day, _, scanned⟩ := bind_eq_ok.mp scanned
  obtain ⟨_, checked, scanned⟩ := bind_eq_ok.mp scanned
  obtain ⟨states, _, scanned⟩ := bind_eq_ok.mp scanned
  cases scanned
  change scan.position + group.length ≤ format.books.length * day.ordinal
  rw [checkExpected_eq_ok checked]
  exact counted.add isExpected small

theorem LedgerFormat.scanDays_counted (scan : Scan F) (lines : List (Record F)) {after : Scan F}
    (counted : scan.Counted format)
    (scanned : format.scanDays codec start scan lines = .ok after) : after.Counted format := by
  revert counted
  refine LedgerFormat.scanDays_rule
    (fun scan _ => scan.Counted format → after.Counted format) id ?_ ?_ scan lines scanned
  · intro scan next record rest _ stepped hyp counted
    exact hyp (LedgerFormat.scanSkip_counted counted stepped)
  · intro scan next record rest _ stepped hyp counted
    exact hyp (LedgerFormat.scanGroup_counted counted (List.length_take_le _ _) stepped)

end Covered

section Verified

variable {F : Type} [PyFloat F] {format : LedgerFormat} {platform : Platform F} {start : Date}

/-- The ledger is the reading of some file. -/
def LedgerFormat.Verified (format : LedgerFormat) (codec : LedgerCodec F) (start : Date)
    (ledger : Ledger F) : Prop :=
  ∃ data, format.extend codec start Ledger.empty data = .ok ledger

theorem LedgerFormat.Verified.counted {codec : LedgerCodec F} {ledger : Ledger F}
    (verified : format.Verified codec start ledger) : ledger.scan.Counted format := by
  obtain ⟨data, isExtended⟩ := verified
  by_cases empty : data = []
  · subst empty
    rw [LedgerFormat.extend_nil] at isExtended
    cases isExtended
    exact Nat.zero_le _
  · obtain ⟨chain, _, _, _, scanned, _⟩ := LedgerFormat.extend_eq_ok empty isExtended
    exact LedgerFormat.scanDays_counted _ chain.lines (Nat.zero_le _) scanned

/-- The tip of a verified ledger is a text without surrogates: the word of the first line, or the
hash of the last one. -/
theorem LedgerFormat.Verified.tip_valid (lawful : platform.Lawful) {ledger : Ledger F}
    (verified : format.Verified platform.codec start ledger) : ledger.tip.Valid := by
  obtain ⟨data, isExtended⟩ := verified
  by_cases empty : data = []
  · subst empty
    rw [LedgerFormat.extend_nil] at isExtended
    cases isExtended
    exact valid_pyStr "genesis"
  · obtain ⟨chain, isChain, _, tip, _, _⟩ := LedgerFormat.extend_eq_ok empty isExtended
    rw [tip]
    refine foldlM_invariant (fun chain : Chain F => chain.tip.Valid) ?_ _
      (valid_pyStr "genesis") (verifyChain_eq_ok isChain).2
    intro chain line after _ verified
    obtain ⟨⟨record, digest⟩, checked, made⟩ := bind_eq_ok.mp verified
    cases made
    obtain ⟨_, _, checked⟩ := bind_eq_ok.mp checked
    obtain ⟨_, _, checked⟩ := bind_eq_ok.mp checked
    obtain ⟨_, _, checked⟩ := bind_eq_ok.mp checked
    obtain ⟨sha, isSha, checked⟩ := bind_eq_ok.mp checked
    obtain ⟨_, _, checked⟩ := bind_eq_ok.mp checked
    cases checked
    obtain ⟨encoded, _, isSha⟩ := bind_eq_ok.mp isSha
    cases isSha
    exact valid_of_ascii (digest_ascii lawful encoded)

/-- A ledger that can go on has short line numbers, and so have the lines of one more day. -/
theorem LedgerFormat.Verified.short {ledger : Ledger F} {day : Date}
    (verified : format.Verified platform.codec start ledger)
    (isExpected : firstDayToBook ledger start = .ok day) (few : format.books.length ≤ 24) {count : ℕ}
    (small : count ≤ format.books.length) :
    ∀ m ≤ ledger.entries + count, (decimal m).length ≤ platform.limits.digits := by
  intro m within
  have isNext : ledger.scan.expected start = .ok day := isExpected
  have bounded := verified.counted.add isNext small
  have upper := day.upper
  have few : format.books.length * day.ordinal ≤ 24 * 3652059 := Nat.mul_le_mul few upper
  have below : m < 10 ^ 8 := by
    change ledger.entries + count ≤ _ at bounded
    omega
  have digits : (decimal m).length ≤ 8 := Date.length_decimal_le (by decide) below
  exact digits.trans ((by decide : 8 ≤ 640).trans platform.limits.digitsRoom)

end Verified

end CryptoRadar.Trend
