import CryptoRadar.Lib.HashChain
import CryptoRadar.Registry.Format
import CryptoRadar.Trend.RoundTrip
import Mathlib.Data.Set.Function

/-!
# The tip pins the file

A line of the ledger carries the tip before it and the hash of its own body, so the hash determines
the line and the tip before it (`linked_determined`): the body is encoded in one way only, and the
line is the body with its hash. A line of the registry is hashed as it stands. Where no two of the
texts that were hashed have the same hash, two files with the same tip have the same lines
(`tip_pins_file`).
-/

set_option autoImplicit false

namespace CryptoRadar.Trend

open Checked JsonText

/-! ## Lines of the ledger -/

section Ledger

variable {F : Type} {platform : Platform F}

/-- The record without its own hash. -/
def bodyOf (record : Record F) : Record F := record.filter fun item => item.1 ≠ pyStr "sha256"

/-- The encoded bodies of the lines of a file. -/
def hashedBodies (codec : LedgerCodec F) (data : Bytes) : Set Bytes :=
  {body | ∃ line ∈ Lines.linesOf 10 data, ∃ n record, decodeLine codec n line = .ok record ∧
    codec.dumps (.object (bodyOf record)) = some body}

/-- The line stands in a chain after the tip, and leads to the next one. -/
def Linked (codec : LedgerCodec F) (tip : PyStr) (line : Bytes) (next : PyStr) : Prop :=
  ∃ n record, checkLine codec n tip line = .ok (record, next)

structure CheckedLine (codec : LedgerCodec F) (tip : PyStr) (line : Bytes) (next : PyStr) (n : ℕ)
    (record : Record F) (body : Bytes) : Prop where
  decoded : decodeLine codec n line = .ok record
  prev : record.isText "prev" tip = true
  hashed : codec.dumps (.object (bodyOf record)) = some body
  digest : next = codec.sha256Hex body
  sha : record.isText "sha256" next = true

theorem Linked.checked {codec : LedgerCodec F} {tip next : PyStr} {line : Bytes}
    (linked : Linked codec tip line next) :
    ∃ n record body, CheckedLine codec tip line next n record body := by
  obtain ⟨n, record, checked⟩ := linked
  obtain ⟨read, decoded, checked⟩ := bind_eq_ok.mp checked
  obtain ⟨_, _, checked⟩ := bind_eq_ok.mp checked
  obtain ⟨_, chained, checked⟩ := bind_eq_ok.mp checked
  obtain ⟨digest, isDigest, checked⟩ := bind_eq_ok.mp checked
  obtain ⟨_, sha, checked⟩ := bind_eq_ok.mp checked
  cases checked
  obtain ⟨body, hashed, isDigest⟩ := bind_eq_ok.mp isDigest
  cases isDigest
  exact ⟨n, record, body, decoded, (ensure_eq_ok.mp chained).2, require_eq_ok.mp hashed, rfl,
    ensure_eq_ok.mp sha⟩

theorem get_of_isText {record : Record F} {key : String} {text : PyStr}
    (isText : record.isText key text = true) : record.get key = some (.str text) := by
  unfold Record.isText at isText
  cases found : record.get key with
  | none =>
      rw [found] at isText
      cases isText
  | some value =>
      rw [found] at isText
      cases value with
      | str other => rw [of_decide_eq_true isText]
      | _ => cases isText

theorem readable_bodyOf {record : Record F} (readable : (Json.object record).Readable) :
    (Json.object (bodyOf record)).Readable := by
  cases readable with
  | object distinct keys inner =>
      refine .object (distinct.sublist (List.Sublist.map _ List.filter_sublist)) ?_ ?_
      · exact fun item member => keys item (List.mem_filter.mp member).1
      · exact fun item member => inner item (List.mem_filter.mp member).1

/-- A record is its body with its hash. -/
theorem perm_body {record : Record F} (distinct : (record.map Prod.fst).Nodup) {digest : PyStr}
    (sha : record.get "sha256" = some (.str digest)) :
    record.Perm (bodyOf record ++ [(pyStr "sha256", .str digest)]) := by
  have isMember : (pyStr "sha256", .str digest) ∈ record := Dict.mem_of_get?_eq_some sha
  have once : record.Nodup := distinct.of_map _
  refine (List.perm_ext_iff_of_nodup once ?_).mpr fun item => ?_
  · refine List.nodup_append.mpr ⟨once.filter _, by simp, ?_⟩
    intro other inBody last isLast
    obtain rfl := List.mem_singleton.mp isLast
    rintro rfl
    simpa using (List.mem_filter.mp inBody).2
  · rw [List.mem_append, bodyOf, List.mem_filter, List.mem_singleton]
    constructor
    · intro member
      by_cases isSha : item.1 = pyStr "sha256"
      · exact .inr (List.inj_on_of_nodup_map distinct member isMember isSha)
      · exact .inl ⟨member, decide_eq_true isSha⟩
    · rintro (⟨member, _⟩ | rfl)
      · exact member
      · exact isMember

/-- Bodies that are encoded alike are the bodies of one line. -/
theorem line_of_body (lawful : platform.Lawful) {record other : Record F} {line otherLine body : Bytes}
    {digest : PyStr} (readable : (Json.object record).Readable)
    (otherReadable : (Json.object other).Readable)
    (isLine : platform.codec.dumps (.object record) = some line)
    (isOther : platform.codec.dumps (.object other) = some otherLine)
    (isBody : platform.codec.dumps (.object (bodyOf record)) = some body)
    (sameBody : platform.codec.dumps (.object (bodyOf other)) = some body)
    (sha : record.get "sha256" = some (.str digest)) (otherSha : other.get "sha256" = some (.str digest)) :
    line = otherLine := by
  have bodies := dumps_inj lawful isBody sameBody (readable_bodyOf readable)
    (readable_bodyOf otherReadable)
  rw [arranged_object, arranged_object, Json.object.injEq] at bodies
  cases readable with
  | object distinct keys inner =>
      cases otherReadable with
      | object otherDistinct otherKeys otherInner =>
          have whole : ∀ (record : Record F), (record.map Prod.fst).Nodup →
              record.get "sha256" = some (.str digest) →
              (Record.inOrder record).Perm
                (Record.inOrder (bodyOf record) ++ [(pyStr "sha256", .str digest)]) := by
            intro record distinct sha
            have parts := (perm_body distinct sha).map fun item : PyStr × Json F =>
              (item.1, item.2.arranged true)
            rw [List.map_append] at parts
            refine ((Record.inOrder_perm record).trans parts).trans ?_
            refine ((Record.inOrder_perm (bodyOf record)).symm).append ?_
            simp [Json.arranged]
          have same : (Record.inOrder record).Perm (Record.inOrder other) := by
            refine (whole record distinct sha).trans ?_
            rw [bodies]
            exact (whole other otherDistinct otherSha).symm
          have encoded : platform.codec.dumps (.object (Record.inOrder record)) =
              platform.codec.dumps (.object (Record.inOrder other)) :=
            dumps_perm same (Record.inOrder_distinct distinct)
          rw [← arranged_object, ← arranged_object, dumps_arranged, dumps_arranged, isLine,
            isOther] at encoded
          exact Option.some.inj encoded

theorem loads_of_decodeLine {codec : LedgerCodec F} {n : ℕ} {line : Bytes} {record : Record F}
    (decoded : decodeLine codec n line = .ok record) : codec.loads line = .ok (.object record) := by
  unfold decodeLine at decoded
  obtain ⟨_, _, decoded⟩ := bind_eq_ok.mp decoded
  split at decoded
  next => cases decoded
  next => cases decoded
  next read isRead =>
    obtain ⟨_, _, decoded⟩ := bind_eq_ok.mp decoded
    cases decoded
    exact isRead
  next => cases decoded

/-- The hash of a line determines the line and the tip before it. -/
theorem linked_determined (lawful : platform.Lawful) {texts : Set Bytes}
    (injective : Set.InjOn platform.sha256Hex texts) {tip otherTip next : PyStr}
    {line otherLine : Bytes} (linked : Linked platform.codec tip line next)
    (otherLinked : Linked platform.codec otherTip otherLine next)
    (hashed : ∀ n record body, decodeLine platform.codec n line = .ok record →
      platform.codec.dumps (.object (bodyOf record)) = some body → body ∈ texts)
    (otherHashed : ∀ n record body, decodeLine platform.codec n otherLine = .ok record →
      platform.codec.dumps (.object (bodyOf record)) = some body → body ∈ texts) :
    tip = otherTip ∧ line = otherLine := by
  obtain ⟨n, record, body, checked⟩ := linked.checked
  obtain ⟨m, other, otherBody, otherChecked⟩ := otherLinked.checked
  obtain ⟨readable, isLine⟩ := decodeLine_eq_ok checked.decoded
  obtain ⟨otherReadable, isOther⟩ := decodeLine_eq_ok otherChecked.decoded
  have sameHash : platform.sha256Hex body = platform.sha256Hex otherBody :=
    checked.digest.symm.trans otherChecked.digest
  obtain rfl := injective (hashed n record body checked.decoded checked.hashed)
    (otherHashed m other otherBody otherChecked.decoded otherChecked.hashed) sameHash
  obtain rfl := line_of_body lawful readable otherReadable isLine isOther checked.hashed
    otherChecked.hashed (get_of_isText checked.sha) (get_of_isText otherChecked.sha)
  have sameRecord := (loads_of_decodeLine checked.decoded).symm.trans
    (loads_of_decodeLine otherChecked.decoded)
  cases sameRecord
  have samePrev := (get_of_isText checked.prev).symm.trans (get_of_isText otherChecked.prev)
  cases samePrev
  exact ⟨rfl, rfl⟩

/-- No line leads to the tip of an empty file, which is no hash. -/
theorem not_linked_genesis (lawful : platform.Lawful) (tip : PyStr) (line : Bytes) :
    ¬ Linked platform.codec tip line genesis := by
  intro linked
  obtain ⟨_, _, body, checked⟩ := linked.checked
  have length := (lawful.hexDigits body).1
  rw [show platform.sha256Hex body = genesis from checked.digest.symm] at length
  exact absurd length (by decide)

theorem verifyLine_linked (codec : LedgerCodec F) (chain : Chain F) (line : Bytes) (after : Chain F)
    (verified : verifyLine codec chain line = .ok after) :
    Linked codec chain.tip (id line) after.tip := by
  obtain ⟨⟨record, digest⟩, checked, made⟩ := bind_eq_ok.mp verified
  cases made
  exact ⟨chain.next, record, checked⟩

variable [PyFloat F]

/-- The lines of a file that was parsed lead to its tip. -/
theorem leads_of_parseLedger {codec : LedgerCodec F} {start : Date} {data : Bytes} {ledger : Ledger F}
    (parsed : parseLedger codec start data = .ok ledger) :
    Lines.Terminated 10 data ∧
      HashChain.Leads (Linked codec) genesis (Lines.linesOf 10 data) ledger.tip := by
  unfold parseLedger at parsed
  by_cases empty : data = []
  · subst empty
    rw [extendLedger_nil] at parsed
    cases parsed
    exact ⟨.inl rfl, .nil⟩
  · rw [← extend_mainFormat] at parsed
    obtain ⟨chain, isChain, _, tip, _, _⟩ := LedgerFormat.extend_eq_ok empty parsed
    obtain ⟨last, folded⟩ := verifyChain_eq_ok isChain
    refine ⟨terminated_of_getLast last, ?_⟩
    have leads := HashChain.leads_of_foldlM Chain.tip id (verifyLine_linked codec) _ folded
    rw [List.map_id] at leads
    rw [tip]
    exact leads

end Ledger

/-! ## Lines of the registry -/

section Registry

open TrendRegistry

variable {F : Type} {codec : Codec F}

/-- The contents of the lines of a registry file, without their terminators. -/
def contents (data : Bytes) : List Bytes := (Lines.linesOf 10 data).map trimReturn

/-- The line stands in a registry after the tip, and leads to the next one. -/
def RegistryLinked (codec : Codec F) (tip : PyStr) (line : Bytes) (next : PyStr) : Prop :=
  next = codec.sha256Hex line ∧ ∃ members, codec.loads line = .ok (.object members) ∧
    field members "prev" = some (.str tip)

theorem prev_of_continues {registry : Registry F} {members : Dict PyStr (Json F)}
    (isNext : continues codec registry members = true) :
    field members "prev" = some (.str registry.tip) := by
  unfold continues at isNext
  rw [Bool.and_eq_true] at isNext
  cases found : field members "prev" with
  | none =>
      rw [found] at isNext
      cases isNext.1
  | some value =>
      rw [found] at isNext
      cases value with
      | str other => rw [of_decide_eq_true isNext.1]
      | _ => cases isNext.1

theorem parseLine_linked (codec : Codec F) (registry : Registry F) (raw : Bytes) (after : Registry F)
    (parsed : parseLine codec registry raw = .ok after) :
    RegistryLinked codec registry.tip (trimReturn raw) after.tip := by
  unfold parseLine at parsed
  dsimp only at parsed
  split at parsed
  next => cases parsed
  next =>
    split at parsed
    next => cases parsed
    next => cases parsed
    next members loaded =>
      split at parsed
      next => cases parsed
      next isNext =>
        split at parsed
        next => cases parsed
        next kind shaped =>
          cases parsed
          exact ⟨rfl, members, loaded, prev_of_continues (by simpa using isNext)⟩
    next => cases parsed

theorem leads_of_parseRegistry {data : Bytes} {registry : Registry F}
    (parsed : parseRegistry codec data = .ok registry) :
    HashChain.Leads (RegistryLinked codec) TrendRegistry.genesis (contents data) registry.tip := by
  unfold parseRegistry at parsed
  split at parsed
  next => cases parsed
  next => exact HashChain.leads_of_foldlM Registry.tip trimReturn (parseLine_linked codec) _ parsed

/-- The hash of a line determines the line and the tip before it. -/
theorem registryLinked_determined {texts : Set Bytes} (injective : Set.InjOn codec.sha256Hex texts)
    {tip otherTip next : PyStr} {line otherLine : Bytes} (linked : RegistryLinked codec tip line next)
    (otherLinked : RegistryLinked codec otherTip otherLine next) (hashed : line ∈ texts)
    (otherHashed : otherLine ∈ texts) : tip = otherTip ∧ line = otherLine := by
  obtain ⟨digest, members, loaded, prev⟩ := linked
  obtain ⟨otherDigest, others, otherLoaded, otherPrev⟩ := otherLinked
  obtain rfl := injective hashed otherHashed (digest.symm.trans otherDigest)
  cases loaded.symm.trans otherLoaded
  cases prev.symm.trans otherPrev
  exact ⟨rfl, rfl⟩

end Registry

/-! ## Both files -/

/-- **The tip pins the file**: two ledgers, or two registries, with the same tip are read from the
same lines, if no two of the texts that were hashed have the same hash. -/
theorem tip_pins_file {F : Type} [PyFloat F] (platform : Platform F) (lawful : platform.Lawful)
    (codec : Codec F) (digests : ∀ data, (codec.sha256Hex data).length = 64) :
    (∀ (start : Date) (first second : Bytes) (ledger other : Ledger F),
      parseLedger platform.codec start first = .ok ledger →
      parseLedger platform.codec start second = .ok other → ledger.tip = other.tip →
      Set.InjOn platform.sha256Hex
        (hashedBodies platform.codec first ∪ hashedBodies platform.codec second) →
      first = second) ∧
    ∀ (first second : Bytes) (registry other : TrendRegistry.Registry F),
      TrendRegistry.parseRegistry codec first = .ok registry →
      TrendRegistry.parseRegistry codec second = .ok other → registry.tip = other.tip →
      Set.InjOn codec.sha256Hex {line | line ∈ contents first ∨ line ∈ contents second} →
      contents first = contents second := by
  constructor
  · intro start first second ledger other parsed otherParsed sameTip injective
    obtain ⟨terminated, leads⟩ := leads_of_parseLedger parsed
    obtain ⟨otherTerminated, otherLeads⟩ := leads_of_parseLedger otherParsed
    rw [← sameTip] at otherLeads
    refine Lines.linesOf_injective terminated otherTerminated ?_
    refine leads.unique (not_linked_genesis lawful) otherLeads ?_
    intro line isLine otherLine isOther before after next linked otherLinked
    refine linked_determined lawful injective linked otherLinked ?_ ?_
    · intro n record body decoded hashed
      exact .inl ⟨line, isLine, n, record, decoded, hashed⟩
    · intro n record body decoded hashed
      exact .inr ⟨otherLine, isOther, n, record, decoded, hashed⟩
  · intro first second registry other parsed otherParsed sameTip injective
    have leads := leads_of_parseRegistry parsed
    have otherLeads := leads_of_parseRegistry otherParsed
    rw [← sameTip] at otherLeads
    refine leads.unique ?_ otherLeads ?_
    · rintro tip line ⟨digest, _⟩
      have length := digests line
      rw [← digest] at length
      exact absurd length (by decide)
    · intro line isLine otherLine isOther before after next linked otherLinked
      exact registryLinked_determined injective linked otherLinked (.inl isLine) (.inr isOther)

/-- A registry of one event. -/
def trialsLine : Bytes := bytesOf ["\x7b\"count\": 3, \"event\": \"prior_trials\"",
  ", \"prev\": \"genesis\", \"seq\": 0, \"ts\": \"t\"\x7d"]

/-- The bodies of a file of one line have one hash. -/
theorem injOn_hashedBodies {F : Type} (codec : LedgerCodec F) {line : Bytes} (whole : 10 ∉ line) :
    Set.InjOn codec.sha256Hex
      (hashedBodies codec (line ++ [10]) ∪ hashedBodies codec (line ++ [10])) := by
  rw [Set.union_self]
  rintro body ⟨first, isFirst, n, record, decoded, hashed⟩ other
    ⟨second, isSecond, m, otherRecord, otherDecoded, otherHashed⟩ _
  rw [Lines.linesOf_line whole, List.mem_singleton] at isFirst isSecond
  subst isFirst isSecond
  cases (loads_of_decodeLine decoded).symm.trans (loads_of_decodeLine otherDecoded)
  exact Option.some.inj (hashed.symm.trans otherHashed)

theorem skipLine_parsed :
    (parseLedger python.codec paperStart (skipLine ++ [10])).isOk = true ∧ 10 ∉ skipLine := by
  decide +kernel

/-- The registry with LF and the one with CRLF have one tip. -/
theorem trialsLine_parsed :
    ((TrendRegistry.parseRegistry python.codec.toCodec (trialsLine ++ [10])).toOption.map
        TrendRegistry.Registry.tip).isSome = true ∧
      (TrendRegistry.parseRegistry python.codec.toCodec (trialsLine ++ [10])).toOption.map
          TrendRegistry.Registry.tip =
        (TrendRegistry.parseRegistry python.codec.toCodec (trialsLine ++ [13, 10])).toOption.map
          TrendRegistry.Registry.tip := by
  decide +kernel

/-- A ledger of one skipped day, and a registry of one event whose line ends with LF or with CRLF. -/
theorem tip_pins_file_terminators :
    (∃ ledger, parseLedger python.codec paperStart (skipLine ++ [10]) = .ok ledger ∧
      skipLine ++ [10] = skipLine ++ [10]) ∧
    ∃ registry other, TrendRegistry.parseRegistry python.codec.toCodec (trialsLine ++ [10]) =
        .ok registry ∧
      TrendRegistry.parseRegistry python.codec.toCodec (trialsLine ++ [13, 10]) = .ok other ∧
      contents (trialsLine ++ [10]) = contents (trialsLine ++ [13, 10]) := by
  obtain ⟨forLedger, forRegistry⟩ := tip_pins_file python python_lawful python.codec.toCodec
    fun data => (python_lawful.hexDigits data).1
  constructor
  · have check := skipLine_parsed.1
    cases parsed : parseLedger python.codec paperStart (skipLine ++ [10]) with
    | error failure =>
        rw [parsed] at check
        cases check
    | ok ledger =>
        exact ⟨ledger, rfl, forLedger paperStart _ _ ledger ledger parsed parsed rfl
          (injOn_hashedBodies python.codec skipLine_parsed.2)⟩
  · have check := trialsLine_parsed
    have lf : contents (trialsLine ++ [10]) = [trialsLine] := by decide +kernel
    have crlf : contents (trialsLine ++ [13, 10]) = [trialsLine] := by decide +kernel
    cases parsed : TrendRegistry.parseRegistry python.codec.toCodec (trialsLine ++ [10]) with
    | error failure =>
        rw [parsed] at check
        cases check.1
    | ok registry =>
        cases otherParsed : TrendRegistry.parseRegistry python.codec.toCodec (trialsLine ++ [13, 10]) with
        | error failure =>
            rw [parsed, otherParsed] at check
            cases check.2
        | ok other =>
            rw [parsed, otherParsed] at check
            have sameTip : registry.tip = other.tip := Option.some.inj check.2
            refine ⟨registry, other, rfl, rfl,
              forRegistry _ _ registry other parsed otherParsed sameTip ?_⟩
            rw [lf, crlf]
            intro first isFirst second isSecond _
            simp only [List.mem_singleton, or_self, Set.mem_ofPred_eq] at isFirst isSecond
            rw [isFirst, isSecond]

end CryptoRadar.Trend
