import CryptoRadar.Lib.JsonLoaded
import CryptoRadar.Trend.CatchUp

/-!
# The canonical form of a line

`canonical` of `domain/trend_paper.py` is `json.dumps` with sorted keys, without spaces, in ASCII
and without NaN, and a line is read by `json.loads` with `_reject_constant`. A `Platform` is what
is left open: the text of floats, SHA-256, the comparison of a float with an integer and `repr`.

A record that is encoded is read back as it was, with its keys in order
(`decodeLine_of_encodable`); what a line is read as is readable (`decodeLine_eq_ok`), and two
records of one line are the same record (`dumps_inj`).
-/

set_option autoImplicit false

namespace CryptoRadar.Trend

open Checked JsonText

/-- What the canonical form rests on. -/
structure Platform (F : Type) where
  floats : FloatText F
  limits : JsonLimits
  sha256Hex : Bytes → PyStr
  floatEquals : F → ℤ → Bool
  repr : Json F → String

/-- The style of `canonical`. -/
def canonicalStyle : JsonStyle := ⟨true, ",", ":", true, false⟩

def asciiBytes (text : PyStr) : Bytes := text.map UInt8.ofNat

def asciiText (data : Bytes) : PyStr := data.map UInt8.toNat

namespace Platform

variable {F : Type}

/-- `_reject_constant`. -/
def reject (name : JsonConstant) : Option LoadsFailure := some (.constant name.text)

/-- `json` and `hashlib` as the ledger uses them. -/
def codec (platform : Platform F) : LedgerCodec F where
  loads line := loads platform.floats platform.limits reject (asciiText line)
  dumps value := (dumps platform.floats platform.limits canonicalStyle value).map asciiBytes
  sha256Hex := platform.sha256Hex
  floatEquals := platform.floatEquals
  repr := platform.repr

/-- The text of floats reads back, and a digest is 64 hexadecimal digits. -/
structure Lawful (platform : Platform F) : Prop where
  floats : platform.floats.Lawful
  hexDigits : ∀ data, (platform.sha256Hex data).length = 64 ∧
    ∀ code ∈ platform.sha256Hex data, (hexValue? code).isSome = true

/-- A finite number has the text of a number. -/
structure Finite [PyFloat F] (platform : Platform F) : Prop where
  noConstant : ∀ value, PyFloat.isFinite value = true → platform.floats.constant? value = none

end Platform

/-! ## Bytes and texts -/

theorem asciiText_asciiBytes {text : PyStr} (ascii : ∀ code ∈ text, code < 256) :
    asciiText (asciiBytes text) = text := by
  unfold asciiText asciiBytes
  rw [List.map_map]
  refine (List.map_congr_left fun code member => ?_).trans (List.map_id text)
  simp only [Function.comp_apply, id_eq, UInt8.toNat_ofNat']
  exact Nat.mod_eq_of_lt (ascii code member)

theorem canonicalStyle_printable : PrintableStyle canonicalStyle := by
  unfold PrintableStyle
  decide

theorem canonicalStyle_lawful : canonicalStyle.Lawful where
  item := ⟨[], rfl, by simp⟩
  key := ⟨[], rfl, by simp⟩

section Lines

variable {F : Type} {platform : Platform F}

/-- What the decoder does at a constant makes no difference to what is written. -/
theorem Platform.Lawful.trip (lawful : platform.Lawful) :
    RoundTrip platform.floats canonicalStyle Platform.reject :=
  ⟨lawful.floats, canonicalStyle_lawful, fun allowed => by cases allowed⟩

/-- The text of an encoded value: its characters are printable ASCII. -/
theorem exists_text_of_dumps (lawful : platform.Lawful) {value : Json F} {line : Bytes}
    (encoded : platform.codec.dumps value = some line) :
    ∃ text, dumps platform.floats platform.limits canonicalStyle value = some text ∧
      asciiText line = text ∧ ∀ code ∈ text, 32 ≤ code ∧ code < 127 := by
  obtain ⟨text, written, rfl⟩ := Option.map_eq_some_iff.mp encoded
  have printable : ∀ code ∈ text, 32 ≤ code ∧ code < 127 := by
    intro code member
    obtain ⟨visible, ascii⟩ := 
      writeDepth_printable (printableFloats_of_lawful lawful.floats) canonicalStyle_printable written code member
    exact ⟨visible, ascii rfl⟩
  refine ⟨text, written, asciiText_asciiBytes ?_, printable⟩
  intro code member
  have := (printable code member).2
  omega

theorem mem_asciiBytes {text : PyStr} (ascii : ∀ code ∈ text, 32 ≤ code ∧ code < 127) :
    ∀ byte ∈ asciiBytes text, 32 ≤ byte.toNat ∧ byte.toNat < 127 := by
  intro byte member
  obtain ⟨code, isCode, rfl⟩ := List.mem_map.mp member
  have small := ascii code isCode
  rw [UInt8.toNat_ofNat', Nat.mod_eq_of_lt (by omega)]
  exact small

theorem Ascii.of_bytes {line : Bytes} (ascii : line.all (fun byte => byte < 128) = true) :
    Ascii (asciiText line) := by
  intro code member
  obtain ⟨byte, isByte, rfl⟩ := List.mem_map.mp member
  have small := List.all_eq_true.mp ascii byte isByte
  exact UInt8.lt_iff_toNat_lt.mp (of_decide_eq_true small)

/-- An encoded value is one line of ASCII. -/
theorem dumps_line (lawful : platform.Lawful) {value : Json F} {line : Bytes}
    (encoded : platform.codec.dumps value = some line) :
    10 ∉ line ∧ line.all (fun byte => byte < 128) = true := by
  obtain ⟨text, written, rfl⟩ := Option.map_eq_some_iff.mp encoded
  obtain ⟨_, _, _, printable⟩ := exists_text_of_dumps lawful encoded
  have same : ∀ code ∈ text, 32 ≤ code ∧ code < 127 := by
    intro code member
    obtain ⟨visible, ascii⟩ :=
      writeDepth_printable (printableFloats_of_lawful lawful.floats) canonicalStyle_printable written code member
    exact ⟨visible, ascii rfl⟩
  refine ⟨fun newline => ?_, List.all_eq_true.mpr fun byte member => ?_⟩
  · have visible := (mem_asciiBytes same 10 newline).1
    exact absurd visible (by decide)
  · refine decide_eq_true (UInt8.lt_iff_toNat_lt.mpr ?_)
    have small := (mem_asciiBytes same byte member).2
    change byte.toNat < 128
    omega

/-! ## Records in the order of their keys -/

/-- The record as a line holds it: its items in the order of their keys. -/
def Record.inOrder (record : Record F) : Record F :=
  ordered true (record.map fun item => (item.1, item.2.arranged true))

theorem arranged_object (record : Record F) :
    (Json.object record).arranged true = .object (Record.inOrder record) := by
  rw [Json.arranged]
  rfl

theorem Record.inOrder_perm (record : Record F) :
    (Record.inOrder record).Perm (record.map fun item => (item.1, item.2.arranged true)) :=
  perm_ordered true _

theorem map_fst_arranged (record : Record F) :
    (record.map fun item => (item.1, item.2.arranged true)).map Prod.fst = record.map Prod.fst := by
  rw [List.map_map]
  rfl

theorem Record.inOrder_distinct {record : Record F} (distinct : (record.map Prod.fst).Nodup) :
    Dict.Distinct (Record.inOrder record) := by
  unfold Dict.Distinct
  rw [((Record.inOrder_perm record).map Prod.fst).nodup_iff, map_fst_arranged]
  exact distinct

/-- A key finds in the ordered record what it found, in order. -/
theorem Record.get?_inOrder {record : Record F} (distinct : (record.map Prod.fst).Nodup) (key : PyStr) :
    Dict.get? (Record.inOrder record) key = (Dict.get? record key).map (Json.arranged true) := by
  refine Option.ext fun value => ?_
  rw [Dict.get?_eq_some_iff (Record.inOrder_distinct distinct), (Record.inOrder_perm record).mem_iff,
    List.mem_map, Option.map_eq_some_iff]
  constructor
  · rintro ⟨item, member, same⟩
    cases same
    exact ⟨item.2, (Dict.get?_eq_some_iff distinct).mpr member, rfl⟩
  · rintro ⟨found, isFound, rfl⟩
    exact ⟨(key, found), Dict.mem_of_get?_eq_some isFound, rfl⟩

theorem dumps_arranged (value : Json F) :
    platform.codec.dumps (value.arranged true) = platform.codec.dumps value :=
  congrArg (Option.map asciiBytes) (writeDepth_arranged canonicalStyle _ value)

theorem dumps_perm {first second : Record F} (same : first.Perm second)
    (distinct : (first.map Prod.fst).Nodup) :
    platform.codec.dumps (.object first) = platform.codec.dumps (.object second) :=
  congrArg (Option.map asciiBytes) (writeDepth_object_perm rfl _ same distinct)

/-- Two readable values of one line are the same, but for the order of items. -/
theorem dumps_inj (lawful : platform.Lawful) {first second : Json F} {line : Bytes}
    (firstLine : platform.codec.dumps first = some line)
    (secondLine : platform.codec.dumps second = some line) (firstReadable : first.Readable)
    (secondReadable : second.Readable) : first.arranged true = second.arranged true := by
  obtain ⟨text, written, isText, _⟩ := exists_text_of_dumps lawful firstLine
  obtain ⟨other, otherWritten, isOther, _⟩ := exists_text_of_dumps lawful secondLine
  obtain rfl : text = other := isText.symm.trans isOther
  exact dumps_injective lawful.floats canonicalStyle_lawful written otherWritten firstReadable
    secondReadable

/-! ## Lines -/

/-- What a line is read as: a readable record whose canonical form it is. -/
theorem decodeLine_eq_ok {n : ℕ} {line : Bytes} {record : Record F}
    (decoded : decodeLine platform.codec n line = .ok record) :
    (Json.object record).Readable ∧ platform.codec.dumps (.object record) = some line := by
  unfold decodeLine at decoded
  obtain ⟨_, ascii, decoded⟩ := bind_eq_ok.mp decoded
  have isAscii := Ascii.of_bytes (ensure_eq_ok.mp ascii)
  split at decoded
  next => cases decoded
  next => cases decoded
  next read isRead =>
    obtain ⟨_, encodes, decoded⟩ := bind_eq_ok.mp decoded
    cases decoded
    exact ⟨loads_readable isAscii isRead, ensure_eq_ok.mp encodes⟩
  next => cases decoded

/-- A readable value that is nested at most eight deep is encoded and read back. -/
theorem decodeLine_of_encodable (lawful : platform.Lawful) {record : Record F}
    (encodable : Encodable platform.floats platform.limits 8 (.object record))
    (readable : (Json.object record).Readable) :
    ∃ line, platform.codec.dumps (.object record) = some line ∧
      ∀ n, decodeLine platform.codec n line = .ok (Record.inOrder record) := by
  obtain ⟨text, written⟩ := encodable.writeDepth canonicalStyle
  have whole := writeDepth_mono platform.limits.writeRoom written
  have encoded : platform.codec.dumps (.object record) = some (asciiBytes text) :=
    congrArg (Option.map asciiBytes) whole
  obtain ⟨_, ascii⟩ := dumps_line lawful encoded
  obtain ⟨other, otherWritten, isText, _⟩ := exists_text_of_dumps lawful encoded
  cases whole.symm.trans otherWritten
  have read := loads_writeDepth lawful.trip platform.limits.readRoom written readable
  refine ⟨asciiBytes text, encoded, fun n => ?_⟩
  have loaded : platform.codec.loads (asciiBytes text) = .ok (.object (Record.inOrder record)) := by
    change loads platform.floats platform.limits Platform.reject (asciiText (asciiBytes text)) = _
    rw [isText, read]
    exact congrArg Except.ok (arranged_object record)
  have again : platform.codec.dumps (.object (Record.inOrder record)) = some (asciiBytes text) := by
    rw [← arranged_object, dumps_arranged, encoded]
  unfold decodeLine
  simp only [ensure_of ascii, bind, Except.bind, loaded, ensure_of again]
  rfl

end Lines

end CryptoRadar.Trend
