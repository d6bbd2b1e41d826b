import CryptoRadar.Lib.CalendarText
import CryptoRadar.Lib.DecimalText
import CryptoRadar.Lib.JsonLoaded
import CryptoRadar.Lib.Sha256
import CryptoRadar.Pilot.Admission

/-!
# The text of an envelope

`parse_envelope` of `adapters/pilot_store.py`. The canonical text of an envelope is a JSON object of
texts and two integers (`dumps_members`), and the text of a number reads back as the number with its
exponent. So an envelope is read back from its canonical text (`parseEnvelope_canonicalText`), and two
envelopes have one text exactly when their values are written alike
(`canonicalText_is_the_written_values`). A value written with another number of zeros is another text
(`equal_limits_with_two_texts`).
-/

set_option autoImplicit false

namespace CryptoRadar.Pilot

open Checked Decimal JsonText
open Risk (Envelope EnvelopeValues NoTrade)

/-! ## Quoted texts -/

theorem pyStr_join (texts : List String) : pyStr (String.join texts) = texts.flatMap pyStr := by
  have folded : ∀ start : String,
      pyStr (texts.foldl (fun joined text => joined ++ text) start) = pyStr start ++ texts.flatMap pyStr := by
    induction texts with
    | nil => simp
    | cons text texts ih =>
        intro start
        rw [List.foldl_cons, ih, Date.pyStr_append, List.append_assoc]
        rfl
  exact folded ""

theorem hexChar_toNat : ∀ digit < 16, (Nat.digitChar digit).toNat = hexDigit digit := by decide

/-- The digit of a number at a place of its hexadecimal text is the remainder there. -/
theorem digitChar_mod (number : ℕ) : (Nat.digitChar (number % 16)).toNat = hexDigit (number % 16) :=
  hexChar_toNat _ (Nat.mod_lt _ (by decide))

/-- Four hexadecimal digits. -/
theorem hexDigits_four {number : ℕ} (small : number < 0x10000) :
    (hexDigits 4 number).toList.map Char.toNat = [hexDigit (number / 4096 % 16),
      hexDigit (number / 256 % 16), hexDigit (number / 16 % 16), hexDigit (number % 16)] := by
  have more : ∀ {number}, 16 ≤ number →
      Nat.toDigits 16 number = Nat.toDigits 16 (number / 16) ++ [Nat.digitChar (number % 16)] :=
    fun large => Nat.toDigits_of_base_le (by decide) large
  have one : ∀ {number}, number < 16 → Nat.toDigits 16 number = [Nat.digitChar (number % 16)] := by
    intro number small
    rw [Nat.toDigits_of_lt_base small, Nat.mod_eq_of_lt small]
  have second : number / 16 / 16 = number / 256 := Nat.div_div_eq_div_mul _ _ _
  have third : number / 256 / 16 = number / 4096 := Nat.div_div_eq_div_mul _ _ _
  have zero : '0'.toNat = hexDigit 0 := by decide
  rcases Nat.lt_or_ge number 16 with isOne | two
  · have none : number / 16 = 0 ∧ number / 256 = 0 ∧ number / 4096 = 0 := by omega
    simp [hexDigits, one isOne, digitChar_mod, none, zero]
  rcases Nat.lt_or_ge (number / 16) 16 with isTwo | three
  · have none : number / 256 = 0 ∧ number / 4096 = 0 := by omega
    simp [hexDigits, more two, one isTwo, digitChar_mod, none, zero]
  rcases Nat.lt_or_ge (number / 256) 16 with isThree | four
  · have none : number / 4096 = 0 := by omega
    simp [hexDigits, more two, more three, second, one isThree, digitChar_mod, none, zero]
  have isFour : number / 4096 < 16 := by omega
  simp [hexDigits, more two, more three, second, more four, third, one isFour, digitChar_mod]

theorem pyStr_hexDigits {number : ℕ} (small : number < 0x10000) :
    pyStr ("\\u" ++ hexDigits 4 number) = unicodeEscape number := by
  have digits : pyStr (hexDigits 4 number) = _ := hexDigits_four small
  rw [Date.pyStr_append, digits]
  rfl

/-- One character of a JSON string in ASCII. -/
theorem pyStr_jsonChar (char : Char) : pyStr (jsonChar char) = escapeChar true char.toNat := by
  by_cases isQuote : char = doubleQuote
  · rw [isQuote]; decide
  by_cases isBackslash : char = '\\'
  · rw [isBackslash]; decide
  by_cases isNewline : char = '\n'
  · rw [isNewline]; decide
  by_cases isReturn : char = '\r'
  · rw [isReturn]; decide
  by_cases isTab : char = '\t'
  · rw [isTab]; decide
  have other : ∀ {known : Char}, char ≠ known → char.toNat ≠ known.toNat := fun differs same =>
    differs (Char.toNat_inj.mp same)
  have noQuote : char.toNat ≠ 34 := other isQuote
  have noBackslash : char.toNat ≠ 92 := other isBackslash
  have noNewline : char.toNat ≠ 10 := other isNewline
  have noReturn : char.toNat ≠ 13 := other isReturn
  have noTab : char.toNat ≠ 9 := other isTab
  have single : pyStr (String.singleton char) = [char.toNat] := by simp [pyStr]
  have below : char.toNat < 0x110000 := by
    have valid := char.valid
    unfold Char.toNat
    rcases valid with low | ⟨_, high⟩ <;> omega
  rw [jsonChar, if_neg isQuote, if_neg isBackslash, if_neg isNewline, if_neg isReturn, if_neg isTab,
    escapeChar, if_neg noQuote, if_neg noBackslash, if_neg noNewline, if_neg noReturn, if_neg noTab]
  generalize char.toNat = code at *
  by_cases isBack : code = 8
  · simp [isBack, pyStr]
  by_cases isFeed : code = 12
  · simp [isFeed, pyStr]
  rw [if_neg isBack, if_neg isFeed, if_neg isFeed, if_neg isBack]
  rcases Nat.lt_or_ge code 32 with control | visible
  · simp [show ¬ 32 ≤ code by omega, show code < 0x10000 by omega, control,
      pyStr_hexDigits (show code < 0x10000 by omega)]
  rcases Nat.lt_or_ge code 127 with ascii | beyond
  · simp [visible, ascii, show ¬ code < 32 by omega, show ¬ 127 ≤ code by omega, single]
  rcases Nat.lt_or_ge code 0x10000 with plane | pair
  · simp [show ¬ code < 127 by omega, show ¬ code < 32 by omega, beyond, plane, pyStr_hexDigits plane]
  · have high : 0xD800 + (code - 0x10000) / 0x400 < 0x10000 := by omega
    have low : 0xDC00 + (code - 0x10000) % 0x400 < 0x10000 := by omega
    simp only [show ¬ code < 127 by omega, show ¬ code < 32 by omega, beyond,
      show ¬ code < 0x10000 by omega, decide_false, Bool.and_false, Bool.false_eq_true, if_false,
      decide_true, Bool.and_true, if_true]
    rw [String.append_assoc, Date.pyStr_append, pyStr_hexDigits high, pyStr_hexDigits low]

theorem pyStr_jsonQuoted (text : String) : pyStr (jsonQuoted text) = writeString true (pyStr text) := by
  have chars : (text.toList.map jsonChar).flatMap pyStr = (pyStr text).flatMap (escapeChar true) := by
    rw [pyStr, List.flatMap_map, List.flatMap_map]
    exact List.flatMap_congr fun char _ => pyStr_jsonChar char
  unfold jsonQuoted
  rw [Date.pyStr_append, Date.pyStr_append, pyStr_join, chars]
  rfl

theorem pyStr_jsonCode {code : ℕ} (small : code < 0x110000) :
    pyStr (Envelope.jsonCode code) = escapeChar true code := by
  unfold Envelope.jsonCode
  by_cases valid : code.isValidChar
  · have same : (Char.ofNat code).toNat = code := by
      unfold Char.ofNat
      rw [dif_pos valid]
      rfl
    rw [if_pos valid, pyStr_jsonChar, same]
  · have surrogate : 0xD800 ≤ code ∧ code < 0xE000 := by
      unfold Nat.isValidChar at valid
      omega
    rw [if_neg valid, pyStr_hexDigits (by omega), escapeChar]
    simp [show code ≠ 34 by omega, show code ≠ 92 by omega, show code ≠ 10 by omega, show code ≠ 13 by omega,
      show code ≠ 9 by omega, show code ≠ 12 by omega, show code ≠ 8 by omega, show ¬ code < 32 by omega,
      show ¬ code < 127 by omega, show code < 0x10000 by omega]

theorem pyStr_jsonQuotedCodes {text : PyStr} (codes : ∀ code ∈ text, code < 0x110000) :
    pyStr (Envelope.jsonQuotedCodes text) = writeString true text := by
  have chars : (text.map Envelope.jsonCode).flatMap pyStr = text.flatMap (escapeChar true) := by
    rw [List.flatMap_map]
    exact List.flatMap_congr fun code member => pyStr_jsonCode (codes code member)
  unfold Envelope.jsonQuotedCodes
  rw [Date.pyStr_append, Date.pyStr_append, pyStr_join, chars]
  rfl

/-! ## Writing -/

section Writing

variable {F : Type} (floats : FloatText F) (limits : JsonLimits)

/-- `sort_keys=True, separators=(",", ":")`. -/
def envelopeStyle : JsonStyle := ⟨true, ",", ":", true, true⟩

/-- The text of a number as a value of JSON. -/
def numberValue (number : Decimal) : Json F := .str (pyStr number.text)

/-- The dictionary that `canonical_text` writes, in the order of its keys. -/
def members (values : EnvelopeValues) : Dict PyStr (Json F) :=
  [(pyStr "aggregate_loss_pct", numberValue values.aggregateLossPct),
    (pyStr "cash_buffer_pct", numberValue values.cashBufferPct),
    (pyStr "currency", .str values.currency),
    (pyStr "daily_loss_pct", numberValue values.dailyLossPct),
    (pyStr "drawdown_pct", numberValue values.drawdownPct),
    (pyStr "equity", numberValue values.equity),
    (pyStr "gross_notional_pct", numberValue values.grossNotionalPct),
    (pyStr "leverage", .int values.leverage),
    (pyStr "max_positions", .int values.maxPositions),
    (pyStr "per_entry_abs_cap", (values.perEntryAbsCap.map numberValue).getD .null),
    (pyStr "per_entry_loss_pct", numberValue values.perEntryLossPct),
    (pyStr "policy_id", .str (pyStr Risk.envelopePolicyId))]

theorem ordered_members (values : EnvelopeValues) :
    ordered true (members values : Dict PyStr (Json F)) = members values := by
  have keys : ((members values : Dict PyStr (Json F)).map Prod.fst).Pairwise (· ≤ ·) := by
    simp only [members, List.map_cons, List.map_nil]
    decide
  rw [List.pairwise_map] at keys
  exact List.Pairwise.insertionSort_eq keys

theorem pyStr_member (key : String) (value : String) :
    pyStr (Envelope.member key value) = writeString true (pyStr key) ++ pyStr ":" ++ pyStr value := by
  unfold Envelope.member
  rw [Date.pyStr_append, Date.pyStr_append, pyStr_jsonQuoted]

theorem pyStr_intercalate (separator : String) (texts : List String) :
    pyStr (separator.intercalate texts) = joined (pyStr separator) (texts.map pyStr) := by
  induction texts with
  | nil => simp [joined, pyStr]
  | cons text texts ih =>
      cases texts with
      | nil => simp [joined]
      | cons other texts =>
          rw [String.intercalate_cons_cons, Date.pyStr_append, Date.pyStr_append, ih]
          rfl

theorem leverage_eq (envelope : Envelope) : envelope.leverage = 0 := by
  have checked := envelope.checked
  simp only [EnvelopeValues.check, bind_eq_ok, ensure_eq_ok, exists_and_left, exists_const] at checked
  tauto

/-- A digit is written as it is. -/
theorem writeInt_digit {number : ℕ} (small : number < 10) :
    writeInt limits number = some [48 + number] := by
  have room := limits.digitsRoom
  have one : decimal number = [48 + number] := decimal_one small
  have enough : ¬ limits.digits < 1 := by omega
  have positive : ¬ (number : ℤ) < 0 := by omega
  simp [writeInt, one, enough, positive]

/-- The members of the canonical text, in the order of their keys. -/
def envelopeParts (envelope : Envelope) : List String :=
  let number (value : Decimal) := jsonQuoted value.text
  [Envelope.member "aggregate_loss_pct" (number envelope.aggregateLossPct),
    Envelope.member "cash_buffer_pct" (number envelope.cashBufferPct),
    Envelope.member "currency" (Envelope.jsonQuotedCodes envelope.currency),
    Envelope.member "daily_loss_pct" (number envelope.dailyLossPct),
    Envelope.member "drawdown_pct" (number envelope.drawdownPct),
    Envelope.member "equity" (number envelope.equity),
    Envelope.member "gross_notional_pct" (number envelope.grossNotionalPct),
    Envelope.member "leverage" (toString envelope.leverage),
    Envelope.member "max_positions" (toString envelope.maxPositions),
    Envelope.member "per_entry_abs_cap" ((envelope.perEntryAbsCap.map number).getD "null"),
    Envelope.member "per_entry_loss_pct" (number envelope.perEntryLossPct),
    Envelope.member "policy_id" (jsonQuoted Risk.envelopePolicyId)]

/-- A dictionary whose items are in order is written item by item. -/
theorem writeDepth_object {style : JsonStyle} {depth : ℕ} {items : Dict PyStr (Json F)}
    {texts : List PyStr} (sorted : ordered style.sortKeys items = items)
    (written : items.mapM (fun item => do
        let text ← writeDepth floats limits style depth item.2
        return writeString style.ensureAscii item.1 ++ pyStr style.keySeparator ++ text) = some texts) :
    writeDepth floats limits style (depth + 1) (.object items) =
      some (123 :: joined (pyStr style.itemSeparator) texts ++ [125]) := by
  simp only [writeDepth, writeWith, sorted, Option.bind_eq_bind, Option.bind_some] at written ⊢
  rw [written]
  rfl

/-- The canonical text, written in two levels. -/
theorem writeDepth_members (envelope : Envelope) (codes : ∀ code ∈ envelope.currency, code < 0x110000) :
    writeDepth floats limits envelopeStyle 1 (.object (members envelope.toEnvelopeValues)) =
      some (pyStr envelope.canonicalText) := by
  have leverage : writeInt limits envelope.leverage = some (pyStr (toString envelope.leverage)) := by
    rw [leverage_eq]
    exact writeInt_digit limits (by decide : 0 < 10)
  have positions : writeInt limits envelope.maxPositions = some (pyStr (toString envelope.maxPositions)) := by
    rw [envelope.maxPositions_eq]
    exact writeInt_digit limits (by decide : 1 < 10)
  have cap : writeWith floats limits envelopeStyle none
          ((envelope.perEntryAbsCap.map numberValue).getD .null) =
        some (pyStr ((envelope.perEntryAbsCap.map fun value => jsonQuoted value.text).getD "null")) := by
    cases envelope.perEntryAbsCap with
    | none => rfl
    | some value => exact congrArg some (pyStr_jsonQuoted _).symm
  have sorted := ordered_members (F := F) envelope.toEnvelopeValues
  have number : ∀ value : Decimal, writeWith floats limits envelopeStyle none (numberValue value) =
      some (pyStr (jsonQuoted value.text)) := fun value => congrArg some (pyStr_jsonQuoted _).symm
  have text : ∀ value : String, writeWith floats limits envelopeStyle none (.str (pyStr value)) =
      some (pyStr (jsonQuoted value)) := fun value => congrArg some (pyStr_jsonQuoted _).symm
  have currency : writeWith floats limits envelopeStyle none (.str envelope.currency) =
      some (pyStr (Envelope.jsonQuotedCodes envelope.currency)) :=
    congrArg some (pyStr_jsonQuotedCodes codes).symm
  have integer : ∀ value : ℤ, writeWith floats limits envelopeStyle none (.int value) =
      writeInt limits value := fun _ => rfl
  have items : (members envelope.toEnvelopeValues : Dict PyStr (Json F)).mapM (fun item => do
        let text ← writeDepth floats limits envelopeStyle 0 item.2
        return writeString true item.1 ++ pyStr ":" ++ text) =
      some ((envelopeParts envelope).map pyStr) := by
    simp only [members, envelopeParts, writeDepth, List.mapM_cons, List.mapM_nil, number, text, currency, integer,
      leverage, positions, cap, Option.bind_eq_bind, Option.bind_some, Option.pure_def, List.map_cons, List.map_nil,
      pyStr_member]
  rw [writeDepth_object floats limits (show ordered envelopeStyle.sortKeys _ = _ from sorted) items]
  have parts : envelope.canonicalText = "\x7b" ++ ",".intercalate (envelopeParts envelope) ++ "\x7d" := rfl
  rw [parts, Date.pyStr_append, Date.pyStr_append, pyStr_intercalate]
  rfl

/-- The members stand in their order, and hold no other dictionary. -/
theorem arranged_members (values : EnvelopeValues) :
    (Json.object (members values) : Json F).arranged true = .object (members values) := by
  have same : (members values : Dict PyStr (Json F)).map (fun member => (member.1, member.2.arranged true)) =
      members values := by
    have cap : ((values.perEntryAbsCap.map numberValue).getD .null : Json F).arranged true =
        (values.perEntryAbsCap.map numberValue).getD .null := by
      cases values.perEntryAbsCap with
      | none => simp [Json.arranged]
      | some value => simp [Json.arranged, numberValue]
    simp [members, numberValue, Json.arranged, cap]
  rw [Json.arranged, same, ordered_members]

end Writing

/-! ## Reading -/

/-- Why `parse_envelope` does not return: an error of the store, or a `RecursionError`. -/
inductive ParseFailure where
  | store (failure : PilotFailure)
  | recursion
  deriving DecidableEq, Repr

section Reading

variable {F : Type} (runtime : Runtime) (floats : FloatText F) (limits : JsonLimits)
  (ofFloat : F → Option Decimal)

/-- `Decimal(value)`, when it is finite. -/
def decimalOf? : Json F → Option Decimal
  | .str text => do
      match Decimal.read runtime.digit? (Text.strip (← string? text)) with
      | .finite number => some number
      | .infiniteOrNan | .notANumber => none
  | .int number => some (.ofInt number)
  | .bool value => some (.ofNat value.toNat)
  | .float value => ofFloat value
  | .null | .array _ | .object _ => none

/-- A currency is a text. -/
def currencyOf? : Json F → Option PyStr
  | .str text => some text
  | .null | .bool _ | .int _ | .float _ | .array _ | .object _ => none

/-- A whole number, no boolean. -/
def integerOf? : Json F → Option ℤ
  | .int number => some number
  | .null | .bool _ | .float _ | .str _ | .array _ | .object _ => none

/-- The optional cap, null without one. -/
def capOf? : Json F → Option (Option Decimal)
  | .null => some none
  | value => (decimalOf? runtime ofFloat value).map some

/-- The values of the members; none where one is missing or is no value of its field. -/
def valuesOf? (loaded : Dict PyStr (Json F)) : Option EnvelopeValues := do
  let field (name : String) := Dict.get? loaded (pyStr name)
  let number (name : String) := field name >>= decimalOf? runtime ofFloat
  return {
    perEntryAbsCap := ← field "per_entry_abs_cap" >>= capOf? runtime ofFloat
    equity := ← number "equity"
    currency := ← field "currency" >>= currencyOf?
    perEntryLossPct := ← number "per_entry_loss_pct"
    aggregateLossPct := ← number "aggregate_loss_pct"
    grossNotionalPct := ← number "gross_notional_pct"
    cashBufferPct := ← number "cash_buffer_pct"
    dailyLossPct := ← number "daily_loss_pct"
    drawdownPct := ← number "drawdown_pct"
    maxPositions := ← field "max_positions" >>= integerOf?
    leverage := ← field "leverage" >>= integerOf? }

/-- The envelope of a value of JSON; none where the parser catches an error. -/
def envelopeOf? : Json F → Option Envelope
  | .object loaded =>
      if (Dict.get? loaded (pyStr "policy_id")).bind Json.str? ≠ some (pyStr Risk.envelopePolicyId) then none
      else do
        let values ← valuesOf? runtime ofFloat loaded
        if checked : values.check = .ok () then some ⟨values, checked⟩ else none
  | .null | .bool _ | .int _ | .float _ | .str _ | .array _ => none

/-- `parse_envelope`. -/
def parseEnvelope (text : String) : Except ParseFailure Envelope :=
  let malformed := ParseFailure.store
    (.store .malformedRow ("stored envelope_json is " ++ runtime.reprText text))
  match loads floats limits (fun _ => none) (pyStr text) with
  | .error .recursion => .error .recursion
  | .error .notJson | .error (.constant _) => .error malformed
  | .ok value =>
      match envelopeOf? runtime ofFloat value with
      | some envelope => if envelope.canonicalText = text then .ok envelope else .error malformed
      | none => .error malformed

end Reading

/-! ## An envelope is read back -/

/-- The decimals of the envelope are numbers that Python can hold, and its currency is a text of Python
that holds no surrogate pair: a pair is written as the character it stands for, and read as that. -/
structure IsHeld (values : EnvelopeValues) : Prop where
  currency : values.currency.Valid
  equity : values.equity.IsHeld
  perEntryLossPct : values.perEntryLossPct.IsHeld
  aggregateLossPct : values.aggregateLossPct.IsHeld
  grossNotionalPct : values.grossNotionalPct.IsHeld
  cashBufferPct : values.cashBufferPct.IsHeld
  dailyLossPct : values.dailyLossPct.IsHeld
  drawdownPct : values.drawdownPct.IsHeld
  perEntryAbsCap : ∀ cap, values.perEntryAbsCap = some cap → cap.IsHeld

theorem string?_pyStr (text : String) : string? (pyStr text) = some text := by
  have valid : ∀ code ∈ pyStr text, code.isValidChar := by
    intro code member
    obtain ⟨char, _, rfl⟩ := List.mem_map.mp member
    exact char.valid
  unfold string?
  rw [if_pos valid]
  simp [pyStr, Function.comp_def]

theorem strip_of_noSpace {text : String} (noSpace : ∀ char ∈ text.toList, Text.isSpace char = false) :
    Text.strip text = text := by
  have kept : ∀ chars : List Char, (∀ char ∈ chars, Text.isSpace char = false) →
      chars.dropWhile Text.isSpace = chars := by
    intro chars none
    cases chars with
    | nil => rfl
    | cons char chars => simp [none char List.mem_cons_self]
  unfold Text.strip
  rw [kept _ noSpace, kept _ fun char member => noSpace char (List.mem_reverse.mp member)]
  simp

section Back

variable {F : Type} {runtime : Runtime} {floats : FloatText F} (limits : JsonLimits)
  (ofFloat : F → Option Decimal)

theorem decimalOf?_numberValue (reads : ReadsAscii runtime.digit?) {number : Decimal} (isHeld : number.IsHeld) :
    decimalOf? runtime ofFloat (numberValue number) = some number := by
  have noSpace : ∀ char ∈ number.text.toList, Text.isSpace char = false := by
    have plain : (numberChars.all fun char => !Text.isSpace char) = true := by decide
    intro char member
    have notSpace := List.all_eq_true.mp plain char (text_chars number char member)
    simpa using notSpace
  have known : held number.negative number.coeff number.exponent = .finite number := isHeld
  unfold decimalOf? numberValue
  simp only [string?_pyStr, Option.bind_eq_bind, Option.bind_some, strip_of_noSpace noSpace,
    read_text reads number, known]

theorem capOf?_cap (reads : ReadsAscii runtime.digit?) {cap : Option Decimal}
    (isHeld : ∀ number, cap = some number → number.IsHeld) :
    capOf? runtime ofFloat ((cap.map numberValue).getD .null) = some cap := by
  cases cap with
  | none => rfl
  | some number =>
      have read := decimalOf?_numberValue ofFloat reads (isHeld number rfl)
      exact congrArg (Option.map some) read

theorem distinct_members (values : EnvelopeValues) : (members values : Dict PyStr (Json F)).Distinct := by
  show ((members values : Dict PyStr (Json F)).map Prod.fst).Nodup
  simp only [members, List.map_cons, List.map_nil]
  decide

/-- A field that is read from what stands under its name. -/
theorem field_eq_some {Value : Type} {turn : Json F → Option Value} {given : Json F} {value : Value}
    (values : EnvelopeValues) (name : String) (read : turn given = some value)
    (member : (pyStr name, given) ∈ members values) :
    (Dict.get? (members values) (pyStr name) >>= turn) = some value := by
  rw [(Dict.get?_eq_some_iff (distinct_members values)).mpr member]
  exact read

theorem valuesOf?_members (reads : ReadsAscii runtime.digit?) {values : EnvelopeValues}
    (isHeld : IsHeld values) : valuesOf? runtime ofFloat (members values) = some values := by
  have number : ∀ (name : String) {value : Decimal}, value.IsHeld →
      (pyStr name, (numberValue value : Json F)) ∈ members values →
      (Dict.get? (members values) (pyStr name) >>= decimalOf? runtime ofFloat) = some value :=
    fun name _ isHeld => field_eq_some values name (decimalOf?_numberValue ofFloat reads isHeld)
  have equity := number "equity" isHeld.equity (by simp [members])
  have perEntry := number "per_entry_loss_pct" isHeld.perEntryLossPct (by simp [members])
  have aggregate := number "aggregate_loss_pct" isHeld.aggregateLossPct (by simp [members])
  have notional := number "gross_notional_pct" isHeld.grossNotionalPct (by simp [members])
  have buffer := number "cash_buffer_pct" isHeld.cashBufferPct (by simp [members])
  have daily := number "daily_loss_pct" isHeld.dailyLossPct (by simp [members])
  have drawdown := number "drawdown_pct" isHeld.drawdownPct (by simp [members])
  have cap := field_eq_some values "per_entry_abs_cap" (capOf?_cap ofFloat reads isHeld.perEntryAbsCap)
    (by simp [members])
  have currency : (Dict.get? (members values) (pyStr "currency") >>= currencyOf? (F := F)) =
      some values.currency :=
    field_eq_some values "currency" (show currencyOf? (.str values.currency) = _ from rfl)
      (by simp [members])
  have positions : (Dict.get? (members values) (pyStr "max_positions") >>= integerOf? (F := F)) =
      some values.maxPositions :=
    field_eq_some values "max_positions" (show integerOf? (.int values.maxPositions) = _ from rfl)
      (by simp [members])
  have leverage : (Dict.get? (members values) (pyStr "leverage") >>= integerOf? (F := F)) =
      some values.leverage :=
    field_eq_some values "leverage" (show integerOf? (.int values.leverage) = _ from rfl) (by simp [members])
  unfold valuesOf?
  simp only [equity, perEntry, aggregate, notional, buffer, daily, drawdown, cap, currency, positions,
    leverage]
  rfl

/-- The values of an envelope make it. -/
theorem envelopeOf?_members (reads : ReadsAscii runtime.digit?) {envelope : Envelope}
    (isHeld : IsHeld envelope.toEnvelopeValues) :
    envelopeOf? runtime ofFloat (.object (members envelope.toEnvelopeValues)) = some envelope := by
  have policy : (Dict.get? (members envelope.toEnvelopeValues) (pyStr "policy_id") >>= Json.str?) =
      some (pyStr Risk.envelopePolicyId) :=
    field_eq_some _ "policy_id" (show Json.str? (.str (pyStr Risk.envelopePolicyId) : Json F) = _ from rfl)
      (by simp [members])
  have values := valuesOf?_members ofFloat reads isHeld
  have known : (Dict.get? (members envelope.toEnvelopeValues) (pyStr "policy_id")).bind Json.str? =
      some (pyStr Risk.envelopePolicyId) := policy
  simp only [envelopeOf?, known, values, ne_eq, not_true_eq_false, if_false, Option.bind_eq_bind,
    Option.bind_some, envelope.checked, dif_pos]

/-- **An envelope is read back from its canonical text.** -/
theorem parseEnvelope_canonicalText (lawful : floats.Lawful) (reads : ReadsAscii runtime.digit?)
    {envelope : Envelope} (isHeld : IsHeld envelope.toEnvelopeValues) :
    parseEnvelope runtime floats limits ofFloat envelope.canonicalText = .ok envelope := by
  have separators : envelopeStyle.Lawful := ⟨⟨[], rfl, by simp⟩, ⟨[], rfl, by simp⟩⟩
  have trip : RoundTrip floats envelopeStyle fun _ => none := ⟨lawful, separators, fun _ _ => rfl⟩
  have text : Json.Readable (.object (members envelope.toEnvelopeValues) : Json F) := by
    refine .object (distinct_members _) ?_ ?_
    · simp only [members, List.forall_mem_cons, valid_pyStr, true_and, List.not_mem_nil,
        false_implies, implies_true]
    · have cap : Json.Readable ((envelope.perEntryAbsCap.map numberValue).getD .null : Json F) := by
        cases envelope.perEntryAbsCap with
        | none => exact .null
        | some value => exact .str (valid_pyStr _)
      simp only [members, List.forall_mem_cons, List.not_mem_nil, false_implies, implies_true, and_true,
        numberValue]
      exact ⟨.str (valid_pyStr _), .str (valid_pyStr _), .str isHeld.currency, .str (valid_pyStr _),
        .str (valid_pyStr _), .str (valid_pyStr _), .str (valid_pyStr _), .int _, .int _, cap,
        .str (valid_pyStr _), .str (valid_pyStr _)⟩
  have loaded : loads floats limits (fun _ => none) (pyStr envelope.canonicalText) =
      .ok (.object (members envelope.toEnvelopeValues)) := by
    have written := writeDepth_members floats limits envelope isHeld.currency.codes
    rw [loads_writeDepth trip (Nat.le_trans (by decide : 1 ≤ 8) limits.readRoom) written text]
    exact congrArg Except.ok (arranged_members _)
  have built := envelopeOf?_members ofFloat reads isHeld
  unfold parseEnvelope
  simp only [loaded, built, if_true]

/-- **Two envelopes have one text exactly when they are written alike**, with every number of the
same digits and the same exponent. -/
theorem canonicalText_eq_iff (limits : JsonLimits) (lawful : floats.Lawful) (reads : ReadsAscii runtime.digit?)
    {first second : Envelope} (firstHeld : IsHeld first.toEnvelopeValues)
    (secondHeld : IsHeld second.toEnvelopeValues) :
    first.canonicalText = second.canonicalText ↔ first = second := by
  constructor
  · intro same
    have firstBack := parseEnvelope_canonicalText limits (fun _ => none) lawful reads firstHeld
    have secondBack := parseEnvelope_canonicalText limits (fun _ => none) lawful reads secondHeld
    rw [← same, firstBack] at secondBack
    exact Except.ok.inj secondBack
  · intro same
    rw [same]

end Back

/-! ## A change of the envelope -/

/-- `==` of two envelopes: their numbers are compared by value. -/
def equals (first second : EnvelopeValues) : Bool :=
  Decimal.eq first.equity second.equity && first.currency == second.currency &&
    Decimal.eq first.perEntryLossPct second.perEntryLossPct &&
    Decimal.eq first.aggregateLossPct second.aggregateLossPct &&
    Decimal.eq first.grossNotionalPct second.grossNotionalPct &&
    Decimal.eq first.cashBufferPct second.cashBufferPct &&
    Decimal.eq first.dailyLossPct second.dailyLossPct &&
    Decimal.eq first.drawdownPct second.drawdownPct &&
    (match first.perEntryAbsCap, second.perEntryAbsCap with
      | none, none => true
      | some cap, some other => Decimal.eq cap other
      | none, some _ | some _, none => false) &&
    first.maxPositions == second.maxPositions && first.leverage == second.leverage

theorem equals_self (values : EnvelopeValues) : equals values values = true := by
  have same : ∀ number : Decimal, Decimal.eq number number = true := fun number => by simp [Decimal.eq, aligned]
  cases cap : values.perEntryAbsCap with
  | none => simp [equals, same, cap]
  | some value => simp [equals, same, cap]

section Change

variable {runtime : Runtime}

/-- What is read of the account has the hash of its envelope. -/
theorem readAccount_sha {db : PilotDb} {account : AccountRow}
    (read : readAccount runtime db = .ok (some account)) :
    account.envelopeSha256 = envelopeSha256 runtime account.envelope := by
  unfold readAccount at read
  cases known : db.account with
  | none =>
      rw [known] at read
      cases read
  | some row =>
      rw [known] at read
      dsimp only at read
      split at read
      next same =>
        cases read
        exact same.symm
      next => cases read

/-- The domain itself refuses nothing as a changed envelope. -/
theorem admissionRefusal_unchanged {envelope : Envelope} {direction : Risk.DirectionValue} {engaged : Bool}
    {active : List Risk.LockKind} {openPositions : ℕ} {refusal : NoTrade}
    (refused : Risk.admissionRefusal envelope direction engaged active openPositions = some refusal) :
    refusal.reason ≠ .envelopeChanged := by
  unfold Risk.admissionRefusal at refused
  split_ifs at refused
  all_goals
    cases refused
    simp [Risk.LockKind.reason]

/-- A LONG candidate is refused as a change exactly when the hashes differ. -/
theorem refusalOf_changed_iff {call : OpenCall} {terms : OpenTerms} {state : AccountState}
    {candidate : PilotCandidate} (isLong : directionText runtime candidate.direction = Paper.Direction.long.text) :
    (∃ detail, refusalOf runtime call terms state candidate = some ⟨.envelopeChanged, detail⟩) ↔
      envelopeSha256 runtime call.envelope ≠ terms.account.envelopeSha256 := by
  unfold refusalOf
  dsimp only
  rw [if_neg (not_not.mpr isLong)]
  constructor
  · rintro ⟨detail, refused⟩ same
    rw [if_neg (not_not.mpr same)] at refused
    exact admissionRefusal_unchanged refused rfl
  · intro differ
    exact ⟨_, if_pos differ⟩

/-- **A change of the envelope is a change of what is written.** Two envelopes have one canonical text
exactly when every value is written alike, an envelope is read back from its canonical text, and a LONG
candidate is refused as `envelope_changed` exactly when the envelope of the call is written otherwise than
the recorded one. -/
theorem envelope_change_is_a_change_of_writing {F : Type} {floats : FloatText F} (lawful : floats.Lawful)
    (limits : JsonLimits) (ofFloat : F → Option Decimal) (reads : ReadsAscii runtime.digit?)
    {recorded offered : Envelope} (recordedHeld : IsHeld recorded.toEnvelopeValues)
    (offeredHeld : IsHeld offered.toEnvelopeValues) :
    (recorded.canonicalText = offered.canonicalText ↔ recorded = offered) ∧
    (recorded.canonicalText = offered.canonicalText →
      equals recorded.toEnvelopeValues offered.toEnvelopeValues = true) ∧
    parseEnvelope runtime floats limits ofFloat recorded.canonicalText = .ok recorded ∧
    ((runtime.sha256Hex recorded.canonicalText = runtime.sha256Hex offered.canonicalText →
        recorded.canonicalText = offered.canonicalText) →
      ∀ (db : PilotDb) (call : OpenCall) (terms : OpenTerms) (state : AccountState)
        (candidate : PilotCandidate), readAccount runtime db = .ok (some terms.account) →
        terms.account.envelope = recorded → call.envelope = offered →
        directionText runtime candidate.direction = Paper.Direction.long.text →
        ((∃ detail, refusalOf runtime call terms state candidate = some ⟨.envelopeChanged, detail⟩) ↔
          offered ≠ recorded)) := by
  have texts := canonicalText_eq_iff limits lawful reads recordedHeld offeredHeld
  refine ⟨texts, ?_, parseEnvelope_canonicalText limits ofFloat lawful reads recordedHeld, ?_⟩
  · intro same
    rw [texts.mp same]
    exact equals_self _
  · intro noCollision db call terms state candidate read isRecorded isOffered isLong
    have sha := readAccount_sha read
    rw [refusalOf_changed_iff isLong, sha, isRecorded, isOffered, not_iff_not]
    constructor
    · intro sameHash
      exact (texts.mp (noCollision sameHash.symm)).symm
    · intro same
      rw [same]

end Change

/-! ### A limit with another zero -/

/-- The envelope of the samples with its first limit written `0.250`. -/
def respelledEnvelope : Envelope :=
  ⟨{ sampleEnvelope.toEnvelopeValues with perEntryLossPct := ⟨false, 250, -3⟩ }, by decide +kernel⟩

theorem respelledEnvelope_texts :
    equals sampleEnvelope.toEnvelopeValues respelledEnvelope.toEnvelopeValues = true ∧
      sampleEnvelope.canonicalText ≠ respelledEnvelope.canonicalText := by
  decide +kernel

/-- Two envelopes of equal values, with two texts. -/
theorem equal_limits_with_two_texts :
    equals sampleEnvelope.toEnvelopeValues respelledEnvelope.toEnvelopeValues = true ∧
      sampleEnvelope.canonicalText ≠ respelledEnvelope.canonicalText := respelledEnvelope_texts

/-- A runtime with SHA-256. -/
def plainRuntime : Runtime := { sampleRuntime with sha256Hex := Sha256.textDigest }

/-- The two texts have two hashes. -/
theorem respelledEnvelope_hashes : plainRuntime.sha256Hex sampleEnvelope.canonicalText ≠
    plainRuntime.sha256Hex respelledEnvelope.canonicalText := by
  decide +kernel

/-- Floats of which none is finite. -/
def endlessFloats : FloatText Unit where
  constant? _ := some .nan
  repr _ := []
  parse _ := ()
  ofConstant _ := ()

theorem sampleDepth : 8 ≤ 1000 := by decide

def sampleLimits : JsonLimits := ⟨4300, 1000, 1000, sampleDepth, sampleDepth, JsonLimits.pythonDigits⟩

def sampleAccount : AccountRow :=
  ⟨sampleEnvelope, envelopeSha256 plainRuntime sampleEnvelope, 100000, sampleNow⟩

/-- An account that is recorded with the hash of its envelope is read. -/
theorem readAccount_recorded (runtime : Runtime) (envelope : Envelope) (cents : ℤ) (recordedAt : Moment) :
    readAccount runtime { account := some ⟨envelope, envelopeSha256 runtime envelope, cents, recordedAt⟩ } =
      .ok (some ⟨envelope, envelopeSha256 runtime envelope, cents, recordedAt⟩) := if_pos rfl

def sampleTerms : OpenTerms := ⟨sampleAccount, ⟨.ofNat 1000, .ofNat 1000, .ofNat 1000, [], []⟩, false⟩

def sampleState : AccountState := ⟨.ofNat 1000, .ofNat 1000, .ofNat 0, [], .ofNat 0, .ofNat 0⟩

def respelledCall : OpenCall := { sampleCall with envelope := respelledEnvelope }

theorem envelope_change_is_a_change_of_writing_respelled :
    parseEnvelope plainRuntime endlessFloats sampleLimits (fun _ => none) sampleEnvelope.canonicalText =
        .ok sampleEnvelope ∧
      ∃ detail, refusalOf plainRuntime respelledCall sampleTerms sampleState (sampleCandidate "first") =
        some ⟨.envelopeChanged, detail⟩ := by
  have lawful : endlessFloats.Lawful := ⟨fun _ none => by simp [endlessFloats] at none, fun _ _ _ => rfl⟩
  have reads : ReadsAscii plainRuntime.digit? := ⟨by decide, by decide, by decide⟩
  have held : IsHeld sampleEnvelope.toEnvelopeValues :=
    ⟨valid_pyStr _, by decide +kernel, by decide +kernel, by decide +kernel, by decide +kernel,
      by decide +kernel, by decide +kernel, by decide +kernel, by simp [sampleEnvelope]⟩
  have otherHeld : IsHeld respelledEnvelope.toEnvelopeValues :=
    ⟨valid_pyStr _, by decide +kernel, by decide +kernel, by decide +kernel, by decide +kernel,
      by decide +kernel, by decide +kernel, by decide +kernel, by simp [sampleEnvelope, respelledEnvelope]⟩
  obtain ⟨_, _, back, refused⟩ := envelope_change_is_a_change_of_writing lawful sampleLimits (fun _ => none)
    reads held otherHeld
  have differ : respelledEnvelope ≠ sampleEnvelope := by decide +kernel
  exact ⟨back, (refused (absurd · respelledEnvelope_hashes) { account := some sampleAccount } respelledCall
    sampleTerms sampleState (sampleCandidate "first")
    (readAccount_recorded plainRuntime sampleEnvelope 100000 sampleNow) rfl rfl rfl).mpr differ⟩

end CryptoRadar.Pilot
