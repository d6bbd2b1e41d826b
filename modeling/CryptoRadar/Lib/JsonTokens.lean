import CryptoRadar.Lib.JsonText
import Mathlib.Data.List.TakeWhile

/-!
# The strings and the numbers that are read back

The decoder reads a string that the encoder wrote, whatever follows it (`scanString_writeString`):
its characters are read one by one, and none of them completes a surrogate pair with the one
before it, since the text holds no such pair (`PyStr.Valid`). A number is read the same whatever
follows it, where the number does not go on (`matchNumber?_append`), and a written integer reads
back (`matchNumber?_writeInt`).
-/

set_option autoImplicit false

/-- A text of Python: code points, with no surrogate pair. -/
structure PyStr.Valid (text : PyStr) : Prop where
  joined : text.isJoined = true
  codes : ∀ code ∈ text, code < 0x110000

namespace PyStr.Valid

theorem tail {code : ℕ} {text : PyStr} (valid : PyStr.Valid (code :: text)) : PyStr.Valid text := by
  refine ⟨?_, fun other member => valid.codes other (List.mem_cons_of_mem _ member)⟩
  have joined := valid.joined
  cases text with
  | nil => rfl
  | cons next rest =>
      rw [PyStr.isJoined, Bool.and_eq_true] at joined
      exact joined.2

theorem not_low {high : ℕ} {low : ℕ} {text : PyStr} (valid : PyStr.Valid (high :: low :: text))
    (isHigh : JsonText.isHigh high = true) : JsonText.isLow low = false := by
  have joined := valid.joined
  rw [PyStr.isJoined, Bool.and_eq_true] at joined
  unfold JsonText.isHigh at isHigh
  unfold JsonText.isLow
  grind

end PyStr.Valid

namespace JsonText

variable {F : Type}

/-! ## Strings -/

theorem hexValue?_hexDigit :
    ∀ digit, digit < 16 → hexValue? (hexDigit digit) = some digit := by
  decide

theorem hex4?_unicodeEscape (code : ℕ) (small : code < 0x10000) :
    hex4? (hexDigit (code / 4096 % 16)) (hexDigit (code / 256 % 16)) (hexDigit (code / 16 % 16))
      (hexDigit (code % 16)) = some code := by
  unfold hex4?
  rw [hexValue?_hexDigit _ (by omega), hexValue?_hexDigit _ (by omega),
    hexValue?_hexDigit _ (by omega), hexValue?_hexDigit _ (by omega)]
  simp only [Option.bind_eq_bind, Option.bind_some, Option.pure_def, Option.some.injEq]
  omega

/-- An escaped character that is no high surrogate is read whatever follows it. -/
theorem scanChar_unicodeEscape {code : ℕ} (small : code < 0x10000) (rest : PyStr)
    (alone : isHigh code = true → lowEscape? rest = none) :
    scanChar (unicodeEscape code ++ rest) = .ok (some code, rest) := by
  unfold unicodeEscape
  simp only [List.cons_append, List.nil_append, scanChar, hex4?_unicodeEscape code small]
  split
  next isHigh => rw [alone isHigh]
  next => rfl

theorem lowEscape?_unicodeEscape {code : ℕ} (small : code < 0x10000) (rest : PyStr) :
    lowEscape? (unicodeEscape code ++ rest) = if isLow code then some (code, rest) else none := by
  unfold unicodeEscape
  simp only [List.cons_append, List.nil_append, lowEscape?, hex4?_unicodeEscape code small]

/-- A pair of escaped surrogates is read as one character. -/
theorem scanChar_pair {code : ℕ} (beyond : 0x10000 ≤ code) (small : code < 0x110000) (rest : PyStr) :
    scanChar (unicodeEscape (0xD800 + (code - 0x10000) / 0x400) ++
      (unicodeEscape (0xDC00 + (code - 0x10000) % 0x400) ++ rest)) = .ok (some code, rest) := by
  have high : isHigh (0xD800 + (code - 0x10000) / 0x400) = true := by
    unfold isHigh
    simp only [Bool.and_eq_true, decide_eq_true_eq]
    omega
  have low : isLow (0xDC00 + (code - 0x10000) % 0x400) = true := by
    unfold isLow
    simp only [Bool.and_eq_true, decide_eq_true_eq]
    omega
  have lowRead : lowEscape? (unicodeEscape (0xDC00 + (code - 0x10000) % 0x400) ++ rest) =
      some (0xDC00 + (code - 0x10000) % 0x400, rest) := by
    rw [lowEscape?_unicodeEscape (by omega), low, if_pos rfl]
  have highRead := hex4?_unicodeEscape (0xD800 + (code - 0x10000) / 0x400) (by omega)
  have value : 0x10000 + (0xD800 + (code - 0x10000) / 0x400 - 0xD800) * 0x400 +
      (0xDC00 + (code - 0x10000) % 0x400 - 0xDC00) = code := by omega
  rw [unicodeEscape]
  simp only [List.cons_append, List.nil_append, scanChar, highRead, high, if_true, lowRead, value]

/-- A character that is no quote, no backslash and no control character stands for itself. -/
theorem scanChar_plain {code : ℕ} (rest : PyStr) (noQuote : code ≠ 34) (noBackslash : code ≠ 92)
    (printable : 32 ≤ code) : scanChar (code :: rest) = .ok (some code, rest) := by
  rw [scanChar.eq_def]
  split
  · simp_all
  · simp_all
  · simp_all
  · simp_all
  next other _ _ _ _ same =>
    cases same
    rw [if_neg (by omega)]

/-- The four ways a character is written. -/
inductive Escapes (code : ℕ) : PyStr → Prop where
  | letter {letter : ℕ} (stands : escaped? letter = some code) (noUnicode : letter ≠ 117) :
      Escapes code [92, letter]
  | unicode (small : code < 0x10000) : Escapes code (unicodeEscape code)
  | pair (beyond : 0x10000 ≤ code) : Escapes code
      (unicodeEscape (0xD800 + (code - 0x10000) / 0x400) ++
        unicodeEscape (0xDC00 + (code - 0x10000) % 0x400))
  | plain (noQuote : code ≠ 34) (noBackslash : code ≠ 92) (printable : 32 ≤ code) :
      Escapes code [code]

theorem escapes_escapeChar (ensureAscii : Bool) (code : ℕ) :
    Escapes code (escapeChar ensureAscii code) := by
  unfold escapeChar
  split
  next same => exact .letter (by rw [same]; rfl) (by decide)
  split
  next same => exact .letter (by rw [same]; rfl) (by decide)
  split
  next same => exact .letter (by rw [same]; rfl) (by decide)
  split
  next same => exact .letter (by rw [same]; rfl) (by decide)
  split
  next same => exact .letter (by rw [same]; rfl) (by decide)
  split
  next same => exact .letter (by rw [same]; rfl) (by decide)
  split
  next same => exact .letter (by rw [same]; rfl) (by decide)
  split
  next control => exact .unicode (by omega)
  split
  · split
    next small => exact .unicode small
    next large => exact .pair (by omega)
  · exact .plain (by assumption) (by assumption) (by omega)

/-- One written character is read back, with any text after it that does not complete a
surrogate pair. -/
theorem Escapes.scanChar {code : ℕ} {written : PyStr} (escapes : Escapes code written)
    (small : code < 0x110000) (rest : PyStr) (alone : isHigh code = true → lowEscape? rest = none) :
    scanChar (written ++ rest) = .ok (some code, rest) := by
  cases escapes with
  | @letter letter stands noUnicode =>
      rw [List.cons_append, List.singleton_append, JsonText.scanChar.eq_def]
      split
      next same => cases same
      next same => cases same
      next same => exact absurd (List.cons.inj (List.cons.inj same).2).1 noUnicode
      next same =>
        cases same
        rw [stands]
      next noLetter same =>
        cases same
        exact (noLetter _ _ rfl rfl).elim
  | unicode small => exact scanChar_unicodeEscape small rest alone
  | pair beyond =>
      rw [List.append_assoc]
      exact scanChar_pair beyond small rest
  | plain noQuote noBackslash printable => exact scanChar_plain rest noQuote noBackslash printable

/-- A character that is no low surrogate is not written as one. -/
theorem Escapes.lowEscape? {code : ℕ} {written : PyStr} (escapes : Escapes code written)
    (small : code < 0x110000) (notLow : isLow code = false) (rest : PyStr) :
    lowEscape? (written ++ rest) = none := by
  cases escapes with
  | @letter letter stands noUnicode =>
      rw [List.cons_append, List.singleton_append, JsonText.lowEscape?.eq_def]
      split <;> simp_all
  | unicode small =>
      rw [lowEscape?_unicodeEscape small, notLow]
      rfl
  | pair beyond =>
      have noLow : isLow (0xD800 + (code - 0x10000) / 0x400) = false := by
        unfold isLow
        simp only [Bool.and_eq_false_iff, decide_eq_false_iff_not]
        omega
      rw [List.append_assoc, lowEscape?_unicodeEscape (by omega), noLow]
      rfl
  | plain noQuote noBackslash printable =>
      rw [List.singleton_append, JsonText.lowEscape?.eq_def]
      split <;> simp_all

theorem Escapes.ne_nil {code : ℕ} {written : PyStr} (escapes : Escapes code written) :
    written ≠ [] := by
  cases escapes <;> simp [unicodeEscape]

/-- What a string goes on with does not complete a surrogate pair. -/
theorem lowEscape?_tail (ensureAscii : Bool) {code : ℕ} {text : PyStr} (rest : PyStr)
    (valid : PyStr.Valid (code :: text)) (high : isHigh code = true) :
    lowEscape? (text.flatMap (escapeChar ensureAscii) ++ 34 :: rest) = none := by
  cases text with
  | nil => simp [JsonText.lowEscape?]
  | cons next text =>
      rw [List.flatMap_cons, List.append_assoc]
      exact (escapes_escapeChar ensureAscii next).lowEscape? (valid.codes next (by simp))
        (valid.not_low high) _

/-- A written string is read back up to its closing quote. -/
theorem scanChars_escaped (ensureAscii : Bool) {text : PyStr} (rest : PyStr)
    (valid : PyStr.Valid text) :
    ∀ {fuel : ℕ}, text.length < fuel →
      scanChars fuel (text.flatMap (escapeChar ensureAscii) ++ 34 :: rest) = .ok (text, rest) := by
  induction text with
  | nil =>
      intro fuel enough
      obtain ⟨fuel, rfl⟩ := Nat.exists_eq_succ_of_ne_zero (Nat.ne_of_gt enough)
      rfl
  | cons code text hyp =>
      intro fuel enough
      obtain ⟨fuel, rfl⟩ := Nat.exists_eq_succ_of_ne_zero (Nat.ne_of_gt (Nat.zero_lt_of_lt enough))
      have read := (escapes_escapeChar ensureAscii code).scanChar (valid.codes code (by simp))
        (text.flatMap (escapeChar ensureAscii) ++ 34 :: rest) (lowEscape?_tail ensureAscii rest valid)
      have shorter : text.length < fuel := by simpa using enough
      rw [List.flatMap_cons, List.append_assoc, scanChars, read]
      simp only [bind, Except.bind, hyp valid.tail shorter]
      rfl

theorem length_flatMap_escapeChar (ensureAscii : Bool) (text : PyStr) :
    text.length ≤ (text.flatMap (escapeChar ensureAscii)).length := by
  induction text with
  | nil => simp
  | cons code text hyp =>
      have one := List.length_pos_iff.mpr (escapes_escapeChar ensureAscii code).ne_nil
      rw [List.flatMap_cons, List.length_append, List.length_cons]
      omega

/-- A written string is read back, after its opening quote. -/
theorem scanString_writeString (ensureAscii : Bool) {text : PyStr} (rest : PyStr)
    (valid : PyStr.Valid text) :
    ∃ body, writeString ensureAscii text ++ rest = 34 :: body ∧
      scanString body = .ok (text, rest) := by
  refine ⟨text.flatMap (escapeChar ensureAscii) ++ 34 :: rest, by simp [writeString], ?_⟩
  refine scanChars_escaped ensureAscii rest valid ?_
  have shorter := length_flatMap_escapeChar ensureAscii text
  rw [List.length_append, List.length_cons]
  omega

/-- What stands before the first quote that is not escaped, and what stands after it. -/
def toQuote : PyStr → PyStr × PyStr
  | [] => ([], [])
  | 34 :: rest => ([], rest)
  | 92 :: code :: rest => (92 :: code :: (toQuote rest).1, (toQuote rest).2)
  | code :: rest => (code :: (toQuote rest).1, (toQuote rest).2)

theorem toQuote_letter (letter : ℕ) (rest : PyStr) :
    toQuote (92 :: letter :: rest) = (92 :: letter :: (toQuote rest).1, (toQuote rest).2) := by
  rw [toQuote]

theorem toQuote_plain {code : ℕ} (noQuote : code ≠ 34) (noBackslash : code ≠ 92) (rest : PyStr) :
    toQuote (code :: rest) = (code :: (toQuote rest).1, (toQuote rest).2) := by
  rw [toQuote.eq_def]
  split <;> simp_all

theorem toQuote_unicodeEscape (code : ℕ) (rest : PyStr) : toQuote (unicodeEscape code ++ rest) =
    (unicodeEscape code ++ (toQuote rest).1, (toQuote rest).2) := by
  have hex : ∀ digit, digit < 16 → hexDigit digit ≠ 34 ∧ hexDigit digit ≠ 92 := by decide
  unfold unicodeEscape
  simp only [List.cons_append, List.nil_append, toQuote_letter,
    toQuote_plain (hex (code / 4096 % 16) (by omega)).1 (hex (code / 4096 % 16) (by omega)).2,
    toQuote_plain (hex (code / 256 % 16) (by omega)).1 (hex (code / 256 % 16) (by omega)).2,
    toQuote_plain (hex (code / 16 % 16) (by omega)).1 (hex (code / 16 % 16) (by omega)).2,
    toQuote_plain (hex (code % 16) (by omega)).1 (hex (code % 16) (by omega)).2]

/-- A written character holds no bare quote. -/
theorem Escapes.toQuote {code : ℕ} {written : PyStr} (escapes : Escapes code written)
    (rest : PyStr) : toQuote (written ++ rest) =
      (written ++ (JsonText.toQuote rest).1, (JsonText.toQuote rest).2) := by
  cases escapes with
  | @letter letter stands noUnicode => exact toQuote_letter letter rest
  | unicode small => exact toQuote_unicodeEscape code rest
  | pair beyond => simp only [List.append_assoc, toQuote_unicodeEscape]
  | plain noQuote noBackslash printable => exact toQuote_plain noQuote noBackslash rest

theorem toQuote_escaped (ensureAscii : Bool) (text rest : PyStr) :
    toQuote (text.flatMap (escapeChar ensureAscii) ++ 34 :: rest) =
      (text.flatMap (escapeChar ensureAscii), rest) := by
  induction text with
  | nil => rw [List.flatMap_nil, List.nil_append, toQuote]
  | cons code text hyp =>
      rw [List.flatMap_cons, List.append_assoc, (escapes_escapeChar ensureAscii code).toQuote, hyp]

/-- Written strings in front of equal texts are equal. -/
theorem writeString_append_inj {ensureAscii : Bool} {text other rest otherRest : PyStr}
    (same : writeString ensureAscii text ++ rest = writeString ensureAscii other ++ otherRest) :
    writeString ensureAscii text = writeString ensureAscii other ∧ rest = otherRest := by
  have body : ∀ text rest : PyStr, writeString ensureAscii text ++ rest =
      34 :: (text.flatMap (escapeChar ensureAscii) ++ 34 :: rest) := by
    intro text rest
    simp [writeString]
  rw [body, body] at same
  have parts := congrArg toQuote (List.cons.inj same).2
  rw [toQuote_escaped, toQuote_escaped] at parts
  obtain ⟨sameBody, sameRest⟩ := Prod.mk.inj parts
  unfold writeString
  exact ⟨by rw [sameBody], sameRest⟩

theorem Escapes.eq_of_plain {code : ℕ} {written : PyStr} (escapes : Escapes code written)
    (plain : 92 ∉ written) : written = [code] := by
  cases escapes with
  | @letter letter stands noUnicode => exact absurd List.mem_cons_self plain
  | unicode small => exact absurd List.mem_cons_self plain
  | pair beyond => exact absurd (List.mem_append_left _ List.mem_cons_self) plain
  | plain noQuote noBackslash printable => rfl

/-- Without a backslash an escaped text is the text itself. -/
theorem flatMap_escapeChar_of_plain {ensureAscii : Bool} {text : PyStr}
    (plain : 92 ∉ text.flatMap (escapeChar ensureAscii)) :
    text.flatMap (escapeChar ensureAscii) = text := by
  induction text with
  | nil => rfl
  | cons code text hyp =>
      rw [List.flatMap_cons, List.mem_append, not_or] at plain
      rw [List.flatMap_cons, hyp plain.2,
        (escapes_escapeChar ensureAscii code).eq_of_plain plain.1, List.singleton_append]

/-- A text that is written as it is has no other text with the same writing. -/
theorem eq_of_writeString_eq {ensureAscii : Bool} {text other : PyStr}
    (plain : ∀ code ∈ text, escapeChar ensureAscii code = [code])
    (same : writeString ensureAscii text = writeString ensureAscii other) : other = text := by
  have asItIs : text.flatMap (escapeChar ensureAscii) = text := by
    rw [List.flatMap_congr plain, List.flatMap_singleton']
  have bodies : text.flatMap (escapeChar ensureAscii) = other.flatMap (escapeChar ensureAscii) :=
    List.append_cancel_right (List.cons.inj same).2
  have noBackslash : 92 ∉ other.flatMap (escapeChar ensureAscii) := by
    rw [← bodies, asItIs]
    intro member
    have escaped := plain 92 member
    cases escaped
  rw [← flatMap_escapeChar_of_plain noBackslash, ← bodies, asItIs]

/-! ## Numbers -/

def NoDigit (text : PyStr) : Prop := ∀ code ∈ text.head?, isDigit code = false

/-- A number ends before this text. -/
def Stops (text : PyStr) : Prop :=
  ∀ code ∈ text.head?, isDigit code = false ∧ code ≠ 46 ∧ code ≠ 101 ∧ code ≠ 69

theorem Stops.noDigit {text : PyStr} (stops : Stops text) : NoDigit text :=
  fun code first => (stops code first).1

/-- The digits at the front of a text end where they ended, whatever follows. -/
theorem digits_append {text after : PyStr} (stops : NoDigit (text.dropWhile isDigit ++ after)) :
    (text ++ after).takeWhile isDigit = text.takeWhile isDigit ∧
      (text ++ after).dropWhile isDigit = text.dropWhile isDigit ++ after := by
  induction text with
  | nil =>
      cases after with
      | nil => exact ⟨rfl, rfl⟩
      | cons code after =>
          have noDigit := stops code rfl
          simp [noDigit]
  | cons code text hyp =>
      rw [List.cons_append, List.takeWhile_cons, List.takeWhile_cons, List.dropWhile_cons,
        List.dropWhile_cons]
      rw [List.dropWhile_cons] at stops
      split
      next digit =>
        rw [if_pos digit] at stops
        obtain ⟨taken, dropped⟩ := hyp stops
        exact ⟨by rw [taken], dropped⟩
      next noDigit => exact ⟨rfl, rfl⟩

theorem numberSign_append {text : PyStr} (after : PyStr) (nonempty : text ≠ []) :
    numberSign (text ++ after) = ((numberSign text).1, (numberSign text).2 ++ after) := by
  cases text with
  | nil => exact absurd rfl nonempty
  | cons code text =>
      rw [List.cons_append, numberSign.eq_def, numberSign.eq_def (code :: text)]
      split
      next same =>
        cases same
        rfl
      next other =>
        split
        next same =>
          cases same
          exact absurd rfl (other _)
        next => rfl

theorem wholePart?_append {text whole rest : PyStr} (after : PyStr)
    (found : wholePart? text = some (whole, rest)) (stops : NoDigit (rest ++ after)) : wholePart? (text ++ after) = some (whole, rest ++ after) := by
  cases text with
  | nil => simp [wholePart?] at found
  | cons code text =>
      rw [wholePart?.eq_def] at found ⊢
      rw [List.cons_append]
      split at found
      next same =>
        cases same
        cases found
        rfl
      next other =>
        split
        next same =>
          cases same
          exact absurd rfl (other _)
        next =>
          split at found
          next => cases found
          next some =>
            cases found
            obtain ⟨taken, dropped⟩ := digits_append stops
            rw [← List.cons_append, taken, dropped, if_neg some]

theorem fraction_append {point rest : PyStr} (text after : PyStr) (found : fraction text = (point, rest))
    (stops : NoDigit (rest ++ after)) (noPoint : ∀ code ∈ (rest ++ after).head?, code ≠ 46) :
    fraction (text ++ after) = (point, rest ++ after) := by
  cases text with
  | nil =>
      cases found
      rw [List.nil_append] at noPoint ⊢
      rw [fraction.eq_def]
      split
      next => exact absurd rfl (noPoint 46 rfl)
      next => rfl
  | cons code text =>
      rw [fraction.eq_def] at found ⊢
      rw [List.cons_append]
      split at found
      next same =>
        cases same
        split at found
        next none =>
          cases found
          exact absurd rfl (noPoint 46 rfl)
        next some =>
          cases found
          obtain ⟨taken, dropped⟩ := digits_append stops
          simp only [taken, dropped, if_neg some]
      next other =>
        cases found
        split
        next same =>
          cases same
          exact absurd rfl (other _)
        next => rfl

theorem exponentSign_append {text after : PyStr} (nonempty : text ≠ []) :
    exponentSign (text ++ after) = ((exponentSign text).1, (exponentSign text).2 ++ after) := by
  cases text with
  | nil => exact absurd rfl nonempty
  | cons code text =>
      rw [List.cons_append, exponentSign.eq_def, exponentSign.eq_def (code :: text)]
      split
      next same =>
        cases same
        rfl
      next same =>
        cases same
        rfl
      next noPlus noMinus =>
        split
        next same =>
          cases same
          exact absurd rfl (noPlus _)
        next same =>
          cases same
          exact absurd rfl (noMinus _)
        next => rfl

theorem exponent_append {text power rest after : PyStr} (found : exponent text = (power, rest))
    (stops : Stops (rest ++ after)) : exponent (text ++ after) = (power, rest ++ after) := by
  cases text with
  | nil =>
      cases found
      rw [List.nil_append] at stops ⊢
      cases after with
      | nil => rfl
      | cons code after =>
          obtain ⟨-, -, noLower, noUpper⟩ := stops code rfl
          simp [exponent, noLower, noUpper]
  | cons letter text =>
      rw [List.cons_append]
      unfold exponent at found ⊢
      dsimp only at found ⊢
      split at found
      next isLetter =>
        rw [if_pos isLetter]
        split at found
        next none =>
          cases found
          obtain ⟨-, -, noLower, noUpper⟩ := stops letter rfl
          simp [noLower, noUpper] at isLetter
        next some =>
          cases found
          have nonempty : text ≠ [] := by
            rintro rfl
            exact some rfl
          obtain ⟨taken, dropped⟩ := digits_append stops.noDigit
          rw [exponentSign_append nonempty]
          dsimp only
          rw [taken, dropped, if_neg some]
      next noLetter =>
        cases found
        rw [if_neg noLetter]
        rfl

theorem fraction_noDigit {text point rest after : PyStr} (found : fraction text = (point, rest))
    (stops : NoDigit (rest ++ after)) : NoDigit (text ++ after) := by
  rw [fraction.eq_def] at found
  split at found
  next =>
    intro code first
    cases first
    rfl
  next =>
    cases found
    exact stops

theorem exponent_front {text power rest : PyStr} (after : PyStr) (found : exponent text = (power, rest))
    (stops : Stops (rest ++ after)) :
    ∀ code ∈ (text ++ after).head?, isDigit code = false ∧ code ≠ 46 := by
  cases text with
  | nil =>
      cases found
      exact fun code first => ⟨(stops code first).1, (stops code first).2.1⟩
  | cons letter text =>
      unfold exponent at found
      dsimp only at found
      split at found
      next isLetter =>
        intro code first
        cases first
        rw [Bool.or_eq_true, decide_eq_true_eq, decide_eq_true_eq] at isLetter
        rcases isLetter with rfl | rfl
        · decide
        · decide
      next =>
        cases found
        exact fun code first => ⟨(stops code first).1, (stops code first).2.1⟩

/-- A number is read the same whatever follows the text, where what is left of the text and what
follows it do not go on with the number. -/
theorem matchNumber?_append {text whole more rest : PyStr} (after : PyStr)
    (found : matchNumber? text = some (whole, more, rest)) (stops : Stops (rest ++ after)) :
    matchNumber? (text ++ after) = some (whole, more, rest ++ after) := by
  unfold matchNumber? at found ⊢
  have nonempty : text ≠ [] := by
    rintro rfl
    simp [numberSign, wholePart?] at found
  rw [numberSign_append after nonempty]
  dsimp only at found ⊢
  simp only [Option.bind_eq_bind, Option.bind_eq_some_iff, Option.pure_def, Option.some.injEq,
    Prod.mk.injEq] at found
  obtain ⟨⟨digits, rest1⟩, foundWhole, rfl, rfl, rfl⟩ := found
  dsimp only at stops ⊢
  have front := exponent_front after (Prod.mk.eta (p := exponent (fraction rest1).2)).symm stops
  have noDigit : NoDigit ((fraction rest1).2 ++ after) := fun code first => (front code first).1
  have foundFraction := fraction_append rest1 after (Prod.mk.eta (p := fraction rest1)).symm noDigit
    (fun code first => (front code first).2)
  have foundExponent := exponent_append (Prod.mk.eta (p := exponent (fraction rest1).2)).symm stops
  have noWhole := fraction_noDigit (Prod.mk.eta (p := fraction rest1)).symm noDigit
  rw [wholePart?_append after foundWhole noWhole]
  simp only [Option.bind_eq_bind, Option.bind_some, foundFraction, foundExponent, Option.pure_def]

/-! ## Integers -/

theorem digitChar_toNat : ∀ digit, digit < 10 → (Nat.digitChar digit).toNat = 48 + digit := by
  decide

theorem decimal_one {number : ℕ} (small : number < 10) : decimal number = [48 + number] := by
  rw [decimal, Nat.toDigits_of_lt_base small]
  simp [digitChar_toNat number small]

theorem decimal_more {number : ℕ} (large : 10 ≤ number) :
    decimal number = decimal (number / 10) ++ [48 + number % 10] := by
  rw [decimal, Nat.toDigits_of_base_le (by decide) large]
  simp [decimal, digitChar_toNat _ (Nat.mod_lt number (by decide))]

theorem isDigit_digit {digit : ℕ} (small : digit < 10) : isDigit (48 + digit) = true := by
  unfold isDigit
  simp only [Bool.and_eq_true, decide_eq_true_eq]
  omega

theorem isDigit_of_mem_decimal (number : ℕ) : ∀ code ∈ decimal number, isDigit code = true := by
  induction number using Nat.strong_induction_on with
  | h number hyp =>
      intro code member
      rcases Nat.lt_or_ge number 10 with small | large
      · rw [decimal_one small, List.mem_singleton] at member
        rw [member]
        exact isDigit_digit small
      · rw [decimal_more large, List.mem_append, List.mem_singleton] at member
        rcases member with member | rfl
        · exact hyp (number / 10) (Nat.div_lt_self (by omega) (by decide)) code member
        · exact isDigit_digit (Nat.mod_lt number (by decide))

/-- The digits of a number do not start with 0, but for 0 itself. -/
theorem decimal_front {number : ℕ} (positive : 0 < number) :
    ∃ code rest, decimal number = code :: rest ∧ code ≠ 48 := by
  induction number using Nat.strong_induction_on with
  | h number hyp =>
      rcases Nat.lt_or_ge number 10 with small | large
      · exact ⟨48 + number, [], decimal_one small, by omega⟩
      · obtain ⟨code, rest, front, notZero⟩ :=
          hyp (number / 10) (Nat.div_lt_self (by omega) (by decide)) (by omega)
        exact ⟨code, rest ++ [48 + number % 10], by rw [decimal_more large, front]; rfl, notZero⟩

theorem decimal_ne_nil (number : ℕ) : decimal number ≠ [] := by
  simp [decimal, Nat.toDigits_ne_nil]

theorem naturalOf_decimal (number : ℕ) : naturalOf (decimal number) = number := by
  induction number using Nat.strong_induction_on with
  | h number hyp =>
      rcases Nat.lt_or_ge number 10 with small | large
      · rw [decimal_one small]
        simp [naturalOf]
      · have shorter := hyp (number / 10) (Nat.div_lt_self (by omega) (by decide))
        rw [naturalOf] at shorter
        rw [decimal_more large, naturalOf, List.foldl_append, shorter]
        simp only [List.foldl_cons, List.foldl_nil]
        omega

theorem takeWhile_decimal (number : ℕ) : (decimal number).takeWhile isDigit = decimal number :=
  List.takeWhile_eq_self_iff.mpr (isDigit_of_mem_decimal number)

theorem wholePart?_decimal (number : ℕ) : wholePart? (decimal number) = some (decimal number, []) := by
  rcases Nat.eq_zero_or_pos number with rfl | positive
  · rfl
  · obtain ⟨code, rest, front, notZero⟩ := decimal_front positive
    have dropped : (decimal number).dropWhile isDigit = [] :=
      List.dropWhile_eq_nil_iff.mpr (isDigit_of_mem_decimal number)
    rw [wholePart?.eq_def]
    split
    next same =>
      rw [front] at same
      exact absurd (List.cons.inj same).1 notZero
    next => rw [takeWhile_decimal, if_neg (decimal_ne_nil number), dropped]

theorem numberSign_decimal (number : ℕ) : numberSign (decimal number) = ([], decimal number) := by
  rw [numberSign.eq_def]
  split
  next same =>
    have digit := isDigit_of_mem_decimal number 45 (by rw [same]; exact List.mem_cons_self)
    exact absurd digit (by decide)
  next => rfl

/-- A written integer is a number without a fraction and an exponent, and reads back. -/
theorem matchNumber?_writeInt {limits : JsonLimits} {number : ℤ} {text : PyStr}
    (written : writeInt limits number = some text) :
    matchNumber? text = some (text, [], []) ∧ intOf? limits text = some number := by
  unfold writeInt at written
  dsimp only at written
  split at written
  next => cases written
  next short =>
    split at written
    next negative =>
      cases written
      refine ⟨?_, ?_⟩
      · simp [matchNumber?, numberSign, wholePart?_decimal, fraction, exponent]
      · unfold intOf?
        simp only [numberSign, if_neg short, naturalOf_decimal, List.cons_ne_nil, if_false]
        congr 1
        omega
    next natural =>
      cases written
      refine ⟨?_, ?_⟩
      · simp [matchNumber?, numberSign_decimal, wholePart?_decimal, fraction, exponent]
      · unfold intOf?
        simp only [numberSign_decimal, if_neg short, naturalOf_decimal, if_true]
        congr 1
        omega

end JsonText
