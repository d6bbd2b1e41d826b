import CryptoRadar.Lib.Decimal
import Mathlib.Data.List.Basic
import Mathlib.Tactic.Ring

/-!
# The text of a number reads as the number

`str` of a number keeps its sign, its digits and its exponent: it is digits with at most one point,
and an exponent where the point is far from them (`text_shape`). Reading such a text gives the three
back (`read_text`), so two numbers with one text are the same
(`eq_of_text_eq`).
-/

set_option autoImplicit false

namespace Decimal

def digitChars (digits : List ℕ) : List Char := digits.map Nat.digitChar

def AreDigits (digits : List ℕ) : Prop := ∀ digit ∈ digits, digit < 10

/-- A reader of digits that knows the decimal digits of ASCII, and that a point, a sign and the mark
of an exponent are none. -/
structure ReadsAscii (digit? : Char → Option ℕ) : Prop where
  digit : ∀ digit < 10, digit? (Nat.digitChar digit) = some digit
  point : digit? '.' = none
  mark : digit? 'E' = none

/-! ## Digits -/

theorem ofDigits_append (first second : List ℕ) :
    ofDigits (first ++ second) = second.foldl (fun total digit => total * 10 + digit) (ofDigits first) := by
  rw [ofDigits, List.foldl_append]
  rfl

theorem ofDigits_replicate (zeros : ℕ) : ofDigits (List.replicate zeros 0) = 0 := by
  induction zeros with
  | zero => rfl
  | succ zeros ih =>
      rw [List.replicate_succ', ofDigits_append, ih]
      rfl

/-- Zeros in front count nothing. -/
theorem ofDigits_zeros (zeros : ℕ) (digits : List ℕ) :
    ofDigits (List.replicate zeros 0 ++ digits) = ofDigits digits := by
  rw [ofDigits_append, ofDigits_replicate]
  rfl

/-- The digits of a number count it. -/
theorem toDigits_eq (number : ℕ) : ∃ digits, AreDigits digits ∧ digits ≠ [] ∧
    Nat.toDigits 10 number = digitChars digits ∧ ofDigits digits = number := by
  induction number using Nat.strong_induction_on with
  | h number hyp =>
      rcases Nat.lt_or_ge number 10 with small | large
      · refine ⟨[number], ?_, List.cons_ne_nil _ _, Nat.toDigits_of_lt_base small, ?_⟩
        · simpa [AreDigits] using small
        · simp [ofDigits]
      · obtain ⟨digits, areDigits, _, written, counted⟩ :=
          hyp (number / 10) (Nat.div_lt_self (by omega) (by decide))
        refine ⟨digits ++ [number % 10], ?_, by simp, ?_, ?_⟩
        · intro digit member
          rcases List.mem_append.mp member with front | last
          · exact areDigits digit front
          · rw [List.mem_singleton.mp last]
            exact Nat.mod_lt _ (by decide)
        · rw [Nat.toDigits_of_base_le (by decide) large, written]
          simp [digitChars]
        · rw [ofDigits_append, counted]
          simp only [List.foldl_cons, List.foldl_nil]
          omega

/-- Digits are read up to the first other character. -/
theorem spanDigits_append {digit? : Char → Option ℕ} (reads : ReadsAscii digit?) {digits : List ℕ}
    (areDigits : AreDigits digits) {rest : List Char} (stops : ∀ char ∈ rest.head?, digit? char = none) :
    spanDigits digit? (digitChars digits ++ rest) = (digits, rest) := by
  induction digits with
  | nil =>
      cases rest with
      | nil => rfl
      | cons char rest =>
          have none := stops char rfl
          simp [digitChars, spanDigits, none]
  | cons digit digits ih =>
      have tail := ih fun other member => areDigits other (List.mem_cons_of_mem _ member)
      have head := reads.digit digit (areDigits digit List.mem_cons_self)
      rw [digitChars] at tail
      simp [digitChars, spanDigits, head, tail]

/-- What a digit's character is not. -/
theorem digitChar_plain : ∀ digit < 10, Nat.digitChar digit ≠ '_' ∧ Nat.digitChar digit ≠ '-' ∧
    Nat.digitChar digit ≠ '+' ∧ Nat.digitChar digit ≠ '.' ∧
    (Nat.digitChar digit).toLower ≠ 's' ∧ (Nat.digitChar digit).toLower ≠ 'i' ∧
    (Nat.digitChar digit).toLower ≠ 'n' := by decide

/-! ## Reading -/

/-- The characters of a fraction: none, or a point and digits. -/
def fractionChars (fraction : List ℕ) : List Char :=
  if fraction = [] then [] else '.' :: digitChars fraction

/-- The characters of an exponent: none, or a mark, a sign and digits. -/
def exponentChars (exponent : ℤ) : List Char :=
  if exponent = 0 then []
  else 'E' :: (if 0 ≤ exponent then '+' else '-') :: Nat.toDigits 10 exponent.natAbs

theorem exponentChars_noPoint (exponent : ℤ) : (exponentChars exponent).head? ≠ some '.' := by
  unfold exponentChars
  split <;> simp

section Reads

variable {digit? : Char → Option ℕ} (reads : ReadsAscii digit?)
include reads

theorem readExponent_exponentChars (exponent : ℤ) :
    readExponent digit? (exponentChars exponent) = some exponent := by
  unfold exponentChars
  split
  next zero => rw [zero]; rfl
  next nonzero =>
    generalize isSize : exponent.natAbs = size
    obtain ⟨digits, areDigits, some, written, counted⟩ := toDigits_eq size
    have span : spanDigits digit? (digitChars digits) = (digits, []) := by
      rw [← List.append_nil (digitChars digits)]
      exact spanDigits_append reads areDigits (by simp)
    have notEmpty : digits.isEmpty = false := by simpa using some
    rw [written]
    rcases lt_or_ge exponent 0 with negative | positive
    · rw [if_neg (not_le.mpr negative)]
      simp [readExponent, span, notEmpty, counted]
      omega
    · rw [if_pos positive]
      simp [readExponent, span, notEmpty, counted]
      omega

theorem exponentChars_stops (exponent : ℤ) :
    ∀ char ∈ (exponentChars exponent).head?, digit? char = none := by
  intro char isHead
  unfold exponentChars at isHead
  split at isHead
  next => cases isHead
  next =>
    cases isHead
    exact reads.mark

/-- Digits with a fraction and an exponent are read as their number. -/
theorem readNumber_chars (negative : Bool) {whole fraction : List ℕ} (wholeDigits : AreDigits whole)
    (fractionDigits : AreDigits fraction) (some : whole ≠ []) (exponent : ℤ) :
    readNumber digit? negative
        (digitChars whole ++ (fractionChars fraction ++ exponentChars exponent)) =
      held negative (ofDigits (whole ++ fraction)) (exponent - fraction.length) := by
  have stops := exponentChars_stops reads exponent
  have exponents := readExponent_exponentChars reads exponent
  have notEmpty : whole.isEmpty = false := by simpa using some
  unfold readNumber fractionChars
  by_cases none : fraction = []
  · have span := spanDigits_append reads wholeDigits stops
    simp [none, span, exponentChars_noPoint exponent, notEmpty, exponents]
  · have span : spanDigits digit?
          (digitChars whole ++ '.' :: (digitChars fraction ++ exponentChars exponent)) =
        (whole, '.' :: (digitChars fraction ++ exponentChars exponent)) :=
      spanDigits_append reads wholeDigits (by simpa using reads.point)
    have fractionSpan := spanDigits_append reads fractionDigits stops
    simp [none, span, fractionSpan, notEmpty, exponents]

end Reads

/-! ## Writing -/

/-- Digits with a point among them, or with zeros and a point before them. -/
theorem pointed_chars {digits : List ℕ} (areDigits : AreDigits digits) (some : digits ≠ []) {place : ℤ}
    (within : place ≤ digits.length) :
    ∃ whole fraction, AreDigits whole ∧ AreDigits fraction ∧ whole ≠ [] ∧
      (pointed (digitChars digits) place).toList = digitChars whole ++ fractionChars fraction ∧
      ofDigits (whole ++ fraction) = ofDigits digits ∧ (fraction.length : ℤ) = digits.length - place := by
  unfold pointed
  split
  next low =>
    refine ⟨[0], List.replicate (-place).toNat 0 ++ digits, by simp [AreDigits], ?_, by simp, ?_, ?_, ?_⟩
    · intro digit member
      rcases List.mem_append.mp member with zero | member
      · rw [(List.mem_replicate.mp zero).2]
        decide
      · exact areDigits digit member
    · simp [fractionChars, some, digitChars, String.toList_append]
    · rw [← List.append_assoc, ← List.replicate_one, ← List.replicate_add, ofDigits_zeros]
    · rw [List.length_append, List.length_replicate]
      push_cast
      omega
  next high =>
    refine ⟨digits.take place.toNat, digits.drop place.toNat, fun digit member =>
      areDigits digit (List.mem_of_mem_take member), fun digit member =>
      areDigits digit (List.mem_of_mem_drop member), ?_, ?_, ?_, ?_⟩
    · simp only [ne_eq, List.take_eq_nil_iff, not_or]
      exact ⟨by omega, some⟩
    · have noZeros : place.toNat - (digitChars digits).length = 0 := by
        simp only [digitChars, List.length_map]
        omega
      simp only [noZeros, List.replicate_zero, List.append_nil, String.toList_append,
        String.toList_ofList, fractionChars]
      by_cases none : digits.drop place.toNat = []
      · simp [digitChars, ← List.map_drop, ← List.map_take, none]
      · simp [digitChars, ← List.map_drop, ← List.map_take, none]
    · rw [List.take_append_drop]
    · rw [List.length_drop]
      omega

/-- The text of a number is a sign and digits with a fraction and an exponent, which count its
coefficient and its exponent. -/
theorem text_shape (number : Decimal) : ∃ whole fraction scale, AreDigits whole ∧ AreDigits fraction ∧
    whole ≠ [] ∧
    number.text.toList = (if number.negative then ['-'] else []) ++
      (digitChars whole ++ (fractionChars fraction ++ exponentChars scale)) ∧
    ofDigits (whole ++ fraction) = number.coeff ∧ scale - fraction.length = number.exponent := by
  obtain ⟨digits, areDigits, some, written, counted⟩ := toDigits_eq number.coeff
  have length : (digitChars digits).length = digits.length := by simp [digitChars]
  have sign : number.signText.toList = if number.negative then ['-'] else [] := by
    unfold signText
    split <;> rfl
  unfold text
  rw [written]
  simp only [length]
  split
  next near =>
    simp only [Bool.and_eq_true, decide_eq_true_eq] at near
    obtain ⟨whole, fraction, wholeDigits, fractionDigits, wholeSome, chars, same, count⟩ :=
      pointed_chars areDigits some (show (digits.length : ℤ) + number.exponent ≤ digits.length by omega)
    refine ⟨whole, fraction, 0, wholeDigits, fractionDigits, wholeSome, ?_, same.trans counted, ?_⟩
    · rw [String.toList_append, sign, chars]
      simp [exponentChars]
    · omega
  next far =>
    have atLeast : 1 ≤ digits.length := List.length_pos_iff.mpr some
    obtain ⟨whole, fraction, wholeDigits, fractionDigits, wholeSome, chars, same, count⟩ :=
      pointed_chars areDigits some (show (1 : ℤ) ≤ digits.length by omega)
    refine ⟨whole, fraction, digits.length + number.exponent - 1, wholeDigits, fractionDigits, wholeSome,
      ?_, same.trans counted, by omega⟩
    rw [String.toList_append, String.toList_append, sign, chars, List.append_assoc, List.append_assoc]
    congr 3
    unfold exponentChars
    by_cases one : (digits.length : ℤ) + number.exponent = 1
    · simp [one]
    · have nonzero : (digits.length : ℤ) + number.exponent - 1 ≠ 0 := by omega
      rw [if_neg one, if_neg nonzero, String.toList_append, String.toList_append, String.toList_ofList]
      split <;> simp

/-! ## Back -/

/-- The characters a text of a number is made of. -/
def numberChars : List Char :=
  ['0', '1', '2', '3', '4', '5', '6', '7', '8', '9', '.', 'E', '+', '-']

theorem digitChars_plain {digits : List ℕ} (areDigits : AreDigits digits) :
    ∀ char ∈ digitChars digits, char ∈ numberChars := by
  intro char member
  obtain ⟨digit, isDigit, rfl⟩ := List.mem_map.mp member
  have plain : ∀ digit < 10, Nat.digitChar digit ∈ numberChars := by decide
  exact plain digit (areDigits digit isDigit)

theorem text_chars (number : Decimal) : ∀ char ∈ number.text.toList, char ∈ numberChars := by
  obtain ⟨whole, fraction, scale, wholeDigits, fractionDigits, _, chars, _⟩ := text_shape number
  rw [chars]
  intro char member
  simp only [List.mem_append] at member
  rcases member with isSign | isWhole | isFraction | isExponent
  · split at isSign
    next =>
      rw [List.mem_singleton.mp isSign]
      decide
    next => cases isSign
  · exact digitChars_plain wholeDigits char isWhole
  · unfold fractionChars at isFraction
    split at isFraction
    next => cases isFraction
    next =>
      rcases List.mem_cons.mp isFraction with rfl | isDigit
      · decide
      · exact digitChars_plain fractionDigits char isDigit
  · unfold exponentChars at isExponent
    split at isExponent
    next => cases isExponent
    next =>
      obtain ⟨digits, areDigits, _, written, _⟩ := toDigits_eq scale.natAbs
      rw [written] at isExponent
      rcases List.mem_cons.mp isExponent with rfl | isExponent
      · decide
      rcases List.mem_cons.mp isExponent with rfl | isDigit
      · split <;> decide
      · exact digitChars_plain areDigits char isDigit

/-- A text that starts with a digit is no infinity and no nan. -/
theorem isSpecial_digit (digit? : Char → Option ℕ) {first : ℕ} (isDigit : first < 10) (rest : List Char) :
    isSpecial digit? (Nat.digitChar first :: rest) = false := by
  obtain ⟨_, _, _, _, noS, noI, noN⟩ := digitChar_plain first isDigit
  have infinite : "inf".toList = ['i', 'n', 'f'] ∧
      "infinity".toList = ['i', 'n', 'f', 'i', 'n', 'i', 't', 'y'] ∧ "nan".toList = ['n', 'a', 'n'] := by
    decide
  obtain ⟨inf, infinity, nan⟩ := infinite
  unfold isSpecial
  simp [inf, infinity, nan, noS, noI, noN]

/-- **Reading the text of a number** gives its sign, its coefficient and its exponent. -/
theorem read_text {digit? : Char → Option ℕ} (reads : ReadsAscii digit?) (number : Decimal) :
    read digit? number.text = held number.negative number.coeff number.exponent := by
  obtain ⟨whole, fraction, scale, wholeDigits, fractionDigits, some, chars, counted, exponent⟩ :=
    text_shape number
  have result := readNumber_chars reads number.negative wholeDigits fractionDigits some scale
  rw [counted, exponent] at result
  obtain ⟨first, others, rfl⟩ := List.exists_cons_of_ne_nil some
  have isDigit := wholeDigits first List.mem_cons_self
  obtain ⟨_, noMinus, noPlus, _⟩ := digitChar_plain first isDigit
  have filtered : number.text.toList.filter (· ≠ '_') = number.text.toList := by
    rw [List.filter_eq_self]
    intro char member
    have plain : (numberChars.all fun char => decide (char ≠ '_')) = true := by decide
    exact List.all_eq_true.mp plain char (text_chars number char member)
  unfold read
  rw [filtered, chars]
  rw [show digitChars (first :: others) = Nat.digitChar first :: digitChars others from rfl,
    List.cons_append] at result ⊢
  have plain := isSpecial_digit digit? isDigit
    (digitChars others ++ (fractionChars fraction ++ exponentChars scale))
  cases negative : number.negative with
  | false =>
      rw [negative] at result
      simp [noMinus, noPlus, plain, result]
  | true =>
      rw [negative] at result
      simp [plain, result]

/-- A number whose exponent Python can hold. -/
def IsHeld (number : Decimal) : Prop :=
  held number.negative number.coeff number.exponent = .finite number

instance (number : Decimal) : Decidable number.IsHeld := inferInstanceAs (Decidable (_ = _))

def asciiDigit? (char : Char) : Option ℕ := if char.isDigit then some (char.toNat - 48) else none

end Decimal
