import Mathlib.Computability.RegularExpressions

/-!
# Words in a row

A text is a row of words when it is the concatenation of words of a language. A pass from left to
right that marks where words end finds the beginnings of a text that are rows of words: where no
word is empty, an end is marked by a word that starts at an earlier end (`mem_kstar_take`).

`literal` and `oneOf` are the regular expressions of a given text and of a list of texts.
-/

set_option autoImplicit false

namespace Words

open Language

variable {α : Type}

/-! ## Rows of words -/

theorem mem_kstar_append {words : Language α} {text : List α} (some : text ≠ []) :
    text ∈ KStar.kstar words ↔
      ∃ front word, front ∈ KStar.kstar words ∧ word ∈ words ∧ front ++ word = text := by
  conv_lhs => rw [← one_add_kstar_mul_self_eq_kstar words]
  rw [Language.mem_add, Language.mem_one, Language.mem_mul]
  constructor
  · rintro (nothing | ⟨front, isFront, word, isWord, rfl⟩)
    · exact absurd nothing some
    · exact ⟨front, word, isFront, isWord, rfl⟩
  · rintro ⟨front, word, isFront, isWord, rfl⟩
    exact .inr ⟨front, isFront, word, isWord, rfl⟩

/-- Where a beginning of a text that is a row of words ends: at its start, or where a word ends
that starts at an earlier such place. -/
theorem mem_kstar_take {words : Language α} (noEmpty : [] ∉ words) (text : List α) {stop : ℕ}
    (inside : stop ≤ text.length) :
    text.take stop ∈ KStar.kstar words ↔
      stop = 0 ∨ ∃ start < stop, text.take start ∈ KStar.kstar words ∧
        ∃ word ∈ words, word <+: text.drop start ∧ start + word.length = stop := by
  by_cases zero : stop = 0
  · subst zero
    exact iff_of_true (nil_mem_kstar words) (.inl rfl)
  have length : (text.take stop).length = stop := List.length_take_of_le inside
  have some : text.take stop ≠ [] := by
    intro nothing
    rw [nothing] at length
    exact zero length.symm
  rw [mem_kstar_append some]
  constructor
  · rintro ⟨front, word, isFront, isWord, split⟩
    have lengths : front.length + word.length = stop := by
      rw [← List.length_append, split, length]
    have someWord : word ≠ [] := fun nothing => noEmpty (nothing ▸ isWord)
    have positive := List.length_pos_iff.mpr someWord
    have whole : text = front ++ word ++ text.drop stop := by
      rw [split, List.take_append_drop]
    have isTake : text.take front.length = front := by
      rw [whole, List.append_assoc, List.take_left]
    have isDrop : text.drop front.length = word ++ text.drop stop := by
      conv_lhs => rw [whole, List.append_assoc, List.drop_left]
    refine .inr ⟨front.length, by omega, ?_, word, isWord, ⟨text.drop stop, isDrop.symm⟩, lengths⟩
    rw [isTake]
    exact isFront
  · rintro (none | ⟨start, -, isFront, word, isWord, ⟨rest, isDrop⟩, lengths⟩)
    · exact absurd none zero
    · refine ⟨text.take start, word, isFront, isWord, ?_⟩
      have more : text.take stop = text.take start ++ (text.drop start).take word.length := by
        rw [← lengths, List.take_add]
      rw [more, ← isDrop, List.take_left]

theorem mem_mul_kstar {words : Language α} (noEmpty : [] ∉ words) (text : List α) :
    text ∈ words * KStar.kstar words ↔ text ≠ [] ∧ text ∈ KStar.kstar words := by
  constructor
  · rintro ⟨word, isWord, rest, isRest, rfl⟩
    refine ⟨fun nothing => ?_, ?_⟩
    · obtain ⟨rfl, -⟩ := List.append_eq_nil_iff.mp nothing
      exact noEmpty isWord
    · rw [← one_add_self_mul_kstar_eq_kstar]
      exact .inr ⟨word, isWord, rest, isRest, rfl⟩
  · rintro ⟨some, isRow⟩
    rw [← one_add_self_mul_kstar_eq_kstar] at isRow
    rcases isRow with nothing | isRow
    · exact absurd nothing some
    · exact isRow

theorem append_prefix_iff {first second text : List α} :
    first ++ second <+: text ↔ first <+: text ∧ second <+: text.drop first.length := by
  constructor
  · rintro ⟨rest, rfl⟩
    refine ⟨⟨second ++ rest, (List.append_assoc _ _ _).symm⟩, ⟨rest, ?_⟩⟩
    rw [List.append_assoc, List.drop_left]
  · rintro ⟨⟨rest, rfl⟩, isSecond⟩
    rw [List.drop_left] at isSecond
    exact (List.prefix_append_right_inj first).mpr isSecond

theorem length_le_of_starts {word text : List α} {start : ℕ} (inside : start ≤ text.length)
    (follows : word <+: text.drop start) : start + word.length ≤ text.length := by
  have short := follows.length_le
  rw [List.length_drop] at short
  omega

/-! ## Expressions for given texts -/

def literal (text : List α) : RegularExpression α :=
  text.foldr (fun code rest => .char code * rest) 1

/-- The expression that matches each of some texts. -/
def oneOf (texts : List (List α)) : RegularExpression α :=
  texts.foldr (fun text rest => literal text + rest) 0

theorem mem_literal {text word : List α} : word ∈ (literal text).matches' ↔ word = text := by
  induction text generalizing word with
  | nil => exact Language.mem_one word
  | cons code text ih =>
      show word ∈ ({[code]} : Language α) * (literal text).matches' ↔ _
      rw [Language.mem_mul]
      constructor
      · rintro ⟨first, rfl, rest, isRest, rfl⟩
        rw [ih.mp isRest]
        rfl
      · rintro rfl
        exact ⟨[code], rfl, text, ih.mpr rfl, rfl⟩

theorem mem_oneOf {texts : List (List α)} {word : List α} :
    word ∈ (oneOf texts).matches' ↔ word ∈ texts := by
  induction texts with
  | nil => exact iff_of_false id List.not_mem_nil
  | cons text texts ih =>
      show word ∈ (literal text).matches' + (oneOf texts).matches' ↔ _
      rw [Language.mem_add, mem_literal, ih, List.mem_cons]

end Words
