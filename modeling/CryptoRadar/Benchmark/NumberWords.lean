import CryptoRadar.Lib.Json
import CryptoRadar.Lib.Words

/-!
# Number words

`_is_number_word` of `workflow/benchmark.py`. Its list `ends` says where a row of number words may
end. It reads a token once from left to right: at each end it marks the ends of the words that
start there. So behind any place all marks are final, and they are the places up to which the token
is a row of words (`marked_iff`). The pass accepts what the pattern, repeated, matches
(`isNumberWord_iff`).
-/

set_option autoImplicit false

namespace CryptoRadar.Benchmark

open Words

/-! ## The vocabulary -/

/-- `_NUMBER_UNITS`. -/
def numberUnits : List PyStr :=
  ["zero", "one", "two", "three", "four", "five", "six", "seven", "eight", "nine", "ten", "eleven",
    "twelve", "thirteen", "fourteen", "fifteen", "sixteen", "seventeen", "eighteen", "nineteen",
    "twenty", "thirty", "forty", "fourty", "fifty", "sixty", "seventy", "eighty", "ninety",
    "hundred", "thousand", "million", "billion", "trillion", "first", "second", "third", "fourth",
    "fifth", "sixth", "seventh", "eighth", "ninth", "tenth", "eleventh", "twelfth", "twentieth",
    "hundredth", "thousandth", "half", "halves", "quarter", "dozen", "double", "triple",
    "quadruple", "twice", "thrice", "percent", "percentage", "pct", "permille", "bps", "um", "uma",
    "dois", "duas", "tres", "quatro", "cinco", "seis", "sete", "oito", "nove", "dez", "vinte",
    "trinta", "cem", "cento", "mil", "metade", "dobro", "meio", "terco"].map pyStr

/-- `_NUMBER_SUFFIXES`. -/
def numberSuffixes : List PyStr := ["s", "th", "ths", "and", "e"].map pyStr

/-- `_NUMBER_UNITS_BY_INITIAL.get(initial, ())`. -/
def numberUnitsByInitial (initial : ℕ) : List PyStr :=
  numberUnits.filter fun unit => unit.head? = some initial

/-- The pattern `_NUMBER_WORD`: a unit and at most one suffix. -/
def numberWord : RegularExpression ℕ := oneOf numberUnits * (1 + oneOf numberSuffixes)

/-! ## The pass -/

/-- `token.startswith(word, start)`. -/
def startsWith (token word : PyStr) (start : ℕ) : Bool := word.isPrefixOf (token.drop start)

/-- `ends[stop] = True`, and the same behind each suffix that follows. -/
def markUnit (token : PyStr) (stop : ℕ) (ends : List Bool) : List Bool :=
  numberSuffixes.foldl (fun ends suffix =>
    if startsWith token suffix stop then ends.set (stop + suffix.length) true else ends)
    (ends.set stop true)

/-- The turn of the pass at a place that is an end. -/
def markWords (token : PyStr) (start initial : ℕ) (ends : List Bool) : List Bool :=
  (numberUnitsByInitial initial).foldl (fun ends unit =>
    if startsWith token unit start then markUnit token (start + unit.length) ends else ends) ends

/-- The turn of the pass at any place. -/
def markAt (token : PyStr) (ends : List Bool) (start : ℕ) : List Bool :=
  match token[start]? with
  | none => ends
  | some initial => if ends[start]? = some true then markWords token start initial ends else ends

/-- `_is_number_word`. -/
def isNumberWord (token : PyStr) : Bool :=
  let ends := (List.range token.length).foldl (markAt token)
    (true :: List.replicate token.length false)
  0 < token.length && ends[token.length]? = some true

/-! ## What the pass marks -/

/-- The place is marked as an end. -/
def Marked (ends : List Bool) (place : ℕ) : Prop := ends[place]? = some true

theorem marked_set {ends : List Bool} {place other : ℕ} :
    Marked (ends.set place true) other ↔
      Marked ends other ∨ (place = other ∧ place < ends.length) := by
  unfold Marked
  rw [List.getElem?_set]
  by_cases same : place = other
  · subst same
    by_cases inside : place < ends.length
    · simp [inside]
    · simp [inside]
  · simp [same]

/-- A turn marks these places more. -/
def Marks (token : PyStr) (turn : List Bool → List Bool) (reaches : ℕ → Prop) : Prop :=
  ∀ ends : List Bool, ends.length = token.length + 1 → (turn ends).length = token.length + 1 ∧
    ∀ place, Marked (turn ends) place ↔ Marked ends place ∨ reaches place

/-- A turn for each text of a list that stands at a place. -/
theorem marks_foldl {token : PyStr} (texts : List PyStr) (start : ℕ)
    (turn : PyStr → List Bool → List Bool) (reaches : PyStr → ℕ → Prop)
    (isTurn : ∀ text ∈ texts, startsWith token text start = true →
      Marks token (turn text) (reaches text)) :
    Marks token (fun ends => texts.foldl (fun ends text =>
        if startsWith token text start then turn text ends else ends) ends)
      fun place => ∃ text ∈ texts, startsWith token text start = true ∧ reaches text place := by
  intro ends length
  induction texts generalizing ends with
  | nil => simpa using length
  | cons text texts ih =>
      have others := ih fun other isIn => isTurn other (List.mem_cons_of_mem _ isIn)
      by_cases starts : startsWith token text start = true
      · obtain ⟨turned, marks⟩ := isTurn text List.mem_cons_self starts ends length
        obtain ⟨sameLength, further⟩ := others _ turned
        simp only [List.foldl_cons, if_pos starts]
        refine ⟨sameLength, fun place => ?_⟩
        rw [further, marks]
        simp [starts, or_assoc]
      · obtain ⟨sameLength, further⟩ := others ends length
        simp only [List.foldl_cons, if_neg starts]
        refine ⟨sameLength, fun place => ?_⟩
        rw [further]
        simp [starts]

theorem startsWith_iff {token word : PyStr} {start : ℕ} :
    startsWith token word start = true ↔ word <+: token.drop start := List.isPrefixOf_iff_prefix

theorem marks_set {token : PyStr} {stop : ℕ} (inside : stop ≤ token.length) :
    Marks token (fun ends => ends.set stop true) (fun place => stop = place) := by
  intro ends length
  refine ⟨List.length_set.trans length, fun place => ?_⟩
  have isInside : stop < ends.length := by omega
  rw [marked_set]
  simp only [isInside, and_true]

theorem marks_markUnit {token : PyStr} {stop : ℕ} (inside : stop ≤ token.length) :
    Marks token (markUnit token stop) fun place => stop = place ∨
      ∃ suffix ∈ numberSuffixes, startsWith token suffix stop = true ∧
        stop + suffix.length = place := by
  intro ends length
  obtain ⟨first, marks⟩ := marks_set inside ends length
  obtain ⟨sameLength, further⟩ := marks_foldl numberSuffixes stop
    (fun suffix ends => ends.set (stop + suffix.length) true)
    (fun suffix place => stop + suffix.length = place)
    (fun suffix _ starts => marks_set (length_le_of_starts inside (startsWith_iff.mp starts)))
    _ first
  refine ⟨sameLength, fun place => (further place).trans ?_⟩
  rw [marks, or_assoc]

theorem mem_numberWord {word : PyStr} :
    word ∈ numberWord.matches' ↔ ∃ unit ∈ numberUnits, ∃ suffix,
      (suffix = [] ∨ suffix ∈ numberSuffixes) ∧ word = unit ++ suffix := by
  show word ∈ (oneOf numberUnits).matches' * (1 + (oneOf numberSuffixes).matches') ↔ _
  rw [Language.mem_mul]
  constructor
  · rintro ⟨unit, isUnit, suffix, isSuffix, rfl⟩
    exact ⟨unit, mem_oneOf.mp isUnit, suffix, isSuffix.imp id mem_oneOf.mp, rfl⟩
  · rintro ⟨unit, isUnit, suffix, isSuffix, rfl⟩
    exact ⟨unit, mem_oneOf.mpr isUnit, suffix, isSuffix.imp id mem_oneOf.mpr, rfl⟩

theorem numberUnits_ne_nil : ∀ unit ∈ numberUnits, unit ≠ [] := by decide +kernel

theorem nil_notMem_numberWord : [] ∉ numberWord.matches' := by
  intro isWord
  obtain ⟨unit, isUnit, suffix, -, split⟩ := mem_numberWord.mp isWord
  exact numberUnits_ne_nil unit isUnit (List.append_eq_nil_iff.mp split.symm).1

theorem word_prefix_iff {token : PyStr} {start initial : ℕ}
    (isInitial : token[start]? = some initial) (place : ℕ) :
    (∃ word ∈ numberWord.matches', word <+: token.drop start ∧ start + word.length = place) ↔
      ∃ unit ∈ numberUnitsByInitial initial, startsWith token unit start = true ∧
        (start + unit.length = place ∨ ∃ suffix ∈ numberSuffixes,
          startsWith token suffix (start + unit.length) = true ∧
            start + unit.length + suffix.length = place) := by
  have byInitial (unit : PyStr) (isUnit : unit ∈ numberUnits) (stands : unit <+: token.drop start) :
      unit ∈ numberUnitsByInitial initial := by
    refine List.mem_filter.mpr ⟨isUnit, decide_eq_true ?_⟩
    obtain ⟨code, rest, rfl⟩ := List.exists_cons_of_ne_nil (numberUnits_ne_nil unit isUnit)
    obtain ⟨more, isDrop⟩ := stands
    have first : (token.drop start)[0]? = some code := by
      rw [← isDrop]
      rfl
    rw [List.getElem?_drop, Nat.add_zero, isInitial] at first
    exact first.symm
  constructor
  · rintro ⟨word, isWord, stands, rfl⟩
    obtain ⟨unit, isUnit, suffix, isSuffix, rfl⟩ := mem_numberWord.mp isWord
    obtain ⟨unitStands, suffixStands⟩ := append_prefix_iff.mp stands
    refine ⟨unit, byInitial unit isUnit unitStands, startsWith_iff.mpr unitStands, ?_⟩
    rcases isSuffix with rfl | isSuffix
    · rw [List.append_nil]
      exact .inl rfl
    · rw [List.drop_drop] at suffixStands
      refine .inr ⟨suffix, isSuffix, startsWith_iff.mpr suffixStands, ?_⟩
      rw [List.length_append, Nat.add_assoc]
  · rintro ⟨unit, isIn, starts, reaches⟩
    have isUnit := (List.mem_filter.mp isIn).1
    have unitStands := startsWith_iff.mp starts
    rcases reaches with rfl | ⟨suffix, isSuffix, follows, rfl⟩
    · refine ⟨unit, mem_numberWord.mpr ⟨unit, isUnit, [], .inl rfl, ?_⟩, unitStands, rfl⟩
      rw [List.append_nil]
    · have suffixStands := startsWith_iff.mp follows
      rw [← List.drop_drop] at suffixStands
      refine ⟨unit ++ suffix, mem_numberWord.mpr ⟨unit, isUnit, suffix, .inr isSuffix, rfl⟩,
        append_prefix_iff.mpr ⟨unitStands, suffixStands⟩, ?_⟩
      rw [List.length_append, Nat.add_assoc]

/-- A turn marks where the words end that start at its place. -/
theorem marks_markWords {token : PyStr} {start initial : ℕ}
    (isInitial : token[start]? = some initial) :
    Marks token (markWords token start initial) fun place =>
      ∃ word ∈ numberWord.matches', word <+: token.drop start ∧ start + word.length = place := by
  have inside : start ≤ token.length := (List.getElem?_eq_some_iff.mp isInitial).1.le
  intro ends length
  obtain ⟨sameLength, marks⟩ := marks_foldl (numberUnitsByInitial initial) start
    (fun unit => markUnit token (start + unit.length)) _
    (fun unit _ starts => marks_markUnit (length_le_of_starts inside (startsWith_iff.mp starts)))
    ends length
  refine ⟨sameLength, fun place => (marks place).trans ?_⟩
  exact or_congr_right (word_prefix_iff isInitial place).symm

theorem marks_markAt {token : PyStr} {start : ℕ} (inside : start < token.length) {ends : List Bool}
    (length : ends.length = token.length + 1) :
    (markAt token ends start).length = token.length + 1 ∧ ∀ place,
      Marked (markAt token ends start) place ↔ Marked ends place ∨ (Marked ends start ∧
        ∃ word ∈ numberWord.matches', word <+: token.drop start ∧ start + word.length = place) := by
  have isInitial : token[start]? = some token[start] := List.getElem?_eq_getElem inside
  have turn : markAt token ends start =
      if ends[start]? = some true then markWords token start token[start] ends else ends := by
    unfold markAt
    rw [isInitial]
  by_cases marked : Marked ends start
  · obtain ⟨sameLength, marks⟩ := marks_markWords isInitial ends length
    rw [turn, if_pos (show ends[start]? = some true from marked)]
    refine ⟨sameLength, fun place => (marks place).trans ?_⟩
    simp only [marked, true_and]
  · rw [turn, if_neg (show ¬ends[start]? = some true from marked)]
    refine ⟨length, fun place => ?_⟩
    simp only [marked, false_and, or_false]

/-- After the turns of the first places, the marks are the ends of the words that start behind
rows of words before these places. -/
theorem marked_iff (token : PyStr) (count : ℕ) (inside : count ≤ token.length) :
    let ends := (List.range count).foldl (markAt token) (true :: List.replicate token.length false)
    ends.length = token.length + 1 ∧ ∀ place, Marked ends place ↔
      place = 0 ∨ ∃ start < count, token.take start ∈ KStar.kstar numberWord.matches' ∧
        ∃ word ∈ numberWord.matches', word <+: token.drop start ∧ start + word.length = place := by
  induction count with
  | zero =>
      refine ⟨by simp, fun place => ?_⟩
      cases place with
      | zero => simp [Marked]
      | succ place => simp [Marked, List.getElem?_replicate]
  | succ count ih =>
      obtain ⟨length, marks⟩ := ih (by omega)
      rw [List.range_succ, List.foldl_append]
      obtain ⟨sameLength, further⟩ := marks_markAt (show count < token.length by omega) length
      refine ⟨sameLength, fun place => (further place).trans ?_⟩
      -- At the place of the turn all marks are final.
      have isRow : Marked _ count ↔ token.take count ∈ KStar.kstar numberWord.matches' :=
        (marks count).trans (mem_kstar_take nil_notMem_numberWord token (by omega)).symm
      rw [marks, isRow]
      constructor
      · rintro ((zero | ⟨start, before, row⟩) | row)
        · exact .inl zero
        · exact .inr ⟨start, by omega, row⟩
        · exact .inr ⟨count, by omega, row⟩
      · rintro (zero | ⟨start, before, row⟩)
        · exact .inl (.inl zero)
        · rcases Nat.lt_succ_iff_lt_or_eq.mp before with earlier | rfl
          · exact .inl (.inr ⟨start, earlier, row⟩)
          · exact .inr row

theorem isNumberWord_iff_row (token : PyStr) :
    isNumberWord token = true ↔ token ≠ [] ∧ token ∈ KStar.kstar numberWord.matches' := by
  obtain ⟨-, marks⟩ := marked_iff token token.length le_rfl
  have isRow := (marks token.length).trans
    (mem_kstar_take nil_notMem_numberWord token le_rfl).symm
  rw [List.take_length] at isRow
  rw [← isRow, ← List.length_pos_iff, isNumberWord, Bool.and_eq_true, decide_eq_true_eq,
    decide_eq_true_eq]
  rfl

/-- `_is_number_word` accepts what the pattern `_NUMBER_WORD` matches when it is repeated: one or
more words in a row, each of which is a unit with at most one suffix. -/
theorem isNumberWord_iff (token : PyStr) :
    (isNumberWord token = true ↔ token ∈ (numberWord * numberWord.star).matches') ∧
      (isNumberWord token = true ↔ ∃ words : List PyStr, words ≠ [] ∧ words.flatten = token ∧
        ∀ word ∈ words, ∃ unit ∈ numberUnits, ∃ suffix,
          (suffix = [] ∨ suffix ∈ numberSuffixes) ∧ word = unit ++ suffix) := by
  have repeated : (numberWord * numberWord.star).matches' =
      numberWord.matches' * KStar.kstar numberWord.matches' := rfl
  rw [repeated, mem_mul_kstar nil_notMem_numberWord, isNumberWord_iff_row]
  refine ⟨Iff.rfl, ?_⟩
  rw [Language.mem_kstar]
  constructor
  · rintro ⟨some, words, rfl, isWord⟩
    refine ⟨words, ?_, rfl, fun word isIn => mem_numberWord.mp (isWord word isIn)⟩
    rintro rfl
    exact some rfl
  · rintro ⟨words, some, rfl, isWord⟩
    have areWords := fun word isIn => mem_numberWord.mpr (isWord word isIn)
    refine ⟨fun nothing => ?_, words, rfl, areWords⟩
    obtain ⟨word, isIn⟩ := List.exists_mem_of_ne_nil words some
    have empty := List.flatten_eq_nil_iff.mp nothing word isIn
    exact nil_notMem_numberWord (empty ▸ areWords word isIn)

end CryptoRadar.Benchmark
