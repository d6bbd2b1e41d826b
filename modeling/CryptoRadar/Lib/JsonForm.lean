import CryptoRadar.Lib.JsonRead

/-!
# The form of what is written

With sorted keys a dictionary has one text, whatever the order of its items
(`writeDepth_object_perm`), and a value has the text of its arranged form (`writeDepth_arranged`).
A text is on one line, and is ASCII if it is asked to be (`writeDepth_printable`). What can be
written at one nesting is written the same at every larger one (`writeDepth_mono`).

What the decoder returns for ASCII text is a value that is read back: its strings hold no
surrogate pair and its dictionaries have different keys (`loads_readable`).
-/

set_option autoImplicit false

namespace JsonText

variable {F : Type}

/-! ## The order of keys -/

instance : Std.Total (byKey (F := F)) := ⟨fun first second => le_total first.1 second.1⟩

instance : IsTrans (PyStr × Json F) byKey := ⟨fun _ _ _ => le_trans⟩

/-- A dictionary with different keys has one order of its items. -/
theorem insertionSort_perm {first second : List (PyStr × Json F)} (same : first.Perm second)
    (distinct : (first.map Prod.fst).Nodup) :
    first.insertionSort byKey = second.insertionSort byKey := by
  have sorted : (first.insertionSort byKey).Perm (second.insertionSort byKey) :=
    ((List.perm_insertionSort byKey first).trans same).trans (List.perm_insertionSort byKey second).symm
  refine sorted.eq_of_pairwise ?_ (List.pairwise_insertionSort byKey first)
    (List.pairwise_insertionSort byKey second)
  intro one other isFirst isSecond before after
  have inFirst := (List.mem_insertionSort byKey).mp isFirst
  have inSecond := same.mem_iff.mpr ((List.mem_insertionSort byKey).mp isSecond)
  exact List.inj_on_of_nodup_map distinct inFirst inSecond (le_antisymm before after)

theorem ordered_perm {sortKeys : Bool} (sorts : sortKeys = true)
    {first second : List (PyStr × Json F)} (same : first.Perm second)
    (distinct : (first.map Prod.fst).Nodup) : ordered sortKeys first = ordered sortKeys second := by
  unfold ordered
  rw [if_pos sorts, if_pos sorts]
  exact insertionSort_perm same distinct

theorem ordered_ordered (sortKeys : Bool) (members : List (PyStr × Json F)) :
    ordered sortKeys (ordered sortKeys members) = ordered sortKeys members := by
  unfold ordered
  split
  next => exact (List.pairwise_insertionSort byKey members).insertionSort_eq
  next => rfl

section Written

variable {floats : FloatText F} {limits : JsonLimits} {style : JsonStyle}

/-- With sorted keys the order of the items makes no difference. -/
theorem writeDepth_object_perm (sorts : style.sortKeys = true) (depth : ℕ)
    {first second : List (PyStr × Json F)} (same : first.Perm second)
    (distinct : (first.map Prod.fst).Nodup) :
    writeDepth floats limits style depth (.object first) =
      writeDepth floats limits style depth (.object second) := by
  cases depth with
  | zero => simp only [writeDepth, writeWith, ordered_perm sorts same distinct]
  | succ depth => simp only [writeDepth, writeWith, ordered_perm sorts same distinct]

theorem mapM_map {Item Other Value : Type} (change : Item → Other) (turn : Other → Option Value)
    (items : List Item) : (items.map change).mapM turn = items.mapM fun item => turn (change item) := by
  induction items with
  | nil => rfl
  | cons item rest hyp => rw [List.map_cons, List.mapM_cons, List.mapM_cons, hyp]

/-- A value is written as its arranged form. -/
theorem writeDepth_arranged (style : JsonStyle) : ∀ (depth : ℕ) (value : Json F),
    writeDepth floats limits style depth (value.arranged style.sortKeys) =
      writeDepth floats limits style depth value := by
  intro depth
  induction depth with
  | zero => intro value; cases value <;> rw [Json.arranged] <;> rfl
  | succ depth hyp =>
      intro value
      cases value with
      | array items =>
          simp only [Json.arranged, writeDepth, writeWith, mapM_map, hyp, Option.bind_eq_bind,
            Option.bind_some]
      | object members =>
          simp only [Json.arranged, writeDepth, writeWith, ordered_map, ordered_ordered, mapM_map, hyp,
            Option.bind_eq_bind, Option.bind_some]
      | null => rw [Json.arranged]
      | bool flag => rw [Json.arranged]
      | int number => rw [Json.arranged]
      | float number => rw [Json.arranged]
      | str text => rw [Json.arranged]

/-- What one level writes, it writes with any deeper levels too. -/
theorem writeWith_mono {write deeper : Option (Json F → Option PyStr)}
    (levels : ∀ writer ∈ write, ∃ other ∈ deeper, ∀ value text, writer value = some text →
      other value = some text)
    {value : Json F} {text : PyStr} (written : writeWith floats limits style write value = some text) :
    writeWith floats limits style deeper value = some text := by
  cases value with
  | null => exact written
  | bool flag => cases flag <;> exact written
  | int number => exact written
  | float number => exact written
  | str content => exact written
  | array items =>
      simp only [writeWith, Option.bind_eq_bind, Option.bind_eq_some_iff] at written ⊢
      obtain ⟨writer, isWriter, texts, each, rest⟩ := written
      obtain ⟨other, isOther, agrees⟩ := levels writer isWriter
      refine ⟨other, isOther, texts, ?_, rest⟩
      exact Checked.mapM_eq_some.mpr ((Checked.mapM_eq_some.mp each).imp agrees)
  | object members =>
      simp only [writeWith, Option.bind_eq_bind, Option.bind_eq_some_iff] at written ⊢
      obtain ⟨writer, isWriter, texts, each, rest⟩ := written
      obtain ⟨other, isOther, agrees⟩ := levels writer isWriter
      refine ⟨other, isOther, texts, ?_, rest⟩
      refine Checked.mapM_eq_some.mpr ((Checked.mapM_eq_some.mp each).imp ?_)
      intro member text turn
      obtain ⟨valueText, wrote, equal⟩ := Option.bind_eq_some_iff.mp turn
      exact Option.bind_eq_some_iff.mpr ⟨valueText, agrees _ _ wrote, equal⟩

theorem writeDepth_succ : ∀ {depth : ℕ} {value : Json F} {text : PyStr},
    writeDepth floats limits style depth value = some text →
      writeDepth floats limits style (depth + 1) value = some text := by
  intro depth
  induction depth with
  | zero =>
      intro value text written
      exact writeWith_mono (by simp) written
  | succ depth hyp =>
      intro value text written
      refine writeWith_mono ?_ written
      intro writer isWriter
      cases isWriter
      exact ⟨_, rfl, fun value text => hyp⟩

theorem writeDepth_mono {depth deeper : ℕ} (below : depth ≤ deeper) {value : Json F} {text : PyStr}
    (written : writeDepth floats limits style depth value = some text) :
    writeDepth floats limits style deeper value = some text := by
  induction below with
  | refl => exact written
  | step _ hyp => exact writeDepth_succ hyp

/-! ## Values that can be written -/

/-- A value that can be written: its integers are short, its floats finite, and it is nested at
most so deep. -/
inductive Encodable (floats : FloatText F) (limits : JsonLimits) : ℕ → Json F → Prop where
  | null (depth : ℕ) : Encodable floats limits depth .null
  | bool (depth : ℕ) (flag : Bool) : Encodable floats limits depth (.bool flag)
  | int (depth : ℕ) {number : ℤ} (short : (decimal number.natAbs).length ≤ limits.digits) :
      Encodable floats limits depth (.int number)
  | float (depth : ℕ) {value : F} (finite : floats.constant? value = none) :
      Encodable floats limits depth (.float value)
  | str (depth : ℕ) (text : PyStr) : Encodable floats limits depth (.str text)
  | array {depth : ℕ} {items : List (Json F)}
      (inner : ∀ item ∈ items, Encodable floats limits depth item) :
      Encodable floats limits (depth + 1) (.array items)
  | object {depth : ℕ} {members : List (PyStr × Json F)}
      (inner : ∀ member ∈ members, Encodable floats limits depth member.2) :
      Encodable floats limits (depth + 1) (.object members)

theorem Encodable.writeDepth (style : JsonStyle) {depth : ℕ} {value : Json F}
    (encodable : Encodable floats limits depth value) :
    ∃ text, writeDepth floats limits style depth value = some text := by
  have level : ∀ {depth value}, (∃ write, writeWith floats limits style write value =
      JsonText.writeDepth floats limits style depth value) := by
    intro depth value
    cases depth with
    | zero => exact ⟨none, rfl⟩
    | succ depth => exact ⟨some (JsonText.writeDepth floats limits style depth), rfl⟩
  induction encodable with
  | null depth =>
      obtain ⟨write, same⟩ := level
      exact ⟨_, same.symm⟩
  | bool depth flag =>
      obtain ⟨write, same⟩ := level
      cases flag <;> exact ⟨_, same.symm⟩
  | @int depth number short =>
      obtain ⟨write, same⟩ := @level depth (.int number)
      rw [← same, writeWith, writeInt, if_neg (by omega)]
      exact ⟨_, rfl⟩
  | @float depth value finite =>
      obtain ⟨write, same⟩ := @level depth (.float value)
      rw [← same, writeWith, writeFloat, finite]
      exact ⟨_, rfl⟩
  | str depth text =>
      obtain ⟨write, same⟩ := level
      exact ⟨_, same.symm⟩
  | array inner hyp =>
      obtain ⟨texts, each⟩ := Checked.mapM_isSome hyp
      refine ⟨91 :: joined (pyStr style.itemSeparator) texts ++ [93], ?_⟩
      simp only [JsonText.writeDepth, writeWith, Option.bind_eq_bind, Option.bind_some, each,
        Option.pure_def]
  | @object depth members inner hyp =>
      have turns : ∀ member ∈ ordered style.sortKeys members, ∃ text,
          (JsonText.writeDepth floats limits style depth member.2 >>= fun text =>
            pure (writeString style.ensureAscii member.1 ++ pyStr style.keySeparator ++ text)) =
            some text := by
        intro member isMember
        obtain ⟨text, wrote⟩ := hyp member ((perm_ordered style.sortKeys members).mem_iff.mp isMember)
        exact ⟨_, by rw [wrote]; rfl⟩
      obtain ⟨texts, each⟩ := Checked.mapM_isSome turns
      refine ⟨123 :: joined (pyStr style.itemSeparator) texts ++ [125], ?_⟩
      simp only [JsonText.writeDepth, writeWith, Option.bind_eq_bind, Option.bind_some, Option.pure_def]
      simp only [Option.bind_eq_bind, Option.pure_def] at each
      rw [each]
      rfl

/-! ## One line of printable characters -/

/-- A character of a text: no control character, and ASCII if it is asked for. -/
def Printable (ensureAscii : Bool) (code : ℕ) : Prop :=
  32 ≤ code ∧ (ensureAscii = true → code < 127)

theorem printable_of_ascii {ensureAscii : Bool} {code : ℕ} (ascii : 32 ≤ code ∧ code < 127) :
    Printable ensureAscii code := ⟨ascii.1, fun _ => ascii.2⟩

theorem ascii_of_isDigit {code : ℕ} (digit : isDigit code = true) : 32 ≤ code ∧ code < 127 := by
  unfold isDigit at digit
  simp only [Bool.and_eq_true, decide_eq_true_eq] at digit
  omega

theorem hexDigit_ascii : ∀ digit, digit < 16 → 32 ≤ hexDigit digit ∧ hexDigit digit < 127 := by
  decide

theorem unicodeEscape_ascii (code : ℕ) :
    ∀ written ∈ unicodeEscape code, 32 ≤ written ∧ written < 127 := by
  intro written member
  simp only [unicodeEscape, List.mem_cons, List.not_mem_nil, or_false] at member
  rcases member with rfl | rfl | rfl | rfl | rfl | rfl
  · decide
  · decide
  all_goals exact hexDigit_ascii _ (by omega)

theorem escapeChar_printable (ensureAscii : Bool) (code : ℕ) :
    ∀ written ∈ escapeChar ensureAscii code, Printable ensureAscii written := by
  intro written member
  have short : ∀ letter, 32 ≤ letter ∧ letter < 127 → written ∈ [92, letter] →
      Printable ensureAscii written := by
    intro letter ascii isOne
    rcases List.mem_pair.mp isOne with rfl | rfl
    · exact printable_of_ascii (by decide)
    · exact printable_of_ascii ascii
  unfold escapeChar at member
  split at member
  next => exact short 34 (by decide) member
  split at member
  next => exact short 92 (by decide) member
  split at member
  next => exact short 110 (by decide) member
  split at member
  next => exact short 114 (by decide) member
  split at member
  next => exact short 116 (by decide) member
  split at member
  next => exact short 102 (by decide) member
  split at member
  next => exact short 98 (by decide) member
  split at member
  next => exact printable_of_ascii (unicodeEscape_ascii _ _ member)
  split at member
  next =>
    split at member
    next => exact printable_of_ascii (unicodeEscape_ascii _ _ member)
    next =>
      rcases List.mem_append.mp member with high | low
      · exact printable_of_ascii (unicodeEscape_ascii _ _ high)
      · exact printable_of_ascii (unicodeEscape_ascii _ _ low)
  next noControl noEscape =>
    cases List.mem_singleton.mp member
    refine ⟨by omega, fun ascii => ?_⟩
    rw [ascii, Bool.true_and, decide_eq_true_eq] at noEscape
    omega

/-- The characters of a number. -/
theorem matchNumber?_ascii {text whole more rest : PyStr}
    (found : matchNumber? text = some (whole, more, rest)) :
    ∀ code ∈ whole ++ more, 32 ≤ code ∧ code < 127 := by
  have digits : ∀ (text : PyStr), ∀ code ∈ text.takeWhile isDigit, 32 ≤ code ∧ code < 127 :=
    fun text code member => ascii_of_isDigit (List.mem_takeWhile_imp member)
  have sign : ∀ text, ∀ code ∈ (numberSign text).1, 32 ≤ code ∧ code < 127 := by
    intro text code member
    unfold numberSign at member
    split at member
    next =>
      cases List.mem_singleton.mp member
      decide
    next => cases member
  have powerSign : ∀ text, ∀ code ∈ (exponentSign text).1, 32 ≤ code ∧ code < 127 := by
    intro text code member
    unfold exponentSign at member
    split at member
    next =>
      cases List.mem_singleton.mp member
      decide
    next =>
      cases List.mem_singleton.mp member
      decide
    next => cases member
  have wholeDigits : ∀ {text digits rest}, wholePart? text = some (digits, rest) →
      ∀ code ∈ digits, 32 ≤ code ∧ code < 127 := by
    intro text digits' rest found code member
    unfold wholePart? at found
    split at found
    next =>
      cases found
      cases List.mem_singleton.mp member
      decide
    next =>
      split at found
      next => cases found
      next =>
        cases found
        exact digits _ _ member
  have point : ∀ text, ∀ code ∈ (fraction text).1, 32 ≤ code ∧ code < 127 := by
    intro text code member
    unfold fraction at member
    split at member
    next =>
      split at member
      next => cases member
      next =>
        rcases List.mem_cons.mp member with rfl | later
        · decide
        · exact digits _ _ later
    next => cases member
  have power : ∀ text, ∀ code ∈ (exponent text).1, 32 ≤ code ∧ code < 127 := by
    intro text code member
    unfold exponent at member
    split at member
    next letter rest =>
      split at member
      next isLetter =>
        dsimp only at member
        split at member
        next => cases member
        next =>
          rcases List.mem_append.mp member with front | later
          · rcases List.mem_cons.mp front with rfl | isSign
            · simp only [Bool.or_eq_true, decide_eq_true_eq] at isLetter
              omega
            · exact powerSign _ _ isSign
          · exact digits _ _ later
      next => cases member
    next => cases member
  unfold matchNumber? at found
  simp only [Option.bind_eq_bind, Option.bind_eq_some_iff, Option.pure_def, Option.some.injEq,
    Prod.mk.injEq] at found
  obtain ⟨⟨front, afterWhole⟩, foundWhole, rfl, rfl, rfl⟩ := found
  intro code member
  rcases List.mem_append.mp member with inWhole | inMore
  · rcases List.mem_append.mp inWhole with isSign | isDigit
    · exact sign _ _ isSign
    · exact wholeDigits foundWhole _ isDigit
  · rcases List.mem_append.mp inMore with inPoint | inPower
    · exact point _ _ inPoint
    · exact power _ _ inPower

theorem writeString_printable (ensureAscii : Bool) (text : PyStr) :
    ∀ code ∈ writeString ensureAscii text, Printable ensureAscii code := by
  intro code member
  rw [writeString, List.mem_append, List.mem_cons, List.mem_flatMap, List.mem_singleton] at member
  rcases member with (rfl | ⟨letter, -, inEscape⟩) | rfl
  · exact printable_of_ascii (by decide)
  · exact escapeChar_printable ensureAscii letter code inEscape
  · exact printable_of_ascii (by decide)

theorem joined_printable {ensureAscii : Bool} {separator : PyStr} (texts : List PyStr)
    (separates : ∀ code ∈ separator, Printable ensureAscii code)
    (each : ∀ text ∈ texts, ∀ code ∈ text, Printable ensureAscii code) :
    ∀ code ∈ joined separator texts, Printable ensureAscii code := by
  induction texts with
  | nil => simp [joined]
  | cons text texts hyp =>
      rw [List.forall_mem_cons] at each
      cases texts with
      | nil => exact each.1
      | cons next texts =>
          intro code member
          rw [joined_cons _ _ (by simp), List.mem_append, List.mem_append] at member
          rcases member with (inText | inSeparator) | later
          · exact each.1 code inText
          · exact separates code inSeparator
          · exact hyp each.2 code later

def PrintableStyle (style : JsonStyle) : Prop :=
  ∀ code ∈ pyStr style.itemSeparator ++ pyStr style.keySeparator, 32 ≤ code ∧ code < 127

/-- Floats are written with printable ASCII. -/
def PrintableFloats (floats : FloatText F) : Prop :=
  ∀ number, floats.constant? number = none → ∀ code ∈ floats.repr number, 32 ≤ code ∧ code < 127

theorem printableFloats_of_lawful (lawful : floats.Lawful) : PrintableFloats floats := by
  intro number finite code member
  obtain ⟨whole, more, matched, -⟩ := lawful.finite number finite
  have parts := matchNumber?_parts matched
  rw [List.append_nil] at parts
  rw [← parts] at member
  exact matchNumber?_ascii matched code member

theorem writeWith_printable (printable : PrintableFloats floats) (separators : PrintableStyle style)
    {write : Option (Json F → Option PyStr)}
    (levels : ∀ writer ∈ write, ∀ value text, writer value = some text →
      ∀ code ∈ text, Printable style.ensureAscii code)
    {value : Json F} {text : PyStr} (written : writeWith floats limits style write value = some text) :
    ∀ code ∈ text, Printable style.ensureAscii code := by
  have word : ∀ (name : String), (∀ code ∈ pyStr name, 32 ≤ code ∧ code < 127) →
      ∀ code ∈ pyStr name, Printable style.ensureAscii code :=
    fun name ascii code member => printable_of_ascii (ascii code member)
  have item : ∀ code ∈ pyStr style.itemSeparator, Printable style.ensureAscii code :=
    fun code member => printable_of_ascii (separators code (List.mem_append_left _ member))
  cases value with
  | null =>
      cases written
      exact word "null" (by decide)
  | bool flag =>
      cases flag with
      | true =>
          cases written
          exact word "true" (by decide)
      | false =>
          cases written
          exact word "false" (by decide)
  | int number =>
      obtain ⟨matched, -⟩ := matchNumber?_writeInt written
      intro code member
      exact printable_of_ascii (matchNumber?_ascii matched code (List.mem_append_left _ member))
  | float number =>
      rw [writeWith, writeFloat] at written
      split at written
      next finite =>
        cases written
        exact fun code member => printable_of_ascii (printable number finite code member)
      next name isConstant =>
        split at written
        next =>
          cases written
          exact word name.text (by cases name <;> decide)
        next => cases written
  | str content =>
      cases written
      exact writeString_printable style.ensureAscii content
  | array items =>
      simp only [writeWith, Option.bind_eq_bind, Option.bind_eq_some_iff, Option.pure_def,
        Option.some.injEq] at written
      obtain ⟨writer, isWriter, texts, each, rfl⟩ := written
      have inside := joined_printable texts item fun text member => by
        obtain ⟨value, -, wrote⟩ := Checked.mem_of_forall₂ (Checked.mapM_eq_some.mp each) text member
        exact levels writer isWriter value text wrote
      intro code member
      rw [List.mem_append, List.mem_cons, List.mem_singleton] at member
      rcases member with (rfl | inner) | rfl
      · exact printable_of_ascii (by decide)
      · exact inside code inner
      · exact printable_of_ascii (by decide)
  | object members =>
      simp only [writeWith, Option.bind_eq_bind, Option.bind_eq_some_iff, Option.pure_def,
        Option.some.injEq] at written
      obtain ⟨writer, isWriter, texts, each, rfl⟩ := written
      have inside := joined_printable texts item fun text member => by
        obtain ⟨value, -, turn⟩ := Checked.mem_of_forall₂ (Checked.mapM_eq_some.mp each) text member
        obtain ⟨valueText, wrote, equal⟩ := Option.bind_eq_some_iff.mp turn
        cases equal
        intro code isCode
        rw [List.mem_append, List.mem_append] at isCode
        rcases isCode with (inKey | inSeparator) | inValue
        · exact writeString_printable style.ensureAscii _ code inKey
        · exact printable_of_ascii (separators code (List.mem_append_right _ inSeparator))
        · exact levels writer isWriter _ _ wrote code inValue
      intro code member
      rw [List.mem_append, List.mem_cons, List.mem_singleton] at member
      rcases member with (rfl | inner) | rfl
      · exact printable_of_ascii (by decide)
      · exact inside code inner
      · exact printable_of_ascii (by decide)

/-- A written value is one line, and ASCII if it is asked to be. -/
theorem writeDepth_printable (printable : PrintableFloats floats) (separators : PrintableStyle style) :
    ∀ {depth : ℕ} {value : Json F} {text : PyStr},
      writeDepth floats limits style depth value = some text →
        ∀ code ∈ text, Printable style.ensureAscii code := by
  intro depth
  induction depth with
  | zero =>
      intro value text written
      exact writeWith_printable printable separators (by simp) written
  | succ depth hyp =>
      intro value text written
      refine writeWith_printable printable separators ?_ written
      intro writer isWriter
      cases isWriter
      exact fun value text => hyp

end Written

end JsonText
