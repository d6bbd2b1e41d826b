import CryptoRadar.Lib.Checked
import CryptoRadar.Lib.JsonTokens

/-!
# What the decoder reads back

The decoder reads what the encoder writes: `loads_dumps`. A value comes back with the items of its
dictionaries in the order they were written (`Json.arranged`). The strings must be texts of Python
with no surrogate pair in them, which the decoder joins, the keys of a dictionary must be
different (`Json.Readable`), and the text of a float must be one number that reads back
(`FloatText.Lawful`).

A text that is followed by something else is read up to its end (`Reads`). The proof is one
lemma for the items of an array, one for the members of an object, and an induction on the
nesting (`writeDepth_reads`).
-/

set_option autoImplicit false

/-- The text of a finite float is one number with a fraction or an exponent, and reads back. -/
structure FloatText.Lawful {F : Type} (floats : FloatText F) : Prop where
  finite : ∀ value, floats.constant? value = none → ∃ whole more,
    JsonText.matchNumber? (floats.repr value) = some (whole, more, []) ∧ more ≠ [] ∧
      floats.parse (floats.repr value) = value
  constant : ∀ value name, floats.constant? value = some name → floats.ofConstant name = value

/-- The separators are a comma and a colon, with spaces after them. -/
structure JsonStyle.Lawful (style : JsonStyle) : Prop where
  item : ∃ spaces, pyStr style.itemSeparator = 44 :: spaces ∧
    ∀ code ∈ spaces, JsonText.isSpace code = true
  key : ∃ spaces, pyStr style.keySeparator = 58 :: spaces ∧
    ∀ code ∈ spaces, JsonText.isSpace code = true

namespace Json

variable {F : Type}

/-- The strings are texts and the keys of a dictionary are different. -/
inductive Readable : Json F → Prop where
  | null : Readable .null
  | bool (value : Bool) : Readable (.bool value)
  | int (number : ℤ) : Readable (.int number)
  | float (value : F) : Readable (.float value)
  | str {text : PyStr} (valid : text.Valid) : Readable (.str text)
  | array {items : List (Json F)} (inner : ∀ item ∈ items, Readable item) : Readable (.array items)
  | object {members : List (PyStr × Json F)} (distinct : (members.map Prod.fst).Nodup)
      (keys : ∀ member ∈ members, PyStr.Valid member.1)
      (inner : ∀ member ∈ members, Readable member.2) : Readable (.object members)

/-- The value with the items of its dictionaries in the order they are written. -/
def arranged (sortKeys : Bool) : Json F → Json F
  | .array items => .array (items.map (arranged sortKeys))
  | .object members =>
      .object (JsonText.ordered sortKeys (members.map fun member => (member.1, arranged sortKeys member.2)))
  | .null => .null
  | .bool value => .bool value
  | .int number => .int number
  | .float value => .float value
  | .str text => .str text
  termination_by value => sizeOf value
  decreasing_by
    · have smaller := List.sizeOf_lt_of_mem (by assumption)
      simp only [Json.array.sizeOf_spec]
      omega
    · have smaller := List.sizeOf_lt_of_mem ‹_ ∈ members›
      have inside : sizeOf member.2 < sizeOf member := by
        cases member
        simp only [Prod.mk.sizeOf_spec]
        omega
      simp only [Json.object.sizeOf_spec]
      omega

end Json

namespace JsonText

variable {F : Type}

/-! ## Orders of keys -/

theorem perm_ordered (sortKeys : Bool) (members : List (PyStr × Json F)) :
    (ordered sortKeys members).Perm members := by
  unfold ordered
  split
  next => exact List.perm_insertionSort byKey members
  next => exact List.Perm.refl members

/-- The order of the items does not depend on their values. -/
theorem ordered_map (sortKeys : Bool) (change : Json F → Json F) (members : List (PyStr × Json F)) :
    ordered sortKeys (members.map fun member => (member.1, change member.2)) =
      (ordered sortKeys members).map fun member => (member.1, change member.2) := by
  unfold ordered
  split
  next =>
    exact (List.map_insertionSort byKey byKey (fun member => (member.1, change member.2)) members
      fun _ _ _ _ => Iff.rfl).symm
  next => rfl

/-! ## Texts that are read up to their end -/

/-- The text of a value starts with no space and no closing bracket. -/
def Starts (text : PyStr) : Prop :=
  ∃ code rest, text = code :: rest ∧ isSpace code = false ∧ code ≠ 93 ∧ code ≠ 125

/-- The text is read as the value, whatever follows it that does not go on with a number. -/
def Reads (scan : Scanner F) (text : PyStr) (value : Json F) : Prop :=
  ∀ after, Stops after → scan (text ++ after) = .ok (value, after)

theorem Starts.append {text : PyStr} (starts : Starts text) (after : PyStr) :
    Starts (text ++ after) := by
  obtain ⟨code, rest, rfl, notSpace, noBracket, noBrace⟩ := starts
  exact ⟨code, rest ++ after, rfl, notSpace, noBracket, noBrace⟩

theorem Starts.length_pos {text : PyStr} (starts : Starts text) : 0 < text.length := by
  obtain ⟨code, rest, rfl, -⟩ := starts
  simp

/-- Spaces before a value are skipped. -/
theorem skipSpace_spaces {text : PyStr} (spaces : PyStr) (allSpace : ∀ code ∈ spaces, isSpace code = true)
    (starts : Starts text) : skipSpace (spaces ++ text) = text := by
  obtain ⟨code, rest, rfl, notSpace, -⟩ := starts
  induction spaces with
  | nil => simp [skipSpace, notSpace]
  | cons space spaces hyp =>
      have first := allSpace space List.mem_cons_self
      have later := hyp fun code member => allSpace code (List.mem_cons_of_mem _ member)
      rw [skipSpace] at later ⊢
      rw [List.cons_append, List.dropWhile_cons, if_pos first, later]

theorem skipSpace_starts {text : PyStr} (starts : Starts text) : skipSpace text = text :=
  skipSpace_spaces [] (by simp) starts

theorem skipSpace_cons {code : ℕ} (text : PyStr) (notSpace : isSpace code = false) :
    skipSpace (code :: text) = code :: text := by
  simp [skipSpace, notSpace]

theorem stops_cons {code : ℕ} (text : PyStr)
    (stops : isDigit code = false ∧ code ≠ 46 ∧ code ≠ 101 ∧ code ≠ 69) : Stops (code :: text) := by
  intro other first
  cases first
  exact stops

/-! ## Numbers and words -/

theorem numberSign_parts (text : PyStr) : (numberSign text).1 ++ (numberSign text).2 = text := by
  unfold numberSign
  split <;> rfl

theorem wholePart?_parts {text whole rest : PyStr} (found : wholePart? text = some (whole, rest)) :
    whole ++ rest = text := by
  unfold wholePart? at found
  split at found
  next =>
    cases found
    rfl
  next =>
    split at found
    next => cases found
    next =>
      cases found
      exact List.takeWhile_append_dropWhile

theorem fraction_parts (text : PyStr) : (fraction text).1 ++ (fraction text).2 = text := by
  unfold fraction
  split
  next =>
    split
    next => rfl
    next => simp [List.takeWhile_append_dropWhile]
  next => rfl

theorem exponentSign_parts (text : PyStr) :
    (exponentSign text).1 ++ (exponentSign text).2 = text := by
  unfold exponentSign
  split <;> rfl

theorem exponent_parts (text : PyStr) : (exponent text).1 ++ (exponent text).2 = text := by
  unfold exponent
  split
  next letter rest =>
    split
    next =>
      dsimp only
      split
      next => rfl
      next =>
        rw [List.append_assoc, List.takeWhile_append_dropWhile, List.cons_append,
          exponentSign_parts]
    next => rfl
  next => rfl

/-- The parts of a number are the text they were read from. -/
theorem matchNumber?_parts {text whole more rest : PyStr}
    (found : matchNumber? text = some (whole, more, rest)) : whole ++ more ++ rest = text := by
  unfold matchNumber? at found
  simp only [Option.bind_eq_bind, Option.bind_eq_some_iff, Option.pure_def, Option.some.injEq,
    Prod.mk.injEq] at found
  obtain ⟨⟨digits, afterWhole⟩, foundWhole, rfl, rfl, rfl⟩ := found
  dsimp only
  rw [List.append_assoc, List.append_assoc, List.append_assoc, exponent_parts, fraction_parts,
    wholePart?_parts foundWhole, numberSign_parts]

theorem wholePart?_front {text whole rest : PyStr} (found : wholePart? text = some (whole, rest)) :
    ∃ code more, text = code :: more ∧ isDigit code = true := by
  unfold wholePart? at found
  split at found
  next => exact ⟨48, _, rfl, rfl⟩
  next =>
    split at found
    next => cases found
    next some =>
      cases text with
      | nil => exact absurd rfl some
      | cons code more =>
          refine ⟨code, more, rfl, ?_⟩
          by_contra noDigit
          exact some (List.takeWhile_cons_of_neg noDigit)

/-- A number starts with a digit, or with a minus and a digit. -/
theorem matchNumber?_front {text whole more rest : PyStr}
    (found : matchNumber? text = some (whole, more, rest)) :
    ∃ code after, isDigit code = true ∧ (text = code :: after ∨ text = 45 :: code :: after) := by
  unfold matchNumber? at found
  simp only [Option.bind_eq_bind, Option.bind_eq_some_iff] at found
  obtain ⟨⟨digits, afterWhole⟩, foundWhole, -⟩ := found
  obtain ⟨code, after, front, digit⟩ := wholePart?_front foundWhole
  refine ⟨code, after, digit, ?_⟩
  have parts := numberSign_parts text
  rw [front] at parts
  unfold numberSign at parts
  split at parts
  next => exact .inr parts.symm
  next => exact .inl parts.symm

theorem starts_of_digit {code : ℕ} (digit : isDigit code = true) :
    isSpace code = false ∧ code ≠ 93 ∧ code ≠ 125 ∧ code ≠ 34 ∧ code ≠ 123 ∧ code ≠ 91 := by
  unfold isDigit at digit
  unfold isSpace
  simp only [Bool.and_eq_true, decide_eq_true_eq, Bool.or_eq_false_iff, decide_eq_false_iff_not] at *
  omega

theorem starts_number {text whole more rest : PyStr}
    (found : matchNumber? text = some (whole, more, rest)) : Starts text := by
  obtain ⟨code, after, digit, rfl | rfl⟩ := matchNumber?_front found
  · obtain ⟨notSpace, noBracket, noBrace, -⟩ := starts_of_digit digit
    exact ⟨code, after, rfl, notSpace, noBracket, noBrace⟩
  · exact ⟨45, code :: after, rfl, by decide⟩

/-- A number starts no word. -/
theorem scanWord_number (floats : FloatText F) (constant : JsonConstant → Option LoadsFailure)
    {text whole more rest : PyStr} (found : matchNumber? text = some (whole, more, rest)) :
    scanWord floats constant text = none := by
  obtain ⟨code, after, digit, front⟩ := matchNumber?_front found
  unfold isDigit at digit
  simp only [Bool.and_eq_true, decide_eq_true_eq] at digit
  have noWord : ∀ word letters first second, pyStr word = first :: second :: letters →
      57 < first ∨ first = 45 ∧ 57 < second → afterWord? word text = none := by
    intro word letters first second spelled letter
    unfold afterWord?
    rw [spelled]
    rcases front with rfl | rfl
    · rw [if_neg]
      simp
      omega
    · rw [if_neg]
      simp
      omega
  unfold scanWord
  dsimp only
  rw [noWord "null" [108, 108] 110 117 (by decide) (by decide),
    noWord "true" [117, 101] 116 114 (by decide) (by decide),
    noWord "false" [108, 115, 101] 102 97 (by decide) (by decide),
    noWord JsonConstant.nan.text [78] 78 97 (by decide) (by decide),
    noWord JsonConstant.infinity.text [102, 105, 110, 105, 116, 121] 73 110 (by decide) (by decide),
    noWord JsonConstant.minusInfinity.text [110, 102, 105, 110, 105, 116, 121] 45 73 (by decide)
      (by decide)]
  rfl

/-- At a number the decoder reads a number. -/
theorem scanWith_number (floats : FloatText F) (limits : JsonLimits)
    (constant : JsonConstant → Option LoadsFailure) (inner : Option (Scanner F))
    {text whole more rest : PyStr} (found : matchNumber? text = some (whole, more, rest)) :
    scanWith floats limits constant inner text = scanNumber floats limits text := by
  obtain ⟨code, after, digit, front⟩ := matchNumber?_front found
  obtain ⟨-, -, -, noQuote, noBrace, noBracket⟩ := starts_of_digit digit
  rw [scanWith.eq_def]
  split
  next => rcases front with front | front <;> simp_all
  next => rcases front with front | front <;> simp_all
  next => rcases front with front | front <;> simp_all
  next => rw [scanWord_number floats constant found, Option.getD_none]

/-- What `writeWith` writes for a number is read back. -/
theorem reads_int (floats : FloatText F) {limits : JsonLimits}
    (constant : JsonConstant → Option LoadsFailure) (inner : Option (Scanner F)) {number : ℤ}
    {text : PyStr} (written : writeInt limits number = some text) :
    Starts text ∧ Reads (scanWith floats limits constant inner) text (.int number) := by
  obtain ⟨matched, back⟩ := matchNumber?_writeInt written
  refine ⟨starts_number matched, ?_⟩
  intro after stops
  have longer := matchNumber?_append after matched stops
  rw [scanWith_number floats limits constant inner longer, scanNumber, longer]
  simp only [back, List.nil_append]

theorem reads_float {floats : FloatText F} (lawful : floats.Lawful) (limits : JsonLimits)
    (constant : JsonConstant → Option LoadsFailure) (inner : Option (Scanner F)) {value : F}
    (finite : floats.constant? value = none) :
    Starts (floats.repr value) ∧
      Reads (scanWith floats limits constant inner) (floats.repr value) (.float value) := by
  obtain ⟨whole, more, matched, hasMore, back⟩ := lawful.finite value finite
  refine ⟨starts_number matched, ?_⟩
  intro after stops
  have longer := matchNumber?_append after matched stops
  have parts := matchNumber?_parts matched
  rw [List.append_nil] at parts
  rw [scanWith_number floats limits constant inner longer, scanNumber, longer]
  cases more with
  | nil => exact absurd rfl hasMore
  | cons code more => simp only [parts, back, List.nil_append]

theorem scanWith_constant (floats : FloatText F) (limits : JsonLimits)
    (constant : JsonConstant → Option LoadsFailure) (inner : Option (Scanner F))
    (name : JsonConstant) (after : PyStr) :
    scanWith floats limits constant inner (pyStr name.text ++ after) =
      match constant name with
      | some failure => .error failure
      | none => .ok (.float (floats.ofConstant name), after) := by
  cases name <;> rfl

theorem reads_constant {floats : FloatText F} (lawful : floats.Lawful) (limits : JsonLimits)
    {constant : JsonConstant → Option LoadsFailure} (inner : Option (Scanner F)) {value : F}
    {name : JsonConstant} (isConstant : floats.constant? value = some name)
    (kept : constant name = none) :
    Starts (pyStr name.text) ∧
      Reads (scanWith floats limits constant inner) (pyStr name.text) (.float value) := by
  refine ⟨?_, ?_⟩
  · cases name with
    | nan => exact ⟨78, [97, 78], rfl, by decide⟩
    | infinity => exact ⟨73, [110, 102, 105, 110, 105, 116, 121], rfl, by decide⟩
    | minusInfinity => exact ⟨45, [73, 110, 102, 105, 110, 105, 116, 121], rfl, by decide⟩
  · intro after _
    rw [scanWith_constant, kept, lawful.constant value name isConstant]

/-! ## Arrays and objects -/

theorem joined_cons (separator text : PyStr) {texts : List PyStr} (more : texts ≠ []) :
    joined separator (text :: texts) = text ++ separator ++ joined separator texts := by
  cases texts with
  | nil => exact absurd rfl more
  | cons next texts => rfl

theorem starts_joined (separator : PyStr) {texts : List PyStr} (some : texts ≠ [])
    (starts : ∀ text ∈ texts, Starts text) : Starts (joined separator texts) := by
  cases texts with
  | nil => exact absurd rfl some
  | cons text texts =>
      have first := starts text List.mem_cons_self
      cases texts with
      | nil => exact first
      | cons next texts =>
          rw [joined_cons separator text (by simp), List.append_assoc]
          exact first.append _

theorem length_le_joined (separator : PyStr) {texts : List PyStr}
    (starts : ∀ text ∈ texts, Starts text) : texts.length ≤ (joined separator texts).length := by
  induction texts with
  | nil => simp
  | cons text texts hyp =>
      have first := (starts text List.mem_cons_self).length_pos
      have later := hyp fun other member => starts other (List.mem_cons_of_mem _ member)
      cases texts with
      | nil => exact first
      | cons next texts =>
          rw [joined_cons separator text (by simp), List.length_append, List.length_append,
            List.length_cons]
          omega

theorem starts_of_read {inner : Scanner F} {texts : List PyStr} {values : List (Json F)}
    (read : List.Forall₂ (fun text value => Starts text ∧ Reads inner text value) texts values) :
    ∀ text ∈ texts, Starts text := by
  induction read with
  | nil => simp
  | cons first later hyp =>
      rw [List.forall_mem_cons]
      exact ⟨first.1, hyp⟩

/-- The items of an array are read up to its closing bracket. -/
theorem scanItems_joined {inner : Scanner F} {spaces : PyStr}
    (allSpace : ∀ code ∈ spaces, isSpace code = true) (after : PyStr) {texts : List PyStr}
    {values : List (Json F)} (some : texts ≠ [])
    (read : List.Forall₂ (fun text value => Starts text ∧ Reads inner text value) texts values) :
    ∀ fuel : ℕ, texts.length ≤ fuel →
      scanItems inner fuel (joined (44 :: spaces) texts ++ 93 :: after) = .ok (values, after) := by
  induction read with
  | nil => exact absurd rfl some
  | @cons text value texts values first later hyp =>
      intro fuel enough
      obtain ⟨fuel, rfl⟩ := Nat.exists_eq_succ_of_ne_zero (Nat.ne_of_gt (Nat.zero_lt_of_lt enough))
      cases later with
      | nil =>
          have back := first.2 (93 :: after) (stops_cons after (by decide))
          simp only [joined, scanItems, back, bind, Except.bind, skipSpace_cons after (by decide : isSpace 93 = false)]
          rfl
      | @cons next nextValue texts values second rest =>
          have shorter : (next :: texts).length ≤ fuel := by simpa using enough
          have starts := starts_of_read (List.Forall₂.cons second rest)
          have inside := (starts_joined (44 :: spaces) (by simp) starts).append (93 :: after)
          have back := first.2 (44 :: spaces ++ (joined (44 :: spaces) (next :: texts) ++ 93 :: after))
            (stops_cons _ (by decide))
          rw [joined_cons _ _ (by simp), List.append_assoc, List.append_assoc, scanItems, back]
          simp only [bind, Except.bind, List.cons_append, skipSpace_cons _ (by decide : isSpace 44 = false),
            skipSpace_spaces spaces allSpace inside, hyp (by simp) fuel shorter]
          rfl

theorem scanArray_joined {inner : Scanner F} {spaces : PyStr}
    (allSpace : ∀ code ∈ spaces, isSpace code = true) (after : PyStr) {texts : List PyStr}
    {values : List (Json F)}
    (read : List.Forall₂ (fun text value => Starts text ∧ Reads inner text value) texts values) :
    scanArray inner (joined (44 :: spaces) texts ++ 93 :: after) = .ok (values, after) := by
  cases texts with
  | nil =>
      cases read
      rfl
  | cons text texts =>
      have starts := starts_of_read read
      have inside := (starts_joined (44 :: spaces) (by simp) starts).append (93 :: after)
      have enough := length_le_joined (44 :: spaces) starts
      have back := scanItems_joined allSpace after (by simp) read
        (joined (44 :: spaces) (text :: texts) ++ 93 :: after).length
        (by rw [List.length_append]; omega)
      obtain ⟨code, rest, front, notSpace, noBracket, -⟩ := inside
      rw [scanArray, front, skipSpace_cons rest notSpace]
      split
      next same => exact absurd (List.cons.inj same).1 noBracket
      next => rw [← front, back]

/-- The text of an item of a dictionary is its key, the separator and the text of its value. -/
def IsMember (ensureAscii : Bool) (separator : PyStr) (inner : Scanner F) (text : PyStr)
    (member : PyStr × Json F) : Prop :=
  ∃ written, text = writeString ensureAscii member.1 ++ separator ++ written ∧
    PyStr.Valid member.1 ∧ Starts written ∧ Reads inner written member.2

theorem starts_of_members {ensureAscii : Bool} {separator : PyStr} {inner : Scanner F}
    {texts : List PyStr} {members : List (PyStr × Json F)}
    (read : List.Forall₂ (IsMember ensureAscii separator inner) texts members) :
    ∀ text ∈ texts, Starts text := by
  induction read with
  | nil => simp
  | cons first later hyp =>
      rw [List.forall_mem_cons]
      obtain ⟨written, rfl, -⟩ := first
      exact ⟨⟨34, _, by rw [writeString]; rfl, by decide⟩, hyp⟩

theorem assign_new {members : List (PyStr × Json F)} {key : PyStr} {value : Json F}
    (new : key ∉ members.map Prod.fst) : Dict.assign members key value = members ++ [(key, value)] := by
  refine Dict.assign_of_get?_eq_none (Dict.get?_eq_none_iff.mpr fun item member same => new ?_)
  exact List.mem_map.mpr ⟨item, member, same⟩

/-- The items of a dictionary are read up to its closing brace, after those already read. -/
theorem scanMembers_joined {ensureAscii : Bool} {inner : Scanner F} {spaces keySpaces : PyStr}
    (allSpace : ∀ code ∈ spaces, isSpace code = true)
    (allKeySpace : ∀ code ∈ keySpaces, isSpace code = true) (after : PyStr) {texts : List PyStr}
    {members : List (PyStr × Json F)} (some : texts ≠ [])
    (read : List.Forall₂ (IsMember ensureAscii (58 :: keySpaces) inner) texts members) :
    ∀ (fuel : ℕ) (before : List (PyStr × Json F)), texts.length ≤ fuel →
      ((before ++ members).map Prod.fst).Nodup →
      scanMembers inner fuel before (joined (44 :: spaces) texts ++ 125 :: after) =
        .ok (before ++ members, after) := by
  induction read with
  | nil => exact absurd rfl some
  | @cons text member texts members first later hyp =>
      intro fuel before enough distinct
      obtain ⟨fuel, rfl⟩ := Nat.exists_eq_succ_of_ne_zero (Nat.ne_of_gt (Nat.zero_lt_of_lt enough))
      obtain ⟨written, rfl, valid, starts, reads⟩ := first
      have new : member.1 ∉ before.map Prod.fst := by
        rw [List.map_append, List.map_cons, List.nodup_append] at distinct
        exact fun known => distinct.2.2 _ known _ List.mem_cons_self rfl
      -- the key, the colon and the value, with any text after them
      have front : ∀ more, ∃ body, writeString ensureAscii member.1 ++ 58 :: keySpaces ++ written ++ more =
          34 :: body ∧ scanString body = .ok (member.1, 58 :: (keySpaces ++ (written ++ more))) := by
        intro more
        obtain ⟨body, begins, back⟩ := scanString_writeString ensureAscii
          (58 :: (keySpaces ++ (written ++ more))) valid
        exact ⟨body, by rw [← begins]; simp, back⟩
      cases later with
      | nil =>
          obtain ⟨body, begins, key⟩ := front (125 :: after)
          have value := reads (125 :: after) (stops_cons after (by decide))
          rw [joined, begins, scanMembers]
          simp only [key, bind, Except.bind, skipSpace_cons _ (by decide : isSpace 58 = false),
            skipSpace_spaces keySpaces allKeySpace (starts.append (125 :: after)), value,
            skipSpace_cons _ (by decide : isSpace 125 = false), assign_new new]
          rfl
      | @cons next nextMember texts members second rest =>
          have shorter : (next :: texts).length ≤ fuel := by simpa using enough
          have inside := (starts_joined (44 :: spaces) (by simp)
            (starts_of_members (List.Forall₂.cons second rest))).append (125 :: after)
          obtain ⟨body, begins, key⟩ :=
            front (44 :: (spaces ++ (joined (44 :: spaces) (next :: texts) ++ 125 :: after)))
          have value := reads (44 :: (spaces ++ (joined (44 :: spaces) (next :: texts) ++ 125 :: after)))
            (stops_cons _ (by decide))
          have whole : before ++ member :: nextMember :: members =
              (before ++ [member]) ++ nextMember :: members := by simp
          rw [whole] at distinct ⊢
          rw [joined_cons _ _ (by simp), List.append_assoc, List.append_assoc, List.cons_append,
            begins, scanMembers]
          simp only [key, bind, Except.bind, skipSpace_cons _ (by decide : isSpace 58 = false),
            skipSpace_spaces keySpaces allKeySpace (starts.append _), value,
            skipSpace_cons _ (by decide : isSpace 44 = false), skipSpace_spaces spaces allSpace inside,
            assign_new new, hyp (by simp) fuel (before ++ [member]) shorter distinct]

/-- A dictionary of values that are read is read. -/
theorem scanObject_joined {ensureAscii : Bool} {inner : Scanner F} {spaces keySpaces : PyStr}
    (allSpace : ∀ code ∈ spaces, isSpace code = true)
    (allKeySpace : ∀ code ∈ keySpaces, isSpace code = true) (after : PyStr) {texts : List PyStr}
    {members : List (PyStr × Json F)} (distinct : (members.map Prod.fst).Nodup)
    (read : List.Forall₂ (IsMember ensureAscii (58 :: keySpaces) inner) texts members) :
    scanObject inner (joined (44 :: spaces) texts ++ 125 :: after) = .ok (members, after) := by
  cases texts with
  | nil =>
      cases read
      rfl
  | cons text texts =>
      have starts := starts_of_members read
      have inside := (starts_joined (44 :: spaces) (by simp) starts).append (125 :: after)
      have enough := length_le_joined (44 :: spaces) starts
      have back := scanMembers_joined allSpace allKeySpace after (by simp) read
        (joined (44 :: spaces) (text :: texts) ++ 125 :: after).length []
        (by rw [List.length_append]; omega) distinct
      obtain ⟨code, rest, front, notSpace, -, noBrace⟩ := inside
      rw [scanObject, front, skipSpace_cons rest notSpace]
      split
      next same => exact absurd (List.cons.inj same).1 noBrace
      next =>
        rw [← front, back]
        rfl

/-! ## Values -/

/-- What is written in this style is read back: the floats and the separators are in order, and a
constant that may be written is not refused. -/
structure RoundTrip (floats : FloatText F) (style : JsonStyle)
    (constant : JsonConstant → Option LoadsFailure) : Prop where
  floats : floats.Lawful
  separators : style.Lawful
  kept : style.allowNan = true → ∀ name, constant name = none

section Values

variable {floats : FloatText F} {limits : JsonLimits} {style : JsonStyle}
  {constant : JsonConstant → Option LoadsFailure}

/-- One level of a value, where the next level is read back. -/
theorem writeWith_reads (trip : RoundTrip floats style constant)
    {write : Option (Json F → Option PyStr)} {inner : Option (Scanner F)}
    (levels : ∀ writer ∈ write, ∃ scan ∈ inner, ∀ value text, writer value = some text →
      value.Readable → Starts text ∧ Reads scan text (value.arranged style.sortKeys))
    {value : Json F} {text : PyStr} (written : writeWith floats limits style write value = some text)
    (readable : value.Readable) :
    Starts text ∧ Reads (scanWith floats limits constant inner) text (value.arranged style.sortKeys) := by
  cases value with
  | null =>
      cases written
      rw [Json.arranged]
      exact ⟨⟨110, [117, 108, 108], rfl, by decide⟩, fun _ _ => rfl⟩
  | bool flag =>
      rw [Json.arranged]
      cases flag with
      | true =>
          cases written
          exact ⟨⟨116, [114, 117, 101], rfl, by decide⟩, fun _ _ => rfl⟩
      | false =>
          cases written
          exact ⟨⟨102, [97, 108, 115, 101], rfl, by decide⟩, fun _ _ => rfl⟩
  | int number =>
      rw [Json.arranged]
      exact reads_int floats constant inner written
  | float value =>
      rw [Json.arranged]
      rw [writeWith, writeFloat] at written
      split at written
      next finite =>
        cases written
        exact reads_float trip.floats limits constant inner finite
      next name isConstant =>
        split at written
        next allowed =>
          cases written
          exact reads_constant trip.floats limits inner isConstant (trip.kept allowed name)
        next => cases written
  | str content =>
      rw [Json.arranged]
      cases written
      cases readable with
      | str valid =>
          refine ⟨⟨34, _, by rw [writeString]; rfl, by decide⟩, fun after _ => ?_⟩
          obtain ⟨body, begins, back⟩ := scanString_writeString style.ensureAscii after valid
          rw [begins, scanWith, back]
          rfl
  | array items =>
      cases readable with
      | array readable =>
      obtain ⟨spaces, separator, allSpace⟩ := trip.separators.item
      simp only [writeWith, Option.bind_eq_bind, Option.bind_eq_some_iff, Option.pure_def,
        Option.some.injEq, separator] at written
      obtain ⟨writer, isWriter, texts, each, rfl⟩ := written
      obtain ⟨scan, rfl, reads⟩ := levels writer isWriter
      refine ⟨⟨91, _, rfl, by decide⟩, fun after _ => ?_⟩
      have pairs : List.Forall₂ (fun text value => Starts text ∧ Reads scan text value) texts
          (items.map (Json.arranged style.sortKeys)) := by
        refine List.forall₂_map_right_iff.mpr (List.Forall₂.flip ?_)
        refine ((List.forall₂_and_left _ _).mpr ⟨readable, Checked.mapM_eq_some.mp each⟩).imp ?_
        exact fun item text both => reads item text both.2 both.1
      have back := scanArray_joined allSpace after pairs
      rw [Json.arranged, List.cons_append, List.cons_append, scanWith, List.append_assoc,
        List.singleton_append, back]
      rfl
  | object members =>
      cases readable with
      | object distinct valid readable =>
      obtain ⟨spaces, separator, allSpace⟩ := trip.separators.item
      obtain ⟨keySpaces, keySeparator, allKeySpace⟩ := trip.separators.key
      simp only [writeWith, Option.bind_eq_bind, Option.bind_eq_some_iff, Option.pure_def,
        Option.some.injEq, separator, keySeparator] at written
      obtain ⟨writer, isWriter, texts, each, rfl⟩ := written
      obtain ⟨scan, rfl, reads⟩ := levels writer isWriter
      refine ⟨⟨123, _, rfl, by decide⟩, fun after _ => ?_⟩
      have same := perm_ordered style.sortKeys members
      have distinctKeys : (((ordered style.sortKeys members).map fun member =>
          (member.1, member.2.arranged style.sortKeys)).map Prod.fst).Nodup := by
        rw [List.map_map]
        exact (same.map Prod.fst).nodup_iff.mpr distinct
      have pairs : List.Forall₂ (IsMember style.ensureAscii (58 :: keySpaces) scan) texts
          ((ordered style.sortKeys members).map fun member =>
            (member.1, member.2.arranged style.sortKeys)) := by
        refine List.forall₂_map_right_iff.mpr (List.Forall₂.flip ?_)
        have inside : ∀ member ∈ ordered style.sortKeys members,
            PyStr.Valid member.1 ∧ member.2.Readable := fun member isMember =>
          ⟨valid member (same.mem_iff.mp isMember), readable member (same.mem_iff.mp isMember)⟩
        refine ((List.forall₂_and_left _ _).mpr ⟨inside, Checked.mapM_eq_some.mp each⟩).imp ?_
        rintro member text ⟨⟨validKey, readableValue⟩, turn⟩
        obtain ⟨valueText, wrote, equal⟩ := Option.bind_eq_some_iff.mp turn
        cases equal
        exact ⟨valueText, rfl, validKey, reads member.2 valueText wrote readableValue⟩
      have back := scanObject_joined allSpace allKeySpace after distinctKeys pairs
      rw [Json.arranged, ordered_map, List.cons_append, List.cons_append, scanWith,
        List.append_assoc, List.singleton_append]
      dsimp only
      rw [back]
      rfl

/-- A value that is written is read back, at any nesting the decoder reads. -/
theorem writeDepth_reads (trip : RoundTrip floats style constant) :
    ∀ {depth readDepth : ℕ} {value : Json F} {text : PyStr}, depth ≤ readDepth → writeDepth floats limits style depth value = some text → value.Readable →
      Starts text ∧
        Reads (scanOnce floats limits constant readDepth) text (value.arranged style.sortKeys) := by
  intro depth
  induction depth with
  | zero =>
      intro readDepth value text _ written readable
      cases readDepth with
      | zero => exact writeWith_reads trip (by simp) written readable
      | succ readDepth => exact writeWith_reads trip (by simp) written readable
  | succ depth hyp =>
      intro readDepth value text within written readable
      obtain ⟨readDepth, rfl⟩ := Nat.exists_eq_succ_of_ne_zero (Nat.ne_of_gt (Nat.zero_lt_of_lt within))
      refine writeWith_reads trip ?_ written readable
      intro writer isWriter
      cases isWriter
      exact ⟨_, rfl, fun value text => hyp (Nat.le_of_succ_le_succ within)⟩

/-- `json.loads(json.dumps(value))` is the value, with the items of its dictionaries in the order
they were written. -/
theorem loads_writeDepth (trip : RoundTrip floats style constant) {depth : ℕ}
    (within : depth ≤ limits.readDepth) {value : Json F} {text : PyStr}
    (written : writeDepth floats limits style depth value = some text) (readable : value.Readable) :
    loads floats limits constant text = .ok (value.arranged style.sortKeys) := by
  obtain ⟨starts, reads⟩ := writeDepth_reads trip within written readable
  have back := reads [] (by simp [Stops])
  rw [List.append_nil] at back
  rw [loads, skipSpace_starts starts, back]
  rfl

/-- Two values with one text are the same, but for the order of the items of dictionaries. -/
theorem dumps_injective (floatsLawful : floats.Lawful) (separators : style.Lawful)
    {first second : Json F} {text : PyStr}
    (firstText : dumps floats limits style first = some text)
    (secondText : dumps floats limits style second = some text)
    (firstReadable : first.Readable) (secondReadable : second.Readable) :
    first.arranged style.sortKeys = second.arranged style.sortKeys := by
  have trip : RoundTrip floats style fun _ => none := ⟨floatsLawful, separators, fun _ _ => rfl⟩
  obtain ⟨-, firstReads⟩ := writeDepth_reads trip (Nat.le_refl _) firstText firstReadable
  obtain ⟨-, secondReads⟩ := writeDepth_reads trip (Nat.le_refl _) secondText secondReadable
  have same := (firstReads [] (by simp [Stops])).symm.trans (secondReads [] (by simp [Stops]))
  exact (Prod.mk.inj (Except.ok.inj same)).1

end Values

end JsonText
