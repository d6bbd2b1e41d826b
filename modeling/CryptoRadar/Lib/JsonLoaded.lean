import CryptoRadar.Lib.JsonForm

/-!
# What the decoder returns

For ASCII text the decoder returns a value that is read back (`loads_readable`): an escaped high
surrogate is joined with a low one after it, so no string holds a pair, and a key that comes twice
replaces its first value.
-/

set_option autoImplicit false

namespace JsonText

variable {F : Type}

/-! ## Strings of ASCII text -/

def Ascii (text : PyStr) : Prop := ∀ code ∈ text, code < 128

theorem Ascii.tail {code : ℕ} {text : PyStr} (ascii : Ascii (code :: text)) : Ascii text :=
  fun other member => ascii other (List.mem_cons_of_mem _ member)

theorem Ascii.suffix {text rest : PyStr} (ascii : Ascii text) (suffix : rest <:+ text) : Ascii rest :=
  fun code member => ascii code (suffix.subset member)

theorem Ascii.skipSpace {text : PyStr} (ascii : Ascii text) : Ascii (skipSpace text) :=
  ascii.suffix (List.dropWhile_suffix isSpace)

theorem hexValue?_lt {code value : ℕ} (found : hexValue? code = some value) : value < 16 := by
  unfold hexValue? at found
  grind

theorem hex4?_lt {first second third fourth code : ℕ}
    (found : hex4? first second third fourth = some code) : code < 0x10000 := by
  unfold hex4? at found
  simp only [Option.bind_eq_bind, Option.bind_eq_some_iff, Option.pure_def, Option.some.injEq] at found
  obtain ⟨one, isOne, two, isTwo, three, isThree, four, isFour, rfl⟩ := found
  have := hexValue?_lt isOne
  have := hexValue?_lt isTwo
  have := hexValue?_lt isThree
  have := hexValue?_lt isFour
  omega

theorem escaped?_lt {letter code : ℕ} (found : escaped? letter = some code) : code < 128 := by
  unfold escaped? at found
  grind

theorem lowEscape?_suffix {text rest : PyStr} {low : ℕ} (found : lowEscape? text = some (low, rest)) :
    rest <:+ text ∧ isLow low = true := by
  unfold lowEscape? at found
  split at found
  next first second third fourth after =>
    split at found
    next code isCode =>
      split at found
      next isLow =>
        cases found
        exact ⟨⟨[92, 117, first, second, third, fourth], rfl⟩, isLow⟩
      next => cases found
    next => cases found
  next => cases found

structure ReadChar (text rest : PyStr) (code : ℕ) : Prop where
  small : code < 0x110000
  high : isHigh code = true → lowEscape? rest = none
  low : isLow code = true → lowEscape? text ≠ none

theorem readChar_of_ascii {text rest : PyStr} {code : ℕ} (ascii : code < 128) :
    ReadChar text rest code := by
  refine ⟨by omega, fun high => ?_, fun low => ?_⟩
  · unfold isHigh at high
    simp only [Bool.and_eq_true, decide_eq_true_eq] at high
    omega
  · unfold isLow at low
    simp only [Bool.and_eq_true, decide_eq_true_eq] at low
    omega

theorem scanChar_read {text rest : PyStr} {found : Option ℕ} (ascii : Ascii text)
    (read : scanChar text = .ok (found, rest)) :
    rest <:+ text ∧ ∀ code, found = some code → ReadChar text rest code := by
  rw [scanChar.eq_def] at read
  split at read
  next => cases read
  next =>
    cases read
    exact ⟨List.suffix_cons _ _, by simp⟩
  next first second third fourth after =>
    have suffix : after <:+ 92 :: 117 :: first :: second :: third :: fourth :: after :=
      ⟨[92, 117, first, second, third, fourth], rfl⟩
    split at read
    next => cases read
    next code isCode =>
      have small := hex4?_lt isCode
      split at read
      next isHigh =>
        split at read
        next low afterLow lowFound =>
          cases read
          obtain ⟨shorter, isLow⟩ := lowEscape?_suffix lowFound
          refine ⟨shorter.trans suffix, ?_⟩
          intro joined same
          obtain rfl := Option.some.inj same
          unfold JsonText.isHigh at isHigh
          unfold JsonText.isLow at isLow
          simp only [Bool.and_eq_true, decide_eq_true_eq] at isHigh isLow
          refine ⟨by omega, fun high => ?_, fun low => ?_⟩
          · unfold JsonText.isHigh at high
            simp only [Bool.and_eq_true, decide_eq_true_eq] at high
            omega
          · unfold JsonText.isLow at low
            simp only [Bool.and_eq_true, decide_eq_true_eq] at low
            omega
        next alone =>
          cases read
          refine ⟨suffix, ?_⟩
          intro single same
          cases same
          refine ⟨by omega, fun _ => alone, fun low => ?_⟩
          simp [lowEscape?, isCode, low]
      next notHigh =>
        cases read
        refine ⟨suffix, ?_⟩
        intro single same
        cases same
        refine ⟨by omega, fun high => absurd high notHigh, fun low => ?_⟩
        simp [lowEscape?, isCode, low]
  next letter after _ =>
    split at read
    next code isCode =>
      cases read
      refine ⟨⟨[92, letter], rfl⟩, ?_⟩
      intro single same
      cases same
      exact readChar_of_ascii (escaped?_lt isCode)
    next => cases read
  next code after _ _ _ =>
    split at read
    next => cases read
    next =>
      cases read
      refine ⟨List.suffix_cons _ _, ?_⟩
      intro single same
      cases same
      exact readChar_of_ascii (ascii code List.mem_cons_self)

theorem valid_nil : PyStr.Valid [] := ⟨rfl, by simp⟩

theorem valid_cons {code : ℕ} {text : PyStr} (small : code < 0x110000) (valid : text.Valid)
    (notLow : isHigh code = true → ∀ next ∈ text.head?, isLow next = false) :
    PyStr.Valid (code :: text) := by
  refine ⟨?_, List.forall_mem_cons.mpr ⟨small, valid.codes⟩⟩
  cases text with
  | nil => rfl
  | cons next text =>
      rw [PyStr.isJoined, valid.joined, Bool.and_true, Bool.not_eq_true']
      have apart := notLow
      unfold isHigh isLow at apart
      simp only [List.head?_cons, Option.mem_some_iff, forall_eq', Bool.and_eq_true,
        decide_eq_true_eq, Bool.and_eq_false_iff, decide_eq_false_iff_not] at apart ⊢
      omega

/-- The text of a Lean string holds no surrogates. -/
theorem valid_pyStr (text : String) : (pyStr text).Valid := by
  have scalar : ∀ code ∈ pyStr text, code < 0xD800 ∨ 0xDFFF < code ∧ code < 0x110000 := by
    intro code member
    obtain ⟨char, _, rfl⟩ := List.mem_map.mp member
    exact char.valid
  generalize pyStr text = codes at scalar
  induction codes with
  | nil => exact valid_nil
  | cons code codes hyp =>
      rw [List.forall_mem_cons] at scalar
      refine valid_cons (by omega) (hyp scalar.2) fun high => ?_
      unfold isHigh at high
      simp only [Bool.and_eq_true, decide_eq_true_eq] at high
      omega

/-- A string read from ASCII text is a text of Python, and starts with a low surrogate only where
one is escaped. -/
theorem scanChars_read : ∀ {fuel : ℕ} {text codes rest : PyStr}, Ascii text →
    scanChars fuel text = .ok (codes, rest) →
      rest <:+ text ∧ codes.Valid ∧ ∀ code ∈ codes.head?, isLow code = true → lowEscape? text ≠ none := by
  intro fuel
  induction fuel with
  | zero =>
      intro text codes rest _ read
      cases read
  | succ fuel hyp =>
      intro text codes rest ascii read
      rw [scanChars] at read
      obtain ⟨⟨found, after⟩, one, read⟩ := Checked.bind_eq_ok.mp read
      obtain ⟨suffix, isChar⟩ := scanChar_read ascii one
      cases found with
      | none =>
          cases read
          exact ⟨suffix, valid_nil, by simp⟩
      | some code =>
          obtain ⟨⟨later, last⟩, more, read⟩ := Checked.bind_eq_ok.mp read
          cases read
          obtain ⟨shorter, valid, notLow⟩ := hyp (ascii.suffix suffix) more
          have char := isChar code rfl
          refine ⟨shorter.trans suffix, valid_cons char.small valid ?_, ?_⟩
          · intro high next isNext
            by_contra low
            exact notLow next isNext (Bool.not_eq_false _ ▸ low) (char.high high)
          · intro first isFirst
            cases isFirst
            exact char.low

theorem scanString_read {text codes rest : PyStr} (ascii : Ascii text)
    (read : scanString text = .ok (codes, rest)) : rest <:+ text ∧ codes.Valid := by
  obtain ⟨suffix, valid, -⟩ := scanChars_read ascii read
  exact ⟨suffix, valid⟩

/-! ## Values of ASCII text -/

/-- What is read from ASCII text is read back, and leaves ASCII text. -/
def ReadsReadable (scan : Scanner F) : Prop :=
  ∀ {text value rest}, Ascii text → scan text = .ok (value, rest) → value.Readable ∧ Ascii rest

theorem readable_empty : (Json.object ([] : List (PyStr × Json F))).Readable :=
  .object List.nodup_nil (by simp) (by simp)

theorem readable_assign {members : List (PyStr × Json F)} {key : PyStr} {value : Json F}
    (readable : (Json.object members).Readable) (valid : key.Valid) (inner : value.Readable) :
    (Json.object (Dict.assign members key value)).Readable := by
  cases readable with
  | object distinct keys values =>
      refine .object (Dict.Distinct.assign distinct key value) ?_ ?_
      · intro item member
        rcases Dict.mem_assign member with old | rfl
        · exact keys item old
        · exact valid
      · intro item member
        rcases Dict.mem_assign member with old | rfl
        · exact values item old
        · exact inner

theorem scanMembers_readable {inner : Scanner F} (innerReads : ReadsReadable inner) :
    ∀ {fuel : ℕ} {before members : List (PyStr × Json F)} {text rest : PyStr}, Ascii text →
      (Json.object before).Readable → scanMembers inner fuel before text = .ok (members, rest) →
        (Json.object members).Readable ∧ Ascii rest := by
  intro fuel
  induction fuel with
  | zero =>
      intro before members text rest _ _ read
      cases read
  | succ fuel hyp =>
      intro before members text rest ascii readable read
      rw [scanMembers.eq_def] at read
      split at read
      next fuel' before' text' same =>
        cases same
        obtain ⟨⟨key, afterKey⟩, isKey, read⟩ := Checked.bind_eq_ok.mp read
        obtain ⟨suffix, valid⟩ := scanString_read ascii.tail isKey
        have asciiKey := (ascii.tail.suffix suffix).skipSpace
        dsimp only at read
        split at read
        next afterColon colon =>
          rw [colon] at asciiKey
          obtain ⟨⟨value, afterValue⟩, isValue, read⟩ := Checked.bind_eq_ok.mp read
          obtain ⟨valueReadable, asciiValue⟩ := innerReads asciiKey.tail.skipSpace isValue
          have longer := readable_assign readable valid valueReadable
          dsimp only at read
          have asciiAfter := asciiValue.skipSpace
          split at read
          next last closes =>
            cases read
            rw [closes] at asciiAfter
            exact ⟨longer, asciiAfter.tail⟩
          next next comma =>
            rw [comma] at asciiAfter
            exact hyp asciiAfter.tail.skipSpace longer read
          next => cases read
        next => cases read
      next => cases read

theorem scanItems_readable {inner : Scanner F} (innerReads : ReadsReadable inner) :
    ∀ {fuel : ℕ} {items : List (Json F)} {text rest : PyStr}, Ascii text →
      scanItems inner fuel text = .ok (items, rest) →
        (∀ item ∈ items, item.Readable) ∧ Ascii rest := by
  intro fuel
  induction fuel with
  | zero =>
      intro items text rest _ read
      cases read
  | succ fuel hyp =>
      intro items text rest ascii read
      rw [scanItems] at read
      obtain ⟨⟨value, afterValue⟩, isValue, read⟩ := Checked.bind_eq_ok.mp read
      obtain ⟨readable, asciiValue⟩ := innerReads ascii isValue
      have asciiAfter := asciiValue.skipSpace
      dsimp only at read
      split at read
      next last closes =>
        cases read
        rw [closes] at asciiAfter
        exact ⟨by simpa using readable, asciiAfter.tail⟩
      next next comma =>
        rw [comma] at asciiAfter
        obtain ⟨⟨later, last⟩, more, read⟩ := Checked.bind_eq_ok.mp read
        cases read
        obtain ⟨others, asciiLast⟩ := hyp asciiAfter.tail.skipSpace more
        exact ⟨List.forall_mem_cons.mpr ⟨readable, others⟩, asciiLast⟩
      next => cases read

theorem scanNumber_readable {floats : FloatText F} {limits : JsonLimits} {text rest : PyStr}
    {value : Json F} (ascii : Ascii text)
    (read : scanNumber floats limits text = .ok (value, rest)) : value.Readable ∧ Ascii rest := by
  have parts : ∀ {whole more after}, matchNumber? text = some (whole, more, after) → Ascii after :=
    fun found => ascii.suffix ⟨_, matchNumber?_parts found⟩
  unfold scanNumber at read
  split at read
  next => cases read
  next whole after found =>
    split at read
    next => cases read
    next =>
      cases read
      exact ⟨.int _, parts found⟩
  next whole more after _ found =>
    cases read
    exact ⟨.float _, parts found⟩

theorem afterWord?_suffix {word : String} {text rest : PyStr}
    (found : afterWord? word text = some rest) : rest <:+ text := by
  unfold afterWord? at found
  split at found
  next =>
    cases found
    exact List.drop_suffix _ _
  next => cases found

/-- A word is read as one of the values of words, and leaves the text after it. -/
theorem scanWord_readable {floats : FloatText F} {constant : JsonConstant → Option LoadsFailure}
    {text rest : PyStr} {value : Json F} (ascii : Ascii text)
    (read : scanWord floats constant text = some (.ok (value, rest))) :
    value.Readable ∧ Ascii rest := by
  unfold scanWord at read
  dsimp only at read
  simp only [Option.or_eq_some_iff, Option.map_eq_some_iff] at read
  rcases read with ⟨after, found, same⟩ | ⟨-, ⟨after, found, same⟩ | ⟨-, ⟨after, found, same⟩ | ⟨-, named⟩⟩⟩
  · cases same
    exact ⟨.null, ascii.suffix (afterWord?_suffix found)⟩
  · cases same
    exact ⟨.bool _, ascii.suffix (afterWord?_suffix found)⟩
  · cases same
    exact ⟨.bool _, ascii.suffix (afterWord?_suffix found)⟩
  · rcases named with ⟨after, found, same⟩ | ⟨-, ⟨after, found, same⟩ | ⟨-, ⟨after, found, same⟩⟩⟩
    all_goals
      split at same
      · cases same
      · cases same
        exact ⟨.float _, ascii.suffix (afterWord?_suffix found)⟩

theorem scanWith_readable (floats : FloatText F) (limits : JsonLimits)
    (constant : JsonConstant → Option LoadsFailure) {inner : Option (Scanner F)}
    (innerReads : ∀ scan ∈ inner, ReadsReadable scan) :
    ReadsReadable (scanWith floats limits constant inner) := by
  intro text value rest ascii read
  rw [scanWith.eq_def] at read
  split at read
  next after =>
    obtain ⟨⟨codes, last⟩, isString, read⟩ := Checked.bind_eq_ok.mp read
    cases read
    obtain ⟨suffix, valid⟩ := scanString_read ascii.tail isString
    exact ⟨.str valid, ascii.tail.suffix suffix⟩
  next after =>
    split at read
    next => cases read
    next scan =>
      obtain ⟨⟨members, last⟩, isObject, read⟩ := Checked.bind_eq_ok.mp read
      cases read
      unfold scanObject at isObject
      have asciiAfter := ascii.tail.skipSpace
      split at isObject
      next closes =>
        cases isObject
        rw [closes] at asciiAfter
        exact ⟨readable_empty, asciiAfter.tail⟩
      next =>
        exact scanMembers_readable (innerReads scan rfl) asciiAfter
          readable_empty isObject
  next after =>
    split at read
    next => cases read
    next scan =>
      obtain ⟨⟨items, last⟩, isArray, read⟩ := Checked.bind_eq_ok.mp read
      cases read
      unfold scanArray at isArray
      have asciiAfter := ascii.tail.skipSpace
      split at isArray
      next closes =>
        cases isArray
        rw [closes] at asciiAfter
        exact ⟨.array (by simp), asciiAfter.tail⟩
      next =>
        obtain ⟨readable, asciiLast⟩ := scanItems_readable (innerReads scan rfl) asciiAfter isArray
        exact ⟨.array readable, asciiLast⟩
  next =>
    cases isWord : scanWord floats constant text with
    | none =>
        rw [isWord] at read
        exact scanNumber_readable ascii read
    | some found =>
        rw [isWord, Option.getD_some] at read
        rw [read] at isWord
        exact scanWord_readable ascii isWord

theorem scanOnce_readable (floats : FloatText F) (limits : JsonLimits)
    (constant : JsonConstant → Option LoadsFailure) (depth : ℕ) :
    ReadsReadable (scanOnce floats limits constant depth) := by
  induction depth with
  | zero => exact scanWith_readable floats limits constant (by simp)
  | succ depth hyp =>
      refine scanWith_readable floats limits constant ?_
      intro scan isScan
      cases isScan
      exact hyp

/-- `json.loads` of ASCII text returns a value that is read back. -/
theorem loads_readable {floats : FloatText F} {limits : JsonLimits}
    {constant : JsonConstant → Option LoadsFailure} {text : PyStr} {value : Json F}
    (ascii : Ascii text) (read : loads floats limits constant text = .ok value) :
    value.Readable := by
  unfold loads at read
  obtain ⟨⟨found, rest⟩, isFound, read⟩ := Checked.bind_eq_ok.mp read
  dsimp only at read
  split at read
  next =>
    cases read
    exact (scanOnce_readable floats limits constant limits.readDepth ascii.skipSpace isFound).1
  next => cases read

end JsonText
