import CryptoRadar.Lib.Json
import Mathlib.Data.List.Sort

/-!
# The JSON encoder and decoder of Python

`json.dumps` and `json.loads` on texts as lists of code points. The text of a float is a
parameter (`FloatText`): `float.__repr__`, `float` of a text, and the three values that are not
finite. Everything else is written out: escapes, integers with their limit on digits, the order
of keys, numbers, surrogate pairs, and the limit on the nesting of containers, where the
recursion of Python ends (`JsonLimits`).

The decoder goes down one level of nesting at a time (`scanOnce`). What a level does with an
object or an array is a loop on the text, with the scanner of the next level as an argument.
-/

set_option autoImplicit false

/-- The constants of Python's JSON that are no JSON. -/
inductive JsonConstant where
  | nan
  | infinity
  | minusInfinity
  deriving DecidableEq, Repr

/-- The text of a constant. -/
def JsonConstant.text : JsonConstant → String
  | .nan => "NaN"
  | .infinity => "Infinity"
  | .minusInfinity => "-Infinity"

/-- The text of floats: which of them are not finite, what `float.__repr__` writes and what
`float` reads. -/
structure FloatText (F : Type) where
  constant? : F → Option JsonConstant
  repr : F → PyStr
  parse : PyStr → F
  ofConstant : JsonConstant → F

/-- `sys.int_info.default_max_str_digits`, and the nesting at which reading and writing raise
`RecursionError`; Python has room for far more than eight levels. -/
structure JsonLimits where
  digits : ℕ
  readDepth : ℕ
  writeDepth : ℕ
  readRoom : 8 ≤ readDepth
  writeRoom : 8 ≤ writeDepth
  digitsRoom : 640 ≤ digits

/-- The digits that Python reads of an integer. -/
theorem JsonLimits.pythonDigits : 640 ≤ 4300 := by decide

/-- The depth that is left of Python's recursion limit. -/
theorem JsonLimits.pythonDepth : 8 ≤ 900 := by decide

/-- How `json.dumps` writes. -/
structure JsonStyle where
  sortKeys : Bool
  itemSeparator : String
  keySeparator : String
  ensureAscii : Bool
  allowNan : Bool

namespace JsonText

variable {F : Type}

/-! ## Writing -/

/-- A hexadecimal digit in lower case. -/
def hexDigit (digit : ℕ) : ℕ := if digit < 10 then 48 + digit else 87 + digit

/-- `\uXXXX`. -/
def unicodeEscape (code : ℕ) : PyStr :=
  [92, 117, hexDigit (code / 4096 % 16), hexDigit (code / 256 % 16), hexDigit (code / 16 % 16),
    hexDigit (code % 16)]

/-- What a code point is written as in a string. -/
def escapeChar (ensureAscii : Bool) (code : ℕ) : PyStr :=
  if code = 34 then [92, 34]
  else if code = 92 then [92, 92]
  else if code = 10 then [92, 110]
  else if code = 13 then [92, 114]
  else if code = 9 then [92, 116]
  else if code = 12 then [92, 102]
  else if code = 8 then [92, 98]
  else if code < 32 then unicodeEscape code
  else if ensureAscii && 127 ≤ code then
    if code < 0x10000 then unicodeEscape code
    else
      -- a character beyond the first plane is a pair of surrogates
      unicodeEscape (0xD800 + (code - 0x10000) / 0x400) ++
        unicodeEscape (0xDC00 + (code - 0x10000) % 0x400)
  else [code]

/-- A string in quotes. -/
def writeString (ensureAscii : Bool) (text : PyStr) : PyStr :=
  34 :: text.flatMap (escapeChar ensureAscii) ++ [34]

/-- The digits of a number. -/
def decimal (number : ℕ) : PyStr := (Nat.toDigits 10 number).map Char.toNat

/-- `int.__repr__`; none where it has too many digits. -/
def writeInt (limits : JsonLimits) (number : ℤ) : Option PyStr :=
  let digits := decimal number.natAbs
  if limits.digits < digits.length then none
  else some (if number < 0 then 45 :: digits else digits)

/-- A float, or one of the constants where they are allowed. -/
def writeFloat (floats : FloatText F) (allowNan : Bool) (value : F) : Option PyStr :=
  match floats.constant? value with
  | none => some (floats.repr value)
  | some constant => if allowNan then some (pyStr constant.text) else none

/-- The order of the items of a dictionary by their keys. -/
def byKey (first second : PyStr × Json F) : Prop := first.1 ≤ second.1

instance : DecidableRel (byKey (F := F)) := fun _ _ => inferInstanceAs (Decidable (_ ≤ _))

/-- The items in the order they are written. -/
def ordered (sortKeys : Bool) (members : List (PyStr × Json F)) : List (PyStr × Json F) :=
  if sortKeys then members.insertionSort byKey else members

/-- `separator.join(texts)`. -/
def joined (separator : PyStr) : List PyStr → PyStr
  | [] => []
  | [text] => text
  | text :: rest => text ++ separator ++ joined separator rest

/-- The text of a value, with the text of what it contains given. -/
def writeWith (floats : FloatText F) (limits : JsonLimits) (style : JsonStyle)
    (inner : Option (Json F → Option PyStr)) : Json F → Option PyStr
  | .null => some (pyStr "null")
  | .bool true => some (pyStr "true")
  | .bool false => some (pyStr "false")
  | .int number => writeInt limits number
  | .float value => writeFloat floats style.allowNan value
  | .str text => some (writeString style.ensureAscii text)
  | .array items => do
      let texts ← items.mapM (← inner)
      return 91 :: joined (pyStr style.itemSeparator) texts ++ [93]
  | .object members => do
      let write ← inner
      let texts ← (ordered style.sortKeys members).mapM fun item => do
        let text ← write item.2
        return writeString style.ensureAscii item.1 ++ pyStr style.keySeparator ++ text
      return 123 :: joined (pyStr style.itemSeparator) texts ++ [125]

/-- The text of a value that is nested at most `depth` deep. -/
def writeDepth (floats : FloatText F) (limits : JsonLimits) (style : JsonStyle) :
    ℕ → Json F → Option PyStr
  | 0 => writeWith floats limits style none
  | depth + 1 => writeWith floats limits style (some (writeDepth floats limits style depth))

/-- `json.dumps`; none where it raises. -/
def dumps (floats : FloatText F) (limits : JsonLimits) (style : JsonStyle) (value : Json F) :
    Option PyStr :=
  writeDepth floats limits style limits.writeDepth value

/-! ## Reading -/

/-- The whitespace of JSON. -/
def isSpace (code : ℕ) : Bool := code = 32 || code = 9 || code = 10 || code = 13

/-- The text after its whitespace. -/
def skipSpace (text : PyStr) : PyStr := text.dropWhile isSpace

/-- The value of a hexadecimal digit. -/
def hexValue? (code : ℕ) : Option ℕ :=
  if 48 ≤ code && code ≤ 57 then some (code - 48)
  else if 97 ≤ code && code ≤ 102 then some (code - 87)
  else if 65 ≤ code && code ≤ 70 then some (code - 55)
  else none

/-- The value of four hexadecimal digits. -/
def hex4? (first second third fourth : ℕ) : Option ℕ := do
  let first ← hexValue? first
  let second ← hexValue? second
  let third ← hexValue? third
  let fourth ← hexValue? fourth
  return first * 4096 + second * 256 + third * 16 + fourth

/-- A high surrogate. -/
def isHigh (code : ℕ) : Bool := 0xD800 ≤ code && code < 0xDC00

/-- A low surrogate. -/
def isLow (code : ℕ) : Bool := 0xDC00 ≤ code && code < 0xE000

/-- The character an escape letter stands for. -/
def escaped? (letter : ℕ) : Option ℕ :=
  if letter = 34 then some 34
  else if letter = 92 then some 92
  else if letter = 47 then some 47
  else if letter = 98 then some 8
  else if letter = 102 then some 12
  else if letter = 110 then some 10
  else if letter = 114 then some 13
  else if letter = 116 then some 9
  else none

/-- The low surrogate that an escape at the front of the text writes, and the rest. -/
def lowEscape? : PyStr → Option (ℕ × PyStr)
  | 92 :: 117 :: first :: second :: third :: fourth :: rest =>
      match hex4? first second third fourth with
      | some code => if isLow code then some (code, rest) else none
      | none => none
  | _ => none

/-- One character of a string: the character and the text after it; none at the end of the
string. -/
def scanChar : PyStr → Except LoadsFailure (Option ℕ × PyStr)
  | [] => .error .notJson
  | 34 :: rest => .ok (none, rest)
  | 92 :: 117 :: first :: second :: third :: fourth :: rest =>
      match hex4? first second third fourth with
      | none => .error .notJson
      | some code =>
          if isHigh code then
            match lowEscape? rest with
            | some (low, rest) => .ok (some (0x10000 + (code - 0xD800) * 0x400 + (low - 0xDC00)), rest)
            | none => .ok (some code, rest)
          else .ok (some code, rest)
  | 92 :: letter :: rest =>
      match escaped? letter with
      | some code => .ok (some code, rest)
      | none => .error .notJson
  | code :: rest => if code < 32 then .error .notJson else .ok (some code, rest)

/-- The characters of a string up to its closing quote, and the text after it. The fuel is the
length of the text: every turn takes a character of it. -/
def scanChars : ℕ → PyStr → Except LoadsFailure (PyStr × PyStr)
  | 0, _ => .error .notJson
  | fuel + 1, text => do
      match ← scanChar text with
      | (none, rest) => return ([], rest)
      | (some code, rest) =>
          let (codes, rest) ← scanChars fuel rest
          return (code :: codes, rest)

/-- A string, after its opening quote. -/
def scanString (text : PyStr) : Except LoadsFailure (PyStr × PyStr) := scanChars text.length text

/-- `[0-9]`. -/
def isDigit (code : ℕ) : Bool := 48 ≤ code && code ≤ 57

/-- The whole part of a number: 0 or digits that do not start with 0. -/
def wholePart? : PyStr → Option (PyStr × PyStr)
  | 48 :: rest => some ([48], rest)
  | text => if text.takeWhile isDigit = [] then none
      else some (text.takeWhile isDigit, text.dropWhile isDigit)

/-- The fraction of a number, with its point; empty where there is none. -/
def fraction : PyStr → PyStr × PyStr
  | 46 :: rest =>
      if rest.takeWhile isDigit = [] then ([], 46 :: rest)
      else (46 :: rest.takeWhile isDigit, rest.dropWhile isDigit)
  | text => ([], text)

/-- The sign of an exponent, if it has one, and the rest. -/
def exponentSign : PyStr → PyStr × PyStr
  | 43 :: rest => ([43], rest)
  | 45 :: rest => ([45], rest)
  | text => ([], text)

/-- The exponent of a number, with its letter; empty where there is none. -/
def exponent (text : PyStr) : PyStr × PyStr :=
  match text with
  | letter :: rest =>
      if letter = 101 || letter = 69 then
        let (sign, digits) := exponentSign rest
        if digits.takeWhile isDigit = [] then ([], text)
        else (letter :: sign ++ digits.takeWhile isDigit, digits.dropWhile isDigit)
      else ([], text)
  | [] => ([], [])

/-- The minus sign of a number, if it has one, and the rest. -/
def numberSign : PyStr → PyStr × PyStr
  | 45 :: rest => ([45], rest)
  | text => ([], text)

/-- The longest number at the front of a text: its whole part with its sign, its fraction and its
exponent, and the rest. -/
def matchNumber? (text : PyStr) : Option (PyStr × PyStr × PyStr) := do
  let (sign, unsigned) := numberSign text
  let (whole, rest) ← wholePart? unsigned
  let (point, rest) := fraction rest
  let (power, rest) := exponent rest
  return (sign ++ whole, point ++ power, rest)

/-- The number the digits write. -/
def naturalOf (digits : PyStr) : ℕ := digits.foldl (fun value code => value * 10 + (code - 48)) 0

/-- `int` of a text; none where it has too many digits. -/
def intOf? (limits : JsonLimits) (text : PyStr) : Option ℤ :=
  let (sign, digits) := numberSign text
  if limits.digits < digits.length then none
  else some (if sign = [] then (naturalOf digits : ℤ) else -(naturalOf digits : ℤ))

/-- A number: an integer without a fraction and an exponent, else a float. -/
def scanNumber (floats : FloatText F) (limits : JsonLimits) (text : PyStr) :
    Except LoadsFailure (Json F × PyStr) :=
  match matchNumber? text with
  | none => .error .notJson
  | some (whole, [], rest) =>
      match intOf? limits whole with
      | none => .error .notJson
      | some number => .ok (.int number, rest)
  | some (whole, more, rest) => .ok (.float (floats.parse (whole ++ more)), rest)

/-- Reads a value at the front of a text. -/
abbrev Scanner (F : Type) := PyStr → Except LoadsFailure (Json F × PyStr)

/-- The members of an object from a key on, up to the closing brace. -/
def scanMembers (inner : Scanner F) :
    ℕ → List (PyStr × Json F) → PyStr → Except LoadsFailure (List (PyStr × Json F) × PyStr)
  | fuel + 1, members, 34 :: text => do
      let (key, rest) ← scanString text
      match skipSpace rest with
      | 58 :: rest =>
          let (value, rest) ← inner (skipSpace rest)
          match skipSpace rest with
          | 125 :: rest => return (Dict.assign members key value, rest)
          | 44 :: rest => scanMembers inner fuel (Dict.assign members key value) (skipSpace rest)
          | _ => throw .notJson
      | _ => throw .notJson
  | _, _, _ => .error .notJson

/-- An object, after its opening brace. -/
def scanObject (inner : Scanner F) (text : PyStr) :
    Except LoadsFailure (List (PyStr × Json F) × PyStr) :=
  match skipSpace text with
  | 125 :: rest => .ok ([], rest)
  | text => scanMembers inner text.length [] text

/-- The items of an array from a value on, up to the closing bracket. -/
def scanItems (inner : Scanner F) : ℕ → PyStr → Except LoadsFailure (List (Json F) × PyStr)
  | 0, _ => .error .notJson
  | fuel + 1, text => do
      let (value, rest) ← inner text
      match skipSpace rest with
      | 93 :: rest => return ([value], rest)
      | 44 :: rest =>
          let (items, rest) ← scanItems inner fuel (skipSpace rest)
          return (value :: items, rest)
      | _ => throw .notJson

/-- An array, after its opening bracket. -/
def scanArray (inner : Scanner F) (text : PyStr) : Except LoadsFailure (List (Json F) × PyStr) :=
  match skipSpace text with
  | 93 :: rest => .ok ([], rest)
  | text => scanItems inner text.length text

/-- The text after a word it begins with. -/
def afterWord? (word : String) (text : PyStr) : Option PyStr :=
  if (pyStr word).isPrefixOf text then some (text.drop (pyStr word).length) else none

/-- One of the words of JSON at the front of a text. -/
def scanWord (floats : FloatText F) (constant : JsonConstant → Option LoadsFailure) (text : PyStr) :
    Option (Except LoadsFailure (Json F × PyStr)) :=
  let named (name : JsonConstant) : Option (Except LoadsFailure (Json F × PyStr)) :=
    (afterWord? name.text text).map fun rest =>
      match constant name with
      | some failure => .error failure
      | none => .ok (.float (floats.ofConstant name), rest)
  ((afterWord? "null" text).map fun rest => .ok (.null, rest)).or <|
    ((afterWord? "true" text).map fun rest => .ok (.bool true, rest)).or <|
      ((afterWord? "false" text).map fun rest => .ok (.bool false, rest)).or <|
        (named .nan).or <| (named .infinity).or (named .minusInfinity)

/-- A value at the front of a text, with the scanner for what it contains given. -/
def scanWith (floats : FloatText F) (limits : JsonLimits)
    (constant : JsonConstant → Option LoadsFailure) (inner : Option (Scanner F)) : Scanner F
  | 34 :: rest => do
      let (text, rest) ← scanString rest
      return (.str text, rest)
  | 123 :: rest =>
      match inner with
      | none => .error .recursion
      | some inner => do
          let (members, rest) ← scanObject inner rest
          return (.object members, rest)
  | 91 :: rest =>
      match inner with
      | none => .error .recursion
      | some inner => do
          let (items, rest) ← scanArray inner rest
          return (.array items, rest)
  | text => (scanWord floats constant text).getD (scanNumber floats limits text)

/-- A value that is nested at most `depth` deep. -/
def scanOnce (floats : FloatText F) (limits : JsonLimits)
    (constant : JsonConstant → Option LoadsFailure) : ℕ → Scanner F
  | 0 => scanWith floats limits constant none
  | depth + 1 => scanWith floats limits constant (some (scanOnce floats limits constant depth))

/-- `json.loads`, where reading a constant may raise. -/
def loads (floats : FloatText F) (limits : JsonLimits)
    (constant : JsonConstant → Option LoadsFailure) (text : PyStr) : Except LoadsFailure (Json F) := do
  let (value, rest) ← scanOnce floats limits constant limits.readDepth (skipSpace text)
  if skipSpace rest = [] then return value else throw .notJson

end JsonText
