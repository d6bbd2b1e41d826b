import CryptoRadar.Lib.Moment
import CryptoRadar.Lib.Text

/-!
# What a program takes from its runtime

The parts of the Python runtime that rest on tables or on another specification: the hash, the
decimal digits and the printable characters of the Unicode database, and the reader of ISO-8601
times. They are parameters; what is built on them is written out: the `repr` of a text and the
JSON text of a string.
-/

set_option autoImplicit false

/-- A time with its offset from UTC, in microseconds. -/
structure AwareTime where
  moment : Moment
  offset : ℤ
  deriving DecidableEq

/-- What the code uses of Python about texts. -/
structure Runtime where
  /-- `hashlib.sha256(text.encode()).hexdigest()`. -/
  sha256Hex : String → String
  /-- The value of a decimal digit of any script. -/
  digit? : Char → Option ℕ
  /-- `str.isprintable` of one character. -/
  isPrintable : Char → Bool
  /-- `datetime.fromisoformat`, when the text has an offset. -/
  parseAware : String → Option AwareTime

def singleQuote : Char := Char.ofNat 39

def doubleQuote : Char := Char.ofNat 34

/-- Lower case hexadecimal digits, at least `width` of them. -/
def hexDigits (width number : ℕ) : String :=
  let digits := Nat.toDigits 16 number
  String.ofList (List.replicate (width - digits.length) '0' ++ digits)

namespace Runtime

variable (runtime : Runtime)

/-- One character of a `repr` between the quotes. -/
def reprChar (quote char : Char) : String :=
  if char = quote || char = '\\' then String.ofList ['\\', char]
  else if char = '\t' then "\\t"
  else if char = '\n' then "\\n"
  else if char = '\r' then "\\r"
  else if runtime.isPrintable char then String.ofList [char]
  else if char.toNat < 0x100 then "\\x" ++ hexDigits 2 char.toNat
  else if char.toNat < 0x10000 then "\\u" ++ hexDigits 4 char.toNat
  else "\\U" ++ hexDigits 8 char.toNat

/-- `repr(text)`: double quotes when the text has single quotes only. -/
def reprText (text : String) : String :=
  let quote := if text.toList.contains singleQuote && !text.toList.contains doubleQuote
    then doubleQuote else singleQuote
  String.ofList [quote] ++ String.join (text.toList.map (runtime.reprChar quote)) ++
    String.ofList [quote]

end Runtime

def jsonChar (char : Char) : String :=
  if char = doubleQuote then String.ofList ['\\', doubleQuote]
  else if char = '\\' then "\\\\"
  else if char = '\n' then "\\n"
  else if char = '\r' then "\\r"
  else if char = '\t' then "\\t"
  else if char.toNat = 8 then "\\b"
  else if char.toNat = 12 then "\\f"
  else if 32 ≤ char.toNat && char.toNat < 127 then String.ofList [char]
  else if char.toNat < 0x10000 then "\\u" ++ hexDigits 4 char.toNat
  else
    -- a character beyond the first plane is a pair of surrogates
    let beyond := char.toNat - 0x10000
    "\\u" ++ hexDigits 4 (0xD800 + beyond / 0x400) ++ "\\u" ++ hexDigits 4 (0xDC00 + beyond % 0x400)

/-- `json.dumps(text)`. -/
def jsonQuoted (text : String) : String :=
  String.ofList [doubleQuote] ++ String.join (text.toList.map jsonChar) ++
    String.ofList [doubleQuote]
