import CryptoRadar.Lib.Dict
import Mathlib.Algebra.Ring.Int.Defs
import Mathlib.Algebra.Ring.Nat
import Mathlib.Data.List.Lex

/-!
# JSON values as Python reads them

The values `json.loads` returns: a number without a fraction is an integer, any other number
a float, an object a dictionary. A string is the list of its code points, since an escaped
lone surrogate is a string of Python but no Unicode text. The type of floats is a parameter.

Python compares values across types: `True == 1` and `1.0 == 1`. `equalsInt` is that
comparison with an integer.

The encoder, the decoder and the hash are parameters (`Codec`). `Codec.Lawful` says what is
used of them: an encoded value is one line, the decoder reads an encoded object back, and the
strings it returns hold no surrogate pair, since it joins pairs.
-/

set_option autoImplicit false

universe u

abbrev Bytes := List UInt8

/-- A string of Python. -/
abbrev PyStr := List Nat

/-- Strings of Python are compared by their code points. -/
instance PyStr.lawfulBEq : LawfulBEq (List Nat) := inferInstance

def pyStr (text : String) : PyStr := text.toList.map Char.toNat

theorem pyStr_injective : Function.Injective pyStr := by
  intro first second same
  have sameChars := List.map_injective_iff.mpr (fun _ _ equal => Char.toNat_inj.mp equal) same
  exact String.toList_inj.mp sameChars

/-- The bytes of a text given in pieces. -/
def bytesOf (pieces : List String) : Bytes :=
  pieces.flatMap fun piece => piece.toUTF8.data.toList

/-- The code points of a text given in pieces. -/
def textOf (pieces : List String) : PyStr := pieces.flatMap pyStr

/-- No high surrogate with a low surrogate after it. -/
def PyStr.isJoined : PyStr → Bool
  | high :: low :: rest =>
      !(0xD800 ≤ high && high < 0xDC00 && 0xDC00 ≤ low && low < 0xE000) && PyStr.isJoined (low :: rest)
  | _ => true

/-- The values of a JSON text. -/
inductive Json (Float : Type u) where
  | null
  | bool (value : Bool)
  | int (value : Int)
  | float (value : Float)
  | str (text : PyStr)
  | array (items : List (Json Float))
  | object (members : List (PyStr × Json Float))

namespace Json

variable {Float : Type u}

/-- `value == number`, where the comparison of a float with an integer is given. -/
def equalsInt (floatEquals : Float → Int → Bool) (value : Json Float) (number : Int) : Bool :=
  match value with
  | .int other => other = number
  | .bool flag => (if flag then 1 else 0) = number
  | .float other => floatEquals other number
  | _ => false

/-- `value == text`. -/
def equalsStr (value : Json Float) (text : PyStr) : Bool :=
  match value with
  | .str other => other = text
  | _ => false

def str? : Json Float → Option PyStr
  | .str text => some text
  | _ => none

end Json

/-- Why `json.loads` does not return. A `constant` is a `NaN` or an `Infinity` that the caller
rejects. -/
inductive LoadsFailure where
  | notJson
  | recursion
  | constant (token : String)
  deriving DecidableEq, Repr

/-- The encoder, the decoder and the hash a file format rests on. -/
structure Codec (Float : Type u) where
  loads : Bytes → Except LoadsFailure (Json Float)
  dumps : Json Float → Option Bytes
  sha256Hex : Bytes → PyStr
  floatEquals : Float → Int → Bool

/-- What `json` promises of its encoder and decoder. -/
structure Codec.Lawful {Float : Type u} (codec : Codec Float) : Prop where
  oneLine : ∀ value text, codec.dumps value = some text → 10 ∉ text ∧ 13 ∉ text
  readsBack : ∀ members text, codec.dumps (.object members) = some text →
    (∀ member ∈ members, member.1.isJoined) → ∃ read, codec.loads text = .ok (.object read) ∧
      ∀ key value, value.isJoined → Dict.get? members key = some (.str value) →
        Dict.get? read key = some (.str value)
  joins : ∀ text read, codec.loads text = .ok (.object read) → ∀ key value,
    Dict.get? read key = some (.str value) → value.isJoined
