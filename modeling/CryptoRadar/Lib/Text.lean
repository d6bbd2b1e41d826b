import Mathlib.Data.List.Basic

/-!
# Text with Unicode white space

The white space of Unicode that `str.strip` of Python removes, and the text left when it is
removed at both ends.
-/

set_option autoImplicit false

namespace Text

/-- A character `str.strip` removes. -/
def isSpace (char : Char) : Bool :=
  let code := char.toNat
  (9 ≤ code && code ≤ 13) || (28 ≤ code && code ≤ 32) || code == 0x85 || code == 0xA0 ||
    code == 0x1680 || (0x2000 ≤ code && code ≤ 0x200A) || code == 0x2028 || code == 0x2029 ||
    code == 0x202F || code == 0x205F || code == 0x3000

/-- The text without white space at its ends. -/
def strip (text : String) : String :=
  String.ofList (((text.toList.dropWhile isSpace).reverse.dropWhile isSpace).reverse)

/-- A control character: below the space, or the delete character. -/
def isControl (char : Char) : Bool := char.toNat < 32 || char.toNat == 127

/-- Text that has a first character, no white space at its ends, at most `limit` characters
and no control character. -/
def isPlain (limit : Nat) (text : String) : Bool :=
  !text.toList.isEmpty && strip text == text && text.length ≤ limit && !text.toList.any isControl

end Text
