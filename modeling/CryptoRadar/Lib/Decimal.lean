import CryptoRadar.Lib.Checked
import Mathlib.Data.Int.Notation
import Mathlib.Data.Nat.Notation

/-!
# Decimal arithmetic

Finite decimal floating-point numbers and their arithmetic in a context, as the General
Decimal Arithmetic specification and `decimal` of Python have it: a sign, a whole coefficient
and an exponent, so numbers of the same value may differ in their exponent. An operation
computes the exact result and fits it to the context: at most `precision` digits, rounded,
and an exponent in range. Overflow, division by zero and invalid operations raise; a result
that is rounded or too small does not.

Comparisons are exact and need no context.
-/

set_option autoImplicit false

/-- A finite decimal number. -/
structure Decimal where
  negative : Bool
  coeff : ℕ
  exponent : ℤ
  deriving DecidableEq, Repr

/-- The signals that are trapped. -/
inductive DecimalError where
  | invalidOperation
  | divisionByZero
  | overflow
  deriving DecidableEq, Repr

/-- The rounding modes in use. -/
inductive Rounding where
  | halfEven
  | floor
  | ceiling
  deriving DecidableEq, Repr

/-- A context with the exponents of Python's default context. -/
structure DecimalContext where
  precision : ℕ
  rounding : Rounding
  deriving DecidableEq, Repr

namespace DecimalContext

/-- The greatest exponent of a context. -/
def emax : ℤ := 999999

def emin : ℤ := -999999

/-- The least exponent of a result. -/
def etiny (context : DecimalContext) : ℤ := emin - context.precision + 1

/-- The greatest exponent of a result with all digits in use. -/
def etop (context : DecimalContext) : ℤ := emax - context.precision + 1

/-- The context of a thread that has set none. -/
def default : DecimalContext := ⟨28, .halfEven⟩

end DecimalContext

/-- The number of decimal digits, one for zero. -/
def digitCount (number : ℕ) : ℕ := (Nat.toDigits 10 number).length

/-- Round up the quotient of a division by `unit` with this quotient and remainder. -/
def Rounding.roundsUp (rounding : Rounding) (negative : Bool) (quotient remainder unit : ℕ) : Bool :=
  match rounding with
  | .halfEven => unit < 2 * remainder || (2 * remainder = unit && quotient % 2 = 1)
  | .floor => negative && remainder ≠ 0
  | .ceiling => !negative && remainder ≠ 0

namespace Decimal

def ofNat (number : ℕ) : Decimal := ⟨false, number, 0⟩

def ofInt (number : ℤ) : Decimal := ⟨number < 0, number.natAbs, 0⟩

/-- The whole number that the coefficient is at a lower exponent. -/
def scaled (number : Decimal) (exponent : ℤ) : ℤ :=
  let size : ℤ := number.coeff * 10 ^ (number.exponent - exponent).toNat
  if number.negative then -size else size

/-- Both numbers as whole numbers at the lower exponent of the two. -/
def aligned (first second : Decimal) : ℤ × ℤ :=
  let exponent := min first.exponent second.exponent
  (first.scaled exponent, second.scaled exponent)

/-- `first < second`. -/
def lt (first second : Decimal) : Bool := (aligned first second).1 < (aligned first second).2

/-- `first <= second`. -/
def le (first second : Decimal) : Bool := (aligned first second).1 ≤ (aligned first second).2

/-- `first == second`. -/
def eq (first second : Decimal) : Bool := (aligned first second).1 = (aligned first second).2

/-- `number.is_zero()`. -/
def isZero (number : Decimal) : Bool := number.coeff = 0

/-- The sign changed, without a context. -/
def copyNegate (number : Decimal) : Decimal := { number with negative := !number.negative }

/-- The coefficient with `drop` digits rounded away. -/
def roundedCoeff (rounding : Rounding) (negative : Bool) (coeff drop : ℕ) : ℕ :=
  let unit := 10 ^ drop
  let quotient := coeff / unit
  if rounding.roundsUp negative quotient (coeff % unit) unit then quotient + 1 else quotient

/-- A number with digits to drop, rounded at the exponent; a carry to one more digit moves the
exponent. -/
def roundTo (context : DecimalContext) (number : Decimal) (exponent : ℤ) :
    Except DecimalError Decimal :=
  let drop := (exponent - number.exponent).toNat
  let coeff := roundedCoeff context.rounding number.negative number.coeff drop
  let carried := context.precision < digitCount coeff
  let coeff := if carried then coeff / 10 else coeff
  let exponent := if carried then exponent + 1 else exponent
  if context.etop < exponent then .error .overflow else .ok ⟨number.negative, coeff, exponent⟩

/-- The exact result fitted to the context. -/
def fit (context : DecimalContext) (number : Decimal) : Except DecimalError Decimal :=
  if number.coeff = 0 then
    .ok { number with
      exponent := min (max number.exponent context.etiny) DecimalContext.emax }
  else
    let lowest := digitCount number.coeff + number.exponent - context.precision
    if context.etop < lowest then .error .overflow
    else
      let lowest := max lowest context.etiny
      if number.exponent < lowest then roundTo context number lowest else .ok number

/-- The number of a signed coefficient; a zero has the sign of an exact sum. -/
def ofSigned (context : DecimalContext) (bothNegative : Bool) (coeff exponent : ℤ) : Decimal :=
  if coeff = 0 then ⟨bothNegative || context.rounding = .floor, 0, exponent⟩
  else ⟨coeff < 0, coeff.natAbs, exponent⟩

/-- `first + second`: the sum of two zeros is negative if both are. -/
def add (context : DecimalContext) (first second : Decimal) : Except DecimalError Decimal :=
  let (left, right) := aligned first second
  let exponent := min first.exponent second.exponent
  if first.isZero && second.isZero then
    fit context ⟨(first.negative && second.negative) ||
      (first.negative != second.negative && context.rounding = .floor), 0, exponent⟩
  else fit context (ofSigned context false (left + right) exponent)

/-- `first - second`. -/
def sub (context : DecimalContext) (first second : Decimal) : Except DecimalError Decimal :=
  add context first second.copyNegate

/-- `first * second`. -/
def mul (context : DecimalContext) (first second : Decimal) : Except DecimalError Decimal :=
  fit context ⟨first.negative != second.negative, first.coeff * second.coeff,
    first.exponent + second.exponent⟩

/-- An exact quotient without trailing zeros beyond the exponent of the division. -/
def dropZeros : ℕ → ℕ → ℤ → ℤ → ℕ × ℤ
  | 0, coeff, exponent, _ => (coeff, exponent)
  | turns + 1, coeff, exponent, ideal =>
      if exponent < ideal ∧ coeff % 10 = 0 then dropZeros turns (coeff / 10) (exponent + 1) ideal
      else (coeff, exponent)

/-- The quotient of two whole numbers to `precision` and more digits. A remainder leaves its mark
in the last digit, so rounding is that of the exact quotient. -/
def quotient (context : DecimalContext) (first second : Decimal) : ℕ × ℤ :=
  let shift : ℤ := (digitCount second.coeff : ℤ) - digitCount first.coeff + context.precision + 1
  let dividend := first.coeff * 10 ^ shift.toNat
  let divisor := second.coeff * 10 ^ (-shift).toNat
  let coeff := dividend / divisor
  let exponent := first.exponent - second.exponent - shift
  if dividend % divisor = 0 then
    dropZeros (digitCount coeff) coeff exponent (first.exponent - second.exponent)
  else (if coeff % 5 = 0 then coeff + 1 else coeff, exponent)

/-- `first / second`. -/
def div (context : DecimalContext) (first second : Decimal) : Except DecimalError Decimal :=
  if second.isZero then
    if first.isZero then .error .invalidOperation else .error .divisionByZero
  else
    let negative := first.negative != second.negative
    if first.isZero then fit context ⟨negative, 0, first.exponent - second.exponent⟩
    else
      let (coeff, exponent) := quotient context first second
      fit context ⟨negative, coeff, exponent⟩

/-- `-number`: a zero loses its sign, except where rounding is down. -/
def neg (context : DecimalContext) (number : Decimal) : Except DecimalError Decimal :=
  if number.isZero && context.rounding ≠ .floor then fit context { number with negative := false }
  else fit context number.copyNegate

/-- The exponent of the first digit. -/
def adjusted (number : Decimal) : ℤ := digitCount number.coeff + number.exponent - 1

/-- The number at another exponent: with zeros added or with digits rounded away. -/
def rescale (rounding : Rounding) (number : Decimal) (exponent : ℤ) : Decimal :=
  if exponent ≤ number.exponent then
    ⟨number.negative, number.coeff * 10 ^ (number.exponent - exponent).toNat, exponent⟩
  else
    ⟨number.negative, roundedCoeff rounding number.negative number.coeff
      (exponent - number.exponent).toNat, exponent⟩

/-- `number.quantize(other, rounding, context)` for an `other` of this exponent. -/
def quantize (context : DecimalContext) (rounding : Rounding) (number : Decimal) (exponent : ℤ) :
    Except DecimalError Decimal :=
  if exponent < context.etiny || DecimalContext.emax < exponent then .error .invalidOperation
  else if number.isZero then .ok ⟨number.negative, 0, exponent⟩
  else if DecimalContext.emax < number.adjusted ||
      context.precision < number.adjusted - exponent + 1 then .error .invalidOperation
  else
    let result := rescale rounding number exponent
    if DecimalContext.emax < result.adjusted || context.precision < digitCount result.coeff then
      .error .invalidOperation
    else .ok result

/-- `number.to_integral_value(rounding)`. -/
def toIntegralValue (rounding : Rounding) (number : Decimal) : Decimal :=
  if 0 ≤ number.exponent then number else rescale rounding number 0

/-- `int(number)`: toward zero. -/
def toInt (number : Decimal) : ℤ :=
  let size : ℤ := number.coeff * 10 ^ number.exponent.toNat / 10 ^ (-number.exponent).toNat
  if number.negative then -size else size

/-- `number.normalize(context)`: fitted, without trailing zeros. -/
def normalize (context : DecimalContext) (number : Decimal) : Except DecimalError Decimal := do
  let fitted ← fit context number
  if fitted.isZero then return ⟨fitted.negative, 0, 0⟩
  else
    let (coeff, exponent) :=
      dropZeros (digitCount fitted.coeff) fitted.coeff fitted.exponent DecimalContext.emax
    return ⟨fitted.negative, coeff, exponent⟩

/-! ## Texts -/

/-- The digits with a point after `place` of them. -/
def pointed (digits : List Char) (place : ℤ) : String :=
  if place ≤ 0 then "0." ++ String.ofList (List.replicate (-place).toNat '0' ++ digits)
  else
    let whole := digits.take place.toNat ++ List.replicate (place.toNat - digits.length) '0'
    let rest := digits.drop place.toNat
    String.ofList whole ++ (if rest.isEmpty then "" else "." ++ String.ofList rest)

/-- The sign of the text. -/
def signText (number : Decimal) : String := if number.negative then "-" else ""

/-- `format(number, "f")`: plain digits, no exponent. -/
def plainText (number : Decimal) : String :=
  if number.isZero && 0 < number.exponent then signText number ++ "0"
  else
    let digits := Nat.toDigits 10 number.coeff
    signText number ++ pointed digits (digits.length + number.exponent)

/-- `str(number)`: plain digits near the point, else one digit, the others and an exponent. -/
def text (number : Decimal) : String :=
  let digits := Nat.toDigits 10 number.coeff
  let left : ℤ := digits.length + number.exponent
  if number.exponent ≤ 0 && -6 < left then signText number ++ pointed digits left
  else
    let scale := left - 1
    let mark := if left = 1 then "" else "E" ++ (if 0 ≤ scale then "+" else "-") ++
      String.ofList (Nat.toDigits 10 scale.natAbs)
    signText number ++ pointed digits 1 ++ mark

/-- The number that its plain text reads as: the same, with no positive exponent. -/
def throughText (number : Decimal) : Decimal :=
  if 0 < number.exponent then ⟨number.negative, number.coeff * 10 ^ number.exponent.toNat, 0⟩
  else number

/-- What `Decimal(text)` reads. -/
inductive Reading where
  | finite (number : Decimal)
  | infiniteOrNan
  | notANumber
  deriving DecidableEq, Repr

/-- The greatest exponent a decimal can have at all. -/
def maxExponent : ℤ := 999999999999999999

/-- A number of a text, when its exponent can be held. -/
def held (negative : Bool) (coeff : ℕ) (exponent : ℤ) : Reading :=
  let number : Decimal := ⟨negative, coeff, exponent⟩
  let top := if coeff = 0 then exponent else number.adjusted
  if top ≤ maxExponent && -maxExponent - maxExponent + 1 ≤ exponent then .finite number
  else .notANumber

/-- The number that decimal digits count, in order. -/
def ofDigits (digits : List ℕ) : ℕ := digits.foldl (fun total digit => total * 10 + digit) 0

section Reading

variable (digit? : Char → Option ℕ)

/-- The leading digits, and what follows them. -/
def spanDigits : List Char → List ℕ × List Char
  | [] => ([], [])
  | char :: rest =>
      match digit? char with
      | some digit => (digit :: (spanDigits rest).1, (spanDigits rest).2)
      | none => ([], char :: rest)

/-- The exponent after the digits: nothing, or `e`, a sign and digits to the end. -/
def readExponent : List Char → Option ℤ
  | [] => some 0
  | mark :: rest =>
      if mark ≠ 'e' ∧ mark ≠ 'E' then none
      else
        let negative := rest.head? = some '-'
        let (digits, rest) := spanDigits digit?
          (if rest.head? = some '-' ∨ rest.head? = some '+' then rest.tail else rest)
        if digits.isEmpty || !rest.isEmpty then none
        else some (if negative then -(ofDigits digits : ℤ) else ofDigits digits)

/-- Digits with at most one point, and an exponent. -/
def readNumber (negative : Bool) (chars : List Char) : Reading :=
  let (whole, rest) := spanDigits digit? chars
  let (fraction, rest) :=
    if rest.head? = some '.' then spanDigits digit? rest.tail else ([], rest)
  if whole.isEmpty && fraction.isEmpty then .notANumber
  else
    match readExponent digit? rest with
    | none => .notANumber
    | some exponent => held negative (ofDigits (whole ++ fraction)) (exponent - fraction.length)

/-- `inf`, `infinity`, or `nan` with an `s` before and digits after it. -/
def isSpecial (chars : List Char) : Bool :=
  let lower := chars.map Char.toLower
  let quiet := if lower.head? = some 's' then lower.tail else lower
  lower = "inf".toList || lower = "infinity".toList ||
    (quiet.take 3 = "nan".toList && (spanDigits digit? (quiet.drop 3)).2.isEmpty)

/-- `Decimal(text)` for a text without white space at its ends: underscores are passed over. -/
def read (given : String) : Reading :=
  let chars := given.toList.filter (· ≠ '_')
  let negative := chars.head? = some '-'
  let unsigned := if chars.head? = some '-' ∨ chars.head? = some '+' then chars.tail else chars
  if isSpecial digit? unsigned then .infiniteOrNan else readNumber digit? negative unsigned

end Reading

end Decimal
