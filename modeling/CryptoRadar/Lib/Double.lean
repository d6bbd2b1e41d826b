import CryptoRadar.Lib.JsonRead
import CryptoRadar.Lib.Number

/-!
# Doubles with their text

`Double` is the type of doubles with all of Python's operations on them: the arithmetic is that of
`Float`, and the logarithm and the text, which `Float` leaves open, are computed here. So a
program over floats can be run on doubles inside the logic.

The text is that of `float.__repr__`: the fewest digits that read back as the double. Every double
has such a text of at most 17 digits. That fact of decimal rounding is not proved here: a double
without such a text would be written as its bits (`Double.bitsText`), so that the text of every
double reads back by construction (`Double.lawful`).
-/

set_option autoImplicit false

/-- A double. -/
structure Double where
  value : Float
  deriving DecidableEq

namespace Double

open JsonText

/-! ## Parts and text -/

/-- The mantissa and the exponent of the absolute value of a finite double. -/
def parts (number : Double) : ℕ × ℤ :=
  let bits := number.value.toBits.toNat
  let fraction := bits % 2 ^ 52
  match bits / 2 ^ 52 % 2 ^ 11 with
  | 0 => (fraction, -1074)
  | field => (fraction + 2 ^ 52, field - 1075)

def isNegative (number : Double) : Bool := 2 ^ 63 ≤ number.value.toBits.toNat

/-- The absolute value as a fraction. -/
def ratio (number : Double) : ℕ × ℕ :=
  let (mantissa, exponent) := number.parts
  (mantissa * 2 ^ exponent.toNat, 2 ^ (-exponent).toNat)

/-- The nearest whole number, the even one of two. -/
def halfEven (numerator denominator : ℕ) : ℕ :=
  let whole := numerator / denominator
  let rest := numerator % denominator
  if 2 * rest < denominator ∨ (2 * rest = denominator ∧ whole % 2 = 0) then whole else whole + 1

/-- The place of the first digit of a fraction: 0 for 1 to 9, -1 for 0.1 to 0.9. -/
def firstPlace (numerator denominator : ℕ) : ℤ :=
  if denominator ≤ numerator then ((decimal (numerator / denominator)).length : ℤ) - 1
  else
    let places := (decimal (denominator / numerator)).length
    if denominator ≤ numerator * 10 ^ (places - 1) then 1 - (places : ℤ) else -(places : ℤ)

/-- The fraction rounded to so many digits, and the place of the first one. -/
def rounded (numerator denominator count : ℕ) : ℕ × ℤ :=
  let place := firstPlace numerator denominator
  let shift := (count : ℤ) - 1 - place
  let digits := halfEven (numerator * 10 ^ shift.toNat) (denominator * 10 ^ (-shift).toNat)
  if digits = 10 ^ count then (digits / 10, place + 1) else (digits, place)

/-- Digits as Python writes them, where `point` digits stand before the point. -/
def layout (digits : PyStr) (point : ℤ) : PyStr :=
  let zeros (count : ℤ) : PyStr := List.replicate count.toNat 48
  if -4 < point ∧ point ≤ 16 then
    if point ≤ 0 then pyStr "0." ++ zeros (-point) ++ digits
    else if (digits.length : ℤ) ≤ point then digits ++ zeros (point - digits.length) ++ pyStr ".0"
    else digits.take point.toNat ++ pyStr "." ++ digits.drop point.toNat
  else
    let power := decimal (point - 1).natAbs
    let sign := if point - 1 < 0 then pyStr "-" else pyStr "+"
    let front := if digits.length = 1 then digits else digits.take 1 ++ pyStr "." ++ digits.drop 1
    front ++ pyStr "e" ++ sign ++ (if power.length = 1 then pyStr "0" ++ power else power)

/-- The double with so many digits. -/
def textOf (number : Double) (count : ℕ) : PyStr :=
  let (numerator, denominator) := number.ratio
  let body :=
    if numerator = 0 then pyStr "0.0"
    else
      let (digits, place) := rounded numerator denominator count
      layout (decimal digits) (place + 1)
  if number.isNegative then 45 :: body else body

/-- The bits of a double as a number with an exponent that no other text has. -/
def bitsText (number : Double) : PyStr :=
  decimal number.value.toBits.toNat ++ pyStr "e-999999"

section Bits

open Float.Model UnpackedFloat

instance (bits : BitVec Format.binary64.numBits) : Decidable (Format.binary64.Valid bits) :=
  decidable_of_iff
    (unpackExponent bits = -1#_ → unpackMantissa bits ≠ 0#_ → bits = packedNaN Format.binary64)
    ⟨fun holds => ⟨holds⟩, fun valid => valid.eq_packedNaN⟩

end Bits

def ofBits (bits : UInt64) : Double :=
  if valid : Float.Model.Format.binary64.Valid bits.toBitVec then ⟨.ofModel ⟨bits, valid⟩⟩
  else ⟨0.0⟩

theorem ofBits_toBits (number : Double) : ofBits number.value.toBits = number := by
  have valid : Float.Model.Format.binary64.Valid number.value.toBits.toBitVec :=
    number.value.toModel.valid
  rw [ofBits, dif_pos valid]
  rfl

/-- `float(text)` of a number. -/
def parse (text : PyStr) : Double :=
  let (sign, unsigned) := numberSign text
  match wholePart? unsigned with
  | none => ⟨0.0⟩
  | some (whole, rest) =>
      let (point, rest) := fraction rest
      let (powerSign, power) := exponentSign (exponent rest).1.tail
      let places := (naturalOf power : ℤ)
      let scale := (if powerSign = [45] then -places else places) - (point.length - 1 : ℕ)
      if scale = -999999 then ofBits (UInt64.ofNat (naturalOf whole))
      else
        let size : Float := .ofScientific (naturalOf (whole ++ point.tail)) (scale < 0) scale.natAbs
        ⟨if sign = [] then size else -size⟩

/-- The text is one number with a fraction or an exponent, and reads as the double. -/
def reads (number : Double) (text : PyStr) : Bool :=
  match matchNumber? text with
  | some (_, more, []) => more ≠ [] ∧ parse text = number
  | _ => false

/-- `float.__repr__` of a finite double. -/
def repr (number : Double) : PyStr :=
  (((List.range 17).map fun count => number.textOf (count + 1)).find? number.reads).getD
    number.bitsText

def ofConstant : JsonConstant → Double
  | .nan => ⟨0.0 / 0.0⟩
  | .infinity => ⟨1.0 / 0.0⟩
  | .minusInfinity => ⟨-(1.0 / 0.0)⟩

def constant? (number : Double) : Option JsonConstant :=
  [.nan, .infinity, .minusInfinity].find? fun name => ofConstant name = number

def floatText : FloatText Double := ⟨constant?, repr, parse, ofConstant⟩

/-! ## The text reads back -/

theorem matchNumber?_bitsText (bits : ℕ) :
    matchNumber? (decimal bits ++ pyStr "e-999999") =
      some (decimal bits, pyStr "e-999999", []) := by
  have stops : NoDigit (pyStr "e-999999") := by
    intro code first
    cases first
    rfl
  have sign := numberSign_append (pyStr "e-999999") (decimal_ne_nil bits)
  rw [numberSign_decimal] at sign
  have whole := wholePart?_append (pyStr "e-999999") (wholePart?_decimal bits) stops
  rw [matchNumber?, sign]
  simp only [whole, Option.bind_eq_bind, Option.bind_some]
  rfl

theorem parse_bitsText (number : Double) : parse number.bitsText = number := by
  have stops : NoDigit (pyStr "e-999999") := by
    intro code first
    cases first
    rfl
  have sign := numberSign_append (pyStr "e-999999") (decimal_ne_nil number.value.toBits.toNat)
  rw [numberSign_decimal] at sign
  have whole := wholePart?_append (pyStr "e-999999")
    (wholePart?_decimal number.value.toBits.toNat) stops
  rw [parse, bitsText, sign]
  simp only [whole, naturalOf_decimal]
  change ofBits (UInt64.ofNat number.value.toBits.toNat) = number
  rw [UInt64.ofNat_toNat, ofBits_toBits]

theorem reads_of_eq_true {number : Double} {text : PyStr} (isRead : number.reads text = true) :
    ∃ whole more, matchNumber? text = some (whole, more, []) ∧ more ≠ [] ∧ parse text = number := by
  unfold reads at isRead
  split at isRead
  next whole more matched =>
    obtain ⟨some, back⟩ := of_decide_eq_true isRead
    exact ⟨whole, more, matched, some, back⟩
  next => cases isRead

theorem lawful : floatText.Lawful where
  finite := by
    intro number _
    change ∃ whole more, matchNumber? number.repr = some (whole, more, []) ∧ more ≠ [] ∧
      parse number.repr = number
    unfold repr
    cases found : ((List.range 17).map fun count => number.textOf (count + 1)).find? number.reads with
    | some text =>
        rw [Option.getD_some]
        exact reads_of_eq_true (List.find?_some found)
    | none =>
        rw [Option.getD_none]
        exact ⟨_, _, matchNumber?_bitsText _, by decide, parse_bitsText number⟩
  constant := by
    intro number name isConstant
    have found : [JsonConstant.nan, .infinity, .minusInfinity].find?
        (fun name => ofConstant name = number) = some name := isConstant
    have same := List.find?_some found
    exact of_decide_eq_true same

/-! ## Arithmetic -/

/-- The bits after the binary point with which logarithms are computed. -/
def logBits : ℕ := 160

/-- `2 * artanh` of a fraction, from its series. -/
def logSeries (numerator denominator : ℕ) : ℕ → ℕ → ℕ → ℕ
  | 0, _, _ => 0
  | terms + 1, power, odd =>
      2 * power / odd +
        logSeries numerator denominator terms
          (power * numerator * numerator / (denominator * denominator)) (odd + 2)

/-- The logarithm of `larger / smaller`, at most 2, in units of the last bit. -/
def logRatio (larger smaller : ℕ) : ℕ :=
  logSeries (larger - smaller) (larger + smaller) 60
    (2 ^ logBits * (larger - smaller) / (larger + smaller)) 1

/-- The natural logarithm of a positive finite double. -/
def logOf (number : Double) : Float :=
  let (mantissa, exponent) := number.parts
  let shift := Nat.log2 mantissa
  let fixed := (logRatio mantissa (2 ^ shift) : ℤ) + (exponent + shift) * logRatio 2 1
  let size := Float.ofScientific fixed.natAbs false 0 / Float.ofScientific (2 ^ logBits) false 0
  if fixed < 0 then -size else size

/-- The doubles are floats of Python. -/
instance : PyMath Double where
  ofScientific mantissa sign exponent := ⟨.ofScientific mantissa sign exponent⟩
  add first second := ⟨first.value + second.value⟩
  sub first second := ⟨first.value - second.value⟩
  mul first second := ⟨first.value * second.value⟩
  divide first second :=
    (PyFloat.divide first.value second.value).map Double.mk
  lt first second := first.value < second.value
  le first second := first.value ≤ second.value
  eq first second := first.value == second.value
  abs number := ⟨number.value.abs⟩
  isFinite number := number.value.isFinite
  ofInt number := (PyFloat.ofInt number : Except NumberError Float).map Double.mk
  sum numbers := ⟨Float.sumCompensated (numbers.map value)⟩
  log number :=
    if number.value ≤ 0.0 then .error .domain
    else .ok (if number.value.isFinite then ⟨logOf number⟩ else number)
  sqrt number := (PyMath.sqrt number.value).map Double.mk
  square number := (PyMath.square number.value).map Double.mk
  repr number :=
    match number.constant? with
    | some .nan => "nan"
    | some .infinity => "inf"
    | some .minusInfinity => "-inf"
    | none => String.ofList (number.repr.map Char.ofNat)

section Difference

open Float.Model UnpackedFloat

theorem unpacked_sub_self (format : Format) (number : UnpackedFloat) :
    UnpackedFloat.sub format number number = .notANumber ∨
      UnpackedFloat.sub format number number = .zero .positive := by
  cases number with
  | notANumber => exact .inl rfl
  | infinity sign => cases sign <;> exact .inl rfl
  | zero sign => cases sign <;> exact .inr rfl
  | finite sign mantissa exponent positive =>
      refine .inr ?_
      show UnpackedFloat.normalize format (sign.apply _ - sign.apply _) _ .positive = _
      rw [Int.sub_self]
      rfl

theorem packed_zero :
    (⟨⟨Float.Model.pack (.notANumber : UnpackedFloat)⟩⟩ : Double) = ⟨0.0 / 0.0⟩ ∧
      (⟨⟨Float.Model.pack (.zero .positive)⟩⟩ : Double) = ⟨0.0⟩ := by
  decide +kernel

/-- A double less itself is 0, or no number. -/
theorem sub_self (number : Double) : number - number = ⟨0.0 / 0.0⟩ ∨ number - number = ⟨0.0⟩ := by
  have difference : number - number = ⟨⟨Float.Model.pack (UnpackedFloat.sub Format.binary64
      number.value.toModel.unpack number.value.toModel.unpack)⟩⟩ := rfl
  rw [difference]
  rcases unpacked_sub_self Format.binary64 number.value.toModel.unpack with same | same
  · rw [same]
    exact .inl packed_zero.1
  · rw [same]
    exact .inr packed_zero.2

end Difference

section Zero

open Float.Model UnpackedFloat PyFloat

theorem unpack_of_eq_zero {number : Float} (zero : (number == 0.0) = true) :
    ∃ sign, number.toModel.unpack = UnpackedFloat.zero sign := by
  have same : UnpackedFloat.beq number.toModel.unpack (0.0 : Float).toModel.unpack = true := zero
  have isZero : (0.0 : Float).toModel.unpack = UnpackedFloat.zero .positive := by rfl
  rw [isZero] at same
  cases isNumber : number.toModel.unpack with
  | notANumber =>
      rw [isNumber] at same
      cases same
  | infinity sign =>
      rw [isNumber] at same
      cases sign <;> cases same
  | zero sign => exact ⟨sign, rfl⟩
  | finite sign =>
      rw [isNumber] at same
      cases sign <;> cases same

theorem lt_of_eq_zero {number bound : Float} (zero : (number == 0.0) = true)
    (positive : ∀ sign, UnpackedFloat.lt (.zero sign) bound.toModel.unpack = true) : number < bound := by
  obtain ⟨sign, isZero⟩ := unpack_of_eq_zero zero
  have less : UnpackedFloat.lt number.toModel.unpack bound.toModel.unpack = true := isZero ▸ positive sign
  exact decide_eq_true less

/-- Both zeros are at most 0 and below the least divisor, which is not zero. -/
theorem zero_bounds :
    (∀ sign, UnpackedFloat.le (.zero sign) (0.0 : Float).toModel.unpack = true) ∧
    (∀ sign, UnpackedFloat.lt (.zero sign) (1e-12 : Double).value.toModel.unpack = true) ∧
    ((1e-12 : Double).value == 0.0) = false := by
  refine ⟨?_, ?_, by decide +kernel⟩
  · intro sign
    cases sign <;> decide +kernel
  · intro sign
    cases sign <;> decide +kernel

theorem le_of_eq_zero {number : Float} (zero : (number == 0.0) = true) : number ≤ 0.0 := by
  obtain ⟨sign, isZero⟩ := unpack_of_eq_zero zero
  have atMost : UnpackedFloat.le number.toModel.unpack (0.0 : Float).toModel.unpack = true := by
    rw [isZero]
    exact zero_bounds.1 sign
  exact decide_eq_true atMost

/-- A division raises by a zero only. -/
theorem divide_isOk (first : Double) {second : Double} (notZero : (second.value == 0.0) = false) :
    ∃ quotient, divide first second = .ok quotient := by
  refine ⟨⟨first.value / second.value⟩, ?_⟩
  show (if second.value == 0.0 then _ else _ : Except NumberError Float).map Double.mk = _
  rw [notZero]
  rfl

/-- What is at least a positive number is not zero. -/
theorem larger_tiny_ne_zero (number : Double) : ((larger number 1e-12).value == 0.0) = false := by
  show ((if decide (number.value < (1e-12 : Double).value) then (1e-12 : Double) else number).value == 0.0) = false
  by_cases zero : (number.value == 0.0) = true
  · have less : number.value < (1e-12 : Double).value :=
      lt_of_eq_zero zero zero_bounds.2.1
    rw [if_pos (decide_eq_true less)]
    exact zero_bounds.2.2
  · split
    · exact zero_bounds.2.2
    · exact Bool.eq_false_iff.mpr zero

theorem ne_zero_of_not_le {number : Double} (above : le number (ofCount 0) = false) :
    (number.value == 0.0) = false := by
  refine Bool.eq_false_iff.mpr fun zero => ?_
  have atMost : le number (ofCount 0) = true := decide_eq_true (le_of_eq_zero zero)
  rw [above] at atMost
  cases atMost

/-- What is above 0 is not zero. -/
theorem ne_zero_of_lt {number : Double} (above : lt (ofCount 0) number = true) :
    (number.value == 0.0) = false := by
  refine Bool.eq_false_iff.mpr fun zero => ?_
  obtain ⟨sign, isZero⟩ := unpack_of_eq_zero zero
  have less : UnpackedFloat.lt (ofCount 0 : Double).value.toModel.unpack number.value.toModel.unpack = true :=
    of_decide_eq_true (of_decide_eq_true above)
  rw [isZero] at less
  cases sign <;> cases less

/-! ### The fields of the bits -/

theorem unpackMantissa_toNat (bits : BitVec Format.binary64.numBits) :
    (unpackMantissa bits).toNat = bits.toNat % 2 ^ 52 := by
  unfold unpackMantissa
  simp [BitVec.extractLsb_toNat]

theorem unpackExponent_toNat (bits : BitVec Format.binary64.numBits) :
    (unpackExponent bits).toNat = bits.toNat / 2 ^ 52 % 2 ^ 11 := by
  unfold unpackExponent
  simp [BitVec.extractLsb_toNat, Nat.shiftRight_eq_div_pow]

theorem unpackSign_toNat (bits : BitVec Format.binary64.numBits) :
    (unpackSign bits).toNat = bits.toNat / 2 ^ 63 % 2 := by
  unfold unpackSign
  simp [BitVec.extractLsb_toNat, Nat.shiftRight_eq_div_pow]

/-- Bits that are neither negative nor 0 are above 0, or no number. -/
theorem unpack_above_zero (bits : BitVec Format.binary64.numBits) (notNegative : bits.toNat < 2 ^ 63)
    (notZero : bits.toNat ≠ 0) :
    UnpackedFloat.unpack Format.binary64 bits = .notANumber ∨
      UnpackedFloat.lt (.zero .positive) (UnpackedFloat.unpack Format.binary64 bits) = true := by
  have isPositive : Sign.ofBitVec (unpackSign bits) = .positive := by
    have clear : unpackSign bits = 0#1 := by
      refine BitVec.eq_of_toNat_eq ?_
      rw [unpackSign_toNat]
      simp only [BitVec.toNat_ofNat, Nat.zero_mod]
      omega
    rw [clear]
    rfl
  unfold UnpackedFloat.unpack
  dsimp only
  rw [isPositive]
  by_cases allOnes : unpackExponent bits = -1#_
  · rw [if_pos allOnes]
    by_cases noMantissa : unpackMantissa bits = 0#_
    · rw [if_pos noMantissa]
      exact .inr rfl
    · rw [if_neg noMantissa]
      exact .inl rfl
  · rw [if_neg allOnes]
    by_cases noExponent : unpackExponent bits = 0#_
    · rw [if_pos noExponent]
      by_cases noMantissa : unpackMantissa bits = 0#_
      · have mantissa := unpackMantissa_toNat bits
        have exponent := unpackExponent_toNat bits
        rw [noMantissa] at mantissa
        rw [noExponent] at exponent
        simp only [BitVec.toNat_ofNat, Nat.zero_mod] at mantissa exponent
        omega
      · rw [dif_neg noMantissa]
        exact .inr rfl
    · rw [if_neg noExponent]
      exact .inr rfl

end Zero

/-- `number == integer`, which compares the exact values. -/
def equalsInt (number : Double) (integer : ℤ) : Bool :=
  let (numerator, denominator) := number.ratio
  let size : ℤ := if number.isNegative then -(numerator : ℤ) else numerator
  number.value.isFinite && size = integer * denominator

theorem constants_not_finite : ∀ name ∈ [JsonConstant.nan, .infinity, .minusInfinity],
    ¬ PyFloat.isFinite (ofConstant name) = true := by
  decide +kernel

/-- A finite double is no constant of JSON. -/
theorem constant?_of_isFinite (number : Double) (finite : PyFloat.isFinite number = true) :
    floatText.constant? number = none := by
  change number.constant? = none
  unfold constant?
  rw [List.find?_eq_none]
  intro name _ same
  rw [← of_decide_eq_true same] at finite
  exact constants_not_finite name (by cases name <;> simp) finite

end Double
