import CryptoRadar.Lib.Double
import CryptoRadar.Lib.Moment
import Mathlib.Algebra.Order.Floor.Ring
import Mathlib.Data.Rat.Floor
import Mathlib.Tactic.Linarith
import Mathlib.Tactic.Positivity

/-!
# Differences of times

A difference is a number of microseconds of at most 999999999 days (`Timedelta`). A result
outside that range raises; what is inside is exact, except where a difference is made of a
float or divided: then it is rounded to the nearest microsecond, the even one of two
(`roundHalfEven`).

`ofSeconds` makes a difference of a number of seconds the way the runtime does it. The whole
seconds count exactly; the fraction is multiplied by a million as a float, so it may be rounded
once more before it is rounded to a microsecond.
-/

set_option autoImplicit false

/-- The nearest whole number, the even one of two. -/
def roundHalfEven (number : ℚ) : ℤ :=
  let below := ⌊number⌋
  let rest := number - below
  if rest < 1 / 2 ∨ (rest = 1 / 2 ∧ below % 2 = 0) then below else below + 1

theorem abs_roundHalfEven_sub_le (number : ℚ) : |(roundHalfEven number : ℚ) - number| ≤ 1 / 2 := by
  have floor_le := Int.floor_le number
  have lt_floor := Int.lt_floor_add_one number
  rw [abs_le]
  unfold roundHalfEven
  simp only
  split
  next down =>
    have rest : number - ⌊number⌋ ≤ 1 / 2 := by
      rcases down with less | ⟨equal, _⟩
      · exact less.le
      · exact equal.le
    constructor <;> linarith
  next up =>
    have rest : 1 / 2 ≤ number - ⌊number⌋ := not_lt.mp fun less => up (.inl less)
    push_cast
    constructor <;> linarith

theorem roundHalfEven_nonneg {number : ℚ} (nonneg : 0 ≤ number) : 0 ≤ roundHalfEven number := by
  have floor : 0 ≤ ⌊number⌋ := Int.floor_nonneg.mpr nonneg
  unfold roundHalfEven
  simp only
  split <;> omega

@[simp] theorem roundHalfEven_intCast (whole : ℤ) : roundHalfEven whole = whole := by
  simp [roundHalfEven]

/-- The value of a finite double. -/
def Double.toRat (number : Double) : ℚ :=
  let (numerator, denominator) := number.ratio
  if number.isNegative then -(numerator / denominator) else numerator / denominator

theorem Double.toBits_ne_zero {number : Double} (notZero : number.toRat ≠ 0) :
    number.value.toBits.toNat ≠ 0 := by
  intro zero
  refine notZero ?_
  have empty : number.ratio.1 = 0 := by
    unfold ratio parts
    rw [zero]
    rfl
  unfold toRat
  simp only [empty, Nat.cast_zero, zero_div, neg_zero, ite_self]

/-- A finite double of a positive value is above 0. -/
theorem Double.lt_of_toRat_pos {number : Double} (finite : PyFloat.isFinite number = true)
    (positive : 0 < number.toRat) : PyFloat.lt (PyFloat.ofCount 0) number = true := by
  have isFinite : Float.Model.UnpackedFloat.isFinite number.value.toModel.unpack = true := finite
  have notNegative : number.value.toBits.toNat < 2 ^ 63 := by
    by_contra large
    have negative : number.isNegative = true := decide_eq_true (not_lt.mp large)
    refine absurd positive (not_lt.mpr ?_)
    simp only [toRat, negative, if_true, neg_nonpos]
    positivity
  rcases unpack_above_zero number.value.toModel.toBits.toBitVec notNegative (toBits_ne_zero positive.ne') with
    noNumber | above
  · have same : number.value.toModel.unpack = .notANumber := noNumber
    rw [same] at isFinite
    cases isFinite
  · have zero : (PyFloat.ofCount 0 : Double).value.toModel.unpack = .zero .positive := by rfl
    have less : Float.Model.UnpackedFloat.lt (PyFloat.ofCount 0 : Double).value.toModel.unpack
        number.value.toModel.unpack = true := zero ▸ above
    exact decide_eq_true (decide_eq_true less)

/-- What arithmetic on times raises: `ValueError`, `OverflowError` and `TypeError`. -/
inductive TimeError where
  | value
  | overflow
  | type
  deriving DecidableEq, Repr

/-- The microseconds of -999999999 days. -/
def Timedelta.least : ℤ := -86399999913600000000

/-- The last microsecond of 999999999 days. -/
def Timedelta.greatest : ℤ := 86399999999999999999

/-- A difference of two times, in microseconds. -/
structure Timedelta where
  micros : ℤ
  inRange : Timedelta.least ≤ micros ∧ micros ≤ Timedelta.greatest
  deriving DecidableEq

namespace Timedelta

@[ext] theorem ext {first second : Timedelta} (equal : first.micros = second.micros) :
    first = second := by
  cases first
  cases second
  cases equal
  rfl

theorem fiveMinutes_inRange : Timedelta.least ≤ 300000000 ∧ 300000000 ≤ Timedelta.greatest := by
  decide

/-- The difference of so many microseconds, where there is one. -/
def checked (micros : ℤ) : Except TimeError Timedelta :=
  if within : least ≤ micros ∧ micros ≤ greatest then .ok ⟨micros, within⟩ else .error .overflow

theorem checked_eq_ok {micros : ℤ} {difference : Timedelta} :
    checked micros = .ok difference ↔ difference.micros = micros := by
  unfold checked
  split
  next within =>
    constructor
    · intro equal
      cases equal
      rfl
    · intro equal
      exact congrArg Except.ok (Timedelta.ext equal.symm)
  next outside =>
    constructor
    · intro equal
      cases equal
    · intro equal
      exact absurd (equal ▸ difference.inRange) outside

/-- `later - earlier` of two moments. -/
def between (later earlier : Moment) : Timedelta where
  micros := later.micros - earlier.micros
  inRange := by
    have first := later.inRange
    have second := earlier.inRange
    unfold Moment.least Moment.greatest at first second
    unfold least greatest
    omega

def add (first second : Timedelta) : Except TimeError Timedelta :=
  checked (first.micros + second.micros)

def sub (first second : Timedelta) : Except TimeError Timedelta :=
  checked (first.micros - second.micros)

def abs (difference : Timedelta) : Except TimeError Timedelta := checked |difference.micros|

/-- `difference / 2`. -/
def half (difference : Timedelta) : Except TimeError Timedelta :=
  checked (roundHalfEven (difference.micros / 2))

/-- `difference * factor`, of the exact value of the float. -/
def scale (difference : Timedelta) (factor : ℚ) : Except TimeError Timedelta :=
  checked (roundHalfEven (difference.micros * factor))

/-- `timedelta(seconds=number)`. -/
def ofSeconds (number : Double) : Except TimeError Timedelta :=
  if number.value.isNaN then .error .value
  else if number.value.isInf then .error .overflow
  else
    let whole : ℤ := number.toRat.num.tdiv number.toRat.den
    let fraction : Float := number.value - Float.ofInt whole
    checked (roundHalfEven (whole * 1000000 + (Double.mk (1000000.0 * fraction)).toRat))

/-- `difference.total_seconds()`: the nearest float to the quotient. -/
def totalSeconds (difference : Timedelta) : Double :=
  let size := Float.ofScientific difference.micros.natAbs true 6
  ⟨if difference.micros < 0 then -size else size⟩

theorem add_eq_ok {first second total : Timedelta} :
    first.add second = .ok total ↔ total.micros = first.micros + second.micros := checked_eq_ok

theorem sub_eq_ok {first second total : Timedelta} :
    first.sub second = .ok total ↔ total.micros = first.micros - second.micros := checked_eq_ok

theorem abs_eq_ok {difference size : Timedelta} :
    difference.abs = .ok size ↔ size.micros = |difference.micros| := checked_eq_ok

/-- Twice the half differs from the whole by less than two microseconds. -/
theorem half_eq_ok {difference part : Timedelta} (halved : difference.half = .ok part) :
    |2 * part.micros - difference.micros| ≤ 1 := by
  have isRounded : part.micros = roundHalfEven (difference.micros / 2) := checked_eq_ok.mp halved
  have near := abs_roundHalfEven_sub_le ((difference.micros : ℚ) / 2)
  rw [← isRounded] at near
  have twice : |((2 * part.micros - difference.micros : ℤ) : ℚ)| ≤ 1 := by
    push_cast
    rw [abs_le] at near ⊢
    constructor <;> linarith [near.1, near.2]
  exact_mod_cast twice

theorem scale_nonneg {difference product : Timedelta} {factor : ℚ}
    (scaled : difference.scale factor = .ok product) (nonneg : 0 ≤ difference.micros)
    (positive : 0 ≤ factor) : 0 ≤ product.micros := by
  rw [checked_eq_ok.mp scaled]
  exact roundHalfEven_nonneg (by positivity)

example : (ofSeconds ⟨100.01 - 100.0⟩).toOption.map micros = some 10000 := by decide +kernel

end Timedelta

namespace Moment

/-- `moment + difference`, which raises where the calendar ends. -/
def shift (moment : Moment) (difference : Timedelta) : Except TimeError Moment :=
  match moment.plus? difference.micros with
  | some later => .ok later
  | none => .error .overflow

theorem shift_eq_ok {moment later : Moment} {difference : Timedelta} :
    moment.shift difference = .ok later ↔ later.micros = moment.micros + difference.micros := by
  rw [← plus?_eq_some]
  unfold shift
  cases moment.plus? difference.micros with
  | none => simp
  | some sum => simp

end Moment
