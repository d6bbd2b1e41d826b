import CryptoRadar.Lib.Checked
import Mathlib.Data.Int.Notation
import Mathlib.Data.Nat.Notation

/-!
# Floats of Python

The operations a program makes on floats, over any type that has them. A division by zero, a
logarithm or a square root outside its domain and a power that overflows raise; everything
else returns. `PyFloat` is the arithmetic and the comparisons, `PyMath` adds the functions of
`math`. No law is assumed: what is proved over `PyFloat` holds of doubles with every rounding
they have, and of exact numbers too.

`min` and `max` are those of Python: the first of equal arguments.
-/

set_option autoImplicit false

/-- What arithmetic raises: `ZeroDivisionError`, `ValueError` and `OverflowError`. -/
inductive NumberError where
  | zeroDivision
  | domain
  | overflow
  deriving DecidableEq, Repr

class PyFloat (F : Type) extends OfScientific F, Add F, Sub F, Mul F where
  /-- `a / b`. -/
  divide : F → F → Except NumberError F
  /-- `a < b`. -/
  lt : F → F → Bool
  /-- `a <= b`. -/
  le : F → F → Bool
  /-- `a == b`. -/
  eq : F → F → Bool
  abs : F → F
  isFinite : F → Bool
  /-- `float(n)`; an integer may be too large. -/
  ofInt : ℤ → Except NumberError F
  /-- `sum(values)`, whose additions are compensated. -/
  sum : List F → F

class PyMath (F : Type) extends PyFloat F where
  log : F → Except NumberError F
  sqrt : F → Except NumberError F
  /-- `x ** 2`. -/
  square : F → Except NumberError F
  repr : F → String

/- A type that has the operations of Mathlib too keeps those. -/
attribute [instance(100)] PyFloat.toOfScientific PyFloat.toAdd PyFloat.toSub PyFloat.toMul

namespace PyFloat

variable {F : Type} [PyFloat F]

/-- A small whole number as a float. -/
def ofCount (count : ℕ) : F := OfScientific.ofScientific count false 0

/-- `max(first, second)`. -/
def larger (first second : F) : F := if lt first second then second else first

/-- `min(first, second)`. -/
def smaller (first second : F) : F := if lt second first then second else first

/-- `max(values)`; of no value, `ValueError`. -/
def maximum : List F → Except NumberError F
  | [] => .error .domain
  | value :: rest => .ok (rest.foldl larger value)

/-- `min(values)`; of no value, `ValueError`. -/
def minimum : List F → Except NumberError F
  | [] => .error .domain
  | value :: rest => .ok (rest.foldl smaller value)

end PyFloat

/-! ## Doubles -/

/-- One addition of a compensated sum: the sum and what rounding has lost of it. -/
def Float.addCompensated (total : Float × Float) (value : Float) : Float × Float :=
  let next := total.1 + value
  let lost := if value.abs ≤ total.1.abs then (total.1 - next) + value else (value - next) + total.1
  (next, total.2 + lost)

/-- `sum` of Python 3.12. -/
def Float.sumCompensated (values : List Float) : Float :=
  let (total, lost) := values.foldl Float.addCompensated (0.0, 0.0)
  if lost != 0.0 && lost.isFinite then total + lost else total

/-- The doubles are floats of Python; only their text (`repr`) has another form here. -/
instance : PyMath Float where
  divide first second := if second == 0.0 then .error .zeroDivision else .ok (first / second)
  lt first second := first < second
  le first second := first ≤ second
  eq first second := first == second
  abs := Float.abs
  isFinite := Float.isFinite
  ofInt number :=
    let value := Float.ofInt number
    if value.isFinite then .ok value else .error .overflow
  sum := Float.sumCompensated
  log value := if value ≤ 0.0 then .error .domain else .ok value.log
  sqrt value := if value < 0.0 then .error .domain else .ok value.sqrt
  square value :=
    let power := value * value
    if power.isInf && value.isFinite then .error .overflow else .ok power
  repr := toString

/-- The last `count` items. -/
def List.lastN {α : Type} (items : List α) (count : ℕ) : List α := items.drop (items.length - count)
