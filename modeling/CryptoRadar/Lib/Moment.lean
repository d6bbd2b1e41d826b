import Mathlib.Data.Int.Order.Basic
import Mathlib.Order.Basic
import Mathlib.Order.Lattice

/-!
# Moments of a bounded calendar

A moment is a number of microseconds from the Unix epoch, UTC, inside the range of a
calendar that runs from the year 1 to the year 9999. Adding a duration may leave the range;
then there is no sum (`plus?`). Moments are ordered as their microseconds are.

The hour and the day of a moment are its whole hours and whole days from the epoch, rounded
down, so they count the UTC hours and the UTC calendar days.
-/

set_option autoImplicit false

/-- The first microsecond of the year 1. -/
def Moment.least : Int := -62135596800000000

/-- The last microsecond of the year 9999. -/
def Moment.greatest : Int := 253402300799999999

/-- A UTC instant of the calendar, in microseconds from the epoch. -/
structure Moment where
  micros : Int
  inRange : Moment.least ≤ micros ∧ micros ≤ Moment.greatest
  deriving DecidableEq

namespace Moment

/-- The epoch is in the calendar. -/
theorem epoch_inRange : least ≤ 0 ∧ 0 ≤ greatest := by decide

/-- Microseconds of a number of seconds. -/
def seconds (count : Int) : Int := count * 1000000

theorem micros_injective : Function.Injective Moment.micros := by
  rintro ⟨first, _⟩ ⟨second, _⟩ equal
  cases equal
  rfl

instance : LinearOrder Moment := LinearOrder.lift' Moment.micros micros_injective

theorem le_iff {first second : Moment} : first ≤ second ↔ first.micros ≤ second.micros := Iff.rfl

theorem lt_iff {first second : Moment} : first < second ↔ first.micros < second.micros := by
  rw [lt_iff_le_not_ge, lt_iff_le_not_ge]
  exact Iff.rfl

@[ext] theorem ext {first second : Moment} (equal : first.micros = second.micros) :
    first = second :=
  micros_injective equal

/-- The moment `duration` microseconds later, when the calendar has it. -/
def plus? (moment : Moment) (duration : Int) : Option Moment :=
  if within : least ≤ moment.micros + duration ∧ moment.micros + duration ≤ greatest then
    some ⟨moment.micros + duration, within⟩
  else
    none

theorem plus?_eq_some {moment later : Moment} {duration : Int} :
    moment.plus? duration = some later ↔ later.micros = moment.micros + duration := by
  unfold plus?
  split
  next within =>
    constructor
    · intro equal
      cases equal
      rfl
    · intro equal
      exact congrArg some (Moment.ext equal.symm)
  next outside =>
    constructor
    · intro equal
      cases equal
    · intro equal
      exact absurd (equal ▸ later.inRange) outside

/-- A shorter duration has a sum where a longer one has. -/
theorem plus?_isSome_of_le {moment : Moment} {shorter longer : Int} (forward : 0 ≤ shorter)
    (le : shorter ≤ longer) (room : (moment.plus? longer).isSome) :
    (moment.plus? shorter).isSome := by
  unfold plus? at room ⊢
  split at room
  next within =>
    have start := moment.inRange
    rw [dif_pos ⟨by omega, by omega⟩]
    rfl
  next => cases room

/-- An earlier moment has a sum where a later one has. -/
theorem plus?_isSome_of_earlier {earlier later : Moment} {duration : Int} (forward : 0 ≤ duration)
    (le : earlier ≤ later) (room : (later.plus? duration).isSome) :
    (earlier.plus? duration).isSome := by
  unfold plus? at room ⊢
  split at room
  next within =>
    have start := earlier.inRange
    have order : earlier.micros ≤ later.micros := le
    rw [dif_pos ⟨by omega, by omega⟩]
    rfl
  next => cases room

/-- Whole UTC hours from the epoch. -/
def hour (moment : Moment) : Int := moment.micros / seconds 3600

/-- Whole UTC days from the epoch. -/
def day (moment : Moment) : Int := moment.micros / seconds 86400

end Moment
