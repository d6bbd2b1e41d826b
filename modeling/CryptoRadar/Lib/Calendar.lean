import CryptoRadar.Lib.Moment
import Mathlib.Order.Lattice
import Mathlib.Order.MinMax

/-!
# Days of the proleptic Gregorian calendar

A date is the number of its day, counted from 0001-01-01 as day 1, up to 9999-12-31. Days are
added as whole numbers, and a sum outside this range does not exist (`plusDays?`), as in
`datetime.date`. `ymd` and `ofYmd?` convert to and from year, month and day, `isoformat` and
`fromIsoformat?` to and from text: the three ISO 8601 forms of a day, with and without
dashes. `utcText` is the text of a moment with its microseconds.

`plusDays?_eq_some` is the only arithmetic fact about dates the rest needs.
-/

set_option autoImplicit false

/-- A day from 0001-01-01 (day 1) to 9999-12-31 (day 3652059). -/
structure Date where
  ordinal : ℕ
  lower : 1 ≤ ordinal
  upper : ordinal ≤ 3652059
  deriving DecidableEq

namespace Date

@[ext] theorem ext {first second : Date} (same : first.ordinal = second.ordinal) :
    first = second := by
  cases first
  cases second
  cases same
  rfl

theorem ordinal_injective : Function.Injective ordinal := fun _ _ same => ext same

instance : LinearOrder Date := LinearOrder.lift' ordinal ordinal_injective

instance : Std.LawfulOrderMax Date where
  max_eq_or := max_choice
  max_le_iff _ _ _ := max_le_iff

instance : Std.LawfulOrderMin Date where
  min_eq_or := min_choice
  le_min_iff _ _ _ := le_min_iff

theorem lt_iff {first second : Date} : first < second ↔ first.ordinal < second.ordinal := Iff.rfl

theorem le_iff {first second : Date} : first ≤ second ↔ first.ordinal ≤ second.ordinal := Iff.rfl

/-! ## Arithmetic -/

/-- The day with this number, if there is one. -/
def ofOrdinal? (ordinal : ℤ) : Option Date :=
  if range : 1 ≤ ordinal ∧ ordinal ≤ 3652059 then
    some ⟨ordinal.toNat, by omega, by omega⟩
  else none

/-- `day + timedelta(days=count)`; none where Python raises `OverflowError`. -/
def plusDays? (day : Date) (count : ℤ) : Option Date := ofOrdinal? (day.ordinal + count)

/-- `(day - other).days`. -/
def daysSince (day other : Date) : ℤ := (day.ordinal : ℤ) - other.ordinal

/-- Monday is 0. -/
def weekday (day : Date) : ℕ := (day.ordinal + 6) % 7

theorem plusDays?_eq_some {day later : Date} {count : ℤ} :
    day.plusDays? count = some later ↔ (later.ordinal : ℤ) = day.ordinal + count := by
  unfold plusDays? ofOrdinal?
  have lower := later.lower
  have upper := later.upper
  constructor
  · intro found
    split at found
    next range =>
      cases found
      simp only
      omega
    next => cases found
  · intro sum
    rw [dif_pos (by omega)]
    exact congrArg some (ext (by simp only; omega))

/-! ## Years, months and days -/

/-- The leap years of the calendar. -/
def isLeap (year : ℕ) : Bool := year % 4 = 0 && (year % 100 ≠ 0 || year % 400 = 0)

/-- Days before the month in a year that is not a leap year. -/
def daysBeforeMonth (month : ℕ) : ℕ :=
  [0, 0, 31, 59, 90, 120, 151, 181, 212, 243, 273, 304, 334].getD month 0

def daysInMonth (year month : ℕ) : ℕ :=
  if month = 2 ∧ isLeap year then 29
  else [0, 31, 28, 31, 30, 31, 30, 31, 31, 30, 31, 30, 31].getD month 0

/-- Days before the first of January of the year. -/
def daysBeforeYear (year : ℕ) : ℕ :=
  let past := year - 1
  past * 365 + past / 4 - past / 100 + past / 400

/-- `date.toordinal`. -/
def ordinalOf (year month day : ℕ) : ℕ :=
  daysBeforeYear year + daysBeforeMonth month + (if 2 < month ∧ isLeap year then 1 else 0) + day

/-- `date(year, month, day)`; none where Python raises `ValueError`. -/
def ofYmd? (year month day : ℕ) : Option Date :=
  if 1 ≤ year ∧ year ≤ 9999 ∧ 1 ≤ month ∧ month ≤ 12 ∧ 1 ≤ day ∧ day ≤ daysInMonth year month then
    ofOrdinal? (ordinalOf year month day)
  else none

/-- The year, the month and the day: first the 400-year cycle, then the century, the four
years and the year in it, then the month from an estimate that is at most one too large. -/
def ymd (date : Date) : ℕ × ℕ × ℕ :=
  let left := date.ordinal - 1
  let cycles := left / 146097
  let left := left % 146097
  let centuries := left / 36524
  let left := left % 36524
  let fours := left / 1461
  let left := left % 1461
  let years := left / 365
  let left := left % 365
  let year := cycles * 400 + 1 + centuries * 100 + fours * 4 + years
  if years = 4 ∨ centuries = 4 then (year - 1, 12, 31)
  else
    let leap := if years = 3 ∧ (fours ≠ 24 ∨ centuries = 3) then 1 else 0
    let before (month : ℕ) : ℕ := daysBeforeMonth month + (if 2 < month then leap else 0)
    let estimate := (left + 50) / 32
    let month := if before estimate ≤ left then estimate else estimate - 1
    (year, month, left - before month + 1)

/-! ## Text -/

/-- The number in decimal, at least `width` digits. -/
def padded (width number : ℕ) : String :=
  let digits := Nat.toDigits 10 number
  String.ofList (List.replicate (width - digits.length) '0' ++ digits)

/-- `date.isoformat`. -/
def isoformat (date : Date) : String :=
  let (year, month, day) := date.ymd
  padded 4 year ++ "-" ++ padded 2 month ++ "-" ++ padded 2 day

/-- The number that `count` decimal digits at the front of the text write, and the rest. -/
def parseDigits : ℕ → ℕ → List ℕ → Option (ℕ × List ℕ)
  | 0, value, text => some (value, text)
  | _ + 1, _, [] => none
  | count + 1, value, code :: rest =>
      if 48 ≤ code ∧ code ≤ 57 then parseDigits count (value * 10 + (code - 48)) rest else none

/-- The text without a dash that must stand at its front when `dashed`. -/
def dropDash (dashed : Bool) (text : List ℕ) : Option (List ℕ) :=
  match dashed, text with
  | false, text => some text
  | true, 45 :: rest => some rest
  | true, _ => none

/-- The Monday of week 1 of the ISO year, as a day number. -/
def isoWeekOne (year : ℕ) : ℤ :=
  let firstDay : ℤ := ordinalOf year 1 1
  let firstWeekday := (firstDay + 6) % 7
  let monday := firstDay - firstWeekday
  if 3 < firstWeekday then monday + 7 else monday

/-- A day of an ISO week; week 53 only in the long years. -/
def ofIsoWeek? (year week day : ℕ) : Option Date :=
  let januaryFirst := (ordinalOf year 1 1 + 6) % 7
  let long := januaryFirst = 3 ∨ (januaryFirst = 2 ∧ isLeap year)
  if 1 ≤ year ∧ year ≤ 9999 ∧ 1 ≤ week ∧ (week ≤ 52 ∨ (week = 53 ∧ long)) ∧ 1 ≤ day ∧ day ≤ 7 then
    ofOrdinal? (isoWeekOne year + ((week : ℤ) - 1) * 7 + (day - 1))
  else none

/-- `date.fromisoformat`: `YYYY-MM-DD`, `YYYY-Www-D` and `YYYY-Www`, with or without dashes;
none where Python raises `ValueError`. -/
def fromIsoformat? (text : List ℕ) : Option Date := do
  if text.length ≠ 7 ∧ text.length ≠ 8 ∧ text.length ≠ 10 then none
  let (year, rest) ← parseDigits 4 0 text
  let dashed : Bool := rest.head? = some 45
  let rest ← dropDash dashed rest
  if rest.head? = some 87 then
    let (week, rest) ← parseDigits 2 0 rest.tail
    if rest = [] then ofIsoWeek? year week 1
    else
      let rest ← dropDash dashed rest
      let (day, rest) ← parseDigits 1 0 rest
      if rest = [] then ofIsoWeek? year week day else none
  else
    let (month, rest) ← parseDigits 2 0 rest
    let rest ← dropDash dashed rest
    let (day, rest) ← parseDigits 2 0 rest
    if rest = [] then ofYmd? year month day else none

end Date

/-- `YYYY-MM-DDTHH:MM:SS.ffffff+00:00`. -/
def utcText (moment : Moment) : String :=
  let day := ((Date.ofOrdinal? (moment.day + 719163)).map Date.isoformat).getD ""
  let micros := (moment.micros % Moment.seconds 86400).toNat
  let seconds := micros / 1000000
  day ++ "T" ++ Date.padded 2 (seconds / 3600) ++ ":" ++ Date.padded 2 (seconds / 60 % 60) ++ ":" ++
    Date.padded 2 (seconds % 60) ++ "." ++ Date.padded 6 (micros % 1000000) ++ "+00:00"
