import CryptoRadar.Lib.Calendar
import CryptoRadar.Lib.JsonTokens

/-!
# Days and their texts

The year, the month and the day of a date make the date (`ofYmd?_ymd`), and the text of a date
is read back as the date (`fromIsoformat?_isoformat`).

The number of a day is split into whole cycles of 400 years, centuries, periods of four years
and years (`Split`). The year of the split is the year of the day, but for the last day of a
period of four years or of a cycle, where there is one year too many.
-/

set_option autoImplicit false

namespace Date

open JsonText

/-! ## Months -/

/-- The month of a day of the year, counted from 0; `leap` is 1 in a leap year. -/
def monthOf (leap left : ℕ) : ℕ :=
  let estimate := (left + 50) / 32
  if daysBeforeMonth estimate + (if 2 < estimate then leap else 0) ≤ left then estimate
  else estimate - 1

/-- The days of the year before its month. -/
def beforeMonth (leap month : ℕ) : ℕ := daysBeforeMonth month + (if 2 < month then leap else 0)

theorem monthOf_spec : ∀ leap < 2, ∀ left < 365,
    1 ≤ monthOf leap left ∧ monthOf leap left ≤ 12 ∧ beforeMonth leap (monthOf leap left) ≤ left ∧
      left - beforeMonth leap (monthOf leap left) + 1 ≤
        if monthOf leap left = 2 ∧ leap = 1 then 29
        else [0, 31, 28, 31, 30, 31, 30, 31, 31, 30, 31, 30, 31].getD (monthOf leap left) 0 := by
  decide +kernel

/-! ## Years -/

/-- A day as whole cycles, centuries, periods of four years, years and days. -/
structure Split (date : Date) (cycles centuries fours years left : ℕ) : Prop where
  whole : date.ordinal = 146097 * cycles + 36524 * centuries + 1461 * fours + 365 * years + left + 1
  inYear : left < 365
  inCycle : centuries ≤ 4
  lastCentury : centuries = 4 → fours = 0 ∧ years = 0 ∧ left = 0
  inCentury : fours ≤ 24
  inFour : years ≤ 4
  lastYear : years = 4 → left = 0 ∧ fours ≤ 23

/-- The year before the one of the split ones. -/
def pastYears (cycles centuries fours years : ℕ) : ℕ :=
  cycles * 400 + centuries * 100 + fours * 4 + years

def leapOf (centuries fours years : ℕ) : ℕ :=
  if years = 3 ∧ (fours ≠ 24 ∨ centuries = 3) then 1 else 0

theorem exists_split (date : Date) : ∃ cycles centuries fours years left,
    Split date cycles centuries fours years left ∧ date.ymd =
      if years = 4 ∨ centuries = 4 then (pastYears cycles centuries fours years, 12, 31)
      else (pastYears cycles centuries fours years + 1, monthOf (leapOf centuries fours years) left,
        left - beforeMonth (leapOf centuries fours years)
          (monthOf (leapOf centuries fours years) left) + 1) := by
  have lower := date.lower
  let inCycle := (date.ordinal - 1) % 146097
  let inCentury := inCycle % 36524
  let inFour := inCentury % 1461
  have cycleBound : inCycle < 146097 := Nat.mod_lt _ (by decide)
  have centuryBound : inCentury < 36524 := Nat.mod_lt _ (by decide)
  have fourBound : inFour < 1461 := Nat.mod_lt _ (by decide)
  have cycleSum : 146097 * ((date.ordinal - 1) / 146097) + inCycle = date.ordinal - 1 := Nat.div_add_mod _ _
  have centurySum : 36524 * (inCycle / 36524) + inCentury = inCycle := Nat.div_add_mod _ _
  have fourSum : 1461 * (inCentury / 1461) + inFour = inCentury := Nat.div_add_mod _ _
  have yearSum : 365 * (inFour / 365) + inFour % 365 = inFour := Nat.div_add_mod _ _
  refine ⟨(date.ordinal - 1) / 146097, inCycle / 36524, inCentury / 1461, inFour / 365, inFour % 365,
    ⟨by omega, Nat.mod_lt _ (by decide), by omega, fun last => ⟨by omega, by omega, by omega⟩, by omega,
      by omega, fun last => ⟨by omega, by omega⟩⟩, ?_⟩
  unfold ymd pastYears
  dsimp only
  split
  next special =>
    have year : (date.ordinal - 1) / 146097 * 400 + 1 + inCycle / 36524 * 100 + inCentury / 1461 * 4 +
        inFour / 365 - 1 = (date.ordinal - 1) / 146097 * 400 + inCycle / 36524 * 100 +
          inCentury / 1461 * 4 + inFour / 365 := by
      omega
    exact Prod.ext year rfl
  next plain =>
    have year : (date.ordinal - 1) / 146097 * 400 + 1 + inCycle / 36524 * 100 + inCentury / 1461 * 4 +
        inFour / 365 = (date.ordinal - 1) / 146097 * 400 + inCycle / 36524 * 100 +
          inCentury / 1461 * 4 + inFour / 365 + 1 := by
      omega
    exact Prod.ext year rfl

theorem daysBeforeYear_succ (year : ℕ) :
    daysBeforeYear (year + 1) = year * 365 + year / 4 - year / 100 + year / 400 := rfl

theorem Split.daysBefore {date : Date} {cycles centuries fours years left : ℕ}
    (split : Split date cycles centuries fours years left) (plain : ¬ (years = 4 ∨ centuries = 4)) :
    daysBeforeYear (pastYears cycles centuries fours years + 1) =
      146097 * cycles + 36524 * centuries + 1461 * fours + 365 * years := by
  have centuryBound := split.inCycle
  have fourBound := split.inCentury
  have yearBound := split.inFour
  rw [daysBeforeYear_succ, pastYears]
  have quarters : (cycles * 400 + centuries * 100 + fours * 4 + years) / 4 =
      100 * cycles + 25 * centuries + fours := by
    omega
  have hundreds : (cycles * 400 + centuries * 100 + fours * 4 + years) / 100 =
      4 * cycles + centuries := by
    omega
  have cycle : (cycles * 400 + centuries * 100 + fours * 4 + years) / 400 = cycles := by
    omega
  rw [quarters, hundreds, cycle]
  omega

theorem Split.isLeap {date : Date} {cycles centuries fours years left : ℕ}
    (split : Split date cycles centuries fours years left) (_plain : ¬ (years = 4 ∨ centuries = 4)) :
    isLeap (pastYears cycles centuries fours years + 1) = true ↔
      leapOf centuries fours years = 1 := by
  have centuryBound := split.inCycle
  have fourBound := split.inCentury
  have yearBound := split.inFour
  unfold Date.isLeap pastYears leapOf
  simp only [Bool.and_eq_true, Bool.or_eq_true, decide_eq_true_eq, ite_eq_left_iff]
  omega

theorem leapOf_lt (centuries fours years : ℕ) : leapOf centuries fours years < 2 := by
  unfold leapOf
  split <;> decide

/-- The year, the month and the day of a date make the date. -/
theorem ofYmd?_ymd (date : Date) : ofYmd? date.ymd.1 date.ymd.2.1 date.ymd.2.2 = some date := by
  obtain ⟨cycles, centuries, fours, years, left, split, isYmd⟩ := exists_split date
  have upper := date.upper
  have whole := split.whole
  have leftBound := split.inYear
  have lower := date.lower
  have made : ∀ {year month day : ℕ}, 1 ≤ year → year ≤ 9999 → 1 ≤ month → month ≤ 12 → 1 ≤ day →
      day ≤ daysInMonth year month → ordinalOf year month day = date.ordinal →
      ofYmd? year month day = some date := by
    intro year month day yearLower yearUpper monthLower monthUpper dayLower dayUpper same
    unfold ofYmd? ofOrdinal?
    rw [if_pos ⟨yearLower, yearUpper, monthLower, monthUpper, dayLower, dayUpper⟩, same,
      dif_pos ⟨by omega, by omega⟩]
    exact congrArg some (ext (by simp))
  rw [isYmd]
  split_ifs with special
  · -- the last day of a year with 366 days
    dsimp only
    have bounds : cycles ≤ 24 := by omega
    obtain ⟨past, isPast⟩ : ∃ past, pastYears cycles centuries fours years = past + 1 := by
      refine ⟨pastYears cycles centuries fours years - 1, ?_⟩
      unfold pastYears
      omega
    have leap : Date.isLeap (past + 1) = true := by
      have centuryBound := split.inCycle
      rw [← isPast]
      unfold Date.isLeap pastYears
      simp only [Bool.and_eq_true, Bool.or_eq_true, decide_eq_true_eq]
      rcases special with isYear | isCentury
      · have last := split.lastYear isYear
        have lastCentury := split.lastCentury
        omega
      · have last := split.lastCentury isCentury
        omega
    have before : daysBeforeYear (past + 1) + 366 = date.ordinal := by
      rw [daysBeforeYear_succ]
      unfold pastYears at isPast
      rcases special with isYear | isCentury
      · have last := split.lastYear isYear
        have lastCentury := split.lastCentury
        have centuryBound := split.inCycle
        have quarters : past / 4 = 100 * cycles + 25 * centuries + fours := by
          omega
        have hundreds : past / 100 = 4 * cycles + centuries := by
          omega
        have cycle : past / 400 = cycles := by
          omega
        omega
      · have last := split.lastCentury isCentury
        omega
    rw [isPast]
    refine made (by omega) ?_ (by decide) (by decide) (by decide) ?_ ?_
    · unfold pastYears at isPast
      have centuryBound := split.inCycle
      have fourBound := split.inCentury
      have yearBound := split.inFour
      omega
    · unfold daysInMonth
      rw [if_neg (by omega)]
      decide
    · unfold ordinalOf
      rw [if_pos ⟨by decide, leap⟩, ← before]
      rfl
  · dsimp only
    have isLeap := split.isLeap special
    have daysBefore := split.daysBefore special
    obtain ⟨monthLower, monthUpper, before, dayUpper⟩ :=
      monthOf_spec _ (leapOf_lt centuries fours years) left leftBound
    have isTwo := leapOf_lt centuries fours years
    generalize leapOf centuries fours years = leap at *
    generalize monthOf leap left = month at *
    refine made (by omega) ?_ monthLower monthUpper (by omega) ?_ ?_
    · unfold pastYears
      have centuryBound := split.inCycle
      have fourBound := split.inCentury
      have yearBound := split.inFour
      omega
    · unfold daysInMonth
      simpa only [isLeap] using dayUpper
    · unfold ordinalOf
      rw [daysBefore]
      unfold beforeMonth at before ⊢
      by_cases late : 2 < month
      · by_cases isOne : leap = 1
        · rw [if_pos ⟨late, isLeap.mpr isOne⟩]
          rw [if_pos late] at before ⊢
          omega
        · rw [if_neg fun both => isOne (isLeap.mp both.2)]
          rw [if_pos late] at before ⊢
          omega
      · rw [if_neg fun both => late both.1]
        rw [if_neg late] at before ⊢
        omega

theorem ymd_lt (date : Date) : date.ymd.1 < 10000 ∧ date.ymd.2.1 < 100 ∧ date.ymd.2.2 < 100 := by
  have made := ofYmd?_ymd date
  unfold ofYmd? at made
  split at made
  next range =>
    have days : daysInMonth date.ymd.1 date.ymd.2.1 ≤ 31 := by
      have table : ∀ month ≤ 12, [0, 31, 28, 31, 30, 31, 30, 31, 31, 30, 31, 30, 31].getD month 0 ≤ 31 := by
        decide
      unfold daysInMonth
      split
      next => decide
      next => exact table _ (by omega)
    omega
  next => cases made

/-! ## Digits -/

theorem pyStr_append (first second : String) : pyStr (first ++ second) = pyStr first ++ pyStr second := by
  unfold pyStr
  rw [String.toList_append, List.map_append]

theorem parseDigits_append {codes : List ℕ} (digits : ∀ code ∈ codes, 48 ≤ code ∧ code ≤ 57) :
    ∀ (value : ℕ) (rest : List ℕ), parseDigits codes.length value (codes ++ rest) =
      some (codes.foldl (fun value code => value * 10 + (code - 48)) value, rest) := by
  induction codes with
  | nil =>
      intro value rest
      rfl
  | cons code codes hyp =>
      intro value rest
      rw [List.forall_mem_cons] at digits
      rw [List.length_cons, List.cons_append, parseDigits, if_pos digits.1, hyp digits.2,
        List.foldl_cons]

theorem pyStr_padded (width number : ℕ) : pyStr (padded width number) =
    List.replicate (width - (decimal number).length) 48 ++ decimal number := by
  simp [padded, pyStr, decimal]

theorem digits_padded (width number : ℕ) : ∀ code ∈ pyStr (padded width number),
    48 ≤ code ∧ code ≤ 57 := by
  intro code member
  rw [pyStr_padded, List.mem_append] at member
  rcases member with zero | digit
  · obtain rfl := List.eq_of_mem_replicate zero
    decide
  · have isDigit := isDigit_of_mem_decimal number code digit
    unfold JsonText.isDigit at isDigit
    simpa using isDigit

theorem naturalOf_padded (width number : ℕ) : naturalOf (pyStr (padded width number)) = number := by
  have zeros : ∀ count, List.foldl (fun value code : ℕ => value * 10 + (code - 48)) 0
      (List.replicate count 48) = 0 := by
    intro count
    induction count with
    | zero => rfl
    | succ count hyp =>
        rw [List.replicate_succ, List.foldl_cons]
        exact hyp
  rw [pyStr_padded, naturalOf, List.foldl_append, zeros]
  exact naturalOf_decimal number

theorem length_decimal_le {number width : ℕ} (positive : 0 < width) (small : number < 10 ^ width) :
    (decimal number).length ≤ width := by
  rw [decimal, List.length_map]
  exact (Nat.length_toDigits_le_iff (by decide) positive).mpr small

/-- A number that is written with so many digits is read with so many. -/
theorem parseDigits_padded {width number : ℕ} (positive : 0 < width) (small : number < 10 ^ width)
    (rest : List ℕ) :
    parseDigits width 0 (pyStr (padded width number) ++ rest) = some (number, rest) := by
  have length : (pyStr (padded width number)).length = width := by
    have short := length_decimal_le positive small
    rw [pyStr_padded, List.length_append, List.length_replicate]
    omega
  have parsed := parseDigits_append (digits_padded width number) 0 rest
  rw [length] at parsed
  rw [parsed]
  exact congrArg (fun value => some (value, rest)) (naturalOf_padded width number)

theorem length_padded {width number : ℕ} (positive : 0 < width) (small : number < 10 ^ width) :
    (pyStr (padded width number)).length = width := by
  have short := length_decimal_le positive small
  rw [pyStr_padded, List.length_append, List.length_replicate]
  omega

/-! ## The text of a date -/

/-- **The text of a date is read back as the date.** -/
theorem fromIsoformat?_isoformat (date : Date) :
    fromIsoformat? (pyStr date.isoformat) = some date := by
  obtain ⟨year, month, day⟩ := ymd_lt date
  have made := ofYmd?_ymd date
  have two : 0 < 2 := by decide
  have four : 0 < 4 := by decide
  have isText : pyStr date.isoformat = pyStr (padded 4 date.ymd.1) ++
      (45 :: (pyStr (padded 2 date.ymd.2.1) ++ (45 :: (pyStr (padded 2 date.ymd.2.2) ++ [])))) := by
    unfold isoformat
    simp only [pyStr_append, List.append_assoc, List.append_nil]
    rfl
  have length : (pyStr date.isoformat).length = 10 := by
    rw [isText]
    simp [length_padded four year, length_padded two month, length_padded two day]
  have noWeek : ∀ rest, (pyStr (padded 2 date.ymd.2.1) ++ rest).head? ≠ some 87 := by
    intro rest isWeek
    have some : pyStr (padded 2 date.ymd.2.1) ≠ [] := by
      intro none
      have short := length_padded two month
      rw [none] at short
      cases short
    rw [List.head?_append_of_ne_nil _ some] at isWeek
    have digit := digits_padded 2 _ 87 (List.mem_of_head? isWeek)
    omega
  unfold fromIsoformat?
  rw [length, if_neg (by decide), isText]
  simp only [parseDigits_padded four year, Option.bind_eq_bind, Option.bind_some,
    List.head?_cons, decide_true, dropDash, if_neg (noWeek _),
    parseDigits_padded two month, parseDigits_padded two day,
    if_true]
  exact made

end Date
