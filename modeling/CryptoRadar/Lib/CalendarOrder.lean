import CryptoRadar.Lib.CalendarText
import Mathlib.Data.String.Basic
import Mathlib.Tactic.Ring

/-!
# The order of times and of their texts

The texts of UTC times are ordered as the times are, down to the minute, whatever follows the
minute in them (`utcText_lt_of_minute`): a program that selects rows by text bounds and leaves a
minute of margin selects by time.

Two texts are compared at the first place where they differ (`FirstDiffers`), and the fields of
a time have fixed widths, so that the first field that differs decides.
-/

set_option autoImplicit false

/-! ## Texts that differ -/

/-- The first text is smaller where the texts first differ. -/
def FirstDiffers (first second : PyStr) : Prop :=
  ∃ front small large restFirst restSecond, first = front ++ small :: restFirst ∧
    second = front ++ large :: restSecond ∧ small < large

namespace FirstDiffers

theorem append_right {first second : PyStr} (differ : FirstDiffers first second)
    (afterFirst afterSecond : PyStr) :
    FirstDiffers (first ++ afterFirst) (second ++ afterSecond) := by
  obtain ⟨front, small, large, restFirst, restSecond, rfl, rfl, lt⟩ := differ
  exact ⟨front, small, large, restFirst ++ afterFirst, restSecond ++ afterSecond, by simp, by simp, lt⟩

theorem append_left {first second : PyStr} (before : PyStr) (differ : FirstDiffers first second) :
    FirstDiffers (before ++ first) (before ++ second) := by
  obtain ⟨front, small, large, restFirst, restSecond, rfl, rfl, lt⟩ := differ
  exact ⟨before ++ front, small, large, restFirst, restSecond, by simp, by simp, lt⟩

/-- A smaller field in front, or the same field and a smaller rest. -/
theorem field {first second restFirst restSecond : PyStr}
    (decided : FirstDiffers first second ∨ first = second ∧ FirstDiffers restFirst restSecond) :
    FirstDiffers (first ++ restFirst) (second ++ restSecond) := by
  rcases decided with differ | ⟨rfl, differ⟩
  · exact differ.append_right restFirst restSecond
  · exact differ.append_left first

theorem toList_lt : ∀ {first second : List Char},
    FirstDiffers (first.map Char.toNat) (second.map Char.toNat) → first < second
  | [], _, differ => by
      obtain ⟨front, small, large, restFirst, restSecond, isFirst, -, -⟩ := differ
      simp at isFirst
  | _ :: _, [], differ => by
      obtain ⟨front, small, large, restFirst, restSecond, -, isSecond, -⟩ := differ
      simp at isSecond
  | char :: first, other :: second, differ => by
      obtain ⟨front, small, large, restFirst, restSecond, isFirst, isSecond, lt⟩ := differ
      rw [List.cons_lt_cons_iff]
      cases front with
      | nil =>
          left
          rw [List.nil_append, List.map_cons, List.cons.injEq] at isFirst isSecond
          rw [Char.lt_def, UInt32.lt_iff_toNat_lt]
          change char.toNat < other.toNat
          omega
      | cons code front =>
          right
          rw [List.cons_append, List.map_cons, List.cons.injEq] at isFirst isSecond
          refine ⟨Char.ext (UInt32.toNat_inj.mp (isFirst.1.trans isSecond.1.symm)), ?_⟩
          exact toList_lt ⟨front, small, large, restFirst, restSecond, isFirst.2, isSecond.2, lt⟩

/-- The order of texts is decided where they first differ. -/
theorem lt {first second : String} (differ : FirstDiffers (pyStr first) (pyStr second)) :
    first < second :=
  String.lt_iff_toList_lt.mpr (toList_lt differ)

end FirstDiffers

namespace Date

open JsonText

/-! ## Numbers of a fixed width -/

theorem foldl_digits (codes : PyStr) (value : ℕ) :
    codes.foldl (fun value code => value * 10 + (code - 48)) value =
      value * 10 ^ codes.length + naturalOf codes := by
  induction codes generalizing value with
  | nil => simp [naturalOf]
  | cons code codes hyp =>
      have whole : naturalOf (code :: codes) = (0 * 10 + (code - 48)) * 10 ^ codes.length +
          naturalOf codes := hyp _
      rw [List.foldl_cons, hyp, whole, List.length_cons, pow_succ]
      ring

theorem naturalOf_cons (code : ℕ) (codes : PyStr) :
    naturalOf (code :: codes) = (code - 48) * 10 ^ codes.length + naturalOf codes := by
  rw [naturalOf, List.foldl_cons, foldl_digits]
  simp

theorem naturalOf_lt {codes : PyStr} (digits : ∀ code ∈ codes, 48 ≤ code ∧ code ≤ 57) :
    naturalOf codes < 10 ^ codes.length := by
  induction codes with
  | nil => decide
  | cons code codes hyp =>
      rw [List.forall_mem_cons] at digits
      have rest := hyp digits.2
      have digit : code - 48 ≤ 9 := by omega
      rw [naturalOf_cons, List.length_cons, pow_succ]
      have scaled := Nat.mul_le_mul_right (10 ^ codes.length) digit
      omega

/-- Of two numbers with as many digits, the smaller one is smaller where the digits first
differ. -/
theorem firstDiffers_of_naturalOf : ∀ {first second : PyStr}, first.length = second.length →
    (∀ code ∈ first, 48 ≤ code ∧ code ≤ 57) → (∀ code ∈ second, 48 ≤ code ∧ code ≤ 57) →
    naturalOf first < naturalOf second → FirstDiffers first second
  | [], [], _, _, _, lt => absurd lt (lt_irrefl _)
  | [], _ :: _, same, _, _, _ => by cases same
  | _ :: _, [], same, _, _, _ => by cases same
  | code :: first, other :: second, same, firstDigits, secondDigits, lt => by
      rw [List.forall_mem_cons] at firstDigits secondDigits
      have rest : first.length = second.length := Nat.succ.inj same
      rw [naturalOf_cons, naturalOf_cons, rest] at lt
      have bound := naturalOf_lt secondDigits.2
      rcases lt_trichotomy code other with less | rfl | greater
      · exact ⟨[], code, other, first, second, rfl, rfl, less⟩
      · exact (firstDiffers_of_naturalOf rest firstDigits.2 secondDigits.2 (by omega)).append_left [code]
      · have scaled := Nat.mul_le_mul_right (10 ^ second.length)
          (show other - 48 + 1 ≤ code - 48 by omega)
        rw [add_mul, one_mul] at scaled
        omega

theorem firstDiffers_padded {width first second : ℕ} (positive : 0 < width) (lt : first < second)
    (small : second < 10 ^ width) :
    FirstDiffers (pyStr (padded width first)) (pyStr (padded width second)) := by
  apply firstDiffers_of_naturalOf
  · rw [length_padded positive (lt.trans small), length_padded positive small]
  · exact digits_padded width first
  · exact digits_padded width second
  · rw [naturalOf_padded, naturalOf_padded]
    exact lt

/-! ## Dates -/

/-- The days of a year up to the end of a month are those before any later month at most. -/
theorem month_end : ∀ leap : Bool, ∀ month < 13, ∀ later < 13, 1 ≤ month → month < later →
    daysBeforeMonth month + (if 2 < month ∧ leap = true then 1 else 0) +
        (if month = 2 ∧ leap = true then 29
          else [0, 31, 28, 31, 30, 31, 30, 31, 31, 30, 31, 30, 31].getD month 0) ≤
      daysBeforeMonth later + (if 2 < later ∧ leap = true then 1 else 0) := by
  decide +kernel

/-- The days up to the end of a year. -/
theorem year_end (year : ℕ) (positive : 1 ≤ year) :
    daysBeforeYear (year + 1) = daysBeforeYear year + 365 + (if isLeap year then 1 else 0) := by
  obtain ⟨past, rfl⟩ : ∃ past, year = past + 1 := ⟨year - 1, by omega⟩
  have less : past / 100 ≤ past := Nat.div_le_self past 100
  have hundredFour : (past + 1) % 100 = 0 → (past + 1) % 4 = 0 := by omega
  have fourHundred : (past + 1) % 400 = 0 → (past + 1) % 100 = 0 := by omega
  rw [daysBeforeYear_succ, daysBeforeYear_succ]
  unfold isLeap
  simp only [Nat.succ_div, Nat.dvd_iff_mod_eq_zero, Bool.and_eq_true, Bool.or_eq_true,
    decide_eq_true_eq]
  generalize past / 4 = fours at *
  generalize past / 100 = hundreds at *
  generalize past / 400 = cycles at *
  by_cases cycle : (past + 1) % 400 = 0
  · have hundred := fourHundred cycle
    simp only [hundredFour hundred, hundred, cycle, if_true, ne_eq, not_true_eq_false, false_or, and_true]
    omega
  · by_cases hundred : (past + 1) % 100 = 0
    · simp only [hundredFour hundred, hundred, cycle, if_true, if_false, ne_eq, not_true_eq_false,
        or_false, and_false]
      omega
    · by_cases four : (past + 1) % 4 = 0
      · simp only [hundred, cycle, four, if_true, if_false, ne_eq, not_false_eq_true, true_or, and_true]
        omega
      · simp only [hundred, cycle, four, if_false, false_and]
        omega

theorem daysBeforeYear_le {year later : ℕ} (le : year ≤ later) :
    daysBeforeYear year ≤ daysBeforeYear later := by
  refine monotone_nat_of_le_succ (fun year => ?_) le
  rcases Nat.eq_zero_or_pos year with rfl | positive
  · decide
  · rw [year_end year positive]
    omega

/-- A day, a month and a year that a date may have. -/
def Ymd (year month day : ℕ) : Prop :=
  1 ≤ year ∧ year ≤ 9999 ∧ 1 ≤ month ∧ month ≤ 12 ∧ 1 ≤ day ∧ day ≤ daysInMonth year month

theorem ordinalOf_le {year month day : ℕ} (valid : Ymd year month day) :
    daysBeforeYear year < ordinalOf year month day ∧
      ordinalOf year month day ≤ daysBeforeYear (year + 1) := by
  obtain ⟨yearBound, _, monthBound, monthEnd, dayBound, dayEnd⟩ := valid
  unfold daysInMonth at dayEnd
  rw [year_end year yearBound]
  unfold ordinalOf
  refine ⟨by omega, ?_⟩
  rcases Nat.lt_or_ge month 12 with before | last
  · have ended := month_end (isLeap year) month (by omega) 12 (by omega) monthBound before
    have december : daysBeforeMonth 12 = 334 := rfl
    rw [december] at ended
    split at ended <;> split at ended <;> split at ended <;> split <;> simp_all <;> omega
  · obtain rfl : month = 12 := by omega
    have december : daysBeforeMonth 12 = 334 := rfl
    rw [december]
    simp at dayEnd
    split <;> split <;> simp_all <;> omega

theorem ordinalOf_lt_of_month {year month day later laterDay : ℕ} (valid : Ymd year month day)
    (laterValid : Ymd year later laterDay) (lt : month < later) :
    ordinalOf year month day < ordinalOf year later laterDay := by
  obtain ⟨_, _, monthBound, monthEnd, _, dayEnd⟩ := valid
  obtain ⟨_, _, _, laterEnd, laterPositive, _⟩ := laterValid
  have ended : _ + _ + daysInMonth year month ≤ _ + _ :=
    month_end (isLeap year) month (by omega) later (by omega) monthBound lt
  unfold ordinalOf
  generalize (if 2 < month ∧ isLeap year = true then 1 else 0) = leap at *
  generalize (if 2 < later ∧ isLeap year = true then 1 else 0) = laterLeap at *
  omega

theorem ymd_valid (date : Date) : Ymd date.ymd.1 date.ymd.2.1 date.ymd.2.2 ∧
    ordinalOf date.ymd.1 date.ymd.2.1 date.ymd.2.2 = date.ordinal := by
  have made := ofYmd?_ymd date
  unfold ofYmd? at made
  split at made
  next valid =>
    refine ⟨valid, ?_⟩
    unfold ofOrdinal? at made
    split at made
    next =>
      have same := congrArg Date.ordinal (Option.some.inj made)
      simpa using same
    next => cases made
  next => cases made

/-- The texts of dates are ordered as the dates are. -/
theorem isoformat_firstDiffers {first second : Date} (lt : first < second) :
    FirstDiffers (pyStr first.isoformat) (pyStr second.isoformat) := by
  obtain ⟨firstValid, firstOrdinal⟩ := ymd_valid first
  obtain ⟨secondValid, secondOrdinal⟩ := ymd_valid second
  obtain ⟨yearSmall, monthSmall, daySmall⟩ := ymd_lt second
  rw [lt_iff, ← firstOrdinal, ← secondOrdinal] at lt
  unfold isoformat
  generalize first.ymd = fields at *
  generalize second.ymd = others at *
  obtain ⟨year, month, day⟩ := fields
  obtain ⟨otherYear, otherMonth, otherDay⟩ := others
  simp only [pyStr_append, List.append_assoc] at *
  have years := ordinalOf_le firstValid
  have otherYears := ordinalOf_le secondValid
  apply FirstDiffers.field
  rcases lt_trichotomy year otherYear with less | rfl | greater
  · exact .inl (firstDiffers_padded (by decide) less yearSmall)
  · refine .inr ⟨rfl, .append_left _ (.field ?_)⟩
    rcases lt_trichotomy month otherMonth with less | rfl | greater
    · exact .inl (firstDiffers_padded (by decide) less monthSmall)
    · refine .inr ⟨rfl, .append_left _ (firstDiffers_padded (by decide) ?_ daySmall)⟩
      unfold ordinalOf at lt
      omega
    · exact absurd lt (lt_asymm (ordinalOf_lt_of_month secondValid firstValid greater))
  · have between := daysBeforeYear_le (show otherYear + 1 ≤ year from greater)
    omega

end Date

/-! ## Times -/

namespace Moment

/-- Whole UTC minutes from the epoch. -/
def minute (moment : Moment) : ℤ := moment.micros / seconds 60

/-- `YYYY-MM-DD` of the day of a moment. -/
def dayText (moment : Moment) : String :=
  ((Date.ofOrdinal? (moment.day + 719163)).map Date.isoformat).getD ""

/-- `YYYY-MM-DDTHH:MM` of a moment. -/
def minuteText (moment : Moment) : String :=
  let seconds := (moment.micros % Moment.seconds 86400).toNat / 1000000
  moment.dayText ++ "T" ++ Date.padded 2 (seconds / 3600) ++ ":" ++ Date.padded 2 (seconds / 60 % 60)

/-- The text says the moment down to its minute, in front. -/
def Begins (moment : Moment) (text : String) : Prop := pyStr moment.minuteText <+: pyStr text

instance (moment : Moment) (text : String) : Decidable (moment.Begins text) :=
  inferInstanceAs (Decidable (_ <+: _))

theorem begins_utcText (moment : Moment) : moment.Begins (utcText moment) := by
  unfold Begins minuteText utcText dayText
  simp only [Date.pyStr_append, List.append_assoc]
  simp only [List.prefix_append_right_inj, List.prefix_append]

theorem dayText_eq (moment : Moment) : ∃ date : Date, moment.dayText = date.isoformat ∧
    (date.ordinal : ℤ) = moment.day + 719163 := by
  have range := moment.inRange
  unfold least greatest at range
  have within : 1 ≤ moment.day + 719163 ∧ moment.day + 719163 ≤ 3652059 := by
    unfold day seconds
    omega
  unfold dayText Date.ofOrdinal?
  rw [dif_pos within]
  exact ⟨_, rfl, Int.toNat_of_nonneg (by omega)⟩

/-- An earlier minute has the smaller text. -/
theorem minuteText_firstDiffers {first second : Moment} (lt : first.minute < second.minute) :
    FirstDiffers (pyStr first.minuteText) (pyStr second.minuteText) := by
  obtain ⟨date, isDay, ordinal⟩ := dayText_eq first
  obtain ⟨other, isOther, otherOrdinal⟩ := dayText_eq second
  unfold minuteText
  unfold minute seconds at lt
  unfold day seconds at ordinal otherOrdinal
  simp only [Date.pyStr_append, List.append_assoc, seconds]
  apply FirstDiffers.field
  rcases lt_trichotomy date other with before | rfl | after
  · rw [isDay, isOther]
    exact .inl (Date.isoformat_firstDiffers before)
  · refine .inr ⟨by rw [isDay, isOther], .append_left _ (.field ?_)⟩
    rcases lt_trichotomy ((first.micros % (86400 * 1000000)).toNat / 1000000 / 3600)
      ((second.micros % (86400 * 1000000)).toNat / 1000000 / 3600) with less | same | greater
    · exact .inl (Date.firstDiffers_padded (by decide) less (by omega))
    · refine .inr ⟨by rw [same], .append_left _ (Date.firstDiffers_padded (by decide) ?_ ?_)⟩ <;> omega
    · omega
  · rw [Date.lt_iff] at after
    omega

/-- A text that begins with a moment is greater than the text of an earlier minute. -/
theorem utcText_lt {bound moment : Moment} {text : String} (begins : moment.Begins text)
    (earlier : bound.minute < moment.minute) : utcText bound < text := by
  apply FirstDiffers.lt
  obtain ⟨afterBound, isBound⟩ := begins_utcText bound
  obtain ⟨afterText, isText⟩ := begins
  rw [← isBound, ← isText]
  exact (minuteText_firstDiffers earlier).append_right afterBound afterText

/-- A text that begins with a moment is smaller than the text of a later minute. -/
theorem lt_utcText {bound moment : Moment} {text : String} (begins : moment.Begins text)
    (later : moment.minute < bound.minute) : text < utcText bound := by
  apply FirstDiffers.lt
  obtain ⟨afterBound, isBound⟩ := begins_utcText bound
  obtain ⟨afterText, isText⟩ := begins
  rw [← isBound, ← isText]
  exact (minuteText_firstDiffers later).append_right afterText afterBound

end Moment
