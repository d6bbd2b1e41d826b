import CryptoRadar.Lib.CalendarOrder

/-!
# ISO texts of UTC times

`datetime.isoformat()` leaves out the microseconds of a time that has none, so its texts have two
widths; `utcText` always has them, and its texts are ordered as the times are, to the microsecond.

`ofIsoText?` reads both kinds back.
-/

set_option autoImplicit false

namespace Moment

open Date JsonText

/-! ## Seconds -/

/-- Whole seconds from the epoch. -/
def second (moment : Moment) : ℤ := moment.micros / seconds 1

/-- The microseconds after the second. -/
def fraction (moment : Moment) : ℕ := (moment.micros % seconds 1).toNat

/-- `YYYY-MM-DDTHH:MM:SS` of a moment. -/
def secondText (moment : Moment) : String :=
  moment.minuteText ++ ":" ++ padded 2 ((moment.micros % seconds 86400).toNat / 1000000 % 60)

/-- `datetime.isoformat()` of a UTC time. -/
def isoText (moment : Moment) : String :=
  moment.secondText ++
    ((if moment.fraction = 0 then "" else "." ++ padded 6 moment.fraction) ++ "+00:00")

theorem fraction_lt (moment : Moment) : moment.fraction < 10 ^ 6 := by
  unfold fraction seconds
  omega

theorem lt_iff_second {first second : Moment} : first < second ↔
    first.second < second.second ∨ first.second = second.second ∧ first.fraction < second.fraction := by
  rw [lt_iff]
  unfold Moment.second fraction seconds
  omega

theorem utcText_eq (moment : Moment) :
    utcText moment = moment.secondText ++ ("." ++ padded 6 moment.fraction ++ "+00:00") := by
  have same : (moment.micros % seconds 86400).toNat % 1000000 = moment.fraction := by
    unfold fraction seconds
    omega
  unfold utcText secondText minuteText dayText
  simp only [same, String.append_assoc]

/-! ## Order -/

/-- An earlier second has the smaller text. -/
theorem secondText_firstDiffers {first second : Moment} (lt : first.second < second.second) :
    FirstDiffers (pyStr first.secondText) (pyStr second.secondText) := by
  unfold secondText
  simp only [pyStr_append, List.append_assoc]
  apply FirstDiffers.field
  by_cases earlier : first.minute < second.minute
  · exact .inl (minuteText_firstDiffers earlier)
  · right
    unfold Moment.second seconds at lt
    unfold minute seconds at earlier
    constructor
    · have sameDay : first.day = second.day := by
        unfold day seconds
        omega
      have sameHour : (first.micros % seconds 86400).toNat / 1000000 / 3600 =
          (second.micros % seconds 86400).toNat / 1000000 / 3600 := by
        unfold seconds
        omega
      have sameMinute : (first.micros % seconds 86400).toNat / 1000000 / 60 % 60 =
          (second.micros % seconds 86400).toNat / 1000000 / 60 % 60 := by
        unfold seconds
        omega
      unfold minuteText dayText
      rw [sameDay]
      simp only [sameHour, sameMinute]
    · refine .append_left _ (firstDiffers_padded (by decide) ?_ ?_) <;>
      · unfold seconds
        omega

theorem secondText_congr {first second : Moment} (same : first.second = second.second) :
    first.secondText = second.secondText := by
  have sameDay : first.day = second.day := by
    unfold Moment.second seconds at same
    unfold day seconds
    omega
  have sameRest : (first.micros % seconds 86400).toNat / 1000000 =
      (second.micros % seconds 86400).toNat / 1000000 := by
    unfold Moment.second seconds at same
    unfold seconds
    omega
  unfold secondText minuteText dayText
  rw [sameDay]
  simp only [sameRest]

/-- Texts that go on after the second in the order of the microseconds. -/
def Increasing (rest : ℕ → String) : Prop :=
  ∀ {fraction later : ℕ}, fraction < later → later < 10 ^ 6 →
    FirstDiffers (pyStr (rest fraction)) (pyStr (rest later))

theorem text_lt_iff {rest : ℕ → String} (increasing : Increasing rest) (first second : Moment) :
    first.secondText ++ rest first.fraction < second.secondText ++ rest second.fraction ↔
      first < second := by
  have forward : ∀ {first second : Moment}, first < second →
      first.secondText ++ rest first.fraction < second.secondText ++ rest second.fraction := by
    intro first second lt
    apply FirstDiffers.lt
    rw [pyStr_append, pyStr_append]
    apply FirstDiffers.field
    rcases lt_iff_second.mp lt with before | ⟨same, before⟩
    · exact .inl (secondText_firstDiffers before)
    · exact .inr ⟨congrArg pyStr (secondText_congr same), increasing before second.fraction_lt⟩
  refine ⟨fun smaller => ?_, forward⟩
  rcases lt_trichotomy first second with before | rfl | after
  · exact before
  · exact absurd smaller (lt_irrefl _)
  · exact absurd smaller (lt_asymm (forward after))

theorem increasing_utc : Increasing fun fraction => "." ++ padded 6 fraction ++ "+00:00" := by
  intro fraction later lt small
  simp only [pyStr_append, List.append_assoc]
  exact .append_left _ ((firstDiffers_padded (by decide) lt small).append_right _ _)

theorem pyStr_empty : pyStr "" = [] := rfl

theorem pyStr_point : pyStr "." = [46] := rfl

theorem pyStr_offset : pyStr "+00:00" = [43, 48, 48, 58, 48, 48] := rfl

/-- The texts of fixed width are ordered as the times are. -/
theorem utcText_lt_iff {first second : Moment} : utcText first < utcText second ↔ first < second := by
  rw [utcText_eq, utcText_eq]
  exact text_lt_iff increasing_utc first second

theorem utcText_le_iff {first second : Moment} : utcText first ≤ utcText second ↔ first ≤ second := by
  rw [← not_lt, utcText_lt_iff, not_lt]

theorem begins_isoText (moment : Moment) : moment.Begins moment.isoText := by
  unfold Begins isoText secondText
  simp only [pyStr_append, List.append_assoc]
  exact List.prefix_append _ _

/-! ## Reading -/

/-- The moment of a number of microseconds, when the calendar has it. -/
def ofMicros? (micros : ℤ) : Option Moment :=
  if within : least ≤ micros ∧ micros ≤ greatest then some ⟨micros, within⟩ else none

/-- The text after a code that must stand at its front. -/
def after? (code : ℕ) : PyStr → Option PyStr
  | [] => none
  | first :: rest => if first = code then some rest else none

/-- The microseconds, if any are written, and the rest. -/
def parseFraction : PyStr → Option (ℕ × PyStr)
  | 46 :: rest => parseDigits 6 0 rest
  | rest => some (0, rest)

/-- `datetime.fromisoformat` of a UTC time with seconds, with or without microseconds. -/
def ofIsoText? (text : String) : Option Moment := do
  let date ← Date.fromIsoformat? ((pyStr text).take 10)
  let rest ← after? 84 ((pyStr text).drop 10)
  let (hour, rest) ← parseDigits 2 0 rest
  let rest ← after? 58 rest
  let (minute, rest) ← parseDigits 2 0 rest
  let rest ← after? 58 rest
  let (second, rest) ← parseDigits 2 0 rest
  let (fraction, rest) ← parseFraction rest
  if rest = pyStr "+00:00" ∧ hour < 24 ∧ minute < 60 ∧ second < 60 then
    ofMicros? (((date.ordinal : ℤ) - 719163) * seconds 86400 +
      seconds ((hour * 60 + minute) * 60 + second) + fraction)
  else none

theorem length_isoformat (date : Date) : (pyStr date.isoformat).length = 10 := by
  obtain ⟨year, month, day⟩ := ymd_lt date
  unfold isoformat
  simp only [pyStr_append, List.length_append, length_padded (show 0 < 4 by decide) year,
    length_padded (show 0 < 2 by decide) month, length_padded (show 0 < 2 by decide) day]
  rfl

theorem pyStr_time : pyStr "T" = [84] := rfl

theorem pyStr_colon : pyStr ":" = [58] := rfl

theorem after?_eq (code : ℕ) (rest : PyStr) : after? code (code :: rest) = some rest := if_pos rfl

/-- A text of a second is read, with what follows it. -/
theorem ofIsoText?_of_fraction (moment : Moment) (after : String)
    (read : parseFraction (pyStr after) = some (moment.fraction, pyStr "+00:00")) :
    ofIsoText? (moment.secondText ++ after) = some moment := by
  obtain ⟨date, isDay, ordinal⟩ := dayText_eq moment
  have isText : pyStr (moment.secondText ++ after) = pyStr date.isoformat ++ (84 ::
      (pyStr (padded 2 ((moment.micros % seconds 86400).toNat / 1000000 / 3600)) ++ (58 ::
        (pyStr (padded 2 ((moment.micros % seconds 86400).toNat / 1000000 / 60 % 60)) ++ (58 ::
          (pyStr (padded 2 ((moment.micros % seconds 86400).toNat / 1000000 % 60)) ++
            pyStr after)))))) := by
    unfold secondText minuteText
    simp only [isDay, pyStr_append, List.append_assoc, pyStr_time, pyStr_colon, List.cons_append,
      List.nil_append]
  have front : (pyStr (moment.secondText ++ after)).take 10 = pyStr date.isoformat := by
    rw [isText, ← length_isoformat date, List.take_left]
  have back := congrArg (List.drop 10) isText
  rw [← length_isoformat date, List.drop_left, length_isoformat] at back
  have readTwo {number : ℕ} (small : number < 60) (rest : PyStr) :
      parseDigits 2 0 (pyStr (padded 2 number) ++ rest) = some (number, rest) :=
    parseDigits_padded (by decide) (by omega) rest
  have hours : (moment.micros % seconds 86400).toNat / 1000000 / 3600 < 24 := by
    unfold seconds
    omega
  have micros : ((date.ordinal : ℤ) - 719163) * seconds 86400 + seconds
      ((((moment.micros % seconds 86400).toNat / 1000000 / 3600 * 60 +
        (moment.micros % seconds 86400).toNat / 1000000 / 60 % 60) * 60 +
          (moment.micros % seconds 86400).toNat / 1000000 % 60 : ℕ) : ℤ) + moment.fraction =
        moment.micros := by
    unfold day at ordinal
    unfold fraction
    unfold seconds at ordinal ⊢
    omega
  have minutes := Nat.mod_lt ((moment.micros % seconds 86400).toNat / 1000000 / 60) (show 0 < 60 by decide)
  have lastSeconds := Nat.mod_lt ((moment.micros % seconds 86400).toNat / 1000000) (show 0 < 60 by decide)
  unfold ofIsoText?
  rw [front, back, Date.fromIsoformat?_isoformat]
  simp only [Option.bind_eq_bind, Option.bind_some, after?_eq, readTwo (hours.trans (by decide)),
    readTwo minutes, readTwo lastSeconds, read]
  rw [if_pos ⟨trivial, hours, minutes, lastSeconds⟩]
  push_cast at micros ⊢
  rw [ofMicros?, micros, dif_pos moment.inRange]

theorem parseFraction_padded {fraction : ℕ} (small : fraction < 10 ^ 6) :
    parseFraction (pyStr ("." ++ padded 6 fraction ++ "+00:00")) =
      some (fraction, pyStr "+00:00") := by
  simp only [pyStr_append, pyStr_point, List.cons_append, List.nil_append]
  rw [parseFraction, parseDigits_padded (by decide) small]

/-- **The text of a UTC time is read back as the time.** -/
theorem ofIsoText?_isoText (moment : Moment) : ofIsoText? moment.isoText = some moment := by
  apply ofIsoText?_of_fraction
  by_cases none : moment.fraction = 0
  · rw [if_pos none, none]
    rfl
  · rw [if_neg none]
    exact parseFraction_padded moment.fraction_lt

end Moment
