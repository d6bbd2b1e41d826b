import CryptoRadar.Lib.Calendar
import CryptoRadar.Lib.Dict
import CryptoRadar.Lib.Number
import Mathlib.Data.List.Dedup

/-!
# Bars, panels and histories of the trend engine

`domain/trend_engine.py`, the part the paper trader shares: a bar is one daily candle, a
panel holds the bars of some instruments, and a history is what a rule may see on one day,
the bars that opened before that day's open.

`lt_dayOpenMs_iff` relates the two clocks of the code: a bar opened before a day's open
exactly when its UTC day is an earlier one.
-/

set_option autoImplicit false

namespace CryptoRadar.Trend

open Checked

/-- The codes of `EngineError`. -/
inductive EngineErrorCode where
  | invalidBar
  | nonMonotonic
  | notSpot
  | unknownInstrument
  | invalidWeight
  | noBarToTrade
  | grossExceeded
  | windowTooShort
  | invalidParameter
  | lookahead
  deriving DecidableEq, Repr

def EngineErrorCode.text : EngineErrorCode → String
  | .invalidBar => "INVALID_BAR"
  | .nonMonotonic => "NON_MONOTONIC"
  | .notSpot => "NOT_SPOT"
  | .unknownInstrument => "UNKNOWN_INSTRUMENT"
  | .invalidWeight => "INVALID_WEIGHT"
  | .noBarToTrade => "NO_BAR_TO_TRADE"
  | .grossExceeded => "GROSS_EXCEEDED"
  | .windowTooShort => "WINDOW_TOO_SHORT"
  | .invalidParameter => "INVALID_PARAMETER"
  | .lookahead => "LOOKAHEAD"

/-- What the engine raises: an `EngineError`, or a Python error of a date out of range, of a
missing key or of an index out of range. -/
inductive EngineFailure where
  | engine (code : EngineErrorCode) (detail : String)
  | overflow
  | key
  | index
  deriving DecidableEq, Repr

def msPerDay : ℤ := 86400000

/-- 1970-01-01. -/
def epoch : Date := ⟨719163, by decide, by decide⟩

/-- The days after the epoch are in the calendar. -/
theorem dayAfterEpoch_first : 1 ≤ 719164 := by decide

theorem dayAfterEpoch_last : 719164 ≤ 3652059 := by decide

theorem thirdDay_first : 1 ≤ 719165 := by decide

theorem thirdDay_last : 719165 ≤ 3652059 := by decide

/-- `utc_day`; none where the day is out of range. -/
def utcDay? (openTimeMs : ℤ) : Option Date := epoch.plusDays? (openTimeMs / msPerDay)

/-- The open of a day in milliseconds. -/
def dayOpenMs (day : Date) : ℤ := day.daysSince epoch * msPerDay

/-- A bar opened before a day's open exactly when its UTC day is before that day. -/
theorem lt_dayOpenMs_iff {openTimeMs : ℤ} {opened day : Date}
    (dated : utcDay? openTimeMs = some opened) : openTimeMs < dayOpenMs day ↔ opened < day := by
  have number := Date.plusDays?_eq_some.mp dated
  have scaled : openTimeMs < dayOpenMs day ↔ openTimeMs / msPerDay < day.daysSince epoch :=
    (Int.ediv_lt_iff_lt_mul (by decide)).symm
  rw [scaled, Date.lt_iff]
  unfold Date.daysSince
  omega

theorem utcDay?_dayOpenMs (day : Date) : utcDay? (dayOpenMs day) = some day := by
  refine Date.plusDays?_eq_some.mpr ?_
  unfold dayOpenMs Date.daysSince
  rw [Int.mul_ediv_cancel _ (by decide)]
  omega

/-- A perpetual has a colon in its name. -/
def isSpot (instrument : String) : Bool := !instrument.toList.contains ':'

/-- One UTC daily candle. -/
structure Bar (F : Type) where
  openTimeMs : ℤ
  openPrice : F
  high : F
  low : F
  close : F
  deriving DecidableEq

/-- The bars stand in the order of their open times, as `bars_from_rows` returns them. -/
def Ascending {F : Type} (bars : List (Bar F)) : Prop :=
  bars.Pairwise fun earlier later => earlier.openTimeMs < later.openTimeMs

theorem Ascending.times {F : Type} {bars : List (Bar F)} (ascending : Ascending bars) :
    (bars.map Bar.openTimeMs).Pairwise (· < ·) :=
  List.pairwise_map.mpr ascending

/-! ## Panels -/

/-- Daily bars of a set of instruments aligned on the union of the tradeable instruments' open
times. -/
structure Panel (F : Type) where
  rows : Dict String (List (Bar F))
  tradeable : List String
  times : List ℤ
  dates : List Date
  openTimes : Dict String (List ℤ)
  openAt : Dict String (List (Option F))

namespace Panel

variable {F : Type}

def rowsOf (rows : Dict String (List (Bar F))) (instrument : String) : List (Bar F) :=
  (rows.get? instrument).getD []

/-- The open times of the tradeable instruments, each once, in order; with an end time, those
before it and then the end time. -/
def timesOf (rows : Dict String (List (Bar F))) (tradeable : List String) (endTime : Option ℤ) :
    List ℤ :=
  let all := (tradeable.flatMap fun instrument => (rowsOf rows instrument).map Bar.openTimeMs)
  let times := all.dedup.mergeSort
  match endTime with
  | none => times
  | some limit => times.filter (· < limit) ++ [limit]

/-- The opens of an instrument at the times; none where it has no bar. -/
def opensAt (bars : List (Bar F)) (times : List ℤ) : List (Option F) :=
  let byTime := Dict.ofItems (bars.map fun bar => (bar.openTimeMs, bar.openPrice))
  times.map byTime.get?

/-- `Panel(rows, tradeable, end_time)`. -/
def build (rows : Dict String (List (Bar F))) (tradeable : List String) (endTime : Option ℤ) :
    Except EngineFailure (Panel F) := do
  if let some (instrument, _) := rows.find? fun row => !isSpot row.1 then
    throw (.engine .notSpot (instrument ++ ": only spot instruments are ported"))
  if let some instrument := tradeable.find? fun instrument => (rows.get? instrument).isNone then
    throw (.engine .unknownInstrument (instrument ++ " has no rows"))
  let times := timesOf rows tradeable endTime
  let dates ← times.mapM fun time => require .overflow (utcDay? time)
  return {
    rows := rows
    tradeable := tradeable
    times := times
    dates := dates
    openTimes := rows.map fun row => (row.1, row.2.map Bar.openTimeMs)
    openAt := tradeable.map fun instrument => (instrument, opensAt (rowsOf rows instrument) times) }

theorem mem_opensAt {bars : List (Bar F)} {times : List ℤ} {price : F}
    (member : some price ∈ opensAt bars times) : ∃ bar ∈ bars, bar.openPrice = price := by
  unfold opensAt at member
  obtain ⟨time, _, found⟩ := List.mem_map.mp member
  rw [Dict.get?_ofItems] at found
  obtain ⟨item, isFound, rfl⟩ := Option.map_eq_some_iff.mp found
  obtain ⟨bar, isBar, rfl⟩ := List.mem_map.mp
    (List.mem_reverse.mp (List.mem_of_find?_eq_some isFound))
  exact ⟨bar, isBar, rfl⟩

theorem build_eq_ok {rows : Dict String (List (Bar F))} {tradeable : List String}
    {endTime : Option ℤ} {panel : Panel F} (built : build rows tradeable endTime = .ok panel) :
    (∀ item ∈ rows, isSpot item.1 = true) ∧
    (∀ instrument ∈ tradeable, (rows.get? instrument).isSome) ∧
    (timesOf rows tradeable endTime).mapM utcDay? = some panel.dates ∧
    panel.rows = rows ∧ panel.tradeable = tradeable ∧
    panel.times = timesOf rows tradeable endTime ∧
    panel.openTimes = rows.map (fun row => (row.1, row.2.map Bar.openTimeMs)) ∧
    panel.openAt = tradeable.map (fun instrument =>
      (instrument, opensAt (rowsOf rows instrument)
        (timesOf rows tradeable endTime))) := by
  unfold build at built
  cases spotted : rows.find? fun row => !isSpot row.1 with
  | some item =>
      rw [spotted] at built
      cases built
  | none =>
      rw [spotted] at built
      cases known : tradeable.find? fun instrument => (rows.get? instrument).isNone with
      | some instrument =>
          rw [known] at built
          cases built
      | none =>
          rw [known] at built
          obtain ⟨dates, dated, rest⟩ := bind_eq_ok.mp built
          cases rest
          refine ⟨fun item member => ?_, fun instrument member => ?_, ?_, rfl, rfl, rfl, rfl, rfl⟩
          · simpa using List.find?_eq_none.mp spotted item member
          · have some := List.find?_eq_none.mp known instrument member
            exact Option.isSome_iff_ne_none.mpr (by simpa using some)
          · refine mapM_eq_some.mpr ((mapM_eq_ok.mp dated).imp fun time day found => ?_)
            exact require_eq_ok.mp found

/-- Spot instruments with rows on days that exist make a panel. -/
theorem build_of {rows : Dict String (List (Bar F))} {tradeable : List String}
    {endTime : Option ℤ} {dates : List Date} (spot : ∀ item ∈ rows, isSpot item.1 = true)
    (known : ∀ instrument ∈ tradeable, (rows.get? instrument).isSome)
    (dated : (timesOf rows tradeable endTime).mapM utcDay? = some dates) :
    build rows tradeable endTime = .ok {
      rows := rows
      tradeable := tradeable
      times := timesOf rows tradeable endTime
      dates := dates
      openTimes := rows.map fun row => (row.1, row.2.map Bar.openTimeMs)
      openAt := tradeable.map fun instrument =>
        (instrument, opensAt (rowsOf rows instrument) (timesOf rows tradeable endTime)) } := by
  have noOther : rows.find? (fun row => !isSpot row.1) = none :=
    List.find?_eq_none.mpr fun item member => by simp [spot item member]
  have noMissing : tradeable.find? (fun instrument => (rows.get? instrument).isNone) = none :=
    List.find?_eq_none.mpr fun instrument member => by
      have found := known instrument member
      simpa [Option.isSome_iff_ne_none] using found
  unfold build
  rw [noOther, noMissing]
  refine bind_eq_ok.mpr ⟨dates, mapM_eq_ok.mpr ?_, rfl⟩
  exact (mapM_eq_some.mp dated).imp fun time day found => require_eq_ok.mpr found

end Panel

/-! ## Histories -/

/-- `bisect_left` between `low` and `high`, which halves the range until it is empty. -/
def bisectLeftFrom (times : List ℤ) (now : ℤ) (low high : ℕ) : ℕ :=
  if low < high then
    let middle := (low + high) / 2
    if times.getD middle 0 < now then bisectLeftFrom times now (middle + 1) high
    else bisectLeftFrom times now low middle
  else low
  termination_by high - low

/-- The index of the first time that is not before `now`. -/
def bisectLeft (times : List ℤ) (now : ℤ) : ℕ := bisectLeftFrom times now 0 times.length

/-- What a strategy may see on `today`: copies of the bars that opened before today's open. -/
structure History (F : Type) where
  panel : Panel F
  today : Date
  now : ℤ

namespace History

variable {F : Type}

/-- `History(panel, index)`. -/
def build (panel : Panel F) (index : ℕ) : Except EngineFailure (History F) := do
  let today ← require .index panel.dates[index]?
  let now ← require .index panel.times[index]?
  return ⟨panel, today, now⟩

/-- The number of bars of the instrument that opened before now. -/
def nbars (history : History F) (instrument : String) : Except EngineFailure ℕ := do
  let times ← require .key (history.panel.openTimes.get? instrument)
  return bisectLeft times history.now

/-- The last `count` bars, or all; none where the count is negative. -/
def bars (history : History F) (instrument : String) (count : Option ℤ) :
    Except EngineFailure (List (Bar F)) := do
  let seen ← history.nbars instrument
  let rows ← require .key (history.panel.rows.get? instrument)
  let from_ := match count with
    | none => 0
    | some count => ((seen : ℤ) - count).toNat
  return (rows.take seen).drop from_

/-- `History.closes`. -/
def closes (history : History F) (instrument : String) (count : Option ℤ) :
    Except EngineFailure (List F) := do
  let bars ← history.bars instrument count
  return bars.map Bar.close

/-- `History.opens`. -/
def opens (history : History F) (instrument : String) (count : Option ℤ) :
    Except EngineFailure (List F) := do
  let bars ← history.bars instrument count
  return bars.map Bar.openPrice

end History

/-! ## The panel of one instrument -/

/-- The open times of a panel of one instrument are those of its bars. -/
theorem timesOf_single {F : Type} {instrument : String} {bars : List (Bar F)}
    (ascending : Ascending bars) :
    Panel.timesOf [(instrument, bars)] [instrument] none = bars.map Bar.openTimeMs := by
  have all : ([instrument].flatMap fun name =>
      (Panel.rowsOf [(instrument, bars)] name).map Bar.openTimeMs) = bars.map Bar.openTimeMs := by
    simp [Panel.rowsOf, Dict.get?]
  unfold Panel.timesOf
  dsimp only
  rw [all, List.Nodup.dedup (ascending.times.imp fun less => less.ne)]
  exact List.mergeSort_of_pairwise (ascending.times.imp fun less => decide_eq_true less.le)

end CryptoRadar.Trend
