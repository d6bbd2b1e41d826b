import CryptoRadar.L2.Tail

/-!
# The windows that are ready

A window of valid closed bars on the grid passes the checks of its bars (`Window.reasons`), whatever gaps
it has. It then is ready for an average of the true range exactly when its run has one more whole bucket
of the timeframe than the period has (`Window.evaluateAtr_iff`).
-/

set_option autoImplicit false

namespace CryptoRadar.L2

open Checked Integrity

/-- The prices and the volume of a bar are those of a market. -/
structure Valid (bar : Bar Double) : Prop where
  finite : ∀ number ∈ [bar.open_, bar.high, bar.low, bar.close, bar.volume], PyFloat.isFinite number = true
  positive : ∀ price ∈ [bar.open_, bar.high, bar.low, bar.close], 0 < price.toRat
  coherent : bar.low.toRat ≤ min bar.open_.toRat bar.close.toRat ∧
    max bar.open_.toRat bar.close.toRat ≤ bar.high.toRat
  volume : 0 ≤ bar.volume.toRat

/-- A series of the expected instrument with these bars: valid, on the grid and in order, all closed, enough
for an average, and the last one fresh. The time `asOf` is of UTC. -/
structure Window [Zones] (series : OhlcSeries) (bars : List (Bar Double)) (expected : InstrumentId)
    (asOf : Moment) : Prop where
  same : series.bars = bars.map Bar.observed
  instrument : series.instrument = expected
  priceUnit : series.priceUnit = expected.quote
  volumeUnit : series.volumeUnit = expected.sizeUnit
  interval : series.interval = oc1Policy.ohlcInterval
  source : ∀ source, series.timing.sourceTime = some source → ∃ time, source = .aware time ∧
    time.instant - asOf.micros ≤ oc1Policy.sourceFutureTolerance.micros
  received : ∃ received, series.timing.receivedAt = .aware received ∧ received.instant ≤ asOf.micros ∧
    ∀ bar ∈ bars, bar.barTime.micros + minutes ohlcIntervalMinutes ≤ received.instant
  onGrid : OnGrid bars
  valid : ∀ bar ∈ bars, Valid bar
  enough : l2MinBars ≤ bars.length
  fresh : ∀ bar, bars.getLast? = some bar →
    asOf.micros - (bar.barTime.micros + minutes ohlcIntervalMinutes) ≤ oc1Policy.ohlcLastCloseMaxAge.micros

section Numbers

variable {number : Double} {name : String}

theorem price_of_valid (finite : PyFloat.isFinite number = true) (positive : 0 < number.toRat) :
    price (.float number) name = .ok (true, []) := by
  show Except.ok _ = _
  rw [if_neg (not_not.mpr finite)]
  exact congrArg Except.ok (if_neg (not_le.mpr positive))

theorem size_of_valid (finite : PyFloat.isFinite number = true) (nonneg : 0 ≤ number.toRat) :
    size (.float number) name false = .ok (true, []) := by
  have allowed : ¬ (number.toRat < 0 ∨ (false = true ∧ number.toRat = 0)) := by
    rintro (below | ⟨⟨⟩, _⟩)
    exact absurd nonneg (not_le.mpr below)
  show Except.ok _ = _
  rw [if_neg (not_not.mpr finite)]
  exact congrArg Except.ok (if_neg allowed)

/-- Nothing is said of the numbers of a valid bar. -/
theorem Valid.barNumbers {bar : Bar Double} (valid : Valid bar) (field : String) :
    barNumbers field bar.observed = .ok [] := by
  have finite := valid.finite
  have positive := valid.positive
  simp only [List.forall_mem_cons] at finite positive
  refine bind_eq_ok.mpr ⟨_, price_of_valid finite.1 positive.1, ?_⟩
  refine bind_eq_ok.mpr ⟨_, price_of_valid finite.2.1 positive.2.1, ?_⟩
  refine bind_eq_ok.mpr ⟨_, price_of_valid finite.2.2.1 positive.2.2.1, ?_⟩
  refine bind_eq_ok.mpr ⟨_, price_of_valid finite.2.2.2.1 positive.2.2.2.1, ?_⟩
  refine bind_eq_ok.mpr ⟨_, size_of_valid finite.2.2.2.2.1 valid.volume, ?_⟩
  have coherent := valid.coherent
  refine congrArg Except.ok ?_
  simp only [List.nil_append]
  exact if_neg fun wrong => wrong.2.2.2.2 coherent

end Numbers

section Windows

variable [Zones] {series : OhlcSeries} {bars before run : List (Bar Double)} {expected : InstrumentId} {asOf : Moment}
  {start : ℤ}

theorem Window.isInterval (window : Window series bars expected asOf) :
    series.interval.micros = minutes ohlcIntervalMinutes := by
  rw [window.interval]
  decide

theorem Window.bars_ne_nil (window : Window series bars expected asOf) : bars ≠ [] := by
  rintro rfl
  exact absurd window.enough (by decide)

/-- A bar of the window closes inside the calendar, before it is looked at. -/
theorem Window.closes (window : Window series bars expected asOf) {bar : Bar Double} (member : bar ∈ bars) :
    ∃ close, bar.barTime.plus? (minutes ohlcIntervalMinutes) = some close ∧ close ≤ asOf := by
  obtain ⟨received, _, seen, closed⟩ := window.received
  have before := closed bar member
  have unit : 0 < minutes ohlcIntervalMinutes := by decide
  have low := bar.barTime.inRange.1
  have high := asOf.inRange.2
  refine ⟨⟨bar.barTime.micros + minutes ohlcIntervalMinutes, by omega, by omega⟩, ?_, ?_⟩
  · exact Moment.plus?_eq_some.mpr rfl
  · exact before.trans seen

theorem Window.shift (window : Window series bars expected asOf) {bar : Bar Double} (member : bar ∈ bars) :
    ∃ close, bar.barTime.shift series.interval = .ok close ∧
      close.micros = bar.barTime.micros + minutes ohlcIntervalMinutes := by
  obtain ⟨close, isClose, _⟩ := window.closes member
  have later := Moment.plus?_eq_some.mp isClose
  exact ⟨close, Moment.shift_eq_ok.mpr (by rw [window.isInterval]; exact later), later⟩

theorem Window.ascending (window : Window series bars expected asOf) {index : ℕ} {earlier later : Bar Double}
    (isEarlier : bars[index]? = some earlier) (isLater : bars[index + 1]? = some later) :
    earlier.barTime < later.barTime := by
  have order := window.onGrid.ascending
  rw [List.pairwise_map] at order
  obtain ⟨inside, rfl⟩ := List.getElem?_eq_some_iff.mp isLater
  obtain ⟨before, rfl⟩ := List.getElem?_eq_some_iff.mp isEarlier
  have slots := List.pairwise_iff_getElem.mp order index (index + 1) before inside (Nat.lt_succ_self index)
  have earlierPlaced := window.onGrid.grid _ (List.getElem_mem before)
  have laterPlaced := window.onGrid.grid _ (List.getElem_mem inside)
  rw [Moment.lt_iff, earlierPlaced, laterPlaced]
  exact Int.mul_lt_mul_of_pos_right slots (by decide)

/-- Nothing is said of the time of a bar. -/
theorem Window.barTimes (window : Window series bars expected asOf) {index : ℕ} {bar : Bar Double}
    (isBar : bars[index]? = some bar) (field : String) :
    barTimes series field (.aware (.utc bar.barTime))
      (if 0 < index then (series.bars[index - 1]?).map Integrity.Bar.openTime else none) = .ok [] := by
  have member := List.mem_of_getElem? isBar
  have unit : series.interval.micros ≠ 0 := by
    rw [window.isInterval]
    decide
  have aligned : ((ZonedTime.utc bar.barTime).minus .epoch).micros.fmod series.interval.micros = 0 := by
    rw [ZonedTime.minus_epoch, ZonedTime.instant_utc, window.isInterval, window.onGrid.grid bar member, Int.fmod_eq_emod_of_nonneg _ (by decide),
      Int.mul_emod_left]
  obtain ⟨close, isClose, closes⟩ := window.shift member
  obtain ⟨received, isReceived, _, closed⟩ := window.received
  have isShift : (ZonedTime.utc bar.barTime).shift series.interval = .ok (.utc close) := by
    show (bar.barTime.shift series.interval).map _ = _
    rw [isClose]
    rfl
  have isClosed : ¬ received.lt (.utc close) := by
    rw [ZonedTime.lt_iff_of_fixed (.inr Zones.fixed_utc), ZonedTime.instant_utc, closes, not_lt]
    exact closed bar member
  refine bind_eq_ok.mpr ⟨(), ensure_of unit, ?_⟩
  rw [if_neg (not_not.mpr aligned)]
  refine bind_eq_ok.mpr ⟨.utc close, mapError_eq_ok.mpr isShift, ?_⟩
  rw [isReceived]
  refine congrArg Except.ok ?_
  simp only [if_neg isClosed, List.nil_append]
  cases index with
  | zero => rfl
  | succ index =>
      rw [if_pos (Nat.succ_pos index), Nat.add_sub_cancel, window.same, List.getElem?_map]
      cases isPrevious : bars[index]? with
      | none => rfl
      | some previous =>
          have order := window.ascending isPrevious isBar
          refine if_neg ?_
          rw [ZonedTime.le_iff_of_fixed (.inl Zones.fixed_utc), ZonedTime.instant_utc, ZonedTime.instant_utc,
            not_le]
          exact order

/-- Nothing is said of a bar. -/
theorem Window.reasonsOfBars (window : Window series bars expected asOf) :
    ∃ each, series.bars.zipIdx.mapM (barReasons series) = .ok each ∧ each.flatten = [] := by
  have silent : ∀ place ∈ series.bars.zipIdx, Admits Nothing (barReasons series place) := by
    rintro ⟨observed, index⟩ member
    have isObserved := List.mem_zipIdx_iff_getElem?.mp member
    rw [window.same, List.getElem?_map] at isObserved
    obtain ⟨bar, isBar, rfl⟩ := Option.map_eq_some_iff.mp isObserved
    have valid := window.valid bar (List.mem_of_getElem? isBar)
    exact ⟨[], bind_eq_ok.mpr ⟨[], valid.barNumbers _, bind_eq_ok.mpr ⟨[], window.barTimes isBar _, rfl⟩⟩,
      within_nil⟩
  obtain ⟨each, isEach, within⟩ := mapM_admits.mpr silent
  exact ⟨each, isEach, within_nothing.mp within⟩

theorem Window.timing (window : Window series bars expected asOf) :
    (timing series.timing (.utc asOf) oc1Policy none none).2 = [] := by
  obtain ⟨received, isReceived, seen, _⟩ := window.received
  have receipt : receipt series.timing.receivedAt (.utc asOf) none = [] := by
    rw [isReceived]
    refine if_neg ?_
    rw [ZonedTime.lt_iff_of_fixed (.inl Zones.fixed_utc), ZonedTime.instant_utc]
    exact not_lt.mpr seen
  unfold Integrity.timing
  cases isSource : series.timing.sourceTime with
  | none => exact receipt
  | some source =>
      obtain ⟨time, rfl, reported⟩ := window.source source isSource
      have notFuture : ¬ oc1Policy.sourceFutureTolerance.micros < (time.minus (.utc asOf)).micros := by
        rw [ZonedTime.minus_of_fixed (.inr Zones.fixed_utc), ZonedTime.instant_utc]
        exact not_lt.mpr reported
      simp only [receipt, List.nil_append, sourceMoment, if_neg notFuture]

theorem Window.lastClose (window : Window series bars expected asOf) :
    ∃ last close, bars.getLast? = some last ∧ lastClose series = .ok (some (.aware (.utc close))) ∧
      close.micros = last.barTime.micros + minutes ohlcIntervalMinutes ∧ close ≤ asOf := by
  have isLast := List.getLast?_eq_some_getLast window.bars_ne_nil
  have member := List.mem_of_getLast? isLast
  obtain ⟨close, isClose, closes⟩ := window.shift member
  obtain ⟨_, isTime, seen⟩ := window.closes member
  obtain rfl : close = _ := Moment.ext (closes.trans (Moment.plus?_eq_some.mp isTime).symm)
  refine ⟨_, close, isLast, ?_, closes, seen⟩
  unfold Integrity.lastClose
  rw [window.same, List.getLast?_map, isLast]
  show (((((bars.getLast window.bars_ne_nil).barTime.shift series.interval).map _).mapError _).map _).map _ = _
  rw [isClose]
  rfl

/-- **The bars of a window pass**, with their gaps. -/
theorem Window.reasons (window : Window series bars expected asOf) :
    seriesReasons series expected (.utc asOf) oc1Policy 1 = .ok [] := by
  have present : series.bars ≠ [] := by
    rw [window.same]
    exact mt List.map_eq_nil_iff.mp window.bars_ne_nil
  refine seriesReasons_eq_nil.mpr ⟨⟨window.interval, present, ?_, window.reasonsOfBars⟩, window.timing, ?_⟩
  · simp [identity, unit, window.instrument, window.priceUnit, window.volumeUnit]
  refine coverageReasons_eq_nil.mpr ?_
  obtain ⟨before, run, start, isRun, walked⟩ :=
    contiguousTail_eq_run window.isInterval window.bars_ne_nil window.onGrid
  rw [← window.same] at walked
  obtain ⟨last, close, isLast, isClose, closes, seen⟩ := window.lastClose
  refine ⟨_, _, isClose, walked, ?_, ?_⟩
  · rw [List.length_map]
    exact_mod_cast isRun.positive
  · intro stamp same
    cases same
    have fresh := window.fresh last isLast
    rw [← closes] at fresh
    have order : close.micros ≤ asOf.micros := seen
    have tolerance : 0 ≤ oc1Policy.sourceFutureTolerance.micros := by decide
    have ahead : ((ZonedTime.utc close).minus (.utc asOf)).micros = close.micros - asOf.micros := rfl
    have behind : ((ZonedTime.utc asOf).minus (.utc close)).micros = asOf.micros - close.micros := rfl
    have past : ¬ oc1Policy.sourceFutureTolerance.micros < close.micros - asOf.micros := by omega
    simp only [sourceMoment, ahead, behind, if_neg past, if_neg (not_lt.mpr fresh)]

/-- A window is ready for a timeframe when its run has enough whole buckets. -/
theorem Window.evaluateAtr_iff (window : Window series bars expected asOf) (isRun : IsRun bars before run start)
    (walked : Integrity.contiguousTail (bars.map Bar.observed) series.interval = .ok (run.map Bar.observed))
    (timeframe : AtrTimeframe) {size : ℕ} (positive : 0 < size)
    (isSpan : timeframe.span = size * minutes ohlcIntervalMinutes) (divides : timeframe.span ∣ Moment.least) :
    ∃ result, evaluateAtr (some series) expected (.utc asOf) timeframe oc1Policy = .ok result ∧
      (result.status = .pass ↔
        ∃ first : ℤ, start ≤ size * first ∧ size * (first + (atrPeriod + 1 : ℕ)) ≤ start + run.length) := by
  obtain ⟨buckets, isBuckets, counted⟩ := completeBuckets_iff window.isInterval window.onGrid isRun walked
    positive (Nat.succ_pos atrPeriod) isSpan divides
  rw [← window.same] at isBuckets
  obtain ⟨_, close, _, isClose, _⟩ := window.lastClose
  have judged : evaluateAtr (some series) expected (.utc asOf) timeframe oc1Policy =
      .ok (result .atr timeframe.value
        (if (buckets : ℤ) < oc1Policy.atrMinBars then
          [⟨.insufficientBars, "bars", .count buckets oc1Policy.atrMinBars⟩] else [])
        .source series.timing.receivedAt (some (.aware (.utc close)))) := by
    refine bind_eq_ok.mpr ⟨_, window.reasons, bind_eq_ok.mpr ⟨_, isClose, ?_⟩⟩
    rw [if_pos (status_pass.mpr rfl)]
    exact bind_eq_ok.mpr ⟨_, isBuckets, rfl⟩
  refine ⟨_, judged, Iff.trans status_pass (Iff.trans ?_ counted)⟩
  have needed : oc1Policy.atrMinBars = (atrPeriod.succ : ℕ) := rfl
  rw [needed]
  split
  next short => exact iff_of_false (List.cons_ne_nil _ _) (not_le.mpr (by exact_mod_cast short))
  next enough => exact iff_of_true rfl (by exact_mod_cast not_lt.mp enough)

end Windows

end CryptoRadar.L2
