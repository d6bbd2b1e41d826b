import CryptoRadar.Integrity.Readiness
import CryptoRadar.Lib.SlotRun

/-!
# Complete buckets

The bars of a series, whose open times are UTC, lie in slots of the interval. Behind the last gap lies
its run (`IsTail`), which `_contiguous_tail` finds by walking back (`contiguousTail_eq_lastN`).
`complete_buckets` counts the bars of the run by the bucket they are in, and so counts exactly the
buckets of which every slot is in the run (`completeBuckets_eq_whole`). A bucket may start before the
calendar does; then the count raises.
-/

set_option autoImplicit false

namespace CryptoRadar.Integrity

open Checked

variable {interval : Timedelta} {bars : List Bar} {slots before : List ℤ} {start : ℤ} {count : ℕ}

/-- The bar opens in the slot, by a time of UTC. -/
def At (interval : Timedelta) (bar : Bar) (slot : ℤ) : Prop :=
  ∃ time, bar.openTime = .aware time ∧ time.zone = 0 ∧ time.wall.micros = slot * interval.micros

structure OnGrid (interval : Timedelta) (bars : List Bar) (slots : List ℤ) : Prop where
  placed : List.Forall₂ (At interval) bars slots
  ascending : slots.Pairwise (· < ·)

/-- The longest run without a gap that ends at the last slot. -/
structure IsTail (slots before : List ℤ) (start : ℤ) (count : ℕ) : Prop where
  parts : slots = before ++ slotRun start count
  gap : ∀ slot ∈ before, slot < start - 1
  nonempty : slots ≠ [] → 0 < count

/-- A moment in a slot lies so far behind the start of its bucket. -/
theorem micros_sub_fmod {size : ℕ} (some : 0 < size) (positive : 0 < interval.micros) {moment : Moment}
    {slot : ℤ} (place : moment.micros = slot * interval.micros) :
    moment.micros - moment.micros.fmod (size * interval.micros) =
      slot / size * (size * interval.micros) := by
  have whole : 0 < (size : ℤ) := by exact_mod_cast some
  have split := Int.mul_ediv_add_emod moment.micros (size * interval.micros)
  have bucket : moment.micros / (size * interval.micros) = slot / size := by
    rw [place, Int.mul_ediv_mul_of_pos_left _ _ positive]
  rw [bucket, mul_comm] at split
  rw [Int.fmod_eq_emod_of_nonneg _ (mul_pos whole positive).le]
  omega

/-! ## The run -/

section Run

variable [Zones]

/-- Two bars are one interval apart exactly when their slots follow each other. -/
theorem minus_eq_interval (positive : 0 < interval.micros) {later earlier : Bar} {laterSlot earlierSlot : ℤ}
    (isLater : At interval later laterSlot) (isEarlier : At interval earlier earlierSlot) :
    ∃ gap, later.openTime.minus earlier.openTime = .ok gap ∧ (gap = interval ↔ laterSlot = earlierSlot + 1) := by
  obtain ⟨laterTime, isLaterTime, laterUtc, laterPlace⟩ := isLater
  obtain ⟨earlierTime, isEarlierTime, earlierUtc, earlierPlace⟩ := isEarlier
  refine ⟨laterTime.minus earlierTime, by rw [isLaterTime, isEarlierTime]; rfl, ?_⟩
  rw [Timedelta.ext_iff, ZonedTime.minus, if_pos (laterUtc.trans earlierUtc.symm)]
  show laterTime.wall.micros - earlierTime.wall.micros = interval.micros ↔ _
  rw [laterPlace, earlierPlace, ← Int.sub_mul]
  constructor
  · intro same
    have one : laterSlot - earlierSlot = 1 :=
      Int.eq_of_mul_eq_mul_right positive.ne' (by rw [same, Int.one_mul])
    omega
  · rintro rfl
    rw [add_sub_cancel_left, one_mul]

/-- The walk back stops where the slots have a gap. -/
theorem tailFrom_eq_take (positive : 0 < interval.micros) {reversed : List Bar} {descending : List ℤ}
    (placed : List.Forall₂ (At interval) reversed descending)
    (order : descending.Pairwise fun later earlier => earlier < later) :
    ∃ count start, (descending ≠ [] → 0 < count) ∧ tailFrom interval reversed = .ok (reversed.take count) ∧
      descending.take count = (slotRun start count).reverse ∧
      ∀ slot ∈ descending.drop count, slot < start - 1 := by
  induction placed with
  | nil => exact ⟨0, 0, fun some => absurd rfl some, rfl, rfl, List.forall_mem_nil _⟩
  | @cons bar slot reversed descending isAt placed ih =>
      obtain ⟨below, later⟩ := List.pairwise_cons.mp order
      cases placed with
      | nil => exact ⟨1, slot, fun _ => Nat.one_pos, rfl, rfl, List.forall_mem_nil _⟩
      | @cons previous place reversed descending isPrevious placed =>
          obtain ⟨count, start, some, walked, run, gap⟩ := ih later
          obtain ⟨length, rfl⟩ := Nat.exists_eq_add_one.mpr (some (List.cons_ne_nil _ _))
          obtain ⟨apart, isApart, follows⟩ := minus_eq_interval positive isAt isPrevious
          have step : tailFrom interval (bar :: previous :: reversed) =
              if apart = interval then
                .ok (bar :: (previous :: reversed).take (length + 1)) else .ok [bar] := by
            show (bar.openTime.minus previous.openTime >>= fun gap => _) = _
            rw [isApart]
            show (if apart = interval then _ else _) = _
            split
            · exact bind_eq_ok.mpr ⟨_, walked, rfl⟩
            · rfl
          rw [step]
          have last : place = start + length := by
            rw [slotRun_concat, List.reverse_append, List.take_succ_cons] at run
            exact (List.cons.inj run).1
          by_cases next : slot = place + 1
          · rw [if_pos (follows.mpr next)]
            refine ⟨length + 2, start, fun _ => Nat.succ_pos _, rfl, ?_, gap⟩
            rw [List.take_succ_cons, run, slotRun_concat start (length + 1), List.reverse_append]
            congr 1
            push_cast
            omega
          · rw [if_neg (mt follows.mp next)]
            refine ⟨1, slot, fun _ => Nat.one_pos, rfl, rfl, ?_⟩
            have atMost : ∀ other ∈ place :: descending, other ≤ place := by
              intro other member
              rcases List.mem_cons.mp member with rfl | further
              · exact le_rfl
              · exact ((List.pairwise_cons.mp later).1 other further).le
            have order := below place List.mem_cons_self
            intro other member
            have least := atMost other member
            omega

/-- The run of the bars: their last ones, behind the last gap of the slots. -/
theorem contiguousTail_eq_lastN (positive : 0 < interval.micros) (onGrid : OnGrid interval bars slots) :
    ∃ before start count, IsTail slots before start count ∧
      contiguousTail bars interval = .ok (bars.lastN count) ∧
      List.Forall₂ (At interval) (bars.lastN count) (slotRun start count) := by
  obtain ⟨count, start, some, walked, run, gap⟩ := tailFrom_eq_take positive
    (List.rel_reverse onGrid.placed) (List.pairwise_reverse.mpr onGrid.ascending)
  have slotsRun : slots.lastN count = slotRun start count := by
    rw [List.take_reverse] at run
    exact List.reverse_injective run
  have barsRun : (bars.reverse.take count).reverse = bars.lastN count := by
    rw [List.take_reverse, List.reverse_reverse]
    rfl
  refine ⟨slots.take (slots.length - count), start, count, ⟨?_, ?_, ?_⟩, ?_, ?_⟩
  · rw [← slotsRun]
    exact (List.take_append_drop _ _).symm
  · intro slot member
    refine gap slot ?_
    rw [List.drop_reverse]
    exact List.mem_reverse.mpr member
  · intro present
    exact some (mt List.reverse_eq_nil_iff.mp present)
  · rw [contiguousTail, walked, ← barsRun]
    rfl
  · rw [← slotsRun, List.lastN, List.lastN, onGrid.placed.length_eq]
    exact List.forall₂_drop _ onGrid.placed

/-! ## The buckets -/

/-- A time of UTC is what has passed since the epoch. -/
theorem minus_epoch_of_utc {time : ZonedTime} (isUtc : time.zone = 0) :
    (time.minus .epoch).micros = time.wall.micros := by
  rw [ZonedTime.minus_epoch, ZonedTime.instant, ZonedTime.offset, isUtc, Zones.utc, Int.sub_zero]

/-- The bucket of a bar starts inside the calendar. -/
theorem bucketStart_eq_ok {size : ℕ} (some : 0 < size) (positive : 0 < interval.micros) {bar : Bar} {slot : ℤ}
    (isAt : At interval bar slot)
    (inside : Moment.least ≤ slot / size * (size * interval.micros)) :
    ∃ time, bucketStart (size * interval.micros) bar = .ok time ∧ time.zone = 0 ∧
      time.wall.micros = slot / size * (size * interval.micros) := by
  obtain ⟨time, isTime, isUtc, place⟩ := isAt
  have whole : 0 < (size : ℤ) := by exact_mod_cast some
  have span := mul_pos whole positive
  have micros := micros_sub_fmod some positive place
  have early := Int.fmod_nonneg_of_pos time.wall.micros span
  have high := time.wall.inRange.2
  refine ⟨⟨⟨slot / size * (size * interval.micros), inside, by omega⟩, time.zone, false⟩, ?_, isUtc, rfl⟩
  unfold bucketStart
  rw [isTime]
  refine bind_eq_ok.mpr ⟨(), ensure_of span.ne', bind_eq_ok.mpr ⟨_, require_eq_ok.mpr ?_, rfl⟩⟩
  refine Moment.plus?_eq_some.mpr ?_
  rw [minus_epoch_of_utc isUtc, ← sub_eq_add_neg]
  exact micros.symm

theorem bucketStarts_eq_ok {size : ℕ} (some : 0 < size) (positive : 0 < interval.micros) {tail : List Bar}
    (placed : List.Forall₂ (At interval) tail slots)
    (inside : ∀ slot ∈ slots, Moment.least ≤ slot / size * (size * interval.micros)) :
    ∃ starts, tail.mapM (bucketStart (size * interval.micros)) = .ok starts ∧
      (∀ time ∈ starts, time.zone = 0) ∧ starts.map (fun time => time.wall.micros) =
        (slots.map (· / (size : ℤ))).map (· * (size * interval.micros)) := by
  induction placed with
  | nil => exact ⟨[], rfl, List.forall_mem_nil _, rfl⟩
  | cons isAt _ ih =>
      obtain ⟨first, later⟩ := List.forall_mem_cons.mp inside
      obtain ⟨start, isStart, isUtc, wall⟩ := bucketStart_eq_ok some positive isAt first
      obtain ⟨starts, isStarts, allUtc, walls⟩ := ih later
      refine ⟨start :: starts, mapM_eq_ok.mpr (.cons isStart (mapM_eq_ok.mp isStarts)),
        List.forall_mem_cons.mpr ⟨isUtc, allUtc⟩, ?_⟩
      simp only [List.map_cons, wall, walls]

/-- Of times of UTC those are counted together that have one wall clock. -/
theorem length_tally_utc {starts : List ZonedTime} (allUtc : ∀ time ∈ starts, time.zone = 0)
    (enough : ℕ → Bool) :
    ((tally ZonedTime.same starts).filter fun entry => enough entry.2).length =
      ((starts.map fun time => time.wall.micros).dedup.filter fun micros =>
        enough ((starts.map fun time => time.wall.micros).count micros)).length := by
  have alike : ∀ first ∈ starts, ∀ second ∈ starts,
      first.same second = decide (first.wall.micros = second.wall.micros) := by
    intro first isFirst second isSecond
    rw [ZonedTime.same, if_pos ((allUtc first isFirst).trans (allUtc second isSecond).symm), decide_eq_decide]
    exact Moment.ext_iff
  have mapped := tally_map (fun first second => decide (first = second)) (fun time : ZonedTime => time.wall.micros) alike
  rw [← length_tally_filter (fun _ _ _ _ => decide_eq_true_iff) enough, ← mapped, List.filter_map,
    List.length_map]
  rfl

/-- The count is that of the whole buckets of the run, when the first one it is in starts inside the
calendar. -/
theorem completeBuckets_eq_whole (positive : 0 < interval.micros) {size : ℕ} (some : 0 < size)
    {tail : List Bar} (walked : contiguousTail bars interval = .ok tail)
    (placed : List.Forall₂ (At interval) tail (slotRun start count))
    (inside : 0 < count → Moment.least ≤ start / size * (size * interval.micros)) :
    completeBuckets bars interval (size * interval.micros) = .ok (wholeBuckets size start count).length := by
  have whole : 0 < (size : ℤ) := by exact_mod_cast some
  have span : 0 < size * interval.micros := mul_pos whole positive
  obtain ⟨starts, isStarts, allUtc, walls⟩ := bucketStarts_eq_ok some positive placed fun slot member => by
    rw [mem_slotRun] at member
    refine (inside (by omega)).trans ?_
    exact mul_le_mul_of_nonneg_right (Int.ediv_le_ediv whole member.1) span.le
  have long : ¬ size * interval.micros < interval.micros := by
    rw [not_lt]
    exact le_mul_of_one_le_left positive.le (by omega)
  have divides : (size * interval.micros).fmod interval.micros = 0 := by
    rw [Int.fmod_eq_emod_of_nonneg _ positive.le, Int.mul_emod_left]
  have share : (size * interval.micros).fdiv interval.micros = size := by
    rw [Int.fdiv_eq_ediv_of_nonneg _ positive.le, Int.mul_ediv_cancel _ positive.ne']
  rw [completeBuckets, if_neg long]
  refine bind_eq_ok.mpr ⟨(), ensure_of positive.ne', ?_⟩
  rw [if_neg (not_not.mpr divides)]
  refine bind_eq_ok.mpr ⟨tail, walked, bind_eq_ok.mpr ⟨_, isStarts, ?_⟩⟩
  have injective : Function.Injective (· * (size * interval.micros)) := by
    intro first second same
    exact Int.eq_of_mul_eq_mul_right span.ne' same
  have counted := length_tally_utc allUtc fun times => decide ((times : ℤ) = size)
  rw [walls, List.dedup_map_of_injective injective, List.filter_map, List.length_map] at counted
  rw [share, ← (filled_perm some start count).length_eq]
  refine congrArg Except.ok (counted.trans (congrArg List.length (List.filter_congr ?_)))
  intro bucket _
  simp only [Function.comp_apply, List.count_map_of_injective _ _ injective, Nat.cast_inj]

/-- The count raises when the bucket that the run starts in starts before the calendar. -/
theorem completeBuckets_eq_overflow (positive : 0 < interval.micros) {size : ℕ} (some : 0 < size)
    {tail : List Bar} (walked : contiguousTail bars interval = .ok tail)
    (placed : List.Forall₂ (At interval) tail (slotRun start count)) (present : 0 < count)
    (outside : start / size * (size * interval.micros) < Moment.least) :
    completeBuckets bars interval (size * interval.micros) = .error (.time .overflow) := by
  have whole : 0 < (size : ℤ) := by exact_mod_cast some
  obtain ⟨later, rfl⟩ := Nat.exists_eq_add_one.mpr present
  cases placed with
  | @cons bar _ rest _ isAt _ =>
      have raises : bucketStart (size * interval.micros) bar = .error (.time .overflow) := by
        obtain ⟨time, isTime, isUtc, place⟩ := isAt
        have micros := micros_sub_fmod some positive place
        have none : time.wall.plus? (-((time.minus .epoch).micros.fmod (size * interval.micros))) = none := by
          rw [minus_epoch_of_utc isUtc]
          exact dif_neg fun within => by omega
        unfold bucketStart
        rw [isTime]
        show (ensure _ _ >>= fun _ => require _ (time.wall.plus? _) >>= fun start => _) = _
        rw [none, ensure_of (mul_pos whole positive).ne']
        rfl
      have long : ¬ size * interval.micros < interval.micros := by
        rw [not_lt]
        exact le_mul_of_one_le_left positive.le (by omega)
      have divides : (size * interval.micros).fmod interval.micros = 0 := by
        rw [Int.fmod_eq_emod_of_nonneg _ positive.le, Int.mul_emod_left]
      rw [completeBuckets, if_neg long, ensure_of positive.ne']
      show (if _ then _ else _) = _
      rw [if_neg (not_not.mpr divides), walked]
      show ((bar :: rest).mapM (bucketStart (size * interval.micros)) >>= fun starts => _) = _
      rw [List.mapM_cons, raises]
      rfl

/-- An average passes only with enough buckets. -/
theorem atrMinBars_le_of_pass {series : OhlcSeries} {expected : InstrumentId} {now : ZonedTime}
    {timeframe : AtrTimeframe} {policy : IntegrityPolicy} {result : CapabilityResult}
    (evaluated : evaluateAtr (some series) expected now timeframe policy = .ok result)
    (passed : result.status = .pass) :
    ∃ buckets, completeBuckets series.bars series.interval timeframe.span = .ok buckets ∧
      policy.atrMinBars ≤ buckets := by
  obtain ⟨reasons, isReasons, rest⟩ := bind_eq_ok.mp evaluated
  obtain ⟨close, _, rest⟩ := bind_eq_ok.mp rest
  split at rest
  next pass =>
    obtain ⟨buckets, isBuckets, same⟩ := bind_eq_ok.mp rest
    refine ⟨buckets, isBuckets, ?_⟩
    cases same
    have nothing := status_pass.mp passed
    obtain ⟨_, short⟩ := List.append_eq_nil_iff.mp nothing
    by_contra few
    rw [if_pos (not_le.mp few)] at short
    exact List.cons_ne_nil _ _ short
  next fails =>
    cases rest
    exact absurd passed fails

/-! ## Whole buckets -/

/-- The bucket that a run starts in starts inside the calendar. -/
def StartsInCalendar (interval : Timedelta) (size : ℕ) (start : ℤ) (count : ℕ) : Prop :=
  0 < count → Moment.least ≤ start / size * (size * interval.micros)

/-- The count is the number of buckets all of whose slots are in the run. They follow each other, and an
average passes only with enough of them. -/
def CountsWhole (interval : Timedelta) (bars : List Bar) (size : ℕ) (start : ℤ) (count : ℕ) : Prop :=
  ∃ buckets first, completeBuckets bars interval (size * interval.micros) = .ok buckets.length ∧
    buckets = slotRun first buckets.length ∧
    (∀ bucket, bucket ∈ buckets ↔ ∀ slot ∈ slotRun (size * bucket) size, slot ∈ slotRun start count) ∧
    ∀ (series : OhlcSeries) (expected : InstrumentId) (now : ZonedTime) (timeframe : AtrTimeframe)
      (policy : IntegrityPolicy) (result : CapabilityResult), series.bars = bars → series.interval = interval →
      timeframe.span = size * interval.micros →
      evaluateAtr (some series) expected now timeframe policy = .ok result → result.status = .pass →
        policy.atrMinBars ≤ buckets.length

/-- **Only whole buckets count**, of the run at the end of the bars; the count raises when the bucket that
the run starts in starts before the calendar does. -/
theorem complete_buckets_are_whole (interval : Timedelta) (positive : 0 < interval.micros) (bars : List Bar)
    (slots : List ℤ) (onGrid : OnGrid interval bars slots) (size : ℕ) (some : 0 < size) :
    ∃ before start count, IsTail slots before start count ∧
      (StartsInCalendar interval size start count → CountsWhole interval bars size start count) ∧
      (¬ StartsInCalendar interval size start count →
        completeBuckets bars interval (size * interval.micros) = .error (.time .overflow)) := by
  obtain ⟨before, start, count, isTail, walked, placed⟩ := contiguousTail_eq_lastN positive onGrid
  refine ⟨before, start, count, isTail, ?_, ?_⟩
  · intro inside
    have counted := completeBuckets_eq_whole positive some walked placed inside
    refine ⟨wholeBuckets size start count, -(-start / (size : ℤ)), counted, ?_, ?_, ?_⟩
    · rw [wholeBuckets, length_slotRun]
    · exact fun bucket => mem_wholeBuckets_iff some
    · rintro series expected now timeframe policy result rfl rfl isSpan evaluated passed
      obtain ⟨buckets, isBuckets, enough⟩ := atrMinBars_le_of_pass evaluated passed
      rw [isSpan, counted] at isBuckets
      exact Except.ok.inj isBuckets ▸ enough
  · intro outside
    rw [StartsInCalendar, Classical.not_imp, not_le] at outside
    exact completeBuckets_eq_overflow positive some walked placed outside.1 outside.2

end Run

/-- A bar of five minutes in one of the last slots before the epoch. -/
def lateBar (slot : Fin 10) : Bar :=
  ⟨.aware (.utc ⟨((slot : ℕ) - 10) * 300000000, by
      have := slot.isLt
      unfold Moment.least Moment.greatest
      omega⟩),
    .int 1, .int 1, .int 1, .int 1, .int 1⟩

def lastBar : Bar := lateBar 9

theorem lastBar_onGrid : OnGrid oc1Policy.ohlcInterval [lastBar] [-1] :=
  ⟨.cons ⟨_, rfl, rfl, by decide⟩ .nil, List.pairwise_singleton _ _⟩

theorem lateBars_onGrid :
    OnGrid oc1Policy.ohlcInterval ([1, 5, 6, 7, 8, 9].map lateBar) [-9, -5, -4, -3, -2, -1] :=
  ⟨.cons ⟨_, rfl, rfl, by decide⟩ (.cons ⟨_, rfl, rfl, by decide⟩ (.cons ⟨_, rfl, rfl, by decide⟩
    (.cons ⟨_, rfl, rfl, by decide⟩ (.cons ⟨_, rfl, rfl, by decide⟩ (.cons ⟨_, rfl, rfl, by decide⟩ .nil))))),
    by decide⟩

/-- Of the five bars after a gap the first stands in a bucket of ten minutes that is cut. -/
theorem complete_buckets_are_whole_two_whole :
    letI := Zones.allUtc
    completeBuckets ([1, 5, 6, 7, 8, 9].map lateBar) oc1Policy.ohlcInterval
      ((2 : ℕ) * oc1Policy.ohlcInterval.micros) = .ok 2 ∧
    ∃ before start count, IsTail [-9, -5, -4, -3, -2, -1] before start count ∧
      (StartsInCalendar oc1Policy.ohlcInterval 2 start count →
        CountsWhole oc1Policy.ohlcInterval ([1, 5, 6, 7, 8, 9].map lateBar) 2 start count) ∧
      (¬ StartsInCalendar oc1Policy.ohlcInterval 2 start count →
        completeBuckets ([1, 5, 6, 7, 8, 9].map lateBar) oc1Policy.ohlcInterval
          ((2 : ℕ) * oc1Policy.ohlcInterval.micros) = .error (.time .overflow)) :=
  ⟨by decide +kernel, @complete_buckets_are_whole Zones.allUtc oc1Policy.ohlcInterval (by decide) _ _
    lateBars_onGrid 2 (by decide)⟩

/-- A bucket of a thousand million bars starts long before the year 1. -/
theorem long_bucket_overflows :
    letI := Zones.allUtc
    ¬ ∀ (interval : Timedelta) (bars : List Bar) (slots : List ℤ) (size : ℕ), 0 < interval.micros →
      OnGrid interval bars slots → 0 < size →
        ∃ before start count, IsTail slots before start count ∧ CountsWhole interval bars size start count := by
  intro always
  obtain ⟨_, _, _, _, buckets, _, counted, _⟩ :=
    always oc1Policy.ohlcInterval [lastBar] [-1] 1000000000 (by decide) lastBar_onGrid (by decide)
  have raises : @completeBuckets Zones.allUtc [lastBar] oc1Policy.ohlcInterval
      ((1000000000 : ℕ) * oc1Policy.ohlcInterval.micros) = .error (.time .overflow) := by
    decide +kernel
  rw [raises] at counted
  cases counted

end CryptoRadar.Integrity
