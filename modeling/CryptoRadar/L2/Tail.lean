import CryptoRadar.Integrity.Buckets
import CryptoRadar.L2.Hours

/-!
# The run at the end of a window

Behind the last gap of a window lies its run: bars without a gap up to the latest one (`IsRun`). The checks
of `integrity.py` walk back to its start (`contiguousTail_eq_run`) and count in a dictionary which buckets
it fills (`completeBuckets_eq`). `contiguous_tail` asks for so many bars at the end instead, and finds
them where the run has so many (`contiguousTail_cases`).
-/

set_option autoImplicit false

namespace CryptoRadar.L2

open Checked

variable {bars before run : List (Bar Double)}

/-- The bar as the checks see it, by a time of UTC. -/
def Bar.observed (bar : Bar Double) : Integrity.Bar :=
  ⟨.aware (.utc bar.barTime), .float bar.open_, .float bar.high, .float bar.low, .float bar.close,
    .float bar.volume⟩

/-- What lies behind the last gap, from a slot on. -/
structure IsRun (bars before run : List (Bar Double)) (start : ℤ) : Prop where
  parts : bars = before ++ run
  slots : run.map Bar.slot = slotRun start run.length
  gap : ∀ bar ∈ before, bar.slot < start - 1
  nonempty : run ≠ []

section Runs

variable {start : ℤ}

theorem IsRun.positive (isRun : IsRun bars before run start) : 0 < run.length :=
  List.length_pos_iff.mpr isRun.nonempty

/-- The slots that the run has are all slots of the window from just before its start on. -/
theorem IsRun.mem_iff (isRun : IsRun bars before run start) {slot : ℤ} (late : start - 1 ≤ slot) :
    slot ∈ bars.map Bar.slot ↔ start ≤ slot ∧ slot < start + run.length := by
  rw [isRun.parts, List.map_append, List.mem_append, isRun.slots, mem_slotRun]
  refine or_iff_right ?_
  intro early
  obtain ⟨bar, member, same⟩ := List.mem_map.mp early
  have below := isRun.gap bar member
  omega

/-- The latest slot ends the run. -/
theorem IsRun.le_last (isRun : IsRun bars before run start) {slot : ℤ} (member : slot ∈ bars.map Bar.slot) :
    slot < start + run.length := by
  have positive := isRun.positive
  by_cases late : start - 1 ≤ slot
  · exact ((isRun.mem_iff late).mp member).2
  · omega

/-- Slots without a gap at the end of the window belong to the run. -/
theorem IsRun.covers (isRun : IsRun bars before run start) {earlier : List ℤ} {first : ℤ} {count : ℕ}
    (positive : 0 < count) (ends : bars.map Bar.slot = earlier ++ slotRun first count) :
    start ≤ first ∧ first + count = start + run.length := by
  have many := isRun.positive
  have last : first + count = start + run.length := by
    obtain ⟨count, rfl⟩ := Nat.exists_eq_add_one.mpr positive
    obtain ⟨length, isLength⟩ := Nat.exists_eq_add_one.mpr many
    rw [isRun.parts, List.map_append, isRun.slots, isLength, slotRun_concat, slotRun_concat,
      ← List.append_assoc, ← List.append_assoc] at ends
    have same : start + (length : ℤ) = first + count := (List.append_inj' ends rfl).2 |> List.head_eq_of_cons_eq
    rw [isLength]
    push_cast
    omega
  refine ⟨?_, last⟩
  by_contra early
  have member : start - 1 ∈ bars.map Bar.slot := by
    rw [ends]
    refine List.mem_append_right _ ?_
    rw [mem_slotRun]
    omega
  have inside := ((isRun.mem_iff le_rfl).mp member).1
  omega

/-- The run ends with so many slots without a gap, when it has so many. -/
theorem IsRun.lastN (isRun : IsRun bars before run start) {count : ℕ} (enough : count ≤ run.length) :
    (run.lastN count).map Bar.slot = slotRun (start + run.length - count) count ∧
      bars = (before ++ run.take (run.length - count)) ++ run.lastN count := by
  constructor
  · have split : run.length = (run.length - count) + count := by omega
    have both : (run.take (run.length - count)).map Bar.slot ++ (run.lastN count).map Bar.slot =
        slotRun start (run.length - count) ++ slotRun (start + (run.length - count : ℕ)) count := by
      rw [← List.map_append, List.lastN, List.take_append_drop, isRun.slots, ← slotRun_add, ← split]
    have tail := (List.append_inj' both (by
      rw [List.length_map, length_slotRun, List.lastN, List.length_drop]
      omega)).2
    rw [tail]
    congr 1
    omega
  · rw [List.append_assoc, List.lastN, List.take_append_drop]
    exact isRun.parts

end Runs

/-! ## The run of the checks -/

section Checks

variable {interval : Timedelta} {start : ℤ}

theorem OnGrid.observed (isInterval : interval.micros = minutes ohlcIntervalMinutes) (onGrid : OnGrid bars) :
    Integrity.OnGrid interval (bars.map Bar.observed) (bars.map Bar.slot) where
  placed := by
    rw [List.forall₂_map_left_iff, List.forall₂_map_right_iff, List.forall₂_same]
    intro bar member
    exact ⟨.utc bar.barTime, rfl, rfl, by rw [isInterval]; exact onGrid.grid bar member⟩
  ascending := onGrid.ascending

variable [Zones]

/-- The checks walk back to the start of the run. -/
theorem contiguousTail_eq_run (isInterval : interval.micros = minutes ohlcIntervalMinutes)
    (present : bars ≠ []) (onGrid : OnGrid bars) :
    ∃ before run start, IsRun bars before run start ∧
      Integrity.contiguousTail (bars.map Bar.observed) interval = .ok (run.map Bar.observed) := by
  have positive : 0 < interval.micros := by
    rw [isInterval]
    decide
  obtain ⟨before, start, count, isTail, walked, _⟩ :=
    Integrity.contiguousTail_eq_lastN positive (onGrid.observed isInterval)
  have lengths : bars.length = before.length + count := by
    have same := congrArg List.length isTail.parts
    rwa [List.length_map, List.length_append, length_slotRun] at same
  have length : (bars.lastN count).length = count := by
    rw [List.lastN, List.length_drop]
    omega
  have parts : (bars.take (bars.length - count)).map Bar.slot ++ (bars.lastN count).map Bar.slot =
      before ++ slotRun start count := by
    rw [← List.map_append, List.lastN, List.take_append_drop]
    exact isTail.parts
  obtain ⟨front, run⟩ := List.append_inj' parts (by rw [List.length_map, length, length_slotRun])
  have some : 0 < count := isTail.nonempty (mt List.map_eq_nil_iff.mp present)
  refine ⟨bars.take (bars.length - count), bars.lastN count, start, ⟨?_, ?_, ?_, ?_⟩, ?_⟩
  · exact (List.take_append_drop _ _).symm
  · rw [length]
    exact run
  · intro bar member
    exact isTail.gap _ (front ▸ List.mem_map_of_mem member)
  · exact List.ne_nil_of_length_pos (by rw [length]; exact some)
  · rw [walked, List.lastN, List.lastN, List.length_map, List.map_drop]

/-- The checks count so many buckets where the run has so many one after the other. -/
theorem completeBuckets_iff (isInterval : interval.micros = minutes ohlcIntervalMinutes)
    (onGrid : OnGrid bars) (isRun : IsRun bars before run start)
    (walked : Integrity.contiguousTail (bars.map Bar.observed) interval = .ok (run.map Bar.observed))
    {size needed : ℕ} (positive : 0 < size) (some : 0 < needed) {span : ℤ}
    (isSpan : span = size * minutes ohlcIntervalMinutes) (divides : span ∣ Moment.least) :
    ∃ buckets, Integrity.completeBuckets (bars.map Bar.observed) interval span = .ok buckets ∧
      (needed ≤ buckets ↔ ∃ first : ℤ, start ≤ size * first ∧ size * (first + needed) ≤ start + run.length) := by
  have unit : 0 < minutes ohlcIntervalMinutes := by decide
  have whole : 0 < (size : ℤ) := by exact_mod_cast positive
  have inBars : ∀ bar ∈ run, bar ∈ bars := by
    intro bar member
    rw [isRun.parts]
    exact List.mem_append_right _ member
  have placed : List.Forall₂ (Integrity.At interval) (run.map Bar.observed) (slotRun start run.length) := by
    rw [← isRun.slots, List.forall₂_map_left_iff, List.forall₂_map_right_iff, List.forall₂_same]
    intro bar member
    exact ⟨.utc bar.barTime, rfl, rfl, by rw [isInterval]; exact onGrid.grid bar (inBars bar member)⟩
  have inside : Moment.least ≤ start / size * (size * interval.micros) := by
    obtain ⟨bar, isBar, isStart⟩ : ∃ bar ∈ run, bar.slot = start := by
      have member : start ∈ run.map Bar.slot := by
        have present := isRun.positive
        rw [isRun.slots, mem_slotRun]
        omega
      exact List.mem_map.mp member
    have low := bar.barTime.inRange.1
    rw [onGrid.grid bar (inBars bar isBar), isStart] at low
    obtain ⟨buckets, least⟩ := divides
    rw [isSpan] at least
    rw [isInterval, least, mul_comm]
    refine mul_le_mul_of_nonneg_right ?_ (mul_pos whole unit).le
    refine Int.le_ediv_of_mul_le whole ?_
    refine le_of_mul_le_mul_right ?_ unit
    calc buckets * size * minutes ohlcIntervalMinutes = Moment.least := by rw [least]; ring
      _ ≤ start * minutes ohlcIntervalMinutes := low
  have counted := Integrity.completeBuckets_eq_whole (isInterval ▸ unit) positive walked placed fun _ => inside
  rw [isInterval, ← isSpan] at counted
  exact ⟨_, counted, le_length_wholeBuckets positive some start run.length⟩

end Checks

end CryptoRadar.L2
