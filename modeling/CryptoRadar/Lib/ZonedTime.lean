import CryptoRadar.Lib.Timedelta

/-!
# Times of zones

A timezone-aware `datetime` is a wall clock, the time zone object that it carries and the `fold` that tells
the second of two equal wall clocks from the first (`ZonedTime`). The offset from UTC that a time zone object
gives it is told by `Zones`.

Two times of one time zone object are compared and subtracted by their wall clocks, two of different ones by
their instants, and a difference is added to the wall clock. Where a zone changes its offset its own times are
so not ordered as their instants are. Times of a fixed zone (`Zones.Fixed`), such as UTC, are, and so are they
and times of any zone (`minus_of_fixed`).
-/

set_option autoImplicit false

/-- The offset from UTC that each time zone object gives a wall clock and a fold, in microseconds. Zone 0 is
`timezone.utc`. -/
class Zones where
  offset : ℕ → Moment → Bool → ℤ
  bounded : ∀ zone wall fold,
    -Moment.seconds 86400 < offset zone wall fold ∧ offset zone wall fold < Moment.seconds 86400
  utc : ∀ wall fold, offset 0 wall fold = 0

/-- Time zone objects that all give the offset of UTC. -/
@[reducible] def Zones.allUtc : Zones where
  offset _ _ _ := 0
  bounded _ _ _ := by decide
  utc _ _ := rfl

/-- The zone has one offset at all times. -/
def Zones.Fixed [Zones] (zone : ℕ) : Prop :=
  ∀ wall fold other otherFold, offset zone wall fold = offset zone other otherFold

theorem Zones.fixed_utc [Zones] : Fixed 0 := fun wall fold other otherFold =>
  (utc wall fold).trans (utc other otherFold).symm

/-- A timezone-aware `datetime`. -/
structure ZonedTime where
  wall : Moment
  zone : ℕ
  fold : Bool
  deriving DecidableEq

namespace ZonedTime

/-- A time of UTC. -/
def utc (moment : Moment) : ZonedTime := ⟨moment, 0, false⟩

/-- The Unix epoch, as a time of UTC. -/
def epoch : ZonedTime := utc ⟨0, Moment.epoch_inRange⟩

variable [Zones]

/-- `time.utcoffset()`. -/
def offset (time : ZonedTime) : ℤ := Zones.offset time.zone time.wall time.fold

/-- The instant, in microseconds from the epoch; it may lie outside the calendar. -/
def instant (time : ZonedTime) : ℤ := time.wall.micros - time.offset

theorem instants_inRange (later earlier : ZonedTime) :
    Timedelta.least ≤ later.instant - earlier.instant ∧
      later.instant - earlier.instant ≤ Timedelta.greatest := by
  have laterBound := Zones.bounded later.zone later.wall later.fold
  have earlierBound := Zones.bounded earlier.zone earlier.wall earlier.fold
  have laterRange := later.wall.inRange
  have earlierRange := earlier.wall.inRange
  unfold Moment.seconds at laterBound earlierBound
  unfold Moment.least Moment.greatest at laterRange earlierRange
  unfold instant offset Timedelta.least Timedelta.greatest
  omega

/-- `later - earlier`. -/
def minus (later earlier : ZonedTime) : Timedelta :=
  if later.zone = earlier.zone then .between later.wall earlier.wall
  else ⟨later.instant - earlier.instant, instants_inRange later earlier⟩

/-- `earlier < later`. -/
def lt (earlier later : ZonedTime) : Prop :=
  if earlier.zone = later.zone then earlier.wall < later.wall else earlier.instant < later.instant

/-- `earlier <= later`. -/
def le (earlier later : ZonedTime) : Prop :=
  if earlier.zone = later.zone then earlier.wall ≤ later.wall else earlier.instant ≤ later.instant

instance (earlier later : ZonedTime) : Decidable (earlier.lt later) := by
  unfold lt
  infer_instance

instance (earlier later : ZonedTime) : Decidable (earlier.le later) := by
  unfold le
  infer_instance

/-- Whether the offset rests on the fold: the wall clock comes twice or not at all. -/
def rests (time : ZonedTime) : Bool :=
  decide (Zones.offset time.zone time.wall (!time.fold) ≠ time.offset)

/-- `first == second`. A time whose offset rests on its fold equals none of another zone. -/
def same (first second : ZonedTime) : Bool :=
  if first.zone = second.zone then decide (first.wall = second.wall)
  else !first.rests && !second.rests && decide (first.instant = second.instant)

/-- `time + difference`, which raises where the calendar ends. -/
def shift (time : ZonedTime) (difference : Timedelta) : Except TimeError ZonedTime :=
  (time.wall.shift difference).map fun wall => ⟨wall, time.zone, false⟩

/-! ## Fixed zones -/

@[simp] theorem instant_utc (moment : Moment) : (utc moment).instant = moment.micros := by
  rw [instant, offset, utc, Zones.utc, Int.sub_zero]

/-- Two times, one of them of a fixed zone, differ by their instants. -/
theorem minus_of_fixed {later earlier : ZonedTime} (fixed : Zones.Fixed later.zone ∨ Zones.Fixed earlier.zone) :
    (later.minus earlier).micros = later.instant - earlier.instant := by
  unfold minus
  split
  next same =>
    have sameOffset : later.offset = earlier.offset := by
      unfold offset
      rw [← same] at fixed ⊢
      exact (or_self_iff.mp fixed) _ _ _ _
    unfold instant
    rw [sameOffset]
    show later.wall.micros - earlier.wall.micros = _
    omega
  next => rfl

theorem minus_epoch (time : ZonedTime) : (time.minus epoch).micros = time.instant := by
  rw [minus_of_fixed (.inr Zones.fixed_utc), epoch, instant_utc]
  exact Int.sub_zero _

theorem lt_iff_minus {earlier later : ZonedTime} : earlier.lt later ↔ 0 < (later.minus earlier).micros := by
  unfold lt minus
  by_cases same : earlier.zone = later.zone
  · rw [if_pos same, if_pos same.symm, Moment.lt_iff]
    exact Int.sub_pos.symm
  · rw [if_neg same, if_neg (Ne.symm same)]
    exact Int.sub_pos.symm

theorem le_iff_minus {earlier later : ZonedTime} : earlier.le later ↔ 0 ≤ (later.minus earlier).micros := by
  unfold le minus
  by_cases same : earlier.zone = later.zone
  · rw [if_pos same, if_pos same.symm, Moment.le_iff]
    exact Int.sub_nonneg.symm
  · rw [if_neg same, if_neg (Ne.symm same)]
    exact Int.sub_nonneg.symm

theorem lt_iff_of_fixed {earlier later : ZonedTime}
    (fixed : Zones.Fixed earlier.zone ∨ Zones.Fixed later.zone) :
    earlier.lt later ↔ earlier.instant < later.instant := by
  rw [lt_iff_minus, minus_of_fixed fixed.symm, Int.sub_pos]

theorem le_iff_of_fixed {earlier later : ZonedTime}
    (fixed : Zones.Fixed earlier.zone ∨ Zones.Fixed later.zone) :
    earlier.le later ↔ earlier.instant ≤ later.instant := by
  rw [le_iff_minus, minus_of_fixed fixed.symm, Int.sub_nonneg]

end ZonedTime

/-- A time of a fixed zone. -/
structure FixedTime [Zones] where
  time : ZonedTime
  fixed : Zones.Fixed time.zone

namespace FixedTime

variable [Zones]

instance : Preorder FixedTime where
  le earlier later := earlier.time.instant ≤ later.time.instant
  lt earlier later := earlier.time.instant < later.time.instant
  le_refl _ := Int.le_refl _
  le_trans _ _ _ := Int.le_trans
  lt_iff_le_not_ge _ _ := Int.lt_iff_le_and_not_ge

theorem le_iff {earlier later : FixedTime} : earlier ≤ later ↔ earlier.time.instant ≤ later.time.instant :=
  Iff.rfl

@[simp] theorem minus_time (time : ZonedTime) (now : FixedTime) :
    (time.minus now.time).micros = time.instant - now.time.instant :=
  ZonedTime.minus_of_fixed (.inr now.fixed)

@[simp] theorem time_minus (now : FixedTime) (time : ZonedTime) :
    (now.time.minus time).micros = now.time.instant - time.instant :=
  ZonedTime.minus_of_fixed (.inl now.fixed)

theorem lt_time (now : FixedTime) (time : ZonedTime) :
    now.time.lt time ↔ now.time.instant < time.instant :=
  ZonedTime.lt_iff_of_fixed (.inl now.fixed)

end FixedTime
