import CryptoRadar.Invocation.Store
import CryptoRadar.Lib.IsoTime

/-!
# Expiry by text and by time

`recover_expired` compares the texts of two times in SQL, `fence_status` the times. A time comes as a
timezone-aware `datetime`: a wall clock with a time zone. `utc_text` raises where the UTC time leaves
the calendar. Of two `datetime`s with one time zone object Python compares the wall clocks, whatever
their offsets are; that order is not the order in time when the clocks are set back between them.

The texts are ordered as the instants are, and both tests of expiry agree at every `now` that has a
text (`text_order_is_time_order`).
-/

set_option autoImplicit false

namespace CryptoRadar.Invocation

/-! ## Aware times -/

/-- A timezone-aware `datetime`: its wall clock, the time zone object it carries and the offset from
UTC that this gives it, in microseconds. Zone 0 is `timezone.utc`. -/
structure AwareDatetime where
  wall : Moment
  zone : ℕ
  offset : ℤ
  bounded : -Moment.seconds 86400 < offset ∧ offset < Moment.seconds 86400
  utc : zone = 0 → offset = 0

namespace AwareDatetime

/-- The instant, in microseconds from the epoch; it may lie outside the calendar. -/
def instant (time : AwareDatetime) : ℤ := time.wall.micros - time.offset

/-- `first <= second`. -/
def le (first second : AwareDatetime) : Prop :=
  if first.zone = second.zone then first.wall ≤ second.wall else first.instant ≤ second.instant

instance (first second : AwareDatetime) : Decidable (first.le second) := by
  unfold le
  infer_instance

/-- `utc_text`; none where `astimezone` leaves the calendar. -/
def utcText? (time : AwareDatetime) : Option String :=
  (time.wall.plus? (-time.offset)).map utcText

/-- A stored time, which is read as UTC. -/
def ofUtc (moment : Moment) : AwareDatetime where
  wall := moment
  zone := 0
  offset := 0
  bounded := by decide
  utc _ := rfl

theorem utcText?_eq_some {time : AwareDatetime} {text : String} (isText : time.utcText? = some text) :
    ∃ moment : Moment, moment.micros = time.instant ∧ utcText moment = text := by
  obtain ⟨moment, moved, isText⟩ := Option.map_eq_some_iff.mp isText
  exact ⟨moment, Moment.plus?_eq_some.mp moved, isText⟩

/-- Python compares instants, unless one time zone object gives two offsets. -/
theorem le_iff_instant {first second : AwareDatetime}
    (fixed : first.zone = second.zone → first.offset = second.offset) :
    first.le second ↔ first.instant ≤ second.instant := by
  unfold le
  split
  next same =>
    have sameOffset := fixed same
    rw [Moment.le_iff]
    unfold instant
    omega
  next => exact Iff.rfl

theorem ofUtc_le_iff {moment : Moment} {time : AwareDatetime} :
    (ofUtc moment).le time ↔ moment.micros ≤ time.instant := by
  have fixed : (ofUtc moment).zone = time.zone → (ofUtc moment).offset = time.offset :=
    fun same => (time.utc same.symm).symm
  rw [le_iff_instant fixed]
  unfold instant ofUtc
  rw [Int.sub_zero]

end AwareDatetime

/-! ## Both tests -/

/-- `fence_status`, at an aware time. -/
def fenceStatusAt (record : Option InvocationRecord) (lease : Lease) (now : AwareDatetime) :
    TransitionStatus :=
  match record with
  | none => .notFound
  | some row =>
      if row.invocationId ≠ lease.invocationId then .notFound
      else if row.state ≠ .claimed then .notActive
      else if row.generation ≠ lease.generation ∨ row.leaseOwner ≠ lease.owner then .fenced
      else if (AwareDatetime.ofUtc row.leaseExpiresAt).le now then .leaseExpired
      else .applied

def InvocationRecord.heldBy (row : InvocationRecord) : Lease :=
  ⟨row.invocationId, row.generation, row.leaseOwner, row.leaseExpiresAt⟩

/-- `state = 'CLAIMED' AND lease_expires_at <= ?`. -/
def InvocationRecord.isSelected (nowText : String) (row : InvocationRecord) : Bool :=
  row.state = .claimed ∧ utcText row.leaseExpiresAt ≤ nowText

/-- `ORDER BY lease_expires_at, invocation_id`, as SQL has it, by the texts. -/
def expiryTextOrder (first second : InvocationRecord) : Prop :=
  utcText first.leaseExpiresAt < utcText second.leaseExpiresAt ∨
    (utcText first.leaseExpiresAt = utcText second.leaseExpiresAt ∧
      first.invocationId ≤ second.invocationId)

instance : DecidableRel expiryTextOrder := fun _ _ => inferInstanceAs (Decidable (_ ∨ _ ∧ _))

/-- The rows that `recover_expired` takes over. -/
def Db.expiredByText (db : Db) (nowText : String) (limit : ℕ) : List InvocationRecord :=
  ((db.invocations.filter (InvocationRecord.isSelected nowText)).insertionSort expiryTextOrder).take
    limit

theorem utcText_injective : Function.Injective utcText := by
  intro first second same
  exact le_antisymm (Moment.utcText_le_iff.mp same.le) (Moment.utcText_le_iff.mp same.ge)

theorem expiryTextOrder_iff (first second : InvocationRecord) :
    expiryTextOrder first second ↔ expiryOrder first second := by
  unfold expiryTextOrder expiryOrder
  rw [Moment.utcText_lt_iff, utcText_injective.eq_iff]

/-- The selection by text is the selection by time. -/
theorem expiredByText_eq (db : Db) (now : Moment) (limit : ℕ) :
    db.expiredByText (utcText now) limit = db.expired now limit := by
  have rows : db.invocations.filter (InvocationRecord.isSelected (utcText now)) =
      db.invocations.filter fun row => row.state = .claimed ∧ row.leaseExpiresAt ≤ now := by
    refine List.filter_congr ?_
    intro row _
    simp only [InvocationRecord.isSelected, Moment.utcText_le_iff]
  have order : ∀ rows : List InvocationRecord,
      rows.insertionSort expiryTextOrder = rows.insertionSort expiryOrder := by
    intro rows
    have same := List.map_insertionSort expiryTextOrder expiryOrder id rows fun first _ second _ =>
      expiryTextOrder_iff first second
    rwa [List.map_id, List.map_id] at same
  unfold Db.expiredByText Db.expired
  rw [rows, order]

theorem isSelected_iff {now : AwareDatetime} {nowText : String} (isText : now.utcText? = some nowText)
    (row : InvocationRecord) :
    row.isSelected nowText = true ↔
      fenceStatusAt (some row) row.heldBy now = .leaseExpired := by
  obtain ⟨moment, sameInstant, rfl⟩ := AwareDatetime.utcText?_eq_some isText
  unfold fenceStatusAt InvocationRecord.isSelected InvocationRecord.heldBy
  simp only [Moment.utcText_le_iff, AwareDatetime.ofUtc_le_iff, ← sameInstant, ← Moment.le_iff]
  by_cases claimed : row.state = .claimed
  · by_cases expired : row.leaseExpiresAt ≤ moment
    · simp [claimed, expired]
    · simp [claimed, expired]
  · simp [claimed]

/-- **Text order is time order**: two times that have texts compare as their instants do, which is how
Python compares them but for one time zone with two offsets; and at every time that has a text the
query of `recover_expired` selects the claimed rows whose holders `fence_status` finds expired. -/
theorem text_order_is_time_order :
    (∀ (first second : AwareDatetime) (text other : String), first.utcText? = some text →
      second.utcText? = some other → (text ≤ other ↔ first.instant ≤ second.instant) ∧
        ((first.zone = second.zone → first.offset = second.offset) →
          (text ≤ other ↔ first.le second))) ∧
    ∀ (now : AwareDatetime) (nowText : String), now.utcText? = some nowText →
      (∀ row : InvocationRecord, row.isSelected nowText = true ↔
        fenceStatusAt (some row) row.heldBy now = .leaseExpired) ∧
      ∃ moment : Moment, moment.micros = now.instant ∧
        ∀ (db : Db) (limit : ℕ), db.expiredByText nowText limit = db.expired moment limit := by
  constructor
  · intro first second text other isText isOther
    obtain ⟨moment, sameInstant, rfl⟩ := AwareDatetime.utcText?_eq_some isText
    obtain ⟨later, laterInstant, rfl⟩ := AwareDatetime.utcText?_eq_some isOther
    have order : utcText moment ≤ utcText later ↔ first.instant ≤ second.instant := by
      rw [Moment.utcText_le_iff, Moment.le_iff, sameInstant, laterInstant]
    exact ⟨order, fun fixed => order.trans (AwareDatetime.le_iff_instant fixed).symm⟩
  · intro now nowText isText
    refine ⟨isSelected_iff isText, ?_⟩
    obtain ⟨moment, sameInstant, rfl⟩ := AwareDatetime.utcText?_eq_some isText
    exact ⟨moment, sameInstant, fun db limit => expiredByText_eq db moment limit⟩

/-! ## Times whose texts are not in their order -/

/-- The first microsecond of the calendar, on a clock an hour ahead of UTC. -/
def beforeCalendar : AwareDatetime where
  wall := ⟨Moment.least, by decide⟩
  zone := 1
  offset := Moment.seconds 3600
  bounded := by decide
  utc wrong := by cases wrong

/-- Half past one by summer time, in a zone that is set back an hour at two. -/
def beforeSetBack : AwareDatetime where
  wall := ⟨Moment.seconds 5400, by decide⟩
  zone := 2
  offset := Moment.seconds 3600
  bounded := by decide
  utc wrong := by cases wrong

/-- A quarter past one of the same zone, after the clock was set back. -/
def afterSetBack : AwareDatetime where
  wall := ⟨Moment.seconds 4500, by decide⟩
  zone := 2
  offset := 0
  bounded := by decide
  utc _ := rfl

/-- A time may have no text, and in one zone the texts and Python may order two times
differently. -/
theorem text_order_not_always :
    ¬ (∀ first second : AwareDatetime, ∃ text other, first.utcText? = some text ∧
        second.utcText? = some other ∧ (text ≤ other ↔ first.le second)) ∧
      beforeCalendar.utcText? = none ∧
      ∃ text other, beforeSetBack.utcText? = some text ∧ afterSetBack.utcText? = some other ∧
        text ≤ other ∧ ¬ beforeSetBack.le afterSetBack := by
  have noText : beforeCalendar.utcText? = none := by decide
  refine ⟨?_, noText, utcText ⟨Moment.seconds 1800, by decide⟩, utcText ⟨Moment.seconds 4500, by decide⟩,
    rfl, rfl, ?_, by decide⟩
  · intro always
    obtain ⟨text, _, isText, -⟩ := always beforeCalendar beforeCalendar
    rw [noText] at isText
    cases isText
  · rw [Moment.utcText_le_iff]
    decide

theorem text_order_is_time_order_set_back :
    ∃ text other, beforeSetBack.utcText? = some text ∧ afterSetBack.utcText? = some other ∧
      (text ≤ other ↔ beforeSetBack.instant ≤ afterSetBack.instant) :=
  ⟨_, _, rfl, rfl, (text_order_is_time_order.1 beforeSetBack afterSetBack _ _ rfl rfl).1⟩

end CryptoRadar.Invocation
