import CryptoRadar.Lib.IsoTime
import CryptoRadar.Paper.Store
import CryptoRadar.Pilot.Admission
import CryptoRadar.Pilot.ExitChoice

/-!
# The selection of snapshots by text

`_spot_observations` of both stores selects rows by comparing the texts of two times, a minute
outside the interval, with the texts of the rows, and reads only what is selected. The texts of the
rows are those of `isoformat()` and the bounds have a fixed width. No valid row of the interval is
lost (`spotObservations_complete`); within a minute of the ends of the calendar the bounds cannot be
computed, and both stores raise.
-/

set_option autoImplicit false

namespace CryptoRadar.Paper

open Checked
open Pilot (Observation Quotes SnapshotRow inWindow snapshotTextMargin spotObservation)

section Selection

variable {runtime : Runtime} {quotes : Quotes} {pair : String} {start : Moment} {includeStart : Bool}

/-- What is observed in the interval: a valid quote of a row whose time is `isoformat` text. -/
structure Observed (quotes : Quotes) (pair : String) (start : Moment) (includeStart : Bool)
    (row : SnapshotRow) (found : Observation) : Prop where
  recorded : row ∈ quotes.snapshots
  ofPair : row.pair = pair
  isId : row.ident = some found.ident
  isText : row.ts = some found.observedAt.isoText
  inside : inWindow start quotes.now includeStart found.observedAt = true
  valid : validateQuote row.bid row.ask row.status = .ok found.quote
  snapshot : found.rank = 0 ∧ found.extra = none

/-- A text of the interval lies between the bounds. -/
theorem between_bounds {lower upper moment : Moment}
    (isLower : start.plus? (-snapshotTextMargin) = some lower)
    (isUpper : quotes.now.plus? snapshotTextMargin = some upper)
    (inside : inWindow start quotes.now includeStart moment = true) :
    utcText lower ≤ moment.isoText ∧ moment.isoText ≤ utcText upper := by
  have lowerMoved := Moment.plus?_eq_some.mp isLower
  have upperMoved := Moment.plus?_eq_some.mp isUpper
  have order : start ≤ moment ∧ moment ≤ quotes.now := by
    simp only [inWindow, Bool.and_eq_true, Bool.or_eq_true, decide_eq_true_eq] at inside
    obtain ⟨before, after | ⟨same, _⟩⟩ := inside
    · exact ⟨after.le, before⟩
    · exact ⟨same.le, before⟩
  rw [Moment.le_iff, Moment.le_iff] at order
  unfold snapshotTextMargin Moment.seconds at lowerMoved upperMoved
  constructor
  · apply le_of_lt
    apply Moment.utcText_lt moment.begins_isoText
    unfold Moment.minute Moment.seconds
    omega
  · apply le_of_lt
    apply Moment.lt_utcText moment.begins_isoText
    unfold Moment.minute Moment.seconds
    omega

theorem Observed.spotObservation {row : SnapshotRow} {found : Observation}
    (observed : Observed quotes pair start includeStart row found)
    (reads : runtime.parseAware found.observedAt.isoText = some ⟨found.observedAt, 0⟩) :
    spotObservation runtime start quotes.now includeStart row = some found := by
  obtain ⟨observedAt, rank, ident, quote, extra⟩ := found
  obtain ⟨rfl, rfl⟩ := observed.snapshot
  have valid := observed.valid
  unfold Pilot.spotObservation
  simp only [observed.isId, observed.isText, reads, observed.inside, valid, Option.bind_eq_bind,
    Option.bind_some, decide_true, Bool.and_self, if_true]

theorem mem_spotObservation_rank {row : SnapshotRow} {found : Observation}
    (seen : spotObservation runtime start quotes.now includeStart row = some found) :
    found.rank = 0 := by
  rw [Pilot.spotObservation_eq] at seen
  obtain ⟨ident, _, seen⟩ := Option.bind_eq_some_iff.mp seen
  obtain ⟨moment, _, seen⟩ := Option.bind_eq_some_iff.mp seen
  split at seen
  next =>
    split at seen
    next =>
      cases seen
      rfl
    next => cases seen
  next => cases seen

/-- **The selection by text loses nothing**: where the bounds can be computed, both stores return an
observation for every valid row of the interval, in the order of time and id. -/
theorem spotObservations_complete (runtime : Runtime) (quotes : Quotes) (pair : String)
    (start : Moment) (includeStart : Bool)
    (reads : ∀ moment : Moment, runtime.parseAware moment.isoText = some ⟨moment, 0⟩)
    (lowerBound : (start.plus? (-snapshotTextMargin)).isSome)
    (upperBound : (quotes.now.plus? snapshotTextMargin).isSome) :
    ∃ found, Pilot.spotObservations runtime quotes pair start includeStart = .ok found ∧
      spotObservations runtime quotes pair start includeStart = .ok found ∧
      (found.Pairwise fun first second => first.observedAt < second.observedAt ∨
        first.observedAt = second.observedAt ∧ first.ident ≤ second.ident) ∧
      ∀ row observation, Observed quotes pair start includeStart row observation →
        observation ∈ found := by
  obtain ⟨lower, isLower⟩ := Option.isSome_iff_exists.mp lowerBound
  obtain ⟨upper, isUpper⟩ := Option.isSome_iff_exists.mp upperBound
  let rows := (quotes.snapshots.filter fun row => row.pair = pair &&
    row.ts.any fun ts => utcText lower ≤ ts && ts ≤ utcText upper).insertionSort SnapshotRow.notAfter
  let seen := rows.filterMap (spotObservation runtime start quotes.now includeStart)
  have returned : Pilot.spotObservations runtime quotes pair start includeStart =
      .ok (seen.insertionSort Observation.notAfter) := by
    unfold Pilot.spotObservations
    rw [isLower, isUpper]
    rfl
  refine ⟨seen.insertionSort Observation.notAfter, returned, ?_, ?_, ?_⟩
  · rw [spotObservations, returned]
    rfl
  · have ranked : ∀ found ∈ seen.insertionSort Observation.notAfter, found.rank = 0 := by
      intro found member
      obtain ⟨row, _, isSeen⟩ := List.mem_filterMap.mp ((List.mem_insertionSort _).mp member)
      exact mem_spotObservation_rank isSeen
    refine (List.pairwise_insertionSort Observation.notAfter seen).imp_of_mem ?_
    intro first second isFirst isSecond order
    have sameRank := (ranked first isFirst).trans (ranked second isSecond).symm
    rw [Pilot.Observation.notAfter_iff] at order
    rcases order with earlier | ⟨same, lower | ⟨_, ident⟩⟩
    · exact .inl (Moment.lt_iff.mpr earlier)
    · omega
    · exact .inr ⟨Moment.ext same, ident⟩
  · intro row observation observed
    obtain ⟨overLower, underUpper⟩ := between_bounds isLower isUpper observed.inside
    rw [List.mem_insertionSort]
    refine List.mem_filterMap.mpr ⟨row, ?_, observed.spotObservation (reads _)⟩
    rw [List.mem_insertionSort]
    refine List.mem_filter.mpr ⟨observed.recorded, ?_⟩
    simp [observed.ofPair, observed.isText, overLower, underUpper]

end Selection

/-- A runtime that reads UTC times. -/
def isoRuntime : Runtime :=
  { Pilot.sampleRuntime with
    parseAware := fun text => (Moment.ofIsoText? text).map fun moment => ⟨moment, 0⟩ }

def quoteRow (ident : ℤ) (moment : Moment) : SnapshotRow :=
  ⟨some ident, "BTCUSD", some moment.isoText, .decimal (some (.ofNat 1)), .decimal (some (.ofNat 1)),
    .missing⟩

/-- The last moment of the calendar, and a snapshot at it. -/
def lastQuotes : Quotes where
  snapshots := [quoteRow 1 ⟨Moment.greatest, by decide⟩]
  extras := []
  now := ⟨Moment.greatest, by decide⟩

/-- Two snapshots of one minute, the later one recorded first. -/
def minuteQuotes : Quotes where
  snapshots := [quoteRow 2 ⟨60000000, by decide⟩, quoteRow 1 ⟨30000001, by decide⟩]
  extras := []
  now := ⟨60000000, by decide⟩

theorem isoRuntime_reads (moment : Moment) :
    isoRuntime.parseAware moment.isoText = some ⟨moment, 0⟩ := by
  unfold isoRuntime
  simp only [Moment.ofIsoText?_isoText, Option.map_some]

/-- Both snapshots of the minute are returned. -/
theorem spotObservations_complete_minute : ∃ found quote,
    Pilot.spotObservations isoRuntime minuteQuotes "BTCUSD" ⟨0, by decide⟩ true = .ok found ∧
      spotObservations isoRuntime minuteQuotes "BTCUSD" ⟨0, by decide⟩ true = .ok found ∧
      ⟨⟨30000001, by decide⟩, 0, 1, quote, none⟩ ∈ found ∧
      ⟨⟨60000000, by decide⟩, 0, 2, quote, none⟩ ∈ found := by
  obtain ⟨found, pilot, paper, -, complete⟩ := spotObservations_complete isoRuntime minuteQuotes
    "BTCUSD" ⟨0, by decide⟩ true isoRuntime_reads (by decide) (by decide)
  obtain ⟨quote, valid⟩ : ∃ quote, validateQuote (.decimal (some (.ofNat 1)))
    (.decimal (some (.ofNat 1))) .missing = .ok quote := ⟨_, rfl⟩
  have inside : ∀ moment ∈ [(⟨30000001, by decide⟩ : Moment), ⟨60000000, by decide⟩],
      inWindow ⟨0, by decide⟩ minuteQuotes.now true moment = true := by decide
  refine ⟨found, quote, pilot, paper, ?_, ?_⟩
  · exact complete (quoteRow 1 ⟨30000001, by decide⟩) _
      ⟨by simp [minuteQuotes], rfl, rfl, rfl, inside _ (by simp), valid, rfl, rfl⟩
  · exact complete (quoteRow 2 ⟨60000000, by decide⟩) _
      ⟨by simp [minuteQuotes], rfl, rfl, rfl, inside _ (by simp), valid, rfl, rfl⟩

/-- At the end of the calendar both stores raise, although a valid row is in the interval. -/
theorem spotObservations_at_end_raises :
    (∃ row observation, Observed lastQuotes "BTCUSD" ⟨0, by decide⟩ false row observation) ∧
      ∀ runtime : Runtime,
        Pilot.spotObservations runtime lastQuotes "BTCUSD" ⟨0, by decide⟩ false = .error .overflow ∧
          spotObservations runtime lastQuotes "BTCUSD" ⟨0, by decide⟩ false = .error .overflow := by
  constructor
  · have valid : ∃ quote, validateQuote (.decimal (some (.ofNat 1))) (.decimal (some (.ofNat 1)))
        .missing = .ok quote := ⟨_, rfl⟩
    obtain ⟨quote, valid⟩ := valid
    have inside : inWindow ⟨0, by decide⟩ lastQuotes.now false ⟨Moment.greatest, by decide⟩ = true := by
      decide
    exact ⟨_, ⟨⟨Moment.greatest, by decide⟩, 0, 1, quote, none⟩,
      ⟨List.mem_singleton_self _, rfl, rfl, rfl, inside, valid, rfl, rfl⟩⟩
  · intro runtime
    exact ⟨rfl, rfl⟩

end CryptoRadar.Paper
