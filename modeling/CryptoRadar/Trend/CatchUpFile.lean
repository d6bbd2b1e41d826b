import CryptoRadar.Trend.Finality
import CryptoRadar.Trend.LedgerWriter

/-!
# A catch-up on the ledger file

A catch-up appends through the callback of `LedgerWriter.appender`. Whatever it finds in its markets and
whatever fails in its appends, the file keeps the bytes it held and verifies as the ledger that the callback
holds (`catchUps_verified`): one step lemma for the callback (`FileKept.appender`), carried over the appends of
a catch-up (`FileKept.appendChunks`), which are all that either catch-up does to the file.
-/

set_option autoImplicit false

namespace CryptoRadar.Trend

open Checked

/-! ## The callback -/

section CatchUps

variable {F : Type}

/-- The callback of `appender` in a catch-up, on the devices of its calls one after another; a call beyond
them meets no failure. -/
def LedgerWriter.appender (writer : LedgerWriter F) (raised : AppendFailure → CatchUpFailure) (data : Bytes)
    (world : Appender F × List Device) :
    Except CatchUpFailure (Ledger F) × Appender F × List Device :=
  let device := world.2.headD .sound
  ((writer.append device data world.1.ledger world.1.file).1.mapError raised,
    world.1.call writer (device, data), world.2.tail)

theorem Appender.call_extends (writer : LedgerWriter F) (appender : Appender F) (call : Device × Bytes)
    (undoes : call.1.Undoes) :
    ∃ added, (appender.call writer call).file.getD [] = appender.file.getD [] ++ added := by
  unfold Appender.call
  rcases writer.append_cases undoes call.2 appender.ledger appender.file with
    ⟨extended, _, isAppend⟩ | ⟨_, failure, left, isAppend, unchanged⟩
  · rw [isAppend]
    exact ⟨call.2, rfl⟩
  · rw [isAppend]
    exact ⟨[], by simp [unchanged]⟩

variable [PyMath F]

/-- Before and during a catch-up: the file verifies as the ledger, it begins with the bytes it had, and no
device fails to undo a write. -/
structure FileKept (format : LedgerFormat) (codec : LedgerCodec F) (start : Date) (before : Bytes)
    (world : Appender F × List Device) : Prop where
  verified : format.Parses codec start (world.1.file.getD []) world.1.ledger
  extends_ : ∃ added, world.1.file.getD [] = before ++ added
  undoes : ∀ device ∈ world.2, device.Undoes

variable {format : LedgerFormat} {codec : LedgerCodec F} {start : Date} {before : Bytes} (name : String)
  (raised : AppendFailure → CatchUpFailure)

theorem FileKept.appender {world : Appender F × List Device}
    (kept : FileKept format codec start before world) (data : Bytes) :
    FileKept format codec start before ((format.writer codec start name).appender raised data world).2 := by
  have undoes : (world.2.headD .sound).Undoes := by
    cases isDevices : world.2 with
    | nil => exact Device.sound_undoes
    | cons device later => exact kept.undoes device (isDevices ▸ List.mem_cons_self)
  obtain ⟨added, isAdded⟩ := kept.extends_
  obtain ⟨more, isMore⟩ := world.1.call_extends (format.writer codec start name)
    (world.2.headD .sound, data) undoes
  exact ⟨Appender.call_verified kept.verified undoes,
    ⟨added ++ more, by rw [← List.append_assoc, ← isAdded]; exact isMore⟩,
    fun device member => kept.undoes device (List.mem_of_mem_tail member)⟩

theorem FileKept.appendChunks (chunks : List Chunk) : ∀ {world : Appender F × List Device},
    FileKept format codec start before world → FileKept format codec start before
      (appendChunks ((format.writer codec start name).appender raised) chunks world).2 := by
  induction chunks with
  | nil => exact fun kept => kept
  | cons chunk rest ih =>
      intro world kept
      have step := kept.appender name raised chunk.data
      unfold Trend.appendChunks
      generalize (format.writer codec start name).appender raised chunk.data world = appended at step ⊢
      obtain ⟨result, after⟩ := appended
      cases result with
      | error failure => exact step
      | ok ledger =>
          dsimp only
          split
          · exact ih step
          · exact step

end CatchUps

/-! ## Both catch-ups -/

section Changes

variable {F World : Type} [PyMath F] (codec : LedgerCodec F) (start : Date) (ts : PyStr)
  (append : Bytes → World → Except CatchUpFailure (Ledger F) × World) (ledger : Ledger F)
  (today : Option Date) (world : World)

/-- A catch-up changes the world by appends only. -/
theorem catchUpDays_appends (market : Market F) (refetch : Option (Dict String Date → Market F)) :
    ∃ chunks, (catchUpDays codec start market ts append refetch ledger today world).2 =
      (appendChunks append chunks world).2 := by
  unfold catchUpDays
  cases confirmedPlan start market refetch ledger today with
  | error failure => exact ⟨[], rfl⟩
  | ok plan =>
      dsimp only
      unfold applyPlan
      cases checkPlan plan >>= fun _ =>
          prepare codec start market ts plan.gaps ledger plan.days with
      | error failure => exact ⟨[], rfl⟩
      | ok chunks =>
          refine ⟨chunks, ?_⟩
          dsimp only
          generalize appendChunks append chunks world = appended
          obtain ⟨result, last⟩ := appended
          cases result <;> rfl

theorem catchUpKrakenDays_appends (market : KrakenMarket F)
    (refetch : Option (Dict String Date → KrakenMarket F)) :
    ∃ chunks, (catchUpKrakenDays codec start market ts append refetch ledger today world).2 =
      (appendChunks append chunks world).2 := by
  unfold catchUpKrakenDays
  cases confirmedKrakenPlan start market refetch ledger today with
  | error failure => exact ⟨[], rfl⟩
  | ok plan =>
      dsimp only
      unfold applyKrakenPlan
      cases checkKrakenPlan plan >>= fun _ =>
          prepareKraken codec start market ts plan.gaps ledger plan.days with
      | error failure => exact ⟨[], rfl⟩
      | ok chunks =>
          refine ⟨chunks, ?_⟩
          dsimp only
          generalize appendChunks append chunks world = appended
          obtain ⟨result, last⟩ := appended
          cases result <;> rfl

end Changes

/-- **A catch-up never leaves the file**: whatever it finds in its markets, whatever fails in its appends
but for a truncation and the read-back, and however it ends, the file holds the bytes it held and then
others, and it verifies as the ledger that the callback holds. -/
theorem catchUps_verified {F : Type} [PyMath F] (format : LedgerFormat) (codec : LedgerCodec F)
    (start : Date) (name : String) (raised : AppendFailure → CatchUpFailure) (devices : List Device)
    (undoes : ∀ device ∈ devices, device.Undoes) (held : Appender F)
    (verified : format.Parses codec start (held.file.getD []) held.ledger) :
    let append := (format.writer codec start name).appender raised
    let Verified := fun after : Appender F =>
      format.Parses codec start (after.file.getD []) after.ledger ∧
        ∃ added, after.file.getD [] = held.file.getD [] ++ added
    ∀ ts ledger today,
      (∀ market refetch, Verified
        (catchUpDays codec start market ts append refetch ledger today (held, devices)).2.1) ∧
      ∀ market refetch, Verified
        (catchUpKrakenDays codec start market ts append refetch ledger today (held, devices)).2.1 := by
  intro append Verified ts ledger today
  have initial : FileKept format codec start (held.file.getD []) (held, devices) :=
    ⟨verified, ⟨[], (List.append_nil _).symm⟩, undoes⟩
  have ends : ∀ chunks, Verified (appendChunks append chunks (held, devices)).2.1 := fun chunks =>
    ⟨(initial.appendChunks name raised chunks).verified,
      (initial.appendChunks name raised chunks).extends_⟩
  constructor
  · intro market refetch
    obtain ⟨chunks, isAfter⟩ :=
      catchUpDays_appends codec start ts append ledger today (held, devices) market refetch
    rw [isAfter]
    exact ends chunks
  · intro market refetch
    obtain ⟨chunks, isAfter⟩ :=
      catchUpKrakenDays_appends codec start ts append ledger today (held, devices) market refetch
    rw [isAfter]
    exact ends chunks

/-- The disk is full in the append of the first paper day. -/
theorem catchUps_verified_fullDisk :
    let append := (mainFormat.writer python.codec paperStart "ledger.jsonl").appender fun _ => .stopped
    let after := (catchUpDays python.codec paperStart gapMarket (pyStr "t") append (some fun _ => gapMarket)
      .empty (some paperStart) (⟨.empty, none⟩, [fullDisk])).2.1
    mainFormat.Parses python.codec paperStart (after.file.getD []) after.ledger ∧
      ∃ added, after.file.getD [] = [] ++ added :=
  (catchUps_verified mainFormat python.codec paperStart "ledger.jsonl" (fun _ => .stopped) [fullDisk]
    (fun _ member => List.mem_singleton.mp member ▸ ⟨rfl, rfl⟩) ⟨.empty, none⟩ rfl
    (pyStr "t") .empty (some paperStart)).1 gapMarket (some fun _ => gapMarket)

end CryptoRadar.Trend
