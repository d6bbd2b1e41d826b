import CryptoRadar.Trend.CatchUp
import CryptoRadar.Trend.Extend
import CryptoRadar.Trend.Kraken
import Mathlib.Data.PNat.Defs

/-!
# The writer of a ledger file

`LedgerWriter` of `adapters/trend_paper_store.py`. The file is what its bytes are, or nothing before the
first append; what the operating system does with each call is a `Device`: a write takes some of the bytes
it is given or fails, and opening, syncing, truncating and reading may fail.

An append verifies the lines in memory, compares the size of the file, writes, syncs and reads back. An
append that raises leaves the bytes as they were, and one that returns has added its lines and returns what
a parse of the whole file gives (`append_all_or_nothing`), whichever of the two ledgers it is. So a chain of
appends, each on the ledger that the last one left, never leaves the file (`Appender.run_verified`). Where
nothing fails the writer is that of a catch-up (`append_eq_writer`).
-/

set_option autoImplicit false

namespace CryptoRadar.Trend

open Checked

/-! ## The operating system -/

/-- What `os.write` does: it takes so many of the bytes, at most all, or it raises. -/
inductive WriteCall where
  | took (count : ℕ+)
  | failed (error : String)

/-- What the operating system does during one append: the writes one after another, of which any that are
not listed take all bytes, and the error of every other call that fails. -/
structure Device where
  openError : Option String
  writes : List WriteCall
  syncError : Option String
  truncates : Bool
  readError : Option String

/-- A device on which nothing fails. -/
def Device.sound : Device := ⟨none, [], none, true, none⟩

/-- Nothing fails on the device. A write may take some of its bytes only. -/
structure Device.Unfailing (device : Device) : Prop where
  opens : device.openError = none
  writes : ∀ error, .failed error ∉ device.writes
  syncs : device.syncError = none
  reads : device.readError = none

/-- The loop of `os.write`: the error that ended it, if any, and the file after it. -/
def writeAll : List WriteCall → Bytes → Bytes → Option String × Bytes
  | [], file, data => (none, file ++ data)
  | call :: later, file, data =>
      if data = [] then (none, file)
      else
        match call with
        | .took count => writeAll later (file ++ data.take count) (data.drop count)
        | .failed error => (some error, file)

/-- The bytes after the loop begin with the file, and without an error they are all there. -/
theorem writeAll_eq (calls : List WriteCall) : ∀ file data : Bytes,
    ∃ added, (writeAll calls file data).2 = file ++ added ∧
      ((writeAll calls file data).1 = none → added = data) := by
  induction calls with
  | nil => exact fun file data => ⟨data, rfl, fun _ => rfl⟩
  | cons call later ih =>
      intro file data
      unfold writeAll
      split
      next empty => exact ⟨[], by simp, fun _ => empty.symm⟩
      next =>
        cases call with
        | took count =>
            obtain ⟨added, isAdded, whole⟩ := ih (file ++ data.take count) (data.drop count)
            refine ⟨data.take count ++ added, by rw [isAdded, List.append_assoc], fun ended => ?_⟩
            rw [whole ended, List.take_append_drop]
        | failed error => exact ⟨[], by simp, fun ended => by cases ended⟩

/-- Without a failed write the loop ends without an error. -/
theorem writeAll_unfailing : ∀ {calls : List WriteCall}, (∀ error, .failed error ∉ calls) →
    ∀ file data : Bytes, (writeAll calls file data).1 = none
  | [], _, file, data => rfl
  | .failed error :: later, unfailing, file, data => absurd List.mem_cons_self (unfailing error)
  | .took count :: later, unfailing, file, data => by
      unfold writeAll
      split
      next => rfl
      next =>
        exact writeAll_unfailing (fun error member => unfailing error (List.mem_cons_of_mem _ member)) _ _

/-! ## The writer -/

inductive StoreCode where
  | writeFailed
  | changedDuringAppend
  deriving DecidableEq, Repr

/-- What an append raises: an error of the verification or of the store, or an `OSError` it does not catch. -/
inductive AppendFailure where
  | paper (failure : PaperFailure)
  | store (code : StoreCode) (detail : String)
  | os (error : String)
  deriving DecidableEq, Repr

/-- A failed write is undone, and the read-back works. -/
def Device.Undoes (device : Device) : Prop := device.truncates = true ∧ device.readError = none

theorem Device.sound_undoes : Device.sound.Undoes := ⟨rfl, rfl⟩

/-- The writer of one ledger file: its name, its verification, and whether the writer holds the lock. -/
structure LedgerWriter (F : Type) where
  name : String
  extend : Ledger F → Bytes → Except PaperFailure (Ledger F)
  locked : Bool

variable {F : Type}

/-- The writes of an append to a file of this size, with the undoing of a failed one and the read-back. -/
def LedgerWriter.write (writer : LedgerWriter F) (device : Device) (data : Bytes) (size : ℕ)
    (extended : Ledger F) (opened : Bytes) : Except AppendFailure (Ledger F) × Bytes :=
  let (writeError, left) := writeAll device.writes opened data
  match writeError.or device.syncError with
  | some error =>
      (.error (.store .writeFailed (writer.name ++ ": " ++ error)),
        if device.truncates then left.take size else left)
  | none =>
      match device.readError with
      | some error => (.error (.os error), left)
      | none =>
          if left.drop size ≠ data then
            (.error (.store .changedDuringAppend (writer.name ++ ": read-back differs")), left)
          else (.ok extended, left)

/-- `LedgerWriter.append`: what it returns or raises, and the file it leaves; a missing file is `none`. -/
def LedgerWriter.append (writer : LedgerWriter F) (device : Device) (data : Bytes) (expected : Ledger F)
    (file : Option Bytes) : Except AppendFailure (Ledger F) × Option Bytes :=
  if !writer.locked then (.error (.store .writeFailed "the ledger lock is not held"), file)
  else
    match writer.extend expected data with -- verified before a byte is written
    | .error failure => (.error (.paper failure), file)
    | .ok extended =>
        match device.openError with
        | some error => (.error (.store .writeFailed (writer.name ++ ": " ++ error)), file)
        | none =>
            let opened := file.getD []
            if opened.length ≠ expected.size then
              (.error (.store .changedDuringAppend writer.name), some opened)
            else
              let (result, left) := writer.write device data expected.size extended opened
              (result, some left)

/-- The append goes through: the lines verify, the file has the size of the ledger, and nothing fails. -/
structure GoesThrough (writer : LedgerWriter F) (device : Device) (data : Bytes) (expected extended : Ledger F)
    (file : Option Bytes) : Prop where
  locked : writer.locked = true
  verified : writer.extend expected data = .ok extended
  opened : device.openError = none
  sized : (file.getD []).length = expected.size
  written : (writeAll device.writes (file.getD []) data).1 = none
  synced : device.syncError = none

/-- The writes that nothing fails in. -/
theorem LedgerWriter.write_ok (writer : LedgerWriter F) {device : Device} {data opened : Bytes}
    (written : (writeAll device.writes opened data).1 = none) (synced : device.syncError = none)
    (reads : device.readError = none) (extended : Ledger F) :
    writer.write device data opened.length extended opened = (.ok extended, opened ++ data) := by
  obtain ⟨added, isAdded, whole⟩ := writeAll_eq device.writes opened data
  obtain rfl := whole written
  unfold LedgerWriter.write
  generalize writeAll device.writes opened added = ended at isAdded written ⊢
  obtain ⟨writeError, left⟩ := ended
  dsimp only at isAdded written ⊢
  subst isAdded written
  rw [synced, reads]
  simp

/-- What the writes do where a failed one is undone: all is written and synced, or the file is as it was. -/
theorem LedgerWriter.write_cases (writer : LedgerWriter F) {device : Device} (undoes : device.Undoes)
    (data : Bytes) (extended : Ledger F) (opened : Bytes) :
    ((writeAll device.writes opened data).1 = none ∧ device.syncError = none ∧
      writer.write device data opened.length extended opened = (.ok extended, opened ++ data)) ∨
    (¬ ((writeAll device.writes opened data).1 = none ∧ device.syncError = none) ∧
      ∃ failure, writer.write device data opened.length extended opened = (.error failure, opened)) := by
  obtain ⟨truncates, reads⟩ := undoes
  cases isError : (writeAll device.writes opened data).1.or device.syncError with
  | some error =>
      refine .inr ⟨fun fine => ?_, .store .writeFailed (writer.name ++ ": " ++ error), ?_⟩
      · rw [fine.1, fine.2] at isError
        cases isError
      · obtain ⟨added, isAdded, _⟩ := writeAll_eq device.writes opened data
        simp only [LedgerWriter.write, isError, truncates, if_true, isAdded, List.take_left]
  | none =>
      obtain ⟨written, synced⟩ := Option.or_eq_none_iff.mp isError
      exact .inl ⟨written, synced, writer.write_ok written synced reads extended⟩

/-- What an append does where a failed write is undone: it goes through, or it raises and the bytes are what
they were. -/
theorem LedgerWriter.append_cases (writer : LedgerWriter F) {device : Device} (undoes : device.Undoes)
    (data : Bytes) (expected : Ledger F) (file : Option Bytes) :
    (∃ extended, GoesThrough writer device data expected extended file ∧
      writer.append device data expected file = (.ok extended, some (file.getD [] ++ data))) ∨
    ((∀ extended, ¬ GoesThrough writer device data expected extended file) ∧
      ∃ failure left, writer.append device data expected file = (.error failure, left) ∧
        left.getD [] = file.getD []) := by
  unfold LedgerWriter.append
  cases isLocked : writer.locked with
  | false =>
      refine .inr ⟨fun extended goes => ?_, _, _, rfl, rfl⟩
      cases isLocked.symm.trans goes.locked
  | true =>
      cases isExtended : writer.extend expected data with
      | error failure =>
          refine .inr ⟨fun extended goes => ?_, _, _, rfl, rfl⟩
          cases isExtended.symm.trans goes.verified
      | ok extended =>
          cases isOpened : device.openError with
          | some error =>
              refine .inr ⟨fun extended goes => ?_, _, _, rfl, rfl⟩
              cases isOpened.symm.trans goes.opened
          | none =>
              by_cases sized : (file.getD []).length = expected.size
              · simp only [Bool.not_true, Bool.false_eq_true, if_false, ne_eq, sized, not_true_eq_false]
                rcases writer.write_cases undoes data extended (file.getD []) with
                  ⟨written, synced, isWrite⟩ | ⟨unwritten, failure, isWrite⟩
                · rw [sized] at isWrite
                  rw [isWrite]
                  exact .inl ⟨extended, ⟨isLocked, isExtended, isOpened, sized, written, synced⟩, rfl⟩
                · rw [sized] at isWrite
                  rw [isWrite]
                  refine .inr ⟨fun other goes => unwritten ⟨goes.written, goes.synced⟩, failure, _, rfl, rfl⟩
              · refine .inr ⟨fun other goes => sized goes.sized, .store .changedDuringAppend writer.name,
                  some (file.getD []), ?_, rfl⟩
                simp [sized]

/-! ## One append -/

section Append

variable [PyFloat F]

def LedgerFormat.writer (format : LedgerFormat) (codec : LedgerCodec F) (start : Date) (name : String) :
    LedgerWriter F :=
  ⟨name, format.extend codec start, true⟩

/-- A parse of the whole file, of which the ledger keeps the summary. -/
def LedgerFormat.Parses (format : LedgerFormat) (codec : LedgerCodec F) (start : Date) (file : Bytes)
    (ledger : Ledger F) : Prop :=
  format.extend codec start Ledger.empty file = .ok ledger

theorem LedgerFormat.Parses.append {format : LedgerFormat} {codec : LedgerCodec F} {start : Date}
    {file data : Bytes} {ledger extended : Ledger F} (parses : format.Parses codec start file ledger)
    (isExtended : format.extend codec start ledger data = .ok extended) :
    format.Parses codec start (file ++ data) extended := by
  unfold LedgerFormat.Parses at parses ⊢
  rw [← LedgerFormat.extend_twice data parses]
  exact isExtended

/-- **An append writes all or nothing.** Whatever the lines, the ledger that is expected and the file, and
whatever fails, but for a truncation and the read-back: the append raises if the lines do not verify, the file
has another size, it cannot be opened, a write fails after any number of bytes or the sync fails, and then the
file holds the bytes it held; otherwise it returns, and the file holds these bytes and then the lines. On the
ledger that the file verifies as it then returns what a parse of the whole file gives. -/
theorem append_all_or_nothing (format : LedgerFormat) (codec : LedgerCodec F) (start : Date)
    (name : String) (device : Device) (undoes : device.Undoes) (data : Bytes) (expected : Ledger F)
    (file : Option Bytes) :
    let writer := format.writer codec start name
    (∀ failure left, writer.append device data expected file = (.error failure, left) →
      left.getD [] = file.getD []) ∧
    (∀ extended left, writer.append device data expected file = (.ok extended, left) →
      left.getD [] = file.getD [] ++ data ∧ (format.Parses codec start (file.getD []) expected →
        format.Parses codec start (left.getD []) extended)) ∧
    ((∃ extended, (writer.append device data expected file).1 = .ok extended) ↔
      (∃ extended, format.extend codec start expected data = .ok extended) ∧
        (file.getD []).length = expected.size ∧ device.openError = none ∧
        (writeAll device.writes (file.getD []) data).1 = none ∧ device.syncError = none) := by
  intro writer
  rcases writer.append_cases undoes data expected file with
    ⟨extended, goes, isAppend⟩ | ⟨fails, failure, left, isAppend, unchanged⟩
  · rw [isAppend]
    refine ⟨fun failure left same => by simp at same, fun other left same => ?_, ?_⟩
    · cases same
      exact ⟨rfl, fun parses => parses.append goes.verified⟩
    · exact ⟨fun _ => ⟨⟨extended, goes.verified⟩, goes.sized, goes.opened, goes.written, goes.synced⟩,
        fun _ => ⟨extended, rfl⟩⟩
  · rw [isAppend]
    refine ⟨fun other last same => ?_, fun extended last same => by simp at same, ?_⟩
    · cases same
      exact unchanged
    · constructor
      · rintro ⟨extended, same⟩
        cases same
      · rintro ⟨⟨extended, verified⟩, sized, opened, written, synced⟩
        exact absurd ⟨rfl, verified, opened, sized, written, synced⟩ (fails extended)

end Append

/-- A disk that takes ten bytes of an append and is full then. -/
def fullDisk : Device := ⟨none, [.took (Nat.succPNat 9), .failed "No space left on device"], none, true, none⟩

theorem fullDisk_fails : (writeAll fullDisk.writes [] (skipLine ++ [10])).1 ≠ none := by
  decide +kernel

/-- The first line of a ledger, of which ten bytes are written and undone. -/
theorem append_all_or_nothing_fullDisk :
    let done := (mainFormat.writer skipCodec paperStart "ledger.jsonl").append fullDisk (skipLine ++ [10])
      Ledger.empty none
    (¬ ∃ extended, done.1 = .ok extended) ∧
      ∀ failure left, done = (.error failure, left) → left.getD [] = [] := by
  intro done
  obtain ⟨raised, _, returns⟩ := append_all_or_nothing mainFormat skipCodec paperStart "ledger.jsonl" fullDisk
    ⟨rfl, rfl⟩ (skipLine ++ [10]) Ledger.empty none
  refine ⟨fun returned => ?_, raised⟩
  obtain ⟨_, _, _, written, _⟩ := returns.mp returned
  exact fullDisk_fails written

/-! ## A chain of appends -/

section Appender

variable [PyFloat F]

/-- `appender`: the ledger that was last verified, and the file. -/
structure Appender (F : Type) where
  ledger : Ledger F
  file : Option Bytes

/-- One call of the callback: the ledger is the returned one, or stays when the append raises. -/
def Appender.call (writer : LedgerWriter F) (appender : Appender F) (call : Device × Bytes) : Appender F :=
  match writer.append call.1 call.2 appender.ledger appender.file with
  | (.ok extended, file) => ⟨extended, file⟩
  | (.error _, file) => ⟨appender.ledger, file⟩

theorem Appender.call_verified {format : LedgerFormat} {codec : LedgerCodec F} {start : Date}
    {name : String} {appender : Appender F}
    (verified : format.Parses codec start (appender.file.getD []) appender.ledger)
    {call : Device × Bytes} (undoes : call.1.Undoes) :
    format.Parses codec start ((appender.call (format.writer codec start name) call).file.getD [])
      (appender.call (format.writer codec start name) call).ledger := by
  unfold Appender.call
  rcases (format.writer codec start name).append_cases undoes call.2 appender.ledger appender.file with
    ⟨extended, goes, isAppend⟩ | ⟨_, failure, left, isAppend, unchanged⟩
  · rw [isAppend]
    exact verified.append goes.verified
  · rw [isAppend]
    dsimp only
    rw [unchanged]
    exact verified

/-- **The callback never leaves the file**: after any appends, whatever failed in them, but for a truncation
and the read-back, the file verifies as the ledger that the callback holds. -/
theorem Appender.run_verified (format : LedgerFormat) (codec : LedgerCodec F) (start : Date)
    (name : String) (calls : List (Device × Bytes)) (undoes : ∀ call ∈ calls, call.1.Undoes)
    (appender : Appender F)
    (verified : format.Parses codec start (appender.file.getD []) appender.ledger) :
    let last := calls.foldl (Appender.call (format.writer codec start name)) appender
    format.Parses codec start (last.file.getD []) last.ledger := by
  induction calls generalizing appender with
  | nil => exact verified
  | cons call rest ih =>
      refine ih (fun later member => undoes later (List.mem_cons_of_mem _ member)) _ ?_
      exact Appender.call_verified verified (undoes call List.mem_cons_self)

end Appender

/-- The first line is appended again after the disk was full. -/
theorem Appender.run_verified_fullDisk :
    let last := [(fullDisk, skipLine ++ [10]), (.sound, skipLine ++ [10])].foldl
      (Appender.call (mainFormat.writer skipCodec paperStart "ledger.jsonl")) ⟨Ledger.empty, none⟩
    mainFormat.Parses skipCodec paperStart (last.file.getD []) last.ledger := by
  refine Appender.run_verified mainFormat skipCodec paperStart "ledger.jsonl" _ ?_
    ⟨Ledger.empty, none⟩ rfl
  intro call member
  rcases List.mem_pair.mp member with rfl | rfl
  · exact ⟨rfl, rfl⟩
  · exact ⟨rfl, rfl⟩

/-! ## The writer of a catch-up -/

/-- What an append of the catch-up's writer says in the terms of the store. -/
def StoreErrorCode.failure (name : String) : CatchUpFailure → AppendFailure
  | .paper failure => .paper failure
  | _ => .store .changedDuringAppend name

/-- **Where nothing fails, an append is that of the writer of a catch-up**, however many of the bytes each
write takes. -/
theorem append_eq_writer [PyFloat F] (codec : LedgerCodec F) (start : Date) (name : String)
    (device : Device) (unfailing : device.Unfailing) (data : Bytes) (ledger : Ledger F) (file : Bytes) :
    let done := Writer.append codec start data ⟨file, ledger, none⟩
    (mainFormat.writer codec start name).append device data ledger (some file) =
      (done.1.mapError (StoreErrorCode.failure name), some done.2.file) := by
  intro done
  have isWriter : (mainFormat.writer codec start name).extend ledger data =
      extendLedger codec start ledger data := extend_mainFormat codec start ledger data
  have isDone : done = Writer.append codec start data ⟨file, ledger, none⟩ := rfl
  unfold Writer.append at isDone
  unfold LedgerWriter.append
  rw [isWriter, isDone, unfailing.opens]
  cases extendLedger codec start ledger data with
  | error failure => rfl
  | ok extended =>
      by_cases sized : file.length = ledger.size
      · have isWrite := (mainFormat.writer codec start name).write_ok
          (writeAll_unfailing unfailing.writes file data) unfailing.syncs unfailing.reads extended
        rw [sized] at isWrite
        simp only [LedgerFormat.writer] at isWrite
        simp only [LedgerFormat.writer, Bool.not_true, Bool.false_eq_true, if_false, Option.getD_some, ne_eq,
          sized, not_true_eq_false, isWrite]
        rfl
      · simp [LedgerFormat.writer, sized]
        rfl

/-- A disk that takes one line in three pieces. -/
def shortWrites : Device := ⟨none, [.took (Nat.succPNat 9), .took (Nat.succPNat 0)], none, false, none⟩

theorem append_eq_writer_short :
    ∃ extended, extendLedger skipCodec paperStart Ledger.empty (skipLine ++ [10]) = .ok extended ∧
      (mainFormat.writer skipCodec paperStart "ledger.jsonl").append shortWrites (skipLine ++ [10])
        Ledger.empty (some []) = (.ok extended, some (skipLine ++ [10])) := by
  obtain ⟨extended, isExtended⟩ := skipLine_extends
  refine ⟨extended, isExtended, ?_⟩
  rw [append_eq_writer skipCodec paperStart "ledger.jsonl" shortWrites ⟨rfl, by simp [shortWrites], rfl, rfl⟩]
  unfold Writer.append
  rw [isExtended]
  rfl

end CryptoRadar.Trend
