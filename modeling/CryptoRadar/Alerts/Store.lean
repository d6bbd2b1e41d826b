import CryptoRadar.Trend.Canonical

/-!
# The dedupe file of the alerts

`adapters/trend_alert_store.py`: one canonical JSON line for each handled key, a rule and a day.
`parseHandled` reads the keys of a file and refuses a torn, edited or unknown line. A call of `claim`
takes the lock, reads the file, appends the lines of the keys that are not handled yet, and returns
these keys once their lines are written.

The file and the calls that share it are one machine (`step`). Any number of calls run at once; each
of them may be refused the lock, write its lines in pieces, and fail after any of them.
-/

set_option autoImplicit false

namespace CryptoRadar.Alerts

open Checked JsonText Trend

/-- What a claim raises. A rule that is a list or an object cannot be looked up in a set
(`TypeError`), and an unknown status is a `ValueError`. -/
inductive Failure where
  | busy
  | unreadable
  | corrupt (line : ℕ) (why : String)
  | writeFailed
  | unhashable
  | unknownStatus
  deriving DecidableEq, Repr

/-- What is wrong with a line. -/
inductive LineFailure where
  | corrupt (why : String)
  | unhashable
  deriving DecidableEq, Repr

/-- The failure with the number of the line. -/
def LineFailure.atLine (line : ℕ) : LineFailure → Failure
  | .corrupt why => .corrupt line why
  | .unhashable => .unhashable

/-- A rule and an ISO day. -/
abbrev Key := PyStr × PyStr

/-- The statuses of a record. -/
def statuses : List PyStr := ["claimed", "superseded"].map pyStr

/-- The rules of a record. -/
def ruleValues : List PyStr := Rule.all.map fun rule => pyStr rule.text

/-- The separators of `_line`; NaN is allowed, and does not occur. -/
def lineStyle : JsonStyle := ⟨true, ",", ":", true, true⟩

section Lines

variable {F : Type} (floats : FloatText F) (limits : JsonLimits)

/-- The record of a line. -/
def lineRecord (rule day status ts : PyStr) : Json F :=
  .object [(pyStr "day", .str day), (pyStr "rule", .str rule), (pyStr "status", .str status),
    (pyStr "ts", .str ts)]

/-- The text of a line; strings can always be written (`dumps_lineRecord`). -/
def lineText (rule day status ts : PyStr) : Bytes :=
  asciiBytes ((dumps floats limits lineStyle (lineRecord rule day status ts)).getD [])

/-- `_line`. -/
def line (rule day status ts : PyStr) : Bytes := lineText floats limits rule day status ts ++ [10]

/-- A record whose values are not those of an alert. -/
def unexpectedValues : LineFailure := .corrupt "unexpected values"

/-- A rule of the paper trader; a list or an object cannot be looked up. -/
def ruleOf (record : Record F) : Except LineFailure PyStr :=
  match record.get "rule" with
  | some (.array _) => .error .unhashable
  | some (.object _) => .error .unhashable
  | found => do
      let rule ← require unexpectedValues (found.bind Json.str?)
      ensure (rule ∈ ruleValues) unexpectedValues
      return rule

/-- The rule, the day, the status and the time of a record. -/
def recordValues (record : Record F) : Except LineFailure (PyStr × PyStr × PyStr × PyStr) := do
  let rule ← ruleOf record
  let status ← require unexpectedValues ((record.get "status").bind Json.str?)
  ensure (status ∈ statuses) unexpectedValues
  let ts ← require unexpectedValues ((record.get "ts").bind Json.str?)
  let day ← require unexpectedValues ((record.get "day").bind Json.str?)
  return (rule, day, status, ts)

/-- The rule and the day of a line. -/
def keyOf (raw : Bytes) : Except LineFailure Key := do
  let notRecord := LineFailure.corrupt "not a JSON record"
  ensure (raw.all (fun byte => byte < 128) = true) notRecord
  let value ← (loads floats limits (fun _ => none) (asciiText raw)).mapError fun _ => notRecord
  match value with
  | .object record =>
      ensure (hasKeys record (["day", "rule", "status", "ts"].map pyStr) = true)
        (.corrupt "unexpected fields")
      let (rule, day, status, ts) ← recordValues record
      let date ← require (.corrupt "bad day") (Date.fromIsoformat? day)
      ensure (pyStr date.isoformat = day) (.corrupt "bad day")
      ensure (line floats limits rule day status ts = raw ++ [10]) (.corrupt "not canonical")
      return (rule, day)
  | _ => .error (.corrupt "unexpected fields")

/-- `parse_handled`: the keys in the order of their lines. -/
def parseHandled (data : Bytes) : Except Failure (List Key) := do
  ensure (data = [] ∨ data.getLast? = some 10)
    (.corrupt (data.count 10) "the last line is not terminated")
  (Lines.linesOf 10 data).zipIdx.mapM fun item =>
    (keyOf floats limits item.1).mapError (LineFailure.atLine item.2)

/-! ## Claims -/

/-- The entries whose keys are not handled, each key once. -/
def unhandled : List Key → List (Key × PyStr) → List (Key × PyStr)
  | _, [] => []
  | handled, (key, status) :: rest =>
      if key ∈ handled then unhandled handled rest
      else (key, status) :: unhandled (key :: handled) rest

/-- The lines of some alerts. -/
def linesFor (entries : List (Key × PyStr)) (ts : PyStr) : Bytes :=
  entries.flatMap fun entry => line floats limits entry.1.1 entry.1.2 entry.2 ts

/-- Where a call stands. The lock is held while it is `locked` or `writing`. -/
inductive Phase where
  | absent
  | locked (entries : List (Key × PyStr)) (ts : PyStr)
  /-- The keys to return, and what is left to write. -/
  | writing (keys : List Key) (left : Bytes)
  | returned (keys : List Key)
  | raised (failure : Failure)
  | crashed
  deriving DecidableEq

/-- The process has the lock of the file. -/
def Phase.holdsLock : Phase → Bool
  | .locked _ _ => true
  | .writing _ _ => true
  | _ => false

/-- The file, none being empty, the call that holds the lock, and where every call stands. -/
structure State where
  file : Bytes
  holder : Option ℕ
  phase : ℕ → Phase

/-- A file that no process uses yet. -/
def State.start (file : Bytes) : State := ⟨file, none, fun _ => .absent⟩

/-- A call stands elsewhere. -/
def State.put (state : State) (call : ℕ) (phase : Phase) : State :=
  { state with phase := Function.update state.phase call phase }

/-- A call ends and lets the lock go. -/
def State.leave (state : State) (call : ℕ) (phase : Phase) : State :=
  { state.put call phase with holder := none }

/-- What a call under the lock does after it has read the file: it returns nothing when every key is
handled, and else checks what it is about to write. -/
def prepare (file : Bytes) (entries : List (Key × PyStr)) (ts : PyStr) :
    Except Failure (List Key × Bytes) := do
  let handled ← parseHandled floats limits file
  let new := unhandled handled entries
  let data := linesFor floats limits new ts
  let _ ← parseHandled floats limits data
  return (new.map Prod.fst, data)

/-- What happens next. -/
inductive Action where
  /-- A call starts; its lock file may not open. -/
  | start (call : ℕ) (entries : List (Key × PyStr)) (ts : PyStr) (opens : Bool)
  /-- The holder of the lock reads the file, which may fail. -/
  | read (call : ℕ) (readable : Bool)
  /-- The operating system takes so many of the bytes that are left. -/
  | write (call : ℕ) (count : ℕ)
  /-- The operating system refuses to open, to write or to sync the file. -/
  | fail (call : ℕ)
  /-- The process ends, and its lock with it. -/
  | crash (call : ℕ)
  /-- All is written and synced. -/
  | finish (call : ℕ)

/-- One action. An action of a call that does not stand where it needs to changes nothing. -/
def step (state : State) : Action → State
  | .start call entries ts opens =>
      match state.phase call with
      | .absent =>
          if ¬ ∀ entry ∈ entries, entry.2 ∈ statuses then state.put call (.raised .unknownStatus)
          else if opens = false then state.put call (.raised .unreadable)
          else if state.holder.isSome then state.put call (.raised .busy)
          else { state.put call (.locked entries ts) with holder := some call }
      | _ => state
  | .read call readable =>
      match state.phase call with
      | .locked entries ts =>
          if readable = false then state.leave call (.raised .unreadable)
          else
            match prepare floats limits state.file entries ts with
            | .error failure => state.leave call (.raised failure)
            | .ok ([], _) => state.leave call (.returned [])
            | .ok (keys, data) => state.put call (.writing keys data)
      | _ => state
  | .write call count =>
      match state.phase call with
      | .writing keys left =>
          { state.put call (.writing keys (left.drop count)) with
            file := state.file ++ left.take count }
      | _ => state
  | .fail call =>
      match state.phase call with
      | .writing _ _ => state.leave call (.raised .writeFailed)
      | _ => state
  | .crash call =>
      if (state.phase call).holdsLock then state.leave call .crashed else state
  | .finish call =>
      match state.phase call with
      | .writing keys [] => state.leave call (.returned keys)
      | _ => state

/-- Actions of any number of processes, in order. -/
def run (state : State) (actions : List Action) : State :=
  actions.foldl (step floats limits) state

end Lines

end CryptoRadar.Alerts
