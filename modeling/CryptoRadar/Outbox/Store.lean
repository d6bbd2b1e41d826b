import CryptoRadar.Lib.Checked
import CryptoRadar.Lib.IsoTime
import CryptoRadar.Lib.JsonText
import CryptoRadar.Lib.JsonRead
import CryptoRadar.Lib.Machine
import CryptoRadar.Lib.Moment
import CryptoRadar.Lib.Text
import CryptoRadar.Pilot.Tables

/-!
# The outbox

Lifecycle transitions, event snapshots, handoffs and consumer cursors
(`adapters/outbox_store.py`). A call that writes is one transaction: it runs when it gets the
write lock, and a call that raises writes nothing. So writers that share the database are one
list of calls, in the order they get the lock. `record_event_row` runs inside a transaction of
its caller; a transaction that is rolled back leaves no row, so a run lists the rows of those
that commit.

A row of the outbox keeps its payload as JSON text. Rows are never changed or removed, and `seq`
counts them.
-/

set_option autoImplicit false

namespace CryptoRadar.Outbox

open Checked
open Pilot (sqlLength)

/-- What a delivery is about. -/
inductive OutboxKind where
  | event
  | lifecycle
  | handoff
  deriving DecidableEq, Repr

/-- The states of an opportunity on its way through the worker. -/
inductive LifecycleState where
  | queued
  | loading
  | running
  | finished
  | failed
  | abortStale
  | superseded
  | droppedBackpressure
  deriving DecidableEq, Repr

/-- The text a state is stored as. -/
def LifecycleState.text : LifecycleState → String
  | .queued => "QUEUED"
  | .loading => "LOADING"
  | .running => "RUNNING"
  | .finished => "FINISHED"
  | .failed => "FAILED"
  | .abortStale => "ABORT_STALE"
  | .superseded => "SUPERSEDED"
  | .droppedBackpressure => "DROPPED_BACKPRESSURE"

/-- `TERMINAL_STATES`. -/
def terminalStates : List LifecycleState :=
  [.finished, .failed, .abortStale, .superseded, .droppedBackpressure]

/-- An admission can be refused outright. -/
def initialStates : List LifecycleState :=
  [.queued, .superseded, .droppedBackpressure, .abortStale]

/-- `ALLOWED_TRANSITIONS`. -/
def allowedTransitions : LifecycleState → List LifecycleState
  | .queued => [.loading, .running, .superseded, .droppedBackpressure, .abortStale]
  | .loading => [.running, .failed, .abortStale]
  | .running => [.finished, .failed, .abortStale]
  | .finished | .failed | .abortStale | .superseded | .droppedBackpressure => []

/-- A handoff dispatches an opportunity or accepts it. -/
inductive HandoffType where
  | dispatch
  | accept
  deriving DecidableEq, Repr

/-- The text a type is stored as. -/
def HandoffType.text : HandoffType → String
  | .dispatch => "DISPATCH"
  | .accept => "ACCEPT"

/-- The codes of an `OutboxError`. -/
inductive OutboxFailure where
  | invalidField
  | invalidClock
  | invalidTransition
  | handoffWithoutParties
  | handoffSameParty
  | deliveryConflict
  | unknownEvent
  | cursorBeyondOutbox
  | noTransaction
  | openTransaction
  | schemaNotMigrated
  | corruptRow
  | exportFailed
  | busy
  | storageError
  deriving DecidableEq, Repr

/-- What a call raises: an `OutboxError`; one with a text of SQLite (`storage`), when a constraint
or a trigger of the schema refuses; or what `json` raises. -/
inductive OutboxRaise where
  | outbox (code : OutboxFailure) (detail : String)
  | storage
  | json
  deriving DecidableEq, Repr

/-- The parts of the Python runtime: the text of floats, the limits of `json`, and `repr` of a
text. -/
structure OutboxRuntime (F : Type) where
  floats : FloatText F
  lawful : floats.Lawful
  limits : JsonLimits
  reprText : String → String

/-! ## Arguments -/

/-- An argument that should be a text, or `None`. -/
inductive TextValue where
  | none
  | text (given : String)
  | other
  deriving DecidableEq, Repr

/-- An argument that should be an aware time. -/
inductive ClockValue where
  | aware (moment : Moment)
  | other
  deriving DecidableEq

/-- An `OutboxError` about an argument. -/
def invalidField {α : Type} (detail : String) : Except OutboxRaise α :=
  .error (.outbox .invalidField detail)

/-- `[a-z]`. -/
def isLower (char : Char) : Bool := 'a' ≤ char && char ≤ 'z'

/-- `[A-Z]`. -/
def isUpper (char : Char) : Bool := 'A' ≤ char && char ≤ 'Z'

/-- `[0-9]`. -/
def isDigit (char : Char) : Bool := '0' ≤ char && char ≤ '9'

/-- A text of one character of the first kind and at most `more` of the second. -/
def isWord (first other : Char → Bool) (more : ℕ) (text : String) : Bool :=
  match text.toList with
  | [] => false
  | char :: rest => first char && rest.length ≤ more && rest.all other

/-- `_IDENTIFIER`. -/
def isIdentifier : String → Bool :=
  isWord (fun char => isLower char || isUpper char || isDigit char)
    (fun char => isLower char || isUpper char || isDigit char || char ∈ ['.', '_', ':', '-']) 127

/-- `_ROLE`. -/
def isRole : String → Bool := isWord isLower (fun char => isLower char || isDigit char || char = '_') 63

/-- `_CODE`. -/
def isCode : String → Bool := isWord isLower (fun char => isLower char || isDigit char || char = '_') 63

/-- `_EVIDENCE_HASH`. -/
def isEvidenceHash (text : String) : Bool :=
  text.toList.take 7 = "sha256:".toList && (text.toList.drop 7).length = 64 &&
    (text.toList.drop 7).all fun char => isDigit char || ('a' ≤ char && char ≤ 'f')

/-- `_utc_text`. -/
def utcTextOf (now : ClockValue) (field : String) : Except OutboxRaise String :=
  match now with
  | .aware moment => .ok moment.isoText
  | .other => .error (.outbox .invalidClock (field ++ " must be a timezone-aware datetime"))

/-- `_identifier`. -/
def identifier (value : TextValue) (field : String) : Except OutboxRaise String :=
  let refusal := invalidField (field ++ " must be an identifier of 1..128 safe characters")
  match value with
  | .text given => if isIdentifier given then .ok given else refusal
  | .none | .other => refusal

/-- `_optional`. -/
def optional (value : TextValue) (field : String) (pattern : String → Bool) :
    Except OutboxRaise (Option String) :=
  let refusal := invalidField (field ++ " is malformed")
  match value with
  | .none => .ok none
  | .text given => if pattern given then .ok (some given) else refusal
  | .other => refusal

/-- `_code`. -/
def code (value : TextValue) (field : String) : Except OutboxRaise String :=
  let refusal := invalidField (field ++ " must be a lowercase code, not free text")
  match value with
  | .text given => if isCode given then .ok given else refusal
  | .none | .other => refusal

/-- `_party`. -/
def party (value : TextValue) (field : String) : Except OutboxRaise String :=
  let missing := .error (.outbox .handoffWithoutParties ("a handoff needs a real " ++ field))
  let refusal := invalidField (field ++ " must be a lowercase role identifier")
  match value with
  | .none => missing
  | .text given =>
      if Text.strip given = "" then missing else if isRole given then .ok given else refusal
  | .other => refusal

/-- `_consumer`. -/
def consumer (value : TextValue) : Except OutboxRaise String :=
  let refusal := invalidField "consumer must be 1..1024 printable characters"
  match value with
  | .text given => if Text.isPlain 1024 given then .ok given else refusal
  | .none | .other => refusal

/-! ## Rows -/

/-- A row of the table `outbox`. -/
structure OutboxEntry where
  seq : ℕ
  deliveryId : String
  kind : OutboxKind
  subjectId : String
  state : Option String
  sender : Option String
  receiver : Option String
  payloadJson : PyStr
  recordedAt : String
  deriving DecidableEq

/-- A row of the table `lifecycle_items`. -/
structure LifecycleRow where
  itemId : String
  state : LifecycleState
  enteredAt : String
  updatedAt : String
  deriving DecidableEq

/-- A row of the table `outbox_cursors`. -/
structure CursorRow where
  consumer : String
  position : ℕ
  byteOffset : Option ℕ
  updatedAt : String
  deriving DecidableEq

/-- The tables. -/
structure OutboxDb where
  items : List LifecycleRow := []
  outbox : List OutboxEntry := []
  cursors : List CursorRow := []
  deriving DecidableEq

/-- `json.dumps(payload, ensure_ascii=False)`. -/
def payloadStyle : JsonStyle := ⟨false, ", ", ": ", false, true⟩

section Payload

variable {F : Type} (runtime : OutboxRuntime F)

/-- `json.dumps(payload, ensure_ascii=False)`. -/
def dumpsPayload (members : List (PyStr × Json F)) : Except OutboxRaise PyStr :=
  require .json (JsonText.dumps runtime.floats runtime.limits payloadStyle (.object members))

/-- The items of the payload of a row. -/
def OutboxEntry.payload (entry : OutboxEntry) : Except OutboxRaise (List (PyStr × Json F)) :=
  let corrupt (detail : String) : OutboxRaise :=
    .outbox .corruptRow ("outbox seq " ++ toString entry.seq ++ ": payload is not " ++ detail)
  match JsonText.loads runtime.floats runtime.limits (fun _ => none) entry.payloadJson with
  | .ok (.object members) => .ok members
  | .ok _ => .error (corrupt "an object")
  | .error .recursion => .error .json
  | .error _ => .error (corrupt "JSON")

end Payload

/-- A text or `None` as JSON. -/
def optionalJson {F : Type} : Option String → Json F
  | none => .null
  | some text => .str (pyStr text)

/-- A member that is missing or null is no text; another equals its text. -/
def sameText {F : Type} (stored : Option (Json F)) (given : Option String) : Bool :=
  match stored, given with
  | none, none | some .null, none => true
  | some (.str text), some given => text = pyStr given
  | _, _ => false

namespace OutboxDb

variable (db : OutboxDb)

/-- `_by_delivery`. -/
def byDelivery (deliveryId : String) : Option OutboxEntry :=
  db.outbox.find? fun entry => entry.deliveryId = deliveryId

/-- SQLite's `trim` removes spaces only. -/
def isTrimmedEmpty (text : String) : Bool := text.toList.all fun char => char = ' '

/-- The constraints of the outbox; `seq` has 64 bits. -/
def entryFits (entry : OutboxEntry) : Prop :=
  entry.seq < 2 ^ 63 ∧ (∀ other ∈ db.outbox, other.deliveryId ≠ entry.deliveryId) ∧
  0 < sqlLength entry.deliveryId ∧ 0 < sqlLength entry.subjectId ∧
  match entry.kind with
  | .handoff => entry.state = none ∧ ∃ sender ∈ entry.sender, ∃ receiver ∈ entry.receiver,
      isTrimmedEmpty sender = false ∧ isTrimmedEmpty receiver = false ∧ sender ≠ receiver
  | .event | .lifecycle => entry.sender = none ∧ entry.receiver = none ∧ entry.state.isSome = true

instance (entry : OutboxEntry) : Decidable (db.entryFits entry) := by
  unfold entryFits
  cases entry.kind <;> infer_instance

/-- `_insert`. -/
def insert (deliveryId : String) (kind : OutboxKind) (subjectId : String)
    (state sender receiver : Option String) (payloadJson : PyStr) (recordedAt : String) :
    Except OutboxRaise (OutboxEntry × OutboxDb) := do
  let entry : OutboxEntry := ⟨db.outbox.length + 1, deliveryId, kind, subjectId, state, sender,
    receiver, payloadJson, recordedAt⟩
  ensure (db.entryFits entry) .storage
  return (entry, { db with outbox := db.outbox ++ [entry] })

/-- `_lifecycle_state`. -/
def lifecycleState (itemId : String) : Option LifecycleState :=
  (db.items.find? fun row => row.itemId = itemId).map LifecycleRow.state

/-- `_cursor_row`. -/
def cursorRow (consumer : String) : Option CursorRow :=
  db.cursors.find? fun row => row.consumer = consumer

/-- `_last_seq`. -/
def lastSeq : ℕ := (db.outbox.map OutboxEntry.seq).foldl max 0

/-- `_save_cursor`; a cursor never moves back. -/
def saveCursor (consumer : String) (position : ℕ) (byteOffset : Option ℕ) (nowText : String) :
    Except OutboxRaise OutboxDb := do
  let row : CursorRow := ⟨consumer, position, byteOffset, nowText⟩
  match db.cursorRow consumer with
  | none =>
      ensure (0 < sqlLength consumer) .storage
      return { db with cursors := db.cursors ++ [row] }
  | some old =>
      ensure (old.position ≤ position) .storage
      return { db with cursors := db.cursors.map fun other =>
        if other.consumer = consumer then row else other }

end OutboxDb

/-! ## The write lock -/

/-- A call gets the write lock, or is refused: the database stays busy, its schema is not migrated,
or the caller holds a transaction. -/
inductive Lock where
  | granted
  | refused (code : OutboxFailure) (detail : String)
  deriving DecidableEq, Repr

/-- `_write`. -/
def write {α : Type} (lock : Lock) (work : Except OutboxRaise α) : Except OutboxRaise α :=
  match lock with
  | .granted => work
  | .refused code detail => .error (.outbox code detail)

/-- `created` is false when the same delivery was recorded before. -/
structure RecordResult where
  entry : OutboxEntry
  created : Bool
  deriving DecidableEq

section Calls

variable {F : Type} (runtime : OutboxRuntime F)

/-! ## Event rows -/

/-- A value of a column of `events`; a blob comes with the text `str` gives it. -/
inductive SqlValue (F : Type) where
  | null
  | integer (value : ℤ)
  | real (value : F)
  | text (value : String)
  | blob (shown : String)

/-- What `json` makes of the value of a column. -/
def SqlValue.toJson : SqlValue F → Json F
  | .null => .null
  | .integer value => .int value
  | .real value => .float value
  | .text value | .blob value => .str (pyStr value)

/-- A row of `events`: its columns in order. -/
abbrev EventRow (F : Type) := List (String × SqlValue F)

/-- The status of an event, which must be a text with characters. -/
def eventStatus (eventId : String) (payload : Dict String (SqlValue F)) :
    Except OutboxRaise String :=
  let noStatus := OutboxRaise.outbox .corruptRow
    ("event " ++ runtime.reprText eventId ++ " has no status")
  match Dict.get? payload "status" with
  | some (.text status) => if status = "" then .error noStatus else .ok status
  | _ => .error noStatus

/-- `record_event_row`, for the row of the event as the caller's transaction sees it. -/
def recordEventRow (eventId : String) (row : Option (EventRow F)) (now : ClockValue)
    (inTransaction : Bool) (lock : Lock) (db : OutboxDb) :
    Except OutboxRaise (OutboxEntry × OutboxDb) := do
  let recordedAt ← utcTextOf now "now"
  ensure (inTransaction = true)
    (.outbox .noTransaction "an event outbox row must share the caller's transaction")
  ensure (eventId ≠ "") (.outbox .invalidField "event_id must be non-empty text")
  write lock do
    let columns ← require (.outbox .unknownEvent ("no event " ++ runtime.reprText eventId)) row
    let payload := Dict.ofItems columns
    let status ← eventStatus runtime eventId payload
    let number := (db.outbox.filter fun entry =>
      entry.kind = .event && entry.subjectId = eventId).length + 1
    let payloadJson ← dumpsPayload runtime
      (payload.map fun column => (pyStr column.1, column.2.toJson))
    db.insert ("event:" ++ eventId ++ ":" ++ toString number) .event eventId (some status) none none
      payloadJson recordedAt

/-! ## Lifecycle transitions -/

/-- The states an item may enter next; a new item has no current state. -/
def movesFrom : Option LifecycleState → List LifecycleState
  | none => initialStates
  | some current => allowedTransitions current

/-- `check_transition` of a state. -/
def checkTransition (current : Option LifecycleState) (state : LifecycleState) :
    Except OutboxRaise Unit :=
  let before := (current.map LifecycleState.text).getD "(new item)"
  ensure (state ∈ movesFrom current)
    (.outbox .invalidTransition (before ++ " -> " ++ state.text ++ " is not allowed"))

/-- The arguments of `record_lifecycle_transition`; no state when it is of another type. -/
structure LifecycleCall where
  itemId : TextValue
  state : Option LifecycleState
  now : ClockValue
  relatedId : TextValue
  reason : TextValue

/-- The checked arguments. -/
structure Transition where
  item : String
  state : LifecycleState
  related : Option String
  code : Option String
  nowText : String
  deriving DecidableEq

/-- The checks of `record_lifecycle_transition`. -/
def checkCall (call : LifecycleCall) : Except OutboxRaise Transition := do
  let item ← identifier call.itemId "item_id"
  let state ← require (.outbox .invalidField "state must be a LifecycleState") call.state
  let related ← optional call.relatedId "related_id" isIdentifier
  let code ← match call.reason with
    | .none => pure none
    | given => some <$> code given "reason"
  let nowText ← utcTextOf call.now "now"
  return ⟨item, state, related, code, nowText⟩

/-- The delivery id of a transition: an item enters a state once. -/
def Transition.deliveryId (given : Transition) : String :=
  "lifecycle:" ++ given.item ++ ":" ++ given.state.text

/-- What a row says of a transition. -/
def transitionPayload (given : Transition) (previous : Option LifecycleState) :
    List (PyStr × Json F) :=
  [(pyStr "item_id", .str (pyStr given.item)), (pyStr "state", .str (pyStr given.state.text)),
    (pyStr "previous_state", optionalJson (previous.map LifecycleState.text)),
    (pyStr "at", .str (pyStr given.nowText)), (pyStr "related_id", optionalJson given.related),
    (pyStr "reason", optionalJson given.code)]

/-- The row of the item is inserted, or moved from its current state. A trigger keeps a finished
item as it is. -/
def moveItem (given : Transition) (current : Option LifecycleState) (db : OutboxDb) :
    Except OutboxRaise OutboxDb :=
  match current with
  | none => do
      ensure (0 < sqlLength given.item ∧ ∀ row ∈ db.items, row.itemId ≠ given.item) .storage
      return { db with
        items := db.items ++ [⟨given.item, given.state, given.nowText, given.nowText⟩] }
  | some before => do
      let count := db.items.countP fun row => row.itemId = given.item && row.state = before
      ensure (count = 0 ∨ before ∉ terminalStates) .storage
      ensure (count = 1) (.outbox .storageError
        ("lifecycle update changed " ++ toString count ++ " rows"))
      return { db with items := db.items.map fun row =>
        if row.itemId = given.item ∧ row.state = before then
          { row with state := given.state, updatedAt := given.nowText }
        else row }

/-- The transaction of `record_lifecycle_transition`. -/
def transitionWork (given : Transition) (db : OutboxDb) :
    Except OutboxRaise (RecordResult × OutboxDb) :=
  match db.byDelivery given.deliveryId with
  | some existing => do
      let stored ← existing.payload runtime
      ensure (sameText (Dict.get? stored (pyStr "related_id")) given.related = true ∧
          sameText (Dict.get? stored (pyStr "reason")) given.code = true)
        (.outbox .deliveryConflict (given.deliveryId ++ " is already recorded with other details"))
      return (⟨existing, false⟩, db)
  | none => do
      let current := db.lifecycleState given.item
      checkTransition current given.state
      let moved ← moveItem given current db
      let payloadJson ← dumpsPayload runtime (transitionPayload given current)
      let (entry, after) ← moved.insert given.deliveryId .lifecycle given.item
        (some given.state.text) none none payloadJson given.nowText
      return (⟨entry, true⟩, after)

/-- `record_lifecycle_transition`. -/
def recordLifecycleTransition (call : LifecycleCall) (lock : Lock) (db : OutboxDb) :
    Except OutboxRaise (RecordResult × OutboxDb) := do
  let given ← checkCall call
  write lock (transitionWork runtime given db)

/-! ## Handoffs -/

/-- One message from a sender to a receiver about one opportunity. -/
structure Handoff where
  communicationId : TextValue
  runId : TextValue
  opportunityId : TextValue
  sender : TextValue
  receiver : TextValue
  handoffType : Option HandoffType
  reason : TextValue
  sentAt : ClockValue
  invocationId : TextValue
  evidenceHash : TextValue

/-- A checked handoff: its id, opportunity and parties, and its payload. -/
structure CheckedHandoff (F : Type) where
  communicationId : String
  opportunityId : String
  sender : String
  receiver : String
  payload : List (PyStr × Json F)

/-- `handoff_payload`; no handoff when the argument is of another type. -/
def handoffPayload (given : Option Handoff) : Except OutboxRaise (CheckedHandoff F) := do
  let handoff ← require (.outbox .invalidField "handoff must be a Handoff") given
  let sender ← party handoff.sender "sender"
  let receiver ← party handoff.receiver "receiver"
  ensure (sender ≠ receiver)
    (.outbox .handoffSameParty "sender and receiver must be two different agents")
  let handoffType ← require (.outbox .invalidField "handoff_type must be a HandoffType")
    handoff.handoffType
  let communicationId ← identifier handoff.communicationId "communication_id"
  let sentAt ← utcTextOf handoff.sentAt "at"
  let reason ← code handoff.reason "reason"
  let runId ← identifier handoff.runId "run_id"
  let opportunityId ← identifier handoff.opportunityId "opportunity_id"
  let invocationId ← optional handoff.invocationId "invocation_id" isIdentifier
  let evidenceHash ← optional handoff.evidenceHash "evidence_hash" isEvidenceHash
  return ⟨communicationId, opportunityId, sender, receiver,
    [(pyStr "id", .str (pyStr communicationId)), (pyStr "from", .str (pyStr sender)),
      (pyStr "to", .str (pyStr receiver)), (pyStr "ts", .str (pyStr sentAt)),
      (pyStr "type", .str (pyStr handoffType.text)), (pyStr "reason", .str (pyStr reason)),
      (pyStr "run_id", .str (pyStr runId)), (pyStr "opportunity_id", .str (pyStr opportunityId)),
      (pyStr "invocation_id", optionalJson invocationId),
      (pyStr "evidence_hash", optionalJson evidenceHash)]⟩

/-- `record_handoff`. -/
def recordHandoff (given : Option Handoff) (now : ClockValue) (lock : Lock) (db : OutboxDb) :
    Except OutboxRaise (RecordResult × OutboxDb) := do
  let handoff ← handoffPayload given
  let payloadJson ← dumpsPayload runtime handoff.payload
  let nowText ← utcTextOf now "now"
  let deliveryId := "handoff:" ++ handoff.communicationId
  write lock do
    match db.byDelivery deliveryId with
    | some existing =>
        ensure (existing.payloadJson = payloadJson) (.outbox .deliveryConflict
          (deliveryId ++ " is already recorded with other content"))
        return (⟨existing, false⟩, db)
    | none =>
        let (entry, after) ← db.insert deliveryId .handoff handoff.opportunityId none
          (some handoff.sender) (some handoff.receiver) payloadJson nowText
        return (⟨entry, true⟩, after)

end Calls

/-! ## Consumers -/

/-- `acknowledge`; no `seq` when the argument is no integer. -/
def acknowledge (given : TextValue) (seq : Option ℤ) (now : ClockValue) (lock : Lock)
    (db : OutboxDb) : Except OutboxRaise (ℕ × OutboxDb) := do
  let name ← consumer given
  let refusal := OutboxRaise.outbox .invalidField "seq must be a non-negative int"
  let number ← require refusal seq
  ensure (0 ≤ number) refusal
  let position := number.toNat
  let nowText ← utcTextOf now "now"
  write lock do
    ensure (position ≤ db.lastSeq) (.outbox .cursorBeyondOutbox
      ("seq " ++ toString position ++ " is past the last outbox row " ++ toString db.lastSeq))
    let row := db.cursorRow name
    let current := (row.map CursorRow.position).getD 0
    if position ≤ current then return (current, db)
    else
      let after ← db.saveCursor name position (row.bind CursorRow.byteOffset) nowText
      return (position, after)

/-! ## The machine -/

/-- The calls, in the order they get the write lock or are refused it. -/
inductive Operation (F : Type) where
  | eventRow (eventId : String) (row : Option (EventRow F)) (now : ClockValue)
      (inTransaction : Bool) (lock : Lock)
  | transition (call : LifecycleCall) (lock : Lock)
  | handoff (given : Option Handoff) (now : ClockValue) (lock : Lock)
  | acknowledge (consumer : TextValue) (seq : Option ℤ) (now : ClockValue) (lock : Lock)

/-- What an operation returns. -/
inductive Answer where
  | entry (row : OutboxEntry)
  | recorded (result : RecordResult)
  | position (seq : ℕ)
  deriving DecidableEq

section Machine

variable {F : Type} (runtime : OutboxRuntime F)

/-- One call, in its own transaction. -/
def attempt (db : OutboxDb) : Operation F → Except OutboxRaise (Answer × OutboxDb)
  | .eventRow eventId row now inTransaction lock => do
      let (entry, after) ← recordEventRow runtime eventId row now inTransaction lock db
      return (.entry entry, after)
  | .transition call lock => do
      let (result, after) ← recordLifecycleTransition runtime call lock db
      return (.recorded result, after)
  | .handoff given now lock => do
      let (result, after) ← recordHandoff runtime given now lock db
      return (.recorded result, after)
  | .acknowledge given seq now lock => do
      let (position, after) ← acknowledge given seq now lock db
      return (.position position, after)

/-- Calls of the store, one after another. -/
def outboxStore : Runs.Machine OutboxDb (Operation F) (Except OutboxRaise Answer) :=
  Runs.Machine.transactional (attempt runtime)

end Machine

end CryptoRadar.Outbox
