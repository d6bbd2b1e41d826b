import Mathlib.Data.List.Sort
import Mathlib.Logic.Function.Basic

/-!
# The push of an event

`send_mobile_notification`, `notify_for_event` and `retry_pending_ntfy` of `notifications.py` over the
event rows of `store.py`. A call reads the row, marks it `PENDING`, sends the push and records what came
of it: four steps, between which other calls take theirs. `retry_pending_ntfy` selects its rows first and
then sends for one after another.

Any number of calls may be under way (`State.callers`), and a call may stop between two steps. The other
parts of the program record events and change their `status`, which is none of the columns of the push.
-/

set_option autoImplicit false

namespace CryptoRadar.Notifications

/-! ## Events -/

/-- The levels of an event. -/
inductive Level where
  | low
  | medium
  | high
  deriving DecidableEq, Repr

/-- `notification_level_for_model`. -/
def notificationLevelForModel : Option String → Level
  | none => .low
  | some model => if model = "SONNET" then .medium else if model = "FABLE" then .high else .low

/-- The states of a push. -/
inductive NtfyStatus where
  | pending
  | sent
  | failed
  deriving DecidableEq, Repr

/-- What the transport returns. -/
inductive NtfyResult where
  | success
  | failed
  | disabled
  deriving DecidableEq, Repr

/-- The columns of an event that the push reads or writes. -/
structure EventRow where
  eventId : String
  status : String
  modelDemand : Option String
  ntfyStatus : Option NtfyStatus := none
  ntfyAttempts : ℕ := 0
  ntfyLastError : Option String := none
  ntfyUpdatedTs : Option String := none
  deriving DecidableEq, Repr

/-- The table of events. -/
abbrev Events := List EventRow

/-- `get_event`. -/
def getEvent (events : Events) (eventId : String) : Option EventRow :=
  events.find? fun row => row.eventId = eventId

/-- The row after `set_ntfy_status`: a failure is counted. -/
def EventRow.withNtfy (row : EventRow) (status : NtfyStatus) (nowIso : String) (error : Option String) :
    EventRow :=
  { row with
    ntfyStatus := some status
    ntfyAttempts := if status = .failed then row.ntfyAttempts + 1 else row.ntfyAttempts
    ntfyLastError := error
    ntfyUpdatedTs := some nowIso }

/-- `set_ntfy_status`. -/
def setNtfyStatus (events : Events) (eventId : String) (status : NtfyStatus) (nowIso : String)
    (error : Option String) : Events :=
  events.map fun row => if row.eventId = eventId then row.withNtfy status nowIso error else row

/-- The order of the retries: rows without a time first. -/
def byUpdated (first second : EventRow) : Prop :=
  match first.ntfyUpdatedTs, second.ntfyUpdatedTs with
  | none, _ => True
  | some _, none => False
  | some early, some late => early ≤ late

instance : DecidableRel byUpdated := fun first second => by
  unfold byUpdated
  split <;> infer_instance

/-- A processed event whose push failed, under the limit and not too lately. -/
def EventRow.isCandidate (row : EventRow) (cutoffIso : String) (maxAttempts : ℤ) : Bool :=
  row.status = "PROCESSED" && row.ntfyStatus = some .failed && (row.ntfyAttempts : ℤ) < maxAttempts &&
    row.ntfyUpdatedTs.all fun updated => updated ≤ cutoffIso

/-- `find_ntfy_retry_candidates`. -/
def findNtfyRetryCandidates (events : Events) (cutoffIso : String) (maxAttempts : ℤ) : List EventRow :=
  ((events.filter fun row => row.isCandidate cutoffIso maxAttempts).insertionSort byUpdated).take 20

/-! ## Calls -/

/-- One `send_mobile_notification`, with the row that a retry selected. -/
structure Job where
  eventId : String
  selected : Option EventRow
  deriving DecidableEq, Repr

/-- The next step of a call: the check of `SENT`, the mark, the transport, the record of its result. -/
inductive Stage where
  | read
  | mark
  | send
  | settle (result : NtfyResult)
  deriving DecidableEq, Repr

/-- A call at work on one event, and the events that it sends for later. -/
structure Caller where
  job : Job
  stage : Stage
  later : List Job
  deriving DecidableEq, Repr

/-- A call that is to send for these events. -/
def callerOf : List Job → Option Caller
  | [] => none
  | job :: later => some ⟨job, .read, later⟩

/-- The events that `retry_pending_ntfy` sends for; a low level is never sent. -/
def retryJobs (rows : List EventRow) : List Job :=
  (rows.filter fun row => notificationLevelForModel row.modelDemand ≠ .low).map fun row =>
    ⟨row.eventId, some row⟩

/-- The rows, the calls under way and the events of the pushes that succeeded. -/
structure State where
  events : Events
  callers : ℕ → Option Caller
  pushes : List String

/-- No event, no caller at work and no push. -/
def State.empty : State := ⟨[], fun _ => none, []⟩

/-- The event is marked as sent. -/
def State.Sent (state : State) (eventId : String) : Prop :=
  ∃ row, getEvent state.events eventId = some row ∧ row.ntfyStatus = some .sent

instance (state : State) (eventId : String) : Decidable (state.Sent eventId) :=
  decidable_of_iff ((getEvent state.events eventId).any fun row => row.ntfyStatus = some .sent) (by
    simp [State.Sent, Option.any_eq_true])

/-- A caller goes on. -/
def State.put (state : State) (caller : ℕ) (slot : Option Caller) : State :=
  { state with callers := Function.update state.callers caller slot }

/-- What happens next. -/
inductive Action where
  /-- `notify_for_event` for an event. -/
  | notify (caller : ℕ) (eventId : String) (model : Option String)
  /-- `retry_pending_ntfy` selects its rows. -/
  | retry (caller : ℕ) (configured : Bool) (cutoffIso : String)
  | read (caller : ℕ)
  | mark (caller : ℕ) (nowIso : String)
  | send (caller : ℕ) (result : NtfyResult)
  | settle (caller : ℕ) (nowIso : String)
  /-- The call ends where it is. -/
  | stop (caller : ℕ)
  /-- An event is recorded. -/
  | record (eventId status : String) (modelDemand : Option String)
  /-- The event gets another status. -/
  | process (eventId status : String)
  deriving DecidableEq, Repr

/-- The result of the transport is recorded. -/
def settled (events : Events) (eventId nowIso : String) : NtfyResult → Events
  | .success => setNtfyStatus events eventId .sent nowIso none
  | .failed => setNtfyStatus events eventId .failed nowIso (some "ntfy_send_failed")
  | .disabled => events

/-- One action. An action of a call that is not at this step changes nothing. -/
def step (maxAttempts : ℤ) (state : State) : Action → State
  | .notify caller eventId model =>
      if (state.callers caller).isSome ∨ notificationLevelForModel model = .low then state
      else state.put caller (callerOf [⟨eventId, none⟩])
  | .retry caller configured cutoffIso =>
      if (state.callers caller).isSome ∨ configured = false then state
      else state.put caller
        (callerOf (retryJobs (findNtfyRetryCandidates state.events cutoffIso maxAttempts)))
  | .read caller =>
      match state.callers caller with
      | some ⟨job, .read, later⟩ =>
          if state.Sent job.eventId then state.put caller (callerOf later)
          else state.put caller (some ⟨job, .mark, later⟩)
      | _ => state
  | .mark caller nowIso =>
      match state.callers caller with
      | some ⟨job, .mark, later⟩ =>
          { state.put caller (some ⟨job, .send, later⟩) with
            events := setNtfyStatus state.events job.eventId .pending nowIso none }
      | _ => state
  | .send caller result =>
      match state.callers caller with
      | some ⟨job, .send, later⟩ =>
          { state.put caller (some ⟨job, .settle result, later⟩) with
            pushes := if result = .success then state.pushes ++ [job.eventId] else state.pushes }
      | _ => state
  | .settle caller nowIso =>
      match state.callers caller with
      | some ⟨job, .settle result, later⟩ =>
          { state.put caller (callerOf later) with
            events := settled state.events job.eventId nowIso result }
      | _ => state
  | .stop caller => state.put caller none
  | .record eventId status modelDemand =>
      if (getEvent state.events eventId).isSome then state
      else { state with
        events := state.events ++ [{ eventId := eventId, status := status, modelDemand := modelDemand }] }
  | .process eventId status =>
      { state with
        events := state.events.map fun row =>
          if row.eventId = eventId then { row with status := status } else row }

/-- The actions one after the other. -/
def run (maxAttempts : ℤ) (state : State) (actions : List Action) : State :=
  actions.foldl (step maxAttempts) state

end CryptoRadar.Notifications
