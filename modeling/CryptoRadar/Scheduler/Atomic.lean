import CryptoRadar.Scheduler.Histories

/-!
# A scheduler error changes nothing

A client may pass any value where the scheduler wants a version, an id or a role. The source
checks the types of the arguments before it reads the clock, so a value of another type is
one refusal whatever it is: `Request` has an absent argument in its place.

`request_settles` is one request: it raises an error of the scheduler from an unchanged state,
or it returns. A sum of a moment and a duration that leaves the calendar would raise
`Raise.overflow`, so to return is to have computed no such sum. `requests_refuse_or_return` says
it of every request in every state that requests reach.
-/

set_option autoImplicit false

namespace CryptoRadar.Scheduler

open Program Invocation

/-- A call as a client makes it: an argument that is not of the wanted type is absent. -/
inductive Request where
  | admitVersion (reading : Option Moment) (version : Option OpportunityVersion)
  | dispatch (reading : Option Moment)
  | authorizeCall (reading : Option Moment) (itemId : Option String) (role : Option Role)
      (repair : Option Bool) (prompt : Option Nat)
  | complete (reading : Option Moment) (itemId : Option String)
  | fail (reading : Option Moment) (itemId : Option String)
  | sweep (reading : Option Moment)

/-- The call a request makes when all its arguments have the wanted types. -/
def Request.call : Request → Option Call
  | .admitVersion reading version => version.map (.admitVersion reading)
  | .dispatch reading => some (.dispatch reading)
  | .authorizeCall reading itemId role repair prompt => do
      return .authorizeCall reading (← itemId) (← role) (← repair) (← prompt)
  | .complete reading itemId => itemId.map (.complete reading)
  | .fail reading itemId => itemId.map (.fail reading)
  | .sweep reading => some (.sweep reading)

/-- The type checks, then the operation. -/
def serve (policy : SchedulerPolicy) (request : Request) : Op Answer :=
  match request.call with
  | some call => perform policy call
  | none => raise .invalidField

/-- The scheduler under requests made one after the other. -/
def server (policy : SchedulerPolicy) : Runs.Machine State Request (Except Raise Answer) where
  step state request := (serve policy request).exec state

/-- **One request**: it raises an error of the scheduler and changes nothing, or it returns and
keeps the invariant. -/
theorem request_settles (policy : SchedulerPolicy) {state : State} (consistent : Consistent state)
    (request : Request) :
    Settles IsRefusal (serve policy request) state fun _ after => Consistent after := by
  unfold serve
  cases request.call with
  | none => exact settles_raise _
  | some call =>
      exact (perform_settles policy consistent call).mono fun _ _ recorded => recorded.consistent

theorem next_consistent (policy : SchedulerPolicy) {state : State} (consistent : Consistent state)
    (request : Request) : Consistent ((server policy).next state request) := by
  change Consistent ((serve policy request).exec state).2
  rcases request_settles policy consistent request with ⟨failure, _, ran⟩ | ⟨answer, after, ran, kept⟩
  · rw [ran]
    exact consistent
  · rw [ran]
    exact kept

theorem run_consistent (policy : SchedulerPolicy) (requests : List Request) :
    Consistent ((server policy).run .initial requests) :=
  (server policy).run_invariant (fun _ => True) Consistent
    (fun _ request _ consistent => next_consistent policy consistent request) requests .initial
    (fun _ _ => trivial) consistent_initial

/-- **A scheduler error changes nothing, and nothing else is raised.** From every state that
requests reach, every request, with any arguments and any clock reading, raises an error of the
scheduler and leaves the whole state as it was, or returns without a sum of time that leaves
the calendar and without a missing key. -/
theorem requests_refuse_or_return (policy : SchedulerPolicy) (requests : List Request)
    (request : Request) :
    let state := (server policy).run .initial requests
    (∃ code, (serve policy request).exec state = (.error (.scheduler code), state)) ∨
      ∃ answer after, (serve policy request).exec state = (.ok answer, after) := by
  intro state
  rcases request_settles policy (run_consistent policy requests) request with
    ⟨failure, ⟨code, rfl⟩, ran⟩ | ⟨answer, after, ran, _⟩
  · exact .inl ⟨code, ran⟩
  · exact .inr ⟨answer, after, ran⟩

end CryptoRadar.Scheduler
