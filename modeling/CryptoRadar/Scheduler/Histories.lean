import CryptoRadar.Scheduler.Slot

/-!
# The records of the scheduler are complete and single

The records an operation returns close the lives they should and open at most one. The results
for the operations are collected in `perform_settles`, which also shows that an operation that
raises has changed nothing. `records_are_lives` is the result for whole runs: whatever the calls,
the versions and the clock, the states recorded for an id are whole lives and then the start of a
life exactly when the item is active and not aborted.
-/

set_option autoImplicit false

namespace CryptoRadar.Scheduler

open Program

/-- An admission records what it does. -/
theorem Admits.recorded {policy : SchedulerPolicy} {before after : State}
    {version : OpportunityVersion} {result : AdmissionResult} {out : List Transition}
    (admits : Admits policy before version result out after) : Recorded before out after := by
  obtain ⟨_, outcome⟩ := admits
  split at outcome
  next => exact outcome.2.toRecorded
  next => exact outcome.toRecorded

theorem settles_sweep {policy : SchedulerPolicy} {state : State} (consistent : Consistent state)
    (reading : Option Moment) :
    Settles IsRefusal (sweep policy reading) state fun out after => Recorded state out after := by
  refine (settles_readClock policy state reading).bind _ fun now room => ?_
  exact ((ends_begin consistent room).mono fun _ _ swept => swept.recorded).settles

/-- **One call**: it raises an error of the scheduler and changes nothing, or it returns, keeps
the invariant, and its records follow. -/
theorem perform_settles (policy : SchedulerPolicy) {state : State} (consistent : Consistent state)
    (call : Call) :
    Settles IsRefusal (perform policy call) state fun answer after =>
      Recorded state answer.transitions after := by
  cases call with
  | admitVersion reading version =>
      exact (settles_admitVersion_told consistent reading version).then_ends
        fun _ _ holds => ends_pure.mpr holds.recorded
  | dispatch reading =>
      exact (settles_dispatch_told consistent reading).then_ends
        fun _ _ holds => ends_pure.mpr holds.1.toRecorded
  | authorizeCall reading itemId role repair prompt =>
      exact (settles_authorizeCall_told consistent reading itemId role repair prompt).then_ends
        fun _ _ holds => ends_pure.mpr holds.1.toRecorded
  | complete reading itemId =>
      exact (settles_complete_told consistent reading itemId).then_ends
        fun _ _ holds => ends_pure.mpr holds.1.toRecorded
  | fail reading itemId =>
      exact (settles_fail_told consistent reading itemId).then_ends
        fun _ _ holds => ends_pure.mpr holds.1.toRecorded
  | sweep reading =>
      exact (settles_sweep consistent reading).then_ends fun _ _ holds => ends_pure.mpr holds

/-! ## Whole runs -/

/-- The records a call hands to the caller; a call that raises hands out none. -/
def emitted : Except Raise Answer → List Transition
  | .ok answer => answer.transitions
  | .error _ => []

theorem next_recorded (policy : SchedulerPolicy) {state : State} (consistent : Consistent state)
    (call : Call) :
    Recorded state (emitted ((scheduler policy).step state call).1)
      ((scheduler policy).next state call) := by
  change Recorded state (emitted ((perform policy call).exec state).1)
    ((perform policy call).exec state).2
  rcases perform_settles policy consistent call with ⟨failure, _, ran⟩ | ⟨answer, after, ran, holds⟩
  · rw [ran]
    exact ⟨consistent, .refl state⟩
  · rw [ran]
    exact holds

def recordsOf (entries : List (Runs.Entry State Call (Except Raise Answer))) : List Transition :=
  entries.flatMap fun entry => emitted entry.answer

theorem run_recorded (policy : SchedulerPolicy) (calls : List Call) :
    Recorded .initial (recordsOf ((scheduler policy).trace .initial calls))
      ((scheduler policy).run .initial calls) := by
  have history := (scheduler policy).history_invariant (fun _ => True)
    (fun past state => Recorded .initial (recordsOf past) state) ?_ calls [] .initial
    (fun _ _ => trivial) ⟨consistent_initial, .refl _⟩
  · exact history
  · intro past state call _ recorded
    have added := recorded.trans (next_recorded policy recorded.consistent call)
    unfold recordsOf at added ⊢
    rw [List.flatMap_append]
    simpa [Runs.Machine.entry] using added

/-- **The records of an item are lives.** In every run from the initial state, with any
versions and any clock readings, the states recorded for an id are whole lives, each ended by
its one terminal state, and then the start of a life exactly when the item is queued, or runs
and is not aborted. -/
theorem records_are_lives (policy : SchedulerPolicy) (calls : List Call) (itemId : String) :
    ∃ lives : List Life, (∀ life ∈ lives, life.last.isTerminal) ∧
      statesOf itemId (recordsOf ((scheduler policy).trace .initial calls)) =
        lives.flatMap Life.states ++ ((scheduler policy).run .initial calls).openStates itemId := by
  have whole := (run_recorded policy calls).follows itemId
  have nothing : State.initial.openStates itemId = [] := rfl
  rw [nothing, List.nil_append] at whole
  exact whole

end CryptoRadar.Scheduler
