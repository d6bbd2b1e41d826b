import Mathlib.Data.List.Basic

/-!
# Runs of a machine with inputs and answers

A machine takes one input at a time, answers it and moves to a new state. A run is a list
of inputs; its trace keeps, for every input, the state before, the answer and the state
after. Writers that share one state and are serialised by it are one machine whose inputs
carry the writer's arguments, so a statement about every list of inputs is a statement
about every interleaving.

An invariant is proved once, for one step, and holds after every run (`run_invariant`),
before and after every entry of its trace (`trace_invariant`). A property of the history
is an invariant of the pair of the trace so far and the state (`history_invariant`).

A transaction either commits an answer with a new state or fails and leaves the state as
it was (`transactional`). An invariant of such a machine is one that every committed
transaction keeps (`transactional_keeps`).
-/

set_option autoImplicit false

namespace Runs

universe u v w x

/-- A system that answers each input and takes a step. -/
structure Machine (State : Type u) (Input : Type v) (Answer : Type w) where
  step : State → Input → Answer × State

/-- One step of a run. -/
structure Entry (State : Type u) (Input : Type v) (Answer : Type w) where
  before : State
  input : Input
  answer : Answer
  after : State

namespace Machine

variable {State : Type u} {Input : Type v} {Answer : Type w} (machine : Machine State Input Answer)

def next (state : State) (input : Input) : State := (machine.step state input).2

/-- The state after the inputs. -/
def run (state : State) (inputs : List Input) : State := inputs.foldl machine.next state

def entry (state : State) (input : Input) : Entry State Input Answer where
  before := state
  input := input
  answer := (machine.step state input).1
  after := machine.next state input

/-- The trace of a list of inputs, oldest entry first. -/
def trace : State → List Input → List (Entry State Input Answer)
  | _, [] => []
  | state, input :: rest => machine.entry state input :: trace (machine.next state input) rest

@[simp] theorem run_nil (state : State) : machine.run state [] = state := rfl

@[simp] theorem run_cons (state : State) (input : Input) (rest : List Input) :
    machine.run state (input :: rest) = machine.run (machine.next state input) rest := rfl

theorem run_append (state : State) (first second : List Input) :
    machine.run state (first ++ second) = machine.run (machine.run state first) second :=
  List.foldl_append

/-- An entry of a trace is the step its input made from the state reached before it. -/
theorem exists_split_of_mem_trace {state : State} {inputs : List Input}
    {found : Entry State Input Answer} (member : found ∈ machine.trace state inputs) :
    ∃ earlier later, inputs = earlier ++ found.input :: later ∧
      found = machine.entry (machine.run state earlier) found.input := by
  induction inputs generalizing state with
  | nil => cases member
  | cons input rest ih =>
      rcases List.mem_cons.mp member with rfl | inside
      · exact ⟨[], rest, rfl, rfl⟩
      · obtain ⟨earlier, later, split, isEntry⟩ := ih inside
        exact ⟨input :: earlier, later, by rw [split]; rfl, isEntry⟩

/-- What stands before an entry of a trace is the trace of the inputs before its own. -/
theorem trace_eq_append {state : State} {inputs : List Input}
    {earlier later : List (Entry State Input Answer)} {found : Entry State Input Answer}
    (split : machine.trace state inputs = earlier ++ found :: later) :
    ∃ first rest, inputs = first ++ found.input :: rest ∧ earlier = machine.trace state first ∧
      found = machine.entry (machine.run state first) found.input := by
  induction earlier generalizing state inputs with
  | nil =>
      cases inputs with
      | nil => cases split
      | cons input rest =>
          obtain ⟨rfl, -⟩ := List.cons.inj split
          exact ⟨[], rest, rfl, rfl, rfl⟩
  | cons entry entries hyp =>
      cases inputs with
      | nil => cases split
      | cons input rest =>
          obtain ⟨rfl, tail⟩ := List.cons.inj split
          obtain ⟨first, last, rfl, rfl, isEntry⟩ := hyp tail
          exact ⟨input :: first, last, rfl, rfl, isEntry⟩

section Invariants

variable (allowed : Input → Prop) (Inv : State → Prop)

/-- A property that every allowed step keeps holds after every run of allowed inputs. -/
theorem run_invariant
    (keeps : ∀ state input, allowed input → Inv state → Inv (machine.next state input)) :
    ∀ (inputs : List Input) (state : State), (∀ input ∈ inputs, allowed input) → Inv state →
      Inv (machine.run state inputs)
  | [], _, _, holds => holds
  | input :: rest, state, every, holds =>
      run_invariant keeps rest (machine.next state input)
        (fun later member => every later (List.mem_cons_of_mem _ member))
        (keeps state input (every input List.mem_cons_self) holds)

/-- The invariant holds before and after every entry of the trace. -/
theorem trace_invariant
    (keeps : ∀ state input, allowed input → Inv state → Inv (machine.next state input))
    {inputs : List Input} {state : State} (every : ∀ input ∈ inputs, allowed input)
    (holds : Inv state) {found : Entry State Input Answer}
    (member : found ∈ machine.trace state inputs) : Inv found.before ∧ Inv found.after := by
  obtain ⟨earlier, later, split, isEntry⟩ := machine.exists_split_of_mem_trace member
  have reached : Inv (machine.run state earlier) :=
    machine.run_invariant allowed Inv keeps earlier state
      (fun input inside => every input (by rw [split]; exact List.mem_append_left _ inside)) holds
  rw [isEntry]
  exact ⟨reached, keeps _ _ (every _ (by rw [split]; simp)) reached⟩

/-- A property of the trace so far and the state, kept by every allowed step, holds of the
whole trace and the last state. -/
theorem history_invariant (Hist : List (Entry State Input Answer) → State → Prop)
    (keeps : ∀ past state input, allowed input → Hist past state →
      Hist (past ++ [machine.entry state input]) (machine.next state input)) :
    ∀ (inputs : List Input) (past : List (Entry State Input Answer)) (state : State),
      (∀ input ∈ inputs, allowed input) → Hist past state →
        Hist (past ++ machine.trace state inputs) (machine.run state inputs)
  | [], past, _, _, holds => by simpa [trace] using holds
  | input :: rest, past, state, every, holds => by
      have tail := history_invariant Hist keeps rest (past ++ [machine.entry state input])
        (machine.next state input)
        (fun later member => every later (List.mem_cons_of_mem _ member))
        (keeps past state input (every input List.mem_cons_self) holds)
      simpa [trace] using tail

end Invariants

/-! ## Transactions -/

variable {Failure : Type x}

/-- A machine of transactions: a failure changes nothing. -/
def transactional (attempt : State → Input → Except Failure (Answer × State)) :
    Machine State Input (Except Failure Answer) where
  step state input :=
    match attempt state input with
    | .ok (answer, after) => (.ok answer, after)
    | .error failure => (.error failure, state)

variable {attempt : State → Input → Except Failure (Answer × State)}

theorem transactional_next_ok {state after : State} {input : Input} {answer : Answer}
    (committed : attempt state input = .ok (answer, after)) :
    (transactional attempt).next state input = after := by
  simp [next, transactional, committed]

theorem transactional_next_error {state : State} {input : Input} {failure : Failure}
    (failed : attempt state input = .error failure) :
    (transactional attempt).next state input = state := by
  simp [next, transactional, failed]

theorem transactional_answer_ok {state after : State} {input : Input} {answer : Answer}
    (committed : attempt state input = .ok (answer, after)) :
    ((transactional attempt).step state input).1 = .ok answer := by
  simp [transactional, committed]

theorem transactional_answer_error {state : State} {input : Input} {failure : Failure}
    (failed : attempt state input = .error failure) :
    ((transactional attempt).step state input).1 = .error failure := by
  simp [transactional, failed]

/-- The answer of a committed transaction is the one it returned. -/
theorem transactional_answer_ok_iff {state : State} {input : Input} {answer : Answer} :
    ((transactional attempt).step state input).1 = .ok answer ↔
      attempt state input = .ok (answer, (transactional attempt).next state input) := by
  cases result : attempt state input with
  | ok pair =>
      obtain ⟨given, after⟩ := pair
      simp [next, transactional, result]
  | error failure => simp [next, transactional, result]

/-- A property kept by every transaction that commits is kept by every step. -/
theorem transactional_keeps (allowed : Input → Prop) (Inv : State → Prop)
    (keeps : ∀ state input answer after, allowed input → Inv state →
      attempt state input = .ok (answer, after) → Inv after) :
    ∀ state input, allowed input → Inv state → Inv ((transactional attempt).next state input) := by
  intro state input permitted holds
  cases result : attempt state input with
  | ok pair =>
      obtain ⟨answer, after⟩ := pair
      rw [transactional_next_ok result]
      exact keeps state input answer after permitted holds result
  | error failure =>
      rw [transactional_next_error result]
      exact holds

end Machine

end Runs
