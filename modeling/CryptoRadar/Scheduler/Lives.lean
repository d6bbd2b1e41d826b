import CryptoRadar.Scheduler.Consistency

/-!
# Lives of an item

The scheduler tells its caller what becomes of an item by records. The states recorded for
one id should be lives one after the other: a refusal is one terminal state, an admitted item
is queued, perhaps runs, and ends in one terminal state. What is left after the last whole
life is `State.openStates`: nothing, or the start of a life of an item that is queued now or
runs now and is not aborted.

`Follows before out after` says this for the records `out` of a part of an operation. It
composes (`Follows.trans`), so an operation can be taken apart into changes of one item, and
the second half of this module has one lemma for each such change.
-/

set_option autoImplicit false

namespace CryptoRadar.Scheduler

open Program Invocation

/-! ## Lives -/

/-- One whole life of an item: refused at admission, or queued, perhaps run, and ended. -/
inductive Life where
  | refused (last : ItemState)
  | ended (ran : Bool) (last : ItemState)
  deriving DecidableEq

def Life.last : Life → ItemState
  | .refused last => last
  | .ended _ last => last

def Life.states : Life → List ItemState
  | .refused last => [last]
  | .ended false last => [.queued, last]
  | .ended true last => [.queued, .running, last]

def statesOf (itemId : String) (out : List Transition) : List ItemState :=
  (out.filter fun record => record.itemId = itemId).map Transition.state

/-- The running item has the id and is not aborted. -/
def State.runs (state : State) (itemId : String) : Bool :=
  state.running.any fun running => running.entry.itemId = itemId && !running.aborted

/-- The start of the life an active item is in. -/
def State.openStates (state : State) (itemId : String) : List ItemState :=
  if (state.queue.get? itemId).isSome then [.queued]
  else if state.runs itemId then [.queued, .running]
  else []

/-- The states are whole lives and then `rest`. -/
def AreLives (states rest : List ItemState) : Prop :=
  ∃ lives : List Life, (∀ life ∈ lives, life.last.isTerminal) ∧
    states = lives.flatMap Life.states ++ rest

theorem AreLives.refl (states : List ItemState) : AreLives states states :=
  ⟨[], fun _ member => (by cases member), rfl⟩

/-- One whole life. -/
theorem AreLives.one (life : Life) (terminal : life.last.isTerminal) : AreLives life.states [] :=
  ⟨[life], by simpa using terminal, by simp⟩

theorem AreLives.trans {states middle more rest : List ItemState} (first : AreLives states middle)
    (second : AreLives (middle ++ more) rest) : AreLives (states ++ more) rest := by
  obtain ⟨lives, terminal, rfl⟩ := first
  obtain ⟨later, laterTerminal, split⟩ := second
  refine ⟨lives ++ later, ?_, ?_⟩
  · intro life member
    exact (List.mem_append.mp member).elim (terminal life) (laterTerminal life)
  · rw [List.append_assoc, split, List.flatMap_append, List.append_assoc]

/-- From `before` to `after`, the records `out` close lives and open at most one each. -/
def Follows (before : State) (out : List Transition) (after : State) : Prop :=
  ∀ itemId, AreLives (before.openStates itemId ++ statesOf itemId out) (after.openStates itemId)

@[simp] theorem statesOf_nil (itemId : String) : statesOf itemId [] = [] := rfl

theorem statesOf_append (itemId : String) (first second : List Transition) :
    statesOf itemId (first ++ second) = statesOf itemId first ++ statesOf itemId second := by
  simp [statesOf]

theorem statesOf_singleton (itemId : String) (record : Transition) :
    statesOf itemId [record] = if record.itemId = itemId then [record.state] else [] := by
  unfold statesOf
  by_cases same : record.itemId = itemId
  · simp [same]
  · simp [same]

namespace Follows

/-- No record, and no item changes its standing. -/
theorem of_same {before after : State}
    (same : ∀ itemId, after.openStates itemId = before.openStates itemId) :
    Follows before [] after := by
  intro itemId
  rw [same itemId, statesOf_nil, List.append_nil]
  exact .refl _

theorem refl (state : State) : Follows state [] state := of_same fun _ => rfl

theorem trans {first second third : State} {out more : List Transition}
    (earlier : Follows first out second) (later : Follows second more third) :
    Follows first (out ++ more) third := by
  intro itemId
  rw [statesOf_append, ← List.append_assoc]
  exact (earlier itemId).trans (later itemId)

/-- One record: its item goes from one standing to the next, every other item keeps its own. -/
theorem of_record {before after : State} (record : Transition)
    (moves : AreLives (before.openStates record.itemId ++ [record.state])
      (after.openStates record.itemId))
    (others : ∀ itemId, itemId ≠ record.itemId →
      after.openStates itemId = before.openStates itemId) :
    Follows before [record] after := by
  intro itemId
  rw [statesOf_singleton]
  by_cases same : record.itemId = itemId
  · subst same
    rw [if_pos rfl]
    exact moves
  · rw [if_neg same, List.append_nil, others itemId (Ne.symm same)]
    exact .refl _

end Follows

/-! ## Changes of one item -/

namespace Consistent

variable {state : State} (consistent : Consistent state)
include consistent

theorem openStates_of_mem {entry : QueuedEntry} (member : (entry.itemId, entry) ∈ state.queue) :
    state.openStates entry.itemId = [.queued] := by
  simp [State.openStates, consistent.get?_eq_some_iff.mpr member]

theorem runs_of_mem {entry : QueuedEntry} (member : (entry.itemId, entry) ∈ state.queue) :
    state.runs entry.itemId = false := by
  unfold State.runs
  cases held : state.running with
  | none => rfl
  | some running =>
      have differs := (consistent.apart running held _ member).1
      simp [Ne.symm differs]

/-- Taking an entry out closes its standing and keeps every other. -/
theorem openStates_without {entry : QueuedEntry} (member : (entry.itemId, entry) ∈ state.queue)
    (itemId : String) : (state.without entry).openStates itemId =
      if itemId = entry.itemId then [] else state.openStates itemId := by
  have kept := consistent.without member
  by_cases same : itemId = entry.itemId
  · subst same
    have gone : (state.without entry).queue.get? entry.itemId = none := by
      refine Dict.get?_eq_none_iff.mpr fun item inside => ?_
      exact (Dict.mem_erase.mp inside).2
    have idle : (state.without entry).runs entry.itemId = false := consistent.runs_of_mem member
    simp [State.openStates, gone, idle]
  · rw [if_neg same]
    have found : (state.without entry).queue.get? itemId = state.queue.get? itemId := by
      refine Option.ext fun other => ?_
      rw [kept.get?_eq_some_iff, consistent.get?_eq_some_iff]
      exact Dict.mem_erase.trans ⟨fun both => both.1, fun inside => ⟨inside, same⟩⟩
    unfold State.openStates
    rw [found]
    rfl

/-- A queued item that leaves with a terminal record ends its life. -/
theorem follows_without {entry : QueuedEntry} (member : (entry.itemId, entry) ∈ state.queue)
    (record : Transition) (sameId : record.itemId = entry.itemId)
    (terminal : record.state.isTerminal) : Follows state [record] (state.without entry) := by
  refine .of_record record ?_ fun itemId differs => ?_
  · rw [sameId, consistent.openStates_of_mem member, consistent.openStates_without member,
      if_pos rfl]
    exact .one (.ended false record.state) terminal
  · rw [consistent.openStates_without member, if_neg (sameId ▸ differs)]

/-- The queue is as it was and the new running item is not in it. -/
theorem of_same_queue {after : State} (queue : after.queue = state.queue)
    (identities : after.byIdentity = state.byIdentity) (groups : after.byGroup = state.byGroup)
    (apart : ∀ running ∈ after.running, ∀ item ∈ state.queue, item.1 ≠ running.entry.itemId ∧
      item.2.version.identity ≠ running.entry.version.identity) : Consistent after := by
  refine ⟨?_, ?_, ?_, ?_, ?_, ?_, ?_, ?_⟩
  · rw [queue]
    exact consistent.keyed
  · rw [queue]
    exact consistent.distinctIds
  · rw [queue]
    exact consistent.distinctIdentities
  · rw [queue]
    exact consistent.distinctGroups
  · rw [identities, queue]
    exact consistent.identityIndex
  · rw [groups, queue]
    exact consistent.groupIndex
  · rw [queue]
    exact apart
  · rw [queue]
    exact consistent.paths

end Consistent

namespace Fresh

variable {state : State} {version : OpportunityVersion} (fresh : Fresh state version)
include fresh

/-- Nothing of a fresh version is open. -/
theorem openStates_eq_nil : state.openStates version.itemId = [] := by
  have noId : state.queue.get? version.itemId = none := Dict.get?_eq_none_iff.mpr fresh.id
  have idle : state.runs version.itemId = false := by
    unfold State.runs
    cases held : state.running with
    | none => rfl
    | some running => simp [(fresh.running running held).1]
  simp [State.openStates, noId, idle]

/-- A refusal of a fresh version is a whole life. -/
theorem follows_refused (record : Transition) (sameId : record.itemId = version.itemId)
    (terminal : record.state.isTerminal) : Follows state [record] state := by
  refine .of_record record ?_ fun _ _ => rfl
  rw [sameId, fresh.openStates_eq_nil]
  exact .one (.refused record.state) terminal

end Fresh

/-- A fresh entry that is queued opens a life. -/
theorem follows_withEntry {state : State} {entry : QueuedEntry} (fresh : Fresh state entry.version)
    (record : Transition) (sameId : record.itemId = entry.itemId) (queued : record.state = .queued) :
    Follows state [record] (state.withEntry entry) := by
  refine .of_record record ?_ fun itemId differs => ?_
  · have found : ((state.withEntry entry).queue.get? entry.itemId).isSome := by
      rw [Option.isSome_iff_ne_none]
      intro absent
      exact Dict.get?_eq_none_iff.mp absent (entry.itemId, entry) (by simp [State.withEntry]) rfl
    have opened : (state.withEntry entry).openStates entry.itemId = [.queued] := by
      simp [State.openStates, found]
    rw [sameId, queued, opened, show entry.itemId = entry.version.itemId from rfl,
      fresh.openStates_eq_nil]
    exact .refl _
  · have differs : itemId ≠ entry.itemId := sameId ▸ differs
    have found : (state.withEntry entry).queue.get? itemId = state.queue.get? itemId := by
      simp [Dict.get?, State.withEntry, List.find?_append, Ne.symm differs]
    unfold State.openStates
    rw [found]
    rfl

end CryptoRadar.Scheduler
