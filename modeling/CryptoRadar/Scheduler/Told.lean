import CryptoRadar.Scheduler.Records

/-!
# The records tell which items are open

An item is open while it is queued, or runs and is not aborted (`State.openEntry`). A client
that keeps something for every open item learns from the records of an operation when to let
go of it: an item of which an operation makes a terminal record is closed after it, and every
other item is open with the same entry as before (`Told`). The sweep tells
(`ends_begin_told`), and so does each change of one item.
-/

set_option autoImplicit false

namespace CryptoRadar.Scheduler

open Program Invocation

/-! ## Lives without an end -/

theorem Life.last_mem_states (life : Life) : life.last ∈ life.states := by
  rcases life with last | ⟨ran, last⟩
  · simp [Life.last, Life.states]
  · cases ran <;> simp [Life.last, Life.states]

/-- States without a terminal one are no whole life. -/
theorem AreLives.eq_of_open {states rest : List ItemState} (lives : AreLives states rest)
    (unended : ∀ state ∈ states, state.isTerminal = false) : states = rest := by
  obtain ⟨whole, terminal, split⟩ := lives
  cases whole with
  | nil => simpa using split
  | cons life others =>
      have isLast : life.last ∈ states := by
        rw [split]
        simp [life.last_mem_states]
      exact absurd (terminal life List.mem_cons_self) (by simp [unended _ isLast])

/-- Nothing terminal comes last where a life is open. -/
theorem AreLives.eq_nil_of_terminal {first out rest : List ItemState}
    (lives : AreLives (first ++ out) rest) (terminal : ∀ state ∈ out, state.isTerminal)
    (unended : ∀ state ∈ rest, state.isTerminal = false) (isOpen : rest ≠ []) : out = [] := by
  obtain ⟨whole, _, split⟩ := lives
  by_contra nonempty
  have last : out.getLast nonempty = rest.getLast isOpen := by
    have same := congrArg List.getLast? split
    rw [List.getLast?_append_of_ne_nil _ nonempty, List.getLast?_append_of_ne_nil _ isOpen,
      List.getLast?_eq_getLast_of_ne_nil nonempty, List.getLast?_eq_getLast_of_ne_nil isOpen] at same
    exact Option.some.inj same
  have ended := terminal _ (List.getLast_mem nonempty)
  rw [last, unended _ (List.getLast_mem isOpen)] at ended
  cases ended

/-! ## Open items -/

/-- The queued entry with the id, or the running one when it is not aborted. -/
def State.openEntry (state : State) (itemId : String) : Option QueuedEntry :=
  match state.queue.get? itemId with
  | some entry => some entry
  | none =>
      match state.running with
      | some running =>
          if running.entry.itemId = itemId && !running.aborted then some running.entry else none
      | none => none

/-- A record ends the life of the item. -/
def closes (out : List Transition) (itemId : String) : Bool :=
  out.any fun record => record.itemId = itemId && record.state.isTerminal

@[simp] theorem closes_nil (itemId : String) : closes [] itemId = false := rfl

@[simp] theorem closes_append (first second : List Transition) (itemId : String) :
    closes (first ++ second) itemId = (closes first itemId || closes second itemId) :=
  List.any_append

theorem closes_singleton (record : Transition) (itemId : String) :
    closes [record] itemId = (record.itemId = itemId && record.state.isTerminal) := by
  simp [closes]

theorem closes_eq_false_iff {out : List Transition} {itemId : String} :
    closes out itemId = false ↔ ∀ state ∈ statesOf itemId out, state.isTerminal = false := by
  simp only [closes, statesOf, List.any_eq_false, List.mem_map, List.mem_filter]
  constructor
  · rintro unended state ⟨record, ⟨member, same⟩, rfl⟩
    simpa [of_decide_eq_true same] using unended record member
  · intro unended record member both
    obtain ⟨same, terminal⟩ := Bool.and_eq_true_iff.mp both
    rw [unended record.state ⟨record, ⟨member, same⟩, rfl⟩] at terminal
    cases terminal

theorem State.openStates_unended (state : State) (itemId : String) :
    ∀ last ∈ state.openStates itemId, last.isTerminal = false := by
  unfold State.openStates
  split_ifs <;> simp [ItemState.isTerminal]

theorem State.runs_of_running {state : State} {running : Running} (held : state.running = some running)
    (itemId : String) :
    state.runs itemId = (running.entry.itemId = itemId && !running.aborted) := by
  simp [State.runs, held]

theorem State.openStates_eq_nil_iff {state : State} {itemId : String} :
    state.openStates itemId = [] ↔ state.openEntry itemId = none := by
  unfold State.openStates State.openEntry
  cases state.queue.get? itemId with
  | some entry => simp
  | none =>
      cases held : state.running with
      | none => simp [State.runs, held]
      | some running => simp [State.runs, held]

/-- An open entry is queued, or runs and is not aborted. -/
theorem State.openEntry_eq_some {state : State} {itemId : String} {entry : QueuedEntry}
    (isOpen : state.openEntry itemId = some entry) : state.queue.get? itemId = some entry ∨
      ∃ running, state.running = some running ∧ running.entry = entry ∧
        running.entry.itemId = itemId ∧ running.aborted = false := by
  unfold State.openEntry at isOpen
  cases queued : state.queue.get? itemId with
  | some other =>
      rw [queued] at isOpen
      exact .inl isOpen
  | none =>
      cases held : state.running with
      | none => simp [queued, held] at isOpen
      | some running =>
          right
          simp only [queued, held, Option.ite_none_right_eq_some, Bool.and_eq_true,
            decide_eq_true_eq, Bool.not_eq_true', Option.some.injEq] at isOpen
          exact ⟨running, rfl, isOpen.2, isOpen.1⟩

/-- The open items are those that are queued, and the one that runs and is not aborted. -/
theorem State.openEntry_isSome_iff {state : State} {itemId : String} :
    (state.openEntry itemId).isSome ↔ (state.queue.get? itemId).isSome ∨ ∃ running,
      state.running = some running ∧ running.entry.itemId = itemId ∧ running.aborted = false := by
  unfold State.openEntry
  cases queued : state.queue.get? itemId with
  | some entry => simp
  | none =>
      cases held : state.running with
      | none => simp
      | some running =>
          dsimp only
          split
          next both =>
            simpa using both
          next neither =>
            simpa using neither

namespace Consistent

variable {state : State} (consistent : Consistent state)
include consistent

theorem openEntry_of_mem {entry : QueuedEntry} (member : (entry.itemId, entry) ∈ state.queue) :
    state.openEntry entry.itemId = some entry := by
  unfold State.openEntry
  rw [consistent.get?_eq_some_iff.mpr member]

theorem openEntry_of_running {running : Running} (held : state.running = some running) :
    state.openEntry running.entry.itemId =
      if running.aborted then none else some running.entry := by
  have unqueued : state.queue.get? running.entry.itemId = none :=
    Dict.get?_eq_none_iff.mpr fun item member => (consistent.apart running held item member).1
  unfold State.openEntry
  rw [unqueued, held]
  cases aborted : running.aborted <;> simp [aborted]

/-- An open entry has the id it is open under. -/
theorem itemId_of_openEntry {itemId : String} {entry : QueuedEntry}
    (isOpen : state.openEntry itemId = some entry) : entry.itemId = itemId := by
  rcases State.openEntry_eq_some isOpen with queued | ⟨running, _, rfl, sameId, _⟩
  · exact (consistent.keyed _ (consistent.get?_eq_some_iff.mp queued)).symm
  · exact sameId

end Consistent

/-! ## What records tell -/

/-- The records follow, and the items they end are the ones that are not open any more. -/
structure Told (before : State) (out : List Transition) (after : State) : Prop
    extends Recorded before out after where
  opened : ∀ itemId, after.openEntry itemId =
    if closes out itemId then none else before.openEntry itemId

theorem Consistent.told {state : State} (consistent : Consistent state) : Told state [] state :=
  ⟨⟨consistent, .refl state⟩, fun _ => rfl⟩

theorem Told.trans {first second third : State} {out more : List Transition}
    (earlier : Told first out second) (later : Told second more third) :
    Told first (out ++ more) third := by
  refine ⟨earlier.toRecorded.trans later.toRecorded, fun itemId => ?_⟩
  rw [later.opened, earlier.opened, closes_append]
  cases closes out itemId <;> cases closes more itemId <;> rfl

/-- A sweep whose records are all terminal closes what they name. -/
theorem Swept.told {before after : State} {out : List Transition} (swept : Swept before out after)
    (consistent : Consistent before) (terminal : ∀ record ∈ out, record.state.isTerminal) :
    Told before out after := by
  refine ⟨swept.recorded, fun itemId => ?_⟩
  have lives := swept.follows itemId
  have states : ∀ state ∈ statesOf itemId out, state.isTerminal := by
    intro state member
    obtain ⟨record, inside, rfl⟩ := List.mem_map.mp member
    exact terminal record (List.mem_of_mem_filter inside)
  cases isOpen : after.openEntry itemId with
  | some entry =>
      have openAfter : after.openStates itemId ≠ [] := by
        rw [Ne, State.openStates_eq_nil_iff, isOpen]
        simp
      have none := lives.eq_nil_of_terminal states (after.openStates_unended itemId) openAfter
      have unclosed : closes out itemId = false := by
        rw [closes_eq_false_iff, none]
        simp
      rw [unclosed]
      have openBefore : before.openEntry itemId ≠ .none := by
        rw [Ne, ← State.openStates_eq_nil_iff]
        rw [none, List.append_nil] at lives
        rw [lives.eq_of_open (before.openStates_unended itemId)]
        exact openAfter
      rcases State.openEntry_eq_some isOpen with queued | ⟨running, held, rfl, sameId, _⟩
      · have member := swept.queue _ (swept.consistent.get?_eq_some_iff.mp queued)
        have keyed : itemId = entry.itemId := consistent.keyed _ member
        subst keyed
        exact (consistent.openEntry_of_mem member).symm
      · have entries := swept.running
        rw [held] at entries
        obtain ⟨earlier, heldBefore, sameEntry⟩ := Option.map_eq_some_iff.mp entries.symm
        have found := consistent.openEntry_of_running heldBefore
        rw [sameEntry, sameId] at found
        rw [found] at openBefore ⊢
        cases aborted : earlier.aborted with
        | true => simp [aborted] at openBefore
        | false => rfl
  | none =>
      cases unclosed : closes out itemId with
      | true => rfl
      | false =>
          have closedAfter := State.openStates_eq_nil_iff.mpr isOpen
          rw [closedAfter] at lives
          have nothing := lives.eq_of_open fun state member =>
            (List.mem_append.mp member).elim (before.openStates_unended itemId state)
              (closes_eq_false_iff.mp unclosed state)
          exact (State.openStates_eq_nil_iff.mp (List.append_eq_nil_iff.mp nothing).1).symm

theorem Consistent.openStates_of_running {state : State} (consistent : Consistent state)
    {running : Running} (held : state.running = some running) (active : running.aborted = false) :
    state.openStates running.entry.itemId = [.queued, .running] := by
  have unqueued : state.queue.get? running.entry.itemId = none :=
    Dict.get?_eq_none_iff.mpr fun item member => (consistent.apart running held item member).1
  simp [State.openStates, unqueued, State.runs_of_running held, active]

/-- Every record ends an item that was open before. -/
def Closing (before : State) (out : List Transition) : Prop :=
  ∀ record ∈ out, record.state.isTerminal ∧ before.openEntry record.itemId ≠ none

theorem Closing.concat {before : State} {out : List Transition} (closing : Closing before out)
    {record : Transition} (terminal : record.state.isTerminal)
    (isOpen : before.openEntry record.itemId ≠ none) : Closing before (out ++ [record]) := by
  intro other member
  rcases List.mem_append.mp member with old | new
  · exact closing other old
  · rw [List.mem_singleton.mp new]
    exact ⟨terminal, isOpen⟩

/-- Nothing ends an item that was not open. -/
theorem Closing.closes_eq_false {before : State} {out : List Transition}
    (closing : Closing before out) {itemId : String} (closed : before.openEntry itemId = none) :
    closes out itemId = false := by
  rw [closes, List.any_eq_false]
  intro record member both
  have same : record.itemId = itemId := by simpa using (Bool.and_eq_true_iff.mp both).1
  exact (closing record member).2 (same ▸ closed)

section Sweep

variable {policy : SchedulerPolicy} {state : State} (consistent : Consistent state)
include consistent

theorem yields_abortRunning_closing (now : Moment) (reason : StaleReason) :
    Yields (abortRunning now reason) state fun out after =>
      Closing state out ∧ after.queue = state.queue := by
  have nothing : Closing state [] := fun _ member => by cases member
  refine yields_get_bind ?_
  cases held : state.running with
  | none => exact yields_pure ⟨nothing, rfl⟩
  | some running =>
      dsimp only
      split
      next expired =>
        refine yields_set_bind (yields_pure ⟨nothing.concat rfl ?_, rfl⟩)
        have active : running.aborted = false := by
          simpa using (Bool.and_eq_true_iff.mp expired).1
        simp [consistent.openEntry_of_running held, active]
      next => exact yields_pure ⟨nothing, rfl⟩

omit consistent in
/-- A turn of the sweep makes at most one record, a terminal one of its entry. -/
theorem yields_sweepEntry_closing {before : State} (now : Moment) {entry : QueuedEntry}
    (isOpen : before.openEntry entry.itemId ≠ none) {out : List Transition}
    (closing : Closing before out) :
    Yields (sweepEntry policy now out entry) state fun out _ => Closing before out := by
  have ends : ∀ (state : State) (record : Transition), record.itemId = entry.itemId →
      record.state.isTerminal →
      Yields (do let _ ← remove entry.itemId; return out ++ [record] : Op (List Transition)) state
        fun out _ => Closing before out := by
    intro state record sameId terminal
    refine (yields_any _ _).bind fun _ _ _ => yields_pure (closing.concat terminal ?_)
    rw [sameId]
    exact isOpen
  unfold sweepEntry
  split
  next => exact ends _ _ rfl rfl
  next =>
    split
    next => exact ends _ _ rfl rfl
    next =>
      refine (yields_any _ _).bind fun fits _ _ => ?_
      cases fits with
      | true => exact yields_pure closing
      | false =>
          refine ends _ _ rfl ?_
          unfold unfitState
          split <;> rfl

theorem yields_sweepExpired_closing (now : Moment) :
    Yields (sweepExpired policy now) state fun out _ => Closing state out := by
  refine (yields_abortRunning_closing consistent now .deadlinePassed).bind
    fun out middle aborted => ?_
  obtain ⟨closing, queue⟩ := aborted
  refine yields_get_bind (yields_foldlM_of_mem (fun out _ => Closing state out) _ _ _ ?_ closing)
  intro entry member next _ holds
  refine yields_sweepEntry_closing now ?_ holds
  have sorted := List.perm_insertionSort (fun first second => rankKey first ≤ rankKey second)
    (middle.queue.map Prod.snd)
  have inQueue := sorted.mem_iff.mp member
  rw [queue] at inQueue
  rw [consistent.openEntry_of_mem (consistent.mem_of_value inQueue)]
  exact Option.some_ne_none _

/-- The commit point of an operation. -/
theorem ends_begin_told {now : Moment} (room : HasRoom policy now) :
    Ends (begin policy now) state fun out after =>
      Swept state out after ∧ Told state out after ∧ Closing state out := by
  have closing : Yields (begin policy now) state fun out _ => Closing state out := by
    unfold begin recordNow
    rw [bind_assoc]
    exact yields_get_bind (yields_set_bind
      (yields_sweepExpired_closing (consistent.recorded now).consistent now))
  refine ((ends_begin consistent room).and_yields closing).mono fun out after holds => ?_
  exact ⟨holds.1, holds.1.told consistent fun record member => (holds.2 record member).1, holds.2⟩

end Sweep

/-! ## Changes of one item -/

def State.slot (state : State) : Option QueuedEntry := state.running.map Running.entry

section Changes

variable {state : State} (consistent : Consistent state)
include consistent

theorem Consistent.openEntry_without {entry : QueuedEntry}
    (member : (entry.itemId, entry) ∈ state.queue) (itemId : String) :
    (state.without entry).openEntry itemId =
      if itemId = entry.itemId then none else state.openEntry itemId := by
  by_cases same : itemId = entry.itemId
  · rw [if_pos same, ← State.openStates_eq_nil_iff, consistent.openStates_without member,
      if_pos same]
  · have found : (state.without entry).queue.get? itemId = state.queue.get? itemId := by
      refine Option.ext fun other => ?_
      rw [(consistent.without member).get?_eq_some_iff, consistent.get?_eq_some_iff]
      exact Dict.mem_erase.trans ⟨fun both => both.1, fun inside => ⟨inside, same⟩⟩
    rw [if_neg same]
    unfold State.openEntry
    rw [found]
    rfl

/-- A queued item leaves with a terminal record. -/
theorem Consistent.told_without {entry : QueuedEntry} (member : (entry.itemId, entry) ∈ state.queue)
    {record : Transition} (sameId : record.itemId = entry.itemId)
    (terminal : record.state.isTerminal) : Told state [record] (state.without entry) := by
  refine ⟨recorded_without consistent member sameId terminal, fun itemId => ?_⟩
  rw [consistent.openEntry_without member, closes_singleton, terminal, sameId]
  by_cases same : itemId = entry.itemId
  · simp [same]
  · simp [same, Ne.symm same]

theorem Fresh.told_refused {version : OpportunityVersion} (fresh : Fresh state version)
    {record : Transition} (sameId : record.itemId = version.itemId)
    (terminal : record.state.isTerminal) : Told state [record] state := by
  refine ⟨⟨consistent, fresh.follows_refused record sameId terminal⟩, fun itemId => ?_⟩
  rw [closes_singleton, terminal, sameId]
  by_cases same : version.itemId = itemId
  · subst same
    simpa using State.openStates_eq_nil_iff.mp fresh.openStates_eq_nil
  · simp [same]

/-- A queued item takes the free slot. -/
theorem Consistent.told_started (free : state.running = none) {entry : QueuedEntry}
    (member : (entry.itemId, entry) ∈ state.queue) (slot : Nat) (now : Moment) :
    Told state [⟨entry.itemId, .running, now, none, none⟩] (state.started entry slot now) := by
  refine ⟨consistent.recorded_started free member slot now, fun itemId => ?_⟩
  have unclosed : closes [⟨entry.itemId, .running, now, none, none⟩] itemId = false := by
    simp [closes_singleton, ItemState.isTerminal]
  rw [unclosed]
  have closed := consistent.openEntry_without member itemId
  by_cases same : itemId = entry.itemId
  · subst same
    have unqueued : (state.started entry slot now).queue.get? entry.itemId = none :=
      Dict.get?_eq_none_iff.mpr fun item inside => (Dict.mem_erase.mp inside).2
    have isOpen := consistent.openEntry_of_mem member
    unfold State.openEntry at isOpen ⊢
    rw [unqueued]
    simpa [State.started] using isOpen.symm
  · rw [if_neg same] at closed
    rw [if_neg (by simp), ← closed]
    unfold State.openEntry
    simp [State.started, State.without, free, Ne.symm same]

/-- The running item gives the slot back. -/
theorem Consistent.told_freed {running : Running} (held : state.running = some running)
    (record : Transition) (sameId : record.itemId = running.entry.itemId)
    (terminal : record.state.isTerminal) :
    Told state (if running.aborted then [] else [record]) state.freed := by
  have idle : Consistent state.freed :=
    consistent.of_same_queue rfl rfl rfl fun _ isHeld => by cases isHeld
  refine ⟨⟨idle, consistent.follows_freed held record sameId terminal⟩, fun itemId => ?_⟩
  have unqueued : state.queue.get? running.entry.itemId = none :=
    Dict.get?_eq_none_iff.mpr fun item member => (consistent.apart running held item member).1
  by_cases same : running.entry.itemId = itemId
  · subst same
    have closed : state.freed.openEntry running.entry.itemId = none := by
      unfold State.openEntry State.freed
      simp [unqueued]
    rw [closed, consistent.openEntry_of_running held]
    cases running.aborted <;> simp [closes_singleton, sameId, terminal]
  · have unclosed : closes (if running.aborted then [] else [record]) itemId = false := by
      cases running.aborted <;> simp [closes_singleton, sameId, same]
    rw [unclosed]
    unfold State.openEntry State.freed
    simp [held, same]

end Changes

end CryptoRadar.Scheduler
