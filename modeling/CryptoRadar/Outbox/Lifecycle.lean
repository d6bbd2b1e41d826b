import CryptoRadar.Lib.Double
import CryptoRadar.Lib.JsonLoaded
import CryptoRadar.Outbox.Store

/-!
# The life of an item in the outbox

The rows of an item tell its life: they are a path of allowed moves from an initial state to the
state its row in `lifecycle_items` has, each names the state before it, and no state comes twice,
since the moves climb a rank (`IsPath.nodup`). The two tables move together because one
transaction writes both.

A call for a state that the item has entered finds its row by the delivery id, however far the
item has moved on: it returns the row or conflicts with it, and writes nothing
(`transitionWork_again`). `lifecycle_history` says all of it for every run of calls.
-/

set_option autoImplicit false

namespace CryptoRadar.Outbox

open Checked JsonText

/-! ## Paths -/

/-- States along the allowed transitions. -/
structure IsPath (states : List LifecycleState) : Prop where
  initial : ∀ first ∈ states.head?, first ∈ initialStates
  moves : states.IsChain fun before after => after ∈ allowedTransitions before

/-- How far a state is from the start. -/
def LifecycleState.rank : LifecycleState → ℕ
  | .queued => 0
  | .loading => 1
  | .running => 2
  | .finished | .failed | .abortStale | .superseded | .droppedBackpressure => 3

theorem rank_lt_of_move : ∀ {before after : LifecycleState}, after ∈ allowedTransitions before →
    before.rank < after.rank := by
  intro before after allowed
  cases before <;> cases after <;> simp_all [allowedTransitions, LifecycleState.rank]

theorem IsPath.nodup {states : List LifecycleState} (path : IsPath states) : states.Nodup := by
  have climbs : (states.map LifecycleState.rank).IsChain (· < ·) := by
    rw [List.isChain_map]
    exact path.moves.imp fun _ _ allowed => rank_lt_of_move allowed
  have apart : (states.map LifecycleState.rank).Pairwise (· < ·) := List.isChain_iff_pairwise.mp climbs
  exact List.Nodup.of_map _ (apart.imp fun less => Nat.ne_of_lt less)

theorem isPath_nil : IsPath [] := ⟨by simp, .nil⟩

theorem IsPath.enter {states : List LifecycleState} {state : LifecycleState} (path : IsPath states)
    (allowed : state ∈ movesFrom states.getLast?) : IsPath (states ++ [state]) := by
  refine ⟨?_, ?_⟩
  · intro first isFirst
    cases states with
    | nil =>
        cases isFirst
        exact allowed
    | cons head rest => exact path.initial first isFirst
  · rw [List.isChain_append]
    refine ⟨path.moves, .singleton state, ?_⟩
    intro before isBefore after isAfter
    cases isAfter
    rw [isBefore] at allowed
    exact allowed

/-! ## Payloads -/

theorem payloadStyle_lawful : payloadStyle.Lawful :=
  ⟨⟨[32], rfl, by decide⟩, ⟨[32], rfl, by decide⟩⟩

section Payload

variable {F : Type} {runtime : OutboxRuntime F}

/-- A member whose value is a text or null. -/
def IsTextMember (member : PyStr × Json F) : Prop :=
  ∃ (key : String) (value : Option String), member = (pyStr key, optionalJson value)

theorem optionalJson_readable (value : Option String) : (optionalJson (F := F) value).Readable := by
  cases value with
  | none => exact .null
  | some text => exact .str (valid_pyStr text)

theorem optionalJson_encodable (value : Option String) :
    Encodable runtime.floats runtime.limits 0 (optionalJson value) := by
  cases value with
  | none => exact .null 0
  | some text => exact .str 0 _

theorem optionalJson_arranged (value : Option String) :
    (optionalJson (F := F) value).arranged false = optionalJson value := by
  cases value with
  | none => rw [optionalJson, Json.arranged]
  | some text => rw [optionalJson, Json.arranged]

/-- A payload of texts is read back as it was written. -/
theorem payload_of_dumps {members : List (PyStr × Json F)} {entry : OutboxEntry}
    (texts : ∀ member ∈ members, IsTextMember member) (distinct : (members.map Prod.fst).Nodup)
    (dumped : dumpsPayload runtime members = .ok entry.payloadJson) :
    entry.payload runtime = .ok members := by
  have encodable : Encodable runtime.floats runtime.limits 1 (.object members) := by
    refine .object fun member isMember => ?_
    obtain ⟨key, value, rfl⟩ := texts member isMember
    exact optionalJson_encodable value
  have readable : (Json.object members).Readable := by
    refine .object distinct (fun member isMember => ?_) fun member isMember => ?_
    · obtain ⟨key, value, rfl⟩ := texts member isMember
      exact valid_pyStr key
    · obtain ⟨key, value, rfl⟩ := texts member isMember
      exact optionalJson_readable value
  have same : (Json.object members).arranged payloadStyle.sortKeys = .object members := by
    rw [Json.arranged]
    change Json.object (members.map _) = _
    congr 1
    refine (List.map_congr_left fun member isMember => ?_).trans (List.map_id members)
    obtain ⟨key, value, rfl⟩ := texts member isMember
    exact Prod.ext rfl (optionalJson_arranged value)
  have written : dumps runtime.floats runtime.limits payloadStyle (.object members) =
      some entry.payloadJson := require_eq_ok.mp dumped
  obtain ⟨text, flat⟩ := encodable.writeDepth payloadStyle
  have deeper := writeDepth_mono (le_trans (by decide) runtime.limits.writeRoom) flat
  cases deeper.symm.trans written
  have back := loads_writeDepth
    (⟨runtime.lawful, payloadStyle_lawful, fun _ _ => rfl⟩ : RoundTrip _ _ fun _ => none)
    (le_trans (by decide) runtime.limits.readRoom) flat readable
  rw [same] at back
  unfold OutboxEntry.payload
  rw [back]

theorem transitionPayload_texts (given : Transition) (previous : Option LifecycleState) :
    ∀ member ∈ transitionPayload (F := F) given previous, IsTextMember member := by
  have isText (key value : String) : IsTextMember (F := F) (pyStr key, .str (pyStr value)) :=
    ⟨key, some value, rfl⟩
  have isOptional (key : String) (value : Option String) :
      IsTextMember (F := F) (pyStr key, optionalJson value) := ⟨key, value, rfl⟩
  simp [transitionPayload, isText, isOptional]

theorem transitionPayload_distinct (given : Transition) (previous : Option LifecycleState) :
    ((transitionPayload (F := F) given previous).map Prod.fst).Nodup := by
  simp only [transitionPayload, List.map_cons, List.map_nil]
  decide

theorem sameText_optionalJson (stored given : Option String) :
    sameText (F := F) (some (optionalJson stored)) given = decide (stored = given) := by
  cases stored with
  | none => cases given <;> simp [optionalJson, sameText]
  | some text =>
      cases given with
      | none => simp [optionalJson, sameText]
      | some other => simp [optionalJson, sameText, pyStr_injective.eq_iff]

/-- The stored details of a transition are compared with those of a call. -/
theorem sameText_transitionPayload (given : Transition) (previous : Option LifecycleState)
    (related code : Option String) :
    (sameText (Dict.get? (transitionPayload (F := F) given previous) (pyStr "related_id")) related = true ∧
      sameText (Dict.get? (transitionPayload (F := F) given previous) (pyStr "reason")) code = true) ↔
    given.related = related ∧ given.code = code := by
  have isRelated : Dict.get? (transitionPayload (F := F) given previous) (pyStr "related_id") =
      some (optionalJson given.related) := by
    simp [transitionPayload, Dict.get?_cons, pyStr]
  have isReason : Dict.get? (transitionPayload (F := F) given previous) (pyStr "reason") =
      some (optionalJson given.code) := by
    simp [transitionPayload, Dict.get?_cons, pyStr]
  rw [isRelated, isReason, sameText_optionalJson, sameText_optionalJson, decide_eq_true_iff,
    decide_eq_true_iff]

end Payload

/-! ## What a call writes -/

section Writes

variable {F : Type} {runtime : OutboxRuntime F}

/-- The row of a transition that left the item's previous state. -/
structure RowOf (runtime : OutboxRuntime F) (row : OutboxEntry) (given : Transition)
    (previous : Option LifecycleState) : Prop where
  deliveryId : row.deliveryId = given.deliveryId
  kind : row.kind = .lifecycle
  subjectId : row.subjectId = given.item
  state : row.state = some given.state.text
  recordedAt : row.recordedAt = given.nowText
  payload : row.payload runtime = .ok (transitionPayload given previous)

theorem insert_eq_ok {db after : OutboxDb} {deliveryId subjectId recordedAt : String}
    {kind : OutboxKind} {state sender receiver : Option String} {payloadJson : PyStr}
    {row : OutboxEntry} (inserted : db.insert deliveryId kind subjectId state sender receiver
      payloadJson recordedAt = .ok (row, after)) :
    row = ⟨db.outbox.length + 1, deliveryId, kind, subjectId, state, sender, receiver, payloadJson,
        recordedAt⟩ ∧ db.entryFits row ∧ after = { db with outbox := db.outbox ++ [row] } := by
  obtain ⟨_, fits, inserted⟩ := bind_eq_ok.mp inserted
  cases inserted
  exact ⟨rfl, ensure_eq_ok.mp fits, rfl⟩

theorem lifecycleState_moved {db : OutboxDb} {given : Transition} {before : LifecycleState}
    (current : db.lifecycleState given.item = some before) (item : String) :
    ({ db with items := db.items.map fun row =>
      if row.itemId = given.item ∧ row.state = before then
        { row with state := given.state, updatedAt := given.nowText }
      else row } : OutboxDb).lifecycleState item =
      if item = given.item then some given.state else db.lifecycleState item := by
  unfold OutboxDb.lifecycleState at current ⊢
  obtain ⟨found, isFound, isBefore⟩ := Option.map_eq_some_iff.mp current
  have isOwn : found.itemId = given.item := by simpa using List.find?_some isFound
  rw [List.find?_map]
  have same : ((fun row : LifecycleRow => decide (row.itemId = item)) ∘ fun row : LifecycleRow =>
      if row.itemId = given.item ∧ row.state = before then
        { row with state := given.state, updatedAt := given.nowText }
      else row) = fun row => decide (row.itemId = item) := by
    funext row
    simp only [Function.comp_apply]
    split <;> rfl
  rw [same]
  by_cases own : item = given.item
  · subst own
    rw [if_pos rfl, isFound]
    simp [isOwn, isBefore]
  · rw [if_neg own]
    cases other : db.items.find? fun row => decide (row.itemId = item) with
    | none => rfl
    | some row =>
        have isOther : row.itemId = item := by simpa using List.find?_some other
        simp [isOther, own]

/-- The row of the item has the new state, and the rows of other items stay. -/
theorem moveItem_eq_ok {db moved : OutboxDb} {given : Transition}
    (result : moveItem given (db.lifecycleState given.item) db = .ok moved) :
    moved.outbox = db.outbox ∧ ∀ item, moved.lifecycleState item =
      if item = given.item then some given.state else db.lifecycleState item := by
  cases current : db.lifecycleState given.item with
  | none =>
      rw [current] at result
      obtain ⟨_, fits, result⟩ := bind_eq_ok.mp result
      cases result
      refine ⟨rfl, fun item => ?_⟩
      unfold OutboxDb.lifecycleState
      rw [List.find?_append]
      by_cases own : item = given.item
      · subst own
        have absent : (db.items.find? fun row => row.itemId = given.item) = none := by
          simpa using (ensure_eq_ok.mp fits).2
        simp [absent]
      · have others : (List.find? (fun row : LifecycleRow => decide (row.itemId = item))
            [⟨given.item, given.state, given.nowText, given.nowText⟩]) = none := by
          simp [Ne.symm own]
        rw [others, if_neg own, Option.or_none]
  | some before =>
      rw [current] at result
      obtain ⟨_, _, result⟩ := bind_eq_ok.mp result
      obtain ⟨_, _, result⟩ := bind_eq_ok.mp result
      cases result
      exact ⟨rfl, lifecycleState_moved current⟩

/-- What a transition writes when its state is new: a row of the outbox and the row of the item. -/
structure Enters (runtime : OutboxRuntime F) (given : Transition) (before : OutboxDb)
    (row : OutboxEntry) (after : OutboxDb) : Prop where
  allowed : given.state ∈ movesFrom (before.lifecycleState given.item)
  written : RowOf runtime row given (before.lifecycleState given.item)
  fits : before.entryFits row
  seq : row.seq = before.outbox.length + 1
  outbox : after.outbox = before.outbox ++ [row]
  state : ∀ item, after.lifecycleState item =
    if item = given.item then some given.state else before.lifecycleState item

/-- A transition returns a recorded row and writes nothing, or enters its state. -/
theorem transitionWork_eq_ok {given : Transition} {db after : OutboxDb} {result : RecordResult}
    (work : transitionWork runtime given db = .ok (result, after)) :
    (result.created = false ∧ after = db) ∨
      (result.created = true ∧ Enters runtime given db result.entry after) := by
  unfold transitionWork at work
  split at work
  next existing =>
    obtain ⟨stored, _, work⟩ := bind_eq_ok.mp work
    obtain ⟨_, _, work⟩ := bind_eq_ok.mp work
    cases work
    exact .inl ⟨rfl, rfl⟩
  next =>
    obtain ⟨_, allowed, work⟩ := bind_eq_ok.mp work
    obtain ⟨moved, isMoved, work⟩ := bind_eq_ok.mp work
    obtain ⟨payloadJson, dumped, work⟩ := bind_eq_ok.mp work
    obtain ⟨⟨row, inserted⟩, isInserted, work⟩ := bind_eq_ok.mp work
    obtain ⟨isRow, fits, rfl⟩ := insert_eq_ok isInserted
    cases work
    obtain ⟨outbox, state⟩ := moveItem_eq_ok isMoved
    rw [outbox] at isRow
    unfold OutboxDb.entryFits at fits
    rw [outbox] at fits
    refine .inr ⟨rfl, ensure_eq_ok.mp allowed, ?_, fits, by rw [isRow], by simp only [outbox], state⟩
    subst isRow
    exact ⟨rfl, rfl, rfl, rfl, rfl, payload_of_dumps (transitionPayload_texts given _)
      (transitionPayload_distinct given _) dumped⟩

/-- What an operation does to items and outbox. -/
inductive Effect (runtime : OutboxRuntime F) (before : OutboxDb) :
    Operation F → Answer → OutboxDb → Prop where
  | quiet {operation : Operation F} {answer : Answer} {after : OutboxDb}
      (items : after.items = before.items) (outbox : after.outbox = before.outbox)
      (silent : ∀ row, answer ≠ .recorded ⟨row, true⟩) : Effect runtime before operation answer after
  | other {operation : Operation F} {answer : Answer} {row : OutboxEntry} {after : OutboxDb}
      (items : after.items = before.items) (kind : row.kind ≠ .lifecycle)
      (fits : before.entryFits row) (seq : row.seq = before.outbox.length + 1)
      (outbox : after.outbox = before.outbox ++ [row])
      (apart : ∀ call lock, operation ≠ .transition call lock) :
      Effect runtime before operation answer after
  | entered {call : LifecycleCall} {lock : Lock} {given : Transition} {row : OutboxEntry}
      {after : OutboxDb} (checked : checkCall call = .ok given)
      (enters : Enters runtime given before row after) :
      Effect runtime before (.transition call lock) (.recorded ⟨row, true⟩) after

theorem write_eq_ok {α : Type} {lock : Lock} {work : Except OutboxRaise α} {result : α}
    (written : write lock work = .ok result) : lock = .granted ∧ work = .ok result := by
  cases lock with
  | granted => exact ⟨rfl, written⟩
  | refused code detail => cases written

theorem attempt_effect {before after : OutboxDb} {operation : Operation F} {answer : Answer}
    (done : attempt runtime before operation = .ok (answer, after)) :
    Effect runtime before operation answer after := by
  cases operation with
  | eventRow eventId columns now inTransaction lock =>
      obtain ⟨⟨row, written⟩, recorded, done⟩ := bind_eq_ok.mp done
      cases done
      obtain ⟨recordedAt, _, recorded⟩ := bind_eq_ok.mp recorded
      obtain ⟨_, _, recorded⟩ := bind_eq_ok.mp recorded
      obtain ⟨_, _, recorded⟩ := bind_eq_ok.mp recorded
      obtain ⟨_, recorded⟩ := write_eq_ok recorded
      obtain ⟨found, _, recorded⟩ := bind_eq_ok.mp recorded
      obtain ⟨status, _, recorded⟩ := bind_eq_ok.mp recorded
      obtain ⟨payloadJson, _, recorded⟩ := bind_eq_ok.mp recorded
      obtain ⟨isRow, fits, rfl⟩ := insert_eq_ok recorded
      refine .other rfl ?_ fits (by rw [isRow]) rfl (by simp)
      rw [isRow]
      simp
  | transition call lock =>
      obtain ⟨⟨result, written⟩, recorded, done⟩ := bind_eq_ok.mp done
      cases done
      obtain ⟨given, checked, recorded⟩ := bind_eq_ok.mp recorded
      obtain ⟨_, work⟩ := write_eq_ok recorded
      obtain ⟨row, created⟩ := result
      rcases transitionWork_eq_ok work with ⟨rfl, rfl⟩ | ⟨rfl, enters⟩
      · exact .quiet rfl rfl (by simp)
      · exact .entered checked enters
  | handoff given now lock =>
      obtain ⟨⟨result, written⟩, recorded, done⟩ := bind_eq_ok.mp done
      cases done
      obtain ⟨handoff, _, recorded⟩ := bind_eq_ok.mp recorded
      obtain ⟨payloadJson, _, recorded⟩ := bind_eq_ok.mp recorded
      obtain ⟨nowText, _, recorded⟩ := bind_eq_ok.mp recorded
      obtain ⟨_, work⟩ := write_eq_ok recorded
      split at work
      next existing _ =>
        obtain ⟨_, _, work⟩ := bind_eq_ok.mp work
        cases work
        exact .quiet rfl rfl (by simp)
      next =>
        obtain ⟨⟨row, inserted⟩, isInserted, work⟩ := bind_eq_ok.mp work
        cases work
        obtain ⟨isRow, fits, rfl⟩ := insert_eq_ok isInserted
        refine .other rfl ?_ fits (by rw [isRow]) rfl (by simp)
        rw [isRow]
        simp
  | acknowledge given seq now lock =>
      obtain ⟨⟨position, written⟩, moved, done⟩ := bind_eq_ok.mp done
      cases done
      obtain ⟨name, _, moved⟩ := bind_eq_ok.mp moved
      obtain ⟨number, _, moved⟩ := bind_eq_ok.mp moved
      obtain ⟨_, _, moved⟩ := bind_eq_ok.mp moved
      obtain ⟨nowText, _, moved⟩ := bind_eq_ok.mp moved
      obtain ⟨_, work⟩ := write_eq_ok moved
      obtain ⟨_, _, work⟩ := bind_eq_ok.mp work
      dsimp only at work
      split at work
      next =>
        cases work
        exact .quiet rfl rfl (by simp)
      next =>
        obtain ⟨saved, isSaved, work⟩ := bind_eq_ok.mp work
        cases work
        unfold OutboxDb.saveCursor at isSaved
        split at isSaved
        next =>
          obtain ⟨_, _, isSaved⟩ := bind_eq_ok.mp isSaved
          cases isSaved
          exact .quiet rfl rfl (by simp)
        next =>
          obtain ⟨_, _, isSaved⟩ := bind_eq_ok.mp isSaved
          cases isSaved
          exact .quiet rfl rfl (by simp)

end Writes

/-! ## The life of an item -/

/-- The rows of an item, in the order of `seq`. -/
def OutboxDb.lifecycleRows (db : OutboxDb) (item : String) : List OutboxEntry :=
  db.outbox.filter fun row => row.kind = .lifecycle && row.subjectId = item

def previousStates (states : List LifecycleState) : List (Option LifecycleState) :=
  (none :: states.map some).dropLast

theorem previousStates_append (states : List LifecycleState) (state : LifecycleState) :
    previousStates (states ++ [state]) = previousStates states ++ [states.getLast?] := by
  have all : previousStates states ++ [states.getLast?] = none :: states.map some := by
    cases states using List.reverseRecOn with
    | nil => rfl
    | append_singleton init last _ =>
        rw [List.getLast?_concat, previousStates, List.map_append, List.map_singleton,
          ← List.cons_append, List.dropLast_concat]
  rw [all, previousStates, List.map_append, List.map_singleton, ← List.cons_append,
    List.dropLast_concat]

section Life

variable {F : Type} {runtime : OutboxRuntime F}

/-- The transitions that calls recorded are the life of an item: its rows are theirs, in order,
each with the state before it, and they are a path to the state of the item. -/
structure Lived (runtime : OutboxRuntime F) (db : OutboxDb) (item : String)
    (past : List (OutboxEntry × Transition)) : Prop where
  rows : db.lifecycleRows item = past.map Prod.fst
  own : ∀ entered ∈ past, entered.2.item = item
  path : IsPath (past.map fun entered => entered.2.state)
  current : (past.map fun entered => entered.2.state).getLast? = db.lifecycleState item
  chained : List.Forall₂ (fun entered previous => RowOf runtime entered.1 entered.2 previous) past
    (previousStates (past.map fun entered => entered.2.state))

theorem lived_nothing (item : String) : Lived runtime {} item [] :=
  ⟨rfl, by simp, isPath_nil, rfl, .nil⟩

/-- Tables with the same items, and with no other row of lifecycles. -/
theorem Lived.of_same {before after : OutboxDb} {item : String}
    {past : List (OutboxEntry × Transition)} (lived : Lived runtime before item past)
    (state : after.lifecycleState item = before.lifecycleState item)
    (rows : after.lifecycleRows item = before.lifecycleRows item) : Lived runtime after item past :=
  ⟨rows.trans lived.rows, lived.own, lived.path, lived.current.trans state.symm, lived.chained⟩

theorem lifecycleState_of_items {before after : OutboxDb} (items : after.items = before.items)
    (item : String) : after.lifecycleState item = before.lifecycleState item := by
  unfold OutboxDb.lifecycleState
  rw [items]

theorem lifecycleRows_of_outbox {before after : OutboxDb} (outbox : after.outbox = before.outbox)
    (item : String) : after.lifecycleRows item = before.lifecycleRows item := by
  unfold OutboxDb.lifecycleRows
  rw [outbox]

theorem lifecycleRows_append {before after : OutboxDb} {row : OutboxEntry}
    (outbox : after.outbox = before.outbox ++ [row]) (item : String) :
    after.lifecycleRows item = before.lifecycleRows item ++
      if row.kind = .lifecycle ∧ row.subjectId = item then [row] else [] := by
  unfold OutboxDb.lifecycleRows
  rw [outbox, List.filter_append]
  congr 1
  by_cases own : row.kind = .lifecycle ∧ row.subjectId = item
  · simp [own.1, own.2]
  · rw [if_neg own, List.filter_eq_nil_iff]
    intro other member
    cases List.mem_singleton.mp member
    simpa using own

/-- Another item enters a state. -/
theorem Lived.of_other {before after : OutboxDb} {item : String}
    {past : List (OutboxEntry × Transition)} {given : Transition} {row : OutboxEntry}
    (lived : Lived runtime before item past) (enters : Enters runtime given before row after)
    (other : given.item ≠ item) : Lived runtime after item past := by
  refine lived.of_same ?_ ?_
  · rw [enters.state, if_neg other.symm]
  · rw [lifecycleRows_append enters.outbox, if_neg, List.append_nil]
    rintro ⟨_, same⟩
    exact other (enters.written.subjectId.symm.trans same)

/-- The item enters a state. -/
theorem Lived.enter {before after : OutboxDb} {past : List (OutboxEntry × Transition)}
    {given : Transition} {row : OutboxEntry} (lived : Lived runtime before given.item past)
    (enters : Enters runtime given before row after) :
    Lived runtime after given.item (past ++ [(row, given)]) := by
  have allowed := enters.allowed
  rw [← lived.current] at allowed
  refine ⟨?_, ?_, ?_, ?_, ?_⟩
  · rw [lifecycleRows_append enters.outbox, lived.rows,
      if_pos ⟨enters.written.kind, enters.written.subjectId⟩, List.map_append, List.map_singleton]
  · intro entered member
    rcases List.mem_append.mp member with old | new
    · exact lived.own entered old
    · rw [List.mem_singleton.mp new]
  · rw [List.map_append, List.map_singleton]
    exact lived.path.enter allowed
  · rw [List.map_append, List.map_singleton, List.getLast?_concat, enters.state, if_pos rfl]
  · rw [List.map_append, List.map_singleton, previousStates_append, lived.current]
    exact List.rel_append lived.chained (.cons enters.written .nil)

/-! ## Runs -/

/-- An entry of a trace of the outbox. -/
abbrev StoreEntry (F : Type) := Runs.Entry OutboxDb (Operation F) (Except OutboxRaise Answer)

/-- The row and the arguments of a call that recorded a transition. -/
def enteredBy (entry : StoreEntry F) : Option (OutboxEntry × Transition) :=
  match entry.input, entry.answer with
  | .transition call _, .ok (.recorded ⟨row, true⟩) =>
      match checkCall call with
      | .ok given => some (row, given)
      | .error _ => none
  | _, _ => none

/-- What the calls of a trace recorded of an item, in order. -/
def enteredIn (trace : List (StoreEntry F)) (item : String) : List (OutboxEntry × Transition) :=
  (trace.filterMap enteredBy).filter fun entered => entered.2.item = item

/-- What holds of the calls so far and the tables. -/
structure Kept (runtime : OutboxRuntime F) (trace : List (StoreEntry F)) (db : OutboxDb) : Prop where
  deliveries : (db.outbox.map OutboxEntry.deliveryId).Nodup
  numbered : db.outbox.map OutboxEntry.seq = (List.range db.outbox.length).map (· + 1)
  lived : ∀ item, Lived runtime db item (enteredIn trace item)

theorem enteredIn_quiet {trace : List (StoreEntry F)} {entry : StoreEntry F}
    (quiet : enteredBy entry = none) (item : String) :
    enteredIn (trace ++ [entry]) item = enteredIn trace item := by
  unfold enteredIn
  rw [List.filterMap_append, List.filterMap_cons_none quiet, List.filterMap_nil, List.append_nil]

theorem enteredIn_entered {trace : List (StoreEntry F)} {entry : StoreEntry F}
    {entered : OutboxEntry × Transition} (isEntered : enteredBy entry = some entered) (item : String) :
    enteredIn (trace ++ [entry]) item =
      enteredIn trace item ++ if entered.2.item = item then [entered] else [] := by
  unfold enteredIn
  rw [List.filterMap_append, List.filterMap_cons_some isEntered, List.filterMap_nil,
    List.filter_append, List.filter_singleton]
  simp

theorem numbered_append {rows : List OutboxEntry} {row : OutboxEntry}
    (numbered : rows.map OutboxEntry.seq = (List.range rows.length).map (· + 1))
    (seq : row.seq = rows.length + 1) :
    (rows ++ [row]).map OutboxEntry.seq = (List.range (rows ++ [row]).length).map (· + 1) := by
  rw [List.map_append, numbered, List.length_append, List.length_singleton, List.range_succ,
    List.map_append, List.map_singleton, List.map_singleton, seq]

theorem deliveries_append {db : OutboxDb} {row : OutboxEntry}
    (deliveries : (db.outbox.map OutboxEntry.deliveryId).Nodup) (fits : db.entryFits row) :
    ((db.outbox ++ [row]).map OutboxEntry.deliveryId).Nodup := by
  rw [List.map_append, List.nodup_append]
  refine ⟨deliveries, List.nodup_singleton _, fun delivery old other new same => ?_⟩
  obtain ⟨recorded, member, rfl⟩ := List.mem_map.mp old
  rw [List.map_singleton, List.mem_singleton] at new
  exact fits.2.1 recorded member (same.trans new)

/-- Every call keeps the lives of all items. -/
theorem kept_step (trace : List (StoreEntry F)) (db : OutboxDb) (operation : Operation F)
    (kept : Kept runtime trace db) :
    Kept runtime (trace ++ [(outboxStore runtime).entry db operation])
      ((outboxStore runtime).next db operation) := by
  cases result : attempt runtime db operation with
  | error failure =>
      have same : (outboxStore runtime).next db operation = db :=
        Runs.Machine.transactional_next_error result
      have quiet : enteredBy ((outboxStore runtime).entry db operation) = none := by
        have answer : ((outboxStore runtime).entry db operation).answer = .error failure :=
          Runs.Machine.transactional_answer_error result
        unfold enteredBy
        rw [answer]
        split <;> simp_all
      rw [same]
      refine ⟨kept.deliveries, kept.numbered, fun item => ?_⟩
      rw [enteredIn_quiet quiet]
      exact kept.lived item
  | ok pair =>
      obtain ⟨answer, after⟩ := pair
      have next : (outboxStore runtime).next db operation = after :=
        Runs.Machine.transactional_next_ok result
      have answered : ((outboxStore runtime).entry db operation).answer = .ok answer :=
        Runs.Machine.transactional_answer_ok result
      rw [next]
      cases attempt_effect result with
      | quiet items outbox silent =>
          have quiet : enteredBy ((outboxStore runtime).entry db operation) = none := by
            unfold enteredBy
            rw [answered]
            split
            next row _ isRecorded => exact absurd (Except.ok.inj isRecorded) (silent row)
            next => rfl
          refine ⟨outbox ▸ kept.deliveries, outbox ▸ kept.numbered, fun item => ?_⟩
          rw [enteredIn_quiet quiet]
          exact (kept.lived item).of_same (lifecycleState_of_items items item)
            (lifecycleRows_of_outbox outbox item)
      | other items kind fits seq outbox apart =>
          have quiet : enteredBy ((outboxStore runtime).entry db operation) = none := by
            unfold enteredBy
            split
            next call lock _ isTransition _ => exact absurd isTransition (apart call lock)
            next => rfl
          refine ⟨?_, ?_, fun item => ?_⟩
          · rw [outbox]
            exact deliveries_append kept.deliveries fits
          · rw [outbox]
            exact numbered_append kept.numbered seq
          · rw [enteredIn_quiet quiet]
            refine (kept.lived item).of_same (lifecycleState_of_items items item) ?_
            rw [lifecycleRows_append outbox, if_neg fun own => kind own.1, List.append_nil]
      | @entered call lock given row _ checked enters =>
          have isEntered : enteredBy ((outboxStore runtime).entry db (.transition call lock)) =
              some (row, given) := by
            have input : ((outboxStore runtime).entry db (.transition call lock)).input =
                .transition call lock := rfl
            unfold enteredBy
            rw [answered, input]
            simp only [checked]
          refine ⟨?_, ?_, fun item => ?_⟩
          · rw [enters.outbox]
            exact deliveries_append kept.deliveries enters.fits
          · rw [enters.outbox]
            exact numbered_append kept.numbered enters.seq
          · rw [enteredIn_entered isEntered]
            by_cases own : given.item = item
            · subst own
              rw [if_pos rfl]
              exact (kept.lived given.item).enter enters
            · rw [if_neg own, List.append_nil]
              exact (kept.lived item).of_other enters own

/-- A call for a state that was entered returns its row, or conflicts with it. -/
def Replays (runtime : OutboxRuntime F) (db : OutboxDb) (entered : OutboxEntry × Transition) : Prop :=
  ∀ call given, checkCall call = .ok given → given.item = entered.2.item →
    given.state = entered.2.state →
    attempt runtime db (.transition call .granted) =
      if given.related = entered.2.related ∧ given.code = entered.2.code then
        .ok (.recorded ⟨entered.1, false⟩, db)
      else .error (.outbox .deliveryConflict
        (given.deliveryId ++ " is already recorded with other details"))

theorem transitionWork_again {db : OutboxDb} {row : OutboxEntry} {given entered : Transition}
    {previous : Option LifecycleState} (recorded : db.byDelivery given.deliveryId = some row)
    (written : RowOf runtime row entered previous) :
    transitionWork runtime given db =
      if given.related = entered.related ∧ given.code = entered.code then .ok (⟨row, false⟩, db)
      else .error (.outbox .deliveryConflict
        (given.deliveryId ++ " is already recorded with other details")) := by
  unfold transitionWork
  rw [recorded]
  simp only [written.payload]
  have details := sameText_transitionPayload (F := F) entered previous given.related given.code
  by_cases same : given.related = entered.related ∧ given.code = entered.code
  · rw [if_pos same]
    have holds := details.mpr ⟨same.1.symm, same.2.symm⟩
    simp [ensure, holds, bind, Except.bind, pure, Except.pure]
  · rw [if_neg same]
    have fails := mt details.mp fun alike => same ⟨alike.1.symm, alike.2.symm⟩
    simp [ensure, fails, bind, Except.bind]

theorem Kept.replays {trace : List (StoreEntry F)} {db : OutboxDb} (kept : Kept runtime trace db)
    {item : String} {entered : OutboxEntry × Transition} (member : entered ∈ enteredIn trace item) :
    Replays runtime db entered := by
  intro call given checked sameItem sameState
  have lived := kept.lived item
  obtain ⟨previous, written⟩ : ∃ previous, RowOf runtime entered.1 entered.2 previous := by
    obtain ⟨previous, _, written⟩ := mem_of_forall₂ lived.chained.flip entered member
    exact ⟨previous, written⟩
  have inRows : entered.1 ∈ db.lifecycleRows item := by
    rw [lived.rows]
    exact List.mem_map_of_mem member
  have delivery : entered.1.deliveryId = given.deliveryId := by
    rw [written.deliveryId, Transition.deliveryId, Transition.deliveryId, sameItem, sameState]
  have recorded : db.byDelivery given.deliveryId = some entered.1 := by
    have inOutbox := List.mem_of_mem_filter inRows
    cases found : db.byDelivery given.deliveryId with
    | none => exact absurd (decide_eq_true delivery) (List.find?_eq_none.mp found entered.1 inOutbox)
    | some other =>
        have isOther : other.deliveryId = given.deliveryId := by simpa using List.find?_some found
        rw [List.inj_on_of_nodup_map kept.deliveries (List.mem_of_find?_eq_some found) inOutbox
          (isOther.trans delivery.symm)]
  have work := transitionWork_again recorded written
  simp only [attempt, recordLifecycleTransition, checked, write, work, bind, Except.bind]
  by_cases same : given.related = entered.2.related ∧ given.code = entered.2.code
  · simp only [if_pos same]
    rfl
  · simp only [if_neg same]

/-- **The lifecycle history of every item.** After every run of calls delivery ids are unique
and `seq` numbers the rows; the rows of an item are those the calls that recorded something wrote,
they are a path of allowed moves with no state twice, each with the state before it in its payload,
to the state of the item; and a call for a state that was entered returns the recorded row or
conflicts with it, and changes nothing. -/
theorem lifecycle_history (runtime : OutboxRuntime F) (operations : List (Operation F)) :
    let trace := (outboxStore runtime).trace {} operations
    let db := (outboxStore runtime).run {} operations
    (db.outbox.map OutboxEntry.deliveryId).Nodup ∧
      db.outbox.map OutboxEntry.seq = (List.range db.outbox.length).map (· + 1) ∧
      ∀ item, Lived runtime db item (enteredIn trace item) ∧
        ((enteredIn trace item).map fun entered => entered.2.state).Nodup ∧
        ∀ entered ∈ enteredIn trace item, Replays runtime db entered := by
  have start : Kept runtime [] {} := ⟨List.nodup_nil, rfl, lived_nothing⟩
  have kept := (outboxStore runtime).history_invariant (fun _ => True) (Kept runtime)
    (fun trace db operation _ => kept_step trace db operation) operations [] {}
    (fun _ _ => trivial) start
  rw [List.nil_append] at kept
  exact ⟨kept.deliveries, kept.numbered, fun item =>
    ⟨kept.lived item, (kept.lived item).path.nodup, fun entered member => kept.replays member⟩⟩

end Life

/-- The runtime of CPython. The text of an event id in an error message is not escaped. -/
def python : OutboxRuntime Double where
  floats := Double.floatText
  lawful := Double.lawful
  limits := ⟨4300, 900, 900, JsonLimits.pythonDepth, JsonLimits.pythonDepth, JsonLimits.pythonDigits⟩
  reprText text := "'" ++ text ++ "'"

/-- An opportunity enters a state, at the epoch. -/
def enters (item : String) (state : LifecycleState) : Operation Double :=
  .transition ⟨.text item, some state, .aware ⟨0, Moment.epoch_inRange⟩, .none, .none⟩ .granted

/-- Two opportunities are queued, and the first is loaded, queued again and run. -/
def twoOpportunities : List (Operation Double) :=
  [enters "o-1" .queued, enters "o-2" .queued, enters "o-1" .loading, enters "o-1" .queued,
    enters "o-1" .running]

theorem lifecycle_history_running :
    let trace := (outboxStore python).trace {} twoOpportunities
    let db := (outboxStore python).run {} twoOpportunities
    db.outbox.map OutboxEntry.seq = [1, 2, 3, 4] ∧
      ((enteredIn trace "o-1").map fun entered => entered.2.state) = [.queued, .loading, .running] ∧
      Lived python db "o-1" (enteredIn trace "o-1") ∧
      ∀ entered ∈ enteredIn trace "o-1", Replays python db entered := by
  have ran : ((outboxStore python).run {} twoOpportunities).outbox.map OutboxEntry.seq = [1, 2, 3, 4] ∧
      ((enteredIn ((outboxStore python).trace {} twoOpportunities) "o-1").map fun entered =>
        entered.2.state) = [.queued, .loading, .running] := by
    decide +kernel
  obtain ⟨lived, _, replays⟩ := (lifecycle_history python twoOpportunities).2.2 "o-1"
  exact ⟨ran.1, ran.2, lived, replays⟩

end CryptoRadar.Outbox
