import CryptoRadar.Scheduler.Operations
import Mathlib.Algebra.Order.BigOperators.Group.List

/-!
# The indexes of the scheduler and its sums of time

`Consistent` is the representation invariant: every queued entry stands under its own id,
the two indexes list the queue in the same order, no two queued entries share an identity or
a group, and the running item is not queued. Its paths repeat no role.

Under it the helpers do not raise. Removing an entry gives `State.without`
(`ends_remove`), inserting a fresh one gives `State.withEntry` (`ends_insert`), and the sum a path
adds to a clock reading with room stays in the calendar (`pathFits_isOk`).
-/

set_option autoImplicit false

namespace CryptoRadar.Scheduler

open Program Invocation

/-! ## Sums of time -/

/-- The clock reading leaves room for every duration the policy adds to it. -/
def HasRoom (policy : SchedulerPolicy) (now : Moment) : Prop :=
  (now.plus? (Moment.seconds policy.maxSpanSeconds)).isSome

theorem HasRoom.plus? {policy : SchedulerPolicy} {now : Moment} (room : HasRoom policy now)
    {seconds : Nat} (le : seconds ≤ policy.maxSpanSeconds) :
    ∃ later, now.plus? (Moment.seconds seconds) = some later := by
  refine Option.isSome_iff_exists.mp (Moment.plus?_isSome_of_le ?_ ?_ room)
  · unfold Moment.seconds
    omega
  · unfold Moment.seconds
    omega

theorem Role.mem_all (role : Role) : role ∈ Role.all := by
  cases role <;> decide

/-- A path that repeats no role takes at most the time of all roles. -/
theorem SchedulerPolicy.pathSeconds_le (policy : SchedulerPolicy) {path : List Role}
    (distinct : path.Nodup) : policy.pathSeconds path ≤ policy.maxSpanSeconds := by
  obtain ⟨arranged, isPerm, isSublist⟩ :=
    List.subperm_of_subset distinct fun role _ => Role.mem_all role
  have sums : (path.map fun role => (policy.roleProfiles role).hardTimeoutSeconds).sum ≤
      (Role.all.map fun role => (policy.roleProfiles role).hardTimeoutSeconds).sum := by
    rw [← (isPerm.map _).sum_eq]
    exact (isSublist.map _).sum_le_sum fun _ _ => Nat.zero_le _
  refine le_trans ?_ (Nat.le_max_left _ _)
  exact Nat.add_le_add_right sums _

theorem pathFits_isOk {policy : SchedulerPolicy} {path : List Role} {now : Moment}
    (deadline : Moment) (room : HasRoom policy now) (distinct : path.Nodup) :
    ∃ fits, pathFits policy path now deadline = .ok fits := by
  obtain ⟨last, sum⟩ := room.plus? (policy.pathSeconds_le distinct)
  unfold pathFits
  rw [sum]
  split_ifs <;> exact ⟨_, rfl⟩

/-! ## The representation invariant -/

def identityItem (item : String × QueuedEntry) : InvocationIdentity × String :=
  (item.2.version.identity, item.1)

def groupItem (item : String × QueuedEntry) : GroupKey × String :=
  (item.2.version.groupKey, item.1)

/-- The indexes list the queue, and nothing is held twice. -/
structure Consistent (state : State) : Prop where
  keyed : ∀ item ∈ state.queue, item.1 = item.2.itemId
  distinctIds : state.queue.Distinct
  distinctIdentities : (state.queue.map fun item => item.2.version.identity).Nodup
  distinctGroups : (state.queue.map fun item => item.2.version.groupKey).Nodup
  identityIndex : state.byIdentity = state.queue.map identityItem
  groupIndex : state.byGroup = state.queue.map groupItem
  apart : ∀ running ∈ state.running, ∀ item ∈ state.queue,
    item.1 ≠ running.entry.itemId ∧ item.2.version.identity ≠ running.entry.version.identity
  paths : ∀ item ∈ state.queue, item.2.path.Nodup

theorem consistent_initial : Consistent .initial where
  keyed _ member := by cases member
  distinctIds := List.nodup_nil
  distinctIdentities := List.nodup_nil
  distinctGroups := List.nodup_nil
  identityIndex := rfl
  groupIndex := rfl
  apart _ member := by cases member
  paths _ member := by cases member

/-- The queue and its indexes without an entry. -/
def State.without (state : State) (entry : QueuedEntry) : State :=
  { state with
    queue := state.queue.erase entry.itemId
    byIdentity := state.byIdentity.erase entry.version.identity
    byGroup := state.byGroup.erase entry.version.groupKey }

/-- The queue and its indexes with an entry at the end. -/
def State.withEntry (state : State) (entry : QueuedEntry) : State :=
  { state with
    queue := state.queue ++ [(entry.itemId, entry)]
    byIdentity := state.byIdentity ++ [(entry.version.identity, entry.itemId)]
    byGroup := state.byGroup ++ [(entry.version.groupKey, entry.itemId)] }

namespace Consistent

variable {state : State} (consistent : Consistent state)
include consistent

theorem get?_eq_some_iff {itemId : String} {entry : QueuedEntry} :
    state.queue.get? itemId = some entry ↔ (itemId, entry) ∈ state.queue :=
  Dict.get?_eq_some_iff consistent.distinctIds

theorem mem_of_value {entry : QueuedEntry} (member : entry ∈ state.queue.map Prod.snd) :
    (entry.itemId, entry) ∈ state.queue := by
  obtain ⟨item, inQueue, rfl⟩ := List.mem_map.mp member
  rw [← consistent.keyed item inQueue]
  exact inQueue

/-- An identity finds exactly the queued item that has it. -/
theorem byIdentity_eq_none_iff {identity : InvocationIdentity} :
    state.byIdentity.get? identity = none ↔
      ∀ item ∈ state.queue, item.2.version.identity ≠ identity := by
  rw [consistent.identityIndex, Dict.get?_eq_none_iff, List.forall_mem_map]
  rfl

theorem byGroup_eq_none_iff {group : GroupKey} :
    state.byGroup.get? group = none ↔ ∀ item ∈ state.queue, item.2.version.groupKey ≠ group := by
  rw [consistent.groupIndex, Dict.get?_eq_none_iff, List.forall_mem_map]
  rfl

theorem byGroup_eq_some {group : GroupKey} {itemId : String}
    (found : state.byGroup.get? group = some itemId) :
    ∃ entry, (itemId, entry) ∈ state.queue ∧ entry.version.groupKey = group := by
  have member := Dict.mem_of_get?_eq_some found
  rw [consistent.groupIndex, List.mem_map] at member
  obtain ⟨⟨foundId, entry⟩, inQueue, same⟩ := member
  cases same
  exact ⟨entry, inQueue, rfl⟩

variable {entry : QueuedEntry} (member : (entry.itemId, entry) ∈ state.queue)
include member

theorem same_identity_iff {item : String × QueuedEntry} (inQueue : item ∈ state.queue) :
    item.2.version.identity = entry.version.identity ↔ item.1 = entry.itemId := by
  constructor
  · intro same
    rw [List.inj_on_of_nodup_map consistent.distinctIdentities inQueue member same]
  · intro same
    rw [List.inj_on_of_nodup_map consistent.distinctIds inQueue member same]

theorem same_group_iff {item : String × QueuedEntry} (inQueue : item ∈ state.queue) :
    item.2.version.groupKey = entry.version.groupKey ↔ item.1 = entry.itemId := by
  constructor
  · intro same
    rw [List.inj_on_of_nodup_map consistent.distinctGroups inQueue member same]
  · intro same
    rw [List.inj_on_of_nodup_map consistent.distinctIds inQueue member same]

theorem byGroup_eq : state.byGroup.get? entry.version.groupKey = some entry.itemId := by
  cases found : state.byGroup.get? entry.version.groupKey with
  | none => exact absurd rfl (consistent.byGroup_eq_none_iff.mp found _ member)
  | some itemId =>
      obtain ⟨other, inQueue, same⟩ := consistent.byGroup_eq_some found
      have sameId : itemId = entry.itemId := (consistent.same_group_iff member inQueue).mp same
      rw [sameId]

/-- Taking an entry out keeps the invariant. -/
theorem without : Consistent (state.without entry) := by
  have kept : ∀ {item}, item ∈ (state.without entry).queue → item ∈ state.queue :=
    fun inside => (Dict.mem_erase.mp inside).1
  refine ⟨fun item inside => consistent.keyed item (kept inside),
    consistent.distinctIds.erase _, ?_, ?_, ?_, ?_,
    fun running held item inside => consistent.apart running held item (kept inside),
    fun item inside => consistent.paths item (kept inside)⟩
  · exact consistent.distinctIdentities.sublist (List.filter_sublist.map _)
  · exact consistent.distinctGroups.sublist (List.filter_sublist.map _)
  · change state.byIdentity.erase _ = _
    rw [consistent.identityIndex]
    exact Dict.erase_map fun item inside => consistent.same_identity_iff member inside
  · change state.byGroup.erase _ = _
    rw [consistent.groupIndex]
    exact Dict.erase_map fun item inside => consistent.same_group_iff member inside

/-- **Removing a queued entry does not raise**, and leaves the state without it. -/
theorem ends_remove : Ends (remove entry.itemId) state fun removed after =>
    removed = entry ∧ after = state.without entry := by
  refine ⟨entry, state.without entry, ?_, rfl, rfl⟩
  have found := consistent.get?_eq_some_iff.mpr member
  have indexed : (state.byIdentity.get? entry.version.identity).isSome := by
    rw [Option.isSome_iff_ne_none]
    intro absent
    exact consistent.byIdentity_eq_none_iff.mp absent _ member rfl
  have grouped := consistent.byGroup_eq member
  obtain ⟨indexedId, isIndexed⟩ := Option.isSome_iff_exists.mp indexed
  simp [remove, exec_bind, found, isIndexed, grouped, State.without, Except.map]

end Consistent

/-- No active item has the id, the identity or the group of the version. -/
structure Fresh (state : State) (version : OpportunityVersion) : Prop where
  id : ∀ item ∈ state.queue, item.1 ≠ version.itemId
  identity : ∀ item ∈ state.queue, item.2.version.identity ≠ version.identity
  running : ∀ running ∈ state.running, running.entry.itemId ≠ version.itemId ∧
    running.entry.version.identity ≠ version.identity

namespace Consistent

variable {state : State} (consistent : Consistent state) {entry : QueuedEntry}
  (fresh : Fresh state entry.version)
  (lone : ∀ item ∈ state.queue, item.2.version.groupKey ≠ entry.version.groupKey)
include consistent fresh lone

/-- Adding a fresh entry keeps the invariant. -/
theorem withEntry (path : entry.path.Nodup) : Consistent (state.withEntry entry) := by
  have oldOrNew : ∀ {item}, item ∈ (state.withEntry entry).queue →
      item ∈ state.queue ∨ item = (entry.itemId, entry) := by
    intro item inside
    exact (List.mem_append.mp inside).imp_right List.mem_singleton.mp
  refine ⟨?_, ?_, ?_, ?_, ?_, ?_, ?_, ?_⟩
  · intro item inside
    rcases oldOrNew inside with old | rfl
    · exact consistent.keyed item old
    · rfl
  · unfold Dict.Distinct State.withEntry
    rw [List.map_append, List.nodup_append]
    refine ⟨consistent.distinctIds, by simp, ?_⟩
    intro key keyIn other otherIn same
    obtain ⟨item, inQueue, rfl⟩ := List.mem_map.mp keyIn
    simp only [List.map_cons, List.map_nil, List.mem_singleton] at otherIn
    exact fresh.id item inQueue (same.trans otherIn)
  · unfold State.withEntry
    rw [List.map_append, List.nodup_append]
    refine ⟨consistent.distinctIdentities, by simp, ?_⟩
    intro key keyIn other otherIn same
    obtain ⟨item, inQueue, rfl⟩ := List.mem_map.mp keyIn
    simp only [List.map_cons, List.map_nil, List.mem_singleton] at otherIn
    exact fresh.identity item inQueue (same.trans otherIn)
  · unfold State.withEntry
    rw [List.map_append, List.nodup_append]
    refine ⟨consistent.distinctGroups, by simp, ?_⟩
    intro key keyIn other otherIn same
    obtain ⟨item, inQueue, rfl⟩ := List.mem_map.mp keyIn
    simp only [List.map_cons, List.map_nil, List.mem_singleton] at otherIn
    exact lone item inQueue (same.trans otherIn)
  · simp [State.withEntry, consistent.identityIndex, identityItem]
  · simp [State.withEntry, consistent.groupIndex, groupItem]
  · intro running held item inside
    rcases oldOrNew inside with old | rfl
    · exact consistent.apart running held item old
    · exact ⟨(fresh.running running held).1.symm, (fresh.running running held).2.symm⟩
  · intro item inside
    rcases oldOrNew inside with old | rfl
    · exact consistent.paths item old
    · exact path

theorem ends_insert : Ends (insert entry) state fun _ after => after = state.withEntry entry := by
  have noId : state.queue.get? entry.itemId = none := Dict.get?_eq_none_iff.mpr fresh.id
  have noIdentity := consistent.byIdentity_eq_none_iff.mpr fresh.identity
  have noGroup := consistent.byGroup_eq_none_iff.mpr lone
  refine ⟨(), state.withEntry entry, ?_, rfl⟩
  simp [insert, exec_bind, Dict.assign_of_get?_eq_none, noId, noIdentity, noGroup,
    State.withEntry]

end Consistent

end CryptoRadar.Scheduler
