import CryptoRadar.Lib.Best
import CryptoRadar.Lib.Sorting
import CryptoRadar.Scheduler.Atomic

/-!
# Backpressure does not depend on the order of admission

At one clock reading, versions that all deserve a place are admitted one after the other into
an empty scheduler. The sweep at the head of each admission finds nothing to close
(`ends_begin_settled`), so each admission adds its entry, replaces the worst queued entry or
turns its own away. What is queued is always the best of what was offered (`Offering`, kept by
`Offering.next`).

`backpressure_order` is the result: in whatever order the versions come, the queue in the
order of rank is the first `maxQueued` of all their entries in the order of rank.
-/

set_option autoImplicit false

namespace CryptoRadar.Scheduler

open Program Invocation Ranking

/-! ## Versions that deserve a place -/

/-- The entry of a version that passes the checks of an admission at this moment: it is valid
and in a band, its deadline is ahead, and its path fits before it. -/
def entryAt (policy : SchedulerPolicy) (now : Moment) (version : OpportunityVersion) :
    Option QueuedEntry := do
  let band ← policy.band version.opportunityScore
  let deadline ← version.origin.plus?
    (Moment.seconds (policy.horizonLimits version.horizon).analysisDeadlineSeconds)
  let path := (enabledPath policy version.requestedRoles).1
  let fits ← (pathFits policy path now deadline).toOption
  if version.integrityValid ∧ now < deadline ∧ fits then
    return ⟨version, band, deadline, now, path, none⟩
  else none

/-- What the checks of an admission found. -/
structure Deserves (policy : SchedulerPolicy) (now : Moment) (entry : QueuedEntry) : Prop where
  valid : entry.version.integrityValid = true
  band : policy.band entry.version.opportunityScore = some entry.band
  deadline : entry.version.origin.plus? (Moment.seconds
    (policy.horizonLimits entry.version.horizon).analysisDeadlineSeconds) = some entry.deadline
  path : entry.path = (enabledPath policy entry.version.requestedRoles).1
  ahead : now < entry.deadline
  fits : pathFits policy entry.path now entry.deadline = .ok true
  enqueued : entry.enqueuedAt = now
  supersedes : entry.supersedes = none

theorem entryAt_eq_some {policy : SchedulerPolicy} {now : Moment} {version : OpportunityVersion}
    {entry : QueuedEntry} (isEntry : entryAt policy now version = some entry) :
    entry.version = version ∧ Deserves policy now entry := by
  unfold entryAt at isEntry
  obtain ⟨band, isBand, isEntry⟩ := Option.bind_eq_some_iff.mp isEntry
  obtain ⟨deadline, isDeadline, isEntry⟩ := Option.bind_eq_some_iff.mp isEntry
  obtain ⟨fits, computed, isEntry⟩ := Option.bind_eq_some_iff.mp isEntry
  split at isEntry
  next holds =>
    cases isEntry
    obtain ⟨valid, ahead, isFit⟩ := holds
    subst isFit
    cases fit : pathFits policy (enabledPath policy version.requestedRoles).1 now deadline with
    | error raised =>
        rw [fit] at computed
        cases computed
    | ok found =>
        rw [fit] at computed
        cases computed
        exact ⟨rfl, valid, isBand, isDeadline, rfl, ahead, fit, rfl, rfl⟩
  next => cases isEntry

/-! ## The sweep closes nothing -/

section Sweep

variable {policy : SchedulerPolicy} {now : Moment} {state : State}

theorem ends_sweepEntry_settled {entry : QueuedEntry} (deserves : Deserves policy now entry)
    (out : List Transition) :
    Ends (sweepEntry policy now out entry) state fun next after => next = out ∧ after = state := by
  unfold sweepEntry
  rw [if_neg (not_le_of_gt deserves.ahead), deserves.enqueued, if_neg ?_, deserves.fits]
  · exact ends_bind.mpr (ends_lift.mpr ⟨true, rfl, ends_pure.mpr ⟨rfl, rfl⟩⟩)
  · unfold Moment.seconds
    omega

theorem ends_begin_settled (idle : state.running = none)
    (deserve : ∀ item ∈ state.queue, Deserves policy now item.2) :
    Ends (begin policy now) state fun out after =>
      out = [] ∧ after = { state with lastNow := some now } := by
  let begun : State := { state with lastNow := some now }
  have notRunning : Ends (abortRunning now .deadlinePassed) begun
      fun out after => out = [] ∧ after = begun := by
    refine ends_bind.mpr (ends_get.mpr ?_)
    rw [show begun.running = none from idle]
    exact ends_pure.mpr ⟨rfl, rfl⟩
  have queued : ∀ entry ∈ begun.queued, Deserves policy now entry := by
    intro entry member
    obtain ⟨item, inQueue, rfl⟩ := List.mem_map.mp ((List.mem_insertionSort _).mp member)
    exact deserve item inQueue
  refine ends_bind.mpr (ends_bind.mpr (ends_get.mpr (ends_set.mpr ?_)))
  refine notRunning.bind fun out middle aborted => ends_bind.mpr (ends_get.mpr ?_)
  obtain ⟨rfl, rfl⟩ := aborted
  -- The loop invariant: nothing is closed yet, and what comes deserves its place.
  refine (ends_foldlM (fun rest out after => (∀ entry ∈ rest, Deserves policy now entry) ∧
    out = [] ∧ after = begun) ?_ begun.queued [] begun ⟨queued, rfl, rfl⟩).mono
      fun _ _ holds => holds.2
  rintro entry rest out after ⟨deserving, rfl, rfl⟩
  refine (ends_sweepEntry_settled (deserving entry List.mem_cons_self) []).mono
    fun next last same => ⟨fun other member => deserving other (List.mem_cons_of_mem _ member), same⟩

/-- A reading that is accepted leaves room and is not behind the last one. -/
theorem readClock_accepts (accepted : (readClock policy (some now)).exec state = (.ok now, state)) :
    HasRoom policy now ∧ ∀ last ∈ state.lastNow, last ≤ now := by
  have room := ((settles_readClock policy state (some now)).yields now state accepted).2
  have hasRoom : (now.plus? (Moment.seconds policy.maxSpanSeconds)).isNone = false := by
    rw [Option.isNone_eq_false_iff]
    exact room
  refine ⟨room, fun last isLast => ?_⟩
  by_contra back
  unfold readClock at accepted
  simp only [hasRoom, Bool.false_eq_true, if_false, exec_bind, exec_get,
    show state.lastNow = some last from isLast, if_pos (not_le.mp back)] at accepted
  cases accepted

theorem ends_readClock (room : HasRoom policy now) (forward : ∀ last ∈ state.lastNow, last ≤ now) :
    Ends (readClock policy (some now)) state fun read after => read = now ∧ after = state := by
  have hasRoom : (now.plus? (Moment.seconds policy.maxSpanSeconds)).isNone = false := by
    rw [Option.isNone_eq_false_iff]
    exact room
  unfold readClock
  simp only [hasRoom, Bool.false_eq_true, if_false]
  refine ends_bind.mpr (ends_get.mpr ?_)
  cases last : state.lastNow with
  | none => exact ends_pure.mpr ⟨rfl, rfl⟩
  | some moment =>
      simp only [if_neg (not_lt.mpr (forward moment last))]
      exact ends_pure.mpr ⟨rfl, rfl⟩

end Sweep

/-! ## One admission -/

theorem rankKey_ne {first second : QueuedEntry} (differ : first.itemId ≠ second.itemId) :
    rankKey first ≠ rankKey second := by
  intro same
  simp only [rankKey, EmbeddingLike.apply_eq_iff_eq, Prod.mk.injEq] at same
  exact differ same.2.2.2

/-- The queue is the best of what was offered at this reading. -/
structure Offering (policy : SchedulerPolicy) (now : Moment) (offered : List QueuedEntry)
    (state : State) : Prop where
  consistent : Consistent state
  idle : state.running = none
  forward : ∀ last ∈ state.lastNow, last ≤ now
  best : Best rankKey policy.maxQueued offered (state.queue.map Prod.snd)

/-- The new entry differs from every offered one in its id, its identity and its group. -/
structure Apart (offered : List QueuedEntry) (entry : QueuedEntry) : Prop where
  id : ∀ other ∈ offered, other.itemId ≠ entry.itemId
  identity : ∀ other ∈ offered, other.version.identity ≠ entry.version.identity
  group : ∀ other ∈ offered, other.version.groupKey ≠ entry.version.groupKey

section Offer

variable {policy : SchedulerPolicy} {now : Moment} {offered : List QueuedEntry} {state : State}
  {entry : QueuedEntry}

theorem Offering.offered_of_mem (offering : Offering policy now offered state)
    {item : String × QueuedEntry} (member : item ∈ state.queue) : item.2 ∈ offered :=
  offering.best.inside (List.mem_map_of_mem member)

theorem Offering.fresh (offering : Offering policy now offered state)
    (apart : Apart offered entry) : Fresh state entry.version where
  id item member := by
    rw [offering.consistent.keyed item member]
    exact apart.id _ (offering.offered_of_mem member)
  identity item member := apart.identity _ (offering.offered_of_mem member)
  running running held := by
    rw [offering.idle] at held
    cases held

theorem Offering.lone (offering : Offering policy now offered state)
    (apart : Apart offered entry) : Lone state entry.version :=
  fun _ member => apart.group _ (offering.offered_of_mem member)

/-- An entry inserted into the queue left after room was made. -/
theorem Offering.ends_insert {left : State} (consistent : Consistent left)
    (fresh : Fresh left entry.version) (lone : Lone left entry.version)
    (idle : left.running = none) (forward : ∀ last ∈ left.lastNow, last ≤ now)
    (distinctPath : entry.path.Nodup)
    (best : Best rankKey policy.maxQueued (offered ++ [entry])
      (left.queue.map Prod.snd ++ [entry])) (result : AdmissionResult) :
    Ends (do insert entry; return result : Op AdmissionResult) left
      fun _ after => Offering policy now (offered ++ [entry]) after := by
  refine (consistent.ends_insert fresh lone).bind fun _ after inserted => ends_pure.mpr ?_
  subst inserted
  refine ⟨consistent.withEntry fresh lone distinctPath, idle, forward, ?_⟩
  have values : (left.withEntry entry).queue.map Prod.snd = left.queue.map Prod.snd ++ [entry] := by
    simp [State.withEntry]
  rw [values]
  exact best

/-- The entry is inserted, in a free place or in the place of the worst, or turned away. -/
theorem Offering.ends_admitFresh (offering : Offering policy now offered state)
    (apart : Apart offered entry) (distinctKeys : (offered.map rankKey).Nodup)
    (deserves : Deserves policy now entry) (dropped : List Role) (out : List Transition) :
    Ends (admitFresh policy entry.version entry.path dropped entry.deadline now out) state
      fun _ after => Offering policy now (offered ++ [entry]) after := by
  have consistent := offering.consistent
  have lone := offering.lone apart
  have fresh := offering.fresh apart
  have newKey : ∀ other ∈ offered, rankKey other ≠ rankKey entry :=
    fun other member => rankKey_ne (apart.id other member)
  have isEntry : (⟨entry.version, entry.band, entry.deadline, now, entry.path, none⟩ : QueuedEntry) =
      entry := by
    rw [← deserves.enqueued, ← deserves.supersedes]
  have distinctPath : entry.path.Nodup := by
    rw [deserves.path]
    exact entry.version.distinctRoles.filter _
  unfold admitFresh
  simp only [deserves.valid, Bool.not_true, Bool.false_eq_true, if_false, deserves.band,
    if_neg (not_le_of_gt deserves.ahead), deserves.fits]
  refine ends_bind.mpr (ends_lift.mpr ⟨true, rfl, ?_⟩)
  refine (ends_supersede_cases consistent).bind fun result middle outcome => ?_
  rcases outcome with ⟨_, rfl, rfl⟩ | ⟨incumbent, member, sameGroup, _⟩
  · dsimp only
    rw [isEntry]
    refine (ends_makeRoom_cases consistent entry).bind fun result last outcome => ?_
    rcases outcome with ⟨room, rfl, rfl⟩ | ⟨full, worst, member, isWorst, outcome⟩
    · refine Offering.ends_insert consistent fresh lone offering.idle offering.forward
        distinctPath ?_ _
      refine offering.best.add newKey ?_
      rw [List.length_map]
      exact room
    · have isKept : worst ∈ middle.queue.map Prod.snd := List.mem_map_of_mem member
      have isWorstKept : ∀ other ∈ middle.queue.map Prod.snd, rankKey other ≤ rankKey worst :=
        List.forall_mem_map.mpr isWorst
      have fullKept : policy.maxQueued ≤ (middle.queue.map Prod.snd).length := by
        rw [List.length_map]
        exact full
      rcases outcome with ⟨better, rfl, rfl⟩ | ⟨worse, rfl, rfl⟩
      · refine Offering.ends_insert (consistent.without member) (fresh.without worst)
          (fun item inside => lone item (Dict.mem_erase.mp inside).1) offering.idle
          offering.forward distinctPath ?_ _
        have split := (consistent.distinctIds.perm_erase member).map Prod.snd
        exact offering.best.replace newKey isWorstKept distinctKeys isKept fullKept better split
      · refine ends_pure.mpr ⟨consistent, offering.idle, offering.forward, ?_⟩
        exact offering.best.keep newKey isWorstKept isKept fullKept worse
  · exact absurd sameGroup (lone _ member)

/-- **One admission keeps the best of what was offered.** -/
theorem Offering.next (offering : Offering policy now offered state) (room : HasRoom policy now)
    (apart : Apart offered entry) (distinctKeys : (offered.map rankKey).Nodup)
    (deserving : ∀ other ∈ offered, Deserves policy now other)
    (deserves : Deserves policy now entry) :
    Offering policy now (offered ++ [entry])
      ((scheduler policy).next state (.admitVersion (some now) entry.version)) := by
  have ends : Ends (admitVersion policy (some now) entry.version) state
      fun _ after => Offering policy now (offered ++ [entry]) after := by
    have fresh := offering.fresh apart
    have inactive : state.activeIdentity entry.version.itemId = none := by
      unfold State.activeIdentity
      rw [Dict.get?_eq_none_iff.mpr fresh.id, offering.idle]
    refine (ends_readClock room offering.forward).bind fun read after same => ?_
    obtain ⟨rfl, rfl⟩ := same
    refine ends_bind.mpr (ends_get.mpr ?_)
    simp only [inactive, Option.isSome_none, Bool.false_eq_true, false_and, if_false]
    have isDeadline : Ends (deadlineOf policy entry.version) after
        fun deadline last => deadline = entry.deadline ∧ last = after := by
      unfold deadlineOf
      rw [deserves.deadline]
      exact ends_pure.mpr ⟨rfl, rfl⟩
    refine isDeadline.bind fun deadline last same => ?_
    obtain ⟨rfl, rfl⟩ := same
    refine (ends_begin_settled offering.idle fun item member =>
      deserving _ (offering.offered_of_mem member)).bind fun out middle begun => ?_
    obtain ⟨rfl, rfl⟩ := begun
    refine ends_bind.mpr (ends_get.mpr ?_)
    let begun : State := { last with lastNow := some read }
    have started : Offering policy read offered begun :=
      ⟨offering.consistent.of_same_queue rfl rfl rfl offering.consistent.apart, offering.idle,
        fun _ isLast => (Option.some.inj isLast).ge, offering.best⟩
    have absent : begun.existing entry.version.identity = none := by
      unfold State.existing
      rw [started.consistent.byIdentity_eq_none_iff.mpr (started.fresh apart).identity,
        started.idle]
    rw [show State.existing { last with lastNow := some read } entry.version.identity = none
      from absent, ← deserves.path]
    exact started.ends_admitFresh apart distinctKeys deserves _ _
  have performed : Ends (perform policy (.admitVersion (some now) entry.version)) state
      fun _ after => Offering policy now (offered ++ [entry]) after :=
    ends.bind fun _ _ holds => ends_pure.mpr holds
  obtain ⟨answer, after, ran, holds⟩ := performed
  change Offering policy now _ ((perform policy _).exec state).2
  rw [ran]
  exact holds

end Offer

/-! ## A list of admissions -/

/-- No two entries share an id, an identity or a group. -/
structure AllApart (entries : List QueuedEntry) : Prop where
  ids : (entries.map QueuedEntry.itemId).Nodup
  identities : (entries.map fun entry => entry.version.identity).Nodup
  groups : (entries.map fun entry => entry.version.groupKey).Nodup

theorem AllApart.left {first second : List QueuedEntry} (apart : AllApart (first ++ second)) :
    AllApart first where
  ids := apart.ids.sublist ((List.sublist_append_left _ _).map _)
  identities := apart.identities.sublist ((List.sublist_append_left _ _).map _)
  groups := apart.groups.sublist ((List.sublist_append_left _ _).map _)

theorem AllApart.apart_last {offered rest : List QueuedEntry} {entry : QueuedEntry}
    (apart : AllApart (offered ++ entry :: rest)) : Apart offered entry := by
  have differ : ∀ {Key : Type} (key : QueuedEntry → Key),
      ((offered ++ entry :: rest).map key).Nodup → ∀ other ∈ offered, key other ≠ key entry := by
    intro Key key distinct other member
    rw [List.map_append, List.map_cons] at distinct
    exact (List.nodup_append.mp distinct).2.2 _ (List.mem_map_of_mem member) _ List.mem_cons_self
  exact ⟨differ _ apart.ids, differ _ apart.identities, differ _ apart.groups⟩

theorem AllApart.rankKeys {entries : List QueuedEntry} (apart : AllApart entries) :
    (entries.map rankKey).Nodup := by
  refine List.Nodup.of_map (fun key => (ofLex (ofLex (ofLex key).2).2).2) ?_
  rw [List.map_map]
  exact apart.ids

/-- The calls that admit the versions of the entries at one clock reading. -/
def admissions (now : Moment) (versions : List OpportunityVersion) : List Call :=
  versions.map (.admitVersion (some now))

section Run

variable {policy : SchedulerPolicy} {now : Moment} {state : State}

/-- **A list of admissions keeps the best of what was offered.** -/
theorem Offering.run (room : HasRoom policy now) :
    ∀ (rest offered : List QueuedEntry) (state : State), Offering policy now offered state →
      AllApart (offered ++ rest) → (∀ entry ∈ offered ++ rest, Deserves policy now entry) →
        Offering policy now (offered ++ rest)
          ((scheduler policy).run state (admissions now (rest.map QueuedEntry.version)))
  | [], offered, state, offering, _, _ => by
      rw [List.append_nil]
      exact offering
  | entry :: rest, offered, state, offering, apart, deserve => by
      have split : offered ++ entry :: rest = (offered ++ [entry]) ++ rest := by simp
      have next := offering.next room apart.apart_last apart.left.rankKeys
        (fun other member => deserve other (List.mem_append_left _ member))
        (deserve entry (List.mem_append_right _ List.mem_cons_self))
      rw [split] at apart deserve ⊢
      exact Offering.run room rest (offered ++ [entry]) _ next apart deserve

/-- The queue, best rank first, is the best of the offers, best rank first. -/
theorem Offering.queued_eq {offered : List QueuedEntry} (offering : Offering policy now offered state)
    (apart : AllApart offered) :
    state.queued =
      (offered.insertionSort fun first second => rankKey first ≤ rankKey second).take
        policy.maxQueued := by
  let sorted := offered.insertionSort fun first second => rankKey first ≤ rankKey second
  have same : sorted.Perm offered := List.perm_insertionSort _ offered
  have increasing : sorted.Pairwise fun first second => rankKey first < rankKey second := by
    have distinct : (sorted.map rankKey).Nodup := (same.map _).nodup_iff.mpr apart.rankKeys
    refine (List.Pairwise.and (List.pairwise_insertionSort
      (fun first second => rankKey first ≤ rankKey second) offered)
        (List.pairwise_map.mp distinct)).imp ?_
    exact fun both => lt_of_le_of_ne both.1 both.2
  have isBest := (best_take increasing policy.maxQueued).perm same (.refl _)
  have inOrder : (sorted.take policy.maxQueued).Pairwise fun first second =>
      rankKey first ≤ rankKey second :=
    (List.pairwise_insertionSort _ offered).sublist (List.take_sublist _ _)
  have distinct : ((sorted.take policy.maxQueued).map rankKey).Nodup :=
    ((same.map _).nodup_iff.mpr apart.rankKeys).sublist ((List.take_sublist _ _).map _)
  rw [← inOrder.insertionSort_eq]
  exact (Sorting.insertionSort_eq_of_perm rankKey distinct
    (isBest.unique offering.best)).symm

end Run

/-- The entries of versions that all deserve a place. -/
theorem map_version_filterMap {policy : SchedulerPolicy} {now : Moment} :
    ∀ {versions : List OpportunityVersion},
      (∀ version ∈ versions, (entryAt policy now version).isSome) →
        (versions.filterMap (entryAt policy now)).map QueuedEntry.version = versions
  | [], _ => rfl
  | version :: rest, deserve => by
      obtain ⟨entry, isEntry⟩ := Option.isSome_iff_exists.mp (deserve version List.mem_cons_self)
      rw [List.filterMap_cons_some isEntry, List.map_cons, (entryAt_eq_some isEntry).1,
        map_version_filterMap fun other member => deserve other (List.mem_cons_of_mem _ member)]

/-- **Backpressure does not depend on the order.** At a clock reading the scheduler accepts, any
versions with distinct ids, identities and groups that all deserve a place are admitted, in any
order, into a scheduler that calls left without a queued and without a running item. The queue
is then the `maxQueued` best of their entries by band, deadline, seal and id. -/
theorem backpressure_order (policy : SchedulerPolicy) (calls : List Call) (now : Moment)
    (versions offered : List OpportunityVersion)
    (empty : ((scheduler policy).run .initial calls).queue = [])
    (idle : ((scheduler policy).run .initial calls).running = none)
    (accepted : (readClock policy (some now)).exec ((scheduler policy).run .initial calls) =
      (.ok now, (scheduler policy).run .initial calls))
    (deserve : ∀ version ∈ versions, (entryAt policy now version).isSome)
    (ids : (versions.map OpportunityVersion.itemId).Nodup)
    (identities : (versions.map OpportunityVersion.identity).Nodup)
    (groups : (versions.map OpportunityVersion.groupKey).Nodup)
    (anyOrder : offered.Perm versions) :
    ((scheduler policy).run ((scheduler policy).run .initial calls) (admissions now offered)).queued =
      ((versions.filterMap (entryAt policy now)).insertionSort
        fun first second => rankKey first ≤ rankKey second).take policy.maxQueued := by
  let entries := offered.filterMap (entryAt policy now)
  have allDeserve : ∀ version ∈ offered, (entryAt policy now version).isSome :=
    fun version member => deserve version (anyOrder.mem_iff.mp member)
  have isVersions : entries.map QueuedEntry.version = offered := map_version_filterMap allDeserve
  have deserving : ∀ entry ∈ entries, Deserves policy now entry := by
    intro entry member
    obtain ⟨version, _, isEntry⟩ := List.mem_filterMap.mp member
    exact (entryAt_eq_some isEntry).2
  have apart : AllApart entries := by
    refine ⟨?_, ?_, ?_⟩
    · have distinct := (anyOrder.map OpportunityVersion.itemId).nodup_iff.mpr ids
      rwa [← isVersions, List.map_map] at distinct
    · have distinct := (anyOrder.map OpportunityVersion.identity).nodup_iff.mpr identities
      rwa [← isVersions, List.map_map] at distinct
    · have distinct := (anyOrder.map OpportunityVersion.groupKey).nodup_iff.mpr groups
      rwa [← isVersions, List.map_map] at distinct
  obtain ⟨room, forward⟩ := readClock_accepts accepted
  have start : Offering policy now [] ((scheduler policy).run .initial calls) := by
    refine ⟨(run_recorded policy calls).consistent, idle, forward, ?_⟩
    rw [empty]
    exact Best.nil
  have ended := start.run room entries [] _ apart deserving
  rw [List.nil_append, isVersions] at ended
  rw [ended.queued_eq apart]
  rw [Sorting.insertionSort_eq_of_perm rankKey apart.rankKeys (anyOrder.filterMap _)]

def epoch : Moment := ⟨0, Moment.epoch_inRange⟩

/-- An hourly breakout of an instrument, sealed at the epoch. -/
def breakout (itemId instrument : String) (score : ℚ)
    (plain : Text.isPlain Invocation.maxTextLength itemId = true)
    (inRange : 0 ≤ score ∧ score ≤ 100) : OpportunityVersion where
  itemId := itemId
  identity := ⟨"kraken", .spot, instrument, "breakout", .long,
    "sha256:9f86d081884c7d659a2feaa0c55ad015a3bf4f1b2b0b822cd15d6c15b0f00a08", "oc-1"⟩
  horizon := .hour1
  opportunityScore := score
  sealedAt := epoch
  integrityValid := true
  deterministicPathEligible := true
  requestedRoles := [.screener]
  originSealedAt := none
  idIsPlain := plain
  scoreInRange := inRange
  sealHasRoom := by decide +kernel
  someRole := nofun
  distinctRoles := List.nodup_singleton _
  originNotLater _ given := by cases given

/-- The defaults with one place in the queue. -/
def onePlace : SchedulerPolicy :=
  { SchedulerPolicy.oc1 with maxQueued := 1, queuedPositive := le_refl 1 }

def lowBreakout : OpportunityVersion :=
  breakout "low" "XBT/EUR" 60 (by decide) (by norm_num)

def highBreakout : OpportunityVersion :=
  breakout "high" "ETH/EUR" 80 (by decide) (by norm_num)

theorem readClock_onePlace :
    (readClock onePlace (some epoch)).exec .initial = (.ok epoch, .initial) := by
  have room : HasRoom onePlace epoch := by
    unfold HasRoom
    decide +kernel
  have forward : ∀ last ∈ State.initial.lastNow, last ≤ epoch := fun _ given => by cases given
  obtain ⟨read, after, ran, rfl, rfl⟩ := ends_readClock room forward
  exact ran

theorem entryAt_onePlace : ∀ version ∈ [lowBreakout, highBreakout],
    (entryAt onePlace epoch version).isSome := by
  decide +kernel

/-- Two breakouts for one place: the one of the high band keeps it when it comes first. -/
theorem backpressure_order_onePlace :
    ((scheduler onePlace).run .initial
      (admissions epoch [highBreakout, lowBreakout])).queued =
        (([lowBreakout, highBreakout].filterMap (entryAt onePlace epoch)).insertionSort
          fun first second => rankKey first ≤ rankKey second).take onePlace.maxQueued :=
  backpressure_order onePlace [] epoch [lowBreakout, highBreakout]
    [highBreakout, lowBreakout] rfl rfl readClock_onePlace entryAt_onePlace (by decide) (by decide) (by decide)
    (List.Perm.swap _ _ _)

end CryptoRadar.Scheduler
