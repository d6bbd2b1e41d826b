import CryptoRadar.Notifications.Service

/-!
# One push per event

A call checks that the event is not `SENT`, and sends in a later step: two calls may both pass the check
(`two_calls_push_twice`). Where the calls on one event do not overlap, no failure is recorded between a
retry's selection and its check, and no call ends between a successful push and the record of it
(`Orderly`), every event is pushed once at most, stays `SENT`, and is not retried beyond the limit
(`one_push_per_event`).

The invariant (`Fair`) follows the calls that are past their check: there is one for an event at most, the
event is not `SENT`, and it has been pushed only if the call is about to record that.
-/

set_option autoImplicit false

namespace CryptoRadar.Notifications

/-! ## Orderly runs -/

/-- A call that passes the check is the only one on its event, which is recorded and, for a retry, has not
failed again since it was selected. -/
structure Undisturbed (state : State) (caller : ℕ) (job : Job) : Prop where
  recorded : (getEvent state.events job.eventId).isSome
  alone : ∀ other found, state.callers other = some found → other ≠ caller →
    found.job.eventId = job.eventId → found.stage = .read
  current : ∀ chosen row, job.selected = some chosen → getEvent state.events job.eventId = some row →
    row.ntfyAttempts = chosen.ntfyAttempts

/-- The condition on a step. -/
def Orderly (state : State) : Action → Prop
  | .read caller => ∀ job later, state.callers caller = some ⟨job, .read, later⟩ →
      ¬ state.Sent job.eventId → Undisturbed state caller job
  | .stop caller => ∀ found, state.callers caller = some found → found.stage ≠ .settle .success
  | _ => True

/-- Every step of the run meets the condition. -/
def OrderlyRun (maxAttempts : ℤ) : State → List Action → Prop
  | _, [] => True
  | state, action :: rest => Orderly state action ∧ OrderlyRun maxAttempts (step maxAttempts state action) rest

/-! ## Rows -/

section Rows

variable {events : Events} {eventId other : String}

theorem getEvent_map {change : EventRow → EventRow} (same : ∀ row, (change row).eventId = row.eventId) :
    getEvent (events.map change) eventId = (getEvent events eventId).map change := by
  unfold getEvent
  rw [List.find?_map]
  simp only [Function.comp_def, same]

theorem eventId_of_getEvent {row : EventRow} (found : getEvent events eventId = some row) :
    row.eventId = eventId := by
  simpa using List.find?_some found

theorem getEvent_setNtfyStatus (status : NtfyStatus) (nowIso : String) (error : Option String) :
    getEvent (setNtfyStatus events eventId status nowIso error) other =
      (getEvent events other).map fun row =>
        if other = eventId then row.withNtfy status nowIso error else row := by
  unfold setNtfyStatus
  rw [getEvent_map]
  · cases found : getEvent events other with
    | none => rfl
    | some row => rw [Option.map_some, Option.map_some, eventId_of_getEvent found]
  · intro row
    split <;> rfl

theorem getEvent_setNtfyStatus_of_ne (differ : other ≠ eventId) (status : NtfyStatus) (nowIso : String)
    (error : Option String) :
    getEvent (setNtfyStatus events eventId status nowIso error) other = getEvent events other := by
  rw [getEvent_setNtfyStatus]
  simp [differ]

theorem getEvent_settled_of_ne (differ : other ≠ eventId) (nowIso : String) (result : NtfyResult) :
    getEvent (settled events eventId nowIso result) other = getEvent events other := by
  cases result with
  | success => exact getEvent_setNtfyStatus_of_ne differ _ _ _
  | failed => exact getEvent_setNtfyStatus_of_ne differ _ _ _
  | disabled => rfl

end Rows

/-! ## The invariant -/

/-- What a call past its check may rely on. -/
structure Inside (maxAttempts : ℤ) (state : State) (caller : Caller) : Prop where
  row : ∃ row, getEvent state.events caller.job.eventId = some row ∧ row.ntfyStatus ≠ some .sent ∧
    (caller.job.selected.isSome → (row.ntfyAttempts : ℤ) < maxAttempts)
  pushes : state.pushes.count caller.job.eventId = if caller.stage = .settle .success then 1 else 0

/-- The invariant of the runs. -/
structure Fair (maxAttempts : ℤ) (state : State) : Prop where
  inside : ∀ caller found, state.callers caller = some found → found.stage ≠ .read →
    Inside maxAttempts state found
  alone : ∀ first second one two, state.callers first = some one → state.callers second = some two →
    one.stage ≠ .read → two.stage ≠ .read → one.job.eventId = two.job.eventId → first = second
  selected : ∀ caller found, state.callers caller = some found → ∀ job ∈ found.job :: found.later,
    ∀ row, job.selected = some row → (row.ntfyAttempts : ℤ) < maxAttempts
  once : ∀ eventId, state.pushes.count eventId ≤ 1
  pushed : ∀ eventId ∈ state.pushes, state.Sent eventId ∨
    ∃ caller found, state.callers caller = some found ∧ found.job.eventId = eventId ∧
      found.stage = .settle .success

theorem fair_empty (maxAttempts : ℤ) : Fair maxAttempts .empty where
  inside := fun caller found isCaller => by cases isCaller
  alone := fun first second one two isFirst => by cases isFirst
  selected := fun caller found isCaller => by cases isCaller
  once := fun eventId => by simp [State.empty]
  pushed := fun eventId pushed => by cases pushed

section Steps

variable {maxAttempts : ℤ} {state after : State} {caller : ℕ} {slot : Option Caller}

theorem callers_put (state : State) (caller : ℕ) (slot : Option Caller) (other : ℕ) :
    (state.put caller slot).callers other = if other = caller then slot else state.callers other := by
  unfold State.put
  by_cases same : other = caller
  · rw [same, if_pos rfl]
    exact Function.update_self caller slot state.callers
  · rw [if_neg same]
    exact Function.update_of_ne same slot state.callers

theorem Inside.congr {found : Caller} (inside : Inside maxAttempts state found)
    (rows : getEvent after.events found.job.eventId = getEvent state.events found.job.eventId)
    (pushes : after.pushes.count found.job.eventId = state.pushes.count found.job.eventId) :
    Inside maxAttempts after found := by
  obtain ⟨⟨row, isRow, unsent, few⟩, counted⟩ := inside
  exact ⟨⟨row, rows.trans isRow, unsent, few⟩, pushes.trans counted⟩

/-- **A step of one call** that touches its own event only. -/
theorem Fair.move (fair : Fair maxAttempts state) (eventId : String)
    (callers : ∀ other, after.callers other = if other = caller then slot else state.callers other)
    (rows : ∀ other, other ≠ eventId → getEvent after.events other = getEvent state.events other)
    (pushes : ∀ other, other ≠ eventId → after.pushes.count other = state.pushes.count other)
    (apart : ∀ other found, state.callers other = some found → other ≠ caller → found.stage ≠ .read →
      found.job.eventId ≠ eventId)
    (inside : ∀ found, slot = some found → found.stage ≠ .read →
      found.job.eventId = eventId ∧ Inside maxAttempts after found)
    (selected : ∀ found, slot = some found → ∀ job ∈ found.job :: found.later,
      ∀ row, job.selected = some row → (row.ntfyAttempts : ℤ) < maxAttempts)
    (once : after.pushes.count eventId ≤ 1)
    (pushed : eventId ∈ after.pushes → after.Sent eventId ∨
      ∃ found, slot = some found ∧ found.job.eventId = eventId ∧ found.stage = .settle .success)
    (left : ∀ found, state.callers caller = some found → found.stage = .settle .success →
      found.job.eventId = eventId) : Fair maxAttempts after := by
  refine ⟨?_, ?_, ?_, ?_, ?_⟩
  · intro other found isCaller past
    rw [callers] at isCaller
    split at isCaller
    next => exact (inside found isCaller past).2
    next differ =>
      have own := apart other found isCaller differ past
      exact (fair.inside other found isCaller past).congr (rows _ own) (pushes _ own)
  · intro first second one two isFirst isSecond pastFirst pastSecond same
    rw [callers] at isFirst isSecond
    split at isFirst
    next isCaller =>
      split at isSecond
      next isOther => rw [isCaller, isOther]
      next differ =>
        have own := (inside one isFirst pastFirst).1
        exact absurd (same.symm.trans own) (apart second two isSecond differ pastSecond)
    next differ =>
      split at isSecond
      next isOther =>
        have own := (inside two isSecond pastSecond).1
        exact absurd (same.trans own) (apart first one isFirst differ pastFirst)
      next => exact fair.alone first second one two isFirst isSecond pastFirst pastSecond same
  · intro other found isCaller
    rw [callers] at isCaller
    split at isCaller
    next => exact selected found isCaller
    next => exact fair.selected other found isCaller
  · intro other
    by_cases same : other = eventId
    · rw [same]
      exact once
    · rw [pushes other same]
      exact fair.once other
  · intro other isPushed
    by_cases same : other = eventId
    · rw [same] at isPushed ⊢
      rcases pushed isPushed with sent | ⟨found, isSlot, own, success⟩
      · exact .inl sent
      · exact .inr ⟨caller, found, by rw [callers, if_pos rfl, isSlot], own, success⟩
    · have before : other ∈ state.pushes := by
        rw [← List.count_pos_iff, ← pushes other same]
        exact List.count_pos_iff.mpr isPushed
      rcases fair.pushed other before with ⟨row, isRow, sent⟩ | ⟨holder, found, isCaller, own, success⟩
      · exact .inl ⟨row, (rows other same).trans isRow, sent⟩
      · refine .inr ⟨holder, found, ?_, own, success⟩
        have differ : holder ≠ caller := by
          intro isHolder
          rw [isHolder] at isCaller
          exact same (own.symm.trans (left found isCaller success))
        rw [callers, if_neg differ]
        exact isCaller

/-- A call that starts, waits before a check or ends. -/
theorem Fair.wait (fair : Fair maxAttempts state)
    (waits : ∀ found, slot = some found → found.stage = .read)
    (selected : ∀ found, slot = some found → ∀ job ∈ found.job :: found.later,
      ∀ row, job.selected = some row → (row.ntfyAttempts : ℤ) < maxAttempts)
    (left : ∀ found, state.callers caller = some found → found.stage ≠ .settle .success) :
    Fair maxAttempts (state.put caller slot) := by
  have before : ∀ other found, (state.put caller slot).callers other = some found → found.stage ≠ .read →
      state.callers other = some found := by
    intro other found isCaller past
    rw [callers_put] at isCaller
    split at isCaller
    next => exact absurd (waits found isCaller) past
    next => exact isCaller
  refine ⟨?_, ?_, ?_, fair.once, ?_⟩
  · intro other found isCaller past
    exact (fair.inside other found (before other found isCaller past) past).congr rfl rfl
  · intro first second one two isFirst isSecond pastFirst pastSecond same
    exact fair.alone first second one two (before first one isFirst pastFirst)
      (before second two isSecond pastSecond) pastFirst pastSecond same
  · intro other found isCaller
    rw [callers_put] at isCaller
    split at isCaller
    next => exact selected found isCaller
    next => exact fair.selected other found isCaller
  · intro eventId isPushed
    rcases fair.pushed eventId isPushed with sent | ⟨holder, found, isCaller, own, success⟩
    · exact .inl sent
    · refine .inr ⟨holder, found, ?_, own, success⟩
      have differ : holder ≠ caller := by
        intro isHolder
        rw [isHolder] at isCaller
        exact left found isCaller success
      rw [callers_put, if_neg differ]
      exact isCaller

/-- Another part of the program: no column of a push changes. -/
theorem Fair.environment (fair : Fair maxAttempts state) {events : Events}
    (rows : ∀ eventId row, getEvent state.events eventId = some row → ∃ other,
      getEvent events eventId = some other ∧ other.ntfyStatus = row.ntfyStatus ∧
        other.ntfyAttempts = row.ntfyAttempts) :
    Fair maxAttempts { state with events := events } := by
  refine ⟨?_, fair.alone, fair.selected, fair.once, ?_⟩
  · intro caller found isCaller past
    obtain ⟨⟨row, isRow, unsent, few⟩, counted⟩ := fair.inside caller found isCaller past
    obtain ⟨other, isOther, status, attempts⟩ := rows _ row isRow
    exact ⟨⟨other, isOther, by rwa [status], by rwa [attempts]⟩, counted⟩
  · intro eventId isPushed
    rcases fair.pushed eventId isPushed with ⟨row, isRow, sent⟩ | holder
    · obtain ⟨other, isOther, status, _⟩ := rows _ row isRow
      exact .inl ⟨other, isOther, status.trans sent⟩
    · exact .inr holder

theorem callerOf_read {jobs : List Job} : ∀ found, callerOf jobs = some found →
    found.stage = .read ∧ found.job :: found.later = jobs := by
  intro found isCaller
  cases jobs with
  | nil => cases isCaller
  | cons job later =>
      cases isCaller
      exact ⟨rfl, rfl⟩

/-- The rows that a retry selects are under the limit. -/
theorem retryJobs_selected {events : Events} {cutoffIso : String} {job : Job}
    (member : job ∈ retryJobs (findNtfyRetryCandidates events cutoffIso maxAttempts)) :
    ∀ row, job.selected = some row → (row.ntfyAttempts : ℤ) < maxAttempts := by
  obtain ⟨row, isRow, rfl⟩ := List.mem_map.mp member
  intro other isOther
  cases isOther
  have candidate := List.mem_of_mem_take (List.mem_filter.mp isRow).1
  rw [List.mem_insertionSort, List.mem_filter] at candidate
  have isCandidate := candidate.2
  unfold EventRow.isCandidate at isCandidate
  simp only [Bool.and_eq_true, decide_eq_true_eq] at isCandidate
  exact isCandidate.1.2

/-! ## Steps -/

theorem not_sent_pushes (fair : Fair maxAttempts state) {job : Job} {later : List Job}
    (isCaller : state.callers caller = some ⟨job, .read, later⟩) (unsent : ¬ state.Sent job.eventId)
    (undisturbed : Undisturbed state caller job) : state.pushes.count job.eventId = 0 := by
  rw [List.count_eq_zero]
  intro isPushed
  rcases fair.pushed _ isPushed with sent | ⟨holder, found, isHolder, own, success⟩
  · exact unsent sent
  · have differ : holder ≠ caller := by
      intro same
      rw [same, isCaller] at isHolder
      cases isHolder
      cases success
    have waits := undisturbed.alone holder found isHolder differ own
    rw [success] at waits
    cases waits

theorem Fair.read (fair : Fair maxAttempts state) (orderly : Orderly state (.read caller)) :
    Fair maxAttempts (step maxAttempts state (.read caller)) := by
  unfold step
  dsimp only
  split
  next job later isCaller =>
    have selected := fair.selected caller _ isCaller
    split
    next sent =>
      refine fair.wait (fun found isFound => (callerOf_read found isFound).1) ?_ ?_
      · intro found isFound other member
        rw [(callerOf_read found isFound).2] at member
        exact selected other (List.mem_cons_of_mem _ member)
      · intro found isFound
        rw [isCaller] at isFound
        cases isFound
        exact nofun
    next unsent =>
      have undisturbed := orderly job later isCaller unsent
      obtain ⟨row, isRow⟩ := Option.isSome_iff_exists.mp undisturbed.recorded
      have none := not_sent_pushes fair isCaller unsent undisturbed
      refine fair.move job.eventId (callers_put _ _ _) (fun _ _ => rfl) (fun _ _ => rfl) ?_ ?_ ?_ ?_ ?_ ?_
      · intro other found isOther differ past own
        exact past (undisturbed.alone other found isOther differ own)
      · intro found isFound _
        cases isFound
        refine ⟨rfl, ⟨row, isRow, fun sent => unsent ⟨row, isRow, sent⟩, ?_⟩, none⟩
        intro retries
        obtain ⟨chosen, isChosen⟩ := Option.isSome_iff_exists.mp retries
        rw [undisturbed.current chosen row isChosen isRow]
        exact selected job List.mem_cons_self chosen isChosen
      · intro found isFound
        cases isFound
        exact selected
      · exact fair.once _
      · intro isPushed
        exact absurd isPushed (List.count_eq_zero.mp none)
      · intro found isFound success
        rw [isCaller] at isFound
        cases isFound
        cases success
  next => exact fair

/-- Every other call past its check is on another event. -/
theorem Fair.apart (fair : Fair maxAttempts state) {found : Caller}
    (isCaller : state.callers caller = some found) (past : found.stage ≠ .read) :
    ∀ other holder, state.callers other = some holder → other ≠ caller → holder.stage ≠ .read →
      holder.job.eventId ≠ found.job.eventId := by
  intro other holder isOther differ pastOther own
  exact differ (fair.alone other caller holder found isOther isCaller pastOther past own)

theorem Fair.mark (fair : Fair maxAttempts state) (nowIso : String) :
    Fair maxAttempts (step maxAttempts state (.mark caller nowIso)) := by
  unfold step
  dsimp only
  split
  next job later isCaller =>
    obtain ⟨⟨row, isRow, unsent, few⟩, counted⟩ := fair.inside caller _ isCaller nofun
    have selected := fair.selected caller _ isCaller
    refine fair.move job.eventId (callers_put _ _ _) ?_ (fun _ _ => rfl)
      (fair.apart isCaller nofun) ?_ ?_ (fair.once _) ?_ ?_
    · intro other differ
      exact getEvent_setNtfyStatus_of_ne differ _ _ _
    · intro found isFound _
      cases isFound
      refine ⟨rfl, ⟨row.withNtfy .pending nowIso none, ?_, ?_, few⟩, counted⟩
      · show getEvent (setNtfyStatus state.events job.eventId _ _ _) job.eventId = _
        rw [getEvent_setNtfyStatus, isRow, Option.map_some, if_pos rfl]
      · exact fun same => NtfyStatus.noConfusion (Option.some.inj same)
    · intro found isFound
      cases isFound
      exact selected
    · intro isPushed
      exact absurd isPushed (List.count_eq_zero.mp counted)
    · intro found isFound success
      rw [isCaller] at isFound
      cases isFound
      cases success
  next => exact fair

theorem Fair.send (fair : Fair maxAttempts state) (result : NtfyResult) :
    Fair maxAttempts (step maxAttempts state (.send caller result)) := by
  unfold step
  dsimp only
  split
  next job later isCaller =>
    obtain ⟨row, counted⟩ := fair.inside caller _ isCaller nofun
    have selected := fair.selected caller _ isCaller
    have counts : ∀ other, (if result = .success then state.pushes ++ [job.eventId] else state.pushes).count
        other = state.pushes.count other +
          if result = .success ∧ job.eventId = other then 1 else 0 := by
      intro other
      by_cases success : result = .success
      · by_cases own : job.eventId = other <;> simp [success, own]
      · simp [success]
    have one : (if result = .success then state.pushes ++ [job.eventId] else state.pushes).count
        job.eventId = if Stage.settle result = .settle .success then 1 else 0 := by
      rw [counts, counted]
      simp
    refine fair.move job.eventId (callers_put _ _ _) (fun _ _ => rfl) ?_
      (fair.apart isCaller nofun) ?_ ?_ ?_ ?_ ?_
    · intro other differ
      show List.count other (if result = .success then _ else _) = _
      rw [counts, if_neg fun own => differ own.2.symm, Nat.add_zero]
    · intro found isFound _
      cases isFound
      exact ⟨rfl, row, one⟩
    · intro found isFound
      cases isFound
      exact selected
    · show List.count job.eventId (if result = .success then _ else _) ≤ 1
      rw [one]
      split <;> omega
    · intro isPushed
      have some := List.count_pos_iff.mpr isPushed
      change 0 < List.count job.eventId (if result = .success then _ else _) at some
      rw [one] at some
      split at some
      next success => exact .inr ⟨_, rfl, rfl, success⟩
      next => omega
    · intro found isFound success
      rw [isCaller] at isFound
      cases isFound
      cases success
  next => exact fair

theorem Fair.settle (fair : Fair maxAttempts state) (nowIso : String) :
    Fair maxAttempts (step maxAttempts state (.settle caller nowIso)) := by
  unfold step
  dsimp only
  split
  next job result later isCaller =>
    obtain ⟨⟨row, isRow, _⟩, counted⟩ := fair.inside caller _ isCaller nofun
    refine fair.move job.eventId (callers_put _ _ _) ?_ (fun _ _ => rfl)
      (fair.apart isCaller nofun) ?_ ?_ (fair.once _) ?_ ?_
    · intro other differ
      exact getEvent_settled_of_ne differ _ _
    · intro found isFound past
      exact absurd (callerOf_read found isFound).1 past
    · intro found isFound other member
      rw [(callerOf_read found isFound).2] at member
      exact fair.selected caller _ isCaller other (List.mem_cons_of_mem _ member)
    · intro isPushed
      have some := List.count_pos_iff.mpr isPushed
      change 0 < state.pushes.count job.eventId at some
      rw [counted] at some
      split at some
      next success =>
        cases success
        refine .inl ⟨row.withNtfy .sent nowIso none, ?_, rfl⟩
        show getEvent (setNtfyStatus state.events job.eventId _ _ _) job.eventId = _
        rw [getEvent_setNtfyStatus, isRow, Option.map_some, if_pos rfl]
      next => omega
    · intro found isFound _
      rw [isCaller] at isFound
      cases isFound
      rfl
  next => exact fair

theorem Fair.begin (fair : Fair maxAttempts state) {jobs : List Job}
    (selected : ∀ job ∈ jobs, ∀ row, job.selected = some row → (row.ntfyAttempts : ℤ) < maxAttempts)
    (free : ¬ (state.callers caller).isSome) : Fair maxAttempts (state.put caller (callerOf jobs)) := by
  refine fair.wait (fun found isFound => (callerOf_read found isFound).1) ?_ ?_
  · intro found isFound
    rw [(callerOf_read found isFound).2]
    exact selected
  · intro found isFound
    rw [isFound] at free
    exact absurd rfl free

/-- **One orderly step** keeps the invariant. -/
theorem Fair.step (fair : Fair maxAttempts state) {action : Action} (orderly : Orderly state action) :
    Fair maxAttempts (step maxAttempts state action) := by
  cases action with
  | notify caller eventId model =>
      unfold Notifications.step
      dsimp only
      split
      next => exact fair
      next free =>
        rw [not_or] at free
        refine fair.begin ?_ free.1
        intro job member row isSelected
        rw [List.mem_singleton.mp member] at isSelected
        cases isSelected
  | retry caller configured cutoffIso =>
      unfold Notifications.step
      dsimp only
      split
      next => exact fair
      next free =>
        rw [not_or] at free
        exact fair.begin (fun job member => retryJobs_selected member) free.1
  | read caller => exact fair.read orderly
  | mark caller nowIso => exact fair.mark nowIso
  | send caller result => exact fair.send result
  | settle caller nowIso => exact fair.settle nowIso
  | stop caller => exact fair.wait nofun nofun orderly
  | record eventId status modelDemand =>
      unfold Notifications.step
      dsimp only
      split
      next => exact fair
      next =>
        refine fair.environment fun other row isRow => ⟨row, ?_, rfl, rfl⟩
        unfold getEvent at isRow ⊢
        rw [List.find?_append, isRow]
        rfl
  | process eventId status =>
      refine fair.environment fun other row isRow => ?_
      rw [getEvent_map (by intro row; split <;> rfl), isRow]
      refine ⟨_, rfl, ?_⟩
      dsimp only
      split
      next => exact ⟨rfl, rfl⟩
      next => exact ⟨rfl, rfl⟩

/-- What is sent stays sent. -/
theorem sent_step (fair : Fair maxAttempts state) {action : Action} {eventId : String}
    (sent : state.Sent eventId) : (step maxAttempts state action).Sent eventId := by
  obtain ⟨row, isRow, isSent⟩ := sent
  -- a call past its check is on another event
  have other : ∀ {caller job stage later}, state.callers caller = some ⟨job, stage, later⟩ →
      stage ≠ .read → eventId ≠ job.eventId := by
    intro caller job stage later isCaller past same
    obtain ⟨found, isFound, unsent, _⟩ := (fair.inside caller _ isCaller past).row
    rw [← same, isRow] at isFound
    cases isFound
    exact unsent isSent
  cases action with
  | notify caller eventId model =>
      unfold Notifications.step
      dsimp only
      split
      next => exact ⟨row, isRow, isSent⟩
      next => exact ⟨row, isRow, isSent⟩
  | retry caller configured cutoffIso =>
      unfold Notifications.step
      dsimp only
      split
      next => exact ⟨row, isRow, isSent⟩
      next => exact ⟨row, isRow, isSent⟩
  | read caller =>
      unfold Notifications.step
      dsimp only
      split
      next =>
        split
        next => exact ⟨row, isRow, isSent⟩
        next => exact ⟨row, isRow, isSent⟩
      next => exact ⟨row, isRow, isSent⟩
  | mark caller nowIso =>
      unfold Notifications.step
      dsimp only
      split
      next isCaller =>
        exact ⟨row, (getEvent_setNtfyStatus_of_ne (other isCaller nofun) _ _ _).trans isRow, isSent⟩
      next => exact ⟨row, isRow, isSent⟩
  | send caller result =>
      unfold Notifications.step
      dsimp only
      split
      next => exact ⟨row, isRow, isSent⟩
      next => exact ⟨row, isRow, isSent⟩
  | settle caller nowIso =>
      unfold Notifications.step
      dsimp only
      split
      next isCaller =>
        exact ⟨row, (getEvent_settled_of_ne (other isCaller nofun) _ _).trans isRow, isSent⟩
      next => exact ⟨row, isRow, isSent⟩
  | stop caller => exact ⟨row, isRow, isSent⟩
  | record recorded status modelDemand =>
      unfold Notifications.step
      dsimp only
      split
      next => exact ⟨row, isRow, isSent⟩
      next =>
        refine ⟨row, ?_, isSent⟩
        unfold getEvent at isRow ⊢
        rw [List.find?_append, isRow]
        rfl
  | process processed status =>
      refine ⟨if row.eventId = processed then { row with status := status } else row, ?_, ?_⟩
      · unfold Notifications.step
        dsimp only
        rw [getEvent_map (by intro row; split <;> rfl), isRow]
        rfl
      · split
        next => exact isSent
        next => exact isSent

end Steps

/-! ## Runs -/

section Runs

variable {maxAttempts : ℤ} {state : State}

theorem Fair.run (fair : Fair maxAttempts state) {actions : List Action}
    (orderly : OrderlyRun maxAttempts state actions) : Fair maxAttempts (run maxAttempts state actions) := by
  induction actions generalizing state with
  | nil => exact fair
  | cons action rest ih => exact ih (fair.step orderly.1) orderly.2

theorem sent_run (fair : Fair maxAttempts state) {actions : List Action}
    (orderly : OrderlyRun maxAttempts state actions) {eventId : String} (sent : state.Sent eventId) :
    (run maxAttempts state actions).Sent eventId := by
  induction actions generalizing state with
  | nil => exact sent
  | cons action rest ih => exact ih (fair.step orderly.1) orderly.2 (sent_step fair sent)

/-- Each part of an orderly run is orderly. -/
theorem orderlyRun_append {earlier later : List Action} :
    OrderlyRun maxAttempts state (earlier ++ later) ↔
      OrderlyRun maxAttempts state earlier ∧ OrderlyRun maxAttempts (run maxAttempts state earlier) later := by
  induction earlier generalizing state with
  | nil => exact ⟨fun orderly => ⟨trivial, orderly⟩, fun orderly => orderly.2⟩
  | cons action rest ih =>
      rw [List.cons_append]
      show _ ∧ _ ↔ (_ ∧ _) ∧ _
      rw [ih, and_assoc]
      rfl

theorem run_append (earlier later : List Action) :
    run maxAttempts state (earlier ++ later) = run maxAttempts (run maxAttempts state earlier) later :=
  List.foldl_append

end Runs

/-- **One push per event** in an orderly run: an event is pushed once at most, what is sent stays sent, and a
retry sends only for a row whose failures are under the limit. -/
theorem one_push_per_event (maxAttempts : ℤ) (actions : List Action)
    (orderly : OrderlyRun maxAttempts .empty actions) :
    (∀ eventId, (run maxAttempts .empty actions).pushes.count eventId ≤ 1) ∧
    (∀ earlier later, actions = earlier ++ later → ∀ eventId, (run maxAttempts .empty earlier).Sent eventId →
      (run maxAttempts .empty actions).Sent eventId) ∧
    (∀ earlier later caller result, actions = earlier ++ .send caller result :: later →
      ∀ found, (run maxAttempts .empty earlier).callers caller = some found → found.stage = .send →
        found.job.selected.isSome → ∃ row, getEvent (run maxAttempts .empty earlier).events
          found.job.eventId = some row ∧ (row.ntfyAttempts : ℤ) < maxAttempts) := by
  refine ⟨((fair_empty maxAttempts).run orderly).once, ?_, ?_⟩
  · intro earlier later split eventId sent
    subst split
    obtain ⟨before, after⟩ := orderlyRun_append.mp orderly
    rw [run_append]
    exact sent_run ((fair_empty maxAttempts).run before) after sent
  · intro earlier later caller result split found isCaller sends retries
    subst split
    have fair := (fair_empty maxAttempts).run (orderlyRun_append.mp orderly).1
    obtain ⟨row, isRow, _, few⟩ := (fair.inside caller found isCaller (by rw [sends]; exact nofun)).row
    exact ⟨row, isRow, few retries⟩

/-- Two calls that both pass the check before either sends. -/
def overlapping : List Action :=
  [.record "e" "PROCESSED" (some "FABLE"), .notify 0 "e" (some "FABLE"), .notify 1 "e" (some "FABLE"),
    .read 0, .read 1, .mark 0 "t0", .mark 1 "t1", .send 0 .success, .send 1 .success]

theorem two_calls_push_twice :
    ¬ ∀ (maxAttempts : ℤ) (actions : List Action) (eventId : String),
      (run maxAttempts .empty actions).pushes.count eventId ≤ 1 := by
  intro claim
  exact absurd (claim 3 overlapping "e") (by decide)

/-- A push that fails and its retry that succeeds. -/
def pushedAgain : List Action :=
  [.record "e" "PROCESSED" (some "FABLE"), .notify 0 "e" (some "FABLE"), .read 0, .mark 0 "t0",
    .send 0 .failed, .settle 0 "t1", .retry 1 true "t2", .read 1, .mark 1 "t3", .send 1 .success,
    .settle 1 "t4"]

theorem one_push_per_event_pushed_again :
    (run 3 .empty pushedAgain).pushes = ["e"] ∧
      ∀ eventId, (run 3 .empty pushedAgain).pushes.count eventId ≤ 1 := by
  refine ⟨by decide, (one_push_per_event 3 pushedAgain ?_).1⟩
  refine ⟨trivial, trivial, ?_, trivial, trivial, trivial, trivial, ?_, trivial, trivial, trivial, trivial⟩
  · intro job later isCaller _
    cases isCaller
    refine ⟨by decide, ?_, nofun⟩
    intro other found isOther differ
    have free := (callers_put State.empty 0 _ other).symm.trans isOther
    rw [if_neg differ] at free
    cases free
  · intro job later isCaller _
    cases isCaller
    refine ⟨by decide, ?_, ?_⟩
    · intro other found isOther differ
      change Function.update _ 1 _ other = _ at isOther
      rw [Function.update_of_ne differ] at isOther
      by_cases first : other = 0
      · rw [first] at isOther
        cases isOther
      · iterate 5
          change Function.update _ 0 _ other = _ at isOther
          rw [Function.update_of_ne first] at isOther
        cases isOther
    · intro chosen row isChosen isRow
      cases isChosen
      cases isRow
      rfl

end CryptoRadar.Notifications
