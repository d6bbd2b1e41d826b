import CryptoRadar.Alerts.Keys
import CryptoRadar.Trend.Python

/-!
# A key is claimed at most once

In every run of `claim` calls no two calls return the same key, whatever they are asked for, however
they are interleaved and wherever one of them fails (`claim_at_most_once`).

The invariant (`Claimed`) follows the file: while it can be read it records every key that was
returned, and the lines of the call that holds the lock continue it.
-/

set_option autoImplicit false

namespace CryptoRadar.Alerts

open Checked JsonText Trend

section Calls

variable {F : Type} {floats : FloatText F} {limits : JsonLimits}

/-! ## Runs -/

/-- The call returned the key. -/
def State.Returns (state : State) (key : Key) (call : ℕ) : Prop :=
  ∃ keys, state.phase call = .returned keys ∧ key ∈ keys

/-- The file before the lines of a call records what was returned, and not what the call is to
return; its lines record that. -/
structure Continues (floats : FloatText F) (limits : JsonLimits) (state : State) (keys : List Key)
    (left base written : Bytes) (handled : List Key) : Prop where
  file : state.file = base ++ written
  read : parseHandled floats limits base = .ok handled
  recorded : ∀ key call, state.Returns key call → key ∈ handled
  lines : parseHandled floats limits (written ++ left) = .ok keys
  fresh : ∀ key ∈ keys, key ∉ handled
  distinct : keys.Nodup

/-- The invariant of the runs. -/
structure Claimed (floats : FloatText F) (limits : JsonLimits) (state : State) : Prop where
  holder : ∀ call, (state.phase call).holdsLock = true → state.holder = some call
  recorded : ∀ keys, parseHandled floats limits state.file = .ok keys →
    ∀ key call, state.Returns key call → key ∈ keys
  writing : ∀ call keys left, state.phase call = .writing keys left →
    ∃ base written handled, Continues floats limits state keys left base written handled
  apart : ∀ key first second, state.Returns key first → state.Returns key second → first = second
  once : ∀ call keys, state.phase call = .returned keys → keys.Nodup

theorem claimed_start (file : Bytes) : Claimed floats limits (.start file) where
  holder := fun call holds => by cases holds
  recorded := fun keys _ key call ⟨_, returned, _⟩ => by cases returned
  writing := fun call keys left writing => by cases writing
  apart := fun key first second ⟨_, returned, _⟩ => by cases returned
  once := fun call keys returned => by cases returned

theorem phase_put (state : State) (call : ℕ) (phase : Phase) (other : ℕ) :
    (state.put call phase).phase other = if other = call then phase else state.phase other := by
  unfold State.put
  by_cases same : other = call
  · rw [same, if_pos rfl]
    exact Function.update_self call phase state.phase
  · rw [if_neg same]
    exact Function.update_of_ne same phase state.phase

theorem Continues.mono {state after : State} {keys : List Key} {left base written : Bytes}
    {handled : List Key} (continues : Continues floats limits state keys left base written handled)
    (file : after.file = state.file)
    (returns : ∀ key call, after.Returns key call → state.Returns key call) :
    Continues floats limits after keys left base written handled :=
  { continues with
    file := file.trans continues.file
    recorded := fun key call returned => continues.recorded key call (returns key call returned) }

/-- A phase that returns no key. -/
def Phase.Quiet (phase : Phase) : Prop := ∀ keys, phase = .returned keys → keys = []

/-- A call that goes to a phase without a key to return keeps the invariant. -/
theorem Claimed.put {state after : State} (claimed : Claimed floats limits state) (call : ℕ)
    (phase : Phase) (quiet : phase.Quiet) (file : after.file = state.file)
    (phases : ∀ other, after.phase other = if other = call then phase else state.phase other)
    (holder : ∀ other, (after.phase other).holdsLock = true → after.holder = some other)
    (writing : ∀ keys left, phase = .writing keys left →
      ∃ base written handled, Continues floats limits state keys left base written handled) :
    Claimed floats limits after := by
  have returns : ∀ key other, after.Returns key other → state.Returns key other := by
    rintro key other ⟨keys, returned, member⟩
    rw [phases] at returned
    by_cases same : other = call
    · rw [if_pos same] at returned
      rw [quiet keys returned] at member
      exact absurd member List.not_mem_nil
    · rw [if_neg same] at returned
      exact ⟨keys, returned, member⟩
  refine ⟨holder, ?_, ?_, ?_, ?_⟩
  · intro keys read key other returned
    rw [file] at read
    exact claimed.recorded keys read key other (returns key other returned)
  · intro other keys left isWriting
    have before : ∃ base written handled,
        Continues floats limits state keys left base written handled := by
      rw [phases] at isWriting
      by_cases same : other = call
      · rw [if_pos same] at isWriting
        exact writing keys left isWriting
      · rw [if_neg same] at isWriting
        exact claimed.writing other keys left isWriting
    obtain ⟨base, written, handled, continues⟩ := before
    exact ⟨base, written, handled, continues.mono file returns⟩
  · intro key first second isFirst isSecond
    exact claimed.apart key first second (returns key first isFirst) (returns key second isSecond)
  · intro other keys returned
    rw [phases] at returned
    by_cases same : other = call
    · rw [if_pos same] at returned
      rw [quiet keys returned]
      exact List.nodup_nil
    · rw [if_neg same] at returned
      exact claimed.once other keys returned

/-- A call that lets the lock go without a key. -/
theorem Claimed.leave {state : State} (claimed : Claimed floats limits state) {call : ℕ}
    (holds : (state.phase call).holdsLock = true) {phase : Phase} (quiet : phase.Quiet)
    (free : phase.holdsLock = false) : Claimed floats limits (state.leave call phase) := by
  have phases : ∀ other, (state.leave call phase).phase other =
      if other = call then phase else state.phase other := phase_put state call phase
  refine claimed.put call phase quiet rfl phases ?_ ?_
  · intro other locked
    rw [phases] at locked
    by_cases same : other = call
    · rw [if_pos same, free] at locked
      cases locked
    · rw [if_neg same] at locked
      have isOther := claimed.holder other locked
      rw [claimed.holder call holds] at isOther
      exact absurd (Option.some.inj isOther).symm same
  · intro keys left isWriting
    rw [isWriting] at free
    cases free

/-- A refused call leaves everything else as it is. -/
theorem Claimed.refuse {state : State} (claimed : Claimed floats limits state) (call : ℕ)
    (failure : Failure) : Claimed floats limits (state.put call (.raised failure)) := by
  refine claimed.put call (.raised failure) (fun keys same => by cases same) rfl
    (phase_put state call _) ?_ (fun keys left same => by cases same)
  intro other locked
  rw [phase_put] at locked
  by_cases same : other = call
  · rw [if_pos same] at locked
    cases locked
  · rw [if_neg same] at locked
    exact claimed.holder other locked

theorem Claimed.start {state : State} (claimed : Claimed floats limits state) (call : ℕ)
    (entries : List (Key × PyStr)) (ts : PyStr) (opens : Bool) :
    Claimed floats limits (step floats limits state (.start call entries ts opens)) := by
  unfold step
  dsimp only
  split
  next =>
    split
    next => exact claimed.refuse call .unknownStatus
    split
    next => exact claimed.refuse call .unreadable
    split
    next => exact claimed.refuse call .busy
    next free =>
      refine claimed.put call (.locked entries ts) (fun keys same => by cases same)
        rfl (phase_put state call _) ?_ (fun keys left same => by cases same)
      intro other locked
      have same : other = call := by
        by_contra different
        change ((state.put call (.locked entries ts)).phase other).holdsLock = true at locked
        rw [phase_put, if_neg different] at locked
        rw [claimed.holder other locked] at free
        exact free rfl
      rw [same]
  next => exact claimed

/-- What a call is about to write continues the file that it has read. -/
theorem prepare_eq_ok {file data : Bytes} {entries : List (Key × PyStr)} {ts : PyStr}
    {keys : List Key} (prepared : prepare floats limits file entries ts = .ok (keys, data)) :
    ∃ handled, parseHandled floats limits file = .ok handled ∧
      parseHandled floats limits data = .ok keys ∧ (∀ key ∈ keys, key ∉ handled) ∧ keys.Nodup := by
  obtain ⟨handled, read, rest⟩ := bind_eq_ok.mp prepared
  obtain ⟨written, checked, same⟩ := bind_eq_ok.mp rest
  cases same
  refine ⟨handled, read, ?_, unhandled_notMem, unhandled_nodup⟩
  rw [checked, parseHandled_linesFor checked]

theorem Claimed.read {state : State} (claimed : Claimed floats limits state) (call : ℕ)
    (readable : Bool) :
    Claimed floats limits (step floats limits state (.read call readable)) := by
  unfold step
  dsimp only
  split
  next entries ts locked =>
    have holds : (state.phase call).holdsLock = true := by
      rw [locked]
      rfl
    split
    next => exact claimed.leave holds (fun keys same => by cases same) rfl
    next =>
      split
      next => exact claimed.leave holds (fun keys same => by cases same) rfl
      next => exact claimed.leave holds (fun keys same => by cases same; rfl) rfl
      next keys data _ prepared =>
        obtain ⟨handled, read, lines, fresh, distinct⟩ := prepare_eq_ok prepared
        refine claimed.put call (.writing keys data) (fun keys same => by cases same) rfl
          (phase_put state call _) ?_ ?_
        · intro other isLocked
          rw [phase_put] at isLocked
          by_cases same : other = call
          · rw [same]
            exact claimed.holder call holds
          · rw [if_neg same] at isLocked
            exact claimed.holder other isLocked
        · intro others left same
          cases same
          exact ⟨state.file, [], handled, (List.append_nil _).symm, read,
            fun key other => claimed.recorded handled read key other, lines, fresh, distinct⟩
  next => exact claimed

/-- The lock is held by one call at a time. -/
theorem Claimed.alone {state : State} (claimed : Claimed floats limits state) {first second : ℕ}
    (firstHolds : (state.phase first).holdsLock = true)
    (secondHolds : (state.phase second).holdsLock = true) : first = second :=
  Option.some.inj ((claimed.holder first firstHolds).symm.trans (claimed.holder second secondHolds))

theorem Claimed.write {state : State} (claimed : Claimed floats limits state) (call count : ℕ) :
    Claimed floats limits (step floats limits state (.write call count)) := by
  unfold step
  dsimp only
  split
  next keys left writing =>
    have holds : (state.phase call).holdsLock = true := by
      rw [writing]
      rfl
    obtain ⟨base, written, handled, continues⟩ := claimed.writing call keys left writing
    have file : state.file ++ left.take count = base ++ (written ++ left.take count) := by
      rw [continues.file, List.append_assoc]
    let after : State := { state.put call (.writing keys (left.drop count)) with
      file := state.file ++ left.take count }
    have phases : ∀ other, after.phase other =
        if other = call then .writing keys (left.drop count) else state.phase other :=
      phase_put state call _
    have returns : ∀ key other, after.Returns key other → state.Returns key other := by
      rintro key other ⟨returned, isReturned, member⟩
      rw [phases] at isReturned
      by_cases same : other = call
      · rw [if_pos same] at isReturned
        cases isReturned
      · rw [if_neg same] at isReturned
        exact ⟨returned, isReturned, member⟩
    change Claimed floats limits after
    refine ⟨?_, ?_, ?_, ?_, ?_⟩
    · intro other locked
      rw [phases] at locked
      by_cases same : other = call
      · rw [same]
        exact claimed.holder call holds
      · rw [if_neg same] at locked
        exact claimed.holder other locked
    · intro all read key other returned
      change parseHandled floats limits (state.file ++ left.take count) = .ok all at read
      rw [file] at read
      obtain ⟨added, rfl, _⟩ := parseHandled_append continues.read read
      exact List.mem_append_left _ (continues.recorded key other (returns key other returned))
    · intro other others rest isWriting
      rw [phases] at isWriting
      by_cases same : other = call
      · rw [if_pos same] at isWriting
        cases isWriting
        refine ⟨base, written ++ left.take count, handled, file, continues.read,
          fun key other returned => continues.recorded key other (returns key other returned), ?_,
          continues.fresh, continues.distinct⟩
        rw [List.append_assoc, List.take_append_drop]
        exact continues.lines
      · rw [if_neg same] at isWriting
        exact absurd (claimed.alone (by rw [isWriting]; rfl) holds) same
    · intro key first second isFirst isSecond
      exact claimed.apart key first second (returns key first isFirst) (returns key second isSecond)
    · intro other returned isReturned
      rw [phases] at isReturned
      by_cases same : other = call
      · rw [if_pos same] at isReturned
        cases isReturned
      · rw [if_neg same] at isReturned
        exact claimed.once other returned isReturned
  next => exact claimed

/-- The keys of a call that has written its lines are new to every other call. -/
theorem Claimed.finish {state : State} (claimed : Claimed floats limits state) (call : ℕ) :
    Claimed floats limits (step floats limits state (.finish call)) := by
  unfold step
  dsimp only
  split
  next keys writing =>
    have holds : (state.phase call).holdsLock = true := by
      rw [writing]
      rfl
    obtain ⟨base, written, handled, continues⟩ := claimed.writing call keys [] writing
    have lines : parseHandled floats limits written = .ok keys := by
      rw [← continues.lines, List.append_nil]
    let after : State := state.leave call (.returned keys)
    have phases : ∀ other, after.phase other =
        if other = call then .returned keys else state.phase other := phase_put state call _
    have returns : ∀ key other, after.Returns key other →
        (other = call ∧ key ∈ keys) ∨ state.Returns key other := by
      rintro key other ⟨returned, isReturned, member⟩
      rw [phases] at isReturned
      by_cases same : other = call
      · rw [if_pos same] at isReturned
        cases isReturned
        exact .inl ⟨same, member⟩
      · rw [if_neg same] at isReturned
        exact .inr ⟨returned, isReturned, member⟩
    have others : ∀ other, other ≠ call → (after.phase other).holdsLock = false := by
      intro other different
      rw [phases, if_neg different, ← Bool.not_eq_true]
      exact fun locked => different (claimed.alone locked holds)
    change Claimed floats limits after
    refine ⟨?_, ?_, ?_, ?_, ?_⟩
    · intro other locked
      by_cases same : other = call
      · rw [phases, if_pos same] at locked
        cases locked
      · rw [others other same] at locked
        cases locked
    · intro all read key other returned
      change parseHandled floats limits state.file = .ok all at read
      rw [continues.file] at read
      cases read.symm.trans (parseHandled_append_ok continues.read lines)
      rcases returns key other returned with ⟨_, member⟩ | earlier
      · exact List.mem_append_right _ member
      · exact List.mem_append_left _ (continues.recorded key other earlier)
    · intro other writes left isWriting
      by_cases same : other = call
      · rw [phases, if_pos same] at isWriting
        cases isWriting
      · have locked := others other same
        rw [isWriting] at locked
        cases locked
    · intro key first second isFirst isSecond
      rcases returns key first isFirst with ⟨rfl, member⟩ | firstEarlier
      · rcases returns key second isSecond with ⟨rfl, _⟩ | secondEarlier
        · rfl
        · exact absurd (continues.recorded key second secondEarlier) (continues.fresh key member)
      · rcases returns key second isSecond with ⟨rfl, member⟩ | secondEarlier
        · exact absurd (continues.recorded key first firstEarlier) (continues.fresh key member)
        · exact claimed.apart key first second firstEarlier secondEarlier
    · intro other returned isReturned
      rw [phases] at isReturned
      by_cases same : other = call
      · rw [if_pos same] at isReturned
        cases isReturned
        exact continues.distinct
      · rw [if_neg same] at isReturned
        exact claimed.once other returned isReturned
  next => exact claimed

/-- Every action keeps the invariant. -/
theorem Claimed.step {state : State} (claimed : Claimed floats limits state) (action : Action) :
    Claimed floats limits (step floats limits state action) := by
  cases action with
  | start call entries ts opens => exact claimed.start call entries ts opens
  | read call readable => exact claimed.read call readable
  | write call count => exact claimed.write call count
  | finish call => exact claimed.finish call
  | fail call =>
      unfold Alerts.step
      dsimp only
      split
      next keys left writing =>
        exact claimed.leave (by rw [writing]; rfl) (fun keys same => by cases same) rfl
      next => exact claimed
  | crash call =>
      unfold Alerts.step
      dsimp only
      split
      next holds => exact claimed.leave holds (fun keys same => by cases same) rfl
      next => exact claimed

theorem claimed_run {state : State} (claimed : Claimed floats limits state)
    (actions : List Action) : Claimed floats limits (run floats limits state actions) := by
  induction actions generalizing state with
  | nil => exact claimed
  | cons action rest hyp => exact hyp (claimed.step action)

/-! ## A torn file -/

/-- The last line of the file is not terminated, and nobody goes on with it. -/
structure Torn (state : State) : Prop where
  file : ¬ Lines.Terminated 10 state.file
  idle : ∀ call keys left, state.phase call ≠ .writing keys left

/-- Nothing is prepared on a torn file. -/
theorem prepare_torn (floats : FloatText F) (limits : JsonLimits) {file : Bytes} (torn : ¬ Lines.Terminated 10 file)
    (entries : List (Key × PyStr)) (ts : PyStr) :
    ∃ failure, prepare floats limits file entries ts = .error failure := by
  cases prepared : prepare floats limits file entries ts with
  | error failure => exact ⟨failure, rfl⟩
  | ok result =>
      obtain ⟨handled, read, _⟩ := bind_eq_ok.mp prepared
      exact absurd (parseHandled_eq_ok.mp read).1 torn

/-- On a torn file a call goes to a phase that neither writes nor returns. -/
theorem torn_put {state after : State} (torn : Torn state) {call : ℕ} {phase : Phase}
    (file : after.file = state.file)
    (phases : ∀ other, after.phase other = if other = call then phase else state.phase other)
    (still : (∀ keys, phase ≠ .returned keys) ∧ ∀ keys left, phase ≠ .writing keys left) :
    Torn after ∧ ∀ other keys, after.phase other = .returned keys →
      state.phase other = .returned keys := by
  refine ⟨⟨file ▸ torn.file, ?_⟩, ?_⟩
  · intro other keys left isWriting
    rw [phases] at isWriting
    by_cases same : other = call
    · rw [if_pos same] at isWriting
      exact still.2 keys left isWriting
    · rw [if_neg same] at isWriting
      exact torn.idle other keys left isWriting
  · intro other keys returned
    rw [phases] at returned
    by_cases same : other = call
    · rw [if_pos same] at returned
      exact absurd returned (still.1 keys)
    · rw [if_neg same] at returned
      exact returned

/-- On a torn file nothing is returned. -/
theorem torn_step (floats : FloatText F) (limits : JsonLimits) {state : State} (torn : Torn state) (action : Action) :
    Torn (step floats limits state action) ∧ ∀ other keys,
      (step floats limits state action).phase other = .returned keys →
        state.phase other = .returned keys := by
  have same : Torn state ∧ ∀ other keys, state.phase other = .returned keys →
      state.phase other = .returned keys := ⟨torn, fun _ _ returned => returned⟩
  cases action with
  | start call entries ts opens =>
      unfold step
      dsimp only
      split
      next =>
        split
        next => exact torn_put torn rfl (phase_put state call _) ⟨by simp, by simp⟩
        split
        next => exact torn_put torn rfl (phase_put state call _) ⟨by simp, by simp⟩
        split
        next => exact torn_put torn rfl (phase_put state call _) ⟨by simp, by simp⟩
        next => exact torn_put torn rfl (phase_put state call (.locked entries ts)) ⟨by simp, by simp⟩
      next => exact same
  | read call readable =>
      unfold step
      dsimp only
      split
      next entries ts _ =>
        obtain ⟨failure, failed⟩ := prepare_torn floats limits torn.file entries ts
        rw [failed]
        split
        next => exact torn_put torn rfl (phase_put state call _) ⟨by simp, by simp⟩
        next => exact torn_put torn rfl (phase_put state call _) ⟨by simp, by simp⟩
      next => exact same
  | write call count =>
      unfold step
      dsimp only
      split
      next keys left writing => exact absurd writing (torn.idle call keys left)
      next => exact same
  | fail call =>
      unfold step
      dsimp only
      split
      next keys left writing => exact absurd writing (torn.idle call keys left)
      next => exact same
  | crash call =>
      unfold step
      dsimp only
      split
      next => exact torn_put torn rfl (phase_put state call _) ⟨by simp, by simp⟩
      next => exact same
  | finish call =>
      unfold step
      dsimp only
      split
      next keys writing => exact absurd writing (torn.idle call keys [])
      next => exact same

theorem torn_run (floats : FloatText F) (limits : JsonLimits) {state : State} (torn : Torn state) (actions : List Action) :
    ∀ other keys, (run floats limits state actions).phase other = .returned keys →
      state.phase other = .returned keys := by
  induction actions generalizing state with
  | nil => exact fun _ _ returned => returned
  | cons action rest hyp =>
      intro other keys returned
      obtain ⟨still, before⟩ := torn_step floats limits torn action
      exact before other keys (hyp still other keys returned)

/-- A call that ends in the middle of a line leaves a torn file. -/
theorem torn_of_writing {state : State} (claimed : Claimed floats limits state) {call : ℕ}
    {keys : List Key} {left : Bytes} (writing : state.phase call = .writing keys left)
    (cut : ¬ Lines.Terminated 10 state.file) {phase : Phase}
    (free : phase.holdsLock = false) : Torn (state.leave call phase) := by
  refine ⟨cut, ?_⟩
  intro other others rest isWriting
  change (state.put call phase).phase other = _ at isWriting
  rw [phase_put] at isWriting
  by_cases same : other = call
  · rw [if_pos same] at isWriting
    rw [isWriting] at free
    cases free
  · rw [if_neg same] at isWriting
    exact same (claimed.alone (by rw [isWriting]; rfl) (by rw [writing]; rfl))

/-- **At most once**: however calls are interleaved and wherever they fail, a key is returned by one
call at most, and by that call once. After a call has failed in the middle of a line, no call
returns. -/
theorem claim_at_most_once (floats : FloatText F) (limits : JsonLimits) (file : Bytes)
    (actions : List Action) :
    let state := run floats limits (.start file) actions
    (∀ key first second, state.Returns key first → state.Returns key second → first = second) ∧
    (∀ call keys, state.phase call = .returned keys → keys.Nodup) ∧
    ∀ call keys left, state.phase call = .writing keys left → ¬ Lines.Terminated 10 state.file →
      ∀ ends ∈ [Action.fail call, .crash call], ∀ later other returned,
        (run floats limits (step floats limits state ends) later).phase other = .returned returned →
          state.phase other = .returned returned := by
  intro state
  have claimed : Claimed floats limits state := claimed_run (claimed_start file) actions
  refine ⟨claimed.apart, claimed.once, ?_⟩
  intro call keys left writing cut ends isEnd later other returned isReturned
  have noReturn : ∀ phase : Phase, (∀ keys, phase ≠ .returned keys) →
      (state.leave call phase).phase other = .returned returned →
        state.phase other = .returned returned := by
    intro phase still before
    change (state.put call phase).phase other = _ at before
    rw [phase_put] at before
    by_cases same : other = call
    · rw [if_pos same] at before
      exact absurd before (still returned)
    · rw [if_neg same] at before
      exact before
  simp only [List.mem_cons, List.not_mem_nil, or_false] at isEnd
  rcases isEnd with rfl | rfl
  · have left : step floats limits state (.fail call) =
        state.leave call (.raised .writeFailed) := by
      unfold step
      dsimp only
      rw [writing]
    rw [left] at isReturned
    exact noReturn _ (by simp)
      (torn_run floats limits (torn_of_writing claimed writing cut rfl) later other returned isReturned)
  · have left : step floats limits state (.crash call) = state.leave call .crashed := by
      unfold step
      dsimp only
      rw [writing]
      rfl
    rw [left] at isReturned
    exact noReturn _ (by simp)
      (torn_run floats limits (torn_of_writing claimed writing cut rfl) later other returned isReturned)

end Calls

/-! ## Three calls -/

def newYear : Key := (pyStr "ENS", pyStr "2026-01-01")

def nextDay : Key := (pyStr "ENS_VT", pyStr "2026-01-02")

/-- Two calls are asked for one key, and a third call fails in the middle of its line. -/
def threeCalls : List Action :=
  [.start 0 [(newYear, pyStr "claimed"), (newYear, pyStr "claimed")] (pyStr "now") true, .read 0 true,
    .write 0 30, .start 1 [(newYear, pyStr "claimed")] (pyStr "now") true, .write 0 100, .finish 0,
    .start 2 [(newYear, pyStr "claimed"), (nextDay, pyStr "superseded")] (pyStr "now") true,
    .read 2 true, .write 2 10]

@[irreducible] def threeState : State := run Double.floatText python.limits (.start []) threeCalls

/-- The first call has claimed its key, and the third has written ten bytes of its line. -/
theorem threeState_ends : threeState.phase 0 = .returned [newYear] ∧
    threeState.phase 2 = .writing [nextDay]
      ((linesFor Double.floatText python.limits [(nextDay, pyStr "superseded")] (pyStr "now")).drop 10) ∧
    ¬ Lines.Terminated 10 threeState.file := by
  rw [← terminated_iff]
  decide +kernel

theorem claim_at_most_once_three_calls :
    (∀ call, threeState.Returns newYear call → call = 0) ∧
    ∀ later other returned, (run Double.floatText python.limits
      (step Double.floatText python.limits threeState (.fail 2)) later).phase other =
        .returned returned → threeState.phase other = .returned returned := by
  have isState : run Double.floatText python.limits (.start []) threeCalls = threeState := by
    rw [threeState]
  obtain ⟨apart, _, torn⟩ := claim_at_most_once Double.floatText python.limits [] threeCalls
  rw [isState] at apart torn
  refine ⟨fun call returns => ?_, ?_⟩
  · exact apart newYear call 0 returns ⟨_, threeState_ends.1, List.mem_cons_self⟩
  · exact torn 2 _ _ threeState_ends.2.1 threeState_ends.2.2 (.fail 2) List.mem_cons_self

end CryptoRadar.Alerts
