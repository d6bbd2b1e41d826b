import CryptoRadar.Lib.Machine
import CryptoRadar.Registry.Format
import Mathlib.Logic.Function.Basic

/-!
# Concurrent holdouts

Any number of writers call `begin_holdout` of `adapters/trend_registry_store.py` on one
registry file. A call has six steps that other writers can come between: it reads the
registry and builds the holdout event (`checked`), it reads the file again to keep off the
imported history (`cleared`), it takes the lock file (`holding`), it reads the file under the
lock and builds the next line (`ready`), it appends the line (`closing`), and it removes the
lock file.

The test that a holdout is used only once belongs to the first step and is not repeated under
the lock. `holdouts_single_iff` says exactly when the file nevertheless holds at most one
holdout of each name at every moment of a run: when no holdout of the same name came between
the test of a call and its append. `overlapping_holdouts` is a run in which one did.
-/

set_option autoImplicit false

namespace CryptoRadar.TrendRegistry

open Checked Runs

universe u

variable {Float : Type u}

/-- What `begin_holdout` raises. -/
inductive StoreFailure where
  | registry (failure : RegistryFailure)
  | busy
  | readOnlyHistory
  | changedDuringAppend
  deriving DecidableEq, Repr

/-- The arguments of `begin_holdout`. -/
structure HoldoutCall (Float : Type u) where
  name : PyStr
  source : Bytes
  slippageBps : Float

/-- Where a writer is in its call; `seen` are the bytes its first step read. -/
inductive Phase (Float : Type u) where
  | idle
  | checked (call : HoldoutCall Float) (seen : Bytes) (payload : Dict PyStr (Json Float))
  | cleared (call : HoldoutCall Float) (seen : Bytes) (payload : Dict PyStr (Json Float))
  | holding (call : HoldoutCall Float) (seen : Bytes) (payload : Dict PyStr (Json Float))
  | ready (call : HoldoutCall Float) (seen before line : Bytes)
  | closing

/-- The writer has the lock of the file. -/
def Phase.holdsLock : Phase Float → Bool
  | .holding .. => true
  | .ready .. => true
  | .closing => true
  | _ => false

/-- The file, its lock and where each writer is. -/
structure System (Float : Type u) where
  file : Bytes
  locked : Bool
  phase : Nat → Phase Float

/-- A file that nobody writes yet. -/
def System.initial (file : Bytes) (locked : Bool) : System Float := ⟨file, locked, fun _ => .idle⟩

/-- A writer goes on to a phase. -/
def System.move (system : System Float) (writer : Nat) (phase : Phase Float) : System Float :=
  { system with phase := Function.update system.phase writer phase }

/-- A writer starts a call or goes on with it. -/
inductive Action (Float : Type u) where
  | begin (call : HoldoutCall Float)
  | advance (ts : PyStr)

/-- An action of a writer. -/
structure Step (Float : Type u) where
  writer : Nat
  action : Action Float

/-- What comes of an action. -/
inductive Outcome where
  | went
  | recorded
  | raised (failure : StoreFailure)
  deriving DecidableEq, Repr

variable (codec : Codec Float)

/-- An error of the registry, as the store raises it. -/
def lower {α : Type u} : Except RegistryFailure α → Except StoreFailure α
  | .ok value => .ok value
  | .error failure => .error (.registry failure)

/-- The first step: read and verify the registry, build the payload. -/
def checkHoldout (file : Bytes) (call : HoldoutCall Float) :
    Except StoreFailure (Dict PyStr (Json Float)) := do
  let registry ← lower (parseRegistry codec file)
  lower (holdoutPayload registry call.name (codec.sha256Hex call.source) call.slippageBps)

/-- `_refuse_imported_history`. -/
def isImportedHistory (file : Bytes) : Bool := codec.sha256Hex file = importedRegistrySha256

/-- The read under the lock: the line to append to exactly these bytes. -/
def nextLine (before : Bytes) (ts : PyStr) (payload : Dict PyStr (Json Float)) :
    Except StoreFailure Bytes :=
  if isImportedHistory codec before then .error .readOnlyHistory
  else
    match parseRegistry codec before with
    | .error failure => .error (.registry failure)
    | .ok registry =>
        match encodeEvent codec registry ts payload with
        | .error failure => .error (.registry failure)
        | .ok line =>
            match parseRegistry codec (before ++ line) with
            | .error failure => .error (.registry failure)
            | .ok _ => .ok line

/-- One step of one writer. A writer that is not in a call can only begin one. -/
def System.step (system : System Float) (step : Step Float) : Outcome × System Float :=
  let moved := system.move step.writer
  match system.phase step.writer, step.action with
  | .idle, .begin call =>
      match checkHoldout codec system.file call with
      | .error failure => (.raised failure, system)
      | .ok payload => (.went, moved (.checked call system.file payload))
  | .checked call seen payload, .advance _ =>
      if isImportedHistory codec system.file then (.raised .readOnlyHistory, moved .idle)
      else (.went, moved (.cleared call seen payload))
  | .cleared call seen payload, .advance _ =>
      if system.locked then (.raised .busy, moved .idle)
      else (.went, { moved (.holding call seen payload) with locked := true })
  | .holding call seen payload, .advance ts =>
      match nextLine codec system.file ts payload with
      | .error failure => (.raised failure, moved .closing)
      | .ok line => (.went, moved (.ready call seen system.file line))
  | .ready _ _ before line, .advance _ =>
      if system.file.length ≠ before.length then (.raised .changedDuringAppend, moved .closing)
      else (.recorded, { moved .closing with file := system.file ++ line })
  | .closing, .advance _ => (.went, { moved .idle with locked := false })
  | _, _ => (.went, system)

/-- Any number of writers, in any order. -/
def registryStore : Machine (System Float) (Step Float) Outcome where
  step := System.step codec

/-! ## Holdouts of a file -/

/-- The holdout events of a rule in a file. -/
def holdoutsIn (file : Bytes) (name : PyStr) : Nat :=
  match parseRegistry codec file with
  | .ok registry => registry.events.countP (RegistryEvent.isHoldoutOf name)
  | .error _ => 0

/-- `holdout_used` of the registry a file holds. -/
def usedIn (file : Bytes) (name : PyStr) : Bool :=
  match parseRegistry codec file with
  | .ok registry => registry.holdoutUsed name
  | .error _ => false

/-- The file with the line appended has one more event, the holdout of the name. -/
def AppendsHoldout (file line : Bytes) (name : PyStr) : Prop :=
  ∃ registry after event, parseRegistry codec file = .ok registry ∧
    parseRegistry codec (file ++ line) = .ok after ∧
    after.events = registry.events ++ [event] ∧ event.isHoldoutOf name

variable {codec}

theorem usedIn_eq_false_iff {file : Bytes} {name : PyStr} :
    usedIn codec file name = false ↔ holdoutsIn codec file name = 0 := by
  unfold usedIn holdoutsIn
  cases parseRegistry codec file with
  | error failure => simp
  | ok registry =>
      dsimp only [Registry.holdoutUsed]
      rw [List.countP_eq_zero, List.any_eq_false]

/-- An appended holdout counts for its own name only. -/
theorem AppendsHoldout.count {file line : Bytes} {name : PyStr}
    (appends : AppendsHoldout codec file line name) (other : PyStr) :
    holdoutsIn codec (file ++ line) other =
      holdoutsIn codec file other + if other = name then 1 else 0 := by
  obtain ⟨registry, after, event, parsed, parsedAfter, events, isHoldout⟩ := appends
  have named : event.isHoldoutOf other = decide (other = name) := by
    unfold RegistryEvent.isHoldoutOf at isHoldout ⊢
    rw [Bool.and_eq_true_iff, decide_eq_true_eq, decide_eq_true_eq] at isHoldout
    rw [isHoldout.1, isHoldout.2]
    simp [eq_comm]
  unfold holdoutsIn
  rw [parsed, parsedAfter]
  dsimp only
  rw [events, List.countP_append, List.countP_singleton, named]
  by_cases same : other = name <;> simp [same]

/-! ## Building the line -/

/-- The members of every parsed event were read by the decoder. -/
theorem events_loaded {file : Bytes} {registry : Registry Float}
    (parsed : parseRegistry codec file = .ok registry) :
    ∀ event ∈ registry.events, ∃ text, codec.loads text = .ok (.object event.payload) := by
  unfold parseRegistry at parsed
  split at parsed
  next => cases parsed
  next =>
    refine foldlM_invariant
      (fun progress : Registry Float => ∀ event ∈ progress.events,
        ∃ text, codec.loads text = .ok (.object event.payload))
      ?_ _ (fun _ member => (by cases member)) parsed
    intro progress raw after holds turn event member
    obtain ⟨members, kind, loaded, _, events⟩ := parseLine_eq_ok turn
    rw [events] at member
    rcases List.mem_append.mp member with old | new
    · exact holds event old
    · rw [List.mem_singleton] at new
      subst new
      exact ⟨_, loaded⟩

theorem get?_of_textField {members : Dict PyStr (Json Float)} {key : String} {text : PyStr}
    (named : textField members key = some text) : members.get? (pyStr key) = some (.str text) := by
  unfold textField field at named
  obtain ⟨value, found, isText⟩ := Option.bind_eq_some_iff.mp named
  cases value with
  | str other =>
      cases isText
      exact found
  | _ => cases isText

theorem textField_of_get? {members : Dict PyStr (Json Float)} {key : String} {text : PyStr}
    (found : members.get? (pyStr key) = some (.str text)) : textField members key = some text := by
  unfold textField field
  rw [found]
  rfl

/-- What passes the first step: the name is registered, so the decoder has read it, and its
holdout was not used in the bytes read. -/
structure Passed (codec : Codec Float) (call : HoldoutCall Float) (seen : Bytes)
    (payload : Dict PyStr (Json Float)) : Prop where
  unused : usedIn codec seen call.name = false
  joined : call.name.isJoined
  payload : ∃ registered, payload = [(pyStr "event", .str (pyStr "holdout")),
    (pyStr "name", .str call.name), (pyStr "sha256", .str registered),
    (pyStr "slippage_bps", .float call.slippageBps)]

theorem lower_eq_ok {α : Type u} {result : Except RegistryFailure α} {value : α}
    (equal : lower result = .ok value) : result = .ok value := by
  cases result with
  | ok found => exact congrArg Except.ok (Except.ok.inj equal)
  | error failure => cases equal

theorem checkHoldout_passed (lawful : codec.Lawful) {file : Bytes} {call : HoldoutCall Float}
    {payload : Dict PyStr (Json Float)} (checked : checkHoldout codec file call = .ok payload) :
    Passed codec call file payload := by
  obtain ⟨registry, parsed, built⟩ := bind_eq_ok.mp checked
  have parsed := lower_eq_ok parsed
  have built := lower_eq_ok built
  unfold holdoutPayload verifySource at built
  cases found : registry.registrationFor call.name with
  | none => simp [found] at built
  | some registration =>
      rw [found] at built
      dsimp only at built
      have member := List.mem_of_find?_eq_some found
      have named : textField registration.payload "name" = some call.name := by
        have selected := List.find?_some found
        simp only [Bool.and_eq_true, decide_eq_true_eq] at selected
        exact selected.2
      obtain ⟨text, loaded⟩ := events_loaded parsed registration member
      refine ⟨?_, lawful.joins text _ loaded _ _ (get?_of_textField named), ?_⟩
      · split at built
        next => cases built
        next =>
          split at built
          next => cases built
          next unused =>
            unfold usedIn
            rw [parsed]
            simpa using unused
      · split at built
        next => cases built
        next registered _ =>
          split at built
          next => cases built
          next =>
            cases built
            exact ⟨registered, rfl⟩

/-- The keys of the event a holdout line encodes. -/
theorem encodeEvent_eq_ok {registry : Registry Float} {ts : PyStr}
    {payload : Dict PyStr (Json Float)} {line : Bytes}
    (encoded : encodeEvent codec registry ts payload = .ok line) :
    ∃ text, line = text ++ [10] ∧ codec.dumps (.object
      ([(pyStr "seq", .int registry.events.length), (pyStr "ts", .str ts),
        (pyStr "prev", .str registry.tip)] ++ payload)) = some text := by
  unfold encodeEvent at encoded
  split at encoded
  next => cases encoded
  next =>
    dsimp only at encoded
    split at encoded
    next => cases encoded
    next =>
      split at encoded
      next => cases encoded
      next text dumped =>
        cases encoded
        exact ⟨text, rfl, dumped⟩

/-- The line a call builds under the lock records the holdout of its name. -/
theorem nextLine_appends (lawful : codec.Lawful) {before : Bytes} {ts : PyStr} {line seen : Bytes}
    {call : HoldoutCall Float} {payload : Dict PyStr (Json Float)}
    (passed : Passed codec call seen payload)
    (built : nextLine codec before ts payload = .ok line) :
    AppendsHoldout codec before line call.name := by
  unfold nextLine at built
  split at built
  next => cases built
  next =>
    split at built
    next => cases built
    next registry parsed =>
      split at built
      next => cases built
      next encodedLine encoded =>
        split at built
        next => cases built
        next after parsedAfter =>
          cases built
          obtain ⟨text, rfl, dumped⟩ := encodeEvent_eq_ok encoded
          obtain ⟨registered, rfl⟩ := passed.payload
          obtain ⟨noTerminator, noReturn⟩ := lawful.oneLine _ _ dumped
          obtain ⟨read, loads, reads⟩ := lawful.readsBack _ _ dumped (by
            intro member inside
            simp only [List.cons_append, List.nil_append, List.mem_cons, List.not_mem_nil,
              or_false] at inside
            rcases inside with rfl | rfl | rfl | rfl | rfl | rfl | rfl <;> rfl)
          have lineParsed : parseLine codec registry text = .ok after := by
            rw [← parseRegistry_append parsed noTerminator]
            exact parsedAfter
          obtain ⟨members, kind, loaded, shaped, events⟩ := parseLine_eq_ok lineParsed
          have whole : trimReturn text = text := by
            unfold trimReturn
            rw [if_neg]
            intro last
            exact noReturn (List.mem_of_getLast? last)
          rw [whole, loads] at loaded
          cases loaded
          have isHoldout : textField read "event" = some (pyStr "holdout") :=
            textField_of_get? (reads _ _ (by decide) rfl)
          have isNamed : textField read "name" = some call.name :=
            textField_of_get? (reads _ _ passed.joined rfl)
          have isKind : kind = .holdout := by
            have named := checkShape_kind shaped
            rw [isHoldout] at named
            exact (Option.some.inj named).symm
          refine ⟨registry, after, _, parsed, parsedAfter, events, ?_⟩
          simp [RegistryEvent.isHoldoutOf, isKind, isNamed]

/-! ## The invariant of the system -/

/-- What a writer has checked was so in what it read. -/
def PhaseSound (codec : Codec Float) (file : Bytes) : Phase Float → Prop
  | .checked call seen payload => Passed codec call seen payload
  | .cleared call seen payload => Passed codec call seen payload
  | .holding call seen payload => Passed codec call seen payload
  | .ready call seen before line =>
      usedIn codec seen call.name = false ∧ before = file ∧ AppendsHoldout codec file line call.name
  | .idle => True
  | .closing => True

/-- The lock file is there while a writer is under it, one writer at most is, and every
writer knows what its phase says. -/
structure Sound (codec : Codec Float) (system : System Float) : Prop where
  locked : ∀ writer, (system.phase writer).holdsLock → system.locked
  single : ∀ first second, (system.phase first).holdsLock → (system.phase second).holdsLock →
    first = second
  phases : ∀ writer, PhaseSound codec system.file (system.phase writer)

theorem sound_initial (file : Bytes) (locked : Bool) :
    Sound codec (System.initial file locked) where
  locked _ holds := by cases holds
  single _ _ holds := by cases holds
  phases _ := trivial

/-- A writer that was not ready knows the same after the file has grown. -/
theorem PhaseSound.of_not_lock {file : Bytes} (after : Bytes) {phase : Phase Float}
    (sound : PhaseSound codec file phase) (free : phase.holdsLock = false) :
    PhaseSound codec after phase := by
  cases phase with
  | ready call seen before line => cases free
  | _ => exact sound

section Moves

variable {system : System Float} (sound : Sound codec system) (writer : Nat) {phase : Phase Float}
include sound

/-- A move that takes no lock and writes nothing. -/
theorem Sound.move (knows : PhaseSound codec system.file phase)
    (lock : phase.holdsLock → (system.phase writer).holdsLock) :
    Sound codec (system.move writer phase) := by
  have held : ∀ other, ((system.move writer phase).phase other).holdsLock →
      (system.phase other).holdsLock := by
    intro other holds
    by_cases same : other = writer
    · subst same
      simp only [System.move, Function.update_self] at holds
      exact lock holds
    · simpa [System.move, Function.update_of_ne same] using holds
  refine ⟨fun other holds => sound.locked other (held other holds),
    fun first second holds also => sound.single first second (held first holds) (held second also),
    fun other => ?_⟩
  by_cases same : other = writer
  · subst same
    simpa [System.move] using knows
  · simpa [System.move, Function.update_of_ne same] using sound.phases other

/-- Taking the lock while it is free. -/
theorem Sound.lock (free : system.locked = false) (knows : PhaseSound codec system.file phase) :
    Sound codec { system.move writer phase with locked := true } := by
  have nobody : ∀ other, (system.phase other).holdsLock = false := by
    intro other
    by_contra holds
    rw [Bool.not_eq_false] at holds
    have locked := sound.locked other holds
    rw [free] at locked
    cases locked
  have held : ∀ other, ((system.move writer phase).phase other).holdsLock → other = writer := by
    intro other holds
    by_contra differs
    simp only [System.move, Function.update_of_ne differs, nobody other] at holds
    cases holds
  refine ⟨fun _ _ => rfl, fun first second holds also => ?_, fun other => ?_⟩
  · rw [held first holds, held second also]
  · by_cases same : other = writer
    · subst same
      simpa [System.move] using knows
    · simpa [System.move, Function.update_of_ne same] using sound.phases other

/-- The holder of the lock leaves it, and may have written. -/
theorem Sound.leave (holds : (system.phase writer).holdsLock) (file : Bytes) (locked : Bool)
    (knows : PhaseSound codec file phase)
    (released : locked = true ∨ phase.holdsLock = false) :
    Sound codec { system.move writer phase with file := file, locked := locked } := by
  have others : ∀ other, other ≠ writer → (system.phase other).holdsLock = false := by
    intro other differs
    by_contra also
    rw [Bool.not_eq_false] at also
    exact differs (sound.single other writer also holds)
  have held : ∀ other, ((system.move writer phase).phase other).holdsLock → other = writer := by
    intro other also
    by_contra differs
    simp only [System.move, Function.update_of_ne differs, others other differs] at also
    cases also
  refine ⟨fun other also => ?_, fun first second also again => ?_, fun other => ?_⟩
  · rcases released with isLocked | isFree
    · exact isLocked
    · have same := held other also
      subst same
      simp only [System.move, Function.update_self, isFree] at also
      cases also
  · rw [held first also, held second again]
  · by_cases same : other = writer
    · subst same
      simpa [System.move] using knows
    · have kept := (sound.phases other).of_not_lock file (others other same)
      simpa [System.move, Function.update_of_ne same] using kept

end Moves

/-! ## One step -/

/-- The step appends the line of a call, whose name is given with the bytes it checked. -/
def appending (entry : Entry (System Float) (Step Float) Outcome) : Option (PyStr × Bytes) :=
  match entry.before.phase entry.input.writer, entry.input.action with
  | .ready call seen _ _, .advance _ => some (call.name, seen)
  | _, _ => none

/-- What one step does: it keeps the invariant, and the file changes only when a call appends
the holdout of its name. -/
structure Stepped (codec : Codec Float) (entry : Entry (System Float) (Step Float) Outcome) :
    Prop where
  sound : Sound codec entry.after
  quiet : appending entry = none → entry.after.file = entry.before.file
  appends : ∀ name seen, appending entry = some (name, seen) →
    usedIn codec seen name = false ∧ ∀ other, holdoutsIn codec entry.after.file other =
      holdoutsIn codec entry.before.file other + if other = name then 1 else 0

/-- A step that is no append: the file stays. -/
theorem Stepped.of_quiet {system after : System Float} {step : Step Float} {outcome : Outcome}
    (steps : System.step codec system step = (outcome, after)) (sound : Sound codec after)
    (noAppend : appending ((registryStore codec).entry system step) = none)
    (file : after.file = system.file) : Stepped codec ((registryStore codec).entry system step) := by
  have reached : ((registryStore codec).entry system step).after = after :=
    congrArg Prod.snd steps
  refine ⟨by rwa [reached], fun _ => by rw [reached]; exact file, fun name seen isAppend => ?_⟩
  rw [noAppend] at isAppend
  cases isAppend

/-- A call begins by its checks, and only where the writer is in no other call. -/
theorem stepped_of_begin (lawful : codec.Lawful) {system : System Float}
    (sound : Sound codec system) (writer : Nat) (call : HoldoutCall Float) :
    Stepped codec ((registryStore codec).entry system ⟨writer, .begin call⟩) := by
  have noAppend :
      appending ((registryStore codec).entry system ⟨writer, .begin call⟩) = none := by
    simp only [appending, Machine.entry]
    cases system.phase writer <;> rfl
  cases phase : system.phase writer with
  | idle =>
      cases checked : checkHoldout codec system.file call with
      | error failure =>
          exact .of_quiet (by simp [System.step, phase, checked]; rfl) sound noAppend rfl
      | ok payload =>
          have passed : PhaseSound codec system.file (.checked call system.file payload) :=
            checkHoldout_passed lawful checked
          exact .of_quiet (by simp [System.step, phase, checked]; rfl)
            (sound.move writer passed fun holds => by cases holds) noAppend rfl
  | checked | cleared | holding | ready | closing =>
      exact .of_quiet (by simp [System.step, phase]; rfl) sound noAppend rfl

/-- The call that has its line appends it: the file gains one holdout, of the call's name. -/
theorem stepped_of_append {system : System Float} (sound : Sound codec system) {writer : Nat}
    {call : HoldoutCall Float} {seen before line : Bytes}
    (phase : system.phase writer = .ready call seen before line) (ts : PyStr) :
    Stepped codec ((registryStore codec).entry system ⟨writer, .advance ts⟩) := by
  have knows := sound.phases writer
  rw [phase] at knows
  obtain ⟨unused, rfl, appends⟩ := knows
  have holds : (system.phase writer).holdsLock := by
    rw [phase]
    rfl
  have closing : PhaseSound codec (system.file ++ line) .closing := trivial
  have left := sound.leave writer holds (system.file ++ line) system.locked closing
    (.inl (sound.locked writer holds))
  have reached : (registryStore codec).next system ⟨writer, .advance ts⟩ =
      { system.move writer .closing with file := system.file ++ line } := by
    simp [Machine.next, registryStore, System.step, phase]
  refine ⟨?_, by simp [appending, Machine.entry, phase], ?_⟩
  · simp only [Machine.entry, reached]
    exact left
  · intro name seenBytes isAppend
    have fields : call.name = name ∧ seen = seenBytes := by
      simpa [appending, Machine.entry, phase] using isAppend
    obtain ⟨rfl, rfl⟩ := fields
    refine ⟨unused, fun other => ?_⟩
    simp only [Machine.entry, reached]
    exact appends.count other

/-- A call that has no line yet, or has left its line in the file, goes on without an append. -/
theorem stepped_of_advance (lawful : codec.Lawful) {system : System Float}
    (sound : Sound codec system) (writer : Nat) (ts : PyStr)
    (noAppend : appending ((registryStore codec).entry system ⟨writer, .advance ts⟩) = none) :
    Stepped codec ((registryStore codec).entry system ⟨writer, .advance ts⟩) := by
  have knows := sound.phases writer
  have idle : PhaseSound codec system.file .idle := trivial
  cases phase : system.phase writer with
  | idle => exact .of_quiet (by simp [System.step, phase]; rfl) sound noAppend rfl
  | checked call seen payload =>
      rw [phase] at knows
      cases imported : isImportedHistory codec system.file with
      | true =>
          exact .of_quiet (by simp [System.step, phase, imported]; rfl)
            (sound.move writer idle fun holds => by cases holds) noAppend rfl
      | false =>
          have cleared : PhaseSound codec system.file (.cleared call seen payload) := knows
          exact .of_quiet (by simp [System.step, phase, imported]; rfl)
            (sound.move writer cleared fun holds => by cases holds) noAppend rfl
  | cleared call seen payload =>
      rw [phase] at knows
      cases locked : system.locked with
      | true =>
          exact .of_quiet (by simp [System.step, phase, locked]; rfl)
            (sound.move writer idle fun holds => by cases holds) noAppend rfl
      | false =>
          have holding : PhaseSound codec system.file (.holding call seen payload) := knows
          exact .of_quiet (by simp [System.step, phase, locked]; rfl)
            (sound.lock writer locked holding) noAppend rfl
  | holding call seen payload =>
      rw [phase] at knows
      have holds : (system.phase writer).holdsLock := by
        rw [phase]
        rfl
      cases built : nextLine codec system.file ts payload with
      | error failure =>
          have closing : PhaseSound codec system.file .closing := trivial
          exact .of_quiet (by simp [System.step, phase, built]; rfl)
            (sound.move writer closing fun _ => holds) noAppend rfl
      | ok line =>
          have ready : PhaseSound codec system.file (.ready call seen system.file line) :=
            ⟨knows.unused, rfl, nextLine_appends lawful knows built⟩
          exact .of_quiet (by simp [System.step, phase, built]; rfl)
            (sound.move writer ready fun _ => holds) noAppend rfl
  | ready call seen before line =>
      simp [appending, Machine.entry, phase] at noAppend
  | closing =>
      have holds : (system.phase writer).holdsLock := by
        rw [phase]
        rfl
      have left := sound.leave writer holds system.file false idle (.inr rfl)
      have reached : System.step codec system ⟨writer, .advance ts⟩ =
          (.went, { system.move writer .idle with locked := false }) := by
        simp [System.step, phase]
      exact .of_quiet reached left noAppend rfl

/-- **One step of the registry store.** -/
theorem entry_stepped (lawful : codec.Lawful) {system : System Float} (sound : Sound codec system)
    (step : Step Float) : Stepped codec ((registryStore codec).entry system step) := by
  obtain ⟨writer, action⟩ := step
  cases action with
  | begin call => exact stepped_of_begin lawful sound writer call
  | advance ts =>
      cases phase : system.phase writer with
      | ready call seen before line => exact stepped_of_append sound phase ts
      | idle | checked | cleared | holding | closing =>
          apply stepped_of_advance lawful sound writer ts
          simp [appending, Machine.entry, phase]

/-! ## Whole runs -/

/-- At most one holdout of each name. -/
def SingleHoldouts (codec : Codec Float) (file : Bytes) : Prop :=
  ∀ name, holdoutsIn codec file name ≤ 1

/-- If the step appends the line of a call, `holdout_used` of its name is as it was in the
bytes the call checked: no other call has recorded that holdout in between. -/
def Undisturbed (codec : Codec Float) (entry : Entry (System Float) (Step Float) Outcome) : Prop :=
  ∀ name seen, appending entry = some (name, seen) →
    usedIn codec entry.before.file name = usedIn codec seen name

/-- One step keeps single holdouts exactly when it is undisturbed. -/
theorem Stepped.single_iff {entry : Entry (System Float) (Step Float) Outcome}
    (stepped : Stepped codec entry) (single : SingleHoldouts codec entry.before.file) :
    SingleHoldouts codec entry.after.file ↔ Undisturbed codec entry := by
  cases isAppend : appending entry with
  | none =>
      rw [stepped.quiet isAppend]
      refine ⟨fun _ name seen isSome => ?_, fun _ => single⟩
      rw [isAppend] at isSome
      cases isSome
  | some pair =>
      obtain ⟨name, seen⟩ := pair
      obtain ⟨unused, counts⟩ := stepped.appends name seen isAppend
      constructor
      · intro singleAfter otherName otherSeen isSome
        rw [isAppend] at isSome
        cases isSome
        rw [unused, usedIn_eq_false_iff]
        have atMostOne := singleAfter name
        rw [counts name, if_pos rfl] at atMostOne
        omega
      · intro undisturbed other
        have stillUnused := undisturbed name seen isAppend
        rw [unused, usedIn_eq_false_iff] at stillUnused
        have before := single other
        rw [counts other]
        split
        next same =>
          subst same
          omega
        next => exact before

/-- From a sound system with single holdouts, every state of a run has single holdouts exactly
when every step is undisturbed. -/
theorem run_single_iff (lawful : codec.Lawful) :
    ∀ (steps : List (Step Float)) {system : System Float}, Sound codec system →
      SingleHoldouts codec system.file →
      ((∀ earlier later, steps = earlier ++ later →
          SingleHoldouts codec ((registryStore codec).run system earlier).file) ↔
        ∀ entry ∈ (registryStore codec).trace system steps, Undisturbed codec entry)
  | [], system, _, single => by
      constructor
      · intro _ entry member
        cases member
      · intro _ earlier later split
        obtain ⟨rfl, _⟩ := List.append_eq_nil_iff.mp split.symm
        exact single
  | step :: rest, system, sound, single => by
      have stepped := entry_stepped lawful sound step
      have stepIff := stepped.single_iff single
      constructor
      · intro always entry member
        have after : SingleHoldouts codec ((registryStore codec).next system step).file :=
          always [step] rest rfl
        rcases List.mem_cons.mp member with rfl | later
        · exact stepIff.mp after
        · refine (run_single_iff lawful rest stepped.sound after).mp ?_ entry later
          intro earlier remaining split
          have reached := always (step :: earlier) remaining (by rw [split]; rfl)
          exact reached
      · intro undisturbed earlier later split
        have after : SingleHoldouts codec ((registryStore codec).next system step).file :=
          stepIff.mpr (undisturbed _ List.mem_cons_self)
        cases earlier with
        | nil => exact single
        | cons first more =>
            have sameStep : first = step ∧ rest = more ++ later := by
              rw [List.cons_append, List.cons.injEq] at split
              exact ⟨split.1.symm, split.2⟩
            obtain ⟨rfl, sameRest⟩ := sameStep
            exact (run_single_iff lawful rest stepped.sound after).mpr
              (fun entry member => undisturbed entry (List.mem_cons_of_mem _ member)) more later
              sameRest

/-- **When holdouts stay single.** From a registry file with at most one holdout of each name,
in every interleaving of calls, the file has at most one holdout of each name at every moment
exactly when no holdout of the same name came between the check of a call and its append. -/
theorem holdouts_single_iff (codec : Codec Float) (lawful : codec.Lawful) (file : Bytes)
    (locked : Bool) (single : SingleHoldouts codec file) (steps : List (Step Float)) :
    (∀ earlier later, steps = earlier ++ later → SingleHoldouts codec
        ((registryStore codec).run (System.initial file locked) earlier).file) ↔
      ∀ entry ∈ (registryStore codec).trace (System.initial file locked) steps,
        Undisturbed codec entry :=
  run_single_iff lawful steps (sound_initial file locked) single

/-! ## A run with two holdouts of one name -/

/-- The sha256 of the source `x`. -/
def sourcePieces : List String :=
  ["2d711642b726b044", "01627ca9fbac32f5", "c8530fb1903cc4db", "02258717921a4881"]

/-- The sha256 of the line that registers the name `r`. -/
def registerPieces : List String :=
  ["01cbef59c4e35f12", "c1ed71f39894ae56", "60e2b850e5dcebab", "7e77e768234ccdf2"]

/-- The sha256 of the line of the first holdout. -/
def firstPieces : List String :=
  ["3d925e4ee950c031", "9e8b5dc7b58ea4c2", "ef2e6315c83e5edb", "8ccc03afa151e960"]

/-- A registry that registers one rule. -/
def registerLine : Bytes := bytesOf (
  ["\x7b\"event\": \"register\"", ", \"name\": \"r\"", ", \"prev\": \"genesis\"", ", \"seq\": 0",
    ", \"sha256\": \""] ++ sourcePieces ++ ["\", \"ts\": \"", "2026-01-01T00:00:00+00:00", "\"\x7d"])

/-- The line of a holdout of `r` at a position after a line with the given digest. -/
def holdoutLine (seq : String) (prev : List String) : Bytes := bytesOf (
  ["\x7b\"event\": \"holdout\"", ", \"name\": \"r\"", ", \"prev\": \""] ++ prev ++
    ["\", \"seq\": ", seq, ", \"sha256\": \""] ++ sourcePieces ++
    ["\", \"slippage_bps\": 5.0", ", \"ts\": \"", "2026-01-02T00:00:00+00:00", "\"\x7d"])

/-- The holdout line that continues it. -/
def firstLine : Bytes := holdoutLine "1" registerPieces

/-- The holdout line after that one. -/
def secondLine : Bytes := holdoutLine "2" firstPieces

/-- The event of `registerLine`. -/
def registerMembers : Dict PyStr (Json ℕ) :=
  [(pyStr "event", .str (pyStr "register")), (pyStr "name", .str (pyStr "r")),
    (pyStr "prev", .str genesis), (pyStr "seq", .int 0), (pyStr "sha256", .str (textOf sourcePieces)),
    (pyStr "ts", .str (pyStr "2026-01-01T00:00:00+00:00"))]

/-- When the holdouts begin. -/
def holdoutTime : PyStr := pyStr "2026-01-02T00:00:00+00:00"

/-- The members of a holdout line as the decoder reads them, in the order of the text. -/
def holdoutMembers (seq : Int) (prev : PyStr) : Dict PyStr (Json ℕ) :=
  [(pyStr "event", .str (pyStr "holdout")), (pyStr "name", .str (pyStr "r")),
    (pyStr "prev", .str prev), (pyStr "seq", .int seq), (pyStr "sha256", .str (textOf sourcePieces)),
    (pyStr "slippage_bps", .float 5), (pyStr "ts", .str holdoutTime)]

/-- The members are those of a holdout event as `encode_event` orders them. -/
def isHoldoutEvent (seq : Int) (prev : PyStr) : Dict PyStr (Json ℕ) → Bool
  | [(seqKey, .int number), (tsKey, .str ts), (prevKey, .str before), (eventKey, .str event),
      (nameKey, .str name), (shaKey, .str sha), (slippageKey, .float slippage)] =>
      seqKey = pyStr "seq" ∧ number = seq ∧ tsKey = pyStr "ts" ∧ ts = holdoutTime ∧
        prevKey = pyStr "prev" ∧ before = prev ∧ eventKey = pyStr "event" ∧
        event = pyStr "holdout" ∧ nameKey = pyStr "name" ∧ name = pyStr "r" ∧
        shaKey = pyStr "sha256" ∧ sha = textOf sourcePieces ∧ slippageKey = pyStr "slippage_bps" ∧
        slippage = 5
  | _ => false

/-- `json` and `sha256` on the lines and files of the run; other inputs do not occur in it. -/
def threeLineCodec : Codec ℕ where
  loads text :=
    if text = registerLine then .ok (.object registerMembers)
    else if text = firstLine then .ok (.object (holdoutMembers 1 (textOf registerPieces)))
    else if text = secondLine then .ok (.object (holdoutMembers 2 (textOf firstPieces)))
    else .error .notJson
  dumps
    | .object members =>
        if isHoldoutEvent 1 (textOf registerPieces) members then some firstLine
        else if isHoldoutEvent 2 (textOf firstPieces) members then some secondLine
        else none
    | _ => none
  sha256Hex data :=
    if data = bytesOf ["x"] then textOf sourcePieces
    else if data = registerLine then textOf registerPieces
    else if data = firstLine then textOf firstPieces
    else if data = secondLine then
      textOf ["a5d3478a5f91897c", "004f9aa371256740", "0ef1a2d84c164fb2", "efb1d2ad1c87555b"]
    else if data = registerLine ++ [10] then
      textOf ["5447124ccf331785", "78c6ea32afd01a56", "3c0c3e9dbb0d2392", "bfa2f42f91c9362c"]
    else textOf ["1d564a324ce287ef", "8aceccbae222eb0a", "79789a8ee444ce51", "d595b24eb16ecfc1"]
  floatEquals float number := (float : Int) = number

/-- A holdout call of the rule `r`. -/
def holdoutOfR : HoldoutCall ℕ := ⟨pyStr "r", bytesOf ["x"], 5⟩

/-- Two calls for the name `r`, both past their check before either appends. -/
def overlappingCalls : List (Step ℕ) :=
  [⟨0, .begin holdoutOfR⟩, ⟨1, .begin holdoutOfR⟩] ++
    List.replicate 5 ⟨0, .advance holdoutTime⟩ ++ List.replicate 5 ⟨1, .advance holdoutTime⟩

theorem eq_of_isHoldoutEvent {seq : Int} {prev : PyStr} {members : Dict PyStr (Json ℕ)}
    (isEvent : isHoldoutEvent seq prev members = true) :
    members = [(pyStr "seq", .int seq), (pyStr "ts", .str holdoutTime), (pyStr "prev", .str prev),
      (pyStr "event", .str (pyStr "holdout")), (pyStr "name", .str (pyStr "r")),
      (pyStr "sha256", .str (textOf sourcePieces)), (pyStr "slippage_bps", .float 5)] := by
  unfold isHoldoutEvent at isEvent
  split at isEvent
  next =>
    rw [decide_eq_true_eq] at isEvent
    obtain ⟨rfl, rfl, rfl, rfl, rfl, rfl, rfl, rfl, rfl, rfl, rfl, rfl, rfl, rfl⟩ := isEvent
    rfl
  next => cases isEvent

/-- The decoder gives a holdout event back under its own keys. -/
theorem get?_holdoutMembers {seq : Int} {prev key value : PyStr} {members : Dict PyStr (Json ℕ)}
    (isEvent : isHoldoutEvent seq prev members = true)
    (found : Dict.get? members key = some (.str value)) :
    Dict.get? (holdoutMembers seq prev) key = some (.str value) := by
  have member := Dict.mem_of_get?_eq_some found
  rw [eq_of_isHoldoutEvent isEvent] at member
  simp only [List.mem_cons, Prod.mk.injEq, Json.str.injEq, List.not_mem_nil, or_false,
    reduceCtorEq, and_false, false_or] at member
  rcases member with ⟨rfl, rfl⟩ | ⟨rfl, rfl⟩ | ⟨rfl, rfl⟩ | ⟨rfl, rfl⟩ | ⟨rfl, rfl⟩ <;> rfl

/-- The three texts are different lines, and hold joined strings only. -/
theorem threeLines_apart :
    (firstLine ≠ registerLine ∧ secondLine ≠ registerLine ∧ secondLine ≠ firstLine) ∧
    (∀ line ∈ [registerLine, firstLine, secondLine], 10 ∉ line ∧ 13 ∉ line) ∧
    ∀ read ∈ [registerMembers, holdoutMembers 1 (textOf registerPieces),
      holdoutMembers 2 (textOf firstPieces)],
      ∀ item ∈ read, ∀ text ∈ item.2.str?, text.isJoined := by
  decide +kernel

theorem threeLineCodec_dumps {members : Dict PyStr (Json ℕ)} {text : Bytes}
    (dumped : threeLineCodec.dumps (.object members) = some text) :
    (isHoldoutEvent 1 (textOf registerPieces) members = true ∧ text = firstLine) ∨
      (isHoldoutEvent 2 (textOf firstPieces) members = true ∧ text = secondLine) := by
  unfold threeLineCodec at dumped
  dsimp only at dumped
  split at dumped
  next isFirst => exact .inl ⟨isFirst, (Option.some.inj dumped).symm⟩
  next =>
    split at dumped
    next isSecond => exact .inr ⟨isSecond, (Option.some.inj dumped).symm⟩
    next => cases dumped

theorem threeLineCodec_loads {text : Bytes} {read : Dict PyStr (Json ℕ)}
    (loaded : threeLineCodec.loads text = .ok (.object read)) :
    read = registerMembers ∨ read = holdoutMembers 1 (textOf registerPieces) ∨
      read = holdoutMembers 2 (textOf firstPieces) := by
  unfold threeLineCodec at loaded
  dsimp only at loaded
  split at loaded
  next =>
    cases loaded
    exact .inl rfl
  next =>
    split at loaded
    next =>
      cases loaded
      exact .inr (.inl rfl)
    next =>
      split at loaded
      next =>
        cases loaded
        exact .inr (.inr rfl)
      next => cases loaded

/-- The members of a line hold joined strings only. -/
theorem joined_of_mem {read : Dict PyStr (Json ℕ)}
    (all : ∀ item ∈ read, ∀ text ∈ item.2.str?, text.isJoined) {key value : PyStr}
    (found : Dict.get? read key = some (.str value)) : value.isJoined :=
  all _ (Dict.mem_of_get?_eq_some found) value rfl

theorem threeLineCodec_lawful : threeLineCodec.Lawful where
  oneLine value text dumped := by
    cases value with
    | object members =>
        rcases threeLineCodec_dumps dumped with ⟨_, rfl⟩ | ⟨_, rfl⟩
        · exact threeLines_apart.2.1 firstLine (by simp)
        · exact threeLines_apart.2.1 secondLine (by simp)
    | _ => cases dumped
  readsBack members text dumped _ := by
    rcases threeLineCodec_dumps dumped with ⟨isEvent, rfl⟩ | ⟨isEvent, rfl⟩
    · refine ⟨holdoutMembers 1 (textOf registerPieces), ?_, fun key value _ found =>
        get?_holdoutMembers isEvent found⟩
      unfold threeLineCodec
      dsimp only
      rw [if_neg threeLines_apart.1.1, if_pos rfl]
    · refine ⟨holdoutMembers 2 (textOf firstPieces), ?_, fun key value _ found =>
        get?_holdoutMembers isEvent found⟩
      unfold threeLineCodec
      dsimp only
      rw [if_neg threeLines_apart.1.2.1, if_neg threeLines_apart.1.2.2, if_pos rfl]
  joins text read loaded key value found := by
    rcases threeLineCodec_loads loaded with rfl | rfl | rfl
    · exact joined_of_mem (threeLines_apart.2.2 _ (by simp)) found
    · exact joined_of_mem (threeLines_apart.2.2 _ (by simp)) found
    · exact joined_of_mem (threeLines_apart.2.2 _ (by simp)) found

theorem registerLine_single : SingleHoldouts threeLineCodec (registerLine ++ [10]) := by
  have empty : parseRegistry threeLineCodec [] = .ok ⟨[], genesis⟩ := rfl
  have whole : parseRegistry threeLineCodec (registerLine ++ [10]) =
      parseLine threeLineCodec ⟨[], genesis⟩ registerLine := by
    have oneLine : 10 ∉ registerLine := (threeLines_apart.2.1 registerLine (by simp)).1
    have appended := parseRegistry_append empty oneLine
    rwa [List.nil_append] at appended
  intro name
  unfold holdoutsIn
  rw [whole]
  split
  next registry parsed =>
    obtain ⟨members, kind, loaded, shaped, events⟩ := parseLine_eq_ok parsed
    have trimmed : trimReturn registerLine = registerLine := by decide +kernel
    have isMembers : members = registerMembers := by
      rw [trimmed] at loaded
      unfold threeLineCodec at loaded
      dsimp only at loaded
      rw [if_pos rfl] at loaded
      cases loaded
      rfl
    have isKind : kind = .register := by
      have named := checkShape_kind shaped
      rw [isMembers, show (textField registerMembers "event").bind EventKind.ofText =
        some .register by decide +kernel] at named
      exact (Option.some.inj named).symm
    rw [events, isKind]
    exact List.countP_le_length
  next => exact Nat.zero_le 1

theorem overlappingCalls_file : holdoutsIn threeLineCodec ((registryStore threeLineCodec).run
    (System.initial (registerLine ++ [10]) false) overlappingCalls).file (pyStr "r") = 2 := by
  decide +kernel

/-- **Two holdouts of one name**: the calls overlap, and both are recorded. -/
theorem overlapping_holdouts :
    threeLineCodec.Lawful ∧ SingleHoldouts threeLineCodec (registerLine ++ [10]) ∧
      ¬ SingleHoldouts threeLineCodec ((registryStore threeLineCodec).run
        (System.initial (registerLine ++ [10]) false) overlappingCalls).file := by
  refine ⟨threeLineCodec_lawful, registerLine_single, fun single => ?_⟩
  have twice : holdoutsIn threeLineCodec ((registryStore threeLineCodec).run
      (System.initial (registerLine ++ [10]) false) overlappingCalls).file (pyStr "r") = 2 :=
    overlappingCalls_file
  have atMostOne := single (pyStr "r")
  rw [twice] at atMostOne
  exact absurd atMostOne (by decide)

/-- Two calls for the name `r` in a row: the second finds the holdout of the first. -/
def callsInARow : List (Step ℕ) :=
  ⟨0, .begin holdoutOfR⟩ :: List.replicate 5 ⟨0, .advance holdoutTime⟩ ++
    ⟨1, .begin holdoutOfR⟩ :: List.replicate 5 ⟨1, .advance holdoutTime⟩

theorem callsInARow_checked : ((registryStore threeLineCodec).trace
    (System.initial (registerLine ++ [10]) false) callsInARow).all (fun entry =>
      (appending entry).all fun pair => usedIn threeLineCodec entry.before.file pair.1 =
        usedIn threeLineCodec pair.2 pair.1) = true := by
  decide +kernel

theorem callsInARow_undisturbed : ∀ entry ∈ (registryStore threeLineCodec).trace
    (System.initial (registerLine ++ [10]) false) callsInARow,
      Undisturbed threeLineCodec entry := by
  intro entry member name seen isAppend
  have checked := List.all_eq_true.mp callsInARow_checked entry member
  rw [isAppend] at checked
  exact of_decide_eq_true checked

theorem callsInARow_file : holdoutsIn threeLineCodec ((registryStore threeLineCodec).run
    (System.initial (registerLine ++ [10]) false) callsInARow).file (pyStr "r") = 1 := by
  decide +kernel

/-- Calls in a row meet the condition: the first records its holdout, and at no moment does the file
have two. -/
theorem holdouts_single_iff_in_a_row :
    holdoutsIn threeLineCodec ((registryStore threeLineCodec).run
      (System.initial (registerLine ++ [10]) false) callsInARow).file (pyStr "r") = 1 ∧
    ∀ earlier later, callsInARow = earlier ++ later →
      SingleHoldouts threeLineCodec ((registryStore threeLineCodec).run
        (System.initial (registerLine ++ [10]) false) earlier).file :=
  ⟨callsInARow_file, (holdouts_single_iff threeLineCodec threeLineCodec_lawful _ false
    registerLine_single callsInARow).mpr callsInARow_undisturbed⟩

end CryptoRadar.TrendRegistry
