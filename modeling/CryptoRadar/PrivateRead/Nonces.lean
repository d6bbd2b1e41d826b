import CryptoRadar.Lib.CalendarText
import CryptoRadar.PrivateRead.Reader

/-!
# Nonces are never reused, and a locked reader is silent

What a step can do is said once (`Effect`). A call that is past the lock of the requests owns it, so
that one call at a time reads and replaces the file (`Held`). Hence a value that is written is above
what the file held, and every nonce that was posted is at most what the file holds (`Covered`). A call
that was refused, found the reader locked or could not reserve has ended before it posted
(`Answered`); and a reader that judged a reply an authentication error stays locked (`Stopped`).
-/

set_option autoImplicit false

namespace CryptoRadar.PrivateRead

open Checked Runs

/-! ## The file -/

theorem toNat_ofNat_of_isDigit {code : ℕ} (digit : JsonText.isDigit code = true) :
    (UInt8.ofNat code).toNat = code := by
  unfold JsonText.isDigit at digit
  simp only [Bool.and_eq_true, decide_eq_true_eq] at digit
  rw [UInt8.toNat_ofNat']
  omega

/-- What is written is read back. -/
theorem lastOf_fileText {value : ℕ} (small : value ≤ maxNonce) :
    lastOf (some (fileText value)) = .ok (some value) := by
  have codes : (fileText value).map UInt8.toNat = JsonText.decimal value ++ [10] := by
    have same : (JsonText.decimal value).map (UInt8.toNat ∘ UInt8.ofNat) =
        JsonText.decimal value := by
      conv_rhs => rw [← List.map_id (JsonText.decimal value)]
      exact List.map_congr_left fun code member =>
        toNat_ofNat_of_isDigit (JsonText.isDigit_of_mem_decimal value code member)
    rw [fileText, List.map_map, List.map_append, same]
    rfl
  have digits : withoutLineEnd ((fileText value).map UInt8.toNat) = JsonText.decimal value := by
    rw [codes, withoutLineEnd, List.getLast?_concat, if_pos rfl, List.dropLast_concat]
  have some_digit : 1 ≤ (JsonText.decimal value).length :=
    List.length_pos_iff.mpr (JsonText.decimal_ne_nil value)
  have few_digits : (JsonText.decimal value).length ≤ 19 := by
    refine Date.length_decimal_le (by decide) (small.trans_lt ?_)
    decide
  have all_digits : (JsonText.decimal value).all JsonText.isDigit = true :=
    List.all_eq_true.mpr (JsonText.isDigit_of_mem_decimal value)
  simp only [lastOf]
  rw [digits, ensure_of ⟨some_digit, few_digits, all_digits⟩, JsonText.naturalOf_decimal,
    ensure_of small]
  rfl

/-! ## Effects -/

/-- Past the lock of the requests. -/
def Stage.Holds : Stage → Prop
  | .waiting | .ended => False
  | _ => True

/-- A step of a reservation that leaves the file as it is. -/
inductive Moves (file : Option Bytes) : Stage → Stage → Prop
  | reads {last : Option ℕ} (isLast : lastOf file = .ok last) : Moves file .reading (.stamping last)
  | stamps {last : Option ℕ} (now : Moment) (small : nextNonce last now ≤ maxNonce) :
      Moves file (.stamping last) (.writing (nextNonce last now))
  | writes (value : ℕ) : Moves file (.writing value) (.replacing value)

/-- What one step does. -/
inductive Effect (decoder : Decoder) (world : World) : Input → Event → World → Prop
  | nothing (input : Input) : Effect decoder world input .quiet world
  | opens (noReader : world.reader = none) : Effect decoder world .opens .quiet
      { world with reader := some ⟨none, none⟩, opened := world.opened + 1 }
  | crashes : Effect decoder world .crash .quiet { world with reader := none, calls := fun _ => none }
  | refuses (endpoint : EndpointName) (parameters : Parameters) (failure : ReadFailure) :
      Effect decoder world (.call endpoint parameters) (.refused world.issued failure)
        { world with issued := world.issued + 1 }
  | starts (endpoint : EndpointName) (parameters : Parameters) (call : Call) :
      Effect decoder world (.call endpoint parameters) .quiet
        { world.stands world.issued call .waiting with issued := world.issued + 1 }
  | turnedAway {id : ℕ} (turn : Turn) {call : Call} (stands : world.calls id = some (call, .waiting))
      (failure : ReadFailure) :
      Effect decoder world (.advance id turn) (.locked id failure) (world.stands id call .ended)
  | takes {id : ℕ} (turn : Turn) {call : Call} (stands : world.calls id = some (call, .waiting))
      {reader : Reader} (isReader : world.reader = some reader) (free : reader.owner = none)
      (unlocked : reader.lockedBy = none) :
      Effect decoder world (.advance id turn) .quiet
        { world.stands id call .reading with reader := some { reader with owner := some id } }
  | fails {id : ℕ} (turn : Turn) {call : Call} {stage : Stage}
      (stands : world.calls id = some (call, stage)) (holds : stage.Holds)
      (unposted : ∀ value, stage ≠ .posted value) {reader : Reader}
      (isReader : world.reader = some reader) (failure : ReadFailure) :
      Effect decoder world (.advance id turn) (.unavailable id failure)
        (world.release reader reader.lockedBy id call)
  | moves {id : ℕ} (turn : Turn) {call : Call} {stage next : Stage}
      (stands : world.calls id = some (call, stage)) (moves : Moves world.file stage next) :
      Effect decoder world (.advance id turn) .quiet (world.stands id call next)
  | replaces {id : ℕ} (turn : Turn) {call : Call} {value : ℕ}
      (stands : world.calls id = some (call, .replacing value)) :
      Effect decoder world (.advance id turn) .quiet
        { world.stands id call (.reserved value) with file := some (fileText value) }
  | posts {id : ℕ} (turn : Turn) {call : Call} {value : ℕ}
      (stands : world.calls id = some (call, .reserved value)) :
      Effect decoder world (.advance id turn) (.posted id (requestOf call value))
        (world.stands id call (.posted value))
  | judges {id : ℕ} (outcome : Transported) {call : Call} {value : ℕ}
      (stands : world.calls id = some (call, .posted value)) {reader : Reader}
      (isReader : world.reader = some reader) :
      Effect decoder world (.advance id (.transported outcome))
        (.judged id (resultOf decoder call.endpoint outcome))
        (world.release reader
          ((lockingCode (resultOf decoder call.endpoint outcome)).or reader.lockedBy) id call)

variable {decoder : Decoder}

theorem World.start_effect (world : World) (endpoint : EndpointName) (parameters : Parameters) :
    Effect decoder world (.call endpoint parameters) (world.start endpoint parameters).1
      (world.start endpoint parameters).2 := by
  unfold World.start
  simp only
  split
  next failure _ => exact .refuses endpoint parameters failure
  next call _ => exact .starts endpoint parameters call

theorem World.advance_effect {world : World} {reader : Reader} (isReader : world.reader = some reader)
    {id : ℕ} {call : Call} {stage : Stage} (stands : world.calls id = some (call, stage))
    (turn : Turn) :
    Effect decoder world (.advance id turn) (world.advance decoder reader id call stage turn).1
      (world.advance decoder reader id call stage turn).2 := by
  unfold World.advance
  split
  next =>
    split
    next => exact .nothing _
    next code _ _ => exact .turnedAway _ stands _
    next free unlocked => exact .takes _ stands isReader free unlocked
  next => exact .fails _ stands trivial nofun isReader _
  next =>
    split
    next reason _ => exact .fails _ stands trivial nofun isReader _
    next last isLast => exact .moves _ stands (.reads isLast)
  next => exact .fails _ stands trivial nofun isReader _
  next last now =>
    split
    next => exact .fails _ stands trivial nofun isReader _
    next small => exact .moves _ stands (.stamps now (not_lt.mp small))
  next => exact .fails _ stands trivial nofun isReader _
  next value => exact .moves _ stands (.writes value)
  next => exact .fails _ stands trivial nofun isReader _
  next value => exact .replaces _ stands
  next value => exact .posts _ stands
  next value outcome => exact .judges outcome stands isReader
  next => exact .nothing _

theorem machine_effect (world : World) (input : Input) :
    Effect decoder world input ((machine decoder).step world input).1
      ((machine decoder).next world input) := by
  unfold Machine.next
  cases input with
  | opens =>
      cases isReader : world.reader with
      | some reader =>
          simp only [machine, isReader]
          exact .nothing _
      | none =>
          simp only [machine, isReader]
          exact .opens isReader
  | crash => exact .crashes
  | call endpoint parameters =>
      cases isReader : world.reader with
      | some reader =>
          simp only [machine, isReader]
          exact world.start_effect endpoint parameters
      | none =>
          simp only [machine, isReader]
          exact .nothing _
  | advance id turn =>
      cases isReader : world.reader with
      | some reader =>
          cases stands : world.calls id with
          | some life =>
              simp only [machine, isReader, stands]
              exact World.advance_effect isReader stands turn
          | none =>
              simp only [machine, isReader, stands]
              exact .nothing _
      | none =>
          simp only [machine, isReader]
          exact .nothing _

/-! ## The lock -/

/-- A call that is past the lock of the requests owns it, and the reader is not locked. -/
def Held (world : World) : Prop :=
  ∀ id call stage, world.calls id = some (call, stage) → stage.Holds →
    ∃ reader, world.reader = some reader ∧ reader.owner = some id ∧ reader.lockedBy = none

/-- The stage of one call is changed. -/
theorem World.stands_calls {world : World} {id : ℕ} {call : Call} {stage : Stage} {other : ℕ}
    {otherCall : Call} {otherStage : Stage}
    (stands : (world.stands id call stage).calls other = some (otherCall, otherStage)) :
    (other = id ∧ otherCall = call ∧ otherStage = stage) ∨
      (other ≠ id ∧ world.calls other = some (otherCall, otherStage)) := by
  by_cases same : other = id
  · subst same
    have isNew : some (call, stage) = some (otherCall, otherStage) := by
      simpa [World.stands] using stands
    cases isNew
    exact .inl ⟨rfl, rfl, rfl⟩
  · refine .inr ⟨same, ?_⟩
    rw [← stands]
    exact (Function.update_of_ne same _ _).symm

/-- Two calls do not hold the lock. -/
theorem Held.alone {world : World} (held : Held world) {id other : ℕ} {call otherCall : Call}
    {stage otherStage : Stage} (stands : world.calls id = some (call, stage))
    (holds : stage.Holds) (others : world.calls other = some (otherCall, otherStage))
    (otherHolds : otherStage.Holds) : other = id := by
  obtain ⟨reader, isReader, isOwner, -⟩ := held id call stage stands holds
  obtain ⟨again, isAgain, isOther, -⟩ := held other otherCall otherStage others otherHolds
  cases isReader.symm.trans isAgain
  exact Option.some.inj (isOther.symm.trans isOwner)

theorem Moves.holds {file : Option Bytes} {stage next : Stage} (moves : Moves file stage next) :
    stage.Holds ∧ next.Holds := by
  cases moves <;> exact ⟨trivial, trivial⟩

/-- The owner goes on. -/
theorem Held.goes_on {world : World} (held : Held world) {id : ℕ} {call : Call} {stage next : Stage}
    (stands : world.calls id = some (call, stage)) (holds : stage.Holds)
    {file : Option Bytes} : Held { world.stands id call next with file := file } := by
  intro other otherCall otherStage others otherHolds
  rcases World.stands_calls others with ⟨rfl, rfl, rfl⟩ | ⟨-, before⟩
  · exact held other otherCall stage stands holds
  · exact held other otherCall otherStage before otherHolds

/-- The owner ends. -/
theorem Held.released {world : World} (held : Held world) {id : ℕ} {call : Call} {stage : Stage}
    (stands : world.calls id = some (call, stage)) (holds : stage.Holds) (reader : Reader)
    (lockedBy : Option ReadErrorCode) : Held (world.release reader lockedBy id call) := by
  intro other otherCall otherStage others otherHolds
  rcases World.stands_calls others with ⟨rfl, rfl, rfl⟩ | ⟨differs, before⟩
  · cases otherHolds
  · exact absurd (held.alone stands holds before otherHolds) differs

theorem Held.effect {world after : World} {input : Input} {event : Event} (held : Held world)
    (effect : Effect decoder world input event after) : Held after := by
  cases effect with
  | nothing => exact held
  | opens noReader =>
      intro id call stage stands holds
      obtain ⟨reader, isReader, -⟩ := held id call stage stands holds
      cases noReader.symm.trans isReader
  | crashes =>
      intro id call stage stands
      cases stands
  | refuses => exact held
  | starts endpoint parameters call =>
      intro other otherCall otherStage others otherHolds
      rcases World.stands_calls others with ⟨rfl, rfl, rfl⟩ | ⟨-, before⟩
      · cases otherHolds
      · exact held other otherCall otherStage before otherHolds
  | turnedAway turn stands failure =>
      intro other otherCall otherStage others otherHolds
      rcases World.stands_calls others with ⟨rfl, rfl, rfl⟩ | ⟨-, before⟩
      · cases otherHolds
      · exact held other otherCall otherStage before otherHolds
  | @takes id turn call stands reader isReader free unlocked =>
      intro other otherCall otherStage others otherHolds
      rcases World.stands_calls others with ⟨rfl, rfl, rfl⟩ | ⟨-, before⟩
      · exact ⟨_, rfl, rfl, unlocked⟩
      · obtain ⟨again, isAgain, isOwner, -⟩ := held other otherCall otherStage before otherHolds
        cases isReader.symm.trans isAgain
        cases free.symm.trans isOwner
  | fails turn stands holds _ _ _ => exact held.released stands holds _ _
  | moves turn stands moves => exact held.goes_on stands moves.holds.1
  | replaces turn stands => exact held.goes_on stands trivial
  | posts turn stands => exact held.goes_on stands trivial
  | judges outcome stands _ => exact held.released stands trivial _ _

theorem held_found (file : Option Bytes) : Held (World.found file) := by
  intro id call stage stands
  cases stands

/-! ## Nonces -/

/-- The entries of a trace. -/
abbrev Past := List (Entry World Input Event)

def Event.nonce? : Event → Option ℕ
  | .posted _ request => some request.nonce
  | _ => none

/-- The nonces of the requests that were posted, in their order. -/
def nonces (past : Past) : List ℕ := past.filterMap fun entry => entry.answer.nonce?

/-- What a reservation knows of the file and of what was posted. -/
def Reserves (file : Option Bytes) (posted : List ℕ) : Stage → Prop
  | .stamping last => lastOf file = .ok last
  | .writing value | .replacing value =>
      value ≤ maxNonce ∧ ∃ last, lastOf file = .ok last ∧ last.getD 0 < value
  | .reserved value => lastOf file = .ok (some value) ∧ ∀ nonce ∈ posted, nonce < value
  | _ => True

/-- Every posted nonce is at most what the file holds, and above those posted before it. -/
structure Covered (past : Past) (world : World) : Prop where
  increasing : (nonces past).Pairwise (· < ·)
  covered : ∀ nonce ∈ nonces past, ∃ last, lastOf world.file = .ok (some last) ∧ nonce ≤ last
  reserves : ∀ id call stage, world.calls id = some (call, stage) →
    Reserves world.file (nonces past) stage
  persisted : ∀ entry ∈ past, ∀ nonce, entry.answer.nonce? = some nonce →
    ∃ last, lastOf entry.before.file = .ok (some last) ∧ nonce ≤ last

section Covered

variable {past : Past} {world after : World} {input : Input} {event : Event}

theorem nonces_snoc (past : Past) (entry : Entry World Input Event) :
    nonces (past ++ [entry]) = nonces past ++ entry.answer.nonce?.toList := by
  rw [nonces, List.filterMap_append]
  cases found : entry.answer.nonce? <;> simp [nonces, found]

/-- A step that posts nothing and leaves the file. -/
theorem Covered.unposted (covered : Covered past world) (noPost : event.nonce? = none)
    (sameFile : after.file = world.file)
    (reserves : ∀ id call stage, after.calls id = some (call, stage) →
      world.calls id = some (call, stage) ∨ Reserves world.file (nonces past) stage) :
    Covered (past ++ [⟨world, input, event, after⟩]) after := by
  have same : nonces (past ++ [⟨world, input, event, after⟩]) = nonces past := by
    rw [nonces_snoc, noPost, Option.toList_none, List.append_nil]
  refine ⟨?_, ?_, ?_, ?_⟩
  · rw [same]
    exact covered.increasing
  · rw [same, sameFile]
    exact covered.covered
  · intro id call stage stands
    rw [same, sameFile]
    rcases reserves id call stage stands with before | holds
    · exact covered.reserves id call stage before
    · exact holds
  · intro entry member nonce isNonce
    rcases List.mem_append.mp member with old | new
    · exact covered.persisted entry old nonce isNonce
    · cases List.mem_singleton.mp new
      cases noPost.symm.trans isNonce

theorem reserves_of_stands {id : ℕ} {call : Call} {stage : Stage}
    (reserves : Reserves world.file (nonces past) stage) :
    ∀ other otherCall otherStage,
      (world.stands id call stage).calls other = some (otherCall, otherStage) →
        world.calls other = some (otherCall, otherStage) ∨
          Reserves world.file (nonces past) otherStage := by
  intro other otherCall otherStage stands
  rcases World.stands_calls stands with ⟨-, -, rfl⟩ | ⟨-, before⟩
  · exact .inr reserves
  · exact .inl before

/-- A step of a reservation knows what the next one needs. -/
theorem Moves.reserves {stage next : Stage} (moves : Moves world.file stage next)
    (knows : Reserves world.file (nonces past) stage) :
    Reserves world.file (nonces past) next := by
  cases moves with
  | reads isLast => exact isLast
  | @stamps last now small =>
      refine ⟨small, last, knows, ?_⟩
      unfold nextNonce
      omega
  | writes => exact knows

theorem reserves_of_not_holds {file : Option Bytes} {posted : List ℕ} {stage : Stage}
    (notHolds : ¬ stage.Holds) : Reserves file posted stage := by
  cases stage with
  | waiting => trivial
  | ended => trivial
  | _ => exact absurd trivial notHolds

/-- The file is replaced by a value that is above all that was posted. -/
theorem Covered.replaced (covered : Covered past world) (held : Held world) {id : ℕ} {call : Call}
    {value : ℕ} (stands : world.calls id = some (call, .replacing value)) :
    Covered (past ++ [⟨world, input, .quiet,
      { world.stands id call (.reserved value) with file := some (fileText value) }⟩])
      { world.stands id call (.reserved value) with file := some (fileText value) } := by
  obtain ⟨small, last, isLast, above⟩ := covered.reserves id call _ stands
  have isWritten : lastOf (some (fileText value)) = .ok (some value) := lastOf_fileText small
  have below : ∀ nonce ∈ nonces past, nonce < value := by
    intro nonce member
    obtain ⟨holds, isHeld, le⟩ := covered.covered nonce member
    cases isLast.symm.trans isHeld
    exact le.trans_lt above
  refine ⟨?_, ?_, ?_, ?_⟩
  · rw [nonces_snoc]
    simpa [Event.nonce?] using covered.increasing
  · rw [nonces_snoc]
    intro nonce member
    have inPast : nonce ∈ nonces past := by simpa [Event.nonce?] using member
    exact ⟨value, isWritten, (below nonce inPast).le⟩
  · intro other otherCall otherStage others
    rw [nonces_snoc]
    rcases World.stands_calls others with ⟨rfl, rfl, rfl⟩ | ⟨differs, before⟩
    · refine ⟨isWritten, fun nonce member => below nonce ?_⟩
      simpa [Event.nonce?] using member
    · refine reserves_of_not_holds fun otherHolds => differs ?_
      exact held.alone stands trivial before otherHolds
  · intro entry member nonce isNonce
    rcases List.mem_append.mp member with old | new
    · exact covered.persisted entry old nonce isNonce
    · cases List.mem_singleton.mp new
      cases isNonce

/-- What is posted is what the file holds. -/
theorem Covered.posted (covered : Covered past world) (held : Held world) {id : ℕ} {call : Call}
    {value : ℕ} (stands : world.calls id = some (call, .reserved value)) :
    Covered (past ++ [⟨world, input, .posted id (requestOf call value),
      world.stands id call (.posted value)⟩]) (world.stands id call (.posted value)) := by
  obtain ⟨isLast, below⟩ := covered.reserves id call _ stands
  have isNew : nonces (past ++ [⟨world, input, .posted id (requestOf call value),
      world.stands id call (.posted value)⟩]) = nonces past ++ [value] := nonces_snoc past _
  refine ⟨?_, ?_, ?_, ?_⟩
  · rw [isNew]
    refine List.pairwise_append.mpr ⟨covered.increasing, List.pairwise_singleton _ _, ?_⟩
    intro nonce member later isLater
    rw [List.mem_singleton.mp isLater]
    exact below nonce member
  · rw [isNew]
    intro nonce member
    rcases List.mem_append.mp member with old | new
    · exact covered.covered nonce old
    · rw [List.mem_singleton.mp new]
      exact ⟨value, isLast, le_refl _⟩
  · intro other otherCall otherStage others
    rcases World.stands_calls others with ⟨rfl, rfl, rfl⟩ | ⟨differs, before⟩
    · trivial
    · refine reserves_of_not_holds fun otherHolds => differs ?_
      exact held.alone stands trivial before otherHolds
  · intro entry member nonce isNonce
    rcases List.mem_append.mp member with old | new
    · exact covered.persisted entry old nonce isNonce
    · cases List.mem_singleton.mp new
      cases isNonce
      exact ⟨value, isLast, le_refl _⟩

theorem Covered.effect (covered : Covered past world) (held : Held world)
    (effect : Effect decoder world input event after) :
    Covered (past ++ [⟨world, input, event, after⟩]) after := by
  cases effect with
  | nothing => exact covered.unposted rfl rfl fun _ _ _ => .inl
  | opens noReader => exact covered.unposted rfl rfl fun _ _ _ => .inl
  | crashes =>
      refine covered.unposted rfl rfl ?_
      intro id call stage stands
      cases stands
  | refuses => exact covered.unposted rfl rfl fun _ _ _ => .inl
  | starts => exact covered.unposted rfl rfl (reserves_of_stands trivial)
  | turnedAway => exact covered.unposted rfl rfl (reserves_of_stands trivial)
  | takes => exact covered.unposted rfl rfl (reserves_of_stands trivial)
  | fails => exact covered.unposted rfl rfl (reserves_of_stands trivial)
  | moves turn stands moves =>
      exact covered.unposted rfl rfl
        (reserves_of_stands (moves.reserves (covered.reserves _ _ _ stands)))
  | replaces turn stands => exact covered.replaced held stands
  | posts turn stands => exact covered.posted held stands
  | judges => exact covered.unposted rfl rfl (reserves_of_stands trivial)

theorem covered_found (file : Option Bytes) : Covered [] (World.found file) where
  increasing := .nil
  covered _ member := absurd member List.not_mem_nil
  reserves id call stage stands := by cases stands
  persisted _ member := absurd member List.not_mem_nil

end Covered

/-! ## Answers -/

def Event.id? : Event → Option ℕ
  | .quiet => none
  | .refused id _ | .locked id _ | .unavailable id _ | .posted id _ | .judged id _ => some id

/-- The call that was refused, found the reader locked or could not reserve. -/
def Event.refusal? : Event → Option ℕ
  | .refused id _ | .locked id _ | .unavailable id _ => some id
  | _ => none

/-- The call that was refused or found the reader locked. -/
def Event.turnedAway? : Event → Option ℕ
  | .refused id _ | .locked id _ => some id
  | _ => none

def Event.poster? : Event → Option ℕ
  | .posted id _ => some id
  | _ => none

/-- The input is a step of the call `id`: its first one, up to the lock, or a later one. -/
def IsStepOf (id : ℕ) (entry : Entry World Input Event) : Prop :=
  (∃ turn, entry.input = .advance id turn) ∨
    ∃ endpoint parameters, entry.input = .call endpoint parameters ∧ entry.before.issued = id

/-- No step of the call changed the file. -/
def Untouched (past : Past) (id : ℕ) : Prop :=
  ∀ entry ∈ past, IsStepOf id entry → entry.after.file = entry.before.file

/-- The call has shown nothing. -/
def NoEvents (past : Past) (id : ℕ) : Prop := ∀ entry ∈ past, entry.answer.id? ≠ some id

def Unposted (past : Past) (id : ℕ) : Prop := ∀ entry ∈ past, entry.answer.poster? ≠ some id

/-- Before the post. -/
def Stage.Early : Stage → Prop
  | .posted _ | .ended => False
  | _ => True

/-- A call has not begun, or is one of the calls at a stage. -/
def Standing (world : World) (id : ℕ) (stages : Stage → Prop) : Prop :=
  world.issued ≤ id ∨ ∃ call stage, world.calls id = some (call, stage) ∧ stages stage

/-- What is known of one call. -/
structure Answered (past : Past) (world : World) (id : ℕ) : Prop where
  fresh : world.issued ≤ id → world.calls id = none
  early : Standing world id Stage.Early → NoEvents past id
  untouched : Standing world id (· = .waiting) → Untouched past id
  refused : ∀ entry ∈ past, entry.answer.refusal? = some id →
    ¬ Standing world id (· ≠ .ended) ∧ Unposted past id
  turnedAway : ∀ entry ∈ past, entry.answer.turnedAway? = some id → Untouched past id

section Answered

variable {past : Past} {world after : World} {input : Input} {event : Event} {id : ℕ}

theorem Event.id?_of_refusal? (isRefusal : event.refusal? = some id) : event.id? = some id := by
  cases event <;> first | exact isRefusal | cases isRefusal

theorem Event.id?_of_poster? (isPoster : event.poster? = some id) : event.id? = some id := by
  cases event <;> first | exact isPoster | cases isPoster

theorem Event.refusal?_of_turnedAway? (isAway : event.turnedAway? = some id) :
    event.refusal? = some id := by
  cases event <;> first | exact isAway | cases isAway

theorem NoEvents.unposted (noEvents : NoEvents past id) : Unposted past id :=
  fun entry member isPoster => noEvents entry member (Event.id?_of_poster? isPoster)

theorem NoEvents.no_refusal (noEvents : NoEvents past id) :
    ∀ entry ∈ past, entry.answer.refusal? ≠ some id :=
  fun entry member isRefusal => noEvents entry member (Event.id?_of_refusal? isRefusal)

theorem NoEvents.snoc (noEvents : NoEvents past id) (notAbout : event.id? ≠ some id) :
    NoEvents (past ++ [⟨world, input, event, after⟩]) id := by
  intro entry member
  rcases List.mem_append.mp member with old | new
  · exact noEvents entry old
  · cases List.mem_singleton.mp new
    exact notAbout

theorem Unposted.snoc (unposted : Unposted past id) (notPosted : event.poster? ≠ some id) :
    Unposted (past ++ [⟨world, input, event, after⟩]) id := by
  intro entry member
  rcases List.mem_append.mp member with old | new
  · exact unposted entry old
  · cases List.mem_singleton.mp new
    exact notPosted

theorem Untouched.snoc (untouched : Untouched past id)
    (sameFile : IsStepOf id ⟨world, input, event, after⟩ → after.file = world.file) :
    Untouched (past ++ [⟨world, input, event, after⟩]) id := by
  intro entry member
  rcases List.mem_append.mp member with old | new
  · exact untouched entry old
  · cases List.mem_singleton.mp new
    exact sameFile

theorem not_poster?_of_refusal? {other : ℕ} (isRefusal : event.refusal? = some other) :
    event.poster? ≠ some id := by
  intro isPoster
  cases event with
  | posted => cases isRefusal
  | _ => cases isPoster

/-- A step of another call. -/
theorem Answered.other (answered : Answered past world id) (notAbout : event.id? ≠ some id)
    (sameFile : IsStepOf id ⟨world, input, event, after⟩ → after.file = world.file)
    (issued : after.issued ≤ id → world.issued ≤ id)
    (calls : ∀ life, after.calls id = some life → world.calls id = some life) :
    Answered (past ++ [⟨world, input, event, after⟩]) after id := by
  have standing : ∀ stages, Standing after id stages → Standing world id stages := by
    rintro stages (fresh | ⟨call, stage, stands, holds⟩)
    · exact .inl (issued fresh)
    · exact .inr ⟨call, stage, calls _ stands, holds⟩
  refine ⟨?_, ?_, ?_, ?_, ?_⟩
  · intro fresh
    refine Option.eq_none_iff_forall_ne_some.mpr fun life stands => ?_
    cases (answered.fresh (issued fresh)).symm.trans (calls life stands)
  · intro early
    exact (answered.early (standing _ early)).snoc notAbout
  · intro waiting
    exact (answered.untouched (standing _ waiting)).snoc sameFile
  · intro entry member isRefusal
    rcases List.mem_append.mp member with old | new
    · obtain ⟨notStanding, unposted⟩ := answered.refused entry old isRefusal
      exact ⟨fun stands => notStanding (standing _ stands),
        unposted.snoc fun isPoster => notAbout (Event.id?_of_poster? isPoster)⟩
    · cases List.mem_singleton.mp new
      exact absurd (Event.id?_of_refusal? isRefusal) notAbout
  · intro entry member isAway
    rcases List.mem_append.mp member with old | new
    · exact (answered.turnedAway entry old isAway).snoc sameFile
    · cases List.mem_singleton.mp new
      exact absurd (Event.id?_of_refusal? (Event.refusal?_of_turnedAway? isAway)) notAbout

/-- A step of the call itself, which was not refused before. -/
theorem Answered.own (begun : ¬ after.issued ≤ id)
    (noRefusal : ∀ entry ∈ past, entry.answer.refusal? ≠ some id)
    (early : Standing after id Stage.Early → NoEvents past id ∧ event.id? ≠ some id)
    (waiting : Standing after id (· = .waiting) → Untouched past id ∧ after.file = world.file)
    (refused : event.refusal? = some id → ¬ Standing after id (· ≠ .ended) ∧ Unposted past id)
    (turnedAway : event.turnedAway? = some id → Untouched past id ∧ after.file = world.file) :
    Answered (past ++ [⟨world, input, event, after⟩]) after id := by
  refine ⟨fun fresh => absurd fresh begun, ?_, ?_, ?_, ?_⟩
  · intro isEarly
    obtain ⟨noEvents, notAbout⟩ := early isEarly
    exact noEvents.snoc notAbout
  · intro isWaiting
    obtain ⟨untouched, sameFile⟩ := waiting isWaiting
    exact untouched.snoc fun _ => sameFile
  · intro entry member isRefusal
    rcases List.mem_append.mp member with old | new
    · exact absurd isRefusal (noRefusal entry old)
    · cases List.mem_singleton.mp new
      obtain ⟨notStanding, unposted⟩ := refused isRefusal
      exact ⟨notStanding, unposted.snoc (not_poster?_of_refusal? isRefusal)⟩
  · intro entry member isAway
    rcases List.mem_append.mp member with old | new
    · exact absurd (Event.refusal?_of_turnedAway? isAway) (noRefusal entry old)
    · cases List.mem_singleton.mp new
      obtain ⟨untouched, sameFile⟩ := turnedAway isAway
      exact untouched.snoc fun _ => sameFile

/-- A call that stands at one stage. -/
theorem standing_stands (call : Call) {stage : Stage} (begun : ¬ world.issued ≤ id)
    {stages : Stage → Prop} (standing : Standing (world.stands id call stage) id stages) :
    stages stage := by
  rcases standing with fresh | ⟨otherCall, otherStage, stands, holds⟩
  · exact absurd fresh begun
  · rcases World.stands_calls stands with ⟨-, -, rfl⟩ | ⟨differs, -⟩
    · exact holds
    · exact absurd rfl differs

theorem Answered.begun (answered : Answered past world id) {call : Call} {stage : Stage}
    (stands : world.calls id = some (call, stage)) : ¬ world.issued ≤ id := by
  intro fresh
  cases (answered.fresh fresh).symm.trans stands

theorem stands_of_ne {actor : ℕ} (differs : id ≠ actor) {call : Call} {stage : Stage} :
    ∀ life, (world.stands actor call stage).calls id = some life → world.calls id = some life := by
  intro life stands
  rw [← stands]
  exact (Function.update_of_ne differs _ _).symm

/-- A call that has just begun, or does a step before its post, has shown nothing. -/
theorem Answered.noEvents (answered : Answered past world id) {call : Call} {stage : Stage}
    (stands : world.calls id = some (call, stage)) (early : stage.Early) : NoEvents past id :=
  answered.early (.inr ⟨call, stage, stands, early⟩)

theorem quiet_id? : Event.quiet.id? ≠ some id := by
  intro isAbout
  cases isAbout

theorem not_about {actor : ℕ} (isAbout : event.id? = some actor) (differs : id ≠ actor) :
    event.id? ≠ some id :=
  fun same => differs (Option.some.inj (same.symm.trans isAbout))

/-- A step of a call that only changes its own stage and leaves the file. -/
theorem Answered.advanced (answered : Answered past world id) {actor : ℕ} {call : Call}
    {stage next : Stage} (stands : world.calls actor = some (call, stage))
    (isAbout : event.id? = none ∨ event.id? = some actor)
    (calls : after.calls = (world.stands actor call next).calls) (issued : after.issued = world.issued)
    (sameFile : after.file = world.file ∨ ∃ turn, input = .advance actor turn)
    (noRefusal : stage.Early ∨ ∃ value, stage = .posted value)
    (early : next.Early → stage.Early ∧ event.id? = none)
    (waiting : next ≠ .waiting)
    (refused : event.refusal? = some actor → next = .ended ∧ stage.Early)
    (turnedAway : event.turnedAway? = some actor → stage = .waiting ∧ after.file = world.file) :
    Answered (past ++ [⟨world, input, event, after⟩]) after id := by
  by_cases own : id = actor
  · subst own
    have begun : ¬ world.issued ≤ id := answered.begun stands
    have standing : ∀ stages, Standing after id stages → stages next := by
      intro stages isStanding
      refine standing_stands call begun ?_
      unfold Standing at isStanding ⊢
      rw [calls, issued] at isStanding
      exact isStanding
    refine .own (issued ▸ begun) ?_ ?_ ?_ ?_ ?_
    · intro entry member isRefusal
      rcases noRefusal with isEarly | ⟨value, rfl⟩
      · exact (answered.noEvents stands isEarly).no_refusal entry member isRefusal
      · exact (answered.refused entry member isRefusal).1 (.inr ⟨call, _, stands, nofun⟩)
    · intro isEarly
      obtain ⟨before, isQuiet⟩ := early (standing _ isEarly)
      refine ⟨answered.noEvents stands before, ?_⟩
      rw [isQuiet]
      exact quiet_id?
    · intro isWaiting
      exact absurd (standing _ isWaiting) waiting
    · intro isRefusal
      obtain ⟨rfl, before⟩ := refused isRefusal
      exact ⟨fun isStanding => standing _ isStanding rfl, (answered.noEvents stands before).unposted⟩
    · intro isAway
      obtain ⟨rfl, same⟩ := turnedAway isAway
      exact ⟨answered.untouched (.inr ⟨call, _, stands, rfl⟩), same⟩
  · refine answered.other ?_ ?_ (fun fresh => issued ▸ fresh) ?_
    · rcases isAbout with isQuiet | isActor
      · rw [isQuiet]
        exact quiet_id?
      · exact not_about isActor own
    · intro isStep
      rcases sameFile with same | ⟨turn, rfl⟩
      · exact same
      · rcases isStep with ⟨other, same⟩ | ⟨_, _, same, _⟩
        · cases same
          exact absurd rfl own
        · cases same
    · rw [calls]
      exact stands_of_ne own

/-- A call that begins. -/
theorem Answered.began (answered : Answered past world id)
    (issued : after.issued = world.issued + 1) (sameFile : after.file = world.file)
    (calls : ∀ other, other ≠ world.issued → ∀ life, after.calls other = some life →
      world.calls other = some life)
    (isAbout : event.id? = none ∨ event.id? = some world.issued)
    (waits : world.calls world.issued = none → ∀ call stage,
      after.calls world.issued = some (call, stage) → stage = .waiting ∧ event.id? = none) :
    Answered (past ++ [⟨world, input, event, after⟩]) after id := by
  by_cases own : id = world.issued
  · subst own
    have fresh : Standing world world.issued Stage.Early := .inl (le_refl _)
    have noEvents := answered.early fresh
    have untouched := answered.untouched (.inl (le_refl _))
    have begun : ¬ after.issued ≤ world.issued := by omega
    have standing : ∀ stages, Standing after world.issued stages → stages .waiting ∧
        event.id? = none := by
      rintro stages (isFresh | ⟨call, stage, stands, holds⟩)
      · exact absurd isFresh begun
      · obtain ⟨rfl, isQuiet⟩ := waits (answered.fresh (le_refl _)) call stage stands
        exact ⟨holds, isQuiet⟩
    refine .own begun noEvents.no_refusal ?_ ?_ ?_ ?_
    · intro isEarly
      refine ⟨noEvents, ?_⟩
      rw [(standing _ isEarly).2]
      exact quiet_id?
    · exact fun _ => ⟨untouched, sameFile⟩
    · intro isRefusal
      refine ⟨fun isStanding => ?_, noEvents.unposted⟩
      cases (standing _ isStanding).2.symm.trans (Event.id?_of_refusal? isRefusal)
    · exact fun _ => ⟨untouched, sameFile⟩
  · refine answered.other ?_ (fun _ => sameFile) (by omega) (calls id own)
    rcases isAbout with isQuiet | isNew
    · rw [isQuiet]
      exact quiet_id?
    · exact not_about isNew own

theorem Answered.effect (answered : Answered past world id)
    (effect : Effect decoder world input event after) :
    Answered (past ++ [⟨world, input, event, after⟩]) after id := by
  cases effect with
  | nothing => exact answered.other quiet_id? (fun _ => rfl) (fun fresh => fresh) fun _ same => same
  | opens => exact answered.other quiet_id? (fun _ => rfl) (fun fresh => fresh) fun _ same => same
  | crashes =>
      refine answered.other quiet_id? (fun _ => rfl) (fun fresh => fresh) fun life same => ?_
      cases same
  | refuses endpoint parameters failure =>
      refine answered.began rfl rfl (fun _ _ _ same => same) (.inr rfl) ?_
      intro none call stage stands
      cases none.symm.trans stands
  | starts endpoint parameters call =>
      refine answered.began rfl rfl (fun _ differs => stands_of_ne differs) (.inl rfl) ?_
      intro none otherCall stage stands
      rcases World.stands_calls stands with ⟨-, -, rfl⟩ | ⟨differs, -⟩
      · exact ⟨rfl, rfl⟩
      · exact absurd rfl differs
  | turnedAway turn stands failure =>
      exact answered.advanced stands (.inr rfl) rfl rfl (.inl rfl) (.inl trivial) nofun nofun
        (fun _ => ⟨rfl, trivial⟩) fun _ => ⟨rfl, rfl⟩
  | takes turn stands isReader free unlocked =>
      exact answered.advanced stands (.inl rfl) rfl rfl (.inl rfl) (.inl trivial)
        (fun _ => ⟨trivial, rfl⟩) nofun nofun nofun
  | @fails actor turn call stage stands holds unposted reader isReader failure =>
      have early : stage.Early := by
        cases stage with
        | posted value => exact absurd rfl (unposted value)
        | ended => cases holds
        | _ => trivial
      exact answered.advanced stands (.inr rfl) rfl rfl (.inl rfl) (.inl early) nofun nofun
        (fun _ => ⟨rfl, early⟩) nofun
  | moves turn stands moves =>
      cases moves <;>
        exact answered.advanced stands (.inl rfl) rfl rfl (.inl rfl) (.inl trivial)
          (fun _ => ⟨trivial, rfl⟩) nofun nofun nofun
  | replaces turn stands =>
      exact answered.advanced stands (.inl rfl) rfl rfl (.inr ⟨turn, rfl⟩) (.inl trivial)
        (fun _ => ⟨trivial, rfl⟩) nofun nofun nofun
  | posts turn stands =>
      exact answered.advanced stands (.inr rfl) rfl rfl (.inl rfl) (.inl trivial) nofun nofun nofun
        nofun
  | judges outcome stands isReader =>
      exact answered.advanced stands (.inr rfl) rfl rfl (.inl rfl) (.inr ⟨_, rfl⟩) nofun nofun nofun
        nofun

theorem answered_found (file : Option Bytes) : Answered [] (World.found file) id where
  fresh _ := rfl
  early _ _ member := absurd member List.not_mem_nil
  untouched _ _ member := absurd member List.not_mem_nil
  refused _ member := absurd member List.not_mem_nil
  turnedAway _ member := absurd member List.not_mem_nil

end Answered

/-! ## Authentication errors -/

def Event.AuthError : Event → Prop
  | .judged _ (.error (.read code _ _ _)) => code.isAuthError = true
  | _ => False

/-- A reader that has judged a reply an authentication error is locked, and posts nothing. -/
structure Stopped (past : Past) (world : World) : Prop where
  opened : ∀ entry ∈ past, entry.before.opened ≤ world.opened
  locked : ∀ entry ∈ past, entry.answer.AuthError → entry.before.opened = world.opened →
    ∀ reader, world.reader = some reader → reader.lockedBy.isSome
  silent : past.Pairwise fun entry later => entry.answer.AuthError →
    later.answer.poster?.isSome → later.before.opened ≠ entry.before.opened

section Stopped

variable {past : Past} {world after : World} {input : Input} {event : Event}

theorem Stopped.snoc (stopped : Stopped past world) (opened : world.opened ≤ after.opened)
    (locked : ∀ reader, after.reader = some reader → after.opened = world.opened →
      (∃ before, world.reader = some before ∧
        (before.lockedBy.isSome → reader.lockedBy.isSome)) ∧
        (event.AuthError → reader.lockedBy.isSome))
    (silent : event.poster?.isSome →
      ∃ reader, world.reader = some reader ∧ reader.lockedBy = none) :
    Stopped (past ++ [⟨world, input, event, after⟩]) after := by
  refine ⟨?_, ?_, ?_⟩
  · intro entry member
    rcases List.mem_append.mp member with old | new
    · exact (stopped.opened entry old).trans opened
    · cases List.mem_singleton.mp new
      exact opened
  · intro entry member isAuth same reader isReader
    rcases List.mem_append.mp member with old | new
    · have notMore := stopped.opened entry old
      have equal : after.opened = world.opened := by omega
      obtain ⟨⟨before, isBefore, kept⟩, -⟩ := locked reader isReader equal
      exact kept (stopped.locked entry old isAuth (by omega) before isBefore)
    · cases List.mem_singleton.mp new
      exact (locked reader isReader same.symm).2 isAuth
  · refine List.pairwise_append.mpr ⟨stopped.silent, List.pairwise_singleton _ _, ?_⟩
    intro entry old later new isAuth isPost same
    cases List.mem_singleton.mp new
    obtain ⟨reader, isReader, unlocked⟩ := silent isPost
    have isLocked := stopped.locked entry old isAuth same.symm reader isReader
    rw [unlocked] at isLocked
    cases isLocked

theorem lockingCode_of_authError {id : ℕ} {result : Except ReadFailure (Json Decimal)}
    (isAuth : (Event.judged id result).AuthError) : (lockingCode result).isSome := by
  cases result with
  | ok value => cases isAuth
  | error failure =>
      cases failure with
      | type => cases isAuth
      | read code endpoint reason status =>
          have isCode : code.isAuthError = true := isAuth
          have isLock : lockingCode (.error (.read code endpoint reason status)) = some code :=
            if_pos isCode
          rw [isLock]
          rfl

theorem Stopped.effect (stopped : Stopped past world) (held : Held world)
    (effect : Effect decoder world input event after) :
    Stopped (past ++ [⟨world, input, event, after⟩]) after := by
  cases effect with
  | nothing =>
      exact stopped.snoc (le_refl _) (fun reader isReader _ => ⟨⟨reader, isReader, fun same => same⟩,
        nofun⟩) nofun
  | opens =>
      refine stopped.snoc (Nat.le_succ _) ?_ nofun
      intro reader isReader same
      exact absurd same (Nat.succ_ne_self _)
  | crashes => exact stopped.snoc (le_refl _) nofun nofun
  | refuses =>
      exact stopped.snoc (le_refl _) (fun reader isReader _ => ⟨⟨reader, isReader, fun same => same⟩,
        nofun⟩) nofun
  | starts =>
      exact stopped.snoc (le_refl _) (fun reader isReader _ => ⟨⟨reader, isReader, fun same => same⟩,
        nofun⟩) nofun
  | turnedAway =>
      exact stopped.snoc (le_refl _) (fun reader isReader _ => ⟨⟨reader, isReader, fun same => same⟩,
        nofun⟩) nofun
  | takes turn stands isReader free unlocked =>
      refine stopped.snoc (le_refl _) ?_ nofun
      rintro reader same -
      cases same
      exact ⟨⟨_, isReader, fun same => same⟩, nofun⟩
  | fails turn stands holds unposted isReader failure =>
      refine stopped.snoc (le_refl _) ?_ nofun
      rintro reader same -
      cases same
      exact ⟨⟨_, isReader, fun same => same⟩, nofun⟩
  | moves =>
      exact stopped.snoc (le_refl _) (fun reader isReader _ => ⟨⟨reader, isReader, fun same => same⟩,
        nofun⟩) nofun
  | replaces =>
      exact stopped.snoc (le_refl _) (fun reader isReader _ => ⟨⟨reader, isReader, fun same => same⟩,
        nofun⟩) nofun
  | posts turn stands =>
      refine stopped.snoc (le_refl _) (fun reader isReader _ => ⟨⟨reader, isReader, fun same => same⟩,
        nofun⟩) ?_
      intro _
      obtain ⟨reader, isReader, -, unlocked⟩ := held _ _ _ stands trivial
      exact ⟨reader, isReader, unlocked⟩
  | judges outcome stands isReader =>
      refine stopped.snoc (le_refl _) ?_ nofun
      rintro reader same -
      cases same
      refine ⟨⟨_, isReader, fun isLocked => ?_⟩, fun isAuth => ?_⟩
      · rw [Option.isSome_or, isLocked, Bool.or_true]
      · rw [Option.isSome_or, lockingCode_of_authError isAuth, Bool.true_or]

theorem stopped_found (file : Option Bytes) : Stopped [] (World.found file) where
  opened _ member := absurd member List.not_mem_nil
  locked _ member := absurd member List.not_mem_nil
  silent := .nil

end Stopped

/-! ## Runs -/

/-- What holds of everything that happened. -/
structure Kept (past : Past) (world : World) : Prop where
  held : Held world
  covered : Covered past world
  answered : ∀ id, Answered past world id
  stopped : Stopped past world

/-- Everything that happens in a state directory, from the file that is found in it. -/
theorem kept_run (file : Option Bytes) (inputs : List Input) :
    Kept ((machine decoder).trace (World.found file) inputs)
      ((machine decoder).run (World.found file) inputs) := by
  have every := (machine decoder).history_invariant (fun _ => True) Kept (by
    intro past world input _ kept
    have effect : Effect decoder world input _ _ := machine_effect world input
    exact ⟨kept.held.effect effect, kept.covered.effect kept.held effect,
      fun id => (kept.answered id).effect effect, kept.stopped.effect kept.held effect⟩)
    inputs [] (World.found file) (fun _ _ => trivial)
    ⟨held_found file, covered_found file, fun _ => answered_found file, stopped_found file⟩
  rwa [List.nil_append] at every

/-- In every history of a state directory: the nonces that are posted strictly increase, and each is
at most what the file holds when it is posted; a call that is refused, finds the reader locked or
cannot reserve posts nothing, and one that is refused or finds the reader locked leaves the file; and
a reader that judged a reply an authentication error posts nothing afterwards. -/
theorem nonces_never_reused (decoder : Decoder) (file : Option Bytes) (inputs : List Input) :
    let trace := (machine decoder).trace (World.found file) inputs
    (nonces trace).Pairwise (· < ·) ∧
    (∀ entry ∈ trace, ∀ id request, entry.answer = .posted id request →
      ∃ last, lastOf entry.before.file = .ok (some last) ∧ request.nonce ≤ last) ∧
    (∀ entry ∈ trace, ∀ id, entry.answer.refusal? = some id → Unposted trace id) ∧
    (∀ entry ∈ trace, ∀ id, entry.answer.turnedAway? = some id → Untouched trace id) ∧
    trace.Pairwise fun entry later => entry.answer.AuthError → later.answer.poster?.isSome →
      later.before.opened ≠ entry.before.opened := by
  have kept : Kept ((machine decoder).trace _ _) _ := kept_run file inputs
  refine ⟨kept.covered.increasing, ?_, ?_, ?_, kept.stopped.silent⟩
  · intro entry member id request isPosted
    refine kept.covered.persisted entry member request.nonce ?_
    rw [isPosted]
    rfl
  · intro entry member id isRefusal
    exact ((kept.answered id).refused entry member isRefusal).2
  · intro entry member id isAway
    exact (kept.answered id).turnedAway entry member isAway

end CryptoRadar.PrivateRead
