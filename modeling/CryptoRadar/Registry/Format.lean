import CryptoRadar.Lib.Checked
import CryptoRadar.Lib.Json
import CryptoRadar.Lib.Lines

/-!
# The pre-registration registry

`domain/trend_registry.py`: an append-only log of JSON lines. Each line carries its position,
a time, the hash of the line before it and an event. `parseRegistry` checks the chain over
the exact bytes of the lines, `encodeEvent` builds the next line, and `holdoutPayload` builds
the event that uses up the holdout of a registered name.

`parseRegistry_append` is the lemma the rest stands on: to parse a file with one more line is
to parse the file and then the line.
-/

set_option autoImplicit false

namespace CryptoRadar.TrendRegistry

open Checked

universe u

/-- The codes of a `RegistryError`. -/
inductive RegistryErrorCode where
  | malformed
  | chainBroken
  | unknownEvent
  | invalidEvent
  | notRegistered
  | sourceChanged
  | holdoutConsumed
  deriving DecidableEq, Repr

/-- What parsing or building an event raises: an error of the registry, or an error of Python
that is not caught (`RecursionError` of the decoder, `TypeError` of an unhashable split). -/
inductive RegistryFailure where
  | registry (code : RegistryErrorCode)
  | recursion
  | unhashable
  deriving DecidableEq, Repr

/-- The kinds of events. -/
inductive EventKind where
  | priorTrials
  | register
  | run
  | holdout
  | holdoutResult
  deriving DecidableEq, Repr

/-- The kind of a text. -/
def EventKind.ofText (text : PyStr) : Option EventKind :=
  if text = pyStr "prior_trials" then some .priorTrials
  else if text = pyStr "register" then some .register
  else if text = pyStr "run" then some .run
  else if text = pyStr "holdout" then some .holdout
  else if text = pyStr "holdout_result" then some .holdoutResult
  else none

/-- `GENESIS`. -/
def genesis : PyStr := pyStr "genesis"

/-- `IMPORTED_REGISTRY_SHA256`. -/
def importedRegistrySha256 : PyStr :=
  pyStr "6f4dbaba82e628a97911a93381a694ffc4dbc4059e064a0647564c77232e5f4a"

/-- One verified line. -/
structure RegistryEvent (Float : Type u) where
  seq : Nat
  kind : EventKind
  lineSha256 : PyStr
  payload : Dict PyStr (Json Float)

/-- The events of a file, and the digest of the last one. -/
structure Registry (Float : Type u) where
  events : List (RegistryEvent Float)
  tip : PyStr

variable {Float : Type u} (codec : Codec Float)

/-- A `RegistryError`. -/
def invalid {α : Type u} (code : RegistryErrorCode) : Except RegistryFailure α :=
  .error (.registry code)

/-! ## Parsing and encoding -/

/-- 64 lowercase hex digits. -/
def isHexDigest (text : PyStr) : Bool :=
  text.length = 64 && text.all fun code => (48 ≤ code && code ≤ 57) || (97 ≤ code && code ≤ 102)

/-- The value of a key. -/
def field (members : Dict PyStr (Json Float)) (key : String) : Option (Json Float) :=
  members.get? (pyStr key)

/-- The value of a key is a string; its text. -/
def textField (members : Dict PyStr (Json Float)) (key : String) : Option PyStr :=
  (field members key).bind Json.str?

/-- A split has to be one of a set of texts. -/
def checkSplit (members : Dict PyStr (Json Float)) : Except RegistryFailure Unit :=
  match field members "split" with
  | some (.array _) => .error .unhashable
  | some (.object _) => .error .unhashable
  | some (.str text) =>
      if text = pyStr "dev" ∨ text = pyStr "holdout" then .ok () else .error (.registry .invalidEvent)
  | _ => .error (.registry .invalidEvent)

/-- The value is an object. -/
def isObject : Option (Json Float) → Bool
  | some (.object _) => true
  | _ => false

/-- The split, the summary and the Sharpe ratios of a logged result. -/
def checkResult (members : Dict PyStr (Json Float)) : Except RegistryFailure Unit := do
  checkSplit members
  ensure (isObject (field members "summary") ∧ isObject (field members "daily_sharpe"))
    (.registry .invalidEvent)

/-- The fields that the events of a kind need. -/
def checkFields (kind : EventKind) (members : Dict PyStr (Json Float)) :
    Except RegistryFailure Unit :=
  if kind = .priorTrials then
    match field members "count" with
    | some (.int count) => ensure (0 ≤ count) (.registry .invalidEvent)
    | _ => .error (.registry .invalidEvent)
  else do
    ensure (((textField members "name").map fun name => !name.isEmpty).getD false)
      (.registry .invalidEvent)
    ensure (((textField members "sha256").map isHexDigest).getD false) (.registry .invalidEvent)
    if kind = .run ∨ kind = .holdoutResult then checkResult members else .ok ()

/-- `_check_shape`: the kind of the event, when its fields are those of the kind. -/
def checkShape (members : Dict PyStr (Json Float)) : Except RegistryFailure EventKind := do
  let kind ← require (.registry .unknownEvent) ((textField members "event").bind EventKind.ofText)
  ensure (textField members "ts").isSome (.registry .invalidEvent)
  checkFields kind members
  return kind

/-- The line without the carriage return of a CRLF terminator. -/
def trimReturn (raw : Bytes) : Bytes :=
  if raw.getLast? = some 13 then raw.dropLast else raw

/-- White space of `bytes.strip`. -/
def isBlank (line : Bytes) : Bool :=
  line.all fun byte => byte = 32 ∨ (9 ≤ byte ∧ byte ≤ 13)

/-- The line continues the chain: its `prev` is the tip and its `seq` the next position. -/
def continues (registry : Registry Float) (members : Dict PyStr (Json Float)) : Bool :=
  ((field members "prev").map fun value => value.equalsStr registry.tip).getD false &&
    match field members "seq" with
    | some (.bool _) => false
    | some value => value.equalsInt codec.floatEquals registry.events.length
    | none => false

/-- One more line of the file. -/
def parseLine (registry : Registry Float) (raw : Bytes) : Except RegistryFailure (Registry Float) :=
  let line := trimReturn raw
  if isBlank line ∨ 13 ∈ line then .error (.registry .malformed)
  else
    match codec.loads line with
    | .error .recursion => .error .recursion
    | .error _ => .error (.registry .malformed)
    | .ok (.object members) =>
        if !continues codec registry members then .error (.registry .chainBroken)
        else
          match checkShape members with
          | .error failure => .error failure
          | .ok kind =>
              .ok ⟨registry.events ++ [⟨registry.events.length, kind, codec.sha256Hex line, members⟩],
                codec.sha256Hex line⟩
    | .ok _ => .error (.registry .malformed)

/-- Verify the hash chain over the exact line bytes and return the events. -/
def parseRegistry (data : Bytes) : Except RegistryFailure (Registry Float) :=
  if data ≠ [] ∧ data.getLast? ≠ some 10 then .error (.registry .malformed)
  else (Lines.linesOf 10 data).foldlM (parseLine codec) ⟨[], genesis⟩

/-- The next line for `payload`, chained to `registry`. -/
def encodeEvent (registry : Registry Float) (ts : PyStr) (payload : Dict PyStr (Json Float)) :
    Except RegistryFailure Bytes :=
  if (field payload "seq").isSome ∨ (field payload "ts").isSome ∨ (field payload "prev").isSome then
    .error (.registry .invalidEvent)
  else
    let event : Dict PyStr (Json Float) :=
      [(pyStr "seq", .int registry.events.length), (pyStr "ts", .str ts),
        (pyStr "prev", .str registry.tip)] ++ payload
    match checkShape event with
    | .error failure => .error failure
    | .ok _ =>
        match codec.dumps (.object event) with
        | none => .error (.registry .invalidEvent)
        | some text => .ok (text ++ [10])

/-! ## Policy -/

/-- The event is a holdout of a rule. -/
def RegistryEvent.isHoldoutOf (name : PyStr) (event : RegistryEvent Float) : Bool :=
  event.kind = .holdout && textField event.payload "name" = some name

/-- `holdout_used`. -/
def Registry.holdoutUsed (registry : Registry Float) (name : PyStr) : Bool :=
  registry.events.any (RegistryEvent.isHoldoutOf name)

/-- The registration of a rule. -/
def Registry.registrationFor (registry : Registry Float) (name : PyStr) :
    Option (RegistryEvent Float) :=
  registry.events.find? fun event =>
    event.kind = .register && textField event.payload "name" = some name

/-- The hash registered for the name, when the source is the registered one. -/
def verifySource (registry : Registry Float) (name sourceSha256 : PyStr) :
    Except RegistryFailure PyStr :=
  match registry.registrationFor name with
  | none => .error (.registry .notRegistered)
  | some registration =>
      match textField registration.payload "sha256" with
      | none => .error (.registry .invalidEvent)
      | some registered =>
          if registered = sourceSha256 then .ok registered else .error (.registry .sourceChanged)

/-- The holdout event that must be recorded before a holdout computes. -/
def holdoutPayload (registry : Registry Float) (name sourceSha256 : PyStr) (slippageBps : Float) :
    Except RegistryFailure (Dict PyStr (Json Float)) :=
  match verifySource registry name sourceSha256 with
  | .error failure => .error failure
  | .ok registered =>
      if registry.holdoutUsed name then .error (.registry .holdoutConsumed)
      else
        .ok [(pyStr "event", .str (pyStr "holdout")), (pyStr "name", .str name),
          (pyStr "sha256", .str registered), (pyStr "slippage_bps", .float slippageBps)]

/-! ## What parsing one more line gives -/

variable {codec}

theorem terminated_of_parseRegistry {data : Bytes} {registry : Registry Float}
    (parsed : parseRegistry codec data = .ok registry) : Lines.Terminated 10 data := by
  unfold parseRegistry at parsed
  split at parsed
  next => cases parsed
  next terminated =>
    by_cases empty : data = []
    · exact .inl empty
    · refine .inr ⟨data.dropLast, ?_⟩
      have last : data.getLast? = some 10 := by
        by_contra differs
        exact terminated ⟨empty, differs⟩
      exact (List.dropLast_append_getLast? 10 last).symm

/-- A parsed file with one more line parses as that line does. -/
theorem parseRegistry_append {data text : Bytes} {registry : Registry Float}
    (parsed : parseRegistry codec data = .ok registry) (oneLine : 10 ∉ text) :
    parseRegistry codec (data ++ (text ++ [10])) = parseLine codec registry text := by
  have terminated := terminated_of_parseRegistry parsed
  have folded : (Lines.linesOf 10 data).foldlM (parseLine codec) ⟨[], genesis⟩ = .ok registry := by
    unfold parseRegistry at parsed
    split at parsed
    next => cases parsed
    next => exact parsed
  unfold parseRegistry
  rw [if_neg (by simp), Lines.linesOf_append terminated, Lines.linesOf_line oneLine,
    List.foldlM_append, folded]
  change List.foldlM (parseLine codec) registry [text] = _
  rw [List.foldlM_cons]
  cases parseLine codec registry text <;> rfl

/-- A line that parses adds one event, with the kind and the members of the line. -/
theorem parseLine_eq_ok {registry after : Registry Float} {raw : Bytes}
    (parsed : parseLine codec registry raw = .ok after) :
    ∃ members kind, codec.loads (trimReturn raw) = .ok (.object members) ∧
      checkShape members = .ok kind ∧
      after.events = registry.events ++
        [⟨registry.events.length, kind, codec.sha256Hex (trimReturn raw), members⟩] := by
  unfold parseLine at parsed
  dsimp only at parsed
  split at parsed
  next => cases parsed
  next =>
    split at parsed
    next => cases parsed
    next => cases parsed
    next members loaded =>
      split at parsed
      next => cases parsed
      next =>
        split at parsed
        next => cases parsed
        next kind shaped =>
          cases parsed
          exact ⟨members, kind, loaded, shaped, rfl⟩
    next => cases parsed

/-- The kind of a well-shaped event is the one its `event` names. -/
theorem checkShape_kind {members : Dict PyStr (Json Float)} {kind : EventKind}
    (shaped : checkShape members = .ok kind) :
    (textField members "event").bind EventKind.ofText = some kind := by
  obtain ⟨found, named, rest⟩ := bind_eq_ok.mp shaped
  obtain ⟨_, _, rest⟩ := bind_eq_ok.mp rest
  obtain ⟨_, _, final⟩ := bind_eq_ok.mp rest
  cases final
  exact require_eq_ok.mp named

end CryptoRadar.TrendRegistry
