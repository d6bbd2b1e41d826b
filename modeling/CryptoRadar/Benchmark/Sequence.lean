import CryptoRadar.Experiments.Domain
import CryptoRadar.Lib.Double
import CryptoRadar.Lib.Sha256
import Mathlib.Data.Prod.Lex

/-!
# The sequence of the benchmark

`workflow/t051_sequence.py`: the fixed lists of a corpus, the steps that are made of them, the
selection rule, and the plan that is computed afresh from the results file before every call. A
record of the results file is an object of JSON, and what `done_keys` and `probe_observations`
read of it is read here in the same way.

The failures keep the texts of a `SequenceError`. Of a `ResultsCorrupt` they say which of its
three kinds it is, as its text shows the key as Python would.
-/

set_option autoImplicit false

namespace CryptoRadar.Benchmark

open Checked
open Experiments (utf8Char)

/-! ## Settings -/

/-- `FREEZE_SALT`. -/
def freezeSalt : PyStr := pyStr "t051-freeze-1"

/-- `BASELINE_MODEL`. -/
def baselineModel : PyStr := pyStr "qwen3:14b"

/-- `PROBE_MODELS`. -/
def probeModels : List PyStr := [baselineModel, pyStr "gpt-oss:20b", pyStr "llama3.2:latest"]

/-- `OPTIONAL_MODEL`. -/
def optionalModel : PyStr := pyStr "qwen3-coder:30b"

/-- `PROBE_CASES`. -/
def probeCases : ℕ := 20

/-- `WARMUP_CASES`. -/
def warmupCases : ℕ := 1

/-- `COLD_LOADS`. -/
def coldLoads : ℕ := 10

/-- `WARM_RUNS`. -/
def warmRuns : ℕ := 20

/-- `STABILITY_CASES`. -/
def stabilityCases : ℕ := 20

/-- `STABILITY_REPEATS`. -/
def stabilityRepeats : ℕ := 3

/-- `P95_LIMIT_SECONDS`. -/
def p95LimitSeconds : Double := 30.0

/-- The blocks of the sequence. -/
inductive Block where
  | preflight
  | probe
  | warmup
  | cold
  | warm
  | holdout
  | stability
  deriving DecidableEq, Repr

/-- The text of a block in keys and records. -/
def Block.value : Block → PyStr
  | .preflight => pyStr "preflight"
  | .probe => pyStr "probe"
  | .warmup => pyStr "warmup"
  | .cold => pyStr "cold"
  | .warm => pyStr "warm"
  | .holdout => pyStr "holdout"
  | .stability => pyStr "stability"

/-- `(block, model, digest, case_id, repetition)`. -/
abbrev CallKey : Type := PyStr × PyStr × PyStr × PyStr × ℤ

/-- What is wrong with a results file. -/
inductive Corruption where
  | noKey
  | malformedKey
  | duplicateKey (key : CallKey)
  deriving DecidableEq, Repr

/-- What the module raises: a `SequenceError`, a `SealedCaseError` or a `ResultsCorrupt`, or an
error of Python. -/
inductive SequenceFailure where
  | sequence (text : PyStr)
  | sealedCase (caseId : PyStr)
  | corrupt (reason : Corruption)
  | number (error : NumberError)
  | encoding
  | key
  | index
  deriving DecidableEq, Repr

/-! ## Fixed lists -/

/-- A case of a corpus: its id, its digest and its partition. -/
structure CaseRef where
  caseId : PyStr
  caseSha256 : PyStr
  partition : PyStr
  category : PyStr
  labelled : Bool
  deriving DecidableEq, Repr

/-- The cases of each block, fixed before the first call. -/
structure FixedLists where
  probe : List PyStr
  warmup : List PyStr
  cold : List PyStr
  warm : List PyStr
  holdoutLabelled : List PyStr
  stability : List PyStr
  holdoutSealed : List PyStr
  deriving DecidableEq, Repr

/-- `_order_key`. -/
def orderKey (listName : PyStr) (case : CaseRef) : Except SequenceFailure PyStr := do
  let text := freezeSalt ++ pyStr "|" ++ listName ++ pyStr "|" ++ case.caseId ++ pyStr "|" ++
    case.caseSha256
  let bytes ← require .encoding (text.mapM utf8Char)
  return Sha256.hexdigest bytes.flatten

/-- `_ordered`. -/
def ordered (listName : PyStr) (cases : List CaseRef) : Except SequenceFailure (List CaseRef) := do
  let keyed ← cases.mapM fun case => do return ((← orderKey listName case), case)
  return (keyed.insertionSort fun first second =>
    toLex (first.1, first.2.caseId) ≤ toLex (second.1, second.2.caseId)).map Prod.snd

/-- One turn of `_stratified`: what is taken of the category at an index. -/
def takeCategory (listName : PyStr) (cases : List CaseRef) (base extra : ℕ) (place : PyStr × ℕ) :
    Except SequenceFailure (List PyStr) := do
  let want := base + if place.2 < extra then 1 else 0
  let pool ← ordered listName (cases.filter (·.category = place.1))
  ensure (want ≤ pool.length)
    (.sequence (listName ++ pyStr ": category " ++ place.1 ++
      pyStr s!" has {pool.length} labelled cases, needs {want}"))
  return (pool.take want).map CaseRef.caseId

/-- The categories of the cases, each one time and in order. -/
def categoriesOf (cases : List CaseRef) : List PyStr :=
  (cases.map CaseRef.category).dedup.insertionSort (· ≤ ·)

/-- `_stratified`: the cases are spread over their categories, and the first categories take the
remainder. -/
def stratified (listName : PyStr) (cases : List CaseRef) (total : ℕ) :
    Except SequenceFailure (List PyStr) := do
  let categories := categoriesOf cases
  ensure (categories ≠ []) (.sequence (listName ++ pyStr ": no labelled case"))
  let chosen ← categories.zipIdx.mapM
    (takeCategory listName cases (total / categories.length) (total % categories.length))
  return chosen.flatten.insertionSort (· ≤ ·)

/-- `build_fixed_lists`. -/
def buildFixedLists (development holdout : List CaseRef) : Except SequenceFailure FixedLists := do
  let ids := (development ++ holdout).map CaseRef.caseId
  ensure ids.Nodup (.sequence (pyStr "duplicate case id"))
  ensure (∀ case ∈ development, case.partition = pyStr "development")
    (.sequence (pyStr "a development case is not in development"))
  ensure (∀ case ∈ holdout, case.partition = pyStr "holdout")
    (.sequence (pyStr "a holdout case is not in holdout"))
  let labelledDev := development.filter CaseRef.labelled
  let latencyOrder ← ordered (pyStr "latency") development
  let needed := warmupCases + coldLoads + warmRuns
  ensure (needed ≤ latencyOrder.length)
    (.sequence (pyStr s!"development has {latencyOrder.length} cases, needs {needed}"))
  let latencyIds := latencyOrder.map CaseRef.caseId
  let labelledHoldout := holdout.filter CaseRef.labelled
  return {
    probe := ← stratified (pyStr "probe") labelledDev probeCases
    warmup := latencyIds.take warmupCases
    cold := (latencyIds.drop warmupCases).take coldLoads
    warm := (latencyIds.drop (warmupCases + coldLoads)).take warmRuns
    holdoutLabelled := (labelledHoldout.map CaseRef.caseId).insertionSort (· ≤ ·)
    stability := ← stratified (pyStr "stability") labelledHoldout stabilityCases
    holdoutSealed :=
      ((holdout.filter (!·.labelled)).map CaseRef.caseId).insertionSort (· ≤ ·) }

/-! ## Steps and keys -/

/-- One call of the sequence. -/
structure Step where
  block : Block
  model : PyStr
  caseId : PyStr
  repetition : ℕ
  deriving DecidableEq, Repr

/-- The key of a call, with the digest of its model. -/
def Step.key (step : Step) (digest : PyStr) : CallKey :=
  (step.block.value, step.model, digest, step.caseId, step.repetition)

/-- `_candidate_steps`. -/
def candidateSteps (model : PyStr) (lists : FixedLists) : List Step :=
  lists.cold.map (⟨.cold, model, ·, 1⟩) ++ lists.warm.map (⟨.warm, model, ·, 1⟩) ++
    lists.holdoutLabelled.map (⟨.holdout, model, ·, 1⟩) ++
    (List.range' 1 stabilityRepeats).flatMap fun repetition =>
      lists.stability.map (⟨.stability, model, ·, repetition⟩)

/-- `_probe_steps`. -/
def probeSteps (model : PyStr) (lists : FixedLists) : List Step :=
  lists.probe.map (⟨.probe, model, ·, 1⟩)

/-! ## Probe statistics and the selection rule -/

/-- What the probe saw of one call. -/
structure ProbeObservation where
  caseId : PyStr
  outcome : PyStr
  schemaValid : Bool
  wallSeconds : Option Double
  modelMemoryBytes : Option ℤ

/-- `math.floor` of a finite double. -/
def floorOf (number : Double) : ℤ :=
  if number.isNegative then -(number.ratio.1 : ℤ) / number.ratio.2
  else (number.ratio.1 : ℤ) / number.ratio.2

/-- `math.ceil` of a finite double. -/
def ceilOf (number : Double) : ℤ :=
  if number.isNegative then -((number.ratio.1 : ℤ) / number.ratio.2)
  else -(-(number.ratio.1 : ℤ) / number.ratio.2)

/-- `math.floor` and `math.ceil` raise of what is not finite. -/
def rounded (rounding : Double → ℤ) (number : Double) : Except SequenceFailure ℤ := do
  ensure (PyFloat.isFinite number = true)
    (.number (if PyFloat.eq number number then .overflow else .domain))
  return rounding number

/-- `items[index]`, where a negative index counts from the end. -/
def itemAt {α : Type} (items : List α) (index : ℤ) : Except SequenceFailure α :=
  let place := if index < 0 then index + items.length else index
  require .index (if 0 ≤ place then items[place.toNat]? else none)

/-- `percentile`: linear between the ranks. -/
def percentile (values : List Double) (fraction : Double) : Except SequenceFailure Double := do
  ensure (values ≠ []) (.sequence (pyStr "percentile of nothing"))
  let ordered := values.insertionSort fun first second => ¬ PyFloat.lt second first
  let last ← (PyFloat.ofInt ((ordered.length : ℤ) - 1)).mapError .number
  let position := last * fraction
  let low ← rounded floorOf position
  let high ← rounded ceilOf position
  let lower ← itemAt ordered low
  let upper ← itemAt ordered high
  let lowest ← (PyFloat.ofInt low).mapError .number
  return lower + (upper - lower) * (position - lowest)

/-- The probe of one model in numbers. -/
structure ProbeStats where
  model : PyStr
  calls : ℕ
  schemaValid : ℕ
  p95Seconds : Option Double
  peakModelMemoryBytes : Option ℤ
  disqualified : List PyStr

/-- No limit disqualifies the model. -/
def ProbeStats.passesLimits (stats : ProbeStats) : Bool := stats.disqualified.isEmpty

/-- The time at 95 percent where every call was timed, and what speaks against it. -/
def latency (observations : List ProbeObservation) :
    Except SequenceFailure (Option Double × List PyStr) :=
  match observations.mapM ProbeObservation.wallSeconds with
  | none | some [] => .ok (none, [pyStr "latency_not_measured"])
  | some times => do
    let p95 ← percentile times 0.95
    return (some p95, if PyFloat.lt p95LimitSeconds p95 then [pyStr "p95_above_limit"] else [])

/-- `probe_stats`. -/
def probeStats (model : PyStr) (observations : List ProbeObservation) :
    Except SequenceFailure ProbeStats := do
  let outcomes := observations.map ProbeObservation.outcome
  let memory := if pyStr "oom" ∈ outcomes then [pyStr "oom"] else []
  let reserve :=
    if pyStr "resource_reserve_breached" ∈ outcomes ∨ pyStr "resources_unreported" ∈ outcomes then
      [pyStr "reserve_not_respected"]
    else []
  let (p95, late) ← latency observations
  return {
    model
    calls := observations.length
    schemaValid := observations.countP ProbeObservation.schemaValid
    p95Seconds := p95
    peakModelMemoryBytes :=
      (observations.mapM ProbeObservation.modelMemoryBytes).bind fun memories => memories.max?
    disqualified := memory ++ reserve ++ late }

/-- The candidates and the numbers they were selected by. -/
structure Selection where
  candidates : List PyStr
  stats : List ProbeStats

/-- `rank(first) < rank(second)`: the tuples are compared at the first place where they differ,
and a time that was not measured is infinite. -/
def ranksBefore (first second : ProbeStats) : Bool :=
  let p95 (item : ProbeStats) : Double := item.p95Seconds.getD (Double.ofConstant .infinity)
  let rest (item : ProbeStats) : ℕ ×ₗ ℤ ×ₗ PyStr :=
    toLex (if item.peakModelMemoryBytes.isNone then 1 else 0,
      toLex (item.peakModelMemoryBytes.getD 0, item.model))
  if first.schemaValid ≠ second.schemaValid then second.schemaValid < first.schemaValid
  else if PyFloat.eq (p95 first) (p95 second) then rest first < rest second
  else PyFloat.lt (p95 first) (p95 second)

/-- `select_candidates`: the baseline and the best of the others. -/
def selectCandidates (stats : List ProbeStats) : Selection :=
  let others := stats.filter fun item => item.model ≠ baselineModel ∧ item.passesLimits
  let best := (others.insertionSort fun first second => ¬ ranksBefore second first).take 1
  { candidates := baselineModel :: best.map ProbeStats.model, stats }

/-! ## The sequence -/

/-- What a plan is made from: the fixed lists, the installed models and the calls done. -/
structure SequenceState where
  lists : FixedLists
  digests : Dict PyStr PyStr
  done : List CallKey
  probeObservations : Dict PyStr (List ProbeObservation)
  includeOptional : Bool

/-- How far the calls of a model in a block are. -/
structure GroupProgress where
  block : PyStr
  model : PyStr
  done : ℕ
  total : ℕ
  deriving DecidableEq, Repr

/-- What `plan` returns. -/
structure Progress where
  nextStep : Option Step
  selection : Option Selection
  groups : List GroupProgress
  notes : List PyStr

/-- The model has a digest. -/
def isInstalled (digests : Dict PyStr PyStr) (model : PyStr) : Bool := (digests.get? model).isSome

/-- `_is_done`. -/
def isDone (state : SequenceState) (step : Step) : Except SequenceFailure Bool := do
  let digest ← require .key (state.digests.get? step.model)
  return step.key digest ∈ state.done

/-- `_stats_for`. -/
def statsFor (state : SequenceState) (model : PyStr) : Except SequenceFailure ProbeStats :=
  probeStats model ((state.probeObservations.get? model).getD [])

/-- What the visits of `plan` have found so far: the groups, and the first step not done. -/
structure Visited where
  groups : List GroupProgress
  first : Option Step

/-- The first step that is not done. -/
def firstPending (state : SequenceState) : List Step → Except SequenceFailure (Option Step)
  | [] => .ok none
  | step :: rest => do
    if ← isDone state step then firstPending state rest else return some step

/-- The first step not done, where an earlier group has none. -/
def firstAfter (state : SequenceState) (steps : List Step) :
    Option Step → Except SequenceFailure (Option Step)
  | some step => .ok (some step)
  | none => firstPending state steps

/-- `visit`: whether every step of the group is done. -/
def visit (state : SequenceState) (steps : List Step) (seen : Visited) :
    Except SequenceFailure (Bool × Visited) :=
  match steps with
  | [] => .ok (true, seen)
  | head :: _ => do
    let done ← select (isDone state) steps
    let group := { block := head.block.value, model := head.model, done := done.length, total := steps.length }
    let first ← firstAfter state steps seen.first
    return (done.length = steps.length, ⟨seen.groups ++ [group], first⟩)

/-- The groups are visited in their order, also after one that is not complete. -/
def visitAll (state : SequenceState) : List (List Step) → Visited →
    Except SequenceFailure (Bool × Visited)
  | [], seen => .ok (true, seen)
  | steps :: rest, seen => do
    let (complete, seen) ← visit state steps seen
    let (restComplete, seen) ← visitAll state rest seen
    return (complete && restComplete, seen)

/-- The part of `plan` about the candidates. -/
def planCandidates (state : SequenceState) (probed : List PyStr) (complete : Bool) (seen : Visited) :
    Except SequenceFailure (Option Selection × Visited × List PyStr) :=
  if complete then do
    let stats ← probed.mapM (statsFor state)
    let selection := selectCandidates stats
    let (_, seen) ← visitAll state (selection.candidates.map (candidateSteps · state.lists)) seen
    return (some selection, seen, [])
  else
    .ok (none, seen,
      [pyStr "selection pending: the probe of every installed probe model must complete first"])

/-- The candidate steps of the optional model, where it passes the limits. -/
def planPassed (state : SequenceState) (stats : ProbeStats) (seen : Visited) :
    Except SequenceFailure (Visited × List PyStr) :=
  if stats.passesLimits then do
    let (_, seen) ← visit state (candidateSteps optionalModel state.lists) seen
    return (seen, [])
  else
    .ok (seen, [optionalModel ++ pyStr " fails the profile limits: " ++
      JsonText.joined (pyStr ", ") stats.disqualified])

/-- The part of `plan` about the optional model. -/
def planOptional (state : SequenceState) (seen : Visited) :
    Except SequenceFailure (Visited × List PyStr) :=
  if ¬ state.includeOptional then .ok (seen, [])
  else if ¬ isInstalled state.digests optionalModel then
    .ok (seen, [optionalModel ++ pyStr " not installed: optional step skipped"])
  else if seen.first.isSome then
    .ok (seen, [optionalModel ++ pyStr " waits until every mandatory step is complete"])
  else do
    let (complete, seen) ← visit state (probeSteps optionalModel state.lists) seen
    if complete then
      let stats ← statsFor state optionalModel
      planPassed state stats seen
    else return (seen, [])

/-- `plan`. -/
def plan (state : SequenceState) : Except SequenceFailure Progress := do
  ensure (isInstalled state.digests baselineModel)
    (.sequence (baselineModel ++ pyStr " is not installed: the benchmark cannot run"))
  let probed := probeModels.filter (isInstalled state.digests)
  let missing := (probeModels.filter (!isInstalled state.digests ·)).map
    (· ++ pyStr " not installed: not probed")
  let (complete, seen) ← visitAll state (probed.map (probeSteps · state.lists)) ⟨[], none⟩
  let (selection, seen, pending) ← planCandidates state probed complete seen
  let (seen, optional) ← planOptional state seen
  return ⟨seen.first, selection, seen.groups, missing ++ pending ++ optional⟩

/-- `next_warmup_repetition`: after those the model has had. -/
def nextWarmupRepetition (done : List CallKey) (model digest : PyStr) : ℤ :=
  let used := (done.filter fun key =>
    key.1 = Block.warmup.value ∧ key.2.1 = model ∧ key.2.2.1 = digest).map fun key => key.2.2.2.2
  used.max?.getD 0 + 1

/-! ## The results file -/

/-- An object of a line. -/
abbrev Record : Type := Dict PyStr (Json Double)

/-- `record.get(name)`. -/
def Record.field (record : Record) (name : String) : Json Double :=
  (record.get? (pyStr name)).getD .null

/-- The record is one of a call. -/
def isCall (record : Record) : Bool := (Record.field record "record_type").equalsStr (pyStr "call")

/-- `call_key`. -/
def callKey (record : Record) : Except SequenceFailure CallKey :=
  match Record.field record "key" with
  | .object key =>
      match Record.field key "block", Record.field key "model", Record.field key "digest",
        Record.field key "case_id", Record.field key "repetition" with
      | .str block, .str model, .str digest, .str caseId, .int repetition =>
          .ok (block, model, digest, caseId, repetition)
      | _, _, _, _, _ => .error (.corrupt .malformedKey)
  | _ => .error (.corrupt .noKey)

/-- A record is read by `done_keys`. -/
def addKey (seen : List CallKey) (record : Record) : Except SequenceFailure (List CallKey) :=
  if isCall record then do
    let key ← callKey record
    ensure (key ∉ seen) (.corrupt (.duplicateKey key))
    return seen ++ [key]
  else .ok seen

/-- `done_keys`. -/
def doneKeys (records : List Record) : Except SequenceFailure (List CallKey) :=
  records.foldlM addKey []

/-- `_optional_float`. -/
def optionalFloat : Json Double → Except SequenceFailure (Option Double)
  | .int number => do
    let value ← (PyFloat.ofInt number).mapError .number
    return if PyFloat.isFinite value then some value else none
  | .float value => .ok (if PyFloat.isFinite value then some value else none)
  | _ => .ok none

/-- `_optional_int`. -/
def optionalInt : Json Double → Option ℤ
  | .int number => if 0 ≤ number then some number else none
  | _ => none

/-- A field that is a mapping, or an empty one. -/
def Record.mapping (record : Record) (name : String) : Record :=
  match Record.field record name with
  | .object members => members
  | _ => []

/-- The probe observation of a record. -/
def observationOf (caseId : PyStr) (record : Record) : Except SequenceFailure ProbeObservation := do
  let harness := Record.mapping record "harness"
  let wallSeconds ← optionalFloat (Record.field (Record.mapping record "timing") "wall_seconds")
  return {
    caseId
    outcome := (Record.field harness "outcome").str?.getD (pyStr "unknown")
    schemaValid := match Record.field harness "first_pass_schema_valid" with
      | .bool true => true
      | _ => false
    wallSeconds
    modelMemoryBytes := optionalInt (Record.field (Record.mapping record "resources") "ollama_ps_size_bytes") }

/-- A record is read by `probe_observations`. -/
def addObservation (digests : Dict PyStr PyStr) (found : Dict PyStr (List ProbeObservation))
    (record : Record) : Except SequenceFailure (Dict PyStr (List ProbeObservation)) :=
  if isCall record then do
    let (block, model, digest, caseId, _) ← callKey record
    if block ≠ Block.probe.value ∨ digests.get? model ≠ some digest then
      return found
    else
      let observation ← observationOf caseId record
      return found.assign model ((found.get? model).getD [] ++ [observation])
  else .ok found

/-- `probe_observations`. -/
def probeObservations (records : List Record) (digests : Dict PyStr PyStr) :
    Except SequenceFailure (Dict PyStr (List ProbeObservation)) := do
  let found ← records.foldlM (addObservation digests) []
  return found.map fun (model, items) =>
    (model, items.insertionSort fun first second => first.caseId ≤ second.caseId)

/-- The state that the runner makes of the results file before every call. -/
def stateOf (lists : FixedLists) (digests : Dict PyStr PyStr) (includeOptional : Bool)
    (records : List Record) : Except SequenceFailure SequenceState := do
  let done ← doneKeys records
  return {
    lists, digests, done
    probeObservations := ← probeObservations records digests
    includeOptional }

end CryptoRadar.Benchmark
