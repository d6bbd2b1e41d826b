import CryptoRadar.Benchmark.Plan
import CryptoRadar.Lib.Sorting

/-!
# Runs of the sequence

The runner makes the state from the results file before every call, plans, and appends the record
of the call (`Run`). Between two calls the file may get records that are no progress: those of
warm-up calls, of invocations that end and of marks of a line that was cut short. So an
interruption is anywhere between two calls, and the invocation that resumes reads the same file.

Whatever the calls observe, the file records a first part of the one order, and the next step is
the one that follows it (`sequence_runs_in_one_order`). The records of one file have distinct keys,
so `done_keys` never refuses it (`Kept.aside`, `Kept.call`).
-/

set_option autoImplicit false

namespace CryptoRadar.Benchmark

open Checked
open Experiments (utf8Char)

/-! ## Keys -/

theorem Block.value_injective : Function.Injective Block.value := by
  intro first second same
  cases first <;> cases second <;> first
    | rfl
    | exact absurd (pyStr_injective same) (by decide)

theorem Step.key_injective {first second : Step} {digest other : PyStr}
    (same : first.key digest = second.key other) : first = second := by
  obtain ⟨block, model, caseId, repetition⟩ := first
  obtain ⟨block', model', caseId', repetition'⟩ := second
  simp only [Step.key, Prod.mk.injEq, Int.natCast_inj] at same
  obtain ⟨sameBlock, rfl, _, rfl, rfl⟩ := same
  rw [Block.value_injective sameBlock]

/-- A warm-up call takes a repetition that no recorded warm-up of the model has. -/
theorem nextWarmupRepetition_fresh (done : List CallKey) (model digest caseId : PyStr) :
    (Block.warmup.value, model, digest, caseId, nextWarmupRepetition done model digest) ∉ done := by
  intro member
  have used : nextWarmupRepetition done model digest ∈ (done.filter fun key =>
      key.1 = Block.warmup.value ∧ key.2.1 = model ∧ key.2.2.1 = digest).map fun key =>
        key.2.2.2.2 := by
    refine List.mem_map.mpr ⟨_, List.mem_filter.mpr ⟨member, ?_⟩, rfl⟩
    simp
  generalize isNext : nextWarmupRepetition done model digest = next at used
  rw [nextWarmupRepetition] at isNext
  obtain ⟨largest, isLargest⟩ := Option.isSome_iff_exists.mp
    (List.isSome_max?_of_mem used)
  have bound := (List.max?_eq_some_iff.mp isLargest).2 _ used
  simp only [isLargest, Option.getD_some] at isNext
  omega

/-! ## Runs -/

/-- The records of the calls, one for each step: a call that is read as such, with the key of the
step and an observation. -/
structure Outcomes (digests : Dict PyStr PyStr) where
  record : Step → Record
  observation : Step → ProbeObservation
  called : ∀ (step : Step) (digest : PyStr), digests.get? step.model = some digest →
    isCall (record step) = true ∧ callKey (record step) = .ok (step.key digest)
  observed : ∀ step, observationOf step.caseId (record step) = .ok (observation step)

/-- A record that is no progress: not of a call, or of a warm-up with the next free repetition. -/
inductive Aside (digests : Dict PyStr PyStr) (done : List CallKey) (record : Record) : Prop where
  | other (noCall : isCall record = false)
  | warmup (model digest caseId : PyStr) (installed : digests.get? model = some digest)
      (isCalled : isCall record = true)
      (isKey : callKey record = .ok (Block.warmup.value, model, digest, caseId,
        nextWarmupRepetition done model digest))

/-- The file holds the records, and the steps were called for it in this order. -/
inductive Run (setup : Setup) (outcomes : Outcomes setup.digests) :
    List Record → List Step → Prop where
  | start : Run setup outcomes [] []
  | aside {records : List Record} {steps : List Step} {done : List CallKey} {record : Record}
      (run : Run setup outcomes records steps) (isDone : doneKeys records = .ok done)
      (noProgress : Aside setup.digests done record) :
      Run setup outcomes (records ++ [record]) steps
  | call {records : List Record} {steps : List Step} {state : SequenceState} {progress : Progress}
      {step : Step} (run : Run setup outcomes records steps)
      (isState : stateOf setup.lists setup.digests setup.includeOptional records = .ok state)
      (planned : plan state = .ok progress) (next : progress.nextStep = some step) :
      Run setup outcomes (records ++ [outcomes.record step]) (steps ++ [step])

/-! ## What a file keeps -/

section Kept

variable {setup : Setup} {outcomes : Outcomes setup.digests}

def Step.probes (model : PyStr) (step : Step) : Bool := step.block = .probe ∧ step.model = model

/-- What the records of a file say: they are of the steps, in whatever order, and of warm-ups. -/
structure Kept (setup : Setup) (outcomes : Outcomes setup.digests) (records : List Record)
    (steps : List Step) (done : List CallKey) (found : Dict PyStr (List ProbeObservation)) : Prop where
  keys : records.foldlM addKey [] = .ok done
  done : ∀ (step : Step) (digest : PyStr), setup.digests.get? step.model = some digest →
    step.block ≠ .warmup → (step.key digest ∈ done ↔ step ∈ steps)
  observations : records.foldlM (addObservation setup.digests) [] = .ok found
  found : ∀ model, isInstalled setup.digests model →
    (found.get? model).getD [] = (steps.filter (Step.probes model)).map outcomes.observation

variable {records : List Record} {steps : List Step} {done : List CallKey}
  {found : Dict PyStr (List ProbeObservation)}

theorem Kept.start : Kept setup outcomes [] [] [] [] where
  keys := rfl
  done := by simp
  observations := rfl
  found := by simp [Dict.get?]

/-- A record that is no progress changes nothing that the file says of the steps. -/
theorem Kept.aside (kept : Kept setup outcomes records steps done found) {record : Record}
    (noProgress : Aside setup.digests done record) :
    ∃ keys, Kept setup outcomes (records ++ [record]) steps keys found := by
  cases noProgress with
  | other noCall =>
      refine ⟨done, foldlM_concat kept.keys ?_, kept.done, foldlM_concat kept.observations ?_, kept.found⟩
      · rw [addKey, noCall]
        rfl
      · rw [addObservation, noCall]
        rfl
  | warmup model digest caseId installed isCalled isKey =>
      have fresh := nextWarmupRepetition_fresh done model digest caseId
      refine ⟨done ++ [(Block.warmup.value, model, digest, caseId, nextWarmupRepetition done model digest)],
        foldlM_concat kept.keys ?_, ?_, foldlM_concat kept.observations ?_, kept.found⟩
      · rw [addKey, isCalled]
        exact bind_eq_ok.mpr ⟨_, isKey, bind_eq_ok.mpr ⟨(), ensure_of fresh, rfl⟩⟩
      · intro step stepDigest isDigest notWarmup
        rw [List.mem_append, kept.done step stepDigest isDigest notWarmup, List.mem_singleton]
        refine or_iff_left fun same => notWarmup ?_
        exact Block.value_injective (congrArg Prod.fst same)
      · rw [addObservation, isCalled]
        refine bind_eq_ok.mpr ⟨_, isKey, ?_⟩
        have notProbe : Block.warmup.value ≠ Block.probe.value :=
          fun same => absurd (Block.value_injective same) nofun
        exact if_pos (.inl notProbe)

/-- A call of a step that is not yet among the steps adds it. -/
theorem Kept.call (kept : Kept setup outcomes records steps done found) {step : Step}
    (installed : isInstalled setup.digests step.model) (notWarmup : step.block ≠ .warmup)
    (pending : step ∉ steps) :
    ∃ keys after, Kept setup outcomes (records ++ [outcomes.record step]) (steps ++ [step]) keys after := by
  obtain ⟨digest, isDigest⟩ := Option.isSome_iff_exists.mp installed
  obtain ⟨isCalled, isKey⟩ := outcomes.called step digest isDigest
  have fresh : step.key digest ∉ done := fun member =>
    pending ((kept.done step digest isDigest notWarmup).mp member)
  have keys : addKey done (outcomes.record step) = .ok (done ++ [step.key digest]) := by
    rw [addKey, isCalled]
    exact bind_eq_ok.mpr ⟨_, isKey, bind_eq_ok.mpr ⟨(), ensure_of fresh, rfl⟩⟩
  have among : ∀ (other : Step) (otherDigest : PyStr),
      setup.digests.get? other.model = some otherDigest → other.block ≠ .warmup →
        (other.key otherDigest ∈ done ++ [step.key digest] ↔ other ∈ steps ++ [step]) := by
    intro other otherDigest isOther notWarmup
    rw [List.mem_append, List.mem_append, kept.done other otherDigest isOther notWarmup,
      List.mem_singleton, List.mem_singleton]
    refine or_congr_right ⟨Step.key_injective, ?_⟩
    rintro rfl
    rw [Option.some.inj (isOther.symm.trans isDigest)]
  by_cases isProbe : step.block = .probe
  · refine ⟨_, found.assign step.model ((found.get? step.model).getD [] ++ [outcomes.observation step]),
      foldlM_concat kept.keys keys, among, foldlM_concat kept.observations ?_, ?_⟩
    · rw [addObservation, isCalled]
      refine bind_eq_ok.mpr ⟨_, isKey, ?_⟩
      have notOther : ¬ (step.block.value ≠ Block.probe.value ∨
          setup.digests.get? step.model ≠ some digest) := by
        rw [isProbe, isDigest]
        simp
      exact (if_neg notOther).trans (bind_eq_ok.mpr ⟨_, outcomes.observed step, rfl⟩)
    · intro model isModel
      rw [Dict.get?_assign, List.filter_append, List.map_append]
      by_cases same : step.model = model
      · have isOne : Step.probes model step = true := by simp [Step.probes, isProbe, same]
        rw [if_pos same, List.filter_cons_of_pos isOne, same, kept.found model isModel]
        rfl
      · have isNone : ¬ Step.probes model step = true := by simp [Step.probes, same]
        rw [if_neg same, List.filter_cons_of_neg isNone, kept.found model isModel]
        simp
  · refine ⟨_, found, foldlM_concat kept.keys keys, among, foldlM_concat kept.observations ?_, ?_⟩
    · rw [addObservation, isCalled]
      refine bind_eq_ok.mpr ⟨_, isKey, ?_⟩
      exact if_pos (.inl fun same => isProbe (Block.value_injective same))
    · intro model isModel
      have isNone : ¬ Step.probes model step = true := by simp [Step.probes, isProbe]
      rw [List.filter_append, List.filter_cons_of_neg isNone, List.filter_nil, List.append_nil]
      exact kept.found model isModel

theorem Outcomes.observation_caseId (outcomes : Outcomes setup.digests) (step : Step) :
    (outcomes.observation step).caseId = step.caseId := by
  obtain ⟨seconds, _, same⟩ := bind_eq_ok.mp (outcomes.observed step)
  rw [← Except.ok.inj same]

/-- The observations of a probe that is done are those of its steps, sorted by the case. -/
theorem Kept.sorted (kept : Kept setup outcomes records steps done found) (distinct : steps.Nodup)
    (made : ∀ step ∈ steps, step ∈ probeSteps step.model setup.lists ∨
      step ∈ candidateSteps step.model setup.lists) {model : PyStr}
    (installed : isInstalled setup.digests model)
    (all : ∀ step ∈ probeSteps model setup.lists, step ∈ steps) :
    ((found.get? model).getD []).insertionSort (fun first second => first.caseId ≤ second.caseId) =
      setup.observations outcomes.observation model := by
  have order : (steps.filter (Step.probes model)).Perm (probeSteps model setup.lists) := by
    refine (List.perm_ext_iff_of_nodup (distinct.filter _)
      (probeSteps_nodup setup.separate model)).mpr fun step => ?_
    rw [List.mem_filter, Step.probes, decide_eq_true_eq]
    constructor
    · rintro ⟨member, isProbe, rfl⟩
      refine (made step member).resolve_right fun candidate => ?_
      exact (candidateSteps_spec candidate).1 isProbe
    · intro member
      obtain ⟨isProbe, isModel, _⟩ := probeSteps_spec member
      exact ⟨all step member, isProbe, isModel⟩
  have caseIds : ((setup.observations outcomes.observation model).map ProbeObservation.caseId) =
      setup.lists.probe := by
    rw [Setup.observations, probeSteps, List.map_map, List.map_map]
    exact List.map_id'' (fun caseId => outcomes.observation_caseId _) _
  have sameOrder := Sorting.insertionSort_eq_of_perm ProbeObservation.caseId
    (caseIds ▸ setup.separate.probe) (order.map outcomes.observation).symm
  have sorted := List.pairwise_map.mp (caseIds ▸ setup.separate.probeSorted)
  rw [kept.found model installed, ← sameOrder]
  exact sorted.insertionSort_eq

end Kept

/-! ## Every run -/

section Runs

variable {setup : Setup} {outcomes : Outcomes setup.digests} {selection : Selection}
  {extra : List Step}

/-- A file that records a first part of the order makes a state that has recorded it. -/
theorem Kept.recorded {records : List Record} {steps : List Step} {done : List CallKey}
    {found : Dict PyStr (List ProbeObservation)}
    (kept : Kept setup outcomes records steps done found)
    (selected : setup.selection outcomes.observation = .ok selection)
    (isOptional : setup.optional outcomes.observation = .ok extra)
    (isFirst : steps <+: setup.mandatory selection ++ extra) :
    ∃ state, stateOf setup.lists setup.digests setup.includeOptional records = .ok state ∧
      setup.Recorded outcomes.observation steps state := by
  refine ⟨_, bind_eq_ok.mpr ⟨done, kept.keys, bind_eq_ok.mpr ⟨_, bind_eq_ok.mpr
    ⟨found, kept.observations, rfl⟩, rfl⟩⟩, rfl, rfl, rfl, ?_, ?_⟩
  · intro step installed notWarmup
    obtain ⟨digest, isDigest⟩ := Option.isSome_iff_exists.mp installed
    refine bind_eq_ok.mpr ⟨digest, by rw [isDigest]; rfl, ?_⟩
    exact congrArg Except.ok (decide_eq_decide.mpr (kept.done step digest isDigest notWarmup))
  · intro model installed all
    rw [← kept.sorted ((Setup.order_nodup selected isOptional).sublist isFirst.sublist)
      (fun step member => (Setup.order_spec selected isOptional (isFirst.subset member)).2) installed all]
    rw [Dict.get?_mapValues]
    cases found.get? model <;> rfl

theorem Run.kept (selected : setup.selection outcomes.observation = .ok selection)
    (isOptional : setup.optional outcomes.observation = .ok extra) {records : List Record}
    {steps : List Step} (run : Run setup outcomes records steps) :
    steps <+: setup.mandatory selection ++ extra ∧
      ∃ done found, Kept setup outcomes records steps done found := by
  induction run with
  | start => exact ⟨List.nil_prefix, [], [], .start⟩
  | aside run isDone noProgress hyp =>
      obtain ⟨isFirst, done, found, kept⟩ := hyp
      obtain rfl := Except.ok.inj (isDone.symm.trans kept.keys)
      obtain ⟨keys, keptAfter⟩ := kept.aside noProgress
      exact ⟨isFirst, keys, found, keptAfter⟩
  | @call records steps state progress step run isState planned next hyp =>
      obtain ⟨isFirst, done, found, kept⟩ := hyp
      obtain ⟨state', isState', recorded⟩ := kept.recorded selected isOptional isFirst
      obtain rfl := Except.ok.inj (isState.symm.trans isState')
      obtain ⟨progress', planned', isNext, _⟩ := recorded.plan_eq selected isOptional
      obtain rfl := Except.ok.inj (planned.symm.trans planned')
      rw [next] at isNext
      have pending : step ∉ steps := by simpa using List.find?_some isNext.symm
      have member := List.mem_of_find?_eq_some isNext.symm
      rw [find?_notMem_of_initial (Setup.order_nodup selected isOptional) isFirst] at isNext
      obtain ⟨keys, after, keptAfter⟩ := kept.call
        (Setup.order_spec selected isOptional member).1 (Setup.order_block selected isOptional member) pending
      refine ⟨?_, keys, after, keptAfter⟩
      obtain ⟨rest, split⟩ := isFirst
      rw [← split, List.getElem?_append_right le_rfl, Nat.sub_self] at isNext
      cases rest with
      | nil => cases isNext
      | cons head rest =>
          obtain rfl := Option.some.inj isNext
          exact ⟨rest, by rw [List.append_assoc, List.singleton_append, split]⟩

/-- What the plan of the file of a run says. -/
theorem Run.planned (selected : setup.selection outcomes.observation = .ok selection)
    (isOptional : setup.optional outcomes.observation = .ok extra) {records : List Record}
    {steps : List Step} (run : Run setup outcomes records steps) :
    ∃ state progress,
      stateOf setup.lists setup.digests setup.includeOptional records = .ok state ∧
        plan state = .ok progress ∧
        progress.nextStep = (setup.mandatory selection ++ extra)[steps.length]? ∧
        progress.selection = if setup.probes.length ≤ steps.length then some selection else none := by
  obtain ⟨isFirst, done, found, kept⟩ := run.kept selected isOptional
  obtain ⟨state, isState, recorded⟩ := kept.recorded selected isOptional isFirst
  obtain ⟨progress, planned, isNext, isSelection⟩ := recorded.plan_eq selected isOptional
  rw [find?_notMem_of_initial (Setup.order_nodup selected isOptional) isFirst] at isNext
  refine ⟨state, progress, isState, planned, isNext, isSelection.trans (if_congr ?_ rfl rfl)⟩
  -- The probes are the first steps of the order.
  have probesFirst : setup.probes <+: setup.mandatory selection ++ extra :=
    ⟨_, (List.append_assoc setup.probes _ extra).symm⟩
  have probesNodup := (Setup.order_nodup selected isOptional).sublist probesFirst.sublist
  constructor
  · intro all
    exact (List.subperm_of_subset probesNodup all).length_le
  · intro long step member
    exact (List.prefix_of_prefix_length_le probesFirst isFirst long).subset member

/-- Every run can be completed. -/
theorem Run.completes (selected : setup.selection outcomes.observation = .ok selection)
    (isOptional : setup.optional outcomes.observation = .ok extra) {records : List Record}
    {steps : List Step} (run : Run setup outcomes records steps) :
    ∃ later, Run setup outcomes (records ++ later) (setup.mandatory selection ++ extra) := by
  obtain ⟨rest, split⟩ := (run.kept selected isOptional).1
  induction rest generalizing records steps with
  | nil =>
      rw [List.append_nil] at split
      exact ⟨[], by rw [List.append_nil, ← split]; exact run⟩
  | cons step rest hyp =>
      obtain ⟨state, progress, isState, planned, isNext, _⟩ := run.planned selected isOptional
      rw [← split, List.getElem?_append_right le_rfl, Nat.sub_self] at isNext
      obtain ⟨later, completed⟩ := hyp (.call run isState planned isNext)
        (by rw [List.append_assoc, List.singleton_append, split])
      exact ⟨outcomes.record step :: later, by
        rw [List.append_assoc, List.singleton_append] at completed; exact completed⟩

end Runs

/-- The setup of a corpus that `build_fixed_lists` accepts. -/
def Setup.ofCorpus {development holdout : List CaseRef} {lists : FixedLists}
    (built : buildFixedLists development holdout = .ok lists) (digests : Dict PyStr PyStr)
    (includeOptional : Bool) (baseline : isInstalled digests baselineModel) : Setup where
  lists
  digests
  includeOptional
  separate := buildFixedLists_separate built
  baseline

/-- **The sequence runs in one order.** For every accepted corpus, installed models and outcomes of
the calls there is one order of steps, the mandatory ones and then those of the optional model, with
distinct keys and without a sealed case. However a run is interrupted, its steps are a first part of
that order, its next step is the one that follows, and its selection is the same from where the
probes end. -/
theorem sequence_runs_in_one_order {development holdout : List CaseRef} {lists : FixedLists}
    (built : buildFixedLists development holdout = .ok lists) (digests : Dict PyStr PyStr)
    (includeOptional : Bool) (baseline : isInstalled digests baselineModel)
    (outcomes : Outcomes digests) :
    ∃ (selection : Selection) (mandatory extra : List Step),
      ((mandatory ++ extra).map fun step => (digests.get? step.model).map step.key).Nodup ∧
      (∀ step ∈ mandatory ++ extra, isInstalled digests step.model ∧
        step.caseId ∉ lists.holdoutSealed) ∧
      (∀ caseId ∈ lists.warmup, caseId ∉ lists.holdoutSealed) ∧
      ∀ {records : List Record} {steps : List Step},
        Run (.ofCorpus built digests includeOptional baseline) outcomes records steps →
          steps <+: mandatory ++ extra ∧
          (∃ later, Run (.ofCorpus built digests includeOptional baseline) outcomes
            (records ++ later) (mandatory ++ extra)) ∧
          ∃ state progress, stateOf lists digests includeOptional records = .ok state ∧
            plan state = .ok progress ∧
            progress.nextStep = (mandatory ++ extra)[steps.length]? ∧
            (progress.selection = if (Setup.ofCorpus built digests includeOptional
              baseline).probes.length ≤ steps.length then some selection else none) ∧
            ∀ step, progress.nextStep = some step → step.model = optionalModel →
              mandatory <+: steps := by
  obtain ⟨selection, selected⟩ := Setup.selection_isOk (.ofCorpus built digests includeOptional baseline)
    outcomes.observation
  obtain ⟨extra, isOptional⟩ := Setup.optional_isOk (.ofCorpus built digests includeOptional baseline)
    outcomes.observation
  refine ⟨selection, (Setup.ofCorpus built digests includeOptional baseline).mandatory selection,
    extra, ?_, ?_, ?_, ?_⟩
  · refine (Setup.order_nodup selected isOptional).map_on ?_
    intro first isFirst second isSecond same
    obtain ⟨digest, isDigest⟩ := Option.isSome_iff_exists.mp
      (Setup.order_spec selected isOptional isFirst).1
    obtain ⟨other, isOther⟩ := Option.isSome_iff_exists.mp
      (Setup.order_spec selected isOptional isSecond).1
    change (digests.get? first.model).map first.key = (digests.get? second.model).map second.key at same
    change digests.get? first.model = some digest at isDigest
    change digests.get? second.model = some other at isOther
    rw [isDigest, isOther] at same
    exact Step.key_injective (Option.some.inj same)
  · intro step member
    exact ⟨(Setup.order_spec selected isOptional member).1,
      Setup.order_unsealed selected isOptional member⟩
  · intro caseId member
    refine (buildFixedLists_separate built).unsealed caseId ?_
    simp only [List.mem_append]
    tauto
  · intro records steps run
    have isFirst := (run.kept selected isOptional).1
    obtain ⟨state, progress, isState, planned, isNext, isSelection⟩ := run.planned selected isOptional
    refine ⟨isFirst, run.completes selected isOptional, state, progress, isState, planned, isNext,
      isSelection, ?_⟩
    intro step next isModel
    refine List.prefix_of_prefix_length_le (List.prefix_append _ extra) isFirst (not_lt.mp fun early => ?_)
    rw [isNext, List.getElem?_append_left early] at next
    exact Setup.mandatory_model selected (List.mem_of_getElem? next) isModel

/-! ## A corpus of one category -/

section Sample

def sampleCase (partition : String) (letter : ℕ) : CaseRef :=
  ⟨[letter], [letter], pyStr partition, pyStr "c", true⟩

def sampleDevelopment : List CaseRef := (List.range 40).map (sampleCase "development")

def sampleHoldout : List CaseRef := (List.range' 40 20).map (sampleCase "holdout")

theorem orderKey_isOk {listName : PyStr} {case : CaseRef}
    (plain : ∀ code ∈ listName ++ case.caseId ++ case.caseSha256, code < 128) :
    ∃ key, orderKey listName case = .ok key := by
  have chars : ∀ code ∈ freezeSalt ++ pyStr "|" ++ listName ++ pyStr "|" ++ case.caseId ++ pyStr "|" ++
      case.caseSha256, ∃ bytes, utf8Char code = some bytes := by
    intro code member
    have small : code < 128 := by
      have salt : ∀ code ∈ freezeSalt ++ pyStr "|", code < 128 := by decide +kernel
      simp only [List.mem_append] at member plain salt
      grind
    exact ⟨_, if_pos small⟩
  obtain ⟨bytes, encoded⟩ := mapM_isSome chars
  exact ⟨_, bind_eq_ok.mpr ⟨bytes, by rw [encoded]; rfl, rfl⟩⟩

/-- The name of a list and the texts of the cases are plain. -/
def PlainCases (listName : PyStr) (cases : List CaseRef) : Prop :=
  ∀ case ∈ cases, ∀ code ∈ listName ++ case.caseId ++ case.caseSha256, code < 128

theorem ordered_isOk {listName : PyStr} {cases : List CaseRef} (plain : PlainCases listName cases) :
    ∃ sorted, ordered listName cases = .ok sorted ∧ sorted.length = cases.length := by
  have keys : ∀ case ∈ cases, ∃ keyed, (do return ((← orderKey listName case), case)) = Except.ok keyed := by
    intro case member
    obtain ⟨key, isKey⟩ := orderKey_isOk (plain case member)
    exact ⟨_, bind_eq_ok.mpr ⟨key, isKey, rfl⟩⟩
  obtain ⟨keyed, isKeyed⟩ := mapM_isOk keys
  have isOrdered : ordered listName cases = .ok _ := bind_eq_ok.mpr ⟨keyed, isKeyed, rfl⟩
  exact ⟨_, isOrdered, (ordered_perm isOrdered).length_eq⟩

theorem stratified_isOk {listName category : PyStr} {cases : List CaseRef} (total : ℕ)
    (plain : PlainCases listName cases) (categories : categoriesOf cases = [category])
    (same : ∀ case ∈ cases, case.category = category) (enough : total ≤ cases.length) :
    ∃ ids, stratified listName cases total = .ok ids := by
  have all : cases.filter (·.category = category) = cases :=
    List.filter_eq_self.mpr fun case member => decide_eq_true (same case member)
  obtain ⟨pool, isPool, length⟩ := ordered_isOk plain
  have taken : ∃ picked, takeCategory listName cases total 0 (category, 0) = .ok picked := by
    refine ⟨_, bind_eq_ok.mpr ⟨pool, by rw [all]; exact isPool, bind_eq_ok.mpr ⟨(), ensure_of ?_, rfl⟩⟩⟩
    simpa [length] using enough
  obtain ⟨picked, isPicked⟩ := taken
  refine ⟨_, bind_eq_ok.mpr ⟨(), ensure_of (by rw [categories]; exact nofun),
    bind_eq_ok.mpr ⟨[picked], ?_, rfl⟩⟩⟩
  rw [categories, List.length_singleton, Nat.div_one, Nat.mod_one, mapM_eq_ok]
  exact .cons isPicked .nil

theorem sampleCase_plain {listName : PyStr} (plain : ∀ code ∈ listName, code < 128)
    {partition : String} {letters : List ℕ} (small : ∀ letter ∈ letters, letter < 128) :
    PlainCases listName (letters.map (sampleCase partition)) := by
  intro case member code isCode
  obtain ⟨letter, isLetter, rfl⟩ := List.mem_map.mp member
  simp only [sampleCase, List.mem_append, List.mem_singleton] at isCode
  rcases isCode with (inName | rfl) | rfl
  · exact plain code inName
  · exact small code isLetter
  · exact small code isLetter

theorem sample_built : ∃ lists, buildFixedLists sampleDevelopment sampleHoldout = .ok lists := by
  have development : ∀ listName : PyStr, (∀ code ∈ listName, code < 128) →
      PlainCases listName sampleDevelopment := fun _ plain => sampleCase_plain plain (by decide)
  have holdout : ∀ listName : PyStr, (∀ code ∈ listName, code < 128) →
      PlainCases listName sampleHoldout := fun _ plain => sampleCase_plain plain (by decide)
  have labelled : sampleDevelopment.filter CaseRef.labelled = sampleDevelopment := by decide +kernel
  have labelledHoldout : sampleHoldout.filter CaseRef.labelled = sampleHoldout := by decide +kernel
  obtain ⟨sorted, isSorted, length⟩ := ordered_isOk
    (development (pyStr "latency") (by decide +kernel))
  obtain ⟨probe, isProbe⟩ := stratified_isOk probeCases
    (development (pyStr "probe") (by decide +kernel)) (show categoriesOf _ = [pyStr "c"] by decide +kernel)
    (by decide +kernel) (by decide +kernel)
  obtain ⟨stability, isStability⟩ := stratified_isOk stabilityCases
    (holdout (pyStr "stability") (by decide +kernel)) (show categoriesOf _ = [pyStr "c"] by decide +kernel)
    (by decide +kernel) (by decide +kernel)
  rw [← labelled] at isProbe
  rw [← labelledHoldout] at isStability
  refine ⟨_, bind_eq_ok.mpr ⟨(), ensure_of (by decide +kernel), bind_eq_ok.mpr
    ⟨(), ensure_of (by decide +kernel), bind_eq_ok.mpr ⟨(), ensure_of (by decide +kernel),
      bind_eq_ok.mpr ⟨sorted, isSorted, bind_eq_ok.mpr ⟨(), ensure_of ?_, bind_eq_ok.mpr
        ⟨probe, isProbe, bind_eq_ok.mpr ⟨stability, isStability, rfl⟩⟩⟩⟩⟩⟩⟩⟩
  rw [length]
  decide +kernel

/-- Every model is installed. -/
def sampleDigests : Dict PyStr PyStr := (probeModels ++ [optionalModel]).map fun model => (model, [100])

/-- The record of a call that says nothing but its key. -/
def sampleRecord (step : Step) : Record :=
  [(pyStr "record_type", .str (pyStr "call")),
    (pyStr "key", .object [(pyStr "block", .str step.block.value), (pyStr "model", .str step.model),
      (pyStr "digest", .str ((sampleDigests.get? step.model).getD [])),
      (pyStr "case_id", .str step.caseId), (pyStr "repetition", .int step.repetition)])]

def sampleOutcomes : Outcomes sampleDigests where
  record := sampleRecord
  observation step := ⟨step.caseId, pyStr "unknown", false, none, none⟩
  called step digest installed := by
    refine ⟨rfl, ?_⟩
    have isKey : callKey (sampleRecord step) =
        .ok (step.key ((sampleDigests.get? step.model).getD [])) := rfl
    rw [isKey, installed]
    rfl
  observed step := rfl

/-- The sequence over the sample, with every model installed: a run calls every step of the order,
and then the plan has no next step. -/
theorem sequence_runs_in_one_order_sample :
    ∃ (lists : FixedLists) (built : buildFixedLists sampleDevelopment sampleHoldout = .ok lists)
      (baseline : isInstalled sampleDigests baselineModel) (records : List Record)
      (order : List Step) (state : SequenceState) (progress : Progress),
      Run (.ofCorpus built sampleDigests true baseline) sampleOutcomes records order ∧
        (order.map fun step => (sampleDigests.get? step.model).map step.key).Nodup ∧
        (∀ step ∈ order, step.caseId ∉ lists.holdoutSealed) ∧
        stateOf lists sampleDigests true records = .ok state ∧ plan state = .ok progress ∧
        progress.nextStep = none := by
  obtain ⟨lists, built⟩ := sample_built
  have baseline : isInstalled sampleDigests baselineModel := by decide +kernel
  obtain ⟨selection, mandatory, extra, distinct, unsealed, _, runs⟩ :=
    sequence_runs_in_one_order built sampleDigests true baseline sampleOutcomes
  obtain ⟨_, ⟨later, completed⟩, _⟩ := runs .start
  obtain ⟨_, _, state, progress, isState, planned, isNext, _⟩ := runs completed
  refine ⟨lists, built, baseline, _, _, state, progress, completed, distinct,
    fun step member => (unsealed step member).2, isState, planned, ?_⟩
  rw [isNext, List.getElem?_eq_none le_rfl]

end Sample

end CryptoRadar.Benchmark
