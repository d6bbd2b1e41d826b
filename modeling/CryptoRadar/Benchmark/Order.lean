import CryptoRadar.Benchmark.Lists

/-!
# The one order of the sequence

The steps of a corpus in the order in which they are to run, given what the probes observe: the
probes, the candidates that the selection rule makes of the observations, and the optional model
(`Setup.order`). Nothing here knows of a state or of a file. The order has no step twice
(`Setup.order_nodup`), it names no sealed case (`Setup.order_unsealed`), and the steps of the
optional model are its last (`Setup.mandatory_model`).

A list without repetitions of which a first part is done goes on where that part ends
(`find?_notMem_of_initial`).
-/

set_option autoImplicit false

namespace CryptoRadar.Benchmark

open Checked

/-! ## Steps -/

theorem probeSteps_spec {model : PyStr} {lists : FixedLists} {step : Step}
    (member : step ∈ probeSteps model lists) :
    step.block = .probe ∧ step.model = model ∧ step.caseId ∈ lists.probe := by
  obtain ⟨caseId, isCase, rfl⟩ := List.mem_map.mp member
  exact ⟨rfl, rfl, isCase⟩

theorem candidateSteps_spec {model : PyStr} {lists : FixedLists} {step : Step}
    (member : step ∈ candidateSteps model lists) :
    step.block ≠ .probe ∧ step.block ≠ .warmup ∧ step.model = model ∧
      step.caseId ∈ lists.cold ++ lists.warm ++ lists.holdoutLabelled ++ lists.stability := by
  simp only [candidateSteps, List.mem_append, List.mem_map, List.mem_flatMap] at member ⊢
  rcases member with ((⟨caseId, isCase, rfl⟩ | ⟨caseId, isCase, rfl⟩) | ⟨caseId, isCase, rfl⟩) |
    ⟨repetition, _, caseId, isCase, rfl⟩
  · exact ⟨nofun, nofun, rfl, .inl (.inl (.inl isCase))⟩
  · exact ⟨nofun, nofun, rfl, .inl (.inl (.inr isCase))⟩
  · exact ⟨nofun, nofun, rfl, .inl (.inr isCase)⟩
  · exact ⟨nofun, nofun, rfl, .inr isCase⟩

section Steps

variable {lists : FixedLists} (separate : lists.Separate) (model : PyStr)
include separate

theorem probeSteps_nodup : (probeSteps model lists).Nodup := by
  refine separate.probe.map fun first second same => ?_
  exact congrArg Step.caseId same

theorem candidateSteps_nodup : (candidateSteps model lists).Nodup := by
  have named : ∀ {ids : List PyStr}, ids.Nodup → ∀ (block : Block) (repetition : ℕ),
      (ids.map (⟨block, model, ·, repetition⟩ : PyStr → Step)).Nodup := by
    intro ids distinct block repetition
    exact distinct.map fun first second same => congrArg Step.caseId same
  have repeats : ((List.range' 1 stabilityRepeats).flatMap fun repetition =>
      lists.stability.map (⟨.stability, model, ·, repetition⟩ : PyStr → Step)).Nodup := by
    rw [List.nodup_flatMap]
    refine ⟨fun repetition _ => named separate.stability .stability repetition, ?_⟩
    refine (List.nodup_range' (n := stabilityRepeats)).imp fun {first second} apart => ?_
    intro step isFirst isSecond
    obtain ⟨_, _, rfl⟩ := List.mem_map.mp isFirst
    obtain ⟨_, _, same⟩ := List.mem_map.mp isSecond
    exact apart (congrArg Step.repetition same).symm
  simp only [candidateSteps, List.nodup_append]
  refine ⟨⟨⟨named separate.cold _ _, named separate.warm _ _, ?_⟩,
    named separate.holdoutLabelled _ _, ?_⟩, repeats, ?_⟩
  · intro first isFirst second isSecond same
    obtain ⟨_, _, rfl⟩ := List.mem_map.mp isFirst
    obtain ⟨_, _, rfl⟩ := List.mem_map.mp isSecond
    exact absurd (congrArg Step.block same) nofun
  · intro first isFirst second isSecond same
    obtain ⟨_, _, rfl⟩ := List.mem_map.mp isSecond
    rcases List.mem_append.mp isFirst with isFirst | isFirst <;>
      · obtain ⟨_, _, rfl⟩ := List.mem_map.mp isFirst
        exact absurd (congrArg Step.block same) nofun
  · intro first isFirst second isSecond same
    obtain ⟨_, _, isSecond⟩ := List.mem_flatMap.mp isSecond
    obtain ⟨_, _, rfl⟩ := List.mem_map.mp isSecond
    rcases List.mem_append.mp isFirst with isFirst | isFirst
    · rcases List.mem_append.mp isFirst with isFirst | isFirst <;>
        · obtain ⟨_, _, rfl⟩ := List.mem_map.mp isFirst
          exact absurd (congrArg Step.block same) nofun
    · obtain ⟨_, _, rfl⟩ := List.mem_map.mp isFirst
      exact absurd (congrArg Step.block same) nofun

end Steps

/-! ## Statistics -/

/-- The place of the time at 95 percent of the calls of a probe lies between the last two. -/
theorem probe_position : ∃ last : Double,
    (PyFloat.ofInt 19 : Except NumberError Double).mapError SequenceFailure.number = .ok last ∧
      rounded floorOf (last * 0.95) = .ok 18 ∧ rounded ceilOf (last * 0.95) = .ok 19 :=
  ⟨⟨.ofScientific 19 false 0⟩, by decide +kernel, by decide +kernel, by decide +kernel⟩

theorem percentile_isOk {values : List Double} (count : values.length = probeCases) :
    ∃ value, percentile values 0.95 = .ok value := by
  obtain ⟨last, isLast, isLow, isHigh⟩ := probe_position
  obtain ⟨lowest, isLowest⟩ : ∃ lowest : Double,
      (PyFloat.ofInt 18 : Except NumberError Double).mapError SequenceFailure.number = .ok lowest :=
    ⟨⟨.ofScientific 18 false 0⟩, by decide +kernel⟩
  have nonempty : values ≠ [] := by
    rintro rfl
    exact absurd count nofun
  have length : (values.insertionSort fun first second => ¬ PyFloat.lt second first).length = 20 := by
    rw [List.length_insertionSort, count]
    rfl
  have lastIndex : (PyFloat.ofInt (((values.insertionSort fun first second =>
      ¬ PyFloat.lt second first).length : ℤ) - 1) : Except NumberError Double).mapError
        SequenceFailure.number = .ok last := by
    rw [length]
    exact isLast
  have item : ∀ index : Fin 20, ∃ value, itemAt (values.insertionSort fun first second =>
      ¬ PyFloat.lt second first) (index : ℕ) = .ok value := by
    intro index
    have inside : (index : ℕ) < (values.insertionSort fun first second =>
        ¬ PyFloat.lt second first).length := by rw [length]; exact index.isLt
    have nonneg : ¬ ((index : ℕ) : ℤ) < 0 := by omega
    refine ⟨(values.insertionSort fun first second =>
      ¬ PyFloat.lt second first).get ⟨index, inside⟩, ?_⟩
    simp only [itemAt, if_neg nonneg, if_pos (Int.natCast_nonneg _), Int.toNat_natCast,
      List.getElem?_eq_getElem inside]
    rfl
  obtain ⟨lower, isLower⟩ := item 18
  obtain ⟨upper, isUpper⟩ := item 19
  exact ⟨_, bind_eq_ok.mpr ⟨(), ensure_of nonempty, bind_eq_ok.mpr ⟨last, lastIndex,
    bind_eq_ok.mpr ⟨18, isLow, bind_eq_ok.mpr ⟨19, isHigh, bind_eq_ok.mpr ⟨lower, isLower,
      bind_eq_ok.mpr ⟨upper, isUpper, bind_eq_ok.mpr ⟨lowest, isLowest, rfl⟩⟩⟩⟩⟩⟩⟩⟩

theorem mapM_some_length {α β : Type} {change : α → Option β} {items : List α} {values : List β}
    (mapped : items.mapM change = some values) : values.length = items.length :=
  (mapM_eq_some.mp mapped).length_eq.symm

theorem latency_isOk {observations : List ProbeObservation}
    (count : observations.length = probeCases) : ∃ result, latency observations = .ok result := by
  unfold latency
  split
  · exact ⟨_, rfl⟩
  · exact ⟨_, rfl⟩
  · rename_i times _ timed
    obtain ⟨p95, isP95⟩ := percentile_isOk ((mapM_some_length timed).trans count)
    exact ⟨_, bind_eq_ok.mpr ⟨p95, isP95, rfl⟩⟩

theorem probeStats_isOk (model : PyStr) {observations : List ProbeObservation}
    (count : observations.length = probeCases) :
    ∃ stats, probeStats model observations = .ok stats := by
  obtain ⟨result, isResult⟩ := latency_isOk count
  exact ⟨_, bind_eq_ok.mpr ⟨result, isResult, rfl⟩⟩

theorem probeStats_model {model : PyStr} {observations : List ProbeObservation} {stats : ProbeStats}
    (isStats : probeStats model observations = .ok stats) : stats.model = model := by
  obtain ⟨_, _, same⟩ := bind_eq_ok.mp isStats
  cases same
  rfl

/-- The candidates are the baseline and at most one other of the probed models. -/
theorem selectCandidates_spec {stats : List ProbeStats} :
    (selectCandidates stats).candidates.Nodup ∧
      ∀ model ∈ (selectCandidates stats).candidates,
        model = baselineModel ∨ ∃ item ∈ stats, item.model = model := by
  have best : ∀ item ∈ ((stats.filter fun item => item.model ≠ baselineModel ∧
      item.passesLimits).insertionSort fun first second => ¬ ranksBefore second first).take 1,
      item ∈ stats ∧ item.model ≠ baselineModel := by
    intro item member
    obtain ⟨isStats, chosen⟩ := List.mem_filter.mp
      ((List.mem_insertionSort _).mp (List.mem_of_mem_take member))
    exact ⟨isStats, (of_decide_eq_true chosen).1⟩
  refine ⟨List.nodup_cons.mpr ⟨?_, ?_⟩, ?_⟩
  · intro member
    obtain ⟨item, isBest, same⟩ := List.mem_map.mp member
    exact (best item isBest).2 same
  · cases (stats.filter fun item => item.model ≠ baselineModel ∧
        item.passesLimits).insertionSort fun first second => ¬ ranksBefore second first with
    | nil => exact List.nodup_nil
    | cons item _ => exact List.nodup_singleton item.model
  · intro model member
    rcases List.mem_cons.mp member with same | other
    · exact .inl same
    · obtain ⟨item, isBest, same⟩ := List.mem_map.mp other
      exact .inr ⟨item, (best item isBest).1, same⟩

/-! ## The setup -/

/-- The lists of a corpus, the models that are installed and the flag of the optional model. -/
structure Setup where
  lists : FixedLists
  digests : Dict PyStr PyStr
  includeOptional : Bool
  separate : lists.Separate
  baseline : isInstalled digests baselineModel

namespace Setup

variable (setup : Setup) (observation : Step → ProbeObservation)

/-- The probe models that are installed. -/
def probed : List PyStr := probeModels.filter (isInstalled setup.digests)

def observations (model : PyStr) : List ProbeObservation :=
  (probeSteps model setup.lists).map observation

def probes : List Step := setup.probed.flatMap (probeSteps · setup.lists)

def selection : Except SequenceFailure Selection := do
  let stats ← setup.probed.mapM fun model => probeStats model (setup.observations observation model)
  return selectCandidates stats

/-- The steps that the sequence is complete without the optional model. -/
def mandatory (selection : Selection) : List Step :=
  setup.probes ++ selection.candidates.flatMap (candidateSteps · setup.lists)

def runsOptional : Bool := setup.includeOptional && isInstalled setup.digests optionalModel

def optional : Except SequenceFailure (List Step) :=
  if setup.runsOptional then do
    let stats ← probeStats optionalModel (setup.observations observation optionalModel)
    return probeSteps optionalModel setup.lists ++
      if stats.passesLimits then candidateSteps optionalModel setup.lists else []
  else .ok []

theorem observations_length (model : PyStr) :
    (setup.observations observation model).length = probeCases := by
  simp [observations, probeSteps, setup.separate.probeLength]

theorem selection_isOk : ∃ selection, setup.selection observation = .ok selection := by
  have probes : ∀ model ∈ setup.probed, ∃ stats,
      probeStats model (setup.observations observation model) = .ok stats := fun model _ =>
    probeStats_isOk model (setup.observations_length observation model)
  obtain ⟨stats, mapped⟩ := mapM_isOk probes
  exact ⟨_, bind_eq_ok.mpr ⟨stats, mapped, rfl⟩⟩

theorem optional_isOk : ∃ optional, setup.optional observation = .ok optional := by
  unfold optional
  split
  · obtain ⟨stats, isStats⟩ := probeStats_isOk optionalModel
      (setup.observations_length observation optionalModel)
    exact ⟨_, bind_eq_ok.mpr ⟨stats, isStats, rfl⟩⟩
  · exact ⟨[], rfl⟩

variable {setup observation}

theorem mem_probed {model : PyStr} :
    model ∈ setup.probed ↔ model ∈ probeModels ∧ isInstalled setup.digests model :=
  List.mem_filter

theorem baseline_probed : baselineModel ∈ setup.probed :=
  mem_probed.mpr ⟨List.mem_cons_self, setup.baseline⟩

theorem benchmarkModels_nodup : (probeModels ++ [optionalModel]).Nodup := by decide +kernel

theorem probed_nodup : setup.probed.Nodup :=
  (List.nodup_append.mp benchmarkModels_nodup).1.filter _

theorem optionalModel_notMem : optionalModel ∉ setup.probed := by
  intro member
  exact (List.nodup_append.mp benchmarkModels_nodup).2.2 _ (mem_probed.mp member).1 _
    (List.mem_singleton_self _) rfl

section Chosen

variable {selection : Selection} (selected : setup.selection observation = .ok selection)
include selected

/-- The candidates are distinct probed models. -/
theorem candidates_spec :
    selection.candidates.Nodup ∧ ∀ model ∈ selection.candidates, model ∈ setup.probed := by
  obtain ⟨stats, mapped, same⟩ := bind_eq_ok.mp selected
  cases same
  refine ⟨selectCandidates_spec.1, ?_⟩
  intro model member
  rcases selectCandidates_spec.2 model member with rfl | ⟨item, isItem, rfl⟩
  · exact baseline_probed
  · obtain ⟨probed, isProbed, isStats⟩ := mem_of_mapM_eq_ok mapped item isItem
    rw [probeStats_model isStats]
    exact isProbed

theorem mandatory_spec {step : Step} (member : step ∈ setup.mandatory selection) :
    step.model ∈ setup.probed ∧ (step ∈ probeSteps step.model setup.lists ∨
      step ∈ candidateSteps step.model setup.lists) := by
  rcases List.mem_append.mp member with probe | candidate
  · obtain ⟨model, isProbed, isStep⟩ := List.mem_flatMap.mp probe
    obtain ⟨_, rfl, _⟩ := probeSteps_spec isStep
    exact ⟨isProbed, .inl isStep⟩
  · obtain ⟨model, isCandidate, isStep⟩ := List.mem_flatMap.mp candidate
    obtain ⟨_, _, rfl, _⟩ := candidateSteps_spec isStep
    exact ⟨(candidates_spec selected).2 _ isCandidate, .inr isStep⟩

theorem mandatory_nodup : (setup.mandatory selection).Nodup := by
  obtain ⟨distinct, _⟩ := candidates_spec selected
  refine List.nodup_append.mpr ⟨?_, ?_, ?_⟩
  · refine List.nodup_flatMap.mpr ⟨fun model _ => probeSteps_nodup setup.separate model, ?_⟩
    refine probed_nodup.imp fun {first second} apart => ?_
    intro step isFirst isSecond
    exact apart ((probeSteps_spec isFirst).2.1.symm.trans (probeSteps_spec isSecond).2.1)
  · refine List.nodup_flatMap.mpr ⟨fun model _ => candidateSteps_nodup setup.separate model, ?_⟩
    refine distinct.imp fun {first second} apart => ?_
    intro step isFirst isSecond
    exact apart ((candidateSteps_spec isFirst).2.2.1.symm.trans (candidateSteps_spec isSecond).2.2.1)
  · rintro step isProbe _ isCandidate rfl
    obtain ⟨_, _, isStep⟩ := List.mem_flatMap.mp isProbe
    obtain ⟨_, _, isCandidateStep⟩ := List.mem_flatMap.mp isCandidate
    exact (candidateSteps_spec isCandidateStep).1 (probeSteps_spec isStep).1

end Chosen

section Optional

variable {steps : List Step} (isOptional : setup.optional observation = .ok steps)
include isOptional

theorem optional_spec {step : Step} (member : step ∈ steps) :
    setup.runsOptional ∧ step.model = optionalModel ∧ (step ∈ probeSteps step.model setup.lists ∨
      step ∈ candidateSteps step.model setup.lists) := by
  unfold optional at isOptional
  split at isOptional
  · rename_i runs
    obtain ⟨stats, _, same⟩ := bind_eq_ok.mp isOptional
    cases same
    rcases List.mem_append.mp member with probe | candidate
    · obtain ⟨_, isModel, _⟩ := probeSteps_spec probe
      exact ⟨runs, isModel, .inl (isModel ▸ probe)⟩
    · split at candidate
      · obtain ⟨_, _, isModel, _⟩ := candidateSteps_spec candidate
        exact ⟨runs, isModel, .inr (isModel ▸ candidate)⟩
      · exact absurd candidate List.not_mem_nil
  · cases isOptional
    exact absurd member List.not_mem_nil

theorem optional_nodup : steps.Nodup := by
  unfold optional at isOptional
  split at isOptional
  · obtain ⟨stats, _, same⟩ := bind_eq_ok.mp isOptional
    cases same
    refine List.nodup_append.mpr ⟨probeSteps_nodup setup.separate _, ?_, ?_⟩
    · split
      · exact candidateSteps_nodup setup.separate _
      · exact List.nodup_nil
    · rintro step isProbe _ isCandidate rfl
      split at isCandidate
      · exact (candidateSteps_spec isCandidate).1 (probeSteps_spec isProbe).1
      · exact List.not_mem_nil isCandidate
  · cases isOptional
    exact List.nodup_nil

end Optional

section Order

variable {selection : Selection} {extra : List Step}
  (selected : setup.selection observation = .ok selection)
  (isOptional : setup.optional observation = .ok extra)
include selected

theorem mandatory_model {step : Step} (member : step ∈ setup.mandatory selection) :
    step.model ≠ optionalModel := by
  intro same
  exact optionalModel_notMem (same ▸ (mandatory_spec selected member).1)

include isOptional

theorem order_nodup : (setup.mandatory selection ++ extra).Nodup := by
  refine List.nodup_append.mpr ⟨mandatory_nodup selected, optional_nodup isOptional, ?_⟩
  rintro step isMandatory _ isExtra rfl
  exact mandatory_model selected isMandatory (optional_spec isOptional isExtra).2.1

theorem order_spec {step : Step} (member : step ∈ setup.mandatory selection ++ extra) :
    isInstalled setup.digests step.model ∧ (step ∈ probeSteps step.model setup.lists ∨
      step ∈ candidateSteps step.model setup.lists) := by
  rcases List.mem_append.mp member with isMandatory | isExtra
  · obtain ⟨isProbed, made⟩ := mandatory_spec selected isMandatory
    exact ⟨(mem_probed.mp isProbed).2, made⟩
  · obtain ⟨runs, isModel, made⟩ := optional_spec isOptional isExtra
    rw [runsOptional, Bool.and_eq_true] at runs
    exact ⟨isModel ▸ runs.2, made⟩

theorem order_block {step : Step} (member : step ∈ setup.mandatory selection ++ extra) :
    step.block ≠ .warmup := by
  rcases (order_spec selected isOptional member).2 with probe | candidate
  · rw [(probeSteps_spec probe).1]
    exact nofun
  · exact (candidateSteps_spec candidate).2.1

theorem order_unsealed {step : Step} (member : step ∈ setup.mandatory selection ++ extra) :
    step.caseId ∉ setup.lists.holdoutSealed := by
  refine setup.separate.unsealed _ ?_
  rcases (order_spec selected isOptional member).2 with probe | candidate
  · have listed := (probeSteps_spec probe).2.2
    simp only [List.mem_append]
    tauto
  · have listed := (candidateSteps_spec candidate).2.2.2
    simp only [List.mem_append] at listed ⊢
    tauto

end Order

end Setup

/-! ## A first part that is done -/

theorem find?_notMem_append {α : Type} [DecidableEq α] {first rest : List α}
    (distinct : (first ++ rest).Nodup) : (first ++ rest).find? (· ∉ first) = rest.head? := by
  have nothing : first.find? (· ∉ first) = none := by
    rw [List.find?_eq_none]
    intro item member
    simpa using member
  rw [List.find?_append, nothing, Option.none_or]
  cases rest with
  | nil => rfl
  | cons item rest =>
      have later : item ∉ first := fun earlier =>
        (List.nodup_append.mp distinct).2.2 _ earlier _ List.mem_cons_self rfl
      rw [List.find?_cons_of_pos (by simpa using later), List.head?_cons]

/-- Where the done items are the first ones of the order, the first that is not done comes next. -/
theorem find?_notMem_of_initial {α : Type} [DecidableEq α] {done order : List α}
    (distinct : order.Nodup) (isFirst : done <+: order) :
    order.find? (· ∉ done) = order[done.length]? := by
  obtain ⟨rest, rfl⟩ := isFirst
  rw [find?_notMem_append distinct, List.getElem?_append_right le_rfl, Nat.sub_self,
    List.head?_eq_getElem?]

end CryptoRadar.Benchmark
