import CryptoRadar.Benchmark.Order

/-!
# The plan of a state

Where a state has recorded some steps (`Setup.Recorded`), `plan` returns: its next step is the
first of the order that is not among them, and its selection is that of the observations once
every probe is done, and none before (`Setup.Recorded.plan_eq`). The groups and the notes of a
plan are not read by the sequence, and nothing is said of them.
-/

set_option autoImplicit false

namespace CryptoRadar.Benchmark

open Checked

/-! ## Visits -/

/-- Tests that say whether an item is among some select the items that are. -/
theorem select_eq_filter {Failure Item : Type} {test : Item → Except Failure Bool}
    {keep : Item → Bool} : ∀ {items : List Item}, (∀ item ∈ items, test item = .ok (keep item)) →
      select test items = .ok (items.filter keep)
  | [], _ => rfl
  | item :: rest, decided => by
      have tail := select_eq_filter fun later member => decided later (List.mem_cons_of_mem _ member)
      rw [select, decided item List.mem_cons_self]
      simp only [tail, List.filter_cons]

section Visits

variable {state : SequenceState} {steps : List Step}

/-- The state tells of each step of a group whether it is among the steps. -/
def Tells (state : SequenceState) (steps group : List Step) : Prop :=
  ∀ step ∈ group, isDone state step = .ok (decide (step ∈ steps))

theorem find?_of_done {group : List Step} (done : ∀ step ∈ group, step ∈ steps) :
    group.find? (· ∉ steps) = none := by
  rw [List.find?_eq_none]
  intro step member
  simpa using done step member

theorem exists_pending {group : List Step} (pending : ¬ ∀ step ∈ group, step ∈ steps) :
    ∃ step, group.find? (· ∉ steps) = some step := by
  simp only [not_forall] at pending
  obtain ⟨step, member, isPending⟩ := pending
  exact Option.isSome_iff_exists.mp
    (List.find?_isSome.mpr ⟨step, member, by simpa using isPending⟩)

theorem firstPending_eq : ∀ {group : List Step}, Tells state steps group →
    firstPending state group = .ok (group.find? (· ∉ steps))
  | [], _ => rfl
  | step :: rest, tells => by
      have tail := firstPending_eq fun later member => tells later (List.mem_cons_of_mem _ member)
      refine bind_eq_ok.mpr ⟨_, tells step List.mem_cons_self, ?_⟩
      by_cases isDone : step ∈ steps
      · rw [List.find?_cons_of_neg (by simpa using isDone), ← tail]
        simp [isDone]
      · rw [List.find?_cons_of_pos (by simpa using isDone)]
        simp only [isDone, decide_false, Bool.false_eq_true, if_false]
        rfl

theorem visit_eq {group : List Step} (tells : Tells state steps group) (seen : Visited) :
    ∃ groups, visit state group seen = .ok (decide (∀ step ∈ group, step ∈ steps),
      ⟨groups, seen.first.or (group.find? (· ∉ steps))⟩) := by
  cases group with
  | nil => exact ⟨seen.groups, by simp [visit]⟩
  | cons head rest =>
      have counted : ((head :: rest).filter fun step => decide (step ∈ steps)).length =
          (head :: rest).length ↔ ∀ step ∈ head :: rest, step ∈ steps := by
        rw [List.length_filter_eq_length_iff]
        simp only [decide_eq_true_eq]
      have first : firstAfter state (head :: rest) seen.first =
          .ok (seen.first.or ((head :: rest).find? (· ∉ steps))) := by
        cases seen.first with
        | none => exact firstPending_eq tells
        | some _ => rfl
      refine ⟨seen.groups ++ [⟨head.block.value, head.model,
        ((head :: rest).filter fun step => decide (step ∈ steps)).length, (head :: rest).length⟩], ?_⟩
      rw [visit, select_eq_filter tells, ← decide_eq_decide.mpr counted]
      exact bind_eq_ok.mpr ⟨_, rfl, bind_eq_ok.mpr ⟨_, first, rfl⟩⟩

theorem visitAll_eq : ∀ {groups : List (List Step)}, Tells state steps groups.flatten →
    ∀ seen : Visited, ∃ visited, visitAll state groups seen =
      .ok (decide (∀ step ∈ groups.flatten, step ∈ steps),
        ⟨visited, seen.first.or (groups.flatten.find? (· ∉ steps))⟩)
  | [], _, seen => ⟨seen.groups, by simp [visitAll]⟩
  | group :: rest, tells, seen => by
      rw [List.flatten_cons] at tells ⊢
      obtain ⟨_, isVisited⟩ := visit_eq (fun step member => tells step (List.mem_append_left _ member)) seen
      obtain ⟨visited, restVisited⟩ := visitAll_eq
        (fun step member => tells step (List.mem_append_right _ member)) ⟨_, _⟩
      refine ⟨visited, bind_eq_ok.mpr ⟨_, isVisited, bind_eq_ok.mpr ⟨_, restVisited, ?_⟩⟩⟩
      rw [List.find?_append, Option.or_assoc]
      refine congrArg (fun complete => Except.ok (complete, _)) ?_
      rw [← Bool.decide_and, decide_eq_decide, List.forall_mem_append]

end Visits

namespace Setup

variable (setup : Setup) (observation : Step → ProbeObservation)

/-- The state has recorded the steps, and what the probes among them observed. -/
structure Recorded (steps : List Step) (state : SequenceState) : Prop where
  lists : state.lists = setup.lists
  digests : state.digests = setup.digests
  includeOptional : state.includeOptional = setup.includeOptional
  done : ∀ step : Step, isInstalled setup.digests step.model → step.block ≠ .warmup →
    isDone state step = .ok (decide (step ∈ steps))
  observed : ∀ model, isInstalled setup.digests model →
    (∀ step ∈ probeSteps model setup.lists, step ∈ steps) →
      (state.probeObservations.get? model).getD [] = setup.observations observation model

variable {setup observation} {steps : List Step} {state : SequenceState}

namespace Recorded

variable (recorded : setup.Recorded observation steps state)
include recorded

theorem statsFor_eq {model : PyStr} (installed : isInstalled setup.digests model)
    (done : ∀ step ∈ probeSteps model setup.lists, step ∈ steps) :
    statsFor state model = probeStats model (setup.observations observation model) := by
  rw [statsFor, recorded.observed model installed done]

theorem planCandidates_eq {selection : Selection} (selected : setup.selection observation = .ok selection)
    (done : ∀ step ∈ setup.probes, step ∈ steps) (seen : Visited) :
    ∃ groups, planCandidates state setup.probed true seen = .ok (some selection, ⟨groups, seen.first.or
      ((selection.candidates.flatMap (candidateSteps · setup.lists)).find? (· ∉ steps))⟩, []) := by
  obtain ⟨stats, mapped, same⟩ := bind_eq_ok.mp selected
  cases same
  have measured : setup.probed.mapM (statsFor state) = .ok stats := by
    rw [← mapped]
    refine mapM_congr fun model isProbed => ?_
    exact recorded.statsFor_eq (mem_probed.mp isProbed).2
      fun step member => done step (List.mem_flatMap.mpr ⟨model, isProbed, member⟩)
  have tells : Tells state steps ((selectCandidates stats).candidates.map
      (candidateSteps · state.lists)).flatten := by
    intro step member
    rw [recorded.lists, ← List.flatMap_def] at member
    obtain ⟨model, isCandidate, isStep⟩ := List.mem_flatMap.mp member
    obtain ⟨_, notWarmup, rfl, _⟩ := candidateSteps_spec isStep
    exact recorded.done step (mem_probed.mp ((candidates_spec selected).2 _ isCandidate)).2 notWarmup
  obtain ⟨groups, visited⟩ := visitAll_eq tells seen
  refine ⟨groups, bind_eq_ok.mpr ⟨stats, measured, bind_eq_ok.mpr ⟨_, visited, ?_⟩⟩⟩
  rw [List.flatMap_def, recorded.lists]
  rfl

theorem planPassed_eq (installed : isInstalled setup.digests optionalModel) (stats : ProbeStats)
    (seen : Visited) : ∃ groups notes, planPassed state stats seen = .ok (⟨groups, seen.first.or
      ((if stats.passesLimits then candidateSteps optionalModel setup.lists else []).find?
        (· ∉ steps))⟩, notes) := by
  have tells : Tells state steps (candidateSteps optionalModel state.lists) := by
    intro step member
    obtain ⟨_, notWarmup, isModel, _⟩ := candidateSteps_spec member
    exact recorded.done step (isModel ▸ installed) notWarmup
  unfold planPassed
  split
  · obtain ⟨groups, visited⟩ := visit_eq tells seen
    rw [recorded.lists] at visited ⊢
    exact ⟨groups, [], bind_eq_ok.mpr ⟨_, visited, rfl⟩⟩
  · exact ⟨seen.groups, _, by rw [List.find?_nil, Option.or_none]⟩

theorem planOptional_eq {extra : List Step} (isOptional : setup.optional observation = .ok extra)
    (seen : Visited) : ∃ groups notes, planOptional state seen =
      .ok (⟨groups, seen.first.or (extra.find? (· ∉ steps))⟩, notes) := by
  obtain ⟨seenGroups, first⟩ := seen
  rw [planOptional, recorded.includeOptional, recorded.digests, recorded.lists]
  by_cases runs : setup.runsOptional = true
  · have ⟨included, installed⟩ := Bool.and_eq_true_iff.mp runs
    rw [Setup.optional, if_pos runs] at isOptional
    obtain ⟨stats, isStats, same⟩ := bind_eq_ok.mp isOptional
    cases same
    rw [if_neg (by simp [included]), if_neg (by simp [installed])]
    cases first with
    | some step => exact ⟨seenGroups, _, rfl⟩
    | none =>
        have tells : Tells state steps (probeSteps optionalModel setup.lists) := by
          intro step member
          obtain ⟨isProbe, isModel, _⟩ := probeSteps_spec member
          exact recorded.done step (isModel ▸ installed) (by rw [isProbe]; exact nofun)
        obtain ⟨groups, visited⟩ := visit_eq tells ⟨seenGroups, none⟩
        rw [List.find?_append]
        by_cases complete : ∀ step ∈ probeSteps optionalModel setup.lists, step ∈ steps
        · have nothing := find?_of_done complete
          have measured := recorded.statsFor_eq installed complete
          rw [isStats] at measured
          rw [nothing, decide_eq_true complete] at visited
          rw [nothing, Option.none_or]
          obtain ⟨later, notes, passed⟩ := recorded.planPassed_eq installed stats ⟨groups, none⟩
          exact ⟨later, notes, bind_eq_ok.mpr ⟨_, visited, bind_eq_ok.mpr ⟨stats, measured, passed⟩⟩⟩
        · rw [decide_eq_false complete] at visited
          obtain ⟨step, isFirst⟩ := exists_pending complete
          rw [isFirst] at visited ⊢
          exact ⟨groups, [], bind_eq_ok.mpr ⟨_, visited, rfl⟩⟩
  · rw [Setup.optional, if_neg runs] at isOptional
    cases isOptional
    rw [List.find?_nil, Option.or_none]
    split
    · exact ⟨seenGroups, [], rfl⟩
    · split
      · exact ⟨seenGroups, _, rfl⟩
      · rename_i included installed
        exact absurd (by simp at included installed; simp [runsOptional, included, installed]) runs

theorem plan_eq {selection : Selection} {extra : List Step}
    (selected : setup.selection observation = .ok selection)
    (isOptional : setup.optional observation = .ok extra) :
    ∃ progress, plan state = .ok progress ∧
      progress.nextStep = (setup.mandatory selection ++ extra).find? (· ∉ steps) ∧
      progress.selection =
        if ∀ step ∈ setup.probes, step ∈ steps then some selection else none := by
  have tells : Tells state steps (setup.probed.map (probeSteps · setup.lists)).flatten := by
    intro step member
    rw [← List.flatMap_def] at member
    obtain ⟨model, isProbed, isStep⟩ := List.mem_flatMap.mp member
    obtain ⟨isProbe, isModel, _⟩ := probeSteps_spec isStep
    exact recorded.done step (isModel ▸ (mem_probed.mp isProbed).2) (by rw [isProbe]; exact nofun)
  obtain ⟨groups, visited⟩ := visitAll_eq tells ⟨[], none⟩
  rw [← List.flatMap_def, Option.none_or] at visited
  have started : ensure (isInstalled state.digests baselineModel = true)
      (SequenceFailure.sequence (baselineModel ++ pyStr " is not installed: the benchmark cannot run")) =
        .ok () := ensure_of (recorded.digests ▸ setup.baseline)
  obtain ⟨laterGroups, pending, planned⟩ : ∃ laterGroups pending,
      planCandidates state setup.probed (decide (∀ step ∈ setup.probes, step ∈ steps))
          ⟨groups, setup.probes.find? (· ∉ steps)⟩ =
        .ok (if ∀ step ∈ setup.probes, step ∈ steps then some selection else none,
          ⟨laterGroups, (setup.mandatory selection).find? (· ∉ steps)⟩, pending) := by
    rw [mandatory, List.find?_append]
    by_cases done : ∀ step ∈ setup.probes, step ∈ steps
    · obtain ⟨laterGroups, planned⟩ := recorded.planCandidates_eq selected done
        ⟨groups, setup.probes.find? (· ∉ steps)⟩
      rw [decide_eq_true done, if_pos done]
      exact ⟨laterGroups, [], planned⟩
    · obtain ⟨step, isFirst⟩ : ∃ step, setup.probes.find? (· ∉ steps) = some step :=
        exists_pending done
      rw [decide_eq_false done, if_neg done, isFirst, Option.some_or]
      exact ⟨groups, _, rfl⟩
  obtain ⟨lastGroups, notes, isPlanned⟩ := recorded.planOptional_eq isOptional
    ⟨laterGroups, (setup.mandatory selection).find? (· ∉ steps)⟩
  rw [List.find?_append]
  have probed : probeModels.filter (isInstalled state.digests) = setup.probed := by
    rw [recorded.digests]
    rfl
  refine ⟨⟨_, _, lastGroups, (probeModels.filter (!isInstalled state.digests ·)).map
    (· ++ pyStr " not installed: not probed") ++ pending ++ notes⟩,
    bind_eq_ok.mpr ⟨(), started, ?_⟩, rfl, rfl⟩
  rw [probed, recorded.lists]
  exact bind_eq_ok.mpr ⟨_, visited, bind_eq_ok.mpr ⟨_, planned, bind_eq_ok.mpr ⟨_, isPlanned, rfl⟩⟩⟩

end Recorded

end Setup

end CryptoRadar.Benchmark
