import CryptoRadar.Benchmark.Sequence
import Mathlib.Data.List.Dedup

/-!
# What the fixed lists hold

Of a corpus that `build_fixed_lists` accepts: no list names a case twice, the probe has exactly
its number of cases and is in the order of its ids, and no list that is sent names a sealed case
(`buildFixedLists_separate`). A sealed case is told from the others by its id alone, so this rests
on the ids of both partitions being distinct.
-/

set_option autoImplicit false

namespace CryptoRadar.Benchmark

open Checked

/-! ## Orders and categories -/

section Ordered

variable {listName : PyStr} {cases sorted : List CaseRef}

theorem ordered_perm (isOrdered : ordered listName cases = .ok sorted) : sorted.Perm cases := by
  obtain ⟨keyed, isKeyed, rest⟩ := bind_eq_ok.mp isOrdered
  cases rest
  refine ((List.perm_insertionSort _ keyed).map Prod.snd).trans (List.Perm.of_eq ?_)
  have paired := mapM_eq_ok.mp isKeyed
  clear isKeyed isOrdered
  induction paired with
  | nil => rfl
  | cons head _ hyp =>
      obtain ⟨_, _, same⟩ := bind_eq_ok.mp head
      cases same
      rw [List.map_cons, hyp]

end Ordered

/-- Every place has its share, and the first ones one more: together they have all. -/
theorem sum_shares (share extra count : ℕ) (fits : extra ≤ count) :
    ((List.range count).map fun index => share + if index < extra then 1 else 0).sum =
      count * share + extra := by
  have upTo : ∀ bound : ℕ,
      ((List.range bound).map fun index => share + if index < extra then 1 else 0).sum =
        bound * share + min bound extra := by
    intro bound
    induction bound with
    | zero => simp
    | succ bound hyp =>
        rw [List.range_succ, List.map_append, List.sum_append, hyp, Nat.succ_mul]
        simp only [List.map_cons, List.map_nil, List.sum_cons, List.sum_nil]
        split <;> omega
  rw [upTo, Nat.min_eq_right fits]

section Stratified

variable {listName : PyStr} {cases : List CaseRef} {total : ℕ} {ids : List PyStr}

/-- What is taken of the category in a place: its share of the cases of the category. -/
def Share (cases : List CaseRef) (total count : ℕ) (place : PyStr × ℕ) (pool : List CaseRef) : Prop :=
  pool.Subperm (cases.filter (·.category = place.1)) ∧
    pool.length = total / count + if place.2 < total % count then 1 else 0

theorem takeCategory_share {count : ℕ} {places : List (PyStr × ℕ)} {chosen : List (List PyStr)}
    (turns : List.Forall₂ (fun place picked =>
      takeCategory listName cases (total / count) (total % count) place = .ok picked) places chosen) :
    ∃ pools, List.Forall₂ (Share cases total count) places pools ∧
      chosen = pools.map (List.map CaseRef.caseId) := by
  induction turns with
  | nil => exact ⟨[], .nil, rfl⟩
  | @cons place _ _ _ head _ hyp =>
      obtain ⟨pools, shares, same⟩ := hyp
      obtain ⟨pool, isPool, rest⟩ := bind_eq_ok.mp head
      obtain ⟨_, enough, equal⟩ := bind_eq_ok.mp rest
      cases equal
      have part : (pool.take (total / count + if place.2 < total % count then 1 else 0)).Subperm
          (cases.filter (·.category = place.1)) :=
        (List.take_sublist _ pool).subperm.trans (ordered_perm isPool).subperm
      refine ⟨_ :: pools, .cons ⟨part, ?_⟩ shares, by rw [same, List.map_cons]⟩
      exact List.length_take_of_le (ensure_eq_ok.mp enough)

theorem stratified_shares (isStratified : stratified listName cases total = .ok ids) :
    ∃ (categories : List PyStr) (pools : List (List CaseRef)),
      categories.Nodup ∧ categories ≠ [] ∧
        List.Forall₂ (Share cases total categories.length) categories.zipIdx pools ∧
        ids = (pools.flatten.map CaseRef.caseId).insertionSort (· ≤ ·) := by
  obtain ⟨_, nonempty, rest⟩ := bind_eq_ok.mp isStratified
  obtain ⟨chosen, isChosen, same⟩ := bind_eq_ok.mp rest
  cases same
  obtain ⟨pools, shares, same⟩ := takeCategory_share (mapM_eq_ok.mp isChosen)
  refine ⟨categoriesOf cases, pools, ?_, ensure_eq_ok.mp nonempty, shares, ?_⟩
  · exact (List.perm_insertionSort _ _).nodup_iff.mpr (List.nodup_dedup _)
  · rw [same, List.map_flatten]

/-- All that is taken are distinct cases of the pool, as many as are wanted. -/
theorem Share.flatten {count : ℕ} {places : List (PyStr × ℕ)} {pools : List (List CaseRef)}
    (shares : List.Forall₂ (Share cases total count) places pools) (nodup : cases.Nodup)
    (distinct : (places.map Prod.fst).Nodup) :
    pools.flatten.Nodup ∧ (∀ case ∈ pools.flatten, case ∈ cases ∧ case.category ∈ places.map Prod.fst) ∧
      pools.flatten.length =
        (places.map fun place => total / count + if place.2 < total % count then 1 else 0).sum := by
  induction shares with
  | nil => simp
  | @cons place pool places pools share _ hyp =>
      obtain ⟨notAgain, distinctRest⟩ := List.nodup_cons.mp distinct
      obtain ⟨nodupRest, fromCases, size⟩ := hyp distinctRest
      obtain ⟨part, sizeHere⟩ := share
      have here : ∀ case ∈ pool, case ∈ cases ∧ case.category = place.1 := by
        intro case member
        have kept := List.mem_filter.mp (part.subset member)
        exact ⟨kept.1, of_decide_eq_true kept.2⟩
      refine ⟨?_, ?_, ?_⟩
      · rw [List.flatten_cons, List.nodup_append]
        obtain ⟨_, order, sublist⟩ := part
        refine ⟨order.nodup_iff.mp ((nodup.filter _).sublist sublist), nodupRest, ?_⟩
        rintro first isFirst second isSecond rfl
        exact notAgain ((here first isFirst).2 ▸ (fromCases first isSecond).2)
      · intro case member
        rcases List.mem_append.mp (List.flatten_cons ▸ member) with isHere | later
        · exact ⟨(here case isHere).1, by simp [(here case isHere).2]⟩
        · exact ⟨(fromCases case later).1, List.mem_cons_of_mem _ (fromCases case later).2⟩
      · rw [List.flatten_cons, List.length_append, sizeHere, size, List.map_cons, List.sum_cons]

theorem stratified_spec (isStratified : stratified listName cases total = .ok ids)
    (distinct : (cases.map CaseRef.caseId).Nodup) :
    ids.Nodup ∧ ids.Pairwise (· ≤ ·) ∧ (∀ id ∈ ids, ∃ case ∈ cases, case.caseId = id) ∧
      ids.length = total := by
  obtain ⟨categories, pools, nodup, nonempty, shares, rfl⟩ := stratified_shares isStratified
  have places : categories.zipIdx.map Prod.fst = categories := List.zipIdx_map_fst 0 categories
  obtain ⟨taken, fromCases, size⟩ :=
    Share.flatten shares (List.Nodup.of_map _ distinct) (places.symm ▸ nodup)
  refine ⟨?_, List.pairwise_insertionSort _ _, ?_, ?_⟩
  · rw [(List.perm_insertionSort _ _).nodup_iff]
    refine taken.map_on fun first isFirst second isSecond same => ?_
    exact List.inj_on_of_nodup_map distinct (fromCases first isFirst).1 (fromCases second isSecond).1 same
  · intro id member
    obtain ⟨case, isCase, rfl⟩ := List.mem_map.mp ((List.mem_insertionSort _).mp member)
    exact ⟨case, (fromCases case isCase).1, rfl⟩
  · rw [List.length_insertionSort, List.length_map, size]
    have positive : 0 < categories.length := List.length_pos_iff.mpr nonempty
    have indices : (categories.zipIdx.map fun place => total / categories.length +
          if place.2 < total % categories.length then 1 else 0) =
        (List.range categories.length).map fun index => total / categories.length +
          if index < total % categories.length then 1 else 0 := by
      rw [List.range_eq_range', ← List.zipIdx_map_snd 0 categories, List.map_map]
      rfl
    rw [indices, sum_shares _ _ _ (Nat.mod_lt _ positive).le, Nat.div_add_mod]

end Stratified

/-! ## The lists of a corpus -/

/-- The lists name no case twice, and no list that is sent names a sealed case. The probe is in
the order of its ids, as its observations are. -/
structure FixedLists.Separate (lists : FixedLists) : Prop where
  probe : lists.probe.Nodup
  probeSorted : lists.probe.Pairwise (· ≤ ·)
  probeLength : lists.probe.length = probeCases
  cold : lists.cold.Nodup
  warm : lists.warm.Nodup
  holdoutLabelled : lists.holdoutLabelled.Nodup
  stability : lists.stability.Nodup
  unsealed : ∀ id ∈ lists.probe ++ lists.warmup ++ lists.cold ++ lists.warm ++
    lists.holdoutLabelled ++ lists.stability, id ∉ lists.holdoutSealed

section Build

variable {development holdout : List CaseRef} {lists : FixedLists}

/-- What a list takes of the latency order: distinct development cases. -/
theorem latency_part {sorted : List CaseRef} (order : sorted.Perm development)
    (distinct : (development.map CaseRef.caseId).Nodup) {ids : List PyStr}
    (part : ids.Sublist (sorted.map CaseRef.caseId)) :
    ids.Nodup ∧ ∀ id ∈ ids, ∃ case ∈ development, case.caseId = id := by
  refine ⟨((order.map CaseRef.caseId).nodup_iff.mpr distinct).sublist part, ?_⟩
  intro id member
  obtain ⟨case, isCase, same⟩ := List.mem_map.mp (part.subset member)
  exact ⟨case, order.mem_iff.mp isCase, same⟩

theorem buildFixedLists_separate (built : buildFixedLists development holdout = .ok lists) :
    lists.Separate := by
  obtain ⟨_, distinct, rest⟩ := bind_eq_ok.mp built
  obtain ⟨_, _, rest⟩ := bind_eq_ok.mp rest
  obtain ⟨_, _, rest⟩ := bind_eq_ok.mp rest
  obtain ⟨sorted, isSorted, rest⟩ := bind_eq_ok.mp rest
  obtain ⟨_, _, rest⟩ := bind_eq_ok.mp rest
  obtain ⟨probe, isProbe, rest⟩ := bind_eq_ok.mp rest
  obtain ⟨stability, isStability, same⟩ := bind_eq_ok.mp rest
  cases same
  replace distinct : ((development ++ holdout).map CaseRef.caseId).Nodup := ensure_eq_ok.mp distinct
  have apart := distinct
  rw [List.map_append, List.nodup_append] at apart
  obtain ⟨development_distinct, holdout_distinct, notBoth⟩ := apart
  have labelled : ∀ {cases : List CaseRef}, (cases.map CaseRef.caseId).Nodup →
      ((cases.filter CaseRef.labelled).map CaseRef.caseId).Nodup := fun nodup =>
    nodup.sublist (List.filter_sublist.map CaseRef.caseId)
  have order := ordered_perm isSorted
  have latency := fun {ids} => @latency_part _ _ order development_distinct ids
  obtain ⟨probeNodup, probeSorted, probeCase, probeLength⟩ :=
    stratified_spec isProbe (labelled development_distinct)
  obtain ⟨stabilityNodup, _, stabilityCase, _⟩ :=
    stratified_spec isStability (labelled holdout_distinct)
  have warmup := latency (List.take_sublist warmupCases _)
  have cold := latency ((List.take_sublist coldLoads _).trans (List.drop_sublist warmupCases _))
  have warm := latency ((List.take_sublist warmRuns _).trans
    (List.drop_sublist (warmupCases + coldLoads) _))
  -- A sealed case is neither a development case nor a labelled one.
  have unsealed : ∀ case ∈ development ++ holdout.filter CaseRef.labelled, case.caseId ∉
      ((holdout.filter (!·.labelled)).map CaseRef.caseId).insertionSort (· ≤ ·) := by
    intro case isCase isSealed
    obtain ⟨other, isOther, same⟩ := List.mem_map.mp ((List.mem_insertionSort _).mp isSealed)
    obtain ⟨inHoldout, unlabelled⟩ := List.mem_filter.mp isOther
    rcases List.mem_append.mp isCase with inDevelopment | isLabelled
    · exact notBoth _ (List.mem_map_of_mem inDevelopment) _ (List.mem_map_of_mem inHoldout) same.symm
    · obtain ⟨alsoHoldout, isLabelled⟩ := List.mem_filter.mp isLabelled
      obtain rfl := List.inj_on_of_nodup_map holdout_distinct inHoldout alsoHoldout same
      simp [isLabelled] at unlabelled
  refine ⟨probeNodup, probeSorted, probeLength, cold.1, warm.1, ?_, stabilityNodup, ?_⟩
  · exact (List.perm_insertionSort _ _).nodup_iff.mpr (labelled holdout_distinct)
  · intro id member
    have named : ∃ case ∈ development ++ holdout.filter CaseRef.labelled, case.caseId = id := by
      simp only [List.mem_append] at member ⊢
      rcases member with ((((inList | inList) | inList) | inList) | inList) | inList
      · obtain ⟨case, isCase, same⟩ := probeCase id inList
        exact ⟨case, .inl (List.mem_filter.mp isCase).1, same⟩
      · obtain ⟨case, isCase, same⟩ := warmup.2 id inList
        exact ⟨case, .inl isCase, same⟩
      · obtain ⟨case, isCase, same⟩ := cold.2 id inList
        exact ⟨case, .inl isCase, same⟩
      · obtain ⟨case, isCase, same⟩ := warm.2 id inList
        exact ⟨case, .inl isCase, same⟩
      · obtain ⟨case, isCase, same⟩ := List.mem_map.mp ((List.mem_insertionSort _).mp inList)
        exact ⟨case, .inr isCase, same⟩
      · obtain ⟨case, isCase, same⟩ := stabilityCase id inList
        exact ⟨case, .inr isCase, same⟩
    obtain ⟨case, isCase, rfl⟩ := named
    exact unsealed case isCase

end Build

end CryptoRadar.Benchmark
