import CryptoRadar.Calibration.Domain
import CryptoRadar.Lib.ExactNumber
import CryptoRadar.Lib.Slices
import CryptoRadar.Lib.Sorting
import Mathlib.Data.List.Lex
import Mathlib.Data.Prod.Lex

/-!
# Metrics of the held-out block

`calibration_metrics` of `domain/calibration.py`: the Brier scores and ten reliability bins of
equal frequency. The bins are slices of the sorted block, so they lose nothing and are balanced
(`calibrationMetrics_bins`). The samples have distinct ids, which decide between equal
probabilities; so the order in which they are given does not matter.

What is proved is about exact arithmetic: `fsum` is the sum and `x ** 2` is the product.
-/

set_option autoImplicit false

namespace CryptoRadar.Calibration

open Checked Slices

/-! ## The block -/

/-- An item of the sorted block: a probability, an id and a label. -/
structure Sample (F : Type) where
  probability : F
  id : PyStr
  label : ℤ

section Program

variable {F : Type} [CalibrationMath F]

/-- `first < second` of the sort keys `(item[0], item[1])`. -/
def Sample.isBefore (first second : Sample F) : Bool :=
  if PyFloat.eq first.probability second.probability then decide (first.id < second.id)
  else PyFloat.lt first.probability second.probability

/-- `sorted`, which moves an item only before one that is larger. -/
def ordered (samples : List (Sample F)) : List (Sample F) :=
  samples.insertionSort fun first second => ¬ second.isBefore first

/-- `math.fsum(values) / n`. -/
def meanOf (values : List F) (n : ℕ) : Except NumberError F := do
  PyFloat.divide (← CalibrationMath.fsum values) (← PyFloat.ofInt n)

/-- `(p - y) ** 2`. -/
def squaredError (p : F) (y : ℤ) : Except NumberError F := do
  PyMath.square (p - (← PyFloat.ofInt y))

/-! ## Bins -/

/-- Where bin `k` begins. -/
def binCut (n k : ℕ) : ℕ := k * n / binCount

/-- A bin of the reliability curve, and its share of the error. -/
def reliabilityBin : List (Sample F) → Except NumberError (ReliabilityBin F × F)
  | [] => .error .zeroDivision
  | first :: rest => do
      let chunk := first :: rest
      let hits := (chunk.map Sample.label).sum
      let meanP ← meanOf (chunk.map Sample.probability) chunk.length
      let rate ← PyFloat.divide (← PyFloat.ofInt hits) (← PyFloat.ofInt chunk.length)
      let gap := (← PyFloat.ofInt chunk.length) * PyFloat.abs (meanP - rate)
      return ({ count := chunk.length, positives := hits.toNat, meanProbability := meanP,
                positiveRate := rate, lowest := first.probability,
                highest := ((first :: rest).getLast (List.cons_ne_nil first rest)).probability },
        gap)

/-! ## Metrics -/

/-- One turn of the check of the probabilities. -/
def checkProbability (p : F) : Except CalibrationFailure Unit := do
  ensure (PyFloat.isFinite p)
    (.calibration .invalidField "probabilities" (pyStr "must be finite"))
  ensure (PyFloat.le 0.0 p && PyFloat.le p 1.0)
    (.calibration .invalidField "probabilities" (pyStr "must be in [0, 1]"))

/-- The checks of `calibration_metrics`. -/
def checkMetricsInput (probabilities : List F) (labels : List ℤ) (ids : List PyStr) :
    Except CalibrationFailure Unit := do
  ensure (probabilities.length = labels.length ∧ probabilities.length = ids.length)
    (.calibration .invalidField "probabilities"
      (pyStr "probabilities, labels and ids must have equal length"))
  ensure (binCount ≤ probabilities.length)
    (.calibration .invalidField "probabilities" (pyStr "needs at least 10 samples, one per bin"))
  ensure ids.Nodup (.calibration .invalidField "ids" (pyStr "must be unique"))
  probabilities.forM checkProbability
  ensure (∀ y ∈ labels, y = 0 ∨ y = 1)
    (.calibration .invalidField "labels" (pyStr "must be 0 or 1"))

/-- `calibration_metrics` behind its checks. -/
def measure (probabilities : List F) (labels : List ℤ) (ids : List PyStr) :
    Except NumberError (CalibrationMetrics F) := do
  let n := probabilities.length
  let positives := labels.sum
  let brier ← meanOf (← (probabilities.zip labels).mapM fun (p, y) => squaredError p y) n
  let prevalence ← PyFloat.divide (← PyFloat.ofInt positives) (← PyFloat.ofInt n)
  let prevalenceBrier ← meanOf (← labels.mapM (squaredError prevalence)) n
  let block := ordered ((probabilities.zip (ids.zip labels)).map fun (p, id, y) => ⟨p, id, y⟩)
  let bins ← (slices block (binCut n) binCount).mapM reliabilityBin
  let calibrationError ← meanOf (bins.map Prod.snd) n
  return { samples := n, positives := positives.toNat, brier := brier, prevalence := prevalence,
           prevalenceBrier := prevalenceBrier, calibrationError := calibrationError,
           bins := bins.map Prod.fst }

/-- `calibration_metrics`. -/
def calibrationMetrics (probabilities : List F) (labels : List ℤ) (ids : List PyStr) :
    Except CalibrationFailure (CalibrationMetrics F) := do
  checkMetricsInput probabilities labels ids
  numeric (measure probabilities labels ids)

end Program

/-! ## Exact arithmetic -/

section Exact

open ExactNumber

/-- The functions that a field does not have, which may be any. -/
class OtherFunctions (K : Type) where
  log : K → Except NumberError K
  sqrt : K → Except NumberError K
  exp : K → Except NumberError K
  log1p : K → Except NumberError K
  repr : K → String
  hex : K → String

variable {K : Type} [Field K] [LinearOrder K]

/-- Exact arithmetic with these functions. -/
scoped instance exactCalibration [OtherFunctions K] : CalibrationMath K where
  toPyFloat := exact
  log := OtherFunctions.log
  sqrt := OtherFunctions.sqrt
  square x := .ok (x * x)
  repr := OtherFunctions.repr
  neg x := -x
  exp := OtherFunctions.exp
  log1p := OtherFunctions.log1p
  fsum values := .ok values.sum
  hex := OtherFunctions.hex

variable [OtherFunctions K]

/-! ### The sorted block -/

/-- The order of samples. -/
def Sample.key (sample : Sample K) : K ×ₗ PyStr := toLex (sample.probability, sample.id)

theorem not_isBefore_iff (first second : Sample K) :
    ¬ second.isBefore first ↔ first.key ≤ second.key := by
  unfold Sample.isBefore Sample.key
  rw [Prod.Lex.toLex_le_toLex]
  by_cases same : second.probability = first.probability
  · simp [same]
  · simp [same, Ne.symm same, le_iff_lt_or_eq]

theorem ordered_eq (samples : List (Sample K)) :
    ordered samples = samples.insertionSort fun first second => first.key ≤ second.key := by
  unfold ordered
  congr 1
  funext first second
  exact propext (not_isBefore_iff first second)

theorem perm_ordered (samples : List (Sample K)) : (ordered samples).Perm samples :=
  List.perm_insertionSort _ samples

/-- The block is sorted by the probability. -/
theorem ordered_sorted (samples : List (Sample K)) :
    (ordered samples).Pairwise fun first second => first.probability ≤ second.probability := by
  rw [ordered_eq]
  refine (List.pairwise_insertionSort _ samples).imp fun {first second} before => ?_
  rcases Prod.Lex.toLex_le_toLex.mp before with less | ⟨same, -⟩
  · exact less.le
  · exact same.le

/-- Distinct ids leave one order. -/
theorem ordered_perm {first second : List (Sample K)} (order : first.Perm second)
    (distinct : (first.map Sample.id).Nodup) : ordered first = ordered second := by
  rw [ordered_eq, ordered_eq]
  refine Sorting.insertionSort_eq_of_perm Sample.key ?_ order
  rw [List.nodup_map_iff_inj_on (distinct.of_map _)]
  intro one isOne two isTwo same
  exact List.inj_on_of_nodup_map distinct isOne isTwo (congrArg (fun key => (ofLex key).2) same)

variable [IsStrictOrderedRing K]

/-! ### One bin -/

theorem meanOf_exact (values : List K) {n : ℕ} (positive : 0 < n) :
    meanOf values n = .ok (values.sum / n) := by
  have nonzero : ((n : ℤ) : K) ≠ 0 := by
    exact_mod_cast positive.ne'
  calc meanOf values n = PyFloat.divide values.sum ((n : ℤ) : K) := rfl
    _ = .ok (values.sum / ((n : ℤ) : K)) := divide_of_ne nonzero
    _ = .ok (values.sum / n) := by rw [Int.cast_natCast]

/-- What the probabilities of a chunk exceed its labels by. -/
def excess (chunk : List (Sample K)) : K :=
  (chunk.map fun sample => sample.probability - (sample.label : K)).sum

/-- What a bin says of its samples. -/
structure Measured (chunk : List (Sample K)) (measured : ReliabilityBin K × K) : Prop where
  count : measured.1.count = chunk.length
  positives : measured.1.positives = (chunk.map Sample.label).sum.toNat
  lowest : ∃ sample ∈ chunk, sample.probability = measured.1.lowest
  highest : ∃ sample ∈ chunk, sample.probability = measured.1.highest
  gap : measured.2 = |excess chunk|

omit [LinearOrder K] [IsStrictOrderedRing K] [OtherFunctions K] in
theorem excess_eq (chunk : List (Sample K)) :
    excess chunk = (chunk.map Sample.probability).sum - ((chunk.map Sample.label).sum : ℤ) := by
  unfold excess
  induction chunk with
  | nil => simp
  | cons sample rest hyp =>
      simp only [List.map_cons, List.sum_cons, Int.cast_add, hyp]
      ring

omit [OtherFunctions K] in
/-- The count times the distance of the means is the distance of the totals. -/
theorem gap_eq (total hits : K) {count : ℕ} (positive : 0 < count) :
    (count : K) * |total / count - hits / count| = |total - hits| := by
  have above : (0 : K) < count := by
    exact_mod_cast positive
  rw [← sub_div, abs_div, abs_of_pos above, mul_div_cancel₀ _ above.ne']

/-- A chunk that is not empty has a bin. -/
theorem reliabilityBin_isOk {chunk : List (Sample K)} (nonempty : chunk ≠ []) :
    ∃ measured, reliabilityBin chunk = .ok measured ∧ Measured chunk measured := by
  cases chunk with
  | nil => exact absurd rfl nonempty
  | cons first rest =>
      have positive : 0 < (first :: rest).length := Nat.succ_pos _
      have nonzero : (((first :: rest).length : ℤ) : K) ≠ 0 := by
        exact_mod_cast positive.ne'
      have mean := meanOf_exact ((first :: rest).map Sample.probability) positive
      have rate : PyFloat.divide ((((first :: rest).map Sample.label).sum : ℤ) : K)
          (((first :: rest).length : ℤ) : K) = .ok _ := divide_of_ne nonzero
      have computed : reliabilityBin (first :: rest) = .ok (_, _) :=
        bind_eq_ok.mpr ⟨_, mean, bind_eq_ok.mpr ⟨_, rfl, bind_eq_ok.mpr ⟨_, rfl,
          bind_eq_ok.mpr ⟨_, rate, bind_eq_ok.mpr ⟨_, rfl, rfl⟩⟩⟩⟩⟩
      refine ⟨_, computed, rfl, rfl, ⟨first, List.mem_cons_self, rfl⟩,
        ⟨_, List.getLast_mem _, rfl⟩, ?_⟩
      simp only [sub_exact, mul_exact, abs_exact, Int.cast_natCast]
      rw [gap_eq _ _ positive, excess_eq]

/-! ### All bins -/

theorem binCut_mono (n : ℕ) : Monotone (binCut n) := by
  intro first second before
  exact Nat.div_le_div_right (Nat.mul_le_mul_right n before)

/-- The width of a bin. -/
theorem binCut_succ_sub (n k : ℕ) : binCut n (k + 1) - binCut n k = n / binCount ∨
    binCut n (k + 1) - binCut n k = n / binCount + 1 := by
  have next : (k + 1) * n = k * n + n := Nat.succ_mul k n
  unfold binCut binCount
  rw [next]
  omega

/-- The samples of the bins. -/
def chunks (block : List (Sample K)) : List (List (Sample K)) :=
  slices block (binCut block.length) binCount

omit [Field K] [LinearOrder K] [IsStrictOrderedRing K] [OtherFunctions K] in
theorem flatten_chunks (block : List (Sample K)) : (chunks block).flatten = block := by
  have start : binCut block.length 0 = 0 := by
    simp [binCut]
  have stop : binCut block.length binCount = block.length := by
    simp [binCut, binCount]
  rw [chunks, flatten_slices block (binCut_mono block.length), start, stop, slice_all]

omit [Field K] [LinearOrder K] [IsStrictOrderedRing K] [OtherFunctions K] in
/-- The chunks are balanced. -/
theorem length_of_mem_chunks {block chunk : List (Sample K)} (member : chunk ∈ chunks block) :
    chunk.length = block.length / binCount ∨ chunk.length = block.length / binCount + 1 := by
  obtain ⟨k, inside, rfl⟩ := List.mem_map.mp member
  have small : k + 1 ≤ binCount := List.mem_range.mp inside
  have stop : binCut block.length (k + 1) ≤ block.length := by
    calc binCut block.length (k + 1) ≤ binCut block.length binCount := binCut_mono _ small
      _ = block.length := by simp [binCut, binCount]
  rw [length_slice stop]
  exact binCut_succ_sub block.length k

omit [OtherFunctions K] in
theorem abs_sum_le (values : List K) : |values.sum| ≤ (values.map abs).sum := by
  induction values with
  | nil => simp
  | cons value rest hyp =>
      calc |(value :: rest).sum| = |value + rest.sum| := by rw [List.sum_cons]
        _ ≤ |value| + |rest.sum| := abs_add_le value rest.sum
        _ ≤ |value| + (rest.map abs).sum := by gcongr
        _ = ((value :: rest).map abs).sum := by rw [List.map_cons, List.sum_cons]

/-! ### Blocks of samples -/

/-- The samples that `calibration_metrics` accepts. -/
structure Valid (samples : List (Sample K)) : Prop where
  enough : binCount ≤ samples.length
  inUnit : ∀ sample ∈ samples, 0 ≤ sample.probability ∧ sample.probability ≤ 1
  binary : ∀ sample ∈ samples, sample.label = 0 ∨ sample.label = 1
  distinct : (samples.map Sample.id).Nodup

omit [IsStrictOrderedRing K] [OtherFunctions K] in
theorem Valid.perm {first second : List (Sample K)} (valid : Valid first)
    (order : first.Perm second) : Valid second where
  enough := order.length_eq ▸ valid.enough
  inUnit sample member := valid.inUnit sample (order.mem_iff.mpr member)
  binary sample member := valid.binary sample (order.mem_iff.mpr member)
  distinct := (order.map _).nodup_iff.mp valid.distinct

/-- The metrics of samples. -/
def metricsOf (samples : List (Sample K)) : Except CalibrationFailure (CalibrationMetrics K) :=
  calibrationMetrics (samples.map Sample.probability) (samples.map Sample.label)
    (samples.map Sample.id)

theorem checkMetricsInput_of_valid {samples : List (Sample K)} (valid : Valid samples) :
    checkMetricsInput (samples.map Sample.probability) (samples.map Sample.label)
      (samples.map Sample.id) = .ok () := by
  have probabilities : (samples.map Sample.probability).forM checkProbability = .ok () := by
    refine forM_eq_ok fun p member => ?_
    obtain ⟨sample, isSample, rfl⟩ := List.mem_map.mp member
    have inside := valid.inUnit sample isSample
    refine bind_eq_ok.mpr ⟨(), ensure_of rfl, ensure_of ?_⟩
    simp [inside.1, inside.2]
  have labels : ∀ y ∈ samples.map Sample.label, y = 0 ∨ y = 1 := by
    intro y member
    obtain ⟨sample, isSample, rfl⟩ := List.mem_map.mp member
    exact valid.binary sample isSample
  refine bind_eq_ok.mpr ⟨(), ensure_of ?_, bind_eq_ok.mpr ⟨(), ensure_of ?_,
    bind_eq_ok.mpr ⟨(), ensure_of valid.distinct, bind_eq_ok.mpr ⟨(), probabilities,
      ensure_of labels⟩⟩⟩⟩
  · simp
  · simpa using valid.enough

/-- A sum of squared errors of samples, divided by their number. -/
def meanSquare (samples : List (Sample K)) (expected : Sample K → K) : K :=
  (samples.map fun sample => (expected sample - sample.label) * (expected sample - sample.label)).sum /
    samples.length

/-- The share of positive samples. -/
def prevalenceOf (samples : List (Sample K)) : K :=
  ((samples.map Sample.label).sum : ℤ) / samples.length

theorem measure_eq {samples : List (Sample K)} (nonempty : 0 < samples.length)
    {bins : List (ReliabilityBin K × K)}
    (binned : (chunks (ordered samples)).mapM reliabilityBin = .ok bins) :
    measure (samples.map Sample.probability) (samples.map Sample.label) (samples.map Sample.id) =
      .ok { samples := samples.length, positives := (samples.map Sample.label).sum.toNat,
            brier := meanSquare samples Sample.probability, prevalence := prevalenceOf samples,
            prevalenceBrier := meanSquare samples fun _ => prevalenceOf samples,
            calibrationError := (bins.map Prod.snd).sum / samples.length,
            bins := bins.map Prod.fst } := by
  have zipped : (samples.map Sample.probability).zip (samples.map Sample.label) =
      samples.map fun sample => (sample.probability, sample.label) := List.zip_map' ..
  have block : ((samples.map Sample.probability).zip
      ((samples.map Sample.id).zip (samples.map Sample.label))).map
        (fun (p, id, y) => (⟨p, id, y⟩ : Sample K)) = samples := by
    rw [List.zip_map', List.zip_map', List.map_map]
    exact List.map_id samples
  have nonzero : (((samples.map Sample.probability).length : ℤ) : K) ≠ 0 := by
    rw [List.length_map]
    exact_mod_cast nonempty.ne'
  have errors (expected : Sample K → K) :
      meanOf (samples.map fun sample =>
        (expected sample - (sample.label : K)) * (expected sample - (sample.label : K)))
          (samples.map Sample.probability).length = .ok (meanSquare samples expected) := by
    rw [List.length_map]
    exact meanOf_exact _ nonempty
  have first : ((samples.map Sample.probability).zip (samples.map Sample.label)).mapM
      (fun (p, y) => squaredError p y) = .ok (samples.map fun sample =>
        (sample.probability - (sample.label : K)) * (sample.probability - (sample.label : K))) := by
    rw [zipped]
    exact (List.mapM_pure (m := Except NumberError)).trans (congrArg Except.ok List.map_map)
  have second : (samples.map Sample.label).mapM (squaredError (prevalenceOf samples)) =
      .ok (samples.map fun sample => (prevalenceOf samples - (sample.label : K)) *
        (prevalenceOf samples - (sample.label : K))) :=
    (List.mapM_pure (m := Except NumberError)).trans (congrArg Except.ok List.map_map)
  have share : PyFloat.divide (((samples.map Sample.label).sum : ℤ) : K)
      ((samples.map Sample.probability).length : ℤ) = .ok (prevalenceOf samples) := by
    rw [divide_of_ne nonzero, List.length_map, Int.cast_natCast]
    rfl
  have gaps : meanOf (bins.map Prod.snd) (samples.map Sample.probability).length =
      .ok ((bins.map Prod.snd).sum / samples.length) := by
    rw [List.length_map]
    exact meanOf_exact _ nonempty
  have cut : (slices (ordered samples) (binCut (samples.map Sample.probability).length)
      binCount).mapM reliabilityBin = .ok bins := by
    rw [List.length_map, ← (perm_ordered samples).length_eq]
    exact binned
  unfold measure
  rw [block]
  refine bind_eq_ok.mpr ⟨_, first, bind_eq_ok.mpr ⟨_, errors Sample.probability, ?_⟩⟩
  refine bind_eq_ok.mpr ⟨_, rfl, bind_eq_ok.mpr ⟨_, rfl, bind_eq_ok.mpr ⟨_, share, ?_⟩⟩⟩
  refine bind_eq_ok.mpr ⟨_, second, bind_eq_ok.mpr ⟨_, errors fun _ => prevalenceOf samples, ?_⟩⟩
  refine bind_eq_ok.mpr ⟨_, cut, bind_eq_ok.mpr ⟨_, gaps, ?_⟩⟩
  rw [List.length_map]
  rfl

theorem chunks_measured {samples : List (Sample K)} (valid : Valid samples) :
    ∃ bins, (chunks (ordered samples)).mapM reliabilityBin = .ok bins ∧
      List.Forall₂ Measured (chunks (ordered samples)) bins := by
  have filled : ∀ chunk ∈ chunks (ordered samples), chunk ≠ [] := by
    intro chunk member empty
    have width := length_of_mem_chunks member
    have enough := valid.enough
    rw [(perm_ordered samples).length_eq, empty, List.length_nil] at width
    unfold binCount at enough width
    omega
  obtain ⟨bins, binned⟩ := mapM_isOk fun chunk member =>
    (reliabilityBin_isOk (filled chunk member)).imp fun _ both => both.1
  refine ⟨bins, binned, (mapM_eq_ok.mp binned).imp fun chunk measured computed => ?_⟩
  cases chunk with
  | nil => cases computed
  | cons first rest =>
      obtain ⟨other, again, holds⟩ := reliabilityBin_isOk (List.cons_ne_nil first rest)
      cases computed.symm.trans again
      exact holds

theorem metricsOf_eq {samples : List (Sample K)} (valid : Valid samples)
    {bins : List (ReliabilityBin K × K)}
    (binned : (chunks (ordered samples)).mapM reliabilityBin = .ok bins) :
    metricsOf samples =
      .ok { samples := samples.length, positives := (samples.map Sample.label).sum.toNat,
            brier := meanSquare samples Sample.probability, prevalence := prevalenceOf samples,
            prevalenceBrier := meanSquare samples fun _ => prevalenceOf samples,
            calibrationError := (bins.map Prod.snd).sum / samples.length,
            bins := bins.map Prod.fst } := by
  have nonempty : 0 < samples.length := lt_of_lt_of_le (by decide) valid.enough
  refine bind_eq_ok.mpr ⟨(), checkMetricsInput_of_valid valid, ?_⟩
  exact mapError_eq_ok.mpr (measure_eq nonempty binned)

/-- The order of the samples does not matter. -/
theorem metricsOf_perm {first second : List (Sample K)} (valid : Valid first)
    (order : first.Perm second) : metricsOf first = metricsOf second := by
  obtain ⟨bins, binned, -⟩ := chunks_measured valid
  have same : ordered first = ordered second := ordered_perm order valid.distinct
  have squares (expected : Sample K → K) : meanSquare first expected = meanSquare second expected := by
    unfold meanSquare
    rw [(order.map _).sum_eq, order.length_eq]
  have hits : (first.map Sample.label).sum = (second.map Sample.label).sum :=
    (order.map _).sum_eq
  have share : prevalenceOf first = prevalenceOf second := by
    unfold prevalenceOf
    rw [hits, order.length_eq]
  rw [metricsOf_eq valid binned, metricsOf_eq (valid.perm order) (same ▸ binned), squares, squares,
    hits, share, order.length_eq]

omit [Field K] [LinearOrder K] [IsStrictOrderedRing K] [OtherFunctions K] in
/-- The labels of a chunk sum to the number of its ones. -/
theorem sum_label {chunk : List (Sample K)}
    (binary : ∀ sample ∈ chunk, sample.label = 0 ∨ sample.label = 1) :
    (chunk.map Sample.label).sum = (chunk.countP fun sample => sample.label = 1 : ℕ) := by
  induction chunk with
  | nil => rfl
  | cons sample rest hyp =>
      obtain ⟨here, later⟩ := List.forall_mem_cons.mp binary
      rw [List.map_cons, List.sum_cons, hyp later]
      rcases here with zero | one
      · simp [zero]
      · rw [List.countP_cons_of_pos (by simpa using one), one]
        push_cast
        ring

omit [OtherFunctions K] in
theorem abs_excess_le {chunk : List (Sample K)}
    (inUnit : ∀ sample ∈ chunk, 0 ≤ sample.probability ∧ sample.probability ≤ 1)
    (binary : ∀ sample ∈ chunk, sample.label = 0 ∨ sample.label = 1) :
    |excess chunk| ≤ chunk.length := by
  have small : ∀ distance ∈ (chunk.map fun sample => sample.probability - (sample.label : K)).map abs,
      distance ≤ 1 := by
    intro distance member
    rw [List.map_map] at member
    obtain ⟨sample, isSample, rfl⟩ := List.mem_map.mp member
    obtain ⟨least, most⟩ := inUnit sample isSample
    rcases binary sample isSample with zero | one
    · simpa [zero, abs_of_nonneg least] using most
    · have below : sample.probability - 1 ≤ 0 := sub_nonpos.mpr most
      simp only [Function.comp, one, Int.cast_one, abs_of_nonpos below]
      linarith
  calc |excess chunk|
      ≤ ((chunk.map fun sample => sample.probability - (sample.label : K)).map abs).sum :=
        abs_sum_le _
    _ ≤ _ := List.sum_le_card_nsmul _ 1 small
    _ = chunk.length := by simp

/-! ## The bins of a block -/

/-- What the bins say of the samples. -/
structure Partitioned (samples : List (Sample K)) (metrics : CalibrationMetrics K) : Prop where
  ten : metrics.bins.length = 10
  balanced : ∀ bin ∈ metrics.bins,
    bin.count = samples.length / 10 ∨ bin.count = samples.length / 10 + 1
  counts : (metrics.bins.map ReliabilityBin.count).sum = samples.length
  hits : metrics.positives = samples.countP fun sample => sample.label = 1
  positives : (metrics.bins.map ReliabilityBin.positives).sum = metrics.positives
  apart : metrics.bins.Pairwise fun one next => one.highest ≤ next.lowest
  atLeast : |(samples.map Sample.probability).sum / samples.length - metrics.prevalence| ≤
    metrics.calibrationError
  atMost : metrics.calibrationError ≤ 1

omit [Field K] [LinearOrder K] [IsStrictOrderedRing K] [OtherFunctions K] in
theorem mem_of_mem_chunk {block chunk : List (Sample K)} (member : chunk ∈ chunks block)
    {sample : Sample K} (inside : sample ∈ chunk) : sample ∈ block := by
  rw [← flatten_chunks block]
  exact List.mem_flatten_of_mem member inside

section Bins

variable {block : List (Sample K)} {bins : List (ReliabilityBin K × K)}
  (measured : List.Forall₂ Measured (chunks block) bins)

include measured

omit [IsStrictOrderedRing K] [OtherFunctions K]

theorem sum_count : ((bins.map Prod.fst).map ReliabilityBin.count).sum = block.length := by
  have counts : (chunks block).map List.length = bins.map fun bin => bin.1.count :=
    map_eq_of_forall₂ measured fun _ _ holds => holds.count.symm
  rw [List.map_map]
  calc (bins.map (ReliabilityBin.count ∘ Prod.fst)).sum
      = ((chunks block).map List.length).sum := by rw [counts]; rfl
    _ = (chunks block).flatten.length := List.length_flatten.symm
    _ = block.length := by rw [flatten_chunks]

theorem sum_positives (binary : ∀ sample ∈ block, sample.label = 0 ∨ sample.label = 1) :
    ((bins.map Prod.fst).map ReliabilityBin.positives).sum =
      block.countP fun sample => sample.label = 1 := by
  have binaryChunks : ∀ chunk ∈ chunks block, ∀ sample ∈ chunk,
      sample.label = 0 ∨ sample.label = 1 :=
    fun chunk member sample inside => binary sample (mem_of_mem_chunk member inside)
  have hits : (chunks block).map (List.countP fun sample => sample.label = 1) =
      bins.map fun bin => bin.1.positives := by
    refine map_eq_of_forall₂ ((List.forall₂_and_left _ _).mpr ⟨binaryChunks, measured⟩) ?_
    rintro chunk bin ⟨binaryChunk, holds⟩
    rw [holds.positives, sum_label binaryChunk, Int.toNat_natCast]
  rw [List.map_map]
  calc (bins.map (ReliabilityBin.positives ∘ Prod.fst)).sum
      = ((chunks block).map (List.countP fun sample => sample.label = 1)).sum := by rw [hits]; rfl
    _ = (chunks block).flatten.countP (fun sample => sample.label = 1) := List.countP_flatten.symm
    _ = _ := by rw [flatten_chunks]

theorem bins_apart
    (sorted : block.Pairwise fun first second => first.probability ≤ second.probability) :
    (bins.map Prod.fst).Pairwise fun one next => one.highest ≤ next.lowest := by
  have below := pairwise_slices sorted (binCut_mono block.length) binCount
  refine List.pairwise_map.mpr (pairwise_of_forall₂ measured below ?_)
  intro one two first second isFirst isSecond before
  obtain ⟨top, inOne, isTop⟩ := isFirst.highest
  obtain ⟨bottom, inTwo, isBottom⟩ := isSecond.lowest
  rw [← isTop, ← isBottom]
  exact before top inOne bottom inTwo

theorem gaps_eq : bins.map Prod.snd = ((chunks block).map excess).map abs := by
  rw [List.map_map]
  exact (map_eq_of_forall₂ measured fun _ _ holds => holds.gap.symm).symm

end Bins

omit [OtherFunctions K] in
/-- The gaps are at least the distance of the totals. -/
theorem abs_excess_le_gaps {block : List (Sample K)} {bins : List (ReliabilityBin K × K)}
    (measured : List.Forall₂ Measured (chunks block) bins) :
    |excess block| ≤ (bins.map Prod.snd).sum := by
  have total : ((chunks block).map excess).sum = excess block := by
    have parts : (chunks block).map excess = ((chunks block).map (List.map fun sample =>
        sample.probability - (sample.label : K))).map List.sum := by
      rw [List.map_map]
      rfl
    rw [parts, ← List.sum_flatten, ← List.map_flatten, flatten_chunks]
    rfl
  rw [gaps_eq measured, ← total]
  exact abs_sum_le _

omit [OtherFunctions K] in
/-- The gaps are at most the number of samples. -/
theorem gaps_le_length {block : List (Sample K)} {bins : List (ReliabilityBin K × K)}
    (measured : List.Forall₂ Measured (chunks block) bins)
    (inUnit : ∀ sample ∈ block, 0 ≤ sample.probability ∧ sample.probability ≤ 1)
    (binary : ∀ sample ∈ block, sample.label = 0 ∨ sample.label = 1) :
    (bins.map Prod.snd).sum ≤ block.length := by
  have small : ∀ chunk ∈ chunks block, |excess chunk| ≤ (chunk.length : K) := by
    intro chunk member
    exact abs_excess_le (fun sample inside => inUnit sample (mem_of_mem_chunk member inside))
      fun sample inside => binary sample (mem_of_mem_chunk member inside)
  have lengths : ((chunks block).map List.length).sum = block.length := by
    rw [← List.length_flatten, flatten_chunks]
  rw [gaps_eq measured, List.map_map]
  calc ((chunks block).map (abs ∘ excess)).sum
      ≤ ((chunks block).map fun chunk => (chunk.length : K)).sum := List.sum_le_sum small
    _ = (((chunks block).map List.length).sum : ℕ) := by
        rw [← Nat.coe_castAddMonoidHom, map_list_sum, List.map_map]
        rfl
    _ = block.length := by rw [lengths]

/-- The bins partition the block: none is much larger than another, no sample is lost, and a bin
lies below the next. Their error is at least that of the means, and the samples may come in any
order. -/
theorem calibrationMetrics_bins {samples : List (Sample K)} (valid : Valid samples) :
    ∃ metrics, metricsOf samples = .ok metrics ∧ metrics.samples = samples.length ∧
      Partitioned samples metrics ∧
      ∀ other : List (Sample K), other.Perm samples → metricsOf other = .ok metrics := by
  obtain ⟨bins, binned, measured⟩ := chunks_measured valid
  have same : (ordered samples).Perm samples := perm_ordered samples
  have inUnit : ∀ sample ∈ ordered samples, 0 ≤ sample.probability ∧ sample.probability ≤ 1 :=
    fun sample member => valid.inUnit sample (same.mem_iff.mp member)
  have binary : ∀ sample ∈ ordered samples, sample.label = 0 ∨ sample.label = 1 :=
    fun sample member => valid.binary sample (same.mem_iff.mp member)
  have above : (0 : K) < samples.length := by
    exact_mod_cast lt_of_lt_of_le (by decide) valid.enough
  have hits : (samples.map Sample.label).sum.toNat = samples.countP fun sample => sample.label = 1 := by
    rw [sum_label valid.binary, Int.toNat_natCast]
  have result := metricsOf_eq valid binned
  refine ⟨_, result, rfl, ?_, fun other order => ?_⟩
  · constructor
    · rw [List.length_map, ← measured.length_eq, chunks, length_slices]
      rfl
    · intro bin member
      obtain ⟨found, isFound, rfl⟩ := List.mem_map.mp member
      obtain ⟨chunk, isChunk, holds⟩ := mem_of_forall₂ measured found isFound
      rw [holds.count, ← same.length_eq]
      exact length_of_mem_chunks isChunk
    · rw [sum_count measured, same.length_eq]
    · exact hits
    · rw [sum_positives measured binary, hits, same.countP_eq]
    · exact bins_apart measured (ordered_sorted samples)
    · have least := abs_excess_le_gaps measured
      have total : excess (ordered samples) = excess samples := (same.map _).sum_eq
      rw [total, excess_eq] at least
      unfold prevalenceOf
      rw [← sub_div, abs_div, abs_of_pos above]
      exact div_le_div_of_nonneg_right least above.le
    · have most := gaps_le_length measured inUnit binary
      rw [same.length_eq] at most
      exact (div_le_one above).mpr most
  · rw [← result]
    exact metricsOf_perm (valid.perm order.symm) order

end Exact

/-! ### Ten samples -/

/-- The rational numbers, where a program that uses no other function never asks for one. -/
scoped instance rationalFunctions : OtherFunctions ℚ where
  log _ := .error .domain
  sqrt _ := .error .domain
  exp _ := .error .domain
  log1p _ := .error .domain
  repr _ := ""
  hex _ := ""

def tenSamples : List (Sample ℚ) :=
  (List.range 10).map fun k => ⟨(k / 2 : ℕ) / 5, [k], if k < 5 then 0 else 1⟩

theorem tenSamples_valid : Valid tenSamples where
  enough := by decide
  inUnit := by decide +kernel
  binary := by decide
  distinct := by decide

theorem tenSamples_bins : ∃ metrics, metricsOf tenSamples = .ok metrics ∧
    metrics.samples = tenSamples.length ∧ Partitioned tenSamples metrics ∧
    ∀ other : List (Sample ℚ), other.Perm tenSamples → metricsOf other = .ok metrics :=
  calibrationMetrics_bins tenSamples_valid

end CryptoRadar.Calibration
