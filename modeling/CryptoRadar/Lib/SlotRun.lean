import Mathlib.Data.List.Dedup
import Mathlib.Data.List.Nodup
import Mathlib.Data.List.Pairwise
import Mathlib.Data.List.Perm.Basic
import Mathlib.Tactic.Linarith
import Mathlib.Tactic.Ring

/-!
# Runs of slots

A run is so many whole numbers, one after the other. Ascending numbers that hold a run and start with it
begin with the run (`take_eq_slotRun`). Cut into buckets of so many slots each, a run fills the buckets that
lie between its ends as a whole, and no others (`filled_perm`).
-/

set_option autoImplicit false

/-- So many slots, one after the other. -/
def slotRun (start : ℤ) : ℕ → List ℤ
  | 0 => []
  | count + 1 => start :: slotRun (start + 1) count

section SlotRuns

variable {start slot : ℤ} {count : ℕ}

@[simp] theorem length_slotRun : (slotRun start count).length = count := by
  induction count generalizing start with
  | zero => rfl
  | succ count ih => simp [slotRun, ih]

@[simp] theorem mem_slotRun : slot ∈ slotRun start count ↔ start ≤ slot ∧ slot < start + count := by
  induction count generalizing start with
  | zero => simp [slotRun]
  | succ count ih =>
      simp only [slotRun, List.mem_cons, ih]
      omega

theorem slotRun_add (start : ℤ) (first second : ℕ) :
    slotRun start (first + second) = slotRun start first ++ slotRun (start + first) second := by
  induction first generalizing start with
  | zero => simp [slotRun]
  | succ first ih =>
      rw [Nat.succ_add]
      simp only [slotRun, List.cons_append, ih]
      congr 3
      push_cast
      ring

theorem slotRun_ascending (start : ℤ) (count : ℕ) : (slotRun start count).Pairwise (· < ·) := by
  induction count generalizing start with
  | zero => exact .nil
  | succ count ih =>
      refine .cons ?_ (ih _)
      intro slot member
      rw [mem_slotRun] at member
      omega

/-- Ascending slots that start with a run and hold all of it. -/
theorem take_eq_slotRun {rest : List ℤ} (ascending : (start :: rest).Pairwise (· < ·))
    (holds : ∀ slot ∈ slotRun start count, slot ∈ start :: rest) :
    (start :: rest).take count = slotRun start count := by
  induction count generalizing start rest with
  | zero => rfl
  | succ count ih =>
      rw [List.take_succ_cons, slotRun]
      congr 1
      rcases count with _ | count
      · rfl
      obtain ⟨above, later⟩ := List.pairwise_cons.mp ascending
      have inRest : ∀ slot ∈ slotRun (start + 1) (count + 1), slot ∈ rest := by
        intro slot member
        rw [mem_slotRun] at member
        have among := holds slot (by rw [mem_slotRun]; push_cast at member ⊢; omega)
        rcases List.mem_cons.mp among with same | inRest
        · omega
        · exact inRest
      have next : start + 1 ∈ rest := inRest _ (by rw [mem_slotRun]; push_cast; omega)
      cases rest with
      | nil => cases next
      | cons head rest =>
          have isNext : head = start + 1 := by
            have least := above head List.mem_cons_self
            rcases List.mem_cons.mp next with same | further
            · exact same.symm
            · have order := (List.pairwise_cons.mp later).1 _ further
              omega
          subst isNext
          exact ih later inRest

end SlotRuns

theorem slotRun_concat (start : ℤ) (count : ℕ) :
    slotRun start (count + 1) = slotRun start count ++ [start + count] := by
  rw [slotRun_add]
  rfl

/-! ## Buckets -/

/-- How many slots of a run lie in a bucket. -/
theorem count_slotRun {size : ℕ} (positive : 0 < size) (start bucket : ℤ) (count : ℕ) :
    ((slotRun start count).map (· / (size : ℤ))).count bucket =
      (min (start + count) (size * bucket + size) - max start (size * bucket)).toNat := by
  induction count generalizing start with
  | zero =>
      rw [slotRun, List.map_nil, List.count_nil]
      omega
  | succ count ih =>
      have inside : start / (size : ℤ) = bucket ↔ size * bucket ≤ start ∧ start < size * bucket + size := by
        have whole : 0 < (size : ℤ) := by exact_mod_cast positive
        constructor
        · rintro rfl
          have split := Int.mul_ediv_add_emod start size
          have rest := Int.emod_nonneg start whole.ne'
          have below := Int.emod_lt_of_pos start whole
          omega
        · rintro ⟨from_, below⟩
          refine le_antisymm ?_ ?_
          · refine Int.lt_add_one_iff.mp (Int.ediv_lt_of_lt_mul whole ?_)
            linarith
          · exact Int.le_ediv_of_mul_le whole (by linarith)
      rw [slotRun, List.map_cons, List.count_cons, ih]
      by_cases here : start / (size : ℤ) = bucket
      · rw [if_pos (by simpa using here)]
        have range := inside.mp here
        push_cast
        omega
      · rw [if_neg (by simpa using here)]
        have range := mt inside.mpr here
        push_cast
        omega

/-- The buckets of so many slots that lie between the ends of a run. -/
def wholeBuckets (size : ℕ) (start : ℤ) (count : ℕ) : List ℤ :=
  slotRun (-(-start / (size : ℤ))) ((start + count) / (size : ℤ) + -start / (size : ℤ)).toNat

theorem mem_wholeBuckets {size : ℕ} (positive : 0 < size) {start bucket : ℤ} {count : ℕ} :
    bucket ∈ wholeBuckets size start count ↔ start ≤ size * bucket ∧ size * bucket + size ≤ start + count := by
  have whole : 0 < (size : ℤ) := by exact_mod_cast positive
  have low : start ≤ size * bucket ↔ -(-start / (size : ℤ)) ≤ bucket := by
    rw [neg_le, Int.le_ediv_iff_mul_le whole]
    constructor <;> intro below <;> linarith
  have high : size * bucket + size ≤ start + count ↔ bucket + 1 ≤ (start + count) / (size : ℤ) := by
    rw [Int.le_ediv_iff_mul_le whole]
    constructor <;> intro below <;> linarith
  rw [low, high, wholeBuckets, mem_slotRun]
  omega

theorem wholeBuckets_nodup (size : ℕ) (start : ℤ) (count : ℕ) : (wholeBuckets size start count).Nodup :=
  (slotRun_ascending _ _).imp fun below => below.ne

/-- The whole buckets are those of which every slot is in the run. -/
theorem mem_wholeBuckets_iff {size : ℕ} (positive : 0 < size) {start bucket : ℤ} {count : ℕ} :
    bucket ∈ wholeBuckets size start count ↔
      ∀ slot ∈ slotRun (size * bucket) size, slot ∈ slotRun start count := by
  rw [mem_wholeBuckets positive]
  constructor
  · rintro ⟨starts, ends⟩ slot member
    rw [mem_slotRun] at member ⊢
    omega
  · intro all
    have first := all (size * bucket) (by rw [mem_slotRun]; omega)
    have last := all (size * bucket + size - 1) (by rw [mem_slotRun]; omega)
    rw [mem_slotRun] at first last
    omega

/-- The buckets that a run fills are the whole ones. -/
theorem filled_perm {size : ℕ} (positive : 0 < size) (start : ℤ) (count : ℕ) :
    (((slotRun start count).map (· / (size : ℤ))).dedup.filter fun bucket =>
      ((slotRun start count).map (· / (size : ℤ))).count bucket = size).Perm (wholeBuckets size start count) := by
  refine (List.perm_ext_iff_of_nodup ((List.nodup_dedup _).filter _) (wholeBuckets_nodup size start count)).mpr ?_
  intro bucket
  have counted : ((slotRun start count).map (· / (size : ℤ))).count bucket = size ↔
      start ≤ size * bucket ∧ size * bucket + size ≤ start + count := by
    rw [count_slotRun positive]
    omega
  rw [mem_wholeBuckets positive, List.mem_filter, List.mem_dedup, decide_eq_true_eq, counted]
  refine and_iff_right_of_imp ?_
  intro isWhole
  rw [← List.count_pos_iff, counted.mpr isWhole]
  exact positive

/-- There are so many whole buckets where so many follow each other. -/
theorem le_length_wholeBuckets {size needed : ℕ} (positive : 0 < size) (some : 0 < needed) (start : ℤ)
    (count : ℕ) : needed ≤ (wholeBuckets size start count).length ↔
      ∃ first : ℤ, start ≤ size * first ∧ size * (first + needed) ≤ start + count := by
  have whole : 0 < (size : ℤ) := by exact_mod_cast positive
  rw [wholeBuckets, length_slotRun]
  have low : ∀ bucket : ℤ, start ≤ size * bucket ↔ -(-start / (size : ℤ)) ≤ bucket := by
    intro bucket
    rw [neg_le, Int.le_ediv_iff_mul_le whole]
    constructor <;> intro below <;> linarith
  have high : ∀ bucket : ℤ, size * bucket ≤ start + count ↔ bucket ≤ (start + count) / (size : ℤ) := by
    intro bucket
    rw [Int.le_ediv_iff_mul_le whole, mul_comm]
  constructor
  · intro enough
    exact ⟨-(-start / (size : ℤ)), (low _).mpr le_rfl, (high _).mpr (by omega)⟩
  · rintro ⟨first, starts, ends⟩
    have after := (low first).mp starts
    have before := (high _).mp ends
    omega
