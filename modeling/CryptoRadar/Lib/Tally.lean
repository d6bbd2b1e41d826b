import Mathlib.Data.List.Dedup
import Mathlib.Data.List.Induction
import Mathlib.Data.List.Perm.Subperm

/-!
# Counts in a dictionary

A dictionary that counts its keys, in the order in which they came first (`tally`). Which keys are the same
is told by a test. Where the test is that of equality, the dictionary has each key once, with the number of
times it came (`tally_perm`); and keys may be mapped to others that the test tells apart alike (`tally_map`).
-/

set_option autoImplicit false

variable {Key : Type}

/-- `counts[key] = counts.get(key, 0) + 1`. -/
def Tally.add (same : Key → Key → Bool) (key : Key) : List (Key × ℕ) → List (Key × ℕ)
  | [] => [(key, 1)]
  | (first, count) :: rest =>
      if same first key then (first, count + 1) :: rest else (first, count) :: add same key rest

/-- The keys with their counts. -/
def tally (same : Key → Key → Bool) (keys : List Key) : List (Key × ℕ) :=
  keys.foldl (fun counts key => Tally.add same key counts) []

namespace Tally

variable {same : Key → Key → Bool} {counts : List (Key × ℕ)} {keys : List Key} {key : Key}

/-- A new key is added behind the others. -/
theorem add_new (new : ∀ entry ∈ counts, same entry.1 key = false) :
    add same key counts = counts ++ [(key, 1)] := by
  induction counts with
  | nil => rfl
  | cons entry rest ih =>
      obtain ⟨first, later⟩ := List.forall_mem_cons.mp new
      rw [add, if_neg (Bool.eq_false_iff.mp first), ih later]
      rfl

/-- A known key counts once more. -/
theorem add_known {front back : List (Key × ℕ)} {count : ℕ} (known : same key key = true)
    (before : ∀ entry ∈ front, same entry.1 key = false) :
    add same key (front ++ (key, count) :: back) = front ++ (key, count + 1) :: back := by
  induction front with
  | nil => exact if_pos known
  | cons entry rest ih =>
      obtain ⟨first, later⟩ := List.forall_mem_cons.mp before
      rw [List.cons_append, add, if_neg (Bool.eq_false_iff.mp first), ih later]
      rfl

variable [DecidableEq Key]

/-- The dictionary has each of the keys once, with its count. -/
structure Counts (counts : List (Key × ℕ)) (keys : List Key) : Prop where
  once : (counts.map Prod.fst).Nodup
  counted : ∀ entry, entry ∈ counts ↔ entry.1 ∈ keys ∧ entry.2 = keys.count entry.1

theorem Counts.add (isCounts : Counts counts keys)
    (exact : ∀ first ∈ key :: keys, (same first key = true ↔ first = key)) :
    Counts (Tally.add same key counts) (keys ++ [key]) := by
  have isKey : ∀ entry ∈ counts, entry.1 ∈ keys := fun entry member => ((isCounts.counted entry).mp member).1
  have differs : ∀ entry ∈ counts, entry.1 ≠ key → same entry.1 key = false := by
    intro entry member different
    rw [Bool.eq_false_iff, Ne, exact _ (List.mem_cons_of_mem _ (isKey entry member))]
    exact different
  by_cases known : key ∈ keys
  · obtain ⟨front, back, rfl⟩ := List.append_of_mem ((isCounts.counted (key, keys.count key)).mpr ⟨known, rfl⟩)
    have once := isCounts.once
    rw [List.map_append, List.map_cons, List.nodup_middle, List.nodup_cons, ← List.map_append] at once
    obtain ⟨notOther, _⟩ := once
    have other : ∀ entry ∈ front ++ back, entry.1 ≠ key := by
      intro entry member isKey
      exact notOther (List.mem_map.mpr ⟨entry, member, isKey⟩)
    rw [add_known ((exact key List.mem_cons_self).mpr rfl) fun entry member =>
      differs entry (List.mem_append_left _ member) (other entry (List.mem_append_left _ member))]
    refine ⟨?_, fun entry => ?_⟩
    · simpa using isCounts.once
    · have counted := isCounts.counted entry
      have others := other entry
      obtain ⟨first, count⟩ := entry
      simp only [List.mem_append, List.mem_cons, Prod.mk.injEq, List.not_mem_nil, or_false,
        List.count_append, List.count_singleton, beq_iff_eq] at counted others ⊢
      by_cases isFirst : first = key
      · subst isFirst
        simp only [true_and, or_true] at counted ⊢
        constructor
        · rintro (inFront | same | inBack)
          · exact absurd rfl (others (.inl inFront))
          · simpa using same
          · exact absurd rfl (others (.inr inBack))
        · intro isCount
          exact .inr (.inl (by simpa using isCount))
      · simp only [isFirst, false_and, false_or, or_false, Ne.symm isFirst, if_false, Nat.add_zero] at counted ⊢
        exact counted
  · have new : ∀ entry ∈ counts, entry.1 ≠ key := by
      rintro entry member rfl
      exact known (isKey entry member)
    rw [add_new fun entry member => differs entry member (new entry member)]
    refine ⟨?_, fun entry => ?_⟩
    · rw [List.map_append, List.nodup_append]
      refine ⟨isCounts.once, List.nodup_singleton _, ?_⟩
      intro first isFirst second isSecond
      obtain ⟨entry, member, rfl⟩ := List.mem_map.mp isFirst
      rw [List.mem_singleton.mp isSecond]
      exact new entry member
    · have counted := isCounts.counted entry
      have others := new entry
      obtain ⟨first, count⟩ := entry
      have none := List.count_eq_zero.mpr known
      simp only [List.mem_append, List.mem_cons, Prod.mk.injEq, List.not_mem_nil, or_false,
        List.count_append, List.count_singleton, beq_iff_eq] at counted others ⊢
      by_cases isFirst : first = key
      · subst isFirst
        simp only [true_and, or_true, none, if_true, Nat.zero_add]
        exact ⟨fun member => member.elim (fun inside => absurd rfl (others inside)) id, .inr⟩
      · simp only [isFirst, false_and, or_false, Ne.symm isFirst, if_false, Nat.add_zero]
        exact counted

end Tally

theorem tally_concat (same : Key → Key → Bool) (keys : List Key) (key : Key) :
    tally same (keys ++ [key]) = Tally.add same key (tally same keys) :=
  List.foldl_append

theorem Tally.mem_add {same : Key → Key → Bool} {key : Key} {entry : Key × ℕ} :
    ∀ {counts : List (Key × ℕ)}, entry ∈ add same key counts →
      entry.1 = key ∨ ∃ other ∈ counts, other.1 = entry.1
  | [], member => .inl (by rw [List.mem_singleton.mp member])
  | (first, count) :: rest, member => by
      unfold add at member
      split at member
      next =>
        rcases List.mem_cons.mp member with rfl | later
        · exact .inr ⟨_, List.mem_cons_self, rfl⟩
        · exact .inr ⟨entry, List.mem_cons_of_mem _ later, rfl⟩
      next =>
        rcases List.mem_cons.mp member with rfl | later
        · exact .inr ⟨_, List.mem_cons_self, rfl⟩
        · exact (mem_add later).imp_right fun ⟨other, isOther, isKey⟩ =>
            ⟨other, List.mem_cons_of_mem _ isOther, isKey⟩

theorem mem_of_mem_tally {same : Key → Key → Bool} {keys : List Key} {entry : Key × ℕ}
    (member : entry ∈ tally same keys) : entry.1 ∈ keys := by
  induction keys using List.reverseRecOn generalizing entry with
  | nil => cases member
  | append_singleton keys key ih =>
      rw [tally_concat] at member
      rcases Tally.mem_add member with isKey | ⟨other, isOther, isKey⟩
      · simp [isKey]
      · exact List.mem_append_left _ (isKey ▸ ih isOther)

section Map

variable {Other : Type} {same : Key → Key → Bool} (other : Other → Other → Bool) (image : Key → Other)

theorem Tally.add_map {key : Key} : ∀ {counts : List (Key × ℕ)},
    (∀ entry ∈ counts, same entry.1 key = other (image entry.1) (image key)) →
      (add same key counts).map (Prod.map image id) =
        add other (image key) (counts.map (Prod.map image id))
  | [], _ => rfl
  | (first, count) :: rest, alike => by
      obtain ⟨isFirst, later⟩ := List.forall_mem_cons.mp alike
      rw [List.map_cons, add]
      by_cases known : same first key = true
      · have knownImage : other (image first) (image key) = true := isFirst ▸ known
        rw [if_pos known]
        exact (if_pos knownImage).symm
      · have newImage : ¬ other (image first) (image key) = true := isFirst ▸ known
        rw [if_neg known, List.map_cons, add_map later]
        exact (if_neg newImage).symm

/-- Keys may be counted by their images, where the test tells these apart alike. -/
theorem tally_map {keys : List Key}
    (alike : ∀ first ∈ keys, ∀ second ∈ keys, same first second = other (image first) (image second)) :
    (tally same keys).map (Prod.map image id) = tally other (keys.map image) := by
  induction keys using List.reverseRecOn with
  | nil => rfl
  | append_singleton keys key ih =>
      rw [tally_concat, List.map_append, List.map_singleton, tally_concat,
        ← ih fun first isFirst second isSecond =>
          alike first (List.mem_append_left _ isFirst) second (List.mem_append_left _ isSecond)]
      refine Tally.add_map other image fun entry member => ?_
      exact alike _ (List.mem_append_left _ (mem_of_mem_tally member)) _ (by simp)

end Map

/-- Where the test is that of equality, the counts are those of the keys. -/
theorem tally_counts [DecidableEq Key] {same : Key → Key → Bool} {keys : List Key}
    (exact : ∀ first ∈ keys, ∀ second ∈ keys, (same first second = true ↔ first = second)) :
    Tally.Counts (tally same keys) keys := by
  induction keys using List.reverseRecOn with
  | nil => exact ⟨List.nodup_nil, fun entry => by simp [tally]⟩
  | append_singleton keys key ih =>
      rw [tally_concat]
      refine Tally.Counts.add (ih fun first isFirst second isSecond =>
        exact first (List.mem_append_left _ isFirst) second (List.mem_append_left _ isSecond)) ?_
      intro first isFirst
      refine exact first ?_ key (by simp)
      rcases List.mem_cons.mp isFirst with rfl | member
      · simp
      · exact List.mem_append_left _ member

/-- Where the test is that of equality, each key has its count. -/
theorem tally_perm [DecidableEq Key] {same : Key → Key → Bool} {keys : List Key}
    (exact : ∀ first ∈ keys, ∀ second ∈ keys, (same first second = true ↔ first = second)) :
    (tally same keys).Perm (keys.dedup.map fun key => (key, keys.count key)) := by
  obtain ⟨once, counted⟩ := tally_counts exact
  refine (List.perm_ext_iff_of_nodup once.of_map ?_).mpr fun entry => ?_
  · exact (List.nodup_dedup keys).map fun first second equal => (Prod.mk.inj equal).1
  · rw [counted, List.mem_map]
    constructor
    · rintro ⟨member, isCount⟩
      exact ⟨entry.1, List.mem_dedup.mpr member, Prod.ext rfl isCount.symm⟩
    · rintro ⟨key, member, rfl⟩
      exact ⟨List.mem_dedup.mp member, rfl⟩

/-- How many keys have some count, where the test is that of equality. -/
theorem length_tally_filter [DecidableEq Key] {same : Key → Key → Bool} {keys : List Key}
    (exact : ∀ first ∈ keys, ∀ second ∈ keys, (same first second = true ↔ first = second)) (enough : ℕ → Bool) :
    ((tally same keys).filter fun entry => enough entry.2).length =
      (keys.dedup.filter fun key => enough (keys.count key)).length := by
  rw [((tally_perm exact).filter _).length_eq, List.filter_map, List.length_map]
  rfl
