import Mathlib.Data.List.Sort
import Mathlib.Order.Basic

/-!
# The best of what was offered

`Best key limit offered kept` says that `kept` are the `limit` items of `offered` with the
least keys, in any order. Offered items have distinct keys, so the kept items are determined
up to their order (`Best.unique`), whatever the order of the offers.

A collection that takes what is offered one item at a time stays the best of it: an item is
added below the limit (`Best.add`); at the limit it takes the place of the worst kept item
(`Best.replace`) or, being worse itself, is turned away (`Best.keep`). The first `limit` items of
the sorted offers are the best (`best_take`).
-/

set_option autoImplicit false

namespace Ranking

universe u v

variable {α : Type u} {β : Type v} [LinearOrder β]

structure Best (key : α → β) (limit : Nat) (offered kept : List α) : Prop where
  inside : kept ⊆ offered
  distinct : kept.Nodup
  size : kept.length = min limit offered.length
  better : ∀ item ∈ kept, ∀ other ∈ offered, other ∉ kept → key item < key other

namespace Best

variable {key : α → β} {limit : Nat} {offered kept : List α}

theorem nil : Best key limit [] [] where
  inside _ member := member
  distinct := List.nodup_nil
  size := by simp
  better _ member := by cases member

/-- The order of the kept items and the order of the offers do not matter. -/
theorem perm {offered' kept' : List α} (best : Best key limit offered kept)
    (sameOffers : offered.Perm offered') (sameKept : kept.Perm kept') :
    Best key limit offered' kept' where
  inside item member := sameOffers.subset (best.inside (sameKept.mem_iff.mpr member))
  distinct := sameKept.nodup_iff.mp best.distinct
  size := by rw [← sameKept.length_eq, ← sameOffers.length_eq, best.size]
  better item member other offered out :=
    best.better item (sameKept.mem_iff.mpr member) other (sameOffers.mem_iff.mpr offered)
      fun isKept => out (sameKept.mem_iff.mp isKept)

/-- Below the limit everything offered is kept. -/
theorem perm_of_room (best : Best key limit offered kept) (room : kept.length < limit) :
    kept.Perm offered := by
  refine (List.subperm_of_subset best.distinct best.inside).perm_of_length_le ?_
  have size := best.size
  omega

section Offer

variable {item : α} (new : ∀ other ∈ offered, key other ≠ key item)
include new

theorem new_notMem (best : Best key limit offered kept) : item ∉ kept :=
  fun member => new item (best.inside member) rfl

theorem add (best : Best key limit offered kept) (room : kept.length < limit) :
    Best key limit (offered ++ [item]) (kept ++ [item]) := by
  have all := best.perm_of_room room
  have distinct : (kept ++ [item]).Nodup := by
    refine List.nodup_append.mpr ⟨best.distinct, List.nodup_singleton _, fun other isKept _ isNew same => ?_⟩
    rw [List.mem_singleton.mp isNew] at same
    exact best.new_notMem new (same ▸ isKept)
  have same : (kept ++ [item]).Perm (offered ++ [item]) := all.append_right [item]
  refine ⟨same.subset, distinct, ?_, fun _ _ other isOffered out => ?_⟩
  · have length := all.length_eq
    simp only [List.length_append, List.length_singleton]
    omega
  · exact absurd (same.mem_iff.mpr isOffered) out

variable {worst : α} (isWorst : ∀ other ∈ kept, key other ≤ key worst)
include isWorst

/-- A better item takes the place of the worst. -/
theorem replace (best : Best key limit offered kept) (distinctKeys : (offered.map key).Nodup)
    (member : worst ∈ kept) (full : limit ≤ kept.length) (better : key item < key worst)
    {rest : List α} (split : kept.Perm (worst :: rest)) :
    Best key limit (offered ++ [item]) (rest ++ [item]) := by
  have sorted := best.perm (.refl _) split
  obtain ⟨worstOut, restDistinct⟩ := List.nodup_cons.mp sorted.distinct
  have newOut : item ∉ rest := fun inside =>
    sorted.new_notMem new (List.mem_cons_of_mem _ inside)
  have belowWorst : ∀ other ∈ rest, key other < key worst := by
    intro other inside
    have isKept : other ∈ kept := split.mem_iff.mpr (List.mem_cons_of_mem _ inside)
    refine lt_of_le_of_ne (isWorst other isKept) fun same => worstOut ?_
    rw [← List.inj_on_of_nodup_map distinctKeys (best.inside isKept) (best.inside member) same]
    exact inside
  refine ⟨?_, ?_, ?_, ?_⟩
  · intro other inside
    rcases List.mem_append.mp inside with old | isNew
    · exact List.mem_append_left _ (sorted.inside (List.mem_cons_of_mem _ old))
    · exact List.mem_append_right _ isNew
  · refine List.nodup_append.mpr ⟨restDistinct, List.nodup_singleton _, fun other inside _ isNew same => ?_⟩
    rw [List.mem_singleton.mp isNew] at same
    exact newOut (same ▸ inside)
  · have size := best.size
    have length := split.length_eq
    rw [List.length_cons] at length
    rw [List.length_append, List.length_append, List.length_singleton]
    omega
  · intro other inside left isOffered out
    have notNew : left ≠ item := fun same =>
      out (List.mem_append_right _ (List.mem_singleton.mpr same))
    have wasOffered : left ∈ offered := by
      rcases List.mem_append.mp isOffered with old | isNew
      · exact old
      · exact absurd (List.mem_singleton.mp isNew) notNew
    have notBelow : key worst ≤ key left := by
      by_cases isKept : left ∈ worst :: rest
      · rcases List.mem_cons.mp isKept with rfl | stays
        · exact le_refl _
        · exact absurd (List.mem_append_left _ stays) out
      · exact (sorted.better worst List.mem_cons_self left wasOffered isKept).le
    rcases List.mem_append.mp inside with old | isNew
    · exact lt_of_lt_of_le (belowWorst other old) notBelow
    · rw [List.mem_singleton.mp isNew]
      exact lt_of_lt_of_le better notBelow

/-- An item worse than every kept one is turned away. -/
theorem keep (best : Best key limit offered kept) (member : worst ∈ kept)
    (full : limit ≤ kept.length) (worse : ¬ key item < key worst) :
    Best key limit (offered ++ [item]) kept := by
  refine ⟨fun other inside => List.mem_append_left _ (best.inside inside), best.distinct, ?_, ?_⟩
  · have size := best.size
    simp only [List.length_append, List.length_singleton]
    omega
  · intro other inside left isOffered out
    rcases List.mem_append.mp isOffered with old | isNew
    · exact best.better other inside left old out
    · rw [List.mem_singleton.mp isNew]
      have below := isWorst other inside
      have differs := new worst (best.inside member)
      exact lt_of_le_of_lt below (lt_of_le_of_ne (not_lt.mp worse) differs)

end Offer

/-- The kept items are determined by what was offered. -/
theorem unique {first second : List α} (one : Best key limit offered first)
    (other : Best key limit offered second) : first.Perm second := by
  have length : first.length = second.length := one.size.trans other.size.symm
  refine (List.subperm_of_subset one.distinct fun item member => ?_).perm_of_length_le length.ge
  by_contra out
  -- With an item of its own on one side there is one on the other, and each beats the other.
  have outside : ∃ left ∈ second, left ∉ first := by
    by_contra none
    push Not at none
    have same := (List.subperm_of_subset other.distinct none).perm_of_length_le length.le
    exact out (same.mem_iff.mpr member)
  obtain ⟨left, isSecond, notFirst⟩ := outside
  have below := one.better item member left (other.inside isSecond) notFirst
  have above := other.better left isSecond item (one.inside member) out
  exact lt_asymm below above

end Best

/-- The first items of a list with increasing keys are its best. -/
theorem best_take {key : α → β} {offered : List α}
    (increasing : offered.Pairwise fun first second => key first < key second) (limit : Nat) :
    Best key limit offered (offered.take limit) := by
  have distinct : offered.Nodup := by
    refine increasing.imp ?_
    rintro first _ less rfl
    exact lt_irrefl _ less
  refine ⟨List.take_subset _ _, distinct.sublist (List.take_sublist _ _), List.length_take, ?_⟩
  intro item member other isOffered out
  have split : other ∈ offered.take limit ++ offered.drop limit := by
    rw [List.take_append_drop]
    exact isOffered
  have later : other ∈ offered.drop limit := (List.mem_append.mp split).resolve_left out
  rw [← List.take_append_drop limit offered] at increasing
  exact (List.pairwise_append.mp increasing).2.2 item member other later

end Ranking
