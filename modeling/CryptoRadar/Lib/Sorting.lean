import Mathlib.Data.List.Sort

/-!
# Sorting in two parts

A stable sort by insertion, of a list whose items are early or late: where every early item
comes strictly before every late one, the sorted list is the sorted early items and then the
sorted late items (`insertionSort_split`). What is late does not change the order of what is
early. Nor does what is left out change the order of what is kept (`filter_insertionSort`).
-/

set_option autoImplicit false

namespace Sorting

universe u

variable {α : Type u} {order : α → α → Prop} [DecidableRel order]

/-- An early item is inserted among the early items. -/
theorem orderedInsert_append_left {item : α} {first second : List α}
    (before : ∀ other ∈ second, order item other) :
    (first ++ second).orderedInsert order item = first.orderedInsert order item ++ second := by
  induction first with
  | nil =>
      cases second with
      | nil => rfl
      | cons head rest =>
          rw [List.nil_append, List.orderedInsert_cons_of_le order rest (before head List.mem_cons_self)]
          rfl
  | cons head rest hyp =>
      rw [List.cons_append, List.orderedInsert_cons, List.orderedInsert_cons, hyp]
      split <;> rfl

/-- A late item is inserted among the late items. -/
theorem orderedInsert_append_right {item : α} {first second : List α}
    (after : ∀ other ∈ first, ¬ order item other) :
    (first ++ second).orderedInsert order item = first ++ second.orderedInsert order item := by
  induction first with
  | nil => rfl
  | cons head rest hyp =>
      rw [List.cons_append, List.orderedInsert_of_not_le order _ (after head List.mem_cons_self),
        hyp fun other member => after other (List.mem_cons_of_mem _ member)]
      rfl

theorem insertionSort_split (early : α → Bool)
    (before : ∀ first second, early first → ¬ early second → order first second)
    (after : ∀ first second, early first → ¬ early second → ¬ order second first) (items : List α) :
    items.insertionSort order =
      (items.filter early).insertionSort order ++
        (items.filter fun item => !early item).insertionSort order := by
  induction items with
  | nil => rfl
  | cons item rest hyp =>
      rw [List.insertionSort_cons, hyp]
      by_cases isEarly : early item
      · rw [List.filter_cons_of_pos isEarly, List.filter_cons_of_neg (by simp [isEarly]),
          List.insertionSort_cons]
        refine orderedInsert_append_left fun other member => before item other isEarly ?_
        have late := (List.mem_filter.mp ((List.mem_insertionSort order).mp member)).2
        simpa using late
      · rw [List.filter_cons_of_neg isEarly, List.filter_cons_of_pos (by simp [isEarly]),
          List.insertionSort_cons]
        refine orderedInsert_append_right fun other member => after other item ?_ isEarly
        exact (List.mem_filter.mp ((List.mem_insertionSort order).mp member)).2

section Filter

variable [IsTrans α order] {keep : α → Bool}

/-- An item is inserted among the kept items where it is among all. -/
theorem filter_orderedInsert {item : α} {items : List α} (sorted : items.Pairwise order) :
    (items.orderedInsert order item).filter keep =
      if keep item then (items.filter keep).orderedInsert order item else items.filter keep := by
  induction items with
  | nil =>
      rw [List.orderedInsert_nil, List.filter_cons]
      rfl
  | cons head rest hyp =>
      obtain ⟨least, sortedRest⟩ := List.pairwise_cons.mp sorted
      rw [List.orderedInsert_cons]
      split
      next before =>
        have least : ∀ other ∈ (head :: rest).filter keep, order item other := by
          intro other member
          rcases List.mem_cons.mp (List.mem_of_mem_filter member) with rfl | later
          · exact before
          · exact trans_of order before (least other later)
        have front : ((head :: rest).filter keep).orderedInsert order item =
            item :: (head :: rest).filter keep :=
          @orderedInsert_append_left α order _ item [] _ least
        rw [front, List.filter_cons]
      next after =>
        rw [List.filter_cons, hyp sortedRest, List.filter_cons]
        by_cases kept : keep head
        · rw [if_pos kept, if_pos kept, List.orderedInsert_of_not_le order _ after]
          split <;> rfl
        · rw [if_neg kept, if_neg kept]

/-- A stable sort of what is kept is what is kept of the sort. -/
theorem filter_insertionSort [Std.Total order] (items : List α) :
    (items.insertionSort order).filter keep = (items.filter keep).insertionSort order := by
  induction items with
  | nil => rfl
  | cons item rest hyp =>
      rw [List.insertionSort_cons, filter_orderedInsert (List.pairwise_insertionSort order rest), hyp,
        List.filter_cons]
      split <;> rfl

end Filter

/-- Items with distinct keys are sorted into one order. -/
theorem insertionSort_eq_of_perm {β : Type*} [LinearOrder β] (key : α → β) {first second : List α}
    (distinct : (first.map key).Nodup) (same : first.Perm second) :
    (first.insertionSort fun item other => key item ≤ key other) =
      second.insertionSort fun item other => key item ≤ key other := by
  refine List.Perm.eq_of_pairwise (fun item other isFirst isSecond before after => ?_)
    (List.pairwise_insertionSort _ _) (List.pairwise_insertionSort _ _)
    ((List.perm_insertionSort _ _).trans (same.trans (List.perm_insertionSort _ _).symm))
  refine List.inj_on_of_nodup_map distinct ?_ ?_ (le_antisymm before after)
  · exact (List.mem_insertionSort _).mp isFirst
  · exact same.mem_iff.mpr ((List.mem_insertionSort _).mp isSecond)

end Sorting
