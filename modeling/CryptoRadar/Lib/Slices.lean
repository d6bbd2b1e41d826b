import Mathlib.Algebra.BigOperators.Group.List.Basic
import Mathlib.Order.Monotone.Basic

/-!
# Slices of a list

`slice items first last` is `items[first:last]` of Python. Slices between ascending cuts, one
after the other, are the list between the outer cuts (`flatten_slices`): nothing is lost and
nothing stands in two of them. In a sorted list a slice lies below every later one
(`pairwise_slices`).
-/

set_option autoImplicit false

namespace Slices

variable {α : Type}

/-- `items[first:last]`. -/
def slice (items : List α) (first last : ℕ) : List α := (items.take last).drop first

theorem length_slice {items : List α} {first last : ℕ} (inside : last ≤ items.length) :
    (slice items first last).length = last - first := by
  rw [slice, List.length_drop, List.length_take_of_le inside]

theorem slice_all (items : List α) : slice items 0 items.length = items := by
  rw [slice, List.take_length, List.drop_zero]

theorem slice_self (items : List α) (cut : ℕ) : slice items cut cut = [] := by
  rw [slice, List.drop_eq_nil_iff]
  exact List.length_take_le cut items

theorem slice_sublist (items : List α) (first last : ℕ) : (slice items first last).Sublist items :=
  (List.drop_sublist first _).trans (List.take_sublist last items)

theorem slice_append (items : List α) {first middle last : ℕ} (before : first ≤ middle)
    (after : middle ≤ last) :
    slice items first middle ++ slice items middle last = slice items first last := by
  have inner : items.take middle = (items.take last).take middle := by
    rw [List.take_take, Nat.min_eq_left after]
  have front : slice items first middle = (slice items first last).take (middle - first) := by
    rw [slice, slice, inner, List.drop_take]
  have back : slice items middle last = (slice items first last).drop (middle - first) := by
    rw [slice, slice, List.drop_drop, Nat.add_sub_cancel' before]
  rw [front, back, List.take_append_drop]

def slices (items : List α) (cut : ℕ → ℕ) (count : ℕ) : List (List α) :=
  (List.range count).map fun k => slice items (cut k) (cut (k + 1))

@[simp] theorem length_slices (items : List α) (cut : ℕ → ℕ) (count : ℕ) :
    (slices items cut count).length = count := by
  simp [slices]

theorem slices_succ (items : List α) (cut : ℕ → ℕ) (count : ℕ) :
    slices items cut (count + 1) =
      slices items cut count ++ [slice items (cut count) (cut (count + 1))] := by
  rw [slices, List.range_succ, List.map_append]
  rfl

/-- Nothing is lost between ascending cuts, and nothing stands in two slices. -/
theorem flatten_slices (items : List α) {cut : ℕ → ℕ} (ascending : Monotone cut) (count : ℕ) :
    (slices items cut count).flatten = slice items (cut 0) (cut count) := by
  induction count with
  | zero => exact (slice_self items (cut 0)).symm
  | succ count hyp =>
      rw [slices_succ, List.flatten_append, hyp, List.flatten_singleton]
      exact slice_append items (ascending (Nat.zero_le count)) (ascending (Nat.le_succ count))

/-- In a sorted list each slice lies below every later one. -/
theorem pairwise_slices {order : α → α → Prop} {items : List α} (sorted : items.Pairwise order)
    {cut : ℕ → ℕ} (ascending : Monotone cut) (count : ℕ) :
    (slices items cut count).Pairwise fun one next => ∀ first ∈ one, ∀ second ∈ next,
      order first second := by
  have inner : (slices items cut count).flatten.Pairwise order := by
    rw [flatten_slices items ascending]
    exact sorted.sublist (slice_sublist items (cut 0) (cut count))
  exact (List.pairwise_flatten.mp inner).2

end Slices
