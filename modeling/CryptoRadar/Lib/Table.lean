import Mathlib.Algebra.BigOperators.Group.List.Basic
import Mathlib.Algebra.Order.Group.Nat
import Mathlib.Algebra.Ring.Nat
import Mathlib.Data.List.Basic

/-!
# Tables as lists of rows

A table is the list of its rows in insertion order. `updateWhere` changes the selected rows
in place and keeps the others. `upsert` changes the first row with a key, or adds a row when
no row has it; under a primary key that row is the only one.

An update that selects exactly one row replaces it where it stands
(`updateWhere_of_countP_eq_one`). A counter of an upserted row grows by what the upsert adds to
it (`find?_upsert_self`), the rows of other keys do not move (`find?_upsert_of_ne`), and a sum
over the table grows by the same amount (`sum_upsert`).
-/

set_option autoImplicit false

namespace Table

universe u

variable {Row : Type u}

/-- Change the selected rows in place. -/
def updateWhere (selected : Row → Bool) (change : Row → Row) (rows : List Row) : List Row :=
  rows.map fun row => if selected row then change row else row

/-- An update that selects no row changes nothing. -/
theorem updateWhere_of_countP_eq_zero {selected : Row → Bool} (change : Row → Row)
    {rows : List Row} (never : rows.countP selected = 0) :
    updateWhere selected change rows = rows := by
  have unselected : ∀ row ∈ rows, ¬ selected row = true := List.countP_eq_zero.mp never
  unfold updateWhere
  conv_rhs => rw [← List.map_id rows]
  refine List.map_congr_left fun row member => ?_
  rw [if_neg (unselected row member), id]

/-- An update that selects exactly one row replaces it where it stands. -/
theorem updateWhere_of_countP_eq_one {selected : Row → Bool} (change : Row → Row) :
    ∀ {rows : List Row}, rows.countP selected = 1 →
      ∃ earlier row later, rows = earlier ++ row :: later ∧ selected row = true ∧
        updateWhere selected change rows = earlier ++ change row :: later
  | [], once => by simp at once
  | row :: rest, once => by
      cases hit : selected row with
      | true =>
          have never : rest.countP selected = 0 := by
            simpa [List.countP_cons, hit] using once
          refine ⟨[], row, rest, rfl, hit, ?_⟩
          have unchanged := updateWhere_of_countP_eq_zero change never
          unfold updateWhere at unchanged ⊢
          simp [hit, unchanged]
      | false =>
          have inRest : rest.countP selected = 1 := by
            simpa [List.countP_cons, hit] using once
          obtain ⟨earlier, found, later, split, picked, result⟩ :=
            updateWhere_of_countP_eq_one change inRest
          refine ⟨row :: earlier, found, later, by rw [split]; rfl, picked, ?_⟩
          unfold updateWhere at result ⊢
          simp [hit, result]

/-- Change the first row the key selects, or add `fresh` after the last row. -/
def upsert (key : Row → Bool) (change : Row → Row) (fresh : Row) : List Row → List Row
  | [] => [fresh]
  | row :: rest => if key row then change row :: rest else row :: upsert key change fresh rest

section Upsert

variable {key other : Row → Bool} {change : Row → Row} {fresh : Row}

theorem find?_upsert_self (stays : ∀ row, key row → key (change row)) (selects : key fresh) :
    ∀ rows, (upsert key change fresh rows).find? key = some (((rows.find? key).map change).getD fresh)
  | [] => by simp [upsert, selects]
  | row :: rest => by
      cases hit : key row with
      | true => simp [upsert, hit, stays row hit]
      | false => simp [upsert, hit, find?_upsert_self stays selects rest]

/-- A key that excludes the upserted one finds the row it found before. -/
theorem find?_upsert_of_ne (apart : ∀ row, key row → other (change row) = false)
    (excludes : ∀ row, key row → other row = false) (excludesFresh : other fresh = false) :
    ∀ rows, (upsert key change fresh rows).find? other = rows.find? other
  | [] => by simp [upsert, excludesFresh]
  | row :: rest => by
      cases hit : key row with
      | true => simp [upsert, hit, apart row hit, excludes row hit]
      | false =>
          simp only [upsert, hit, Bool.false_eq_true, if_false, List.find?_cons,
            find?_upsert_of_ne apart excludes excludesFresh rest]

/-- A row of the table after an upsert is an old row, the changed first row of the key, or the
fresh row when no row has the key. -/
theorem mem_upsert {row : Row} :
    ∀ {rows : List Row}, row ∈ upsert key change fresh rows →
      row ∈ rows ∨ (∃ old, rows.find? key = some old ∧ row = change old) ∨
        (rows.find? key = none ∧ row = fresh)
  | [], member => by
      rw [upsert, List.mem_singleton] at member
      exact .inr (.inr ⟨rfl, member⟩)
  | head :: rest, member => by
      cases hit : key head with
      | true =>
          simp only [upsert, hit, if_true, List.mem_cons] at member
          rcases member with changed | kept
          · exact .inr (.inl ⟨head, by simp [hit], changed⟩)
          · exact .inl (List.mem_cons_of_mem _ kept)
      | false =>
          simp only [upsert, hit, Bool.false_eq_true, if_false, List.mem_cons] at member
          rcases member with same | later
          · exact .inl (by simp [same])
          · rcases mem_upsert later with kept | ⟨old, found, changed⟩ | ⟨none, isFresh⟩
            · exact .inl (List.mem_cons_of_mem _ kept)
            · exact .inr (.inl ⟨old, by simp [hit, found], changed⟩)
            · exact .inr (.inr ⟨by simp [hit, none], isFresh⟩)

/-- A sum over the table grows by what the upsert adds to its row. -/
theorem sum_upsert {amount : Row → Nat} {gain : Nat}
    (adds : ∀ row, key row → amount (change row) = amount row + gain)
    (starts : amount fresh = gain) :
    ∀ rows, ((upsert key change fresh rows).map amount).sum = (rows.map amount).sum + gain
  | [] => by simp [upsert, starts]
  | row :: rest => by
      cases hit : key row with
      | true =>
          simp only [upsert, hit, if_true, List.map_cons, List.sum_cons, adds row hit]
          omega
      | false =>
          simp only [upsert, hit, Bool.false_eq_true, if_false, List.map_cons, List.sum_cons,
            sum_upsert adds starts rest]
          omega

end Upsert

end Table
