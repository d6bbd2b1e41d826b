import Mathlib.Data.List.Basic

/-!
# Terminated lines

A file of lines is a list of bytes in which every line ends with a terminator. `linesOf` are
its lines without their terminators; what stands after the last terminator is dropped. The
lines of two terminated files one after the other are the lines of both (`linesOf_append`),
so a file can be read on from where an earlier reading stopped.
-/

set_option autoImplicit false

namespace Lines

universe u

variable {Byte : Type u} [BEq Byte] [LawfulBEq Byte] {terminator : Byte}

/-- The file is empty or its last line ends with the terminator. -/
def Terminated (terminator : Byte) (data : List Byte) : Prop :=
  data = [] ∨ ∃ front, data = front ++ [terminator]

def linesOf (terminator : Byte) (data : List Byte) : List (List Byte) :=
  (data.splitOn terminator).dropLast

/-- The lines of a file with its last terminator cut off. -/
theorem linesOf_terminated (front : List Byte) :
    linesOf terminator (front ++ [terminator]) = front.splitOn terminator := by
  unfold linesOf
  rw [List.splitOn_append_cons_self, List.splitOn_nil, List.dropLast_append_of_ne_nil (by simp)]
  simp

/-- The lines of a file that is read on. -/
theorem linesOf_append {data : List Byte} (terminated : Terminated terminator data)
    (more : List Byte) :
    linesOf terminator (data ++ more) = linesOf terminator data ++ linesOf terminator more := by
  rcases terminated with rfl | ⟨front, rfl⟩
  · rfl
  · rw [linesOf_terminated, List.append_assoc, List.singleton_append]
    unfold linesOf
    rw [List.splitOn_append_cons_self, List.dropLast_append_of_ne_nil (List.splitOn_ne_nil _ _)]

/-- A line without the terminator in it is the only line of its file. -/
theorem linesOf_line {line : List Byte} (whole : terminator ∉ line) :
    linesOf terminator (line ++ [terminator]) = [line] := by
  rw [linesOf_terminated, List.splitOn_eq_singleton whole]

/-- Terminated files with the same lines are the same. -/
theorem linesOf_injective {data other : List Byte} (terminated : Terminated terminator data)
    (otherTerminated : Terminated terminator other)
    (same : linesOf terminator data = linesOf terminator other) : data = other := by
  rcases terminated with rfl | ⟨front, rfl⟩
  · rcases otherTerminated with rfl | ⟨otherFront, rfl⟩
    · rfl
    · rw [linesOf_terminated] at same
      exact absurd same.symm (List.splitOn_ne_nil _ _)
  · rcases otherTerminated with rfl | ⟨otherFront, rfl⟩
    · rw [linesOf_terminated] at same
      exact absurd same (List.splitOn_ne_nil _ _)
    · rw [linesOf_terminated, linesOf_terminated] at same
      have fronts := congrArg (List.intercalate [terminator]) same
      rw [List.intercalate_splitOn, List.intercalate_splitOn] at fronts
      rw [fronts]

end Lines
