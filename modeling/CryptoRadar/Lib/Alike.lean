import CryptoRadar.Lib.Checked

/-!
# Two computations side by side

Two computations that may fail are alike when they return related values or fail for the same
kind of reason. What a program does not read is shown by running it twice: the two runs are
alike, step by step (`Alike.bind`, `Alike.mapM`), as long as each value that is read is the
same in both.
-/

set_option autoImplicit false

namespace Checked

universe u v w

variable {Failure : Type u} {Kind : Type w} {kind : Failure → Kind} {α β γ δ : Type v}

/-- Both return, related values, or both fail, for the same kind of reason. -/
inductive Alike (kind : Failure → Kind) (related : α → β → Prop) :
    Except Failure α → Except Failure β → Prop where
  | ok {first : α} {second : β} (values : related first second) :
      Alike kind related (.ok first) (.ok second)
  | error {first second : Failure} (kinds : kind first = kind second) :
      Alike kind related (.error first) (.error second)

theorem Alike.refl (result : Except Failure α) : Alike kind Eq result result := by
  cases result with
  | ok value => exact .ok rfl
  | error failure => exact .error rfl

theorem Alike.of_eq {first second : Except Failure α} (same : first = second) :
    Alike kind Eq first second :=
  same ▸ Alike.refl first

theorem Alike.symm {related : α → β → Prop} {back : β → α → Prop} {first : Except Failure α}
    {second : Except Failure β} (alike : Alike kind related first second)
    (turn : ∀ left right, related left right → back right left) : Alike kind back second first := by
  cases alike with
  | ok values => exact .ok (turn _ _ values)
  | error kinds => exact .error kinds.symm

/-- Alike first parts, followed by parts that are alike on related values. -/
theorem Alike.bind {related : α → β → Prop} {results : γ → δ → Prop}
    {first : Except Failure α} {second : Except Failure β} {firstNext : α → Except Failure γ}
    {secondNext : β → Except Failure δ} (alike : Alike kind related first second)
    (next : ∀ left right, related left right →
      Alike kind results (firstNext left) (secondNext right)) :
    Alike kind results (first >>= firstNext) (second >>= secondNext) := by
  cases alike with
  | ok values => exact next _ _ values
  | error kinds => exact .error kinds

/-- One first part, followed by parts that are alike on the value it returns. -/
theorem Alike.bind_self {results : γ → δ → Prop} {first : Except Failure α}
    {firstNext : α → Except Failure γ} {secondNext : α → Except Failure δ}
    (next : ∀ value, first = .ok value →
      Alike kind results (firstNext value) (secondNext value)) :
    Alike kind results (first >>= firstNext) (first >>= secondNext) := by
  cases first with
  | error failure => exact .error rfl
  | ok value => exact next value rfl

/-- A computation that goes on from one value in both runs. -/
theorem Alike.bind_eq {results : γ → δ → Prop} {first second : Except Failure α}
    {firstNext : α → Except Failure γ} {secondNext : α → Except Failure δ}
    (alike : Alike kind Eq first second)
    (next : ∀ value, Alike kind results (firstNext value) (secondNext value)) :
    Alike kind results (first >>= firstNext) (second >>= secondNext) := by
  refine alike.bind fun left right same => ?_
  subst same
  exact next left

/-- Turns that are alike one by one. -/
theorem Alike.mapM {firstTurn secondTurn : α → Except Failure β} :
    ∀ {items : List α}, (∀ item ∈ items, Alike kind Eq (firstTurn item) (secondTurn item)) →
      Alike kind Eq (items.mapM firstTurn) (items.mapM secondTurn)
  | [], _ => Alike.refl _
  | item :: rest, alike => by
      have head := alike item List.mem_cons_self
      have tail : Alike kind Eq (rest.mapM firstTurn) (rest.mapM secondTurn) :=
        Alike.mapM fun later member => alike later (List.mem_cons_of_mem _ member)
      rw [List.mapM_cons, List.mapM_cons]
      refine head.bind_eq fun value => ?_
      exact tail.bind_eq fun values => Alike.refl _

end Checked
