import CryptoRadar.Lib.Checked
import Mathlib.Data.List.Induction

/-!
# Chains of hashes

A chain is a list of lines. Each line is linked to the tip before it and has a tip of its own,
which the next line is linked to. Where the tip of a line determines the line and the tip before it,
and no line has the first tip, the last tip determines the whole chain (`Leads.unique`): the two
chains are compared from their last lines backwards. A loop that checks the links of a file gives
such a chain (`leads_of_foldlM`).
-/

set_option autoImplicit false

universe u v w

namespace HashChain

variable {Line : Type u} {Tip : Type v} {linked : Tip → Line → Tip → Prop} {first : Tip}

/-- The lines lead from the first tip to a tip, each linked to the one before it. -/
inductive Leads (linked : Tip → Line → Tip → Prop) (first : Tip) : List Line → Tip → Prop where
  | nil : Leads linked first [] first
  | snoc {lines : List Line} {line : Line} {tip next : Tip} (before : Leads linked first lines tip)
      (link : linked tip line next) : Leads linked first (lines ++ [line]) next

/-- **The tip pins the chain.** -/
theorem Leads.unique (fresh : ∀ tip line, ¬ linked tip line first) {lines : List Line} {tip : Tip}
    (leads : Leads linked first lines tip) :
    ∀ {others : List Line}, Leads linked first others tip →
      (∀ line ∈ lines, ∀ other ∈ others, ∀ before after next, linked before line next →
        linked after other next → before = after ∧ line = other) → lines = others := by
  induction leads with
  | nil =>
      intro others other _
      cases other with
      | nil => rfl
      | snoc before link => exact absurd link (fresh _ _)
  | @snoc lines line tip next before link hyp =>
      intro others other determined
      cases other with
      | nil => exact absurd link (fresh _ _)
      | @snoc otherLines otherLine otherTip _ otherBefore otherLink =>
          obtain ⟨rfl, rfl⟩ := determined line (by simp) otherLine (by simp) _ _ _ link otherLink
          rw [hyp otherBefore]
          intro early isEarly late isLate
          exact determined early (List.mem_append_left _ isEarly) late (List.mem_append_left _ isLate)

/-- A loop whose turns follow links leads from the tip of its first state to that of its last. -/
theorem leads_of_foldlM {State Item : Type w} {Failure : Type u} {turn : State → Item → Except Failure State}
    (tipOf : State → Tip) (lineOf : Item → Line)
    (links : ∀ state item after, turn state item = .ok after →
      linked (tipOf state) (lineOf item) (tipOf after))
    (items : List Item) {state after : State} (folded : items.foldlM turn state = .ok after) :
    Leads linked (tipOf state) (items.map lineOf) (tipOf after) := by
  induction items using List.reverseRecOn generalizing after with
  | nil =>
      cases folded
      exact .nil
  | append_singleton front item hyp =>
      rw [List.foldlM_append] at folded
      obtain ⟨middle, early, last⟩ := Checked.bind_eq_ok.mp folded
      rw [List.foldlM_cons] at last
      obtain ⟨final, turned, finished⟩ := Checked.bind_eq_ok.mp last
      cases finished
      rw [List.map_append]
      exact .snoc (hyp early) (links middle item after turned)

end HashChain
