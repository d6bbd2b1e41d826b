import CryptoRadar.Lib.Checked
import CryptoRadar.Lib.Json
import CryptoRadar.Lib.Text
import Mathlib.Algebra.BigOperators.Group.List.Basic
import Mathlib.Algebra.Order.BigOperators.Group.List
import Mathlib.Algebra.Order.Group.Nat
import Mathlib.Data.List.MinMax

/-!
# The scan budget of a reply

`exceeds_scan_budget` of `workflow/benchmark.py` walks over a reply and stops as soon as its text
is too large. A reply is any object of Python; the walk only sees the shape of a node, so the
nodes may form a tree or a graph with cycles. A `Walk` takes the pending nodes in any order, and
the code's own walk is one of them (`walk_scan`).

Each node costs at least one unit of each total, so a walk is short (`Walk.visits_le`), and on a
tree what was counted and what is pending make the size of the tree (`Walk.exact`). The budget is
the largest size of a valid answer: a parsed reply is within it and shallow
(`parsed_within_budget`).
-/

set_option autoImplicit false

namespace CryptoRadar.Benchmark

/-! ## Settings -/

/-- `MAX_RATIONALE_CHARS`. -/
def maxRationaleChars : ℕ := 600

/-- `MAX_CITED_IDS`. -/
def maxCitedIds : ℕ := 32

/-- `_NFKC_MAX_EXPANSION`. -/
def nfkcMaxExpansion : ℕ := 18

/-- `_MAX_EVIDENCE_ID_CHARS`. -/
def maxEvidenceIdChars : ℕ := 64

/-- The depth that `invades_risk_domain` still reads. -/
def maxRiskDepth : ℕ := 32

/-- The categories of a case. -/
inductive CaseCategory where
  | invalidOrStale
  | conflictingEvidence
  | admissiblePositive
  | admissibleNoEdge
  | insufficientEvidence
  deriving DecidableEq, Repr

/-- The text of a category. -/
def CaseCategory.value : CaseCategory → PyStr
  | .invalidOrStale => pyStr "invalid_or_stale"
  | .conflictingEvidence => pyStr "conflicting_evidence"
  | .admissiblePositive => pyStr "admissible_positive"
  | .admissibleNoEdge => pyStr "admissible_no_edge"
  | .insufficientEvidence => pyStr "insufficient_evidence"

/-- `CaseCategory` in its order. -/
def caseCategories : List CaseCategory :=
  [.invalidOrStale, .conflictingEvidence, .admissiblePositive, .admissibleNoEdge,
    .insufficientEvidence]

/-- `_OUTPUT_KEYS`. -/
def outputKeys : List PyStr :=
  ["abstain", "classification", "cited_evidence_ids", "rationale"].map pyStr

/-- `MAX_SCANNED_PAYLOAD_CHARS`: what an accepted answer can hold at most. -/
def maxScannedPayloadChars : ℕ :=
  1 + (outputKeys.map List.length).sum + 1 +
    (caseCategories.map fun category => category.value.length).foldl max 0 + 1 +
    maxCitedIds * maxEvidenceIdChars + maxRationaleChars * nfkcMaxExpansion

theorem maxScannedPayloadChars_value : maxScannedPayloadChars = 12920 := by
  decide +kernel

theorem maxScannedPayloadChars_eq : maxScannedPayloadChars = 12920 := maxScannedPayloadChars_value

/-! ## The walk -/

/-- What the walk sees of a node. -/
inductive Shape (Node : Type) where
  | text (value : PyStr)
  | mapping (entries : List (Node × Node))
  | sequence (items : List Node)
  | other

/-- The nodes that are pushed for a node, in their order. -/
def Shape.children {Node : Type} : Shape Node → List Node
  | .mapping entries => entries.flatMap fun (key, value) => [key, value]
  | .sequence items => items
  | _ => []

/-- The totals and the stack, whose top stands first. -/
structure ScanState (Node : Type) where
  raw : ℕ
  folded : ℕ
  pending : List Node

/-- `raw > budget or folded > budget`. -/
def isBeyond (raw folded : ℕ) : Prop := maxScannedPayloadChars < raw ∨ maxScannedPayloadChars < folded

instance (raw folded : ℕ) : Decidable (isBeyond raw folded) := by
  unfold isBeyond
  infer_instance

section Walk

variable {Node : Type} (shape : Node → Shape Node) (nfkc : PyStr → PyStr)

/-- The body of the loop behind the pop of `node`: `True` is returned, or the next turn has the
new totals. -/
def scanNode (node : Node) (raw folded : ℕ) : Option (ℕ × ℕ) :=
  match shape node with
  | .text value =>
      let raw := raw + max value.length 1
      if maxScannedPayloadChars < raw then none else
        let folded := folded + max (nfkc value).length 1
        if isBeyond raw folded then none else some (raw, folded)
  | .mapping entries =>
      if maxScannedPayloadChars < raw + 1 + 2 * entries.length then none else
        if isBeyond (raw + 1) (folded + 1) then none else some (raw + 1, folded + 1)
  | .sequence items =>
      if maxScannedPayloadChars < raw + 1 + items.length then none else
        if isBeyond (raw + 1) (folded + 1) then none else some (raw + 1, folded + 1)
  | .other => if isBeyond (raw + 1) (folded + 1) then none else some (raw + 1, folded + 1)

/-- A turn costs a unit, and leaves the totals within the budget. -/
theorem scanNode_eq_some {node : Node} {raw folded nextRaw nextFolded : ℕ}
    (visited : scanNode shape nfkc node raw folded = some (nextRaw, nextFolded)) :
    raw < nextRaw ∧ nextRaw ≤ maxScannedPayloadChars ∧ nextFolded ≤ maxScannedPayloadChars := by
  unfold scanNode isBeyond at visited
  split at visited <;> grind

/-- `exceeds_scan_budget` from a turn on. -/
def scan (state : ScanState Node) : Bool :=
  match state.pending with
  | [] => false
  | node :: rest =>
      match _visited : scanNode shape nfkc node state.raw state.folded with
      | none => true
      | some (raw, folded) => scan ⟨raw, folded, (shape node).children.reverse ++ rest⟩
termination_by maxScannedPayloadChars + 1 - state.raw
decreasing_by
  have cost := scanNode_eq_some shape nfkc _visited
  omega

/-- The scan of a payload exceeds its budget. -/
def exceedsScanBudget (payload : Node) : Bool := scan shape nfkc ⟨0, 0, [payload]⟩

/-- A walk that takes any pending node next, with the number of its visits and its answer. -/
inductive Walk : ℕ → ScanState Node → Bool → Prop where
  | finished (raw folded : ℕ) : Walk 0 ⟨raw, folded, []⟩ false
  | stopped {state : ScanState Node} {node : Node} {rest : List Node} :
      state.pending.Perm (node :: rest) → scanNode shape nfkc node state.raw state.folded = none →
      Walk 1 state true
  | turned {state : ScanState Node} {node : Node} {rest : List Node} {raw folded visits : ℕ}
      {answer : Bool} : state.pending.Perm (node :: rest) →
      scanNode shape nfkc node state.raw state.folded = some (raw, folded) →
      Walk visits ⟨raw, folded, (shape node).children ++ rest⟩ answer →
      Walk (visits + 1) state answer

variable {shape nfkc}

/-- The order of the pending nodes does not matter. -/
theorem Walk.perm {visits raw folded : ℕ} {first second : List Node} {answer : Bool}
    (walked : Walk shape nfkc visits ⟨raw, folded, first⟩ answer) (order : first.Perm second) :
    Walk shape nfkc visits ⟨raw, folded, second⟩ answer := by
  cases walked with
  | finished =>
      rw [List.nil_perm.mp order]
      exact .finished raw folded
  | stopped picked visited => exact .stopped (order.symm.trans picked) visited
  | turned picked visited rest => exact .turned (order.symm.trans picked) visited rest

/-- The code's own walk is one of them. -/
theorem walk_scan (state : ScanState Node) :
    ∃ visits, Walk shape nfkc visits state (scan shape nfkc state) := by
  fun_induction scan shape nfkc state with
  | case1 state empty =>
      obtain ⟨raw, folded, pending⟩ := state
      cases empty
      exact ⟨0, .finished raw folded⟩
  | case2 state node rest stack visited =>
      exact ⟨1, .stopped (List.Perm.of_eq stack) visited⟩
  | case3 state node rest stack raw folded visited hyp =>
      obtain ⟨visits, walked⟩ := hyp
      have order := (List.reverse_perm (shape node).children).append_right rest
      exact ⟨visits + 1, .turned (List.Perm.of_eq stack) visited (walked.perm order)⟩

theorem walk_exceeds (shape : Node → Shape Node) (nfkc : PyStr → PyStr) (payload : Node) :
    ∃ visits, Walk shape nfkc visits ⟨0, 0, [payload]⟩ (exceedsScanBudget shape nfkc payload) :=
  walk_scan ⟨0, 0, [payload]⟩

/-- A walk is short, also where the nodes form a cycle. -/
theorem Walk.visits_le {visits : ℕ} {state : ScanState Node} {answer : Bool}
    (walked : Walk shape nfkc visits state answer) (within : state.raw ≤ maxScannedPayloadChars) :
    visits + state.raw ≤ maxScannedPayloadChars + 1 := by
  induction walked with
  | finished raw folded => exact Nat.le_add_right_of_le (by simpa using within)
  | stopped _ _ => omega
  | turned _ visited _ hyp =>
      obtain ⟨cost, raw, -⟩ := scanNode_eq_some shape nfkc visited
      have rest := hyp raw
      simp only at rest
      omega

/-! ## Trees -/

/-- The cost of a node, where a text of no character still costs one. -/
def nodeCost (length : PyStr → ℕ) : Shape Node → ℕ
  | .text value => max (length value) 1
  | _ => 1

/-- A size of trees: that of a node is its cost and the sizes of its children. -/
def IsSize (shape : Node → Shape Node) (length : PyStr → ℕ) (size : Node → ℕ) : Prop :=
  ∀ node, size node = nodeCost length (shape node) + ((shape node).children.map size).sum

theorem nodeCost_pos (length : PyStr → ℕ) (seen : Shape Node) : 0 < nodeCost length seen := by
  cases seen <;> simp [nodeCost]

theorem IsSize.pos {length : PyStr → ℕ} {size : Node → ℕ} (isSize : IsSize shape length size)
    (node : Node) : 0 < size node := by
  rw [isSize node]
  exact Nat.lt_of_lt_of_le (nodeCost_pos length (shape node)) (Nat.le_add_right _ _)

/-- Each child costs at least one unit. -/
theorem IsSize.children_le {length : PyStr → ℕ} {size : Node → ℕ}
    (isSize : IsSize shape length size) (nodes : List Node) :
    nodes.length ≤ (nodes.map size).sum := by
  induction nodes with
  | nil => exact Nat.le_refl 0
  | cons node rest hyp =>
      have cost := isSize.pos node
      rw [List.length_cons, List.map_cons, List.sum_cons]
      omega

theorem length_children (entries : List (Node × Node)) :
    (Shape.mapping entries).children.length = 2 * entries.length := by
  induction entries with
  | nil => rfl
  | cons entry rest hyp =>
      rw [Shape.children, List.flatMap_cons, List.length_append, List.length_cons]
      have later : (rest.flatMap fun (key, value) => [key, value]).length = 2 * rest.length := hyp
      rw [later]
      simp only [List.length_cons, List.length_nil]
      omega

section Exact

variable {rawSize foldedSize : Node → ℕ} (isRaw : IsSize shape List.length rawSize)
  (isFolded : IsSize shape (fun text => (nfkc text).length) foldedSize)

include isRaw isFolded

/-- A turn moves the cost of its node into the totals. -/
theorem scanNode_some_exact {node : Node} {raw folded nextRaw nextFolded : ℕ}
    (visited : scanNode shape nfkc node raw folded = some (nextRaw, nextFolded)) :
    nextRaw + ((shape node).children.map rawSize).sum = raw + rawSize node ∧
      nextFolded + ((shape node).children.map foldedSize).sum = folded + foldedSize node := by
  rw [isRaw node, isFolded node]
  unfold scanNode at visited
  cases seen : shape node with
  | text value =>
      rw [seen] at visited
      simp only [nodeCost]
      grind
  | mapping entries =>
      rw [seen] at visited
      simp only [nodeCost]
      grind
  | sequence items =>
      rw [seen] at visited
      simp only [nodeCost]
      grind
  | other =>
      rw [seen] at visited
      simp only [nodeCost]
      grind

/-- Where a turn stops, the node is too large. -/
theorem scanNode_none_exact {node : Node} {raw folded : ℕ}
    (visited : scanNode shape nfkc node raw folded = none) :
    isBeyond (raw + rawSize node) (folded + foldedSize node) := by
  have rawChildren := isRaw.children_le (shape node).children
  rw [isRaw node, isFolded node]
  unfold scanNode isBeyond at visited
  unfold isBeyond
  cases seen : shape node with
  | text value =>
      rw [seen] at visited
      simp only [nodeCost]
      grind
  | mapping entries =>
      rw [seen] at visited rawChildren
      rw [length_children] at rawChildren
      simp only [nodeCost]
      grind
  | sequence items =>
      rw [seen] at visited rawChildren
      simp only [nodeCost, Shape.children] at rawChildren ⊢
      grind
  | other =>
      rw [seen] at visited
      simp only [nodeCost]
      grind

/-- What was counted and what is pending decide the answer, in any order of the walk. -/
theorem Walk.exact {visits : ℕ} {state : ScanState Node} {answer : Bool}
    (walked : Walk shape nfkc visits state answer) (within : ¬ isBeyond state.raw state.folded) :
    answer = true ↔ isBeyond (state.raw + (state.pending.map rawSize).sum)
      (state.folded + (state.pending.map foldedSize).sum) := by
  induction walked with
  | finished raw folded => simpa using within
  | @stopped state node rest picked visited =>
      have beyond := scanNode_none_exact isRaw isFolded visited
      refine ⟨fun _ => ?_, fun _ => rfl⟩
      rw [(picked.map rawSize).sum_eq, (picked.map foldedSize).sum_eq, List.map_cons, List.map_cons,
        List.sum_cons, List.sum_cons]
      unfold isBeyond at beyond ⊢
      omega
  | @turned state node rest raw folded visits answer picked visited _ hyp =>
      obtain ⟨rawMoved, foldedMoved⟩ := scanNode_some_exact isRaw isFolded visited
      obtain ⟨-, rawWithin, foldedWithin⟩ := scanNode_eq_some shape nfkc visited
      have still : ¬ isBeyond raw folded := by
        unfold isBeyond
        omega
      rw [hyp still, (picked.map rawSize).sum_eq, (picked.map foldedSize).sum_eq]
      simp only [List.map_append, List.sum_append, List.map_cons, List.sum_cons, ← Nat.add_assoc,
        rawMoved, foldedMoved]

end Exact

end Walk

/-! ## Replies -/

/-- A finite reply: the objects of Python that JSON has, tuples, and any other object. -/
inductive Payload where
  | text (value : PyStr)
  | boolean (value : Bool)
  | mapping (entries : List (Payload × Payload))
  | list (items : List Payload)
  | tuple (items : List Payload)
  | other

namespace Payload

/-- What the scan sees of a payload. -/
def shape : Payload → Shape Payload
  | .text value => .text value
  | .mapping entries => .mapping entries
  | .list items => .sequence items
  | .tuple items => .sequence items
  | .boolean _ => .other
  | .other => .other

mutual

/-- The units of a tree, where `length` measures a text. -/
def size (length : PyStr → ℕ) : Payload → ℕ
  | .text value => max (length value) 1
  | .boolean _ => 1
  | .mapping entries => 1 + sizeEntries length entries
  | .list items => 1 + sizeItems length items
  | .tuple items => 1 + sizeItems length items
  | .other => 1

/-- The size of the items of a list. -/
def sizeItems (length : PyStr → ℕ) : List Payload → ℕ
  | [] => 0
  | item :: rest => size length item + sizeItems length rest

/-- The size of the entries of a mapping. -/
def sizeEntries (length : PyStr → ℕ) : List (Payload × Payload) → ℕ
  | [] => 0
  | (key, value) :: rest => size length key + size length value + sizeEntries length rest

end

theorem sizeItems_eq (length : PyStr → ℕ) (items : List Payload) :
    sizeItems length items = (items.map (size length)).sum := by
  induction items with
  | nil => rfl
  | cons item rest hyp => rw [sizeItems, hyp, List.map_cons, List.sum_cons]

theorem sizeEntries_eq (length : PyStr → ℕ) (entries : List (Payload × Payload)) :
    sizeEntries length entries = ((Shape.mapping entries).children.map (size length)).sum := by
  induction entries with
  | nil => rfl
  | cons entry rest hyp =>
      rw [sizeEntries, hyp, Nat.add_assoc]
      rfl

theorem sizeEntries_sum (length : PyStr → ℕ) (entries : List (Payload × Payload)) :
    sizeEntries length entries =
      (entries.map fun entry => size length entry.1 + size length entry.2).sum := by
  induction entries with
  | nil => rfl
  | cons entry rest hyp => rw [sizeEntries, hyp, List.map_cons, List.sum_cons]

theorem size_isSize (length : PyStr → ℕ) : IsSize shape length (size length) := by
  intro payload
  cases payload with
  | text value => rfl
  | boolean value => rfl
  | mapping entries => rw [size, sizeEntries_eq]; rfl
  | list items => rw [size, sizeItems_eq]; rfl
  | tuple items => rw [size, sizeItems_eq]; rfl
  | other => rfl

end Payload

/-- Every walk over a tree tells whether one of its sizes is beyond the budget. -/
theorem walk_iff_size {nfkc : PyStr → PyStr} {payload : Payload} {visits : ℕ} {answer : Bool}
    (walked : Walk Payload.shape nfkc visits ⟨0, 0, [payload]⟩ answer) :
    answer = true ↔ maxScannedPayloadChars < payload.size List.length ∨
      maxScannedPayloadChars < payload.size fun text => (nfkc text).length := by
  have start : ¬ isBeyond 0 0 := by decide
  have exact := walked.exact (Payload.size_isSize List.length) (Payload.size_isSize _) start
  simpa [isBeyond] using exact

/-! ## The risk gate -/

namespace Payload

mutual

/-- `invades_risk_domain`, whose tests of a key and of a text are given. -/
def invadesRiskDomain (riskKey riskWording : PyStr → Bool) (depth : ℕ) (payload : Payload) : Bool :=
  if maxRiskDepth < depth then true else
    match payload with
    | .mapping entries => entriesInvade riskKey riskWording (depth + 1) entries
    | .list items => itemsInvade riskKey riskWording (depth + 1) items
    | .tuple items => itemsInvade riskKey riskWording (depth + 1) items
    | .text value => riskWording value
    | .boolean _ => false
    | .other => false

/-- An item invades the risk domain. -/
def itemsInvade (riskKey riskWording : PyStr → Bool) (depth : ℕ) : List Payload → Bool
  | [] => false
  | item :: rest => invadesRiskDomain riskKey riskWording depth item ||
      itemsInvade riskKey riskWording depth rest

/-- A key or a value invades the risk domain. -/
def entriesInvade (riskKey riskWording : PyStr → Bool) (depth : ℕ) :
    List (Payload × Payload) → Bool
  | [] => false
  | (.text key, value) :: rest => riskKey key ||
      invadesRiskDomain riskKey riskWording depth value ||
      entriesInvade riskKey riskWording depth rest
  | _ :: _ => true

end

mutual

/-- How deep the gate reads: it enters values and items, and no key. -/
def depth : Payload → ℕ
  | .mapping entries => entriesDepth entries
  | .list items => itemsDepth items
  | .tuple items => itemsDepth items
  | _ => 0

/-- The depth below a list. -/
def itemsDepth : List Payload → ℕ
  | [] => 0
  | item :: rest => max (depth item + 1) (itemsDepth rest)

/-- The depth below a mapping. -/
def entriesDepth : List (Payload × Payload) → ℕ
  | [] => 0
  | (_, value) :: rest => max (depth value + 1) (entriesDepth rest)

end

mutual

/-- A risk key, or risk wording, at any depth. -/
def carriesRisk (riskKey riskWording : PyStr → Bool) : Payload → Bool
  | .mapping entries => entriesCarryRisk riskKey riskWording entries
  | .list items => itemsCarryRisk riskKey riskWording items
  | .tuple items => itemsCarryRisk riskKey riskWording items
  | .text value => riskWording value
  | .boolean _ => false
  | .other => false

/-- An item carries risk. -/
def itemsCarryRisk (riskKey riskWording : PyStr → Bool) : List Payload → Bool
  | [] => false
  | item :: rest => carriesRisk riskKey riskWording item || itemsCarryRisk riskKey riskWording rest

/-- A key or a value carries risk. -/
def entriesCarryRisk (riskKey riskWording : PyStr → Bool) : List (Payload × Payload) → Bool
  | [] => false
  | (.text key, value) :: rest => riskKey key || carriesRisk riskKey riskWording value ||
      entriesCarryRisk riskKey riskWording rest
  | _ :: _ => true

end

mutual

/-- Above the limit of depth the gate reads everything. -/
theorem invades_of_shallow (riskKey riskWording : PyStr → Bool) (reached : ℕ) :
    ∀ payload : Payload, reached + payload.depth ≤ maxRiskDepth →
      invadesRiskDomain riskKey riskWording reached payload =
        carriesRisk riskKey riskWording payload
  | .mapping entries, shallow => by
      have here : ¬ maxRiskDepth < reached := by omega
      rw [invadesRiskDomain, if_neg here, carriesRisk]
      exact entriesInvade_of_shallow riskKey riskWording reached entries here shallow
  | .list items, shallow => by
      have here : ¬ maxRiskDepth < reached := by omega
      rw [invadesRiskDomain, if_neg here, carriesRisk]
      exact itemsInvade_of_shallow riskKey riskWording reached items here shallow
  | .tuple items, shallow => by
      have here : ¬ maxRiskDepth < reached := by omega
      rw [invadesRiskDomain, if_neg here, carriesRisk]
      exact itemsInvade_of_shallow riskKey riskWording reached items here shallow
  | .text value, shallow => by
      have here : ¬ maxRiskDepth < reached := by omega
      rw [invadesRiskDomain, if_neg here, carriesRisk]
  | .boolean value, shallow => by
      have here : ¬ maxRiskDepth < reached := by omega
      rw [invadesRiskDomain, if_neg here, carriesRisk]
  | .other, shallow => by
      have here : ¬ maxRiskDepth < reached := by omega
      rw [invadesRiskDomain, if_neg here, carriesRisk]

theorem itemsInvade_of_shallow (riskKey riskWording : PyStr → Bool) (reached : ℕ) :
    ∀ items : List Payload, ¬ maxRiskDepth < reached → reached + itemsDepth items ≤ maxRiskDepth →
      itemsInvade riskKey riskWording (reached + 1) items =
        itemsCarryRisk riskKey riskWording items
  | [], _, _ => rfl
  | item :: rest, here, shallow => by
      rw [itemsDepth] at shallow
      have first : reached + 1 + item.depth ≤ maxRiskDepth := by omega
      have later : reached + itemsDepth rest ≤ maxRiskDepth := by omega
      rw [itemsInvade, itemsCarryRisk, invades_of_shallow riskKey riskWording (reached + 1) item first,
        itemsInvade_of_shallow riskKey riskWording reached rest here later]

theorem entriesInvade_of_shallow (riskKey riskWording : PyStr → Bool) (reached : ℕ) :
    ∀ entries : List (Payload × Payload), ¬ maxRiskDepth < reached →
      reached + entriesDepth entries ≤ maxRiskDepth →
      entriesInvade riskKey riskWording (reached + 1) entries =
        entriesCarryRisk riskKey riskWording entries
  | [], _, _ => rfl
  | (.text key, value) :: rest, here, shallow => by
      rw [entriesDepth] at shallow
      have first : reached + 1 + value.depth ≤ maxRiskDepth := by omega
      have later : reached + entriesDepth rest ≤ maxRiskDepth := by omega
      rw [entriesInvade, entriesCarryRisk,
        invades_of_shallow riskKey riskWording (reached + 1) value first,
        entriesInvade_of_shallow riskKey riskWording reached rest here later]
  | (.boolean _, _) :: _, _, _ => rfl
  | (.mapping _, _) :: _, _, _ => rfl
  | (.list _, _) :: _, _, _ => rfl
  | (.tuple _, _) :: _, _, _ => rfl
  | (.other, _) :: _, _, _ => rfl

end

theorem itemsDepth_le {bound : ℕ} {items : List Payload}
    (each : ∀ item ∈ items, item.depth + 1 ≤ bound) : itemsDepth items ≤ bound := by
  induction items with
  | nil => exact Nat.zero_le bound
  | cons item rest hyp =>
      obtain ⟨first, later⟩ := List.forall_mem_cons.mp each
      exact max_le first (hyp later)

theorem entriesDepth_le {bound : ℕ} {entries : List (Payload × Payload)}
    (each : ∀ entry ∈ entries, entry.2.depth + 1 ≤ bound) : entriesDepth entries ≤ bound := by
  induction entries with
  | nil => exact Nat.zero_le bound
  | cons entry rest hyp =>
      obtain ⟨first, later⟩ := List.forall_mem_cons.mp each
      exact max_le first (hyp later)

end Payload

/-! ## Answers -/

/-- `_EVIDENCE_ID.fullmatch`. -/
def isEvidenceId : PyStr → Bool
  | [] => false
  | first :: rest => isHead first && rest.length ≤ 63 && rest.all isTail
where
  isHead (code : ℕ) : Bool := (97 ≤ code && code ≤ 122) || (48 ≤ code && code ≤ 57)
  isTail (code : ℕ) : Bool := isHead code || (pyStr "._:-").contains code

/-- An answer that was accepted. -/
structure ScreenerAnswer where
  abstain : Bool
  classification : CaseCategory
  citedEvidenceIds : List PyStr
  hasFreeText : Bool

namespace Payload

/-- A text; the text itself. -/
def text? : Payload → Option PyStr
  | .text value => some value
  | _ => none

/-- `payload[key]`. -/
def get? (entries : List (Payload × Payload)) (key : PyStr) : Option Payload :=
  (entries.find? fun entry => entry.1.text? = some key).map Prod.snd

/-- `set(payload) == _OUTPUT_KEYS`. -/
def hasOutputKeys (entries : List (Payload × Payload)) : Prop :=
  (∀ entry ∈ entries, ∃ key ∈ outputKeys, entry.1.text? = some key) ∧
    ∀ key ∈ outputKeys, ∃ entry ∈ entries, entry.1.text? = some key

instance (entries : List (Payload × Payload)) : Decidable (hasOutputKeys entries) := by
  unfold hasOutputKeys
  infer_instance

/-- An item of `cited_evidence_ids`. -/
def evidenceId? (item : Payload) : Option PyStr := item.text?.filter isEvidenceId

end Payload

/-- `bool(text.strip())`. -/
def hasFreeText (text : PyStr) : Bool := text.any fun code => !Text.isSpace (Char.ofNat code)

open Payload in
/-- `parse_screener_answer`, after the scan. -/
def parseScreenerAnswer : Payload → Option ScreenerAnswer
  | .mapping entries => do
      guard (hasOutputKeys entries)
      let abstain ← get? entries (pyStr "abstain")
      let classification ← get? entries (pyStr "classification")
      let cited ← get? entries (pyStr "cited_evidence_ids")
      let rationale ← get? entries (pyStr "rationale")
      match abstain, classification, cited, rationale with
      | .boolean abstain, .text classification, .list cited, .text rationale => do
          guard (rationale.length ≤ maxRationaleChars)
          let category ← caseCategories.find? fun category => category.value = classification
          guard (cited.length ≤ maxCitedIds)
          let ids ← cited.mapM evidenceId?
          guard ids.Nodup
          return { abstain := abstain, classification := category, citedEvidenceIds := ids,
                   hasFreeText := hasFreeText rationale }
      | _, _, _, _ => none
  | _ => none

/-! ### The entries of an answer -/

/-- A dictionary holds a key once. -/
def DistinctKeys : Payload → Prop
  | .mapping entries => (entries.filterMap fun entry => entry.1.text?).Nodup
  | _ => True

namespace Payload

theorem text?_eq_some {payload : Payload} {value : PyStr} (isText : payload.text? = some value) :
    payload = .text value := by
  cases payload with
  | text other =>
      cases isText
      rfl
  | _ => cases isText

theorem get?_of_mem {entries : List (Payload × Payload)}
    (distinct : (entries.filterMap fun entry => entry.1.text?).Nodup) {entry : Payload × Payload}
    (member : entry ∈ entries) {key : PyStr} (isKey : entry.1.text? = some key) :
    get? entries key = some entry.2 := by
  induction entries with
  | nil => cases member
  | cons head rest hyp =>
      unfold get?
      by_cases here : head.1.text? = some key
      · rcases List.mem_cons.mp member with rfl | later
        · simp [here]
        · have split : (head :: rest).filterMap (fun entry => entry.1.text?) =
              key :: rest.filterMap fun entry => entry.1.text? := List.filterMap_cons_some here
          rw [split, List.nodup_cons] at distinct
          exact absurd (List.mem_filterMap.mpr ⟨entry, later, isKey⟩) distinct.1
      · rcases List.mem_cons.mp member with rfl | later
        · exact absurd isKey here
        · have distinctRest : (rest.filterMap fun entry => entry.1.text?).Nodup :=
            distinct.sublist ((List.sublist_cons_self head rest).filterMap _)
          simpa [get?, here] using hyp distinctRest later

end Payload

open Payload

/-- What an accepted reply holds. -/
structure Answered (entries : List (Payload × Payload)) (abstain : Bool) (category : CaseCategory)
    (cited : List Payload) (rationale : PyStr) : Prop where
  keys : hasOutputKeys entries
  abstains : get? entries (pyStr "abstain") = some (.boolean abstain)
  classified : get? entries (pyStr "classification") = some (.text category.value)
  cites : get? entries (pyStr "cited_evidence_ids") = some (.list cited)
  explains : get? entries (pyStr "rationale") = some (.text rationale)
  few : cited.length ≤ maxCitedIds
  ids : ∀ item ∈ cited, ∃ id, item = .text id ∧ isEvidenceId id = true
  short : rationale.length ≤ maxRationaleChars

theorem answered_of_parse {payload : Payload} {answer : ScreenerAnswer}
    (parsed : parseScreenerAnswer payload = some answer) :
    ∃ entries abstain category cited rationale, payload = .mapping entries ∧
      Answered entries abstain category cited rationale := by
  cases payload with
  | mapping entries =>
      unfold parseScreenerAnswer at parsed
      simp only [Option.bind_eq_bind, Option.bind_eq_some_iff, Option.guard_eq_some'] at parsed
      obtain ⟨_, keys, abstain, abstains, classification, classified, cited, cites, rationale,
        explains, inner⟩ := parsed
      split at inner
      next flag text items reason =>
        simp only [Option.bind_eq_some_iff, Option.guard_eq_some'] at inner
        obtain ⟨_, short, category, isCategory, _, few, ids, mapped, -⟩ := inner
        have isText : category.value = text := by
          simpa using List.find?_some isCategory
        subst isText
        refine ⟨entries, flag, category, items, reason, rfl,
          keys, abstains, classified, cites, explains, few, ?_, short⟩
        intro item member
        obtain ⟨id, -, found⟩ := Checked.exists_of_mapM_eq_some mapped item member
        obtain ⟨isId, evidence⟩ := Option.filter_eq_some_iff.mp found
        exact ⟨id, text?_eq_some isId, evidence⟩
      next => cases inner
  | _ => cases parsed

/-- Every entry is one of the four. -/
theorem entry_eq {entries : List (Payload × Payload)} (distinct : DistinctKeys (.mapping entries))
    (keys : hasOutputKeys entries) {entry : Payload × Payload} (member : entry ∈ entries) :
    ∃ key ∈ outputKeys, entry.1 = .text key ∧ get? entries key = some entry.2 := by
  obtain ⟨key, isKey, found⟩ := keys.1 entry member
  exact ⟨key, isKey, text?_eq_some found, get?_of_mem distinct member found⟩

/-- A total over the entries is the total over the four keys. -/
theorem sum_entries {entries : List (Payload × Payload)}
    (distinct : DistinctKeys (.mapping entries)) (keys : hasOutputKeys entries)
    (value : PyStr → Option Payload → ℕ) (whole : Payload × Payload → ℕ)
    (agree : ∀ key found, whole (.text key, found) = value key (some found)) :
    (entries.map whole).sum = (outputKeys.map fun key => value key (get? entries key)).sum := by
  have found : (entries.filterMap fun entry => entry.1.text?).Perm outputKeys := by
    refine (List.perm_ext_iff_of_nodup distinct (by decide)).mpr fun key => ?_
    constructor
    · intro member
      obtain ⟨entry, isEntry, isKey⟩ := List.mem_filterMap.mp member
      obtain ⟨other, inKeys, isOther⟩ := keys.1 entry isEntry
      rw [isKey] at isOther
      exact Option.some.inj isOther ▸ inKeys
    · intro member
      obtain ⟨entry, isEntry, isKey⟩ := keys.2 key member
      exact List.mem_filterMap.mpr ⟨entry, isEntry, isKey⟩
  have each : entries.map whole =
      (entries.filterMap fun entry => entry.1.text?).map fun key => value key (get? entries key) := by
    rw [List.map_filterMap, ← List.filterMap_eq_map]
    refine List.filterMap_congr fun entry member => ?_
    obtain ⟨first, second⟩ := entry
    obtain ⟨key, -, rfl, known⟩ := entry_eq distinct keys member
    exact congrArg some ((agree key second).trans (congrArg (value key) known.symm))
  rw [each, (found.map _).sum_eq]

/-! ### The size of an answer -/

/-- What is used of NFKC: a character becomes at most eighteen, and ASCII stays as it is. -/
structure Normalizes (nfkc : PyStr → PyStr) : Prop where
  expansion : ∀ text, (nfkc text).length ≤ nfkcMaxExpansion * text.length
  ascii : ∀ text, (∀ code ∈ text, code < 128) → nfkc text = text

/-- A length of texts that is at most eighteen times the number of characters, and that number where
the text is ASCII. -/
structure Measures (length : PyStr → ℕ) : Prop where
  expansion : ∀ text, length text ≤ nfkcMaxExpansion * text.length
  ascii : ∀ text, (∀ code ∈ text, code < 128) → length text = text.length

theorem measures_raw : Measures List.length where
  expansion text := Nat.le_mul_of_pos_left _ (by decide)
  ascii _ _ := rfl

theorem Normalizes.measures {nfkc : PyStr → PyStr} (normalizes : Normalizes nfkc) :
    Measures fun text => (nfkc text).length where
  expansion := normalizes.expansion
  ascii text plain := congrArg List.length (normalizes.ascii text plain)

/-- An id is ASCII and short. -/
theorem isEvidenceId_bounds {id : PyStr} (isId : isEvidenceId id = true) :
    id ≠ [] ∧ id.length ≤ maxEvidenceIdChars ∧ ∀ code ∈ id, code < 128 := by
  cases id with
  | nil => cases isId
  | cons first rest =>
      simp only [isEvidenceId, Bool.and_eq_true, decide_eq_true_eq, List.all_eq_true] at isId
      obtain ⟨⟨head, short⟩, tail⟩ := isId
      have marks : ∀ code ∈ pyStr "._:-", code < 128 := by decide
      have small (code : ℕ) (isTail : isEvidenceId.isTail code = true) : code < 128 := by
        have inRange : isEvidenceId.isHead code = true ∨ code ∈ pyStr "._:-" := by
          simpa [isEvidenceId.isTail] using isTail
        rcases inRange with isHead | isMark
        · simp only [isEvidenceId.isHead, Bool.or_eq_true, Bool.and_eq_true,
            decide_eq_true_eq] at isHead
          omega
        · exact marks code isMark
      refine ⟨List.cons_ne_nil first rest, Nat.succ_le_succ short, fun code member => ?_⟩
      rcases List.mem_cons.mp member with rfl | later
      · exact small code (by simp [isEvidenceId.isTail, head])
      · exact small code (tail code later)

theorem outputKeys_ascii : ∀ key ∈ outputKeys, key ≠ [] ∧ ∀ code ∈ key, code < 128 := by
  decide

theorem category_ascii (category : CaseCategory) :
    category.value ≠ [] ∧ category.value.length ≤ 21 ∧ ∀ code ∈ category.value, code < 128 := by
  cases category <;> decide

section Measured

variable {length : PyStr → ℕ} (measures : Measures length)

include measures

/-- A text of ASCII has its number of characters. -/
theorem size_text {text : PyStr} (nonempty : text ≠ []) (plain : ∀ code ∈ text, code < 128) :
    (Payload.text text).size length = text.length := by
  rw [Payload.size, measures.ascii text plain]
  exact max_eq_left (List.length_pos_of_ne_nil nonempty)

theorem size_cited {cited : List Payload} (few : cited.length ≤ maxCitedIds)
    (ids : ∀ item ∈ cited, ∃ id, item = .text id ∧ isEvidenceId id = true) :
    (Payload.list cited).size length ≤ 1 + maxCitedIds * maxEvidenceIdChars := by
  have each : ∀ units ∈ cited.map (Payload.size length), units ≤ maxEvidenceIdChars := by
    intro units member
    obtain ⟨item, isItem, rfl⟩ := List.mem_map.mp member
    obtain ⟨id, rfl, isId⟩ := ids item isItem
    obtain ⟨nonempty, short, plain⟩ := isEvidenceId_bounds isId
    rw [size_text measures nonempty plain]
    exact short
  rw [Payload.size, Payload.sizeItems_eq]
  refine Nat.add_le_add_left ?_ 1
  calc (cited.map (Payload.size length)).sum
      ≤ (cited.map (Payload.size length)).length • maxEvidenceIdChars :=
        List.sum_le_card_nsmul _ _ each
    _ = cited.length * maxEvidenceIdChars := by rw [List.length_map]; rfl
    _ ≤ maxCitedIds * maxEvidenceIdChars := Nat.mul_le_mul_right _ few

theorem size_rationale {rationale : PyStr} (short : rationale.length ≤ maxRationaleChars) :
    (Payload.text rationale).size length ≤ maxRationaleChars * nfkcMaxExpansion := by
  have expanded : length rationale ≤ maxRationaleChars * nfkcMaxExpansion := by
    calc length rationale ≤ nfkcMaxExpansion * rationale.length := measures.expansion rationale
      _ ≤ nfkcMaxExpansion * maxRationaleChars := Nat.mul_le_mul_left _ short
      _ = maxRationaleChars * nfkcMaxExpansion := Nat.mul_comm _ _
  exact max_le expanded (by decide)

/-- The largest answer is the budget. -/
theorem size_answered {entries : List (Payload × Payload)} {abstain : Bool}
    {category : CaseCategory} {cited : List Payload} {rationale : PyStr}
    (distinct : DistinctKeys (.mapping entries))
    (answered : Answered entries abstain category cited rationale) :
    (Payload.mapping entries).size length ≤ maxScannedPayloadChars := by
  have total : Payload.sizeEntries length entries = (outputKeys.map fun key =>
      (Payload.text key).size length + ((get? entries key).elim 0 (Payload.size length))).sum := by
    rw [Payload.sizeEntries_sum]
    exact sum_entries distinct answered.keys (fun key found =>
      (Payload.text key).size length + found.elim 0 (Payload.size length)) _ fun _ _ => rfl
  have keySizes : ∀ key ∈ outputKeys, (Payload.text key).size length = key.length :=
    fun key member => size_text measures (outputKeys_ascii key member).1 (outputKeys_ascii key member).2
  have categorySize : (Payload.text category.value).size length ≤ 21 := by
    obtain ⟨nonempty, short, plain⟩ := category_ascii category
    rw [size_text measures nonempty plain]
    exact short
  have citedSize := size_cited measures answered.few answered.ids
  have rationaleSize := size_rationale measures answered.short
  have keyTotal : (outputKeys.map fun key => (Payload.text key).size length).sum = 48 := by
    rw [List.map_congr_left keySizes]
    rfl
  have valueTotal : (outputKeys.map fun key =>
      (get? entries key).elim 0 (Payload.size length)).sum =
        (Payload.boolean abstain).size length + ((Payload.text category.value).size length +
          ((Payload.list cited).size length + ((Payload.text rationale).size length + 0))) := by
    simp only [outputKeys, List.map_cons, List.map_nil, List.sum_cons, List.sum_nil,
      answered.abstains, answered.classified, answered.cites, answered.explains, Option.elim_some]
  have flag : (Payload.boolean abstain).size length = 1 := rfl
  rw [Payload.size, total, List.sum_map_add, keyTotal, valueTotal, flag, maxScannedPayloadChars_eq]
  unfold maxCitedIds maxEvidenceIdChars at citedSize
  unfold maxRationaleChars nfkcMaxExpansion at rationaleSize
  omega

end Measured

/-- An answer is two levels deep. -/
theorem depth_answered {entries : List (Payload × Payload)} {abstain : Bool}
    {category : CaseCategory} {cited : List Payload} {rationale : PyStr}
    (distinct : DistinctKeys (.mapping entries))
    (answered : Answered entries abstain category cited rationale) :
    (Payload.mapping entries).depth ≤ 2 := by
  have list : (Payload.list cited).depth ≤ 1 := by
    refine Payload.itemsDepth_le fun item member => ?_
    obtain ⟨id, rfl, -⟩ := answered.ids item member
    exact Nat.le_refl 1
  refine Payload.entriesDepth_le fun entry member => Nat.succ_le_succ ?_
  obtain ⟨key, isKey, -, found⟩ := entry_eq distinct answered.keys member
  simp only [outputKeys, List.map_cons, List.map_nil, List.mem_cons, List.not_mem_nil,
    or_false] at isKey
  rcases isKey with rfl | rfl | rfl | rfl
  · rw [Option.some.inj (found.symm.trans answered.abstains)]
    exact Nat.zero_le 1
  · rw [Option.some.inj (found.symm.trans answered.classified)]
    exact Nat.zero_le 1
  · rw [Option.some.inj (found.symm.trans answered.cites)]
    exact list
  · rw [Option.some.inj (found.symm.trans answered.explains)]
    exact Nat.zero_le 1

/-- A parsed reply is within the budget and shallow. -/
theorem parsed_within_budget {nfkc : PyStr → PyStr} (normalizes : Normalizes nfkc)
    {payload : Payload} (distinct : DistinctKeys payload) {answer : ScreenerAnswer}
    (parsed : parseScreenerAnswer payload = some answer) :
    exceedsScanBudget Payload.shape nfkc payload = false ∧ payload.depth < maxRiskDepth := by
  obtain ⟨entries, abstain, category, cited, rationale, rfl, answered⟩ := answered_of_parse parsed
  have raw := size_answered measures_raw distinct answered
  have folded := size_answered normalizes.measures distinct answered
  have shallow := depth_answered distinct answered
  obtain ⟨visits, walked⟩ := walk_exceeds Payload.shape nfkc (.mapping entries)
  refine ⟨?_, Nat.lt_of_le_of_lt shallow (by decide)⟩
  rw [← Bool.not_eq_true]
  intro exceeded
  rcases (walk_iff_size walked).mp exceeded with rawBeyond | foldedBeyond
  · exact absurd rawBeyond (Nat.not_lt.mpr raw)
  · exact absurd foldedBeyond (Nat.not_lt.mpr folded)

/-- The scan budget is a test of the size of a tree, in any order of the walk. A walk over any
payload makes at most one visit more than the budget. An answer that is accepted passes the test,
and the risk gate reads all of it. -/
theorem scanBudget_exact {nfkc : PyStr → PyStr} (normalizes : Normalizes nfkc) :
    (∀ payload : Payload, exceedsScanBudget Payload.shape nfkc payload = true ↔
      maxScannedPayloadChars < payload.size List.length ∨
        maxScannedPayloadChars < payload.size fun text => (nfkc text).length) ∧
    (∀ (payload : Payload) (visits : ℕ) (answer : Bool),
      Walk Payload.shape nfkc visits ⟨0, 0, [payload]⟩ answer →
        answer = exceedsScanBudget Payload.shape nfkc payload) ∧
    (∀ (Node : Type) (shape : Node → Shape Node) (payload : Node),
      (∃ visits, Walk shape nfkc visits ⟨0, 0, [payload]⟩ (exceedsScanBudget shape nfkc payload)) ∧
      ∀ (visits : ℕ) (answer : Bool), Walk shape nfkc visits ⟨0, 0, [payload]⟩ answer →
        visits ≤ maxScannedPayloadChars + 1) ∧
    ∀ (payload : Payload) (answer : ScreenerAnswer), DistinctKeys payload →
      parseScreenerAnswer payload = some answer →
        exceedsScanBudget Payload.shape nfkc payload = false ∧ payload.depth < maxRiskDepth ∧
        ∀ riskKey riskWording, payload.invadesRiskDomain riskKey riskWording 0 =
          payload.carriesRisk riskKey riskWording := by
  have counted (payload : Payload) : exceedsScanBudget Payload.shape nfkc payload = true ↔
      maxScannedPayloadChars < payload.size List.length ∨
        maxScannedPayloadChars < payload.size fun text => (nfkc text).length := by
    obtain ⟨visits, walked⟩ := walk_exceeds Payload.shape nfkc payload
    exact walk_iff_size walked
  refine ⟨counted, ?_, ?_, ?_⟩
  · intro payload visits answer walked
    exact Bool.eq_iff_iff.mpr ((walk_iff_size walked).trans (counted payload).symm)
  · intro Node shape payload
    refine ⟨walk_exceeds shape nfkc payload, fun visits answer walked => ?_⟩
    exact walked.visits_le (Nat.zero_le _)
  · intro payload answer distinct parsed
    obtain ⟨within, shallow⟩ := parsed_within_budget normalizes distinct parsed
    refine ⟨within, shallow, fun riskKey riskWording => ?_⟩
    exact payload.invades_of_shallow riskKey riskWording 0 (by omega)

/-- An answer that is accepted. -/
def shortAnswer : Payload :=
  .mapping [(.text (pyStr "classification"), .text (pyStr "admissible_no_edge")),
    (.text (pyStr "abstain"), .boolean false),
    (.text (pyStr "rationale"), .text (pyStr "quiet book")),
    (.text (pyStr "cited_evidence_ids"), .list [.text (pyStr "ev-1"), .text (pyStr "ev-2")])]

theorem normalizes_ascii : Normalizes id where
  expansion text := Nat.le_mul_of_pos_left _ (by decide)
  ascii _ _ := rfl

theorem shortAnswer_distinct : DistinctKeys shortAnswer := by
  unfold shortAnswer DistinctKeys
  decide

theorem scanBudget_shortAnswer :
    exceedsScanBudget Payload.shape id shortAnswer = false ∧ shortAnswer.depth < maxRiskDepth := by
  have parsed : parseScreenerAnswer shortAnswer = some
      { abstain := false, classification := .admissibleNoEdge,
        citedEvidenceIds := [pyStr "ev-1", pyStr "ev-2"], hasFreeText := true } := by rfl
  have accepted := (scanBudget_exact normalizes_ascii).2.2.2 shortAnswer _
    shortAnswer_distinct parsed
  exact ⟨accepted.1, accepted.2.1⟩

end CryptoRadar.Benchmark
