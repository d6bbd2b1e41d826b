import CryptoRadar.L2.Structure
import Mathlib.Data.List.Chain

/-!
# The newest run without a missing bar

`_contiguous_suffix` of `l2_features.py` asks `contiguous_tail` for windows from the longest to the
shortest and takes the first that has no gap. The walk it replaced, which its tests keep, goes back
from the newest bar to the first gap. A window without a gap has none in its newest part either
(`IsStart.unique`), so both stop at one bar, and what they return is the longest such window
(`contiguousSuffix_eq_old`). Bars may come in any order.
-/

set_option autoImplicit false

namespace CryptoRadar.L2

section Scans

variable {F : Type}

/-- The loop of `_contiguous_suffix`, with the windows of at most `count` bars to go. -/
def longestTail (bars : List (Bar F)) (intervalMinutes : ℤ) : ℕ → List (Bar F)
  | 0 => []
  | count + 1 =>
      let tail := contiguousTail bars (count + 1) intervalMinutes
      if tail.isEmpty then longestTail bars intervalMinutes count else tail

/-- `_contiguous_suffix`. -/
def contiguousSuffix (bars : List (Bar F)) (intervalMinutes : ℤ) : List (Bar F) :=
  longestTail bars intervalMinutes bars.length

/-- The loop of `_old_contiguous_suffix`, from the bar at `start` back. -/
def walkBack (bars : List (Bar F)) (intervalMinutes : ℤ) : ℕ → ℕ
  | 0 => 0
  | start + 1 =>
      match bars[start + 1]?, bars[start]? with
      | some current, some previous =>
          if current.barTime.micros - previous.barTime.micros ≠ minutes intervalMinutes then start + 1
          else walkBack bars intervalMinutes start
      | _, _ => start + 1

/-- `_old_contiguous_suffix`, which the tests keep. -/
def oldContiguousSuffix (bars : List (Bar F)) (intervalMinutes : ℤ) : List (Bar F) :=
  if bars.isEmpty then [] else bars.drop (walkBack bars intervalMinutes (bars.length - 1))

def Follows (intervalMinutes : ℤ) (previous current : Bar F) : Prop :=
  current.barTime.micros - previous.barTime.micros = minutes intervalMinutes

instance (intervalMinutes : ℤ) (previous current : Bar F) :
    Decidable (Follows intervalMinutes previous current) := inferInstanceAs (Decidable (_ = _))

structure IsLongest (bars : List (Bar F)) (intervalMinutes : ℤ) (window : List (Bar F)) : Prop where
  newest : window <:+ bars
  unbroken : window.IsChain (Follows intervalMinutes)
  longest : ∀ other, other <:+ bars → other.IsChain (Follows intervalMinutes) →
    other.length ≤ window.length

structure IsStart (bars : List (Bar F)) (intervalMinutes : ℤ) (start : ℕ) : Prop where
  inside : start < bars.length
  unbroken : (bars.drop start).IsChain (Follows intervalMinutes)
  first : ∀ earlier < start, ¬ (bars.drop earlier).IsChain (Follows intervalMinutes)

variable {bars : List (Bar F)} {interval : ℤ}

theorem isContiguous_iff_isChain (window : List (Bar F)) :
    isContiguous window interval = true ↔ window.IsChain (Follows interval) := by
  induction window with
  | nil => exact iff_of_true rfl .nil
  | cons first rest hyp =>
      cases rest with
      | nil => exact iff_of_true rfl (.singleton first)
      | cons second rest =>
          rw [List.isChain_cons_cons, ← hyp]
          simp only [isContiguous, List.tail_cons, List.zip_cons_cons, List.all_cons,
            Bool.and_eq_true, decide_eq_true_eq]
          rfl

theorem isChain_drop {earlier later : ℕ} (le : earlier ≤ later)
    (unbroken : (bars.drop earlier).IsChain (Follows interval)) :
    (bars.drop later).IsChain (Follows interval) := by
  obtain ⟨more, rfl⟩ := Nat.exists_eq_add_of_le le
  rw [← List.drop_drop]
  exact unbroken.drop more

/-- One bar further back. -/
theorem isChain_drop_iff {start : ℕ} {previous current : Bar F} (isPrevious : bars[start]? = some previous)
    (isCurrent : bars[start + 1]? = some current) :
    (bars.drop start).IsChain (Follows interval) ↔
      Follows interval previous current ∧ (bars.drop (start + 1)).IsChain (Follows interval) := by
  have within := (List.getElem?_eq_some_iff.mp isPrevious).1
  have further := (List.getElem?_eq_some_iff.mp isCurrent).1
  have here : bars.drop start = previous :: bars.drop (start + 1) := by
    rw [List.drop_eq_getElem_cons within, (List.getElem?_eq_some_iff.mp isPrevious).2]
  have next : bars.drop (start + 1) = current :: bars.drop (start + 1 + 1) := by
    rw [List.drop_eq_getElem_cons further, (List.getElem?_eq_some_iff.mp isCurrent).2]
  rw [here, next, List.isChain_cons_cons]

/-- The walk back from a window without a gap ends where the longest one starts. -/
theorem isStart_walkBack {start : ℕ} (inside : start < bars.length)
    (unbroken : (bars.drop start).IsChain (Follows interval)) :
    IsStart bars interval (walkBack bars interval start) := by
  induction start with
  | zero => exact ⟨inside, unbroken, by simp [walkBack]⟩
  | succ start hyp =>
      have isCurrent : bars[start + 1]? = some bars[start + 1] := List.getElem?_eq_getElem inside
      have isPrevious : bars[start]? = some bars[start] := List.getElem?_eq_getElem (by omega)
      have further : (bars.drop start).IsChain (Follows interval) ↔
          Follows interval bars[start] bars[start + 1] ∧
            (bars.drop (start + 1)).IsChain (Follows interval) := isChain_drop_iff isPrevious isCurrent
      have turn : walkBack bars interval (start + 1) =
          if ¬ Follows interval bars[start] bars[start + 1] then start + 1
          else walkBack bars interval start := by
        rw [walkBack, isCurrent, isPrevious]
        rfl
      rw [turn]
      split
      next gap =>
        refine ⟨inside, unbroken, ?_⟩
        intro earlier before longer
        exact gap (further.mp (isChain_drop (Nat.le_of_lt_succ before) longer)).1
      next noGap => exact hyp (by omega) (further.mpr ⟨not_not.mp noGap, unbroken⟩)

/-- The scan finds the window at the start, when all longer windows have a gap. -/
theorem longestTail_eq_drop {start : ℕ} (isStart : IsStart bars interval start) {count : ℕ}
    (most : count ≤ bars.length) (reaches : bars.length - start ≤ count) :
    longestTail bars interval count = bars.drop start := by
  have inside := isStart.inside
  induction count with
  | zero => omega
  | succ count hyp =>
      have window : contiguousTail bars (count + 1) interval =
          if isContiguous (bars.drop (bars.length - (count + 1))) interval = true then
            bars.drop (bars.length - (count + 1)) else [] := by
        rw [contiguousTail, if_neg (by omega)]
        rfl
      rw [longestTail, window]
      by_cases here : start = bars.length - (count + 1)
      · subst here
        rw [if_pos ((isContiguous_iff_isChain _).mpr isStart.unbroken), if_neg]
        simp only [List.isEmpty_iff, List.drop_eq_nil_iff]
        omega
      · have gap := isStart.first (bars.length - (count + 1)) (by omega)
        rw [if_neg (mt (isContiguous_iff_isChain _).mp gap)]
        exact hyp (by omega) (by omega)

theorem IsStart.isLongest {start : ℕ} (isStart : IsStart bars interval start) :
    IsLongest bars interval (bars.drop start) where
  newest := List.drop_suffix start bars
  unbroken := isStart.unbroken
  longest := by
    intro other newest unbroken
    have inside := isStart.inside
    have most := newest.length_le
    rw [List.suffix_iff_eq_drop.mp newest] at unbroken
    by_contra longer
    rw [List.length_drop] at longer
    exact isStart.first (bars.length - other.length) (by omega) unbroken

/-- **The scan and the walk back find one window**: the longest window of newest bars in which
neighbours differ by the interval, which is empty for no bars only. -/
theorem contiguousSuffix_eq_old (bars : List (Bar F)) (interval : ℤ) :
    contiguousSuffix bars interval = oldContiguousSuffix bars interval ∧
      IsLongest bars interval (contiguousSuffix bars interval) ∧
      (contiguousSuffix bars interval = [] ↔ bars = []) := by
  cases bars with
  | nil =>
      refine ⟨rfl, ⟨List.suffix_rfl, .nil, ?_⟩, iff_of_true rfl rfl⟩
      intro other newest _
      exact newest.length_le
  | cons first rest =>
      have newest : ((first :: rest).drop rest.length).IsChain (Follows interval) := by
        obtain ⟨last, isLast⟩ : ∃ last, (first :: rest).drop rest.length = [last] := by
          rw [← List.length_eq_one_iff, List.length_drop, List.length_cons, Nat.add_sub_cancel_left]
        rw [isLast]
        exact .singleton last
      have isStart := isStart_walkBack (Nat.lt_succ_self rest.length) newest
      have found : contiguousSuffix (first :: rest) interval =
          (first :: rest).drop (walkBack (first :: rest) interval rest.length) :=
        longestTail_eq_drop isStart (Nat.le_refl _) (Nat.sub_le _ _)
      rw [found]
      refine ⟨rfl, isStart.isLongest, ?_⟩
      have inside := isStart.inside
      rw [List.drop_eq_nil_iff]
      exact iff_of_false (by omega) (List.cons_ne_nil first rest)

end Scans

end CryptoRadar.L2
