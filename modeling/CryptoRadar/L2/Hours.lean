import CryptoRadar.L2.Structure
import CryptoRadar.Lib.SlotRun
import Mathlib.Data.List.Perm.Subperm

/-!
# The complete hours of a window

`resample_bars` walks a window and takes twelve bars wherever they start on the hour and none is missing.
On ascending bars of the five-minute grid it so finds exactly the hours of which all twelve bars are there
(`hour_mem_groups`), in their order, whatever is missing around them.
-/

set_option autoImplicit false

namespace CryptoRadar.L2

open Checked

section Windows

variable {F : Type}

/-- The five-minute slot that a bar opens in, counted from the epoch. -/
def Bar.slot (bar : Bar F) : ℤ := bar.barTime.micros / minutes ohlcIntervalMinutes

structure OnGrid (bars : List (Bar F)) : Prop where
  grid : ∀ bar ∈ bars, bar.barTime.micros = bar.slot * minutes ohlcIntervalMinutes
  ascending : (bars.map Bar.slot).Pairwise (· < ·)

def IsHour (hour : ℤ) (group : List (Bar F)) : Prop := group.map Bar.slot = slotRun (12 * hour) 12

/-- The hour has all its slots among these. -/
def Complete (slots : List ℤ) (hour : ℤ) : Prop := ∀ slot ∈ slotRun (12 * hour) 12, slot ∈ slots

variable {bars window : List (Bar F)} {bar first : Bar F} {rest : List (Bar F)}

theorem OnGrid.sublist (onGrid : OnGrid bars) (part : window.Sublist bars) : OnGrid window where
  grid bar member := onGrid.grid bar (part.subset member)
  ascending := onGrid.ascending.sublist (part.map Bar.slot)

/-- Bars at places of an interval follow each other without a gap exactly as their places do. -/
theorem isContiguous_iff (place : Bar F → ℤ) {interval : ℕ} (positive : 0 < interval)
    (placed : ∀ bar ∈ first :: rest, bar.barTime.micros = place bar * minutes interval) :
    isContiguous (first :: rest) interval = true ↔
      (first :: rest).map place = slotRun (place first) (rest.length + 1) := by
  have unit : 0 < minutes interval := by
    unfold minutes Moment.seconds
    omega
  induction rest generalizing first with
  | nil => simp [isContiguous, slotRun]
  | cons second rest ih =>
      have hyp : isContiguous (second :: rest) interval = true ↔
          (second :: rest).map place = slotRun (place second) (rest.length + 1) :=
        ih fun bar member => placed bar (List.mem_cons_of_mem _ member)
      have step : second.barTime.micros - first.barTime.micros = minutes interval ↔
          place second = place first + 1 := by
        rw [placed first List.mem_cons_self, placed second (List.mem_cons_of_mem _ List.mem_cons_self),
          ← Int.sub_mul]
        constructor
        · intro same
          have one : place second - place first = 1 :=
            Int.eq_of_mul_eq_mul_right unit.ne' (by rw [same, Int.one_mul])
          omega
        · intro next
          have one : place second - place first = 1 := by omega
          rw [one, Int.one_mul]
      have split : isContiguous (first :: second :: rest) interval = true ↔
          second.barTime.micros - first.barTime.micros = minutes interval ∧
            isContiguous (second :: rest) interval = true := by
        simp [isContiguous]
      rw [split, step, hyp]
      show _ ↔ place first :: (second :: rest).map place = place first :: slotRun (place first + 1) (rest.length + 1)
      rw [List.cons_inj_right]
      constructor
      · rintro ⟨next, follows⟩
        rw [follows, next]
      · intro follows
        have next : place second = place first + 1 := (List.cons.inj follows).1
        exact ⟨next, by rw [follows, next]⟩

/-- A bar of the grid opens on the hour exactly in the first slot of an hour. -/
theorem isAligned_iff (placed : bar.barTime.micros = bar.slot * minutes ohlcIntervalMinutes) :
    isAligned atr1hResampleBars bar.barTime = true ↔ bar.slot % 12 = 0 := by
  unfold isAligned minuteOf secondOf microsecondOf
  rw [placed]
  unfold minutes Moment.seconds ohlcIntervalMinutes atr1hResampleBars
  simp only [Bool.and_eq_true, decide_eq_true_eq]
  push_cast
  omega

/-! ## The groups of the loop -/

/-- The groups that the loop of `resample_bars` takes. -/
def groupsFrom : ℕ → List (Bar F) → List (List (Bar F))
  | 0, _ => []
  | _, [] => []
  | turns + 1, first :: rest =>
      if (first :: rest).length < atr1hResampleBars then []
      else if isAligned atr1hResampleBars first.barTime &&
          isContiguous ((first :: rest).take atr1hResampleBars) ohlcIntervalMinutes then
        (first :: rest).take atr1hResampleBars :: groupsFrom turns (rest.drop (atr1hResampleBars - 1))
      else groupsFrom turns rest

def mergeGroup [PyFloat F] : List (Bar F) → Except NumberError (Bar F)
  | [] => .error .domain
  | first :: rest => mergeBars first rest

theorem resampleFrom_eq [PyFloat F] (turns : ℕ) (bars : List (Bar F)) :
    resampleFrom atr1hResampleBars turns bars = (groupsFrom turns bars).mapM mergeGroup := by
  induction turns generalizing bars with
  | zero => rfl
  | succ turns ih =>
      cases bars with
      | nil => rfl
      | cons first rest =>
          unfold resampleFrom groupsFrom
          dsimp only
          split
          next => rfl
          next =>
            split
            next =>
              rw [List.mapM_cons, ih]
              rfl
            next => exact ih rest

/-- Twelve bars are a group exactly when they are all bars of an hour. -/
theorem group_iff (onGrid : OnGrid (first :: rest)) (enough : atr1hResampleBars ≤ (first :: rest).length) :
    (isAligned atr1hResampleBars first.barTime &&
      isContiguous ((first :: rest).take atr1hResampleBars) ohlcIntervalMinutes) = true ↔
        IsHour (first.slot / 12) ((first :: rest).take atr1hResampleBars) := by
  have part : ((first :: rest).take atr1hResampleBars).Sublist (first :: rest) := List.take_sublist _ _
  have length : (rest.take 11).length = 11 := by
    rw [List.length_take]
    have few : atr1hResampleBars ≤ rest.length + 1 := enough
    unfold atr1hResampleBars at few
    omega
  have contiguous : isContiguous ((first :: rest).take atr1hResampleBars) ohlcIntervalMinutes = true ↔
      ((first :: rest).take atr1hResampleBars).map Bar.slot = slotRun first.slot 12 := by
    have runs := isContiguous_iff Bar.slot (show 0 < ohlcIntervalMinutes by decide) (onGrid.sublist part).grid
    rw [length] at runs
    exact runs
  rw [Bool.and_eq_true, contiguous, isAligned_iff (onGrid.grid first List.mem_cons_self), IsHour]
  constructor
  · rintro ⟨aligned, follows⟩
    rw [follows]
    congr 1
    omega
  · intro follows
    have same : first.slot = 12 * (first.slot / 12) := (List.cons.inj follows).1
    exact ⟨by omega, by rw [follows, ← same]⟩

/-- Every group is an hour, and the groups are parts of the window in its order. -/
theorem groupsFrom_hours (turns : ℕ) (onGrid : OnGrid bars) :
    (∀ group ∈ groupsFrom turns bars, ∃ hour, IsHour hour group) ∧
      (groupsFrom turns bars).flatten.Sublist bars := by
  induction turns generalizing bars with
  | zero => exact ⟨nofun, List.nil_sublist _⟩
  | succ turns ih =>
      cases bars with
      | nil => exact ⟨nofun, List.nil_sublist _⟩
      | cons first rest =>
          unfold groupsFrom
          split
          next => exact ⟨nofun, List.nil_sublist _⟩
          next enough =>
            split
            next taken =>
              have isHour := (group_iff onGrid (not_lt.mp enough)).mp taken
              have later : (rest.drop (atr1hResampleBars - 1)).Sublist (first :: rest) :=
                (List.drop_sublist _ _).trans (List.sublist_cons_self _ _)
              obtain ⟨hours, parts⟩ := ih (onGrid.sublist later)
              refine ⟨?_, ?_⟩
              · intro group member
                rcases List.mem_cons.mp member with rfl | member
                · exact ⟨_, isHour⟩
                · exact hours group member
              · rw [List.flatten_cons]
                have whole : (first :: rest).take atr1hResampleBars ++ rest.drop (atr1hResampleBars - 1) =
                    first :: rest := List.take_append_drop atr1hResampleBars (first :: rest)
                have both := (List.Sublist.refl ((first :: rest).take atr1hResampleBars)).append parts
                rwa [whole] at both
            next =>
              obtain ⟨hours, parts⟩ := ih (onGrid.sublist (List.sublist_cons_self _ _))
              exact ⟨hours, parts.trans (List.sublist_cons_self _ _)⟩

theorem Complete.twelve {slots : List ℤ} {hour : ℤ} (complete : Complete slots hour) : 12 ≤ slots.length := by
  have distinct : (slotRun (12 * hour) 12).Nodup := (slotRun_ascending _ _).imp fun below => below.ne
  have fewer := (List.subperm_of_subset distinct complete).length_le
  rwa [length_slotRun] at fewer

theorem Complete.enough {hour : ℤ} (complete : Complete (bars.map Bar.slot) hour) :
    atr1hResampleBars ≤ bars.length := by
  have many := complete.twelve
  rw [List.length_map] at many
  exact many

/-- The first slot of a complete hour is not before the first slot of ascending slots. -/
theorem Complete.least {start hour : ℤ} {later : List ℤ} (complete : Complete (start :: later) hour)
    (ascending : (start :: later).Pairwise (· < ·)) : start ≤ 12 * hour := by
  have holds := complete (12 * hour) (by rw [mem_slotRun]; omega)
  rcases List.mem_cons.mp holds with same | after
  · exact same.ge
  · exact ((List.pairwise_cons.mp ascending).1 _ after).le

/-- **Every complete hour** is found. -/
theorem hour_mem_groupsFrom {turns : ℕ} (long : bars.length ≤ turns) (onGrid : OnGrid bars) {hour : ℤ}
    (complete : Complete (bars.map Bar.slot) hour) : ∃ group ∈ groupsFrom turns bars, IsHour hour group := by
  have many := complete.enough
  induction turns generalizing bars with
  | zero =>
      unfold atr1hResampleBars at many
      omega
  | succ turns ih =>
      cases bars with
      | nil => exact absurd many (Nat.not_succ_le_zero 11)
      | cons first rest =>
          have least := complete.least onGrid.ascending
          rw [List.length_cons] at long
          unfold groupsFrom
          rw [if_neg (not_lt.mpr many)]
          split
          next taken =>
            have isHour := (group_iff onGrid many).mp taken
            have start : first.slot = 12 * (first.slot / 12) := (List.cons.inj isHour).1
            by_cases same : hour = first.slot / 12
            · exact ⟨_, List.mem_cons_self, same ▸ isHour⟩
            -- a later hour is among the bars after the group
            have later : (rest.drop (atr1hResampleBars - 1)).Sublist (first :: rest) :=
              (List.drop_sublist _ _).trans (List.sublist_cons_self _ _)
            have whole : (first :: rest).map Bar.slot = slotRun (12 * (first.slot / 12)) 12 ++
                (rest.drop (atr1hResampleBars - 1)).map Bar.slot := by
              rw [← isHour, ← List.map_append]
              exact congrArg _ (List.take_append_drop atr1hResampleBars (first :: rest)).symm
            have stays : Complete ((rest.drop (atr1hResampleBars - 1)).map Bar.slot) hour := by
              intro slot member
              have among := complete slot member
              rw [whole, List.mem_append] at among
              rw [mem_slotRun] at member
              refine among.resolve_left ?_
              rw [mem_slotRun]
              omega
            have shorter : (rest.drop (atr1hResampleBars - 1)).length ≤ turns := by
              rw [List.length_drop]
              omega
            obtain ⟨group, member, isGroup⟩ := ih shorter (onGrid.sublist later) stays stays.enough
            exact ⟨group, List.mem_cons_of_mem _ member, isGroup⟩
          next notTaken =>
            have notFirst : 12 * hour ≠ first.slot := by
              intro same
              refine notTaken ((group_iff onGrid many).mpr ?_)
              have holds : ∀ slot ∈ slotRun first.slot 12, slot ∈ first.slot :: rest.map Bar.slot :=
                fun slot member => complete slot (same ▸ member)
              have isHour := take_eq_slotRun onGrid.ascending holds
              have start : 12 * (first.slot / 12) = first.slot := by omega
              unfold IsHour
              rw [start, List.map_take]
              exact isHour
            have stays : Complete (rest.map Bar.slot) hour := by
              intro slot member
              have among := complete slot member
              rw [mem_slotRun] at member
              rcases List.mem_cons.mp among with isFirst | inRest
              · omega
              · exact inRest
            exact ih (by omega) (onGrid.sublist (List.sublist_cons_self _ _)) stays stays.enough

end Windows

end CryptoRadar.L2
