import CryptoRadar.Lib.FloatOrder
import CryptoRadar.Worker.Domain

/-!
# The failure breaker as a sliding window

The breaker forgets, at every failure, the failures that are too long ago for it. What it keeps
are exactly the failures since the review that the newest one still counts (`Counts`): a failure
too old for one is too old for every later one. So the profile is disabled when and only when
enough failures in a row have stood within one window (`disabled_iff_tripped`), and no failure
enables it again.
-/

set_option autoImplicit false

/-- Where all follow a first one that passes, enough pass when the one so far from the end does. -/
theorem List.le_length_filter_iff {α : Type} {passes : α → Bool} {items : List α}
    (upward : items.Pairwise fun first second => passes first = true → passes second = true)
    {count : ℕ} (some : 1 ≤ count) :
    count ≤ (items.filter passes).length ↔
      count ≤ items.length ∧ ∃ item, items[items.length - count]? = .some item ∧ passes item = true := by
  induction items with
  | nil =>
      constructor
      · intro none
        have noItem : count ≤ 0 := none
        omega
      · exact fun enough => enough.1
  | cons item items ih =>
      rw [List.pairwise_cons] at upward
      by_cases first : passes item = true
      · have all : (item :: items).filter passes = item :: items := by
          rw [List.filter_eq_self]
          intro other isIn
          rcases List.mem_cons.mp isIn with rfl | isLater
          · exact first
          · exact upward.1 other isLater first
        rw [all]
        constructor
        · intro enough
          have isIndex : (item :: items).length - count < (item :: items).length := by omega
          refine ⟨enough, _, List.getElem?_eq_getElem isIndex, ?_⟩
          exact (List.filter_eq_self.mp all) _ (List.getElem_mem isIndex)
        · exact And.left
      · rw [List.filter_cons_of_neg first, ih upward.2, List.length_cons]
        constructor
        · rintro ⟨enough, found⟩
          have later : items.length + 1 - count = items.length - count + 1 := by omega
          rw [later, List.getElem?_cons_succ]
          exact ⟨by omega, found⟩
        · rintro ⟨enough, other, found, passed⟩
          rcases Nat.lt_or_ge items.length count with full | later
          · have start : items.length + 1 - count = 0 := by omega
            rw [start, List.getElem?_cons_zero] at found
            cases found
            exact absurd passed first
          · have shifted : items.length + 1 - count = items.length - count + 1 := by omega
            rw [shifted, List.getElem?_cons_succ] at found
            exact ⟨later, other, found, passed⟩

namespace CryptoRadar.Worker

section Calls

variable {F : Type} [PyFloat F]

/-- What the worker does with the breaker. -/
inductive BreakerCall (F : Type) where
  | recordFailure (moment : F)
  | review

/-- The breaker after a call. A review enables the profile and forgets its failures. -/
def ProfileBreaker.perform (policy : FailurePolicy F) (breaker : ProfileBreaker F) :
    BreakerCall F → ProfileBreaker F
  | .recordFailure moment => breaker.recordFailure policy moment
  | .review => .initial

def ProfileBreaker.after (policy : FailurePolicy F) (calls : List (BreakerCall F)) :
    ProfileBreaker F := calls.foldl (ProfileBreaker.perform policy) .initial

def sinceReview (calls : List (BreakerCall F)) : List F :=
  calls.foldl (fun times call =>
    match call with
    | .recordFailure moment => times ++ [moment]
    | .review => []) []

/-- So many failures in a row stand within one window. -/
def Tripped (policy : FailurePolicy F) (times : List F) : Prop :=
  ∃ index first last, times[index]? = some first ∧
    times[index + policy.maxFailures - 1]? = some last ∧
    PyFloat.le (last - first) policy.windowSeconds = true

def counts (policy : FailurePolicy F) (newest earlier : F) : Bool :=
  PyFloat.le (newest - earlier) policy.windowSeconds

end Calls

section Windows

variable {policy : FailurePolicy Double}

/-- Times of a clock that does not go back. -/
structure Times (times : List Double) : Prop where
  finite : ∀ moment ∈ times, PyFloat.isFinite moment = true
  ordered : times.Pairwise fun first second => PyFloat.le first second = true

/-- What `FailurePolicy` checks of its window. -/
structure FailurePolicy.Checked (policy : FailurePolicy Double) : Prop where
  finite : PyFloat.isFinite policy.windowSeconds = true
  positive : PyFloat.le policy.windowSeconds (PyFloat.ofCount 0) = false

theorem Times.of_concat {times : List Double} {moment : Double}
    (isTimes : Times (times ++ [moment])) : Times times where
  finite := fun earlier isIn => isTimes.finite earlier (List.mem_append_left _ isIn)
  ordered := (List.pairwise_append.mp isTimes.ordered).1

theorem Times.le_last {times : List Double} {moment earlier : Double}
    (isTimes : Times (times ++ [moment])) (isIn : earlier ∈ times) :
    PyFloat.le earlier moment = true :=
  (List.pairwise_append.mp isTimes.ordered).2.2 earlier isIn moment List.mem_cons_self

theorem Times.last_finite {times : List Double} {moment : Double}
    (isTimes : Times (times ++ [moment])) : PyFloat.isFinite moment = true :=
  isTimes.finite moment (List.mem_append_right _ List.mem_cons_self)

theorem counts_self (checked : policy.Checked) {moment : Double}
    (finite : PyFloat.isFinite moment = true) : counts policy moment moment = true :=
  Double.sub_self_le finite checked.finite checked.positive

/-- A failure that counts one counts the later ones. -/
theorem counts_upward {times : List Double} {moment : Double}
    (isTimes : Times (times ++ [moment])) :
    (times ++ [moment]).Pairwise fun first second =>
      counts policy moment first = true → counts policy moment second = true := by
  refine isTimes.ordered.imp_of_mem fun {first second} firstIn secondIn atMost counted => ?_
  exact Double.sub_mono isTimes.last_finite (isTimes.finite first firstIn) isTimes.last_finite
    (isTimes.finite second secondIn) (Double.le_self isTimes.last_finite) atMost counted

/-- What a failure counts was counted by the failures before it. -/
theorem counts_earlier {times : List Double} {newest moment earlier : Double}
    (isTimes : Times (times ++ [newest] ++ [moment])) (isIn : earlier ∈ times)
    (counted : counts policy moment earlier = true) : counts policy newest earlier = true := by
  have before := isTimes.of_concat
  have earlierFinite := before.finite earlier (List.mem_append_left _ isIn)
  have atMost := isTimes.le_last (List.mem_append_right times (List.mem_singleton_self newest))
  exact Double.sub_mono isTimes.last_finite earlierFinite before.last_finite earlierFinite atMost
    (Double.le_self earlierFinite) counted

/-- With one more failure the profile is disabled when it was, or when the failure counts enough. -/
theorem tripped_concat {times : List Double} {moment : Double}
    (isTimes : Times (times ++ [moment])) :
    Tripped policy (times ++ [moment]) ↔
      Tripped policy times ∨
        policy.maxFailures ≤ ((times ++ [moment]).filter (counts policy moment)).length := by
  have someFailure := policy.someFailure
  have isLast : (times ++ [moment])[times.length]? = some moment := List.getElem?_concat_length
  have length : (times ++ [moment]).length = times.length + 1 := List.length_append
  rw [List.le_length_filter_iff (counts_upward isTimes) someFailure]
  constructor
  · rintro ⟨index, first, last, isFirst, isIndex, within⟩
    rcases Nat.lt_or_ge (index + policy.maxFailures - 1) times.length with earlier | newest
    · rw [List.getElem?_append_left earlier] at isIndex
      rw [List.getElem?_append_left (by omega)] at isFirst
      exact .inl ⟨index, first, last, isFirst, isIndex, within⟩
    · obtain ⟨inside, -⟩ := List.getElem?_eq_some_iff.mp isIndex
      have atEnd : index + policy.maxFailures - 1 = times.length := by omega
      rw [atEnd, isLast] at isIndex
      cases isIndex
      have start : (times ++ [moment]).length - policy.maxFailures = index := by omega
      exact .inr ⟨by omega, first, start ▸ isFirst, within⟩
  · rintro (⟨index, first, last, isFirst, isIndex, within⟩ | ⟨enough, first, isFirst, within⟩)
    · obtain ⟨firstInside, -⟩ := List.getElem?_eq_some_iff.mp isFirst
      obtain ⟨lastInside, -⟩ := List.getElem?_eq_some_iff.mp isIndex
      refine ⟨index, first, last, ?_, ?_, within⟩
      · rw [List.getElem?_append_left firstInside, isFirst]
      · rw [List.getElem?_append_left lastInside, isIndex]
    · refine ⟨_, first, moment, isFirst, ?_, within⟩
      have atEnd : (times ++ [moment]).length - policy.maxFailures + policy.maxFailures - 1 =
          times.length := by omega
      rw [atEnd, isLast]

/-- The breaker after failures at these times: what it keeps counts as all of them do, for every
later failure. -/
structure Breaks (policy : FailurePolicy Double) (times : List Double)
    (breaker : ProfileBreaker Double) : Prop where
  counted : ∀ moment, Times (times ++ [moment]) →
    breaker.failures.filter (counts policy moment) = times.filter (counts policy moment)
  disabled : breaker.disabled = true ↔ Tripped policy times

theorem Breaks.initial : Breaks policy [] ProfileBreaker.initial where
  counted := fun _ _ => rfl
  disabled := by
    constructor
    · intro disabled
      cases disabled
    · rintro ⟨_, _, _, isFirst, -⟩
      cases isFirst

theorem Breaks.recordFailure (checked : policy.Checked) {times : List Double}
    {breaker : ProfileBreaker Double} (breaks : Breaks policy times breaker) {moment : Double}
    (isTimes : Times (times ++ [moment])) :
    Breaks policy (times ++ [moment]) (breaker.recordFailure policy moment) := by
  have itself : [moment].filter (counts policy moment) = [moment] := by
    rw [List.filter_cons_of_pos (counts_self checked isTimes.last_finite), List.filter_nil]
  have kept : (breaker.recordFailure policy moment).failures =
      (times ++ [moment]).filter (counts policy moment) := by
    rw [List.filter_append, itself, ← breaks.counted moment isTimes]
    rfl
  constructor
  · intro later isLater
    rw [kept, List.filter_filter]
    refine List.filter_congr fun earlier isIn => ?_
    rw [Bool.and_eq_left_iff_imp]
    intro counted
    rcases List.mem_append.mp isIn with before | isMoment
    · exact counts_earlier isLater before counted
    · rw [List.mem_singleton.mp isMoment]
      exact counts_self checked isTimes.last_finite
  · have isDisabled : (breaker.recordFailure policy moment).disabled =
        (breaker.disabled ||
          decide (policy.maxFailures ≤ (breaker.recordFailure policy moment).failures.length)) := rfl
    rw [isDisabled, Bool.or_eq_true, decide_eq_true_eq, breaks.disabled, kept,
      tripped_concat isTimes]

theorem sinceReview_concat (calls : List (BreakerCall Double)) (call : BreakerCall Double) :
    sinceReview (calls ++ [call]) =
      match call with
      | .recordFailure moment => sinceReview calls ++ [moment]
      | .review => [] := by
  unfold sinceReview
  rw [List.foldl_append]
  cases call <;> rfl

theorem after_concat (calls : List (BreakerCall Double)) (call : BreakerCall Double) :
    ProfileBreaker.after policy (calls ++ [call]) =
      (ProfileBreaker.after policy calls).perform policy call := by
  unfold ProfileBreaker.after
  rw [List.foldl_append]
  rfl

theorem breaks_after (checked : policy.Checked) (calls : List (BreakerCall Double))
    (isTimes : Times (sinceReview calls)) :
    Breaks policy (sinceReview calls) (.after policy calls) := by
  induction calls using List.reverseRecOn with
  | nil => exact .initial
  | append_singleton calls call ih =>
      rw [sinceReview_concat] at isTimes ⊢
      rw [after_concat]
      cases call with
      | review => exact .initial
      | recordFailure moment => exact (ih isTimes.of_concat).recordFailure checked isTimes

theorem disabled_of_failures {breaker : ProfileBreaker Double} (disabled : breaker.disabled = true)
    (more : List Double) :
    ((more.map BreakerCall.recordFailure).foldl (ProfileBreaker.perform policy) breaker).disabled =
      true := by
  induction more generalizing breaker with
  | nil => exact disabled
  | cons moment more ih =>
      refine ih ?_
      show (breaker.disabled || _) = true
      rw [disabled, Bool.true_or]

/-- The breaker is a sliding window. Whatever failures and reviews there were, the profile is
disabled if and only if so many failures in a row since the last review stand within one window;
and failures never enable it again. -/
theorem disabled_iff_tripped (policy : FailurePolicy Double) (checked : policy.Checked)
    (calls : List (BreakerCall Double)) (isTimes : Times (sinceReview calls)) :
    ((ProfileBreaker.after policy calls).disabled = true ↔
        ∃ index first last, (sinceReview calls)[index]? = some first ∧
          (sinceReview calls)[index + policy.maxFailures - 1]? = some last ∧
          PyFloat.le (last - first) policy.windowSeconds = true) ∧
      ∀ more : List Double, (ProfileBreaker.after policy calls).disabled = true →
        (ProfileBreaker.after policy (calls ++ more.map .recordFailure)).disabled = true := by
  refine ⟨(breaks_after checked calls isTimes).disabled, fun more disabled => ?_⟩
  rw [ProfileBreaker.after, List.foldl_append]
  exact disabled_of_failures disabled more

/-- Two failures within ten minutes of each other, after a review. -/
theorem disabled_of_two_failures :
    (ProfileBreaker.after ⟨2, (600.0 : Double), by decide⟩
      [.recordFailure 0.0, .review, .recordFailure 30.0, .recordFailure 630.0]).disabled = true := by
  have checked : FailurePolicy.Checked ⟨2, (600.0 : Double), by decide⟩ :=
    ⟨by decide +kernel, by decide +kernel⟩
  have isTimes : Times [(30.0 : Double), 630.0] := ⟨by decide +kernel, by decide +kernel⟩
  have window := disabled_iff_tripped _ checked
    [.recordFailure 0.0, .review, .recordFailure 30.0, .recordFailure 630.0] isTimes
  exact window.1.mpr ⟨0, 30.0, 630.0, rfl, rfl, by decide +kernel⟩

end Windows

end CryptoRadar.Worker
