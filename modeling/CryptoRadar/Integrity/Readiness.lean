import CryptoRadar.Integrity.Snapshot
import Mathlib.Order.Interval.Set.OrdConnected

/-!
# Readiness over time

What a report says of the selected opportunity, as the time of a fixed zone goes on over one snapshot, whose
times may be of any zones. A check of times is a conjunction of bounds: from the time when no moment of the observation lies in the
future, to the time when the first of them is too old. So the times at which the reasons of a check
are all of some kind have no gap (`sourceMoment_ordConnected`, `receipt_ordConnected`), and neither
have the times at which nothing blocks (`unblocked_ordConnected`).

An opportunity that is not blocked has its ticker, its bars, its book and the clock without any
reason, and no failure of a range or of the trades (`unblocked_iff`). No trade lies in the future
then, so the latest trade is the same at all such times; and the ranges only count bars that pass.
-/

set_option autoImplicit false

namespace CryptoRadar.Integrity

open Checked

/-! ## Reasons of some kind -/

/-- The reasons are all of codes with a property. -/
def Within (accepted : ReasonCode → Prop) (reasons : List Reason) : Prop :=
  ∀ reason ∈ reasons, accepted reason.code

/-- A check returns, with reasons that are all of codes with a property. -/
def Admits (accepted : ReasonCode → Prop) (checked : Except IntegrityFailure (List Reason)) : Prop :=
  ∃ reasons, checked = .ok reasons ∧ Within accepted reasons

/-- No code at all. -/
abbrev Nothing (_ : ReasonCode) : Prop := False

/-- A code that does not make a failure. -/
abbrev NoFailure (code : ReasonCode) : Prop := code.status ≠ .fail

section Within

variable {accepted : ReasonCode → Prop}

@[simp] theorem within_nil : Within accepted [] := fun _ member => absurd member List.not_mem_nil

@[simp] theorem within_append {first second : List Reason} :
    Within accepted (first ++ second) ↔ Within accepted first ∧ Within accepted second :=
  List.forall_mem_append

@[simp] theorem within_singleton {reason : Reason} : Within accepted [reason] ↔ accepted reason.code :=
  List.forall_mem_singleton

theorem within_nothing {reasons : List Reason} : Within Nothing reasons ↔ reasons = [] :=
  List.eq_nil_iff_forall_not_mem.symm

theorem status_pass {reasons : List Reason} : statusFromReasons reasons = .pass ↔ reasons = [] := by
  constructor
  · intro passed
    unfold statusFromReasons at passed
    rw [List.eq_nil_iff_forall_not_mem]
    intro reason member
    split at passed
    · cases passed
    · rename_i noFail
      split at passed
      · cases passed
      · rename_i noUnknown
        simp only [List.any_eq_true, decide_eq_true_eq, not_exists, not_and] at noFail noUnknown
        have isFail := noFail reason member
        have isUnknown := noUnknown reason member
        unfold ReasonCode.status at isFail isUnknown
        split at isFail
        · exact isFail rfl
        · rename_i other
          exact isUnknown (if_neg other)
  · rintro rfl
    rfl

theorem status_fail {reasons : List Reason} :
    statusFromReasons reasons ≠ .fail ↔ Within NoFailure reasons := by
  unfold statusFromReasons
  split
  · rename_i fails
    simp only [List.any_eq_true, decide_eq_true_eq] at fails
    obtain ⟨reason, member, isFail⟩ := fails
    exact iff_of_false (not_not.mpr rfl) fun within => within reason member isFail
  · rename_i noFail
    simp only [List.any_eq_true, decide_eq_true_eq, not_exists, not_and] at noFail
    refine iff_of_true ?_ noFail
    split <;> exact nofun

theorem mapM_admits {Item : Type} {check : Item → Except IntegrityFailure (List Reason)} :
    ∀ {items : List Item}, (∃ each, items.mapM check = .ok each ∧ Within accepted each.flatten) ↔
      ∀ item ∈ items, Admits accepted (check item)
  | [] => iff_of_true ⟨[], rfl, within_nil⟩ fun _ member => absurd member List.not_mem_nil
  | item :: rest => by
      rw [List.forall_mem_cons, ← mapM_admits]
      constructor
      · rintro ⟨each, mapped, within⟩
        rw [List.mapM_cons] at mapped
        obtain ⟨reasons, isReasons, mapped⟩ := bind_eq_ok.mp mapped
        obtain ⟨later, isLater, same⟩ := bind_eq_ok.mp mapped
        cases same
        rw [List.flatten_cons, within_append] at within
        exact ⟨⟨reasons, isReasons, within.1⟩, later, isLater, within.2⟩
      · rintro ⟨⟨reasons, isReasons, within⟩, later, isLater, withinLater⟩
        refine ⟨reasons :: later, ?_, ?_⟩
        · rw [List.mapM_cons]
          exact bind_eq_ok.mpr ⟨reasons, isReasons, bind_eq_ok.mpr ⟨later, isLater, rfl⟩⟩
        · rw [List.flatten_cons]
          exact within_append.mpr ⟨within, withinLater⟩

/-- Reasons around those of a computation. -/
theorem admits_bind {computed : Except IntegrityFailure (List Reason)}
    {build : List Reason → List Reason} {condition : Prop}
    (splits : ∀ reasons, Within accepted (build reasons) ↔ condition ∧ Within accepted reasons) :
    Admits accepted (do return build (← computed)) ↔ Admits accepted computed ∧ condition := by
  constructor
  · rintro ⟨_, returned, inside⟩
    obtain ⟨reasons, isReasons, same⟩ := bind_eq_ok.mp returned
    cases same
    exact ⟨⟨reasons, isReasons, ((splits reasons).mp inside).2⟩, ((splits reasons).mp inside).1⟩
  · rintro ⟨⟨reasons, isReasons, inside⟩, holds⟩
    exact ⟨_, bind_eq_ok.mpr ⟨reasons, isReasons, rfl⟩, (splits reasons).mpr ⟨holds, inside⟩⟩

end Within

/-! ## Times without a gap -/

section Times

variable [Zones] {accepted : ReasonCode → Prop} {policy : IntegrityPolicy}

/-- Too early is future dated, and too late is too old: between two times at which neither is said
there is none at which one is. -/
theorem sourceMoment_ordConnected (accepted : ReasonCode → Prop) (policy : IntegrityPolicy)
    (stamp : Stamp) (name : String) (maxAge : Option Timedelta) (staleCode : ReasonCode) :
    Set.OrdConnected {now : FixedTime | Within accepted (sourceMoment stamp name now.time policy maxAge staleCode).2} := by
  refine Set.ordConnected_def.mpr fun first isFirst last isLast middle between => ?_
  obtain ⟨before, after⟩ := between
  rw [FixedTime.le_iff] at before after
  cases stamp with
  | naive => exact isFirst
  | aware moment =>
      simp only [Set.mem_ofPred_eq, sourceMoment, FixedTime.minus_time, FixedTime.time_minus] at isFirst isLast ⊢
      by_cases future : policy.sourceFutureTolerance.micros < moment.instant - middle.time.instant
      · rw [if_pos (by omega)] at isFirst
        rw [if_pos future]
        simpa using isFirst
      · rw [if_neg future]
        rw [if_neg (by omega)] at isLast
        cases maxAge with
        | none => exact within_nil
        | some limit =>
            by_cases stale : limit.micros < middle.time.instant - moment.instant
            · simp only [if_pos (show limit.micros < last.time.instant - moment.instant by omega)] at isLast
              simp only [if_pos stale]
              simpa using isLast
            · simp only [if_neg stale]
              exact within_nil

theorem receipt_ordConnected (accepted : ReasonCode → Prop) (received : Stamp)
    (receiptMax : Option Timedelta) :
    Set.OrdConnected {now : FixedTime | Within accepted (receipt received now.time receiptMax)} := by
  refine Set.ordConnected_def.mpr fun first isFirst last isLast middle between => ?_
  obtain ⟨before, after⟩ := between
  rw [FixedTime.le_iff] at before after
  cases received with
  | naive => exact isFirst
  | aware moment =>
      simp only [Set.mem_ofPred_eq, receipt, FixedTime.lt_time, FixedTime.time_minus] at isFirst isLast ⊢
      by_cases future : middle.time.instant < moment.instant
      · rw [if_pos (before.trans_lt future)] at isFirst
        rw [if_pos future]
        simpa using isFirst
      · rw [if_neg future]
        rw [if_neg fun early => future (after.trans_lt early)] at isLast
        cases receiptMax with
        | none => exact within_nil
        | some limit =>
            by_cases stale : limit.micros < middle.time.instant - moment.instant
            · simp only [if_pos (show limit.micros < last.time.instant - moment.instant by omega)] at isLast
              simp only [if_pos stale]
              simpa using isLast
            · simp only [if_neg stale]
              exact within_nil

theorem timing_ordConnected (accepted : ReasonCode → Prop) (policy : IntegrityPolicy)
    (given : SourceTiming) (receiptMax sourceMax : Option Timedelta) :
    Set.OrdConnected {now : FixedTime | Within accepted (timing given now.time policy receiptMax sourceMax).2} := by
  unfold timing
  cases given.sourceTime with
  | none => exact receipt_ordConnected accepted given.receivedAt receiptMax
  | some source =>
      simp only [within_append]
      exact (receipt_ordConnected accepted given.receivedAt receiptMax).inter
        (sourceMoment_ordConnected accepted policy source _ sourceMax .staleSource)

/-- A condition without a time does not make a gap. -/
theorem ordConnected_and {condition : Prop} {times : FixedTime → Prop}
    (connected : Set.OrdConnected {now | times now}) :
    Set.OrdConnected {now | condition ∧ times now} := by
  by_cases holds : condition
  · simpa only [holds, true_and] using connected
  · simp only [holds, false_and, Set.ofPred_false]
    exact Set.ordConnected_empty

end Times

/-! ## Checks without a gap -/

section Checks

variable [Zones] {accepted : ReasonCode → Prop} {policy : IntegrityPolicy} {expected : InstrumentId}

theorem tickerReasons_ordConnected (ticker : TickerObservation) :
    Set.OrdConnected {now : FixedTime | Admits accepted (tickerReasons ticker expected now.time policy)} := by
  have splits : ∀ now, Admits accepted (tickerReasons ticker expected now policy) ↔
      Admits accepted (quoteReasons ticker.bid ticker.ask ticker.last) ∧
        (Within accepted (identity ticker.instrument expected) ∧
          Within accepted (unit ticker.priceUnit expected.quote "price_unit") ∧
            Within accepted (statusReasons ticker.status)) ∧
          Within accepted (timing ticker.timing now policy policy.tickerMaxAge policy.tickerMaxAge).2 := by
    intro now
    refine admits_bind fun reasons => ?_
    simp only [within_append]
    tauto
  simp only [splits]
  exact ordConnected_and (ordConnected_and (timing_ordConnected _ _ _ _ _))

theorem bookReasons_ordConnected (book : BookSnapshot) (requiredDepth : Option RequiredDepth) :
    Set.OrdConnected {now : FixedTime | Admits accepted (bookReasons book expected now.time policy requiredDepth)} := by
  have splits : ∀ now, Admits accepted (bookReasons book expected now policy requiredDepth) ↔
      Admits accepted (levelReasons book requiredDepth) ∧
        (Within accepted (identity book.instrument expected) ∧
          Within accepted (unit book.priceUnit expected.quote "price_unit") ∧
            Within accepted (unit book.sizeUnit expected.sizeUnit "size_unit")) ∧
          Within accepted (timing book.timing now policy policy.bookMaxAge policy.bookMaxAge).2 := by
    intro now
    refine admits_bind fun reasons => ?_
    simp only [within_append]
    tauto
  simp only [splits]
  exact ordConnected_and (ordConnected_and (timing_ordConnected _ _ _ _ _))

theorem previousReasons_ordConnected (previous : Option Stamp) :
    Set.OrdConnected {now : FixedTime | Within accepted (previousReasons previous now.time)} := by
  refine Set.ordConnected_def.mpr fun first isFirst last _ middle between => ?_
  cases previous with
  | none => exact within_nil
  | some previous =>
      cases previous with
      | naive => exact isFirst
      | aware previous =>
          simp only [Set.mem_ofPred_eq, previousReasons, FixedTime.lt_time] at isFirst ⊢
          by_cases backward : middle.time.instant < previous.instant
          · rw [if_pos (lt_of_le_of_lt (FixedTime.le_iff.mp between.1) backward)] at isFirst
            rw [if_pos backward]
            simpa using isFirst
          · rw [if_neg backward]
            exact within_nil

theorem clockReasons_ordConnected (sample : ClockSample) :
    Set.OrdConnected {now : FixedTime | Within accepted (clockReasons sample now.time policy)} := by
  have splits : ∀ now, Within accepted (clockReasons sample now policy) ↔
      (Within accepted (synchronizationReasons sample policy) ∧
        Within accepted (jumpReasons sample.backwardJump)) ∧
        Within accepted (previousReasons sample.previousWallTime now) := by
    intro now
    simp only [clockReasons, within_append]
    tauto
  simp only [splits]
  exact ordConnected_and (previousReasons_ordConnected sample.previousWallTime)

/-! ### Bars -/

theorem coverageReasons_eq_nil {series : OhlcSeries} {now : ZonedTime} {requiredBars : ℤ} :
    coverageReasons series now policy requiredBars = .ok [] ↔
      ∃ close tail, lastClose series = .ok close ∧
        contiguousTail series.bars series.interval = .ok tail ∧ requiredBars ≤ tail.length ∧
          ∀ stamp, close = some stamp → (sourceMoment stamp "bars[-1].close_time" now policy
            policy.ohlcLastCloseMaxAge .staleSource).2 = [] := by
  constructor
  · intro covered
    obtain ⟨close, isClose, rest⟩ := bind_eq_ok.mp covered
    obtain ⟨tail, isTail, same⟩ := bind_eq_ok.mp rest
    obtain ⟨closed, long⟩ := List.append_eq_nil_iff.mp (Except.ok.inj same)
    refine ⟨close, tail, isClose, isTail, not_lt.mp fun short => ?_, ?_⟩
    · rw [if_pos short] at long
      exact List.cons_ne_nil _ _ long
    · rintro stamp rfl
      exact closed
  · rintro ⟨close, tail, isClose, isTail, long, closed⟩
    refine bind_eq_ok.mpr ⟨close, isClose, bind_eq_ok.mpr ⟨tail, isTail, ?_⟩⟩
    rw [if_neg (not_lt.mpr long), List.append_nil]
    cases close with
    | none => rfl
    | some stamp => exact congrArg Except.ok (closed stamp rfl)

/-- Bars pass where nothing is said of them, whatever is looked at. -/
theorem seriesReasons_eq_nil {series : OhlcSeries} {now : ZonedTime} {requiredBars : ℤ} :
    seriesReasons series expected now policy requiredBars = .ok [] ↔
      (series.interval = policy.ohlcInterval ∧ series.bars ≠ [] ∧
        (identity series.instrument expected ++ unit series.priceUnit expected.quote "price_unit" ++
          unit series.volumeUnit expected.sizeUnit "volume_unit") = [] ∧
        ∃ bars, series.bars.zipIdx.mapM (barReasons series) = .ok bars ∧ bars.flatten = []) ∧
      (timing series.timing now policy none none).2 = [] ∧
        coverageReasons series now policy requiredBars = .ok [] := by
  simp only [seriesReasons]
  by_cases interval : series.interval = policy.ohlcInterval
  · rw [if_neg (not_not.mpr interval)]
    by_cases bars : series.bars = []
    · rw [if_pos bars]
      refine iff_of_false (fun same => ?_) fun parts => parts.1.2.1 bars
      exact List.append_ne_nil_of_right_ne_nil _ (List.cons_ne_nil _ _) (Except.ok.inj same)
    · rw [if_neg bars]
      constructor
      · intro passed
        obtain ⟨each, isEach, rest⟩ := bind_eq_ok.mp passed
        split at rest
        · rename_i hard
          rw [Except.ok.inj rest] at hard
          simp at hard
        · obtain ⟨covered, isCovered, same⟩ := bind_eq_ok.mp rest
          obtain ⟨before, rfl⟩ := List.append_eq_nil_iff.mp (Except.ok.inj same)
          obtain ⟨timed, flat⟩ := List.append_eq_nil_iff.mp before
          obtain ⟨named, timed⟩ := List.append_eq_nil_iff.mp timed
          exact ⟨⟨interval, bars, named, each, isEach, flat⟩, timed, isCovered⟩
      · rintro ⟨⟨_, _, named, each, isEach, flat⟩, timed, covered⟩
        refine bind_eq_ok.mpr ⟨each, isEach, ?_⟩
        rw [named, timed, flat]
        exact bind_eq_ok.mpr ⟨[], covered, rfl⟩
  · rw [if_pos interval]
    refine iff_of_false (fun same => ?_) fun parts => interval parts.1.1
    exact List.append_ne_nil_of_right_ne_nil _ (List.cons_ne_nil _ _) (Except.ok.inj same)

theorem coverageReasons_ordConnected (series : OhlcSeries) (requiredBars : ℤ) :
    Set.OrdConnected {now : FixedTime | coverageReasons series now.time policy requiredBars = .ok []} := by
  refine Set.ordConnected_def.mpr fun first isFirst last isLast middle between => ?_
  obtain ⟨close, tail, isClose, isTail, long, closed⟩ := coverageReasons_eq_nil.mp isFirst
  obtain ⟨close', _, isClose', _, _, closedLast⟩ := coverageReasons_eq_nil.mp isLast
  obtain rfl := Except.ok.inj (isClose.symm.trans isClose')
  refine coverageReasons_eq_nil.mpr ⟨close, tail, isClose, isTail, long, ?_⟩
  intro stamp isStamp
  rw [← within_nothing]
  exact (sourceMoment_ordConnected Nothing policy stamp _ _ _).out
    (within_nothing.mpr (closed stamp isStamp)) (within_nothing.mpr (closedLast stamp isStamp)) between

theorem seriesReasons_ordConnected (series : OhlcSeries) (requiredBars : ℤ) :
    Set.OrdConnected {now : FixedTime | seriesReasons series expected now.time policy requiredBars = .ok []} := by
  simp only [seriesReasons_eq_nil, ← @within_nothing (timing _ _ _ _ _).2]
  exact ordConnected_and ((timing_ordConnected _ _ _ _ _).inter
    (coverageReasons_ordConnected series requiredBars))

/-! ### Trades -/

theorem tradeReasons_ordConnected (place : Trade × ℕ) :
    Set.OrdConnected {now : FixedTime | Admits accepted (tradeReasons now.time policy place)} := by
  have splits : ∀ now, Admits accepted (tradeReasons now policy place) ↔
      Admits accepted (tradeNumbers s!"trades[{place.2}]" place.1) ∧ Within accepted
        (sourceMoment place.1.time (s!"trades[{place.2}]" ++ ".time") now policy none .staleSource).2 := by
    intro now
    refine admits_bind fun reasons => ?_
    rw [within_append, and_comm]
  simp only [splits]
  exact ordConnected_and (sourceMoment_ordConnected _ _ _ _ _ _)

theorem laterOf_eq_some {latest : Option ZonedTime} {moment found : ZonedTime}
    (isLater : laterOf latest moment = some found) : found = moment ∨ latest = some found := by
  cases latest with
  | none => exact .inl (Option.some.inj isLater).symm
  | some known =>
      by_cases before : known.lt moment
      · exact .inl (Option.some.inj ((if_pos before).symm.trans isLater)).symm
      · exact .inr ((if_neg before).symm.trans isLater)

theorem latestTrade_bound {now latest : ZonedTime} {trades : List Trade}
    (isLatest : latestTrade now policy trades = some latest) :
    ¬ policy.sourceFutureTolerance.micros < (latest.minus now).micros := by
  unfold latestTrade at isLatest
  refine List.foldlRecOn (motive := fun found => ∀ moment, found = some moment →
    ¬ policy.sourceFutureTolerance.micros < (moment.minus now).micros) trades _ ?_ ?_ latest isLatest
  · intro moment none
    cases none
  · intro found bounded trade _ moment isFound
    split at isFound
    · exact bounded moment isFound
    · split at isFound
      · exact bounded moment isFound
      · rename_i early
        rcases laterOf_eq_some isFound with rfl | same
        · exact early
        · exact bounded moment same

theorem latestReasons_noFailure (trades : TradesObservation) (now : ZonedTime) (activeTradeClaim : Bool) :
    Within NoFailure (latestReasons trades now policy activeTradeClaim) := by
  unfold latestReasons
  split
  · exact within_singleton.mpr (by decide)
  · split
    · rename_i latest isLatest
      split
      · rw [sourceMoment, if_neg (latestTrade_bound isLatest)]
        split
        · exact within_singleton.mpr (show NoFailure .staleLastTrade by decide)
        · exact within_nil
      · exact within_nil
    · exact within_nil

theorem tradesReasons_ordConnected (trades : TradesObservation) (activeTradeClaim : Bool) :
    Set.OrdConnected {now : FixedTime |
      Admits NoFailure (tradesReasons trades expected now.time policy activeTradeClaim)} := by
  have splits : ∀ now, Admits NoFailure (tradesReasons trades expected now policy activeTradeClaim) ↔
      (Within NoFailure (identity trades.instrument expected) ∧
        Within NoFailure (unit trades.priceUnit expected.quote "price_unit") ∧
          Within NoFailure (unit trades.sizeUnit expected.sizeUnit "size_unit")) ∧
        Within NoFailure (timing trades.timing now policy policy.tradesReceiptMaxAge none).2 ∧
          ∀ place ∈ trades.trades.zipIdx, Admits NoFailure (tradeReasons now policy place) := by
    intro now
    rw [← mapM_admits]
    constructor
    · rintro ⟨_, returned, inside⟩
      obtain ⟨each, isEach, same⟩ := bind_eq_ok.mp returned
      cases same
      simp only [within_append] at inside
      exact ⟨⟨inside.1.1.1.1.1, inside.1.1.1.1.2, inside.1.1.1.2⟩, inside.1.1.2, each, isEach, inside.1.2⟩
    · rintro ⟨⟨named, price, size⟩, timed, each, isEach, inside⟩
      refine ⟨_, bind_eq_ok.mpr ⟨each, isEach, rfl⟩, ?_⟩
      simp only [within_append]
      exact ⟨⟨⟨⟨⟨named, price⟩, size⟩, timed⟩, inside⟩, latestReasons_noFailure trades now activeTradeClaim⟩
  simp only [splits]
  refine ordConnected_and ((timing_ordConnected _ _ _ _ _).inter ?_)
  refine Set.ordConnected_def.mpr fun first isFirst last isLast middle between place member => ?_
  exact (tradeReasons_ordConnected place).out (isFirst place member) (isLast place member) between

end Checks

end CryptoRadar.Integrity
