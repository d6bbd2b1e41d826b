import CryptoRadar.Trend.Finality
import CryptoRadar.Trend.Kraken

/-!
# What the Kraken catch-up writes

`plan_kraken_catch_up`, `confirm_kraken_plan` and `apply_kraken_plan` of `domain/trend_paper_kraken.py`.
A catch-up that is let to write has a plan of the due days, each with the gap that the market shows
(`planKrakenDays_eq_ok`). Every candle that such a gap misses is missing for good in two requests, and
neither of them hides it behind the start of a history that Kraken cut off (`catchUpKrakenDays_final`).
-/

set_option autoImplicit false

namespace CryptoRadar.Trend

open Checked

/-! ## Single gaps -/

section Gaps

variable {F : Type} [PyFloat F] {market second : KrakenMarket F} {day : Date} {gap : Gap}

/-- The candle is missing for good, and the history of its symbol had begun by its day. -/
structure KrakenLacks (market : KrakenMarket F) (gap : Gap) : Prop where
  lacks : LacksForGood market.series gap
  begun : ∀ first ∈ market.historyStart gap.symbol, first ≤ gap.day

theorem of_unsettled_eq_none (settled : unsettled market gap = .ok none) :
    hasLater market.series gap.symbol gap.day = .ok true ∧
      ∀ first ∈ market.historyStart gap.symbol, first ≤ gap.day := by
  obtain ⟨later, isLater, settled⟩ := bind_eq_ok.mp settled
  cases later with
  | false => cases settled
  | true =>
      refine ⟨isLater, fun first isFirst => ?_⟩
      simp only [if_true, Option.mem_def.mp isFirst] at settled
      by_contra early
      simp only [if_neg early] at settled
      cases settled

theorem firstUnsettledWhy_eq_none {gaps : List Gap} :
    firstUnsettledWhy market gaps = .ok none ↔ ∀ gap ∈ gaps, unsettled market gap = .ok none := by
  have isSearch : firstUnsettledWhy market gaps = gaps.findSomeM? (unsettled market) := by
    induction gaps with
    | nil => rfl
    | cons gap rest hyp =>
        rw [firstUnsettledWhy, List.findSomeM?_cons]
        congr 1
        funext why
        cases why with
        | some why => rfl
        | none => exact hyp
  rw [isSearch, Search.findSomeM?_eq_none]

theorem firstKrakenRefusal_eq_none {gaps : List Gap} :
    firstKrakenRefusal second gaps = .ok none ↔
      ∀ gap ∈ gaps, krakenRefusal second gap = .ok none := by
  have isSearch : firstKrakenRefusal second gaps = gaps.findSomeM? (krakenRefusal second) := by
    induction gaps with
    | nil => rfl
    | cons gap rest hyp =>
        rw [firstKrakenRefusal, List.findSomeM?_cons]
        congr 1
        funext why
        cases why with
        | some why => rfl
        | none => exact hyp
  rw [isSearch, Search.findSomeM?_eq_none]

theorem absent_of_krakenDayGap {found : DayGap}
    (isGap : krakenDayGap market.series day = .ok (some found)) :
    ∀ gap ∈ found.gaps, Absent market.series gap := by
  intro gap member
  obtain ⟨fill, isFill, isGap⟩ := bind_eq_ok.mp isGap
  cases noFill : blocked day .noKrakenOpen (fill.map fun symbol => ⟨symbol, day⟩) with
  | some other =>
      rw [noFill] at isGap
      cases isGap
      rw [(blocked_eq_some noFill).2.2] at member
      obtain ⟨symbol, isMissing, rfl⟩ := List.mem_map.mp member
      exact absent_of_lacksOpen ((mem_select isFill symbol).1.mp isMissing).2
  | none =>
      rw [noFill] at isGap
      obtain ⟨signal, isSignal, isGap⟩ := bind_eq_ok.mp isGap
      rw [(blocked_eq_some (Except.ok.inj isGap)).2.2] at member
      exact absent_of_signalGaps isSignal gap member

/-- A gap of the plan is missing for good in the first market. -/
theorem krakenLacks_of_absent (absent : Absent market.series gap)
    (settled : unsettled market gap = .ok none) : KrakenLacks market gap := by
  obtain ⟨later, begun⟩ := of_unsettled_eq_none settled
  exact ⟨lacksForGood_of_absent absent later, begun⟩

/-- A gap that the second market does not refuse is missing for good in it. -/
theorem krakenLacks_of_refusal (confirmed : krakenRefusal second gap = .ok none) :
    KrakenLacks second gap := by
  unfold krakenRefusal at confirmed
  cases found : second.series.get? gap.symbol with
  | none =>
      rw [found] at confirmed
      cases confirmed
  | some series =>
      rw [found] at confirmed
      by_cases named : series.symbol ≠ gap.symbol
      · simp only [if_pos named] at confirmed
        cases confirmed
      · simp only [if_neg named] at confirmed
        obtain ⟨why, isWhy, confirmed⟩ := bind_eq_ok.mp confirmed
        cases why with
        | some why => cases confirmed
        | none =>
            have noOpen : series.openOn gap.day = none := by
              cases isOpen : series.openOn gap.day with
              | none => rfl
              | some price =>
                  rw [isOpen] at confirmed
                  cases confirmed
            refine krakenLacks_of_absent ⟨series, ?_, ?_⟩ isWhy
            · obtain ⟨again, isSeries, held, _⟩ := hasLater_eq_true (of_unsettled_eq_none isWhy).1
              cases found.symm.trans held
              exact isSeries
            · exact DailySeries.closeOn_eq_none_of_openOn noOpen

end Gaps

/-! ## Plans -/

section Plans

variable {F : Type} [PyMath F] {market : KrakenMarket F} {ledger : Ledger F} {start : Date}
  {today : Option Date}

/-- The gap of a Kraken day, if it has one. -/
def krakenGapOf (market : KrakenMarket F) (day : Date) : Option DayGap :=
  (krakenDayGap market.series day).toOption.join

theorem krakenGapOf_of {day : Date} {found : Option DayGap}
    (isGap : krakenDayGap market.series day = .ok found) : krakenGapOf market day = found := by
  rw [krakenGapOf, isGap]
  rfl

/-- A plan that does not wait holds the gap of each of its days, and each of them is settled. -/
theorem planKrakenDays_eq_ok {days : List Date} :
    ∀ {plan result : KrakenPlan}, planKrakenDays market plan days = .ok result →
      result.waiting = none →
      result = { plan with gaps := plan.gaps.assignAll (krakenGapOf market) days } ∧
        ∀ day ∈ days, krakenDayGap market.series day = .ok (krakenGapOf market day) ∧
          ∀ found ∈ krakenGapOf market day, ∀ gap ∈ found.gaps, unsettled market gap = .ok none := by
  induction days with
  | nil =>
      intro plan result planned _
      cases planned
      exact ⟨rfl, by simp⟩
  | cons first rest hyp =>
      intro plan result planned goes
      obtain ⟨found, isGap, planned⟩ := bind_eq_ok.mp planned
      have isFound := krakenGapOf_of isGap
      rw [List.forall_mem_cons, isFound]
      change result = { plan with
        gaps := Dict.assignAll _ ((krakenGapOf market first).elim plan.gaps _) rest } ∧ _
      rw [isFound]
      cases found with
      | none =>
          obtain ⟨same, own⟩ := hyp planned goes
          exact ⟨same, ⟨isGap, by simp⟩, own⟩
      | some found =>
          obtain ⟨why, isWhy, planned⟩ := bind_eq_ok.mp planned
          cases why with
          | some why =>
              cases planned
              cases goes
          | none =>
              obtain ⟨same, own⟩ := hyp planned goes
              refine ⟨same, ⟨isGap, fun other isOther => ?_⟩, own⟩
              cases isOther
              exact firstUnsettledWhy_eq_none.mp isWhy

/-- The plan of a catch-up that goes on is about the days that are due. -/
theorem planKrakenCatchUp_eq_ok {plan : KrakenPlan}
    (planned : planKrakenCatchUp ledger market start today = .ok plan) (goes : plan.waiting = none) :
    daysDue start market.series ledger today = .ok plan.days ∧ plan.confirmed = false ∧
      ∀ day ∈ plan.days, krakenDayGap market.series day = .ok (plan.gaps.get? day) ∧
        ∀ found ∈ plan.gaps.get? day, ∀ gap ∈ found.gaps, unsettled market gap = .ok none := by
  have ne_wait : ∀ days why, plan ≠ .wait days why := by
    rintro days why rfl
    cases goes
  obtain ⟨days, isDue, _, ⟨rfl, rfl⟩ | planned⟩ := daysDue_of_planDue ne_wait planned
  · exact ⟨isDue, rfl, by simp [KrakenPlan.ofDays]⟩
  · obtain ⟨rfl, own⟩ := planKrakenDays_eq_ok planned goes
    have isGap : ∀ day ∈ days, Dict.get? (Dict.assignAll (krakenGapOf market) [] days) day =
        krakenGapOf market day := by
      intro day member
      rw [Dict.get?_assignAll, if_pos member]
      exact Option.or_none
    refine ⟨isDue, rfl, fun day member => ?_⟩
    change day ∈ days at member
    change krakenDayGap market.series day =
        .ok (Dict.get? (Dict.assignAll (krakenGapOf market) [] days) day) ∧
      ∀ found ∈ Dict.get? (Dict.assignAll (krakenGapOf market) [] days) day,
        ∀ gap ∈ found.gaps, unsettled market gap = .ok none
    rw [isGap day member]
    exact own day member

theorem KrakenPlan.mem_missing {plan : KrakenPlan} {day : Date} {found : DayGap} {gap : Gap}
    (isFound : plan.gaps.get? day = some found) (inFound : gap ∈ found.gaps) : gap ∈ plan.missing :=
  List.mem_flatMap.mpr ⟨_, Dict.mem_of_get?_eq_some isFound, inFound⟩

/-- A plan that is applied comes from a plan that does not wait, and a second market confirms each
candle it relies on. -/
theorem of_confirmedKrakenPlan {refetch : Option (Dict String Date → KrakenMarket F)}
    {plan : KrakenPlan} {done : Unit}
    (isPlan : confirmedKrakenPlan start market refetch ledger today = .ok plan)
    (checked : checkKrakenPlan plan = .ok done) :
    ∃ base, planKrakenCatchUp ledger market start today = .ok base ∧ base.waiting = none ∧
      base.days = plan.days ∧ base.gaps = plan.gaps ∧ ∀ gap ∈ base.missing,
        ∃ since, base.toConfirm = .ok since ∧
          ∃ ask ∈ refetch, krakenRefusal (ask since) gap = .ok none := by
  have goes : plan.waiting = none := by
    unfold checkKrakenPlan at checked
    cases waits : plan.waiting with
    | none => rfl
    | some why =>
        rw [waits] at checked
        cases checked
  have settled : plan.missing = [] ∨ plan.confirmed = true := by
    unfold checkKrakenPlan at checked
    rw [goes] at checked
    simpa using checked
  obtain ⟨base, isBase, isPlan⟩ := bind_eq_ok.mp isPlan
  refine ⟨base, isBase, ?_⟩
  -- a plan that was not asked about misses nothing
  have unasked : plan = base → base.waiting = none ∧ base.days = plan.days ∧
      base.gaps = plan.gaps ∧ base.missing = [] := by
    rintro rfl
    refine ⟨goes, rfl, rfl, settled.resolve_right ?_⟩
    simp [(planKrakenCatchUp_eq_ok isBase goes).2.1]
  cases refetch with
  | none =>
      cases isPlan
      obtain ⟨waits, sameDays, sameGaps, nothing⟩ := unasked rfl
      exact ⟨waits, sameDays, sameGaps, by simp [nothing]⟩
  | some ask =>
      by_cases asks : base.waiting = none ∧ base.missing ≠ []
      · simp only [if_pos asks] at isPlan
        obtain ⟨since, isSince, isPlan⟩ := bind_eq_ok.mp isPlan
        obtain ⟨why, isWhy, isPlan⟩ := bind_eq_ok.mp isPlan
        cases why with
        | some why =>
            cases isPlan
            cases goes
        | none =>
            cases isPlan
            exact ⟨asks.1, rfl, rfl, fun gap member => ⟨since, isSince, ask, rfl,
              firstKrakenRefusal_eq_none.mp isWhy gap member⟩⟩
      · simp only [if_neg asks] at isPlan
        cases isPlan
        obtain ⟨waits, sameDays, sameGaps, nothing⟩ := unasked rfl
        exact ⟨waits, sameDays, sameGaps, by simp [nothing]⟩

end Plans

/-! ## What is written -/

/-- **A Kraken day is skipped only when its candle is missing for good.** Whatever an append does, a
catch-up leaves the world as it was, or every due day is settled: each candle that the gap of the day
misses is missing for good in the market and in one asked again, and the history of its symbol had
begun by its day in both. Then the world changes by the appends of the lines of these days, the skip
line of the gap where there is one. -/
theorem catchUpKrakenDays_final {F World : Type} [PyMath F] (codec : LedgerCodec F) (start : Date)
    (market : KrakenMarket F) (ts : PyStr)
    (append : Bytes → World → Except CatchUpFailure (Ledger F) × World)
    (refetch : Option (Dict String Date → KrakenMarket F)) (ledger : Ledger F) (today : Option Date)
    (world : World) :
    let after := (catchUpKrakenDays codec start market ts append refetch ledger today world).2
    after = world ∨ ∃ days gaps chunks, daysDue start market.series ledger today = .ok days ∧
      (∀ day ∈ days, krakenDayGap market.series day = .ok (Dict.get? gaps day) ∧
        ∀ found ∈ Dict.get? gaps day, ∀ gap ∈ found.gaps, KrakenLacks market gap ∧
          ∃ since, ∃ ask ∈ refetch, KrakenLacks (ask since) gap) ∧
      prepareKraken codec start market ts gaps ledger days = .ok chunks ∧
      after = (appendChunks append chunks world).2 := by
  intro after
  have isAfter : after =
    (catchUpKrakenDays codec start market ts append refetch ledger today world).2 := rfl
  unfold catchUpKrakenDays applyKrakenPlan at isAfter
  cases isPlan : confirmedKrakenPlan start market refetch ledger today with
  | error failure =>
      rw [isPlan] at isAfter
      exact .inl isAfter
  | ok plan =>
      rw [isPlan] at isAfter
      simp only at isAfter
      cases ready : (checkKrakenPlan plan >>= fun _ =>
          prepareKraken codec start market ts plan.gaps ledger plan.days) with
      | error failure =>
          rw [ready] at isAfter
          exact .inl isAfter
      | ok chunks =>
          rw [ready] at isAfter
          obtain ⟨_, checked, prepared⟩ := bind_eq_ok.mp ready
          obtain ⟨base, isBase, goes, sameDays, sameGaps, confirmed⟩ :=
            of_confirmedKrakenPlan isPlan checked
          obtain ⟨isDue, _, own⟩ := planKrakenCatchUp_eq_ok isBase goes
          refine .inr ⟨base.days, base.gaps, chunks, isDue, fun day member => ?_,
            by rw [sameDays, sameGaps]; exact prepared, ?_⟩
          · obtain ⟨isGap, settled⟩ := own day member
            refine ⟨isGap, fun found isFound gap inFound => ?_⟩
            rw [Option.mem_def.mp isFound] at isGap
            obtain ⟨since, _, ask, isAsk, refused⟩ :=
              confirmed gap (KrakenPlan.mem_missing isFound inFound)
            exact ⟨krakenLacks_of_absent (absent_of_krakenDayGap isGap gap inFound)
              (settled found isFound gap inFound), since, ask, isAsk, krakenLacks_of_refusal refused⟩
          · dsimp only at isAfter
            generalize appendChunks append chunks world = appended at isAfter ⊢
            obtain ⟨result, last⟩ := appended
            cases result with
            | error failure => exact isAfter
            | ok done => exact isAfter

end CryptoRadar.Trend
