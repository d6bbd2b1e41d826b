import CryptoRadar.Integrity.Readiness

/-!
# Reports fail closed and do not flap

What `evaluate_snapshot` reports of a snapshot. Where the clock does not pass, nothing that rests
on freshness does (`status_of_untrusted`). What blocks the selected opportunity is read off the
results about spot and the clock alone (`blockingResults_eq`), so futures and metadata never change
it. An opportunity is not blocked exactly where its parts have nothing to say (`unblocked_iff`), and
that is so without a gap in time.
-/

set_option autoImplicit false

namespace CryptoRadar.Integrity

open Checked

/-! ## Results -/

/-- A result with the status of its reasons. -/
def Judged (capability : Capability) (item : CapabilityResult) : Prop :=
  item.capability = capability ∧ item.status = statusFromReasons item.reasons

theorem judged_result (capability : Capability) (subject : String) (reasons : List Reason)
    (timeBasis : TimeBasis) (receivedAt sourceTime : Option Stamp) :
    Judged capability (result capability subject reasons timeBasis receivedAt sourceTime) :=
  ⟨rfl, rfl⟩

section Judged

variable {capability : Capability} {item : CapabilityResult}

theorem Judged.blocks_required (judged : Judged capability item)
    (required : capability.spotRequired ∨ capability = .clock) :
    item.blocks = false ↔ item.reasons = [] := by
  obtain ⟨rfl, isStatus⟩ := judged
  rw [← status_pass, ← isStatus, CapabilityResult.blocks]
  by_cases passed : item.status = .pass
  · rw [if_neg fun blocked => blocked.2 passed]
    simp [passed]
  · rw [if_pos ⟨required, passed⟩]
    simp [passed]

theorem Judged.blocks_optional (judged : Judged capability item)
    (optional : ¬ (capability.spotRequired ∨ capability = .clock)) (ofSpot : capability.ofSpot) :
    item.blocks = false ↔ Within NoFailure item.reasons := by
  obtain ⟨rfl, isStatus⟩ := judged
  rw [← status_fail, ← isStatus, CapabilityResult.blocks, if_neg fun blocked => optional blocked.1]
  simp [ofSpot]

/-- Futures and metadata never block. -/
theorem blocks_of_other (other : item.capability = .futures ∨ item.capability = .metadata) :
    item.blocks = false := by
  unfold CapabilityResult.blocks
  rcases other with same | same <;> rw [same] <;> simp [Capability.spotRequired, Capability.ofSpot]

theorem evaluateMetadata_judged {metadata : MetadataValue}
    (evaluated : evaluateMetadata metadata = .ok item) : Judged .metadata item := by
  unfold evaluateMetadata at evaluated
  split at evaluated
  · cases evaluated
    exact judged_result _ _ _ _ _ _
  · obtain ⟨_, _, same⟩ := bind_eq_ok.mp evaluated
    cases same
    exact judged_result _ _ _ _ _ _

end Judged

section Evaluated

variable [Zones] {expected : InstrumentId} {now : ZonedTime} {policy : IntegrityPolicy} {item : CapabilityResult}

theorem evaluateTicker_judged {ticker : Option TickerObservation}
    (evaluated : evaluateTicker ticker expected now policy = .ok item) : Judged .spotTicker item := by
  cases ticker with
  | none => cases evaluated; exact judged_result _ _ _ _ _ _
  | some =>
      obtain ⟨_, _, same⟩ := bind_eq_ok.mp evaluated
      cases same
      exact judged_result _ _ _ _ _ _

theorem evaluateOhlc_judged {series : Option OhlcSeries} {requiredBars : ℤ}
    (evaluated : evaluateOhlc series expected now policy requiredBars = .ok item) :
    Judged .pairOhlc item := by
  cases series with
  | none => cases evaluated; exact judged_result _ _ _ _ _ _
  | some =>
      obtain ⟨_, _, rest⟩ := bind_eq_ok.mp evaluated
      obtain ⟨_, _, same⟩ := bind_eq_ok.mp rest
      cases same
      exact judged_result _ _ _ _ _ _

theorem evaluateAtr_judged {series : Option OhlcSeries} {timeframe : AtrTimeframe}
    (evaluated : evaluateAtr series expected now timeframe policy = .ok item) : Judged .atr item := by
  cases series with
  | none => cases evaluated; exact judged_result _ _ _ _ _ _
  | some =>
      obtain ⟨_, _, rest⟩ := bind_eq_ok.mp evaluated
      obtain ⟨_, _, rest⟩ := bind_eq_ok.mp rest
      split at rest
      · obtain ⟨_, _, same⟩ := bind_eq_ok.mp rest
        cases same
        exact judged_result _ _ _ _ _ _
      · cases rest
        exact judged_result _ _ _ _ _ _

theorem evaluateBook_judged {book : Option BookSnapshot} {requiredDepth : Option RequiredDepth}
    (evaluated : evaluateBook book expected now policy requiredDepth = .ok item) : Judged .book item := by
  cases book with
  | none => cases evaluated; exact judged_result _ _ _ _ _ _
  | some =>
      obtain ⟨_, _, same⟩ := bind_eq_ok.mp evaluated
      cases same
      exact judged_result _ _ _ _ _ _

theorem evaluateTrades_judged {trades : Option TradesObservation} {activeTradeClaim : Bool}
    (evaluated : evaluateTrades trades expected now policy activeTradeClaim = .ok item) :
    Judged .trades item := by
  cases trades with
  | none => cases evaluated; exact judged_result _ _ _ _ _ _
  | some =>
      obtain ⟨_, _, same⟩ := bind_eq_ok.mp evaluated
      cases same
      exact judged_result _ _ _ _ _ _

theorem evaluateFutures_judged {futures : Option FuturesObservation}
    (evaluated : evaluateFutures futures expected now policy = .ok item) : Judged .futures item := by
  cases futures with
  | none => cases evaluated; exact judged_result _ _ _ _ _ _
  | some =>
      obtain ⟨_, _, same⟩ := bind_eq_ok.mp evaluated
      cases same
      exact judged_result _ _ _ _ _ _

end Evaluated

/-! ## An untrusted clock -/

theorem clockUntrusted_capability (clock item : CapabilityResult) :
    (clockUntrusted clock item).capability = item.capability := by
  unfold clockUntrusted
  split <;> rfl

/-- What rests on freshness does not pass with a clock that is not trusted. -/
theorem status_of_untrusted {clock item : CapabilityResult}
    (sensitive : item.capability.freshnessSensitive) : (clockUntrusted clock item).status ≠ .pass := by
  unfold clockUntrusted
  split
  · rename_i kept
    exact kept.resolve_left (not_not.mpr sensitive)
  · intro passed
    exact List.append_ne_nil_of_right_ne_nil _ (List.cons_ne_nil _ _) (status_pass.mp passed)

/-- The results as they are reported beside a clock. -/
def trusted (clock : CapabilityResult) (items : List CapabilityResult) : List CapabilityResult :=
  if clock.status ≠ .pass then items.map (clockUntrusted clock) else items

theorem capability_of_trusted {clock item : CapabilityResult} {items : List CapabilityResult}
    (member : item ∈ trusted clock items) : ∃ given ∈ items, item.capability = given.capability := by
  unfold trusted at member
  split at member
  · obtain ⟨given, isGiven, rfl⟩ := List.mem_map.mp member
    exact ⟨given, isGiven, clockUntrusted_capability clock given⟩
  · exact ⟨item, member, rfl⟩

theorem trusted_append (clock : CapabilityResult) (first second : List CapabilityResult) :
    trusted clock (first ++ second) = trusted clock first ++ trusted clock second := by
  unfold trusted
  split
  · exact List.map_append
  · rfl

/-! ## Reports -/

theorem opportunityBlocked_eq_false {report : IntegrityReport} :
    report.opportunityBlocked = false ↔ report.blockingResults = [] := by
  simp [IntegrityReport.opportunityBlocked]

/-- What a range says of itself, where it is not claimed or where nothing of it fails. -/
def Quiet (checked : Except IntegrityFailure CapabilityResult) : Prop :=
  ∃ item, checked = .ok item ∧ item.blocks = false

theorem metadata_capability {snapshot : MarketSnapshot} {metadata : List CapabilityResult}
    (isMetadata : snapshot.metadata.mapM evaluateMetadata = .ok metadata) :
    ∀ item ∈ metadata, item.capability = .metadata := by
  intro item member
  obtain ⟨_, _, evaluated⟩ := mem_of_mapM_eq_ok isMetadata item member
  exact (evaluateMetadata_judged evaluated).1

section Reports

variable [Zones] {snapshot : MarketSnapshot} {now : ZonedTime} {policy : IntegrityPolicy}

theorem evaluateSnapshot_eq_ok {report : IntegrityReport} :
    evaluateSnapshot snapshot now policy = .ok report ↔ ∃ spot futures metadata,
      spotResults snapshot now policy = .ok spot ∧ futuresResults snapshot now policy = .ok futures ∧
        snapshot.metadata.mapM evaluateMetadata = .ok metadata ∧
          report = ⟨now, policy.version,
            trusted (evaluateClock snapshot.clock now policy) (spot ++ futures ++ metadata) ++
              [evaluateClock snapshot.clock now policy]⟩ := by
  constructor
  · intro evaluated
    obtain ⟨spot, isSpot, rest⟩ := bind_eq_ok.mp evaluated
    obtain ⟨futures, isFutures, rest⟩ := bind_eq_ok.mp rest
    obtain ⟨metadata, isMetadata, same⟩ := bind_eq_ok.mp rest
    exact ⟨spot, futures, metadata, isSpot, isFutures, isMetadata, (Except.ok.inj same).symm⟩
  · rintro ⟨spot, futures, metadata, isSpot, isFutures, isMetadata, rfl⟩
    exact bind_eq_ok.mpr ⟨spot, isSpot, bind_eq_ok.mpr ⟨futures, isFutures,
      bind_eq_ok.mpr ⟨metadata, isMetadata, rfl⟩⟩⟩

theorem futuresResults_capability {futures : List CapabilityResult}
    (isFutures : futuresResults snapshot now policy = .ok futures) :
    ∀ item ∈ futures, item.capability = .futures := by
  intro item member
  unfold futuresResults at isFutures
  split at isFutures
  · cases isFutures
    rw [List.mem_singleton.mp member]
    rfl
  · obtain ⟨_, _, evaluated⟩ := mem_of_mapM_eq_ok isFutures item member
    exact (evaluateFutures_judged evaluated).1

/-- The parts of the results about spot. -/
theorem spotResults_eq_ok {spot : List CapabilityResult} :
    spotResults snapshot now policy = .ok spot ↔ ∃ ticker ohlc atr5m atr1h book trades,
      spot = [ticker, ohlc, atr5m, atr1h, book, trades] ∧
        evaluateTicker snapshot.ticker snapshot.selected now policy = .ok ticker ∧
        evaluateOhlc snapshot.ohlc snapshot.selected now policy snapshot.ohlcRequiredBars = .ok ohlc ∧
        evaluateAtr snapshot.ohlc snapshot.selected now .m5 policy = .ok atr5m ∧
        claimedAtr1h snapshot now policy = .ok atr1h ∧
        evaluateBook snapshot.book snapshot.selected now policy snapshot.requiredDepth = .ok book ∧
        evaluateTrades snapshot.trades snapshot.selected now policy snapshot.activeTradeClaim =
          .ok trades := by
  constructor
  · intro evaluated
    obtain ⟨ticker, isTicker, rest⟩ := bind_eq_ok.mp evaluated
    obtain ⟨ohlc, isOhlc, rest⟩ := bind_eq_ok.mp rest
    obtain ⟨atr5m, isAtr5m, rest⟩ := bind_eq_ok.mp rest
    obtain ⟨atr1h, isAtr1h, rest⟩ := bind_eq_ok.mp rest
    obtain ⟨book, isBook, rest⟩ := bind_eq_ok.mp rest
    obtain ⟨trades, isTrades, same⟩ := bind_eq_ok.mp rest
    exact ⟨ticker, ohlc, atr5m, atr1h, book, trades, (Except.ok.inj same).symm, isTicker, isOhlc,
      isAtr5m, isAtr1h, isBook, isTrades⟩
  · rintro ⟨ticker, ohlc, atr5m, atr1h, book, trades, rfl, isTicker, isOhlc, isAtr5m, isAtr1h, isBook,
      isTrades⟩
    exact bind_eq_ok.mpr ⟨ticker, isTicker, bind_eq_ok.mpr ⟨ohlc, isOhlc, bind_eq_ok.mpr
      ⟨atr5m, isAtr5m, bind_eq_ok.mpr ⟨atr1h, isAtr1h, bind_eq_ok.mpr ⟨book, isBook, bind_eq_ok.mpr
        ⟨trades, isTrades, rfl⟩⟩⟩⟩⟩⟩

/-- What blocks is among the results about spot and the clock. -/
theorem blockingResults_eq {report : IntegrityReport}
    (evaluated : evaluateSnapshot snapshot now policy = .ok report) :
    ∃ spot, spotResults snapshot now policy = .ok spot ∧ report.blockingResults =
      (trusted (evaluateClock snapshot.clock now policy) spot ++
        [evaluateClock snapshot.clock now policy]).filter CapabilityResult.blocks := by
  obtain ⟨spot, futures, metadata, isSpot, isFutures, isMetadata, rfl⟩ :=
    evaluateSnapshot_eq_ok.mp evaluated
  refine ⟨spot, isSpot, ?_⟩
  have others : ∀ {items : List CapabilityResult},
      (∀ item ∈ items, item.capability = .futures ∨ item.capability = .metadata) →
        (trusted (evaluateClock snapshot.clock now policy) items).filter CapabilityResult.blocks = [] := by
    intro items capability
    rw [List.filter_eq_nil_iff]
    intro item member
    obtain ⟨given, isGiven, same⟩ := capability_of_trusted member
    rw [blocks_of_other (same ▸ capability given isGiven)]
    exact Bool.false_ne_true
  simp only [IntegrityReport.blockingResults, trusted_append, List.filter_append,
    others fun item member => .inl (futuresResults_capability isFutures item member),
    others fun item member => .inr (metadata_capability isMetadata item member), List.append_nil]

/-- The spot opportunity of the snapshot is reported, and not blocked. -/
def Unblocked (snapshot : MarketSnapshot) (now : ZonedTime) (policy : IntegrityPolicy) : Prop :=
  ∃ report, evaluateSnapshot snapshot now policy = .ok report ∧ report.opportunityBlocked = false

/-- The parts of an opportunity that is not blocked. -/
theorem unblocked_iff : Unblocked snapshot now policy ↔
    clockReasons snapshot.clock now policy = [] ∧
      Quiet (evaluateTicker snapshot.ticker snapshot.selected now policy) ∧
      Quiet (evaluateOhlc snapshot.ohlc snapshot.selected now policy snapshot.ohlcRequiredBars) ∧
      Quiet (evaluateAtr snapshot.ohlc snapshot.selected now .m5 policy) ∧
      Quiet (claimedAtr1h snapshot now policy) ∧
      Quiet (evaluateBook snapshot.book snapshot.selected now policy snapshot.requiredDepth) ∧
      Quiet (evaluateTrades snapshot.trades snapshot.selected now policy snapshot.activeTradeClaim) ∧
      (∃ futures, futuresResults snapshot now policy = .ok futures) ∧
      ∃ metadata, snapshot.metadata.mapM evaluateMetadata = .ok metadata := by
  have clockBlocks : (evaluateClock snapshot.clock now policy).blocks = false ↔
      clockReasons snapshot.clock now policy = [] :=
    (judged_result .clock "utc" (clockReasons snapshot.clock now policy) .none none
      none).blocks_required (.inr rfl)
  have trusts : ∀ {items : List CapabilityResult}, clockReasons snapshot.clock now policy = [] →
      trusted (evaluateClock snapshot.clock now policy) items = items := by
    intro items nothing
    exact if_neg (not_not.mpr (status_pass.mpr nothing))
  constructor
  · rintro ⟨report, evaluated, notBlocked⟩
    obtain ⟨spot, isSpot, blocking⟩ := blockingResults_eq evaluated
    obtain ⟨_, futures, metadata, _, isFutures, isMetadata, _⟩ := evaluateSnapshot_eq_ok.mp evaluated
    rw [opportunityBlocked_eq_false.mp notBlocked] at blocking
    have quiet := List.filter_eq_nil_iff.mp blocking.symm
    have clock := clockBlocks.mp (Bool.eq_false_iff.mpr
      (quiet _ (List.mem_append_right _ (List.mem_singleton_self _))))
    rw [trusts clock] at quiet
    obtain ⟨ticker, ohlc, atr5m, atr1h, book, trades, rfl, isTicker, isOhlc, isAtr5m, isAtr1h, isBook,
      isTrades⟩ := spotResults_eq_ok.mp isSpot
    simp only [List.cons_append, List.nil_append, List.forall_mem_cons, Bool.not_eq_true] at quiet
    obtain ⟨quietTicker, quietOhlc, quietAtr5m, quietAtr1h, quietBook, quietTrades, _⟩ := quiet
    exact ⟨clock, ⟨ticker, isTicker, quietTicker⟩, ⟨ohlc, isOhlc, quietOhlc⟩,
      ⟨atr5m, isAtr5m, quietAtr5m⟩, ⟨atr1h, isAtr1h, quietAtr1h⟩, ⟨book, isBook, quietBook⟩,
      ⟨trades, isTrades, quietTrades⟩, ⟨futures, isFutures⟩, metadata, isMetadata⟩
  · rintro ⟨clock, ⟨ticker, isTicker, quietTicker⟩, ⟨ohlc, isOhlc, quietOhlc⟩,
      ⟨atr5m, isAtr5m, quietAtr5m⟩, ⟨atr1h, isAtr1h, quietAtr1h⟩, ⟨book, isBook, quietBook⟩,
      ⟨trades, isTrades, quietTrades⟩, ⟨futures, isFutures⟩, metadata, isMetadata⟩
    have isSpot := spotResults_eq_ok.mpr ⟨ticker, ohlc, atr5m, atr1h, book, trades, rfl, isTicker,
      isOhlc, isAtr5m, isAtr1h, isBook, isTrades⟩
    have evaluated := evaluateSnapshot_eq_ok.mpr ⟨_, futures, metadata, isSpot, isFutures, isMetadata, rfl⟩
    refine ⟨_, evaluated, opportunityBlocked_eq_false.mpr ?_⟩
    obtain ⟨spot, isSpot', blocking⟩ := blockingResults_eq evaluated
    obtain rfl := Except.ok.inj (isSpot.symm.trans isSpot')
    rw [blocking, trusts clock]
    simp [quietTicker, quietOhlc, quietAtr5m, quietAtr1h, quietBook, quietTrades, clockBlocks.mpr clock]

end Reports

/-! ## Times at which nothing blocks -/

/-- A result that is made of computed reasons. -/
theorem quiet_bind {accepted : ReasonCode → Prop} {computed : Except IntegrityFailure (List Reason)}
    {build : List Reason → CapabilityResult}
    (blocks : ∀ reasons, (build reasons).blocks = false ↔ Within accepted reasons) :
    Quiet (do return build (← computed)) ↔ Admits accepted computed := by
  constructor
  · rintro ⟨item, evaluated, notBlocking⟩
    obtain ⟨reasons, isReasons, same⟩ := bind_eq_ok.mp evaluated
    cases same
    exact ⟨reasons, isReasons, (blocks reasons).mp notBlocking⟩
  · rintro ⟨reasons, isReasons, inside⟩
    exact ⟨_, bind_eq_ok.mpr ⟨reasons, isReasons, rfl⟩, (blocks reasons).mpr inside⟩

section Made

variable {capability : Capability} {subject : String} {timeBasis : TimeBasis}
  {receivedAt sourceTime : Option Stamp}

theorem made_required (required : capability.spotRequired) (reasons : List Reason) :
    (result capability subject reasons timeBasis receivedAt sourceTime).blocks = false ↔
      Within Nothing reasons :=
  ((judged_result capability subject reasons timeBasis receivedAt sourceTime).blocks_required
    (.inl required)).trans within_nothing.symm

theorem made_optional (optional : ¬ (capability.spotRequired ∨ capability = .clock))
    (ofSpot : capability.ofSpot) (reasons : List Reason) :
    (result capability subject reasons timeBasis receivedAt sourceTime).blocks = false ↔
      Within NoFailure reasons :=
  (judged_result capability subject reasons timeBasis receivedAt sourceTime).blocks_optional optional ofSpot

end Made

section Times

variable [Zones] {policy : IntegrityPolicy} {expected : InstrumentId}

/-- A required observation that is missing blocks at all times. -/
theorem missing_ordConnected {capability : Capability} {subject : String}
    (required : capability.spotRequired) (what : String) :
    Set.OrdConnected {_now : FixedTime | Quiet (.ok (missing capability subject what))} := by
  refine Set.ordConnected_def.mpr fun first isFirst _ _ _ _ => ?_
  obtain ⟨item, same, notBlocking⟩ := isFirst
  cases same
  exact absurd (within_nothing.mp ((made_required required _).mp notBlocking)) (List.cons_ne_nil _ _)

theorem quietTicker_ordConnected (ticker : Option TickerObservation) :
    Set.OrdConnected {now : FixedTime | Quiet (evaluateTicker ticker expected now.time policy)} := by
  cases ticker with
  | none => exact missing_ordConnected rfl "ticker"
  | some given =>
      have quiet : ∀ now, Quiet (evaluateTicker (some given) expected now policy) ↔
          Admits Nothing (tickerReasons given expected now policy) :=
        fun now => quiet_bind (made_required rfl)
      simpa only [quiet] using tickerReasons_ordConnected given

theorem quietBook_ordConnected (book : Option BookSnapshot) (requiredDepth : Option RequiredDepth) :
    Set.OrdConnected {now : FixedTime | Quiet (evaluateBook book expected now.time policy requiredDepth)} := by
  cases book with
  | none => exact missing_ordConnected rfl "book"
  | some given =>
      have quiet : ∀ now, Quiet (evaluateBook (some given) expected now policy requiredDepth) ↔
          Admits Nothing (bookReasons given expected now policy requiredDepth) :=
        fun now => quiet_bind (made_required rfl)
      simpa only [quiet] using bookReasons_ordConnected given requiredDepth

theorem quietTrades_ordConnected (trades : Option TradesObservation) (activeTradeClaim : Bool) :
    Set.OrdConnected {now : FixedTime | Quiet (evaluateTrades trades expected now.time policy activeTradeClaim)} := by
  cases trades with
  | none => exact Set.ordConnected_def.mpr fun _ isFirst _ _ _ _ => isFirst
  | some given =>
      have quiet : ∀ now, Quiet (evaluateTrades (some given) expected now policy activeTradeClaim) ↔
          Admits NoFailure (tradesReasons given expected now policy activeTradeClaim) :=
        fun now => quiet_bind (made_optional (by decide) rfl)
      simpa only [quiet] using tradesReasons_ordConnected given activeTradeClaim

/-! ### Bars -/

theorem quietOhlc_iff {series : Option OhlcSeries} {requiredBars : ℤ} {now : ZonedTime} :
    Quiet (evaluateOhlc series expected now policy requiredBars) ↔ ∃ given, series = some given ∧
      seriesReasons given expected now policy requiredBars = .ok [] := by
  constructor
  · rintro ⟨item, evaluated, notBlocking⟩
    have nothing := ((evaluateOhlc_judged evaluated).blocks_required (.inl rfl)).mp notBlocking
    cases series with
    | none => cases evaluated; exact absurd nothing (List.cons_ne_nil _ _)
    | some given =>
        obtain ⟨reasons, isReasons, rest⟩ := bind_eq_ok.mp evaluated
        obtain ⟨close, _, same⟩ := bind_eq_ok.mp rest
        cases same
        obtain rfl : reasons = [] := nothing
        exact ⟨given, rfl, isReasons⟩
  · rintro ⟨given, rfl, passed⟩
    obtain ⟨close, _, isClose, _⟩ := coverageReasons_eq_nil.mp (seriesReasons_eq_nil.mp passed).2.2
    exact ⟨_, bind_eq_ok.mpr ⟨[], passed, bind_eq_ok.mpr ⟨close, isClose, rfl⟩⟩,
      (made_required rfl []).mpr within_nil⟩

theorem quietOhlc_ordConnected (series : Option OhlcSeries) (requiredBars : ℤ) :
    Set.OrdConnected {now : FixedTime | Quiet (evaluateOhlc series expected now.time policy requiredBars)} := by
  simp only [quietOhlc_iff]
  refine Set.ordConnected_def.mpr fun first isFirst last isLast middle between => ?_
  obtain ⟨given, rfl, passedFirst⟩ := isFirst
  obtain ⟨_, same, passedLast⟩ := isLast
  cases same
  exact ⟨given, rfl, (seriesReasons_ordConnected given requiredBars).out passedFirst passedLast between⟩

theorem tailFrom_ne_nil {interval : Timedelta} : ∀ {bars tail : List Bar}, bars ≠ [] →
    tailFrom interval bars = .ok tail → tail ≠ []
  | [], _, nonempty, _ => absurd rfl nonempty
  | [bar], _, _, isTail => by
      cases isTail
      exact List.cons_ne_nil _ _
  | bar :: previous :: rest, _, _, isTail => by
      obtain ⟨gap, _, rest⟩ := bind_eq_ok.mp isTail
      split at rest
      · obtain ⟨_, _, same⟩ := bind_eq_ok.mp rest
        cases same
        exact List.cons_ne_nil _ _
      · cases rest
        exact List.cons_ne_nil _ _

/-- Bars that pass with some bars required pass with one. -/
theorem seriesReasons_one {series : OhlcSeries} {requiredBars : ℤ} {now : ZonedTime}
    (passed : seriesReasons series expected now policy requiredBars = .ok []) :
    seriesReasons series expected now policy 1 = .ok [] := by
  obtain ⟨fixed, timed, covered⟩ := seriesReasons_eq_nil.mp passed
  obtain ⟨close, tail, isClose, isTail, _, closed⟩ := coverageReasons_eq_nil.mp covered
  refine seriesReasons_eq_nil.mpr ⟨fixed, timed, coverageReasons_eq_nil.mpr
    ⟨close, tail, isClose, isTail, ?_, closed⟩⟩
  unfold contiguousTail at isTail
  cases isReversed : tailFrom series.interval series.bars.reverse with
  | error => rw [isReversed] at isTail; cases isTail
  | ok reversed =>
      rw [isReversed] at isTail
      cases isTail
      have some := tailFrom_ne_nil (List.reverse_ne_nil_iff.mpr fixed.2.1) isReversed
      have positive := List.length_pos_iff.mpr some
      rw [List.length_reverse]
      omega

/-- Where the bars pass, a range only counts them, and that does not rest on the time. -/
theorem quietAtr_iff {series : OhlcSeries} {requiredBars : ℤ} {now : ZonedTime} {timeframe : AtrTimeframe}
    (passed : seriesReasons series expected now policy requiredBars = .ok []) :
    Quiet (evaluateAtr (some series) expected now timeframe policy) ↔
      ∃ buckets, completeBuckets series.bars series.interval timeframe.span = .ok buckets := by
  have one := seriesReasons_one passed
  obtain ⟨close, _, isClose, _⟩ := coverageReasons_eq_nil.mp (seriesReasons_eq_nil.mp one).2.2
  constructor
  · rintro ⟨item, evaluated, _⟩
    obtain ⟨reasons, isReasons, rest⟩ := bind_eq_ok.mp evaluated
    obtain rfl := Except.ok.inj (one.symm.trans isReasons)
    obtain ⟨_, _, rest⟩ := bind_eq_ok.mp rest
    obtain ⟨buckets, isBuckets, _⟩ := bind_eq_ok.mp rest
    exact ⟨buckets, isBuckets⟩
  · rintro ⟨buckets, isBuckets⟩
    refine ⟨_, bind_eq_ok.mpr ⟨[], one, bind_eq_ok.mpr ⟨close, isClose, bind_eq_ok.mpr
      ⟨buckets, isBuckets, rfl⟩⟩⟩, (made_optional (by decide) rfl _).mpr ?_⟩
    rw [List.nil_append]
    split
    · exact within_singleton.mpr (show NoFailure .insufficientBars by decide)
    · exact within_nil

/-! ### Futures -/

theorem evaluateFutures_returns {futures : Option FuturesObservation} {first other : ZonedTime}
    (returns : ∃ item, evaluateFutures futures expected first policy = .ok item) :
    ∃ item, evaluateFutures futures expected other policy = .ok item := by
  obtain ⟨item, evaluated⟩ := returns
  cases futures with
  | none => exact ⟨item, evaluated⟩
  | some given =>
      obtain ⟨reasons, isReasons, _⟩ := bind_eq_ok.mp evaluated
      obtain ⟨quoted, isQuoted, _⟩ := bind_eq_ok.mp isReasons
      exact ⟨_, bind_eq_ok.mpr ⟨_, bind_eq_ok.mpr ⟨quoted, isQuoted, rfl⟩, rfl⟩⟩

theorem futuresResults_returns {snapshot : MarketSnapshot} {first other : ZonedTime}
    (returns : ∃ futures, futuresResults snapshot first policy = .ok futures) :
    ∃ futures, futuresResults snapshot other policy = .ok futures := by
  obtain ⟨futures, isFutures⟩ := returns
  unfold futuresResults at isFutures ⊢
  split
  · exact ⟨_, rfl⟩
  · rename_i some
    rw [if_neg some] at isFutures
    refine mapM_isOk fun item member => ?_
    obtain ⟨_, _, evaluated⟩ := exists_of_mapM_eq_ok isFutures item member
    exact evaluateFutures_returns ⟨_, evaluated⟩

/-- **No gap.** What is not blocked at two times is not blocked between them. -/
theorem unblocked_ordConnected (snapshot : MarketSnapshot) (policy : IntegrityPolicy) :
    Set.OrdConnected {now : FixedTime | Unblocked snapshot now.time policy} := by
  refine Set.ordConnected_def.mpr fun first isFirst last isLast middle between => ?_
  obtain ⟨clock, ticker, ohlc, atr5m, atr1h, book, trades, futures, metadata⟩ := unblocked_iff.mp isFirst
  obtain ⟨clockLast, tickerLast, ohlcLast, _, _, bookLast, tradesLast, _, _⟩ := unblocked_iff.mp isLast
  have ohlcMiddle := (quietOhlc_ordConnected _ _).out ohlc ohlcLast between
  obtain ⟨series, isSeries, passedFirst⟩ := quietOhlc_iff.mp ohlc
  obtain ⟨_, same, passedMiddle⟩ := quietOhlc_iff.mp ohlcMiddle
  obtain rfl := Option.some.inj (isSeries.symm.trans same)
  refine unblocked_iff.mpr ⟨?_, (quietTicker_ordConnected _).out ticker tickerLast between, ohlcMiddle,
    ?_, ?_, (quietBook_ordConnected _ _).out book bookLast between,
    (quietTrades_ordConnected _ _).out trades tradesLast between, futuresResults_returns futures, metadata⟩
  · rw [← within_nothing]
    exact (clockReasons_ordConnected snapshot.clock).out (within_nothing.mpr clock)
      (within_nothing.mpr clockLast) between
  · rw [isSeries] at atr5m ⊢
    exact (quietAtr_iff passedMiddle).mpr ((quietAtr_iff passedFirst).mp atr5m)
  · unfold claimedAtr1h at atr1h ⊢
    split
    · rename_i claimed
      rw [if_pos claimed] at atr1h
      rw [isSeries] at atr1h ⊢
      exact (quietAtr_iff passedMiddle).mpr ((quietAtr_iff passedFirst).mp atr1h)
    · rename_i notClaimed
      rwa [if_neg notClaimed] at atr1h

end Times

/-! ## Readiness -/

section Readiness

variable [Zones] {snapshot : MarketSnapshot} {now : ZonedTime} {policy : IntegrityPolicy} {report : IntegrityReport}

/-- The report has the result of the clock. -/
theorem report_clock (evaluated : evaluateSnapshot snapshot now policy = .ok report) :
    report.clock = .ok (evaluateClock snapshot.clock now policy) := by
  obtain ⟨spot, futures, metadata, isSpot, isFutures, isMetadata, rfl⟩ :=
    evaluateSnapshot_eq_ok.mp evaluated
  have noClock : ∀ item ∈ spot ++ futures ++ metadata, item.capability ≠ .clock := by
    intro item member isClock
    rcases List.mem_append.mp member with member | isMetadataItem
    · rcases List.mem_append.mp member with isSpotItem | isFuturesItem
      · obtain ⟨ticker, ohlc, atr5m, atr1h, book, trades, rfl, isTicker, isOhlc, isAtr5m, isAtr1h, isBook,
          isTrades⟩ := spotResults_eq_ok.mp isSpot
        have isAtr : atr1h.capability = .atr := by
          unfold claimedAtr1h at isAtr1h
          split at isAtr1h
          · exact (evaluateAtr_judged isAtr1h).1
          · cases isAtr1h
            rfl
        simp only [List.mem_cons, List.not_mem_nil, or_false] at isSpotItem
        rcases isSpotItem with rfl | rfl | rfl | rfl | rfl | rfl
        · exact absurd ((evaluateTicker_judged isTicker).1.symm.trans isClock) nofun
        · exact absurd ((evaluateOhlc_judged isOhlc).1.symm.trans isClock) nofun
        · exact absurd ((evaluateAtr_judged isAtr5m).1.symm.trans isClock) nofun
        · exact absurd (isAtr.symm.trans isClock) nofun
        · exact absurd ((evaluateBook_judged isBook).1.symm.trans isClock) nofun
        · exact absurd ((evaluateTrades_judged isTrades).1.symm.trans isClock) nofun
      · exact absurd ((futuresResults_capability isFutures item isFuturesItem).symm.trans isClock) nofun
    · exact absurd ((metadata_capability isMetadata item isMetadataItem).symm.trans isClock) nofun
  unfold IntegrityReport.clock IntegrityReport.result
  rw [List.find?_append, List.find?_eq_none.mpr, Option.none_or]
  · rfl
  · intro item member isClock
    obtain ⟨given, isGiven, same⟩ := capability_of_trusted member
    exact noClock given isGiven (same.symm.trans (of_decide_eq_true isClock).1)

/-- **Readiness is fail-closed and does not flap.** Where the result of the clock is not a pass,
nothing that rests on freshness passes, the opportunity is blocked and no futures are eligible; what
is not blocked at two times of fixed zones is not blocked between them; and other futures and metadata
do not change whether it is blocked. -/
theorem readiness_is_fail_closed (snapshot : MarketSnapshot) (policy : IntegrityPolicy) :
    (∀ now report, evaluateSnapshot snapshot now policy = .ok report →
      ∃ clock, report.clock = .ok clock ∧ (clock.status ≠ .pass →
        (∀ item ∈ report.results, item.capability.freshnessSensitive → item.status ≠ .pass) ∧
          report.opportunityBlocked = true ∧ report.eligibleFutures = [])) ∧
    (∀ first middle last : ZonedTime, Zones.Fixed first.zone → Zones.Fixed middle.zone →
      Zones.Fixed last.zone → first.le middle → middle.le last → Unblocked snapshot first policy →
        Unblocked snapshot last policy → Unblocked snapshot middle policy) ∧
    ∀ now report other futures metadata, evaluateSnapshot snapshot now policy = .ok report →
      evaluateSnapshot { snapshot with futures, metadata } now policy = .ok other →
        other.opportunityBlocked = report.opportunityBlocked := by
  refine ⟨?_, ?_, ?_⟩
  · intro now report evaluated
    refine ⟨_, report_clock evaluated, fun untrusted => ?_⟩
    obtain ⟨spot, futures, metadata, _, _, _, rfl⟩ := evaluateSnapshot_eq_ok.mp evaluated
    have stale : ∀ item ∈ trusted (evaluateClock snapshot.clock now policy) (spot ++ futures ++ metadata) ++
        [evaluateClock snapshot.clock now policy],
          item.capability.freshnessSensitive → item.status ≠ .pass := by
      intro item member sensitive
      rw [trusted, if_pos untrusted, List.mem_append, List.mem_singleton] at member
      rcases member with fromParts | rfl
      · obtain ⟨given, _, rfl⟩ := List.mem_map.mp fromParts
        exact status_of_untrusted (clockUntrusted_capability _ given ▸ sensitive)
      · exact absurd sensitive nofun
    refine ⟨stale, ?_, ?_⟩
    · rw [IntegrityReport.opportunityBlocked, Bool.not_eq_true', List.isEmpty_eq_false_iff_exists_mem]
      refine ⟨evaluateClock snapshot.clock now policy, List.mem_filter.mpr
        ⟨List.mem_append_right _ (List.mem_singleton_self _), if_pos ⟨.inr rfl, untrusted⟩⟩⟩
    · rw [IntegrityReport.eligibleFutures, List.map_eq_nil_iff, List.filter_eq_nil_iff]
      intro item member eligible
      obtain ⟨isFutures, passed⟩ := of_decide_eq_true eligible
      exact stale item member (by rw [isFutures]; rfl) passed
  · intro first middle last firstFixed middleFixed lastFixed before after isFirst isLast
    rw [ZonedTime.le_iff_of_fixed (.inl firstFixed)] at before
    rw [ZonedTime.le_iff_of_fixed (.inl middleFixed)] at after
    have connected := unblocked_ordConnected snapshot policy
    exact @Set.OrdConnected.out _ _ _ connected ⟨first, firstFixed⟩ isFirst ⟨last, lastFixed⟩ isLast
      ⟨middle, middleFixed⟩ ⟨before, after⟩
  · intro now report other futures metadata evaluated evaluatedOther
    obtain ⟨spot, isSpot, blocking⟩ := blockingResults_eq evaluated
    obtain ⟨spotOther, isSpotOther, blockingOther⟩ := blockingResults_eq evaluatedOther
    have same : spotResults { snapshot with futures, metadata } now policy =
        spotResults snapshot now policy := rfl
    obtain rfl := Except.ok.inj (isSpot.symm.trans (same.symm.trans isSpotOther))
    rw [IntegrityReport.opportunityBlocked, IntegrityReport.opportunityBlocked, blocking, blockingOther]

end Readiness

/-! ## A zone that is set back -/

/-- Two o'clock on the 27th of October 2024, by the wall clock. -/
def setBack : ℤ := 1729994400000000

/-- Zone 1 has summer time until two o'clock of that day, and is set back then to one o'clock. The others have
the offset of UTC. -/
@[reducible] def lisbon : Zones where
  offset zone wall fold :=
    if zone = 1 ∧ wall.micros < setBack ∧ (wall.micros < setBack - Moment.seconds 3600 ∨ fold = false) then
      Moment.seconds 3600
    else 0
  bounded zone wall fold := by split <;> decide
  utc wall fold := if_neg fun isFirst => absurd isFirst.1 (by decide)

/-- A wall clock so many seconds before two o'clock of that day. -/
def beforeTwo (count : Fin 86400) : Moment where
  micros := setBack - Moment.seconds count
  inRange := by
    have few := count.isLt
    unfold setBack Moment.seconds Moment.least Moment.greatest
    omega

/-- What is collected ten seconds before the clocks are set back: by times of the zone, a ticker, a bar of the
five minutes before 1:55 and a book; and a clock that is synchronised. -/
def lisbonSnapshot : MarketSnapshot where
  selected := ⟨"kraken", "BTC/USD", .spot, "BTC", "USD", "BTC"⟩
  ticker := some ⟨⟨"kraken", "BTC/USD", .spot, "BTC", "USD", "BTC"⟩, .decimal (Decimal.ofInt 99),
    .decimal (Decimal.ofInt 100), .decimal (Decimal.ofInt 100), "USD",
    ⟨.aware ⟨beforeTwo 10, 1, false⟩, none⟩, some .online⟩
  ohlc := some ⟨⟨"kraken", "BTC/USD", .spot, "BTC", "USD", "BTC"⟩, oc1Policy.ohlcInterval,
    [⟨.aware ⟨beforeTwo 600, 1, false⟩, .decimal (Decimal.ofInt 99), .decimal (Decimal.ofInt 100),
      .decimal (Decimal.ofInt 99), .decimal (Decimal.ofInt 100), .decimal (Decimal.ofInt 1)⟩],
    "USD", "BTC", ⟨.aware ⟨beforeTwo 10, 1, false⟩, none⟩⟩
  book := some ⟨⟨"kraken", "BTC/USD", .spot, "BTC", "USD", "BTC"⟩,
    [⟨.decimal (Decimal.ofInt 99), .decimal (Decimal.ofInt 1)⟩],
    [⟨.decimal (Decimal.ofInt 100), .decimal (Decimal.ofInt 1)⟩], "USD", "BTC",
    ⟨.aware ⟨beforeTwo 10, 1, false⟩, none⟩⟩
  trades := none
  clock := ⟨some true, some ⟨0, by decide⟩, none, none⟩
  futures := []
  metadata := []
  ohlcRequiredBars := 1
  claimAtr1h := false
  activeTradeClaim := false
  requiredDepth := none

/-- The answer of the report of the snapshot, by the clocks of the zone. -/
def lisbonBlocked (now : ZonedTime) : Option Bool :=
  letI := lisbon
  (evaluateSnapshot lisbonSnapshot now oc1Policy).toOption.map IntegrityReport.opportunityBlocked

theorem unblocked_of_lisbon {now : ZonedTime} (notBlocked : lisbonBlocked now = some false) :
    @Unblocked lisbon lisbonSnapshot now oc1Policy := by
  let _ := lisbon
  unfold lisbonBlocked at notBlocked
  cases evaluated : evaluateSnapshot lisbonSnapshot now oc1Policy with
  | error failure =>
      rw [evaluated] at notBlocked
      cases notBlocked
  | ok report =>
      rw [evaluated] at notBlocked
      exact ⟨report, evaluated, Option.some.inj notBlocked⟩

/-- Data that is stale half an hour after the clocks were set back is fresh again when the wall clock shows
its time a second time. -/
theorem readiness_flaps :
    letI := lisbon
    ∃ first middle last : ZonedTime, first.le middle ∧ middle.le last ∧
      Unblocked lisbonSnapshot first oc1Policy ∧ ¬ Unblocked lisbonSnapshot middle oc1Policy ∧
        Unblocked lisbonSnapshot last oc1Policy := by
  have stale : lisbonBlocked (.utc (beforeTwo 1800)) = some true := by decide +kernel
  refine ⟨.utc (beforeTwo 3605), .utc (beforeTwo 1800), ⟨beforeTwo 5, 1, true⟩, by decide, by decide,
    unblocked_of_lisbon (by decide +kernel), ?_, unblocked_of_lisbon (by decide +kernel)⟩
  rintro ⟨report, evaluated, notBlocked⟩
  unfold lisbonBlocked at stale
  rw [evaluated] at stale
  exact Bool.false_ne_true (notBlocked.symm.trans (Option.some.inj stale))

end CryptoRadar.Integrity
