import CryptoRadar.Trend.Booked
import CryptoRadar.Trend.Extend
import CryptoRadar.Trend.Plan
import CryptoRadar.Trend.Python

/-!
# A candle that is missing for good

A catch-up writes a skip line, or prices a fill through EURUSDT, only when the candle that is
missing will not come any more: the market holds a later candle of its symbol, and so does the
second market, and neither holds the missing one (`Final`). `catchUpDays_final` says this of
every due day as soon as anything at all is appended, so one day that has to wait keeps the
whole catch-up from writing.

The plan looks for missing closes and the second market is asked for opens. The two agree on
every day but the live one, which has an open and no close yet (`openOn_eq_none_of_later`); and
no candle is later than that of the live day.
-/

set_option autoImplicit false

namespace CryptoRadar.Trend

open Checked

/-! ## Candles of a series -/

section Series

variable {F : Type} [PyFloat F]

namespace DailySeries

/-- A day has an open when its key is among those of the opens. -/
theorem mem_openDays {series : DailySeries F} {day : Date} :
    day ∈ series.opens.filterMap Prod.fst ↔ (series.openOn day).isSome := by
  rw [List.mem_filterMap, openOn]
  constructor
  · rintro ⟨⟨key, price⟩, member, rfl⟩
    by_contra absent
    exact Dict.get?_eq_none_iff.mp (by simpa using absent) _ member rfl
  · intro present
    obtain ⟨price, found⟩ := Option.isSome_iff_exists.mp present
    exact ⟨_, Dict.mem_of_get?_eq_some found, rfl⟩

/-- The last day with an open is later than a day when some day with an open is. -/
theorem lastOpenDay_any {series : DailySeries F} {day : Date} :
    (series.lastOpenDay.any fun last => day < last) = true ↔
      ∃ later, day < later ∧ (series.openOn later).isSome := by
  unfold lastOpenDay
  cases isLast : (series.opens.filterMap Prod.fst).max? with
  | none =>
      have nothing := List.max?_eq_none_iff.mp isLast
      simp only [← mem_openDays, nothing]
      simp
  | some last =>
      obtain ⟨member, greatest⟩ := List.max?_eq_some_iff.mp isLast
      simp only [Option.any_some, decide_eq_true_eq]
      constructor
      · intro after
        exact ⟨last, after, mem_openDays.mp member⟩
      · rintro ⟨later, after, isOpen⟩
        exact lt_of_lt_of_le after (greatest later (mem_openDays.mpr isOpen))

/-- A bar of the day is found by its close and by its open. -/
theorem closeOn_eq_none_iff {series : DailySeries F} {day : Date} :
    series.closeOn day = none ↔ ∀ bar ∈ series.closed, utcDay? bar.openTimeMs ≠ some day := by
  unfold closeOn closes
  rw [Dict.get?_ofItems, Option.map_eq_none_iff, List.find?_eq_none]
  simp

theorem openOn_eq_none_iff {series : DailySeries F} {day : Date} :
    series.openOn day = none ↔ (∀ pair ∈ series.live, pair.1 ≠ day) ∧
      ∀ bar ∈ series.closed, utcDay? bar.openTimeMs ≠ some day := by
  rw [openOn_eq, Option.or_eq_none_iff, Option.map_eq_none_iff, Option.map_eq_none_iff,
    List.find?_eq_none, Option.filter_eq_none_iff]
  simp

theorem closeOn_eq_none_of_openOn {series : DailySeries F} {day : Date}
    (absent : series.openOn day = none) : series.closeOn day = none :=
  closeOn_eq_none_iff.mpr (openOn_eq_none_iff.mp absent).2

/-- No candle is later than that of the live day. -/
theorem opened_le_live {series : DailySeries F} {day later : Date} {price : F}
    (live : series.live = some (day, price)) (isOpen : (series.openOn later).isSome) :
    later ≤ day := by
  by_contra after
  have absent : series.openOn later = none := by
    refine openOn_eq_none_iff.mpr ⟨fun pair isLive same => ?_, fun bar member onDay => ?_⟩
    · rw [live] at isLive
      cases isLive
      exact after (le_of_eq same.symm)
    · have before := (lt_dayOpenMs_iff onDay).mp (series.liveLast day price live bar member)
      exact after before.le
  rw [absent] at isOpen
  cases isOpen

/-- A day without a close has no open either when a later candle exists. -/
theorem openOn_eq_none_of_later {series : DailySeries F} {day later : Date}
    (absent : series.closeOn day = none) (after : day < later)
    (isOpen : (series.openOn later).isSome) : series.openOn day = none := by
  refine openOn_eq_none_iff.mpr ⟨fun pair isLive same => ?_, closeOn_eq_none_iff.mp absent⟩
  have last := opened_le_live isLive isOpen
  rw [same] at last
  exact absurd after (not_lt.mpr last)

end DailySeries

end Series

/-! ## Missing candles are absent -/

section Absent

theorem mem_insertGap {gap other : Gap} {found : List Gap} :
    other ∈ insertGap gap found ↔ other = gap ∨ other ∈ found := by
  induction found with
  | nil => simp [insertGap]
  | cons head rest hyp =>
      rw [insertGap]
      split
      · simp
      · split
        next same =>
          subst same
          simp
        next => simp [hyp, or_left_comm]

theorem mem_insertGaps {other : Gap} {found gaps : List Gap} :
    other ∈ insertGaps found gaps ↔ other ∈ found ∨ other ∈ gaps := by
  unfold insertGaps
  induction gaps generalizing found with
  | nil => simp
  | cons gap rest hyp =>
      rw [List.foldl_cons, hyp, mem_insertGap, List.mem_cons]
      grind

theorem mem_foldl_insertGaps {other : Gap} {lists : List (List Gap)} {found : List Gap} :
    other ∈ lists.foldl insertGaps found ↔ other ∈ found ∨ ∃ gaps ∈ lists, other ∈ gaps := by
  induction lists generalizing found with
  | nil => simp
  | cons gaps rest hyp => simp [hyp, mem_insertGaps, or_assoc]

theorem mem_firstOnly {other : Gap} {gaps : List Gap} : other ∈ firstOnly gaps ↔ other ∈ gaps := by
  unfold firstOnly
  induction gaps using List.reverseRecOn with
  | nil => simp
  | append_singleton front gap hyp =>
      rw [List.foldl_append, List.foldl_cons, List.foldl_nil]
      split
      next present => grind
      next absent => simp [hyp]

variable {F : Type} [PyFloat F] {market : Market F} {day : Date}

theorem lacksOpen_eq_ok {symbol : String} {lacks : Bool} :
    lacksOpen market day symbol = .ok lacks ↔
      ∃ series, seriesOf market symbol = .ok series ∧ (series.openOn day).isNone = lacks := by
  unfold lacksOpen
  rw [bind_eq_ok]
  simp [pure, Except.pure]

/-- The candle of the gap is not in the market's series of its symbol. -/
def Absent (market : Market F) (gap : Gap) : Prop :=
  ∃ series, seriesOf market gap.symbol = .ok series ∧ series.closeOn gap.day = none

theorem absent_of_lacksOpen {symbol : String} (lacks : lacksOpen market day symbol = .ok true) :
    Absent market ⟨symbol, day⟩ := by
  obtain ⟨series, isSeries, noOpen⟩ := lacksOpen_eq_ok.mp lacks
  exact ⟨series, isSeries, DailySeries.closeOn_eq_none_of_openOn (by simpa using noOpen)⟩

theorem absent_of_windowGaps {previous : Date} {symbol : String} {gaps : List Gap}
    (isGaps : windowGaps market previous symbol = .ok gaps) : ∀ gap ∈ gaps, Absent market gap := by
  intro gap member
  obtain ⟨series, isSeries, isGaps⟩ := bind_eq_ok.mp isGaps
  obtain ⟨window, _, isGaps⟩ := bind_eq_ok.mp isGaps
  cases isGaps
  obtain ⟨missing, inWindow, rfl⟩ := List.mem_map.mp member
  have noClose := (List.mem_filter.mp inWindow).2
  exact ⟨series, isSeries, by simpa using noClose⟩

omit [PyFloat F] in
/-- No bar opened between two bars that follow one another. -/
theorem not_between {bars : List (Bar F)} {earlier later bar : Bar F}
    (ascending : bars.Pairwise fun earlier later => earlier.openTimeMs < later.openTimeMs)
    (consecutive : (earlier, later) ∈ bars.zip bars.tail) (member : bar ∈ bars) :
    bar.openTimeMs ≤ earlier.openTimeMs ∨ later.openTimeMs ≤ bar.openTimeMs := by
  induction bars with
  | nil => cases member
  | cons first rest hyp =>
      cases rest with
      | nil => cases consecutive
      | cons second rest =>
          obtain ⟨before, ascendingRest⟩ := List.pairwise_cons.mp ascending
          rw [List.tail_cons, List.zip_cons_cons, List.mem_cons] at consecutive
          rcases consecutive with same | inRest
          · cases same
            rcases List.mem_cons.mp member with rfl | inRest
            · exact .inl le_rfl
            · rcases List.mem_cons.mp inRest with rfl | inRest
              · exact .inr le_rfl
              · exact .inr ((List.pairwise_cons.mp ascendingRest).1 bar inRest).le
          · rcases List.mem_cons.mp member with rfl | memberRest
            · exact .inl (before earlier (List.of_mem_zip inRest).1).le
            · exact hyp ascendingRest inRest memberRest

omit [PyFloat F] in
/-- A day that `daysBetween` finds lies strictly between the days of the two bars. -/
theorem daysBetween_inside {pair : Bar F × Bar F} {gaps : List Gap}
    (isGaps : daysBetween pair = .ok gaps) : ∀ gap ∈ gaps, gap.symbol = btcusdt ∧
      ∀ openTimeMs, utcDay? openTimeMs = some gap.day →
        pair.1.openTimeMs < openTimeMs ∧ openTimeMs < pair.2.openTimeMs := by
  intro gap member
  obtain ⟨opened, isOpened, isGaps⟩ := bind_eq_ok.mp isGaps
  obtain ⟨count, inRange, turned⟩ := mem_of_mapM_eq_ok isGaps gap member
  obtain ⟨day, isDay, turned⟩ := bind_eq_ok.mp turned
  cases turned
  refine ⟨rfl, fun openTimeMs onDay => ?_⟩
  have first := Date.plusDays?_eq_some.mp (require_eq_ok.mp isOpened)
  have moved := Date.plusDays?_eq_some.mp (require_eq_ok.mp isDay)
  have number := Date.plusDays?_eq_some.mp onDay
  have bound := List.mem_range.mp inRange
  simp only [msPerDay] at first number bound
  omega

theorem absent_of_signalGaps {gaps : List Gap} (isGaps : signalGaps market day = .ok gaps) :
    ∀ gap ∈ gaps, Absent market gap := by
  intro gap member
  obtain ⟨previous, _, isGaps⟩ := bind_eq_ok.mp isGaps
  obtain ⟨windows, isWindows, isGaps⟩ := bind_eq_ok.mp isGaps
  obtain ⟨series, isSeries, isGaps⟩ := bind_eq_ok.mp isGaps
  obtain ⟨_, _, isGaps⟩ := bind_eq_ok.mp isGaps
  obtain ⟨history, isHistory, isGaps⟩ := bind_eq_ok.mp isGaps
  cases isGaps
  obtain ⟨list, inLists, inList⟩ := (mem_foldl_insertGaps.mp member).resolve_left (by simp)
  rcases List.mem_append.mp inLists with isWindow | isBetween
  · obtain ⟨symbol, _, isList⟩ := mem_of_mapM_eq_ok isWindows list isWindow
    exact absent_of_windowGaps isList gap inList
  · obtain ⟨pair, consecutive, isList⟩ := mem_of_mapM_eq_ok isHistory list isBetween
    obtain ⟨symbol, inside⟩ := daysBetween_inside isList gap inList
    rw [Absent, symbol]
    refine ⟨series, isSeries, DailySeries.closeOn_eq_none_iff.mpr fun bar isBar onDay => ?_⟩
    obtain ⟨after, before⟩ := inside bar.openTimeMs onDay
    -- a bar of that day would stand between the two, among the bars that opened before the day
    have ends : pair.2 ∈ series.closedBefore day := List.mem_of_mem_tail (List.of_mem_zip consecutive).2
    have opened := (List.mem_filter.mp ends).2
    have isBefore : bar ∈ series.closedBefore day := by
      refine List.mem_filter.mpr ⟨isBar, ?_⟩
      simp only [decide_eq_true_eq] at opened ⊢
      exact before.trans opened
    have ascending := series.ascending.sublist (List.filter_sublist (l := series.closed)
      (p := fun bar => decide (bar.openTimeMs < dayOpenMs day)))
    rcases not_between ascending consecutive isBefore with notAfter | notBefore <;> omega

theorem absent_of_eurGaps {asset : Asset} {gaps : List Gap}
    (isGaps : eurGaps market day asset = .ok gaps) : ∀ gap ∈ gaps, Absent market gap := by
  intro gap member
  obtain ⟨noPair, lacksPair, isGaps⟩ := bind_eq_ok.mp isGaps
  cases noPair with
  | false =>
      cases isGaps
      cases member
  | true =>
      obtain ⟨noRate, lacksRate, isGaps⟩ := bind_eq_ok.mp isGaps
      cases noRate with
      | false =>
          cases isGaps
          cases member
      | true =>
          cases isGaps
          simp only [List.mem_cons, List.not_mem_nil, or_false] at member
          rcases member with rfl | rfl
          · exact absent_of_lacksOpen lacksPair
          · exact absent_of_lacksOpen lacksRate

/-- The gaps that block a day are the ones that were found. -/
theorem blocked_eq_some {reason : SkipReason} {gaps : List Gap} {found : DayGap}
    (isBlocked : blocked day reason gaps = some found) :
    found.day = day ∧ found.reason = reason ∧ found.gaps = gaps := by
  unfold blocked at isBlocked
  split at isBlocked
  · cases isBlocked
    exact ⟨rfl, rfl, rfl⟩
  · cases isBlocked

theorem blocked_eq_none {reason : SkipReason} {gaps : List Gap} :
    blocked day reason gaps = none ↔ gaps = [] := by
  unfold blocked
  split <;> simp_all

/-- What `day_gap` returns, by the reason of the gap. -/
inductive GapFound (market : Market F) (day : Date) : Option DayGap → Prop where
  | fill {fill : List String} {found : DayGap}
      (isFill : select (lacksOpen market day) (Asset.all.map Asset.usdtSymbol) = .ok fill)
      (isFound : blocked day .noFillCandle (fill.map fun symbol => ⟨symbol, day⟩) = some found) :
      GapFound market day (some found)
  | signal {signal : List Gap} {found : DayGap}
      (filled : select (lacksOpen market day) (Asset.all.map Asset.usdtSymbol) = .ok [])
      (isSignal : signalGaps market day = .ok signal)
      (isFound : blocked day .noSignalClose signal = some found) : GapFound market day (some found)
  | eur {eur : List (List Gap)} {found : Option DayGap}
      (filled : select (lacksOpen market day) (Asset.all.map Asset.usdtSymbol) = .ok [])
      (isSignal : signalGaps market day = .ok [])
      (isEur : Asset.all.mapM (eurGaps market day) = .ok eur)
      (isFound : blocked day .noEurPrice (firstOnly eur.flatten) = found) : GapFound market day found

theorem gapFound_of_dayGap {found : Option DayGap} (isGap : dayGap market day = .ok found) :
    GapFound market day found := by
  obtain ⟨fill, isFill, isGap⟩ := bind_eq_ok.mp isGap
  cases noFill : blocked day .noFillCandle (fill.map fun symbol => ⟨symbol, day⟩) with
  | some other =>
      rw [noFill] at isGap
      cases isGap
      exact .fill isFill noFill
  | none =>
      rw [noFill] at isGap
      have filled : fill = [] := by simpa using blocked_eq_none.mp noFill
      subst filled
      obtain ⟨signal, isSignal, isGap⟩ := bind_eq_ok.mp isGap
      cases noSignal : blocked day .noSignalClose signal with
      | some other =>
          rw [noSignal] at isGap
          cases isGap
          exact .signal isFill isSignal noSignal
      | none =>
          rw [noSignal] at isGap
          obtain rfl := blocked_eq_none.mp noSignal
          obtain ⟨eur, isEur, isGap⟩ := bind_eq_ok.mp isGap
          cases isGap
          exact .eur isFill isSignal isEur rfl

theorem absent_of_dayGap {found : DayGap} (isGap : dayGap market day = .ok (some found)) :
    ∀ gap ∈ found.gaps, Absent market gap := by
  intro gap member
  cases gapFound_of_dayGap isGap with
  | fill isFill isFound =>
      rw [(blocked_eq_some isFound).2.2] at member
      obtain ⟨symbol, isMissing, rfl⟩ := List.mem_map.mp member
      exact absent_of_lacksOpen ((mem_select isFill symbol).1.mp isMissing).2
  | signal _ isSignal isFound =>
      rw [(blocked_eq_some isFound).2.2] at member
      exact absent_of_signalGaps isSignal gap member
  | eur _ _ isEur isFound =>
      rw [(blocked_eq_some isFound).2.2, mem_firstOnly] at member
      obtain ⟨list, isList, inList⟩ := List.mem_flatten.mp member
      obtain ⟨asset, _, turned⟩ := mem_of_mapM_eq_ok isEur list isList
      exact absent_of_eurGaps turned gap inList

theorem eurFallbacks_lacks {gaps : List Gap} (isGaps : eurFallbacks market day = .ok gaps) {gap : Gap}
    (member : gap ∈ gaps) : lacksOpen market day gap.symbol = .ok true ∧ gap.day = day := by
  obtain ⟨noRate, _, isGaps⟩ := bind_eq_ok.mp isGaps
  cases noRate with
  | true =>
      cases isGaps
      cases member
  | false =>
      obtain ⟨missing, isMissing, isGaps⟩ := bind_eq_ok.mp isGaps
      cases isGaps
      obtain ⟨symbol, inMissing, rfl⟩ := List.mem_map.mp member
      exact ⟨((mem_select isMissing symbol).1.mp inMissing).2, rfl⟩

/-- An EUR pair that is priced through EURUSDT is among the fallbacks of the day. -/
theorem mem_eurFallbacks {gaps : List Gap} (isGaps : eurFallbacks market day = .ok gaps)
    {asset : Asset} (noPair : lacksOpen market day asset.eurSymbol = .ok true)
    (hasRate : lacksOpen market day eurusdt = .ok false) : ⟨asset.eurSymbol, day⟩ ∈ gaps := by
  obtain ⟨noRate, isRate, isGaps⟩ := bind_eq_ok.mp isGaps
  cases hasRate.symm.trans isRate
  obtain ⟨missing, isMissing, isGaps⟩ := bind_eq_ok.mp isGaps
  cases isGaps
  refine List.mem_map.mpr ⟨asset.eurSymbol, ?_, rfl⟩
  refine (mem_select isMissing asset.eurSymbol).1.mpr ⟨?_, noPair⟩
  cases asset <;> simp [Asset.all]

/-- The candles a settled day relies on are absent. -/
theorem Settles.absent {found : Option DayGap} {missing : List Gap}
    (settles : Settles market day found missing) : ∀ gap ∈ missing, Absent market gap := by
  intro gap member
  obtain ⟨isGap, needs⟩ := dayNeeds_eq_ok.mp settles.needs
  cases found with
  | some found =>
      subst needs
      exact absent_of_dayGap isGap gap member
  | none =>
      obtain ⟨lacks, sameDay⟩ := eurFallbacks_lacks needs member
      obtain ⟨symbol, gapDay⟩ := gap
      cases sameDay
      exact absent_of_lacksOpen lacks

end Absent

/-! ## Final gaps -/

section Final

variable {F : Type} [PyFloat F]

/-- The market holds a series of the symbol that has no candle on the day and a later one. -/
structure LacksForGood (market : Market F) (gap : Gap) : Prop where
  lacks : ∃ series, market.get? gap.symbol = some series ∧ series.symbol = gap.symbol ∧
    series.openOn gap.day = none ∧ series.closeOn gap.day = none ∧
    ∃ later, gap.day < later ∧ (series.openOn later).isSome

/-- The candle is missing for good in both markets. -/
structure Final (market second : Market F) (gap : Gap) : Prop where
  first : LacksForGood market gap
  second : LacksForGood second gap

variable {market second : Market F} {gap : Gap}

theorem seriesOf_eq_ok {symbol : String} {series : DailySeries F}
    (isSeries : seriesOf market symbol = .ok series) :
    (market.get? symbol = none ∧ series = DailySeries.empty symbol) ∨
      (market.get? symbol = some series ∧ series.symbol = symbol) := by
  unfold seriesOf at isSeries
  cases found : market.get? symbol with
  | none =>
      rw [found] at isSeries
      cases isSeries
      exact .inl ⟨rfl, rfl⟩
  | some other =>
      rw [found] at isSeries
      simp only at isSeries
      split at isSeries
      next same =>
        cases isSeries
        exact .inr ⟨rfl, same⟩
      next => cases isSeries

theorem hasLater_eq_true (later : hasLater market gap.symbol gap.day = .ok true) :
    ∃ series, seriesOf market gap.symbol = .ok series ∧ market.get? gap.symbol = some series ∧
      series.symbol = gap.symbol ∧ ∃ later, gap.day < later ∧ (series.openOn later).isSome := by
  obtain ⟨series, isSeries, isLater⟩ := bind_eq_ok.mp later
  have exists_ : ∃ later, gap.day < later ∧ (series.openOn later).isSome :=
    DailySeries.lastOpenDay_any.mp (by simpa [pure, Except.pure] using isLater)
  rcases seriesOf_eq_ok isSeries with ⟨_, rfl⟩ | ⟨held, named⟩
  · -- a series without bars has no later candle
    obtain ⟨later, _, isOpen⟩ := exists_
    cases isOpen
  · exact ⟨series, isSeries, held, named, exists_⟩

/-- An absent candle with a later one of its symbol is missing for good. -/
theorem lacksForGood_of_absent (absent : Absent market gap)
    (later : hasLater market gap.symbol gap.day = .ok true) : LacksForGood market gap := by
  obtain ⟨series, isSeries, held, named, day, after, isOpen⟩ := hasLater_eq_true later
  obtain ⟨again, isAgain, noClose⟩ := absent
  cases isSeries.symm.trans isAgain
  exact ⟨series, held, named, DailySeries.openOn_eq_none_of_later noClose after isOpen, noClose, day,
    after, isOpen⟩

/-- A candle whose absence a market does not refuse is missing for good in it. -/
theorem lacksForGood_of_refusal (confirmed : refusal second gap = .ok none) :
    LacksForGood second gap := by
  unfold refusal at confirmed
  cases found : second.get? gap.symbol with
  | none =>
      rw [found] at confirmed
      cases confirmed
  | some series =>
      rw [found] at confirmed
      by_cases named : series.symbol ≠ gap.symbol
      · simp only [if_pos named] at confirmed
        cases confirmed
      · simp only [if_neg named] at confirmed
        obtain ⟨later, isLater, confirmed⟩ := bind_eq_ok.mp confirmed
        cases later with
        | false => cases confirmed
        | true =>
            have noOpen : series.openOn gap.day = none := by
              cases isOpen : series.openOn gap.day with
              | none => rfl
              | some price =>
                  rw [isOpen] at confirmed
                  cases confirmed
            obtain ⟨again, _, held, _, exists_⟩ := hasLater_eq_true isLater
            cases found.symm.trans held
            exact ⟨series, found, not_not.mp named, noOpen,
              DailySeries.closeOn_eq_none_of_openOn noOpen, exists_⟩

end Final

/-! ## Fills through EURUSDT -/

section Fills

/-- The source of a fill that is priced through EURUSDT. -/
def fallbackSource (asset : Asset) : String :=
  asset.usdtSymbol ++ " open / " ++ eurusdt ++ " open"

variable {F : Type} [PyFloat F]

def Record.fillSource (record : Record F) (asset : Asset) : Option (Json F) :=
  match record.get "assets" with
  | some (.object assets) =>
      match Dict.get? assets (pyStr asset.text) with
      | some (.object members) => Record.get members "fill_source"
      | _ => none
  | _ => none

variable {market : Market F} {day : Date} {asset : Asset}

/-- A fill through EURUSDT is that of a EUR book on a day without an open of its pair. -/
theorem fillPrice_fallback {quote : Quote} {price : F}
    (isPrice : fillPrice market asset quote day = .ok (price, fallbackSource asset)) :
    lacksOpen market day asset.eurSymbol = .ok true ∧ lacksOpen market day eurusdt = .ok false := by
  have notUsdt : asset.usdtSymbol ++ " open" ≠ fallbackSource asset := by
    cases asset <;> decide
  have notEur : asset.eurSymbol ++ " open" ≠ fallbackSource asset := by
    cases asset <;> decide
  obtain ⟨usdt, _, isPrice⟩ := bind_eq_ok.mp isPrice
  obtain ⟨usdtOpen, _, isPrice⟩ := bind_eq_ok.mp isPrice
  cases quote with
  | usdt => exact absurd (congrArg Prod.snd (Except.ok.inj isPrice)) notUsdt
  | eur | krakenEur =>
      obtain ⟨eur, isEur, isPrice⟩ := bind_eq_ok.mp isPrice
      cases eurOpen : eur.openOn day with
      | some price =>
          rw [eurOpen] at isPrice
          exact absurd (congrArg Prod.snd (Except.ok.inj isPrice)) notEur
      | none =>
          rw [eurOpen] at isPrice
          obtain ⟨rate, isRate, isPrice⟩ := bind_eq_ok.mp isPrice
          cases rateOpen : rate.openOn day with
          | none =>
              rw [rateOpen] at isPrice
              cases isPrice
          | some fx =>
              exact ⟨lacksOpen_eq_ok.mpr ⟨eur, isEur, by simp [eurOpen]⟩,
                lacksOpen_eq_ok.mpr ⟨rate, isRate, by simp [rateOpen]⟩⟩

theorem get?_dayPrices {prices : Dict (Asset × Quote) (F × String)} {quote : Quote} {priced : F × String}
    (isPrices : dayPrices market day = .ok prices) (found : prices.get? (asset, quote) = some priced) :
    fillPrice market asset quote day = .ok priced := by
  obtain ⟨⟨asset', quote'⟩, _, turned⟩ :=
    mem_of_mapM_eq_ok isPrices _ (Dict.mem_of_get?_eq_some found)
  obtain ⟨price, isPrice, turned⟩ := bind_eq_ok.mp turned
  cases turned
  exact isPrice

/-- The source that a sleeve's entry names is that of a fill price of the day. -/
theorem fillSource_of_sleeveDay {inputs : DayInputs F} {book : Book} {state : BookState F}
    {strategy : Strategy F} {part : Json F × Fill F}
    (stepped : sleeveDay inputs book state asset strategy = .ok part) :
    ∃ members price source, part.1 = .object members ∧
      Record.get members "fill_source" = some (text source) ∧
      inputs.prices.get? (asset, book.quote) = some (price, source) := by
  obtain ⟨⟨price, source⟩, isPrice, stepped⟩ := bind_eq_ok.mp stepped
  obtain ⟨target, _, stepped⟩ := bind_eq_ok.mp stepped
  obtain ⟨sleeve, _, stepped⟩ := bind_eq_ok.mp stepped
  obtain ⟨fill, _, stepped⟩ := bind_eq_ok.mp stepped
  obtain ⟨signal, _, stepped⟩ := bind_eq_ok.mp stepped
  obtain ⟨_, _, stepped⟩ := bind_eq_ok.mp stepped
  cases stepped
  exact ⟨_, price, source, rfl, rfl, require_eq_ok.mp isPrice⟩

/-- The sources in the records of a booked day are those of the day's fill prices. -/
theorem fillPrice_of_fillSource {F : Type} [PyMath F] {market : Market F} {day start : Date}
    {asset : Asset} {states after : Dict String (BookState F)} {ts : PyStr}
    {signals : Option (DaySignals F)} {records : List (Record F)} {record : Record F} {source : String}
    (isBooked : bookDay market day states ts start signals = .ok (records, after))
    (member : record ∈ records) (named : Record.fillSource record asset = some (text source)) :
    ∃ quote price, fillPrice market asset quote day = .ok (price, source) := by
  obtain ⟨inputs, _, _, _, isPrices, news, _, newsLength, booked, lengths⟩ := bookDay_eq_ok isBooked
  obtain ⟨book, _, state, totals, parts, _, totalled, rfl, _⟩ :=
    exists_booked_of_mem booked (lengths.trans newsLength.symm) member
  change (match totals.assets.get? (pyStr asset.text) with
    | some (.object members) => Record.get members "fill_source"
    | _ => none) = _ at named
  cases found : totals.assets.get? (pyStr asset.text) with
  | none =>
      rw [found] at named
      cases named
  | some entry =>
      have inAssets := Dict.mem_of_get?_eq_some found
      rw [totalled.assets] at inAssets
      obtain ⟨⟨⟨other, strategy⟩, part⟩, inSleeves, same⟩ := List.mem_map.mp inAssets
      obtain rfl : other = asset :=
        Asset.text_injective (pyStr_injective (congrArg Prod.fst same))
      obtain rfl : part.1 = entry := congrArg Prod.snd same
      have stepped := List.forall₂_iff_zip.mp totalled.steps |>.2 inSleeves
      obtain ⟨members, price, written, isEntry, isSource, isPrice⟩ := fillSource_of_sleeveDay stepped
      rw [found, isEntry] at named
      have sameSource : written = source := by
        have equal := isSource.symm.trans named
        simp only [text, Option.some.injEq, Json.str.injEq] at equal
        exact pyStr_injective equal
      subst sameSource
      exact ⟨book.quote, price, get?_dayPrices isPrices isPrice⟩

end Fills

/-! ## What a catch-up writes -/

section Written

variable {F : Type} [PyMath F] (codec : LedgerCodec F) (start : Date) (market : Market F)
  (ts : PyStr)

/-- The bytes are the lines of these days, one after the other: for a day with a gap the skip line
of that gap, for any other day the records of its books. -/
inductive Written : Ledger F → List Date → Bytes → Prop where
  | nil (ledger : Ledger F) : Written ledger [] []
  | skip {ledger next : Ledger F} {day : Date} {days : List Date} {data more : Bytes}
      {found : DayGap} (isGap : dayGap market day = .ok (some found))
      (line : encodeSkip codec ledger found ts = .ok data)
      (extended : extendLedger codec start ledger data = .ok next)
      (others : Written next days more) : Written ledger (day :: days) (data ++ more)
  | book {ledger next : Ledger F} {day : Date} {days : List Date} {data more : Bytes}
      {records : List (Record F)} {states : Dict String (BookState F)}
      (noGap : dayGap market day = .ok none)
      (isBooked : bookDay market day ledger.states ts start none = .ok (records, states))
      (lines : encodeDay codec ledger records = .ok data)
      (extended : extendLedger codec start ledger data = .ok next)
      (others : Written next days more) : Written ledger (day :: days) (data ++ more)

variable {codec start market ts}

/-- The plan of a catch-up that goes on is about the days that are due. -/
theorem settles_of_planCatchUp {ledger : Ledger F} {today : Option Date} {base : CatchUpPlan}
    (isBase : planCatchUp ledger market start today = .ok base) (goes : base.waiting = none) :
    daysDue start market ledger today = .ok base.days ∧
      (∀ day ∈ base.days, ∃ found missing, Settles market day found missing ∧
        base.gaps.get? day = found ∧ ∀ gap ∈ missing, gap ∈ base.missing) := by
  obtain ⟨days, isDue, distinct, ⟨rfl, rfl⟩ | planned⟩ := daysDue_of_planCatchUp isBase goes
  · exact ⟨isDue, by simp [CatchUpPlan.ofDays]⟩
  · have settled := forall_settles_of_planDays planned goes
    obtain ⟨result, again, sameDays, _⟩ := planDays_of_settles (.ofDays days) settled
    cases planned.symm.trans again
    have isDays : base.days = days := sameDays
    rw [isDays]
    refine ⟨isDue, fun day member => ?_⟩
    obtain ⟨found, missing, settles⟩ := settled day member
    refine ⟨found, missing, settles, ?_, fun gap inDay => ?_⟩
    · rw [planDays_gaps planned settled, Dict.get?_assignAll, if_pos member, settles.gapOf]
      exact Option.or_none
    · refine (mem_planDays_missing distinct planned settled (fun _ _ => rfl) gap).mpr (.inr ?_)
      exact ⟨day, member, found, missing, settles, inDay⟩

/-- Any number of the prepared chunks are the lines of as many days. -/
theorem written_of_prepare {gaps : Dict Date DayGap} {days : List Date}
    (isGaps : ∀ day ∈ days, dayGap market day = .ok (gaps.get? day)) :
    ∀ {pending : Ledger F} {chunks : List Chunk},
      prepare codec start market ts gaps pending days = .ok chunks → ∀ count,
        Written codec start market ts pending (days.take count)
          ((chunks.take count).flatMap Chunk.data) := by
  induction days with
  | nil =>
      intro pending chunks prepared count
      cases prepared
      simpa using Written.nil pending
  | cons day rest hyp =>
      intro pending chunks prepared count
      rw [prepare] at prepared
      obtain ⟨data, lines, prepared⟩ := bind_eq_ok.mp prepared
      obtain ⟨extended, isExtended, prepared⟩ := bind_eq_ok.mp prepared
      obtain ⟨others, isOthers, prepared⟩ := bind_eq_ok.mp prepared
      cases prepared
      cases count with
      | zero => simpa using Written.nil pending
      | succ count =>
          have later := hyp (fun day member => isGaps day (List.mem_cons_of_mem _ member)) isOthers count
          have isGap := isGaps day List.mem_cons_self
          rw [List.take_succ_cons, List.take_succ_cons, List.flatMap_cons]
          unfold dayLines at lines
          cases found : gaps.get? day with
          | some gap =>
              rw [found] at lines isGap
              exact .skip isGap lines isExtended later
          | none =>
              rw [found] at lines isGap
              obtain ⟨⟨records, states⟩, isBooked, lines⟩ := bind_eq_ok.mp lines
              exact .book isGap isBooked lines isExtended later

/-- The writer's file grows by the bytes of some of the chunks. -/
theorem appendChunks_file (codec : LedgerCodec F) (start : Date) (chunks : List Chunk) :
    ∀ (writer : Writer F), ∃ count,
      (appendChunks (Writer.append codec start) chunks writer).2.file =
        writer.file ++ (chunks.take count).flatMap Chunk.data := by
  induction chunks with
  | nil =>
      intro writer
      exact ⟨0, by simp [appendChunks]⟩
  | cons chunk rest hyp =>
      intro writer
      have step : (∃ failure, Writer.append codec start chunk.data writer = (.error failure, writer)) ∨
          ∃ ledger after, Writer.append codec start chunk.data writer = (.ok ledger, after) ∧
            after.file = writer.file ++ chunk.data := by
        unfold Writer.append
        by_cases stops : writer.left = some 0
        · exact .inl ⟨_, if_pos stops⟩
        rw [if_neg stops]
        cases extendLedger codec start writer.ledger chunk.data with
        | error failure => exact .inl ⟨_, rfl⟩
        | ok extended =>
            by_cases size : writer.file.length = writer.ledger.size
            · exact .inr ⟨extended, _, if_pos size, rfl⟩
            · exact .inl ⟨_, if_neg size⟩
      rcases step with ⟨failure, failed⟩ | ⟨ledger, after, appended, file⟩
      · refine ⟨0, ?_⟩
        rw [appendChunks, failed]
        simp
      · rw [appendChunks, appended]
        by_cases covered : ledger.lastDay = some chunk.day
        · obtain ⟨count, more⟩ := hyp after
          refine ⟨count + 1, ?_⟩
          simp only [if_pos covered]
          rw [more, file, List.take_succ_cons, List.flatMap_cons, List.append_assoc]
        · refine ⟨1, ?_⟩
          simp only [if_neg covered]
          rw [file]
          simp

/-- **A skip or a fill through EURUSDT is written only when the absence is final**: if a catch-up
has appended anything, then every due day is settled for good. Each candle that a gap of it
misses, and the EUR pair of each fill that a booking of it prices through EURUSDT, is absent
from the market and from the second one, and both hold a later candle of its symbol. What was
appended are the lines of the first of these days. -/
theorem catchUpDays_final (codec : LedgerCodec F) (start : Date) (market : Market F) (ts : PyStr)
    (refetch : Option (Dict String Date → Market F)) (today : Option Date) (writer : Writer F) :
    let after := (catchUpDays codec start market ts (Writer.append codec start) refetch writer.ledger
      today writer).2
    after.file ≠ writer.file →
      ∃ days since, daysDue start market writer.ledger today = .ok days ∧
        (∀ day ∈ days,
          (∀ found, dayGap market day = .ok (some found) → ∀ gap ∈ found.gaps,
            ∃ ask ∈ refetch, Final market (ask since) gap) ∧
          (dayGap market day = .ok none → ∀ states records news,
            bookDay market day states ts start none = .ok (records, news) → ∀ record ∈ records,
            ∀ asset, Record.fillSource record asset = some (text (fallbackSource asset)) →
            ∃ ask ∈ refetch, Final market (ask since) ⟨asset.eurSymbol, day⟩)) ∧
        ∃ count appended, after.file = writer.file ++ appended ∧
          Written codec start market ts writer.ledger (days.take count) appended := by
  intro after changed
  rcases catchUpDays_outcome codec start market ts refetch writer.ledger today
    (Writer.append codec start) writer with ⟨failure, failed, _⟩ | ⟨plan, chunks, isReady⟩
  · exact absurd (congrArg (fun outcome => outcome.2.file) failed) changed
  obtain ⟨same, _⟩ := catchUpDays_prepared isReady (Writer.append codec start) writer
  obtain ⟨base, isBase, goes, sameDays, sameGaps, confirmed⟩ :=
    of_confirmedPlan isReady.isPlan isReady.checked
  obtain ⟨isDue, settled⟩ := settles_of_planCatchUp isBase goes
  -- what a day relies on is absent here and confirmed there
  have final : ∀ day ∈ base.days, ∀ found missing, Settles market day found missing →
      ∀ gap ∈ missing, ∃ ask ∈ refetch, Final market (ask base.toConfirm) gap := by
    intro day member found missing settles gap inDay
    obtain ⟨other, more, again, _, relied⟩ := settled day member
    obtain ⟨rfl, rfl⟩ := again.unique settles
    obtain ⟨ask, isAsk, refused⟩ := confirmed gap (relied gap inDay)
    refine ⟨ask, isAsk, ?_, lacksForGood_of_refusal refused⟩
    exact lacksForGood_of_absent (settles.absent gap inDay)
      (firstUnsettled_eq_none.mp settles.later gap inDay)
  refine ⟨base.days, base.toConfirm, isDue, fun day member => ⟨?_, ?_⟩, ?_⟩
  · intro found isGap gap inGap
    obtain ⟨other, missing, settles, _⟩ := settled day member
    obtain ⟨isGapAgain, needs⟩ := dayNeeds_eq_ok.mp settles.needs
    cases isGap.symm.trans isGapAgain
    subst needs
    exact final day member _ _ settles gap inGap
  · intro noGap states records news isBooked record inRecords asset source
    obtain ⟨other, missing, settles, _⟩ := settled day member
    obtain ⟨isGapAgain, needs⟩ := dayNeeds_eq_ok.mp settles.needs
    cases noGap.symm.trans isGapAgain
    obtain ⟨quote, price, isPrice⟩ := fillPrice_of_fillSource isBooked inRecords source
    obtain ⟨noPair, hasRate⟩ := fillPrice_fallback isPrice
    exact final day member _ _ settles _ (mem_eurFallbacks needs noPair hasRate)
  · have isGaps : ∀ day ∈ plan.days, dayGap market day = .ok (plan.gaps.get? day) := by
      intro day member
      obtain ⟨found, missing, settles, isFound, _⟩ := settled day (sameDays ▸ member)
      rw [← sameGaps, isFound]
      exact (dayNeeds_eq_ok.mp settles.needs).1
    obtain ⟨count, file⟩ := appendChunks_file codec start chunks writer
    refine ⟨count, _, ?_, sameDays ▸ written_of_prepare isGaps isReady.prepared count⟩
    rw [← file, ← same]

end Written

/-! ## A skipped day -/

/-- A gap of which something was read. -/
theorem exists_dayGap {Read : Type} {F : Type} [PyFloat F] {market : Market F} {day : Date}
    (read : DayGap → Read) {value : Read}
    (check : ((dayGap market day).toOption.bind id).map read = some value) :
    ∃ found, dayGap market day = .ok (some found) ∧ read found = value := by
  obtain ⟨found, isGap, isValue⟩ := Option.map_eq_some_iff.mp check
  obtain ⟨_, isFound, rfl⟩ := Option.bind_eq_some_iff.mp isGap
  refine ⟨found, ?_, isValue⟩
  cases result : dayGap market day with
  | error failure =>
      rw [result] at isFound
      cases isFound
  | ok other =>
      rw [result] at isFound
      cases isFound
      rfl

/-- Without a BTCUSDT candle on the first paper day. -/
def gapMarket : Market Double :=
  [("BTCUSDT", openSeries "BTCUSDT" dayAfterStart 64000.0 priced_64000),
    ("ETHUSDT", flatSeries "ETHUSDT" [paperStart] none 2500.0 (by decide) (by simp)
      priced_2500)]

/-- A catch-up of the first paper day writes to the ledger. -/
theorem gapMarket_written : (catchUpDays python.codec paperStart gapMarket (pyStr "t")
    (Writer.append python.codec paperStart) (some fun _ => gapMarket) .empty (some paperStart)
    ⟨[], .empty, none⟩).2.file ≠ [] := by
  decide +kernel

theorem gapMarket_due :
    daysDue paperStart gapMarket (Ledger.empty : Ledger Double) (some paperStart) = .ok [paperStart] ∧
    ((dayGap gapMarket paperStart).toOption.bind id).map DayGap.gaps = some [⟨"BTCUSDT", paperStart⟩] := by
  decide +kernel

/-- The first paper day is skipped once both markets lack its BTCUSDT candle for good. -/
theorem catchUpDays_final_first :
    (catchUpDays python.codec paperStart gapMarket (pyStr "t") (Writer.append python.codec paperStart)
      (some fun _ => gapMarket) .empty (some paperStart) ⟨[], .empty, none⟩).2.file ≠ [] ∧
      Final gapMarket gapMarket ⟨"BTCUSDT", paperStart⟩ := by
  have changed : (catchUpDays python.codec paperStart gapMarket (pyStr "t")
      (Writer.append python.codec paperStart) (some fun _ => gapMarket) .empty (some paperStart)
      ⟨[], .empty, none⟩).2.file ≠ [] := gapMarket_written
  obtain ⟨days, since, due, settled, _⟩ := catchUpDays_final python.codec paperStart gapMarket
    (pyStr "t") (some fun _ => gapMarket) (some paperStart) ⟨[], .empty, none⟩ changed
  have isDue : daysDue paperStart gapMarket (Ledger.empty : Ledger Double) (some paperStart) =
      .ok [paperStart] := gapMarket_due.1
  cases isDue.symm.trans due
  obtain ⟨found, isGap, isMissing⟩ : ∃ found, dayGap gapMarket paperStart = .ok (some found) ∧
      found.gaps = [⟨"BTCUSDT", paperStart⟩] := exists_dayGap DayGap.gaps gapMarket_due.2
  have member : (⟨"BTCUSDT", paperStart⟩ : Gap) ∈ found.gaps := by rw [isMissing]; simp
  obtain ⟨ask, isAsk, final⟩ := (settled paperStart (by simp)).1 found isGap _ member
  cases isAsk
  exact ⟨changed, final⟩

end CryptoRadar.Trend
