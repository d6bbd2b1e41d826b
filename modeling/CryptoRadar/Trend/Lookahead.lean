import CryptoRadar.Lib.Alike
import CryptoRadar.Trend.Extend
import CryptoRadar.Trend.Python

/-!
# No lookahead in the paper books

What booking a day reads of the market. Two markets agree before a day when they hold the
same BTCUSDT and ETHUSDT bars that opened before the day's open, and the same open of the day
for each of the five symbols (`AgreeBefore`). Booking the day on either gives the same
records and states, or fails with the same code (`bookDay_no_lookahead`): the signals depend
on the earlier bars only (`ensSignal_alike`, `trend5Signal_alike`) and the fills on the opens
of the day only (`fillPrice_alike`).
-/

set_option autoImplicit false

namespace CryptoRadar.Trend

open Checked

variable {F : Type} [PyMath F]

/-- What a failure is compared by: the code of a `PaperError`, and every other error whole. -/
def PaperFailure.code : PaperFailure → PaperErrorCode ⊕ PaperFailure
  | .paper code _ => .inl code
  | failure => .inr failure

/-- The five symbols of the market. -/
def allSymbols : List String := ["BTCUSDT", "ETHUSDT", "BTCEUR", "ETHEUR", eurusdt]

/-- The markets hold the same USDT bars that opened before the day's open, and the same opens
of the day. A series is read as `seriesOf` reads it: an entry that holds another symbol is
refused in both markets or in neither. -/
structure AgreeBefore (first second : Market F) (day : Date) : Prop where
  bars : ∀ asset : Asset,
    Alike PaperFailure.code (fun left right => left.closedBefore day = right.closedBefore day)
      (seriesOf first asset.usdtSymbol) (seriesOf second asset.usdtSymbol)
  opens : ∀ symbol ∈ allSymbols,
    Alike PaperFailure.code (fun left right => left.openOn day = right.openOn day)
      (seriesOf first symbol) (seriesOf second symbol)

variable {first second : Market F} {day : Date}

/-! ## Signals -/

/-- Series with the same bars before a day have the same closes before it. -/
theorem closeFor_eq {left right : DailySeries F}
    (same : left.closedBefore day = right.closedBefore day) (symbol : String) {earlier : Date}
    (before : earlier < day) : closeFor left symbol day earlier = closeFor right symbol day earlier := by
  unfold closeFor
  rw [left.closeOn_eq before, right.closeOn_eq before, same]

theorem plusDays_eq_ok {later : Date} {count : ℤ} (moved : plusDays day count = .ok later) :
    (later.ordinal : ℤ) = day.ordinal + count :=
  Date.plusDays?_eq_some.mp (require_eq_ok.mp moved)

/-- The window of a day's signal lies before the day. -/
theorem windowDays_before {previous : Date} {window : List Date}
    (isPrevious : plusDays day (-1) = .ok previous) (isWindow : windowDays previous = .ok window) :
    ∀ earlier ∈ window, earlier < day := by
  intro earlier member
  obtain ⟨back, _, moved⟩ := mem_of_mapM_eq_ok isWindow earlier member
  have first := plusDays_eq_ok isPrevious
  have second := plusDays_eq_ok moved
  rw [Date.lt_iff]
  omega

theorem ensSignal_alike (agree : AgreeBefore first second day) (asset : Asset) :
    Alike PaperFailure.code Eq (ensSignal first asset day) (ensSignal second asset day) := by
  unfold ensSignal
  refine (agree.bars asset).bind fun left right sameBars => ?_
  refine Alike.bind_self fun previous isPrevious => ?_
  refine Alike.bind_self fun window isWindow => ?_
  have sameCloses : ∀ earlier ∈ window,
      Alike PaperFailure.code Eq (closeFor left asset.usdtSymbol day earlier)
        (closeFor right asset.usdtSymbol day earlier) := fun earlier member =>
    Alike.of_eq (closeFor_eq sameBars _ (windowDays_before isPrevious isWindow earlier member))
  exact (Alike.mapM sameCloses).bind_eq fun closes => Alike.refl _

theorem trend5Signal_alike (agree : AgreeBefore first second day) :
    Alike PaperFailure.code Eq (trend5Signal first day) (trend5Signal second day) := by
  unfold trend5Signal
  refine (agree.bars .btc).bind fun left right sameBars => ?_
  refine Alike.bind_self fun previous isPrevious => ?_
  have before : previous < day := by
    have moved := plusDays_eq_ok isPrevious
    rw [Date.lt_iff]
    omega
  rw [closeFor_eq sameBars btcusdt before, sameBars]
  exact Alike.refl _

theorem daySignals_alike (agree : AgreeBefore first second day) :
    Alike PaperFailure.code Eq (daySignals first day) (daySignals second day) := by
  unfold daySignals
  refine Alike.bind_eq (Alike.mapM fun asset _ => ?_) fun ens => ?_
  · exact (ensSignal_alike agree asset).bind_eq fun signal => Alike.refl _
  · exact (trend5Signal_alike agree).bind_eq fun trend5 => Alike.refl _

/-! ## Fills -/

theorem usdtSymbol_mem (asset : Asset) : asset.usdtSymbol ∈ allSymbols := by
  cases asset <;> decide

theorem eurSymbol_mem (asset : Asset) : asset.eurSymbol ∈ allSymbols := by
  cases asset <;> decide

/-- The markets hold the same opens of the day. -/
def AgreeOpens (first second : Market F) (day : Date) : Prop :=
  ∀ symbol ∈ allSymbols, Alike PaperFailure.code (fun left right => left.openOn day = right.openOn day)
    (seriesOf first symbol) (seriesOf second symbol)

theorem fillPrice_alike (agree : AgreeOpens first second day) (asset : Asset) (quote : Quote) :
    Alike PaperFailure.code Eq (fillPrice first asset quote day)
      (fillPrice second asset quote day) := by
  unfold fillPrice
  refine (agree _ (usdtSymbol_mem asset)).bind fun usdt otherUsdt sameUsdt => ?_
  rw [sameUsdt]
  refine Alike.bind_self fun usdtOpen _ => ?_
  cases quote with
  | usdt => exact Alike.refl _
  | eur | krakenEur =>
      refine (agree _ (eurSymbol_mem asset)).bind fun eur otherEur sameEur => ?_
      rw [sameEur]
      cases otherEur.openOn day with
      | some eurOpen => exact Alike.refl _
      | none =>
          refine (agree eurusdt (by decide)).bind fun rate otherRate sameRate => ?_
          rw [sameRate]
          exact Alike.refl _

theorem dayPrices_alike (agree : AgreeOpens first second day) :
    Alike PaperFailure.code Eq (dayPrices first day) (dayPrices second day) := by
  unfold dayPrices
  refine Alike.mapM fun pair _ => ?_
  exact (fillPrice_alike agree pair.1 pair.2).bind_eq fun price => Alike.refl _

/-! ## The day -/

/-- With given signals the opens decide. -/
theorem bookDay_alike (first second : Market F) (day start : Date) (states : Dict String (BookState F))
    (ts : PyStr) (signals : DaySignals F) (agree : AgreeOpens first second day) :
    Alike PaperFailure.code Eq (bookDay first day states ts start (some signals))
      (bookDay second day states ts start (some signals)) := by
  unfold bookDay
  refine Alike.bind_self fun _ _ => Alike.bind_self fun signals _ => ?_
  exact (dayPrices_alike agree).bind_eq fun prices => Alike.refl _

/-- **No lookahead**: markets that agree before a day book it alike. -/
theorem bookDay_no_lookahead (first second : Market F) (day start : Date)
    (states : Dict String (BookState F)) (ts : PyStr) (agree : AgreeBefore first second day) :
    Alike PaperFailure.code Eq (bookDay first day states ts start none)
      (bookDay second day states ts start none) := by
  unfold bookDay
  refine Alike.bind_self fun _ _ => ?_
  refine (daySignals_alike agree).bind_eq fun signals => ?_
  refine (dayPrices_alike agree.opens).bind_eq fun prices => ?_
  exact Alike.refl _

/-! ## Two markets that differ from the open of a day on -/

/-- The price of a day: 60000, and from the eve of the first paper day on 66000. -/
def rise (day : Date) : Double := if day.ordinal < 739892 then 60000.0 else 66000.0

/-- The candle of a day that opens and closes at the price of the day. -/
def riseBar (day : Date) : Bar Double := ⟨dayOpenMs day, rise day, rise day, rise day, rise day⟩

/-- The days whose closes decide the signals of the first paper day. -/
def signalDays : List Date :=
  (List.finRange 201).map fun count : Fin 201 => ⟨739692 + count, by omega, by omega⟩

theorem signalDays_before : ∀ day ∈ signalDays, day < paperStart := by
  intro day member
  obtain ⟨count, -, rfl⟩ := List.mem_map.mp member
  have small := count.isLt
  change 739692 + (count : ℕ) < 739893
  omega

theorem signalDays_ascending : Ascending (signalDays.map riseBar) := by
  refine List.pairwise_map.mpr (List.pairwise_map.mpr ((List.pairwise_lt_finRange 201).imp ?_))
  intro earlier later before
  refine dayOpenMs_lt ?_
  change 739692 + (earlier : ℕ) < 739692 + (later : ℕ)
  have := Fin.lt_def.mp before
  omega

theorem signalDays_dated : ∀ bar ∈ signalDays.map riseBar, (utcDay? bar.openTimeMs).isSome := by
  intro bar member
  obtain ⟨day, -, rfl⟩ := List.mem_map.mp member
  simp [riseBar, utcDay?_dayOpenMs]

theorem rise_priced : PyFloat.isFinite (rise paperStart) = true ∧ PyFloat.lt 0.0 (rise paperStart) = true := by
  decide +kernel

/-- The candles before the first paper day, with the open of the day. -/
def morningSeries (symbol : String) : DailySeries Double where
  symbol := symbol
  closed := signalDays.map riseBar
  live := some (paperStart, rise paperStart)
  ascending := signalDays_ascending
  livePriced := by
    intro day price isLive
    cases isLive
    exact rise_priced
  liveLast := by
    intro day price isLive bar member
    cases isLive
    obtain ⟨earlier, inDays, rfl⟩ := List.mem_map.mp member
    exact dayOpenMs_lt (signalDays_before earlier inDays)
  dated := signalDays_dated

def market (series : String → DailySeries Double) : Market Double :=
  ["BTCUSDT", "ETHUSDT", "BTCEUR", "ETHEUR"].map fun symbol => (symbol, series symbol)

/-- The candle of the first paper day, seen after it. -/
def eveningBar : Bar Double := ⟨dayOpenMs paperStart, rise paperStart, 90000.0, 50000.0, 52000.0⟩

/-- The same candles once the first paper day is over. -/
def eveningSeries (symbol : String) : DailySeries Double where
  symbol := symbol
  closed := signalDays.map riseBar ++ [eveningBar]
  live := none
  ascending := by
    refine List.pairwise_append.mpr ⟨signalDays_ascending, List.pairwise_singleton _ _, ?_⟩
    intro bar member last isLast
    obtain ⟨earlier, inDays, rfl⟩ := List.mem_map.mp member
    rw [List.mem_singleton.mp isLast]
    exact dayOpenMs_lt (signalDays_before earlier inDays)
  livePriced := by simp
  liveLast := by simp
  dated := by
    refine List.forall_mem_append.mpr ⟨signalDays_dated, List.forall_mem_singleton.mpr ?_⟩
    simp [eveningBar, utcDay?_dayOpenMs]

theorem morningSeries_closedBefore (symbol : String) :
    (morningSeries symbol).closedBefore paperStart = signalDays.map riseBar := by
  refine List.filter_eq_self.mpr fun bar member => ?_
  obtain ⟨earlier, inDays, rfl⟩ := List.mem_map.mp member
  exact decide_eq_true (dayOpenMs_lt (signalDays_before earlier inDays))

theorem eveningSeries_closedBefore (symbol : String) :
    (eveningSeries symbol).closedBefore paperStart = signalDays.map riseBar := by
  have last : [eveningBar].filter (fun bar => bar.openTimeMs < dayOpenMs paperStart) = [] := by
    simp [eveningBar]
  have before := morningSeries_closedBefore symbol
  unfold DailySeries.closedBefore at before ⊢
  rw [eveningSeries, List.filter_append, last, List.append_nil]
  exact before

theorem morningSeries_openOn (symbol : String) :
    (morningSeries symbol).openOn paperStart = (eveningSeries symbol).openOn paperStart := by
  rw [DailySeries.openOn_eq, DailySeries.openOn_eq]
  simp [morningSeries, eveningSeries, eveningBar, utcDay?_dayOpenMs]

/-- What a market of series holds. -/
theorem seriesOf_market {series : String → DailySeries Double}
    (named : ∀ symbol, (series symbol).symbol = symbol) {symbol : String}
    (member : symbol ∈ ["BTCUSDT", "ETHUSDT", "BTCEUR", "ETHEUR"]) :
    seriesOf (market series) symbol = .ok (series symbol) := by
  simp only [List.mem_cons, List.not_mem_nil, or_false] at member
  rcases member with rfl | rfl | rfl | rfl
  all_goals exact if_pos (named _)

/-- Markets of series with the same opens. -/
theorem market_opens {first second : String → DailySeries Double}
    (firstNamed : ∀ symbol, (first symbol).symbol = symbol)
    (secondNamed : ∀ symbol, (second symbol).symbol = symbol)
    (same : ∀ symbol, (first symbol).openOn paperStart = (second symbol).openOn paperStart) :
    AgreeOpens (market first) (market second) paperStart := by
  intro symbol member
  rcases List.mem_append.mp (show symbol ∈ ["BTCUSDT", "ETHUSDT", "BTCEUR", "ETHEUR"] ++ [eurusdt] from
    member) with held | rate
  · rw [seriesOf_market firstNamed held, seriesOf_market secondNamed held]
    exact .ok (same symbol)
  · rw [List.mem_singleton.mp rate]
    exact .ok rfl

theorem morning_agrees_evening :
    AgreeBefore (market morningSeries) (market eveningSeries) paperStart where
  bars asset := by
    cases asset with
    | btc => exact .ok ((morningSeries_closedBefore _).trans (eveningSeries_closedBefore _).symm)
    | eth => exact .ok ((morningSeries_closedBefore _).trans (eveningSeries_closedBefore _).symm)
  opens := market_opens (fun _ => rfl) (fun _ => rfl) morningSeries_openOn

/-! ### The signals of the morning -/

theorem closeFor_morning (symbol : String) {earlier : Date} (member : earlier ∈ signalDays) :
    closeFor (morningSeries symbol) symbol paperStart earlier = .ok (rise earlier) := by
  refine require_eq_ok.mpr ?_
  rw [DailySeries.closeOn_eq _ (signalDays_before earlier member), morningSeries_closedBefore,
    ← List.map_reverse, List.find?_map]
  have found : signalDays.reverse.find? ((fun bar => decide (utcDay? bar.openTimeMs = some earlier)) ∘
      riseBar) = some earlier := by
    cases isFound : signalDays.reverse.find? _ with
    | none =>
        have missing := List.find?_eq_none.mp isFound earlier (List.mem_reverse.mpr member)
        simp [riseBar, utcDay?_dayOpenMs] at missing
    | some day =>
        have same := List.find?_some isFound
        simp only [Function.comp_apply, riseBar, utcDay?_dayOpenMs, decide_eq_true_eq] at same
        exact same
  rw [found]
  rfl

/-- The closes of the morning: 200 alike, and the last one above them. -/
def riseCloses : List Double := List.replicate 200 60000.0 ++ [66000.0]

/-- The bars of the morning, as a history cut off at the first paper day. -/
def morningHistory : History Double :=
  let bars := signalDays.map riseBar
  let times := bars.map Bar.openTimeMs ++ [dayOpenMs paperStart]
  ⟨⟨[(btcusdt, bars)], [btcusdt], times, signalDays ++ [paperStart],
    [(btcusdt, bars.map Bar.openTimeMs)], [(btcusdt, Panel.opensAt bars times)]⟩,
    paperStart, dayOpenMs paperStart⟩

/-- The days of the morning's signals, and what is seen of them: all before the day, and equal closes before
the Monday of its week. -/
theorem signalDays_window : windowDays eveOfStart = .ok signalDays ∧ eveOfStart ∈ signalDays ∧
    signalDays.map rise = riseCloses ∧ morningHistory.nbars btcusdt = .ok 201 ∧
    ((signalDays.map riseBar).filter fun bar => bar.openTimeMs < 1790553600000).map Bar.close =
      List.replicate (194 + 1) 60000.0 := by
  decide +kernel

/-- The share of five votes, the volatility of the closes, and the return of two equal closes. -/
theorem rise_numbers : voteShare (List.replicate 5 true) = .ok (1.0 : Double) ∧
    realizedVol riseCloses ensVolDays = .ok 0.332449048057566 ∧
    logReturns [60000.0, 60000.0] = .ok [(0.0 : Double)] := by
  decide +kernel

theorem riseCloses_last : riseCloses.getLast? = some (rise eveOfStart) := by
  rw [riseCloses, List.getLast?_concat]
  rfl

/-! Averages: the sums of equal closes go on from one another. -/

def flatTotal (count : ℕ) : Float × Float :=
  (List.replicate count (60000.0 : Float)).foldl Float.addCompensated (0.0, 0.0)

theorem flatTotal_add (first second : ℕ) : flatTotal (first + second) =
    (List.replicate second (60000.0 : Float)).foldl Float.addCompensated (flatTotal first) := by
  rw [flatTotal, List.replicate_add, List.foldl_append]
  rfl

/-- The end of a compensated sum. -/
def compensatedTotal (state : Float × Float) : Float :=
  if state.2 != 0.0 && state.2.isFinite then state.1 + state.2 else state.1

theorem sum_flat_top (count : ℕ) : PyFloat.sum (List.replicate count (60000.0 : Double) ++ [66000.0]) =
    ⟨compensatedTotal (Float.addCompensated (flatTotal count) 66000.0)⟩ := by
  change Double.mk (compensatedTotal ((List.map Double.value (List.replicate count (60000.0 : Double) ++
    [66000.0])).foldl Float.addCompensated (0.0, 0.0))) = _
  rw [List.map_append, List.map_replicate, List.foldl_append]
  rfl

theorem riseCloses_length : riseCloses.length = 201 := by
  rw [riseCloses, List.length_append, List.length_replicate, List.length_singleton]

theorem riseCloses_lastN {count : ℕ} (few : count ≤ 200) :
    riseCloses.lastN (count + 1) = List.replicate count 60000.0 ++ [66000.0] := by
  have skipped : 201 - (count + 1) = 200 - count := by omega
  have kept : 200 - (200 - count) = count := by omega
  have within : 200 - count ≤ (List.replicate 200 (60000.0 : Double)).length := by
    rw [List.length_replicate]
    omega
  rw [List.lastN, riseCloses_length, skipped, riseCloses, List.drop_append_of_le_length within,
    List.drop_replicate, kept]

theorem aboveSma_rise {count : ℕ} {total : Float × Float} (few : count ≤ 200)
    (isTotal : flatTotal count = total) :
    aboveSma riseCloses (rise eveOfStart) (count + 1) = (do
      let mean ← number (PyFloat.divide (⟨compensatedTotal (Float.addCompensated total 66000.0)⟩ : Double)
        (PyFloat.ofCount (count + 1)))
      return PyFloat.lt mean (rise eveOfStart)) := by
  rw [aboveSma, riseCloses_lastN few, sum_flat_top, isTotal]

/-- The last close is above each average. -/
theorem rise_aboveSma : ∀ count ∈ ensLookbacks, aboveSma riseCloses (rise eveOfStart) count = .ok true := by
  have first : flatTotal 19 = (1140000.0, 0.0) := by decide +kernel
  have second : flatTotal 49 = (2940000.0, 0.0) := by
    rw [flatTotal_add 19 30, first]
    decide +kernel
  have third : flatTotal 99 = (5940000.0, 0.0) := by
    rw [flatTotal_add 49 50, second]
    decide +kernel
  have fourth : flatTotal 149 = (8940000.0, 0.0) := by
    rw [flatTotal_add 99 50, third]
    decide +kernel
  have fifth : flatTotal 199 = (11940000.0, 0.0) := by
    rw [flatTotal_add 149 50, fourth]
    decide +kernel
  intro count member
  simp only [ensLookbacks, List.mem_cons, List.not_mem_nil, or_false] at member
  rcases member with rfl | rfl | rfl | rfl | rfl
  · exact (aboveSma_rise (by decide) first).trans (by decide +kernel)
  · exact (aboveSma_rise (by decide) second).trans (by decide +kernel)
  · exact (aboveSma_rise (by decide) third).trans (by decide +kernel)
  · exact (aboveSma_rise (by decide) fourth).trans (by decide +kernel)
  · exact (aboveSma_rise (by decide) fifth).trans (by decide +kernel)

theorem maximum_replicate (count : ℕ) :
    PyFloat.maximum (List.replicate (count + 1) (60000.0 : Double)) = .ok 60000.0 := by
  have same : PyFloat.larger (60000.0 : Double) 60000.0 = 60000.0 := rfl
  refine congrArg Except.ok ?_
  induction count with
  | zero => rfl
  | succ count hyp =>
      change (List.replicate count (60000.0 : Double)).foldl PyFloat.larger
        (PyFloat.larger 60000.0 60000.0) = 60000.0
      rw [same]
      exact hyp

/-- On the last day the scan of a channel ends: the close is above those before it. -/
theorem donchianLong_rise {entry exit : ℕ} (positive : 0 < entry) (few : entry ≤ 200) (fewer : exit ≤ entry) :
    donchianLong riseCloses entry exit = .ok true := by
  have above : PyFloat.lt (60000.0 : Double) 66000.0 = true := rfl
  have day : entry + (200 - entry) = 200 := by omega
  have turns : 201 - entry = 200 - entry + 1 := by omega
  have kept : 200 - (200 - entry) = entry - 1 + 1 := by omega
  have before : (riseCloses.take 200).drop (200 - entry) = List.replicate (entry - 1 + 1) 60000.0 := by
    rw [riseCloses, List.take_left' List.length_replicate, List.drop_replicate, kept]
  have close : riseCloses[200]? = some (66000.0 : Double) := by
    rw [riseCloses, List.getElem?_append_right (by rw [List.length_replicate]), List.length_replicate]
    rfl
  rw [donchianLong, riseCloses_length, max_eq_left fewer, turns, donchianScan, day, before]
  refine bind_eq_ok.mpr ⟨66000.0, require_eq_ok.mpr close, bind_eq_ok.mpr ⟨60000.0, ?_, ?_⟩⟩
  · exact congrArg number (maximum_replicate (entry - 1))
  · rw [if_pos above]
    rfl

/-- The last close is the highest so far. -/
theorem rise_donchianLong : ∀ channel ∈ trend5Donchian,
    donchianLong riseCloses channel.1 channel.2 = .ok true := by
  intro channel member
  simp only [trend5Donchian, List.mem_cons, List.not_mem_nil, or_false] at member
  rcases member with rfl | rfl | rfl
  · exact donchianLong_rise (by decide) (by decide) (by decide)
  · exact donchianLong_rise (by decide) (by decide) (by decide)
  · exact donchianLong_rise (by decide) (by decide) (by decide)

theorem rise_closes (rule : String) : requireCloses riseCloses 200 rule = .ok () := by
  refine ensure_of ?_
  rw [riseCloses_length]
  decide

theorem rise_ensFraction : ensFraction riseCloses = .ok 1.0 := by
  have votes : ensLookbacks.mapM (aboveSma riseCloses (rise eveOfStart)) =
      .ok (ensLookbacks.map fun _ => true) :=
    mapM_eq_ok.mpr (List.forall₂_map_right_iff.mpr (List.forall₂_same.mpr rise_aboveSma))
  refine bind_eq_ok.mpr ⟨_, rise_closes _, bind_eq_ok.mpr ⟨_, require_eq_ok.mpr riseCloses_last,
    bind_eq_ok.mpr ⟨_, votes, rise_numbers.1⟩⟩⟩

theorem rise_trendVotes : trendVotes riseCloses = .ok 1.0 := by
  have averages : trend5Sma.mapM (aboveSma riseCloses (rise eveOfStart)) =
      .ok (trend5Sma.map fun _ => true) :=
    mapM_eq_ok.mpr (List.forall₂_map_right_iff.mpr (List.forall₂_same.mpr fun count member =>
      rise_aboveSma count (by revert count; decide)))
  have channels : trend5Donchian.mapM (fun channel =>
      donchianLong riseCloses channel.1 channel.2) = .ok (trend5Donchian.map fun _ => true) :=
    mapM_eq_ok.mpr (List.forall₂_map_right_iff.mpr (List.forall₂_same.mpr rise_donchianLong))
  refine bind_eq_ok.mpr ⟨_, rise_closes _, bind_eq_ok.mpr ⟨_, require_eq_ok.mpr riseCloses_last,
    bind_eq_ok.mpr ⟨_, averages, bind_eq_ok.mpr ⟨_, channels, rise_numbers.1⟩⟩⟩⟩

theorem logReturns_replicate (count : ℕ) :
    logReturns (List.replicate (count + 1) (60000.0 : Double)) = .ok (List.replicate count 0.0) := by
  have pairs : (List.replicate (count + 1) (60000.0 : Double)).zip
      (List.replicate (count + 1) (60000.0 : Double)).tail =
        List.replicate count ((60000.0 : Double), (60000.0 : Double)) := by
    rw [List.tail_replicate, List.zip_replicate]
    simp
  rw [logReturns, pairs]
  refine mapM_eq_ok.mpr (List.forall₂_iff_get.mpr ⟨by simp, fun index _ _ => ?_⟩)
  have single : [((60000.0 : Double), (60000.0 : Double))].mapM _ = _ := rise_numbers.2.2
  obtain ⟨turn, -⟩ := List.forall₂_cons.mp (mapM_eq_ok.mp single)
  simpa only [List.get_eq_getElem, List.getElem_replicate] using turn

/-- Before the week of the first paper day the closes do not move. -/
theorem rise_weeklyVolScale : weeklyVolScale (signalDays.map riseBar) paperStart = .ok 1.0 := by
  have monday : mondayMs paperStart = .ok 1790553600000 := rfl
  obtain ⟨-, -, -, -, earlier⟩ := signalDays_window
  have still (count : ℕ) : (List.replicate count (0.0 : Double)).foldl (fun variance value =>
      (1.0 - ⟨2.0 / 21.0⟩) * variance + ⟨2.0 / 21.0⟩ * value * value) 0.0 = 0.0 := by
    have turn : (1.0 - ⟨2.0 / 21.0⟩) * (0.0 : Double) + ⟨2.0 / 21.0⟩ * 0.0 * 0.0 = 0.0 := rfl
    induction count with
    | zero => rfl
    | succ count hyp =>
        rw [List.replicate_succ, List.foldl_cons, turn]
        exact hyp
  have short : (List.replicate (194 + 1) (60000.0 : Double)).lastN (trend5VtReturns + 1) =
      List.replicate (194 + 1) 60000.0 := by
    rw [List.lastN, List.length_replicate]
    rfl
  have many : requireCloses (List.replicate (194 + 1) (60000.0 : Double)) 2 "btc_trend5_vt" = .ok () := by
    refine ensure_of ?_
    rw [List.length_replicate]
    decide
  have alpha : number (PyFloat.divide (2.0 : Double) 21.0) = .ok ⟨2.0 / 21.0⟩ := rfl
  have start : number (PyMath.square (0.0 : Double)) = .ok 0.0 := rfl
  have sigma : number (PyMath.sqrt ((0.0 : Double) * annualizationDays)) = .ok 0.0 := rfl
  have notBelow : ¬ PyFloat.lt (0.0 : Double) 0.0 = true := Bool.false_ne_true
  refine bind_eq_ok.mpr ⟨_, monday, ?_⟩
  dsimp only
  rw [earlier, short]
  refine bind_eq_ok.mpr ⟨_, many, bind_eq_ok.mpr ⟨_, logReturns_replicate 194, bind_eq_ok.mpr ⟨_, alpha,
    bind_eq_ok.mpr ⟨0.0, rfl, bind_eq_ok.mpr ⟨_, start, ?_⟩⟩⟩⟩⟩
  rw [List.tail_replicate, still, sigma]
  refine bind_eq_ok.mpr ⟨_, rfl, ?_⟩
  rw [if_neg notBelow]
  rfl

theorem rise_ensTarget : ensTarget riseCloses none = .ok 1.0 ∧
    ensTarget riseCloses (some ensVolTarget) = .ok 1.0 := by
  unfold ensTarget
  rw [rise_ensFraction, rise_numbers.2.1]
  exact ⟨rfl, rfl⟩

def ensMorning (asset : Asset) : AssetSignal Double :=
  ⟨asset, asset.usdtSymbol, eveOfStart, rise eveOfStart,
    [("ENS", 1.0), ("ENS_VT", 1.0), ("vol30", 0.332449048057566)]⟩

theorem one_finiteWeight (what : String) : finiteWeight (1.0 : Double) what = .ok 1.0 := by
  have bounded : (PyFloat.isFinite (1.0 : Double) && PyFloat.le 0.0 (1.0 : Double) &&
      PyFloat.le (1.0 : Double) 1.0) = true := rfl
  exact if_pos bounded

theorem eveOfStart_previous : plusDays paperStart (-1) = .ok eveOfStart := rfl

theorem ensSignal_morning (asset : Asset) :
    ensSignal (market morningSeries) asset paperStart = .ok (ensMorning asset) := by
  obtain ⟨window, -, sameCloses, -⟩ := signalDays_window
  obtain ⟨isEns, isEnsVt⟩ := rise_ensTarget
  have series : seriesOf (market morningSeries) asset.usdtSymbol =
      .ok (morningSeries asset.usdtSymbol) := by
    cases asset with
    | btc => rfl
    | eth => rfl
  have closes : signalDays.mapM (closeFor (morningSeries asset.usdtSymbol) asset.usdtSymbol
      paperStart) = .ok riseCloses := by
    rw [← sameCloses]
    exact mapM_eq_ok.mpr (List.forall₂_map_right_iff.mpr (List.forall₂_same.mpr fun _ member =>
      closeFor_morning _ member))
  refine bind_eq_ok.mpr ⟨_, series, bind_eq_ok.mpr ⟨_, eveOfStart_previous, bind_eq_ok.mpr
    ⟨_, window, bind_eq_ok.mpr ⟨_, closes, ?_⟩⟩⟩⟩
  rw [isEns, isEnsVt, rise_numbers.2.1]
  exact bind_eq_ok.mpr ⟨_, rfl, bind_eq_ok.mpr ⟨_, rfl, bind_eq_ok.mpr ⟨_, rfl, bind_eq_ok.mpr
    ⟨_, one_finiteWeight _, bind_eq_ok.mpr ⟨_, one_finiteWeight _, bind_eq_ok.mpr
      ⟨_, require_eq_ok.mpr riseCloses_last, rfl⟩⟩⟩⟩⟩⟩

theorem trend5History_morning :
    trend5History (signalDays.map riseBar) paperStart = .ok morningHistory := by
  have times : Panel.timesOf [(btcusdt, signalDays.map riseBar)] [btcusdt]
      (some (dayOpenMs paperStart)) =
        (signalDays.map riseBar).map Bar.openTimeMs ++ [dayOpenMs paperStart] := by
    change (Panel.timesOf [(btcusdt, signalDays.map riseBar)] [btcusdt] none).filter
      (· < dayOpenMs paperStart) ++ [dayOpenMs paperStart] = _
    rw [timesOf_single signalDays_ascending, List.filter_eq_self.mpr]
    intro time member
    obtain ⟨bar, isBar, rfl⟩ := List.mem_map.mp member
    obtain ⟨earlier, inDays, rfl⟩ := List.mem_map.mp isBar
    exact decide_eq_true (dayOpenMs_lt (signalDays_before earlier inDays))
  have dated : (Panel.timesOf [(btcusdt, signalDays.map riseBar)] [btcusdt]
      (some (dayOpenMs paperStart))).mapM utcDay? = some (signalDays ++ [paperStart]) := by
    rw [times]
    refine mapM_eq_some.mpr (List.rel_append ?_ (.cons (utcDay?_dayOpenMs _) .nil))
    rw [List.map_map, List.forall₂_map_left_iff, List.forall₂_same]
    exact fun day _ => utcDay?_dayOpenMs day
  have built := Panel.build_of (by simp [isSpot, btcusdt]) (by simp [Dict.get?]) dated
  have many : signalDays.length = 201 := by rw [signalDays, List.length_map, List.length_finRange]
  refine bind_eq_ok.mpr ⟨_, built, ?_⟩
  rw [times]
  refine bind_eq_ok.mpr ⟨paperStart, require_eq_ok.mpr ?_, bind_eq_ok.mpr
    ⟨dayOpenMs paperStart, require_eq_ok.mpr ?_, rfl⟩⟩
  · simp [many]
  · simp [many]

theorem morningHistory_bars : morningHistory.closes btcusdt none = .ok riseCloses ∧
    morningHistory.bars btcusdt (some 208) = .ok (signalDays.map riseBar) := by
  obtain ⟨-, -, sameCloses, seen, -⟩ := signalDays_window
  have all : (signalDays.map riseBar).take 201 = signalDays.map riseBar := by
    refine List.take_of_length_le ?_
    rw [List.length_map, signalDays, List.length_map, List.length_finRange]
  have bars (count : Option ℤ) (isAll : count = none ∨ count = some 208) :
      morningHistory.bars btcusdt count = .ok (signalDays.map riseBar) := by
    refine bind_eq_ok.mpr ⟨_, seen, bind_eq_ok.mpr ⟨_, rfl, ?_⟩⟩
    rw [all]
    rcases isAll with rfl | rfl
    · rfl
    · rfl
  refine ⟨bind_eq_ok.mpr ⟨_, bars none (.inl rfl), ?_⟩, bars (some 208) (.inr rfl)⟩
  rw [List.map_map, ← sameCloses]
  rfl

theorem trend5Signal_morning : trend5Signal (market morningSeries) paperStart =
    .ok ⟨.btc, btcusdt, eveOfStart, rise eveOfStart, [("votes", 1.0), ("vol_scale", 1.0),
      ("BTC_TREND5", 1.0), ("BTC_TREND5_VT", 1.0)]⟩ := by
  obtain ⟨isCloses, isBars⟩ := morningHistory_bars
  have isTrend5 : Strategy.btcTrend5.weight morningHistory = .ok 1.0 :=
    bind_eq_ok.mpr ⟨_, congrArg engine isCloses, rise_trendVotes⟩
  have isTrend5Vt : Strategy.btcTrend5Vt.weight morningHistory = .ok 1.0 := by
    refine bind_eq_ok.mpr ⟨_, congrArg engine isBars, bind_eq_ok.mpr ⟨_, rise_weeklyVolScale, bind_eq_ok.mpr
      ⟨_, congrArg engine isCloses, bind_eq_ok.mpr ⟨_, rise_trendVotes, rfl⟩⟩⟩⟩
  obtain ⟨-, member, -⟩ := signalDays_window
  refine bind_eq_ok.mpr ⟨morningSeries btcusdt, rfl, bind_eq_ok.mpr ⟨_, eveOfStart_previous,
    bind_eq_ok.mpr ⟨_, closeFor_morning _ member, ?_⟩⟩⟩
  rw [morningSeries_closedBefore, trend5History_morning]
  refine bind_eq_ok.mpr ⟨morningHistory, rfl, ?_⟩
  dsimp only
  rw [isTrend5, isTrend5Vt, isCloses, isBars]
  refine bind_eq_ok.mpr ⟨_, rfl, bind_eq_ok.mpr ⟨_, rfl, bind_eq_ok.mpr ⟨_, rfl, ?_⟩⟩⟩
  rw [rise_trendVotes]
  refine bind_eq_ok.mpr ⟨_, rfl, bind_eq_ok.mpr ⟨_, rfl, ?_⟩⟩
  rw [show morningHistory.today = paperStart from rfl, rise_weeklyVolScale]
  exact bind_eq_ok.mpr ⟨_, rfl, bind_eq_ok.mpr ⟨_, one_finiteWeight _, bind_eq_ok.mpr
    ⟨_, one_finiteWeight _, rfl⟩⟩⟩

def morningSignals : DaySignals Double :=
  ⟨paperStart, Asset.all.map fun asset => (asset, ensMorning asset),
    ⟨.btc, btcusdt, eveOfStart, rise eveOfStart, [("votes", 1.0), ("vol_scale", 1.0),
      ("BTC_TREND5", 1.0), ("BTC_TREND5_VT", 1.0)]⟩⟩

theorem daySignals_morning :
    daySignals (market morningSeries) paperStart = .ok morningSignals := by
  refine bind_eq_ok.mpr ⟨_, mapM_eq_ok.mpr (List.forall₂_map_right_iff.mpr
    (List.forall₂_same.mpr fun asset _ => ?_)), bind_eq_ok.mpr ⟨_, trend5Signal_morning, rfl⟩⟩
  exact bind_eq_ok.mpr ⟨_, ensSignal_morning asset, rfl⟩

/-- The booking of the first paper day in the morning. -/
def morningBooking (signals : Option (DaySignals Double)) :
    Except PaperFailure (List (Record Double) × Dict String (BookState Double)) :=
  bookDay (market morningSeries) paperStart [] (pyStr "now") paperStart signals

theorem morningBooking_none : morningBooking none = morningBooking (some morningSignals) := by
  unfold morningBooking bookDay
  rw [Option.elim_none, daySignals_morning, Option.elim_some]

/-- The open of the day alone. -/
def openingSeries (symbol : String) : DailySeries Double :=
  openSeries symbol paperStart (rise paperStart) rise_priced

theorem openingSeries_openOn (symbol : String) :
    (morningSeries symbol).openOn paperStart = (openingSeries symbol).openOn paperStart := by
  rw [DailySeries.openOn_eq, DailySeries.openOn_eq]
  simp [morningSeries, openingSeries, openSeries, flatSeries, Option.filter]

/-- On these signals every book has a record. -/
theorem opening_booked : ((bookDay (market openingSeries) paperStart [] (pyStr "now") paperStart
    (some morningSignals)).toOption.elim [] Prod.fst).length = books.length := by
  decide +kernel

theorem morning_booked : ∃ records after, records.length = books.length ∧
    morningBooking none = .ok (records, after) := by
  have booked := opening_booked
  have alike := bookDay_alike (market morningSeries) (market openingSeries) paperStart paperStart []
    (pyStr "now") morningSignals (market_opens (fun _ => rfl) (fun _ => rfl) openingSeries_openOn)
  rw [morningBooking_none]
  cases opening : bookDay (market openingSeries) paperStart [] (pyStr "now") paperStart
      (some morningSignals) with
  | error failure =>
      rw [opening] at booked
      change 0 = books.length at booked
      exact absurd booked (by decide)
  | ok result =>
      rw [opening] at booked alike
      cases morning : morningBooking (some morningSignals) with
      | error failure =>
          rw [morningBooking] at morning
          rw [morning] at alike
          cases alike
      | ok other =>
          rw [morningBooking] at morning
          rw [morning] at alike
          cases alike with
          | ok same => exact ⟨result.1, result.2, booked, by rw [same]⟩

/-- The first paper day is booked alike in the morning and when it is over. -/
theorem bookDay_no_lookahead_morning_evening :
    (morningSeries "BTCUSDT").closed ≠ (eveningSeries "BTCUSDT").closed ∧
      ∃ records after, records.length = books.length ∧
        bookDay (market morningSeries) paperStart [] (pyStr "now") paperStart none =
          .ok (records, after) ∧
        bookDay (market eveningSeries) paperStart [] (pyStr "now") paperStart none =
          .ok (records, after) := by
  refine ⟨fun same => ?_, ?_⟩
  · have lengths := congrArg List.length same
    simp [morningSeries, eveningSeries] at lengths
  have alike := bookDay_no_lookahead (market morningSeries) (market eveningSeries) paperStart
    paperStart [] (pyStr "now") morning_agrees_evening
  obtain ⟨records, after, every, morning⟩ := morning_booked
  unfold morningBooking at morning
  rw [morning] at alike
  cases evening : bookDay (market eveningSeries) paperStart [] (pyStr "now") paperStart none with
  | error failure =>
      rw [evening] at alike
      cases alike
  | ok other =>
      rw [evening] at alike
      cases alike with
      | ok same => exact ⟨records, after, every, morning, by rw [same]⟩

end CryptoRadar.Trend
