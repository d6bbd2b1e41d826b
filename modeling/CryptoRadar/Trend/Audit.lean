import CryptoRadar.Lib.Double
import CryptoRadar.Lib.Json
import CryptoRadar.Trend.Simulation
import Mathlib.Data.List.GetD

/-!
# The lookahead audit

`domain/trend_engine.py`: the panel cut before a day (`Panel.truncated`) and `audit_lookahead`, which
compares the weights on the panel with those on the cut one.

A cut panel is built anew: its days are those of the bars that are left and the day of the cut. For
bars in the order of their open times these are the days up to the cut
(`Panel.truncated_of_build`), and a bisection counts the same bars on both panels
(`take_bisectLeft`). So a strategy sees the same on both (`truncated_sameSight`), and the audit
refuses none whose weights depend on that alone.
-/

set_option autoImplicit false

namespace CryptoRadar.Trend

open Checked

/-! ## Bisection -/

/-- The times before a moment end at the cut. -/
structure Cuts (times : List ℤ) (now : ℤ) (cut : ℕ) : Prop where
  within : cut ≤ times.length
  before : ∀ index, index < cut → times.getD index 0 < now
  after : ∀ index, cut ≤ index → index < times.length → now ≤ times.getD index 0

theorem getD_mono {times : List ℤ} (sorted : times.Pairwise (· < ·)) {first second : ℕ}
    (order : first ≤ second) (bound : second < times.length) :
    times.getD first 0 ≤ times.getD second 0 := by
  rw [List.getD_eq_getElem _ _ (lt_of_le_of_lt order bound), List.getD_eq_getElem _ _ bound]
  rcases order.lt_or_eq with less | same
  · exact (List.pairwise_iff_getElem.mp sorted first second _ _ less).le
  · subst same
    exact le_rfl

/-- A bisection of ascending times cuts them where the times from now on begin. -/
theorem bisectLeftFrom_cuts {times : List ℤ} {now : ℤ} (sorted : times.Pairwise (· < ·))
    (low high : ℕ) (order : low ≤ high) (bound : high ≤ times.length)
    (before : ∀ index, index < low → times.getD index 0 < now)
    (after : ∀ index, high ≤ index → index < times.length → now ≤ times.getD index 0) :
    Cuts times now (bisectLeftFrom times now low high) := by
  induction low, high using bisectLeftFrom.induct times now with
  | case1 low high proper middle less ih =>
      rw [bisectLeftFrom, if_pos proper]
      dsimp only
      rw [if_pos less]
      refine ih (by omega) bound (fun index inside => ?_) after
      exact lt_of_le_of_lt (getD_mono sorted (Nat.le_of_lt_succ inside) (by omega)) less
  | case2 low high proper middle notLess ih =>
      rw [bisectLeftFrom, if_pos proper]
      dsimp only
      rw [if_neg notLess]
      refine ih (by omega) (by omega) before fun index outside inside => ?_
      exact (not_lt.mp notLess).trans (getD_mono sorted outside inside)
  | case3 low high empty =>
      rw [bisectLeftFrom, if_neg empty]
      have same : low = high := by omega
      subst same
      exact ⟨bound, before, after⟩

theorem bisectLeft_cuts {times : List ℤ} (sorted : times.Pairwise (· < ·)) (now : ℤ) :
    Cuts times now (bisectLeft times now) :=
  bisectLeftFrom_cuts sorted 0 times.length (Nat.zero_le _) le_rfl
    (fun _ inside => absurd inside (Nat.not_lt_zero _))
    (fun _ outside inside => absurd inside (Nat.not_lt.mpr outside))

/-- The items before a cut are those before now. -/
theorem Cuts.take {Item : Type} {items : List Item} {time : Item → ℤ} {now : ℤ} {cut : ℕ}
    (cuts : Cuts (items.map time) now cut) :
    items.take cut = items.filter fun item => time item < now := by
  have timeAt : ∀ {index : ℕ} (inside : index < items.length),
      (items.map time).getD index 0 = time items[index] := by
    intro index inside
    rw [List.getD_eq_getElem _ _ (by simpa using inside), List.getElem_map]
  conv => rhs; rw [← List.take_append_drop cut items]
  rw [List.filter_append]
  have front : (items.take cut).filter (fun item => time item < now) = items.take cut := by
    refine List.filter_eq_self.mpr fun item member => decide_eq_true ?_
    obtain ⟨index, bound, rfl⟩ := List.mem_iff_getElem.mp member
    rw [List.length_take] at bound
    rw [List.getElem_take, ← timeAt]
    exact cuts.before index (by omega)
  have back : (items.drop cut).filter (fun item => time item < now) = [] := by
    refine List.filter_eq_nil_iff.mpr fun item member => ?_
    obtain ⟨index, bound, rfl⟩ := List.mem_iff_getElem.mp member
    rw [List.length_drop] at bound
    rw [List.getElem_drop, ← timeAt]
    have later := cuts.after (cut + index) (Nat.le_add_right _ _) (by simp; omega)
    simpa using later
  rw [front, back, List.append_nil]

/-- The bars seen at a time, by bisection and by their open times. -/
theorem take_bisectLeft {F : Type} {bars : List (Bar F)} (ascending : Ascending bars) (now : ℤ) :
    bars.take (bisectLeft (bars.map Bar.openTimeMs) now) =
      bars.filter fun bar => bar.openTimeMs < now :=
  (bisectLeft_cuts ascending.times now).take

theorem bisectLeft_eq_length {F : Type} {bars : List (Bar F)} (ascending : Ascending bars)
    (now : ℤ) : bisectLeft (bars.map Bar.openTimeMs) now =
      (bars.filter fun bar => bar.openTimeMs < now).length := by
  rw [← take_bisectLeft ascending, List.length_take, min_eq_left]
  simpa using (bisectLeft_cuts ascending.times now).within

/-! ## The cut panel -/

section CutPanel

variable {F : Type}

/-- A panel that holds only the bars that opened before the open of a day. -/
def Panel.truncated (panel : Panel F) (index : ℕ) : Except EngineFailure (Panel F) := do
  let time ← require .index panel.times[index]?
  Panel.build (panel.rows.map fun row => (row.1, row.2.filter fun bar => bar.openTimeMs < time))
    panel.tradeable (some time)

/-- Ascending lists of the same numbers are equal. -/
theorem eq_of_ascending {first second : List ℤ} (firstAscends : first.Pairwise (· < ·))
    (secondAscends : second.Pairwise (· < ·)) (same : ∀ time, time ∈ first ↔ time ∈ second) :
    first = second := by
  have perm : first.Perm second :=
    (List.perm_ext_iff_of_nodup (firstAscends.imp fun less => less.ne)
      (secondAscends.imp fun less => less.ne)).mpr same
  exact perm.eq_of_pairwise' firstAscends secondAscends

variable {rows : Dict String (List (Bar F))} {tradeable : List String} {endTime : Option ℤ}

theorem mem_timesOf_none {time : ℤ} : time ∈ Panel.timesOf rows tradeable none ↔
    ∃ instrument ∈ tradeable, ∃ bar ∈ Panel.rowsOf rows instrument, bar.openTimeMs = time := by
  simp [Panel.timesOf]

theorem timesOf_none_ascending : (Panel.timesOf rows tradeable none).Pairwise (· < ·) := by
  unfold Panel.timesOf
  dsimp only
  generalize tradeable.flatMap (fun instrument =>
    (Panel.rowsOf rows instrument).map Bar.openTimeMs) = all
  have sorted : (all.dedup.mergeSort).Pairwise (· ≤ ·) := List.pairwise_mergeSort' (· ≤ ·) _
  have distinct : (all.dedup.mergeSort).Nodup :=
    (List.mergeSort_perm _ _).nodup_iff.mpr all.nodup_dedup
  exact (sorted.and distinct).imp fun both => lt_of_le_of_ne both.1 both.2

theorem timesOf_ascending : (Panel.timesOf rows tradeable endTime).Pairwise (· < ·) := by
  cases endTime with
  | none => exact timesOf_none_ascending
  | some limit =>
      refine List.pairwise_append.mpr
        ⟨timesOf_none_ascending.sublist List.filter_sublist, List.pairwise_singleton _ _, ?_⟩
      intro time member other isLimit
      rw [List.mem_singleton.mp isLimit]
      exact of_decide_eq_true (List.mem_filter.mp member).2

/-- The bars that opened before a time. -/
def rowsBefore (rows : Dict String (List (Bar F))) (time : ℤ) : Dict String (List (Bar F)) :=
  rows.map fun row => (row.1, row.2.filter fun bar => bar.openTimeMs < time)

theorem rowsOf_rowsBefore (time : ℤ) (instrument : String) :
    Panel.rowsOf (rowsBefore rows time) instrument =
      (Panel.rowsOf rows instrument).filter fun bar => bar.openTimeMs < time := by
  unfold Panel.rowsOf rowsBefore
  rw [Dict.get?_mapValues rows fun bars => bars.filter fun bar => bar.openTimeMs < time]
  cases rows.get? instrument <;> rfl

/-- The days of the earlier rows are the earlier days. -/
theorem timesOf_rowsBefore (time : ℤ) :
    Panel.timesOf (rowsBefore rows time) tradeable none =
      (Panel.timesOf rows tradeable none).filter (· < time) := by
  refine eq_of_ascending timesOf_none_ascending
    (timesOf_none_ascending.sublist List.filter_sublist) fun other => ?_
  simp only [mem_timesOf_none, rowsOf_rowsBefore, List.mem_filter, decide_eq_true_eq]
  constructor
  · rintro ⟨instrument, traded, bar, ⟨member, before⟩, rfl⟩
    exact ⟨⟨instrument, traded, bar, member, rfl⟩, before⟩
  · rintro ⟨⟨instrument, traded, bar, member, rfl⟩, before⟩
    exact ⟨instrument, traded, bar, ⟨member, before⟩, rfl⟩

/-- Before a day of the panel its end time makes no difference. -/
theorem filter_timesOf {time : ℤ} (member : time ∈ Panel.timesOf rows tradeable endTime) :
    (Panel.timesOf rows tradeable endTime).filter (· < time) =
      (Panel.timesOf rows tradeable none).filter (· < time) := by
  cases endTime with
  | none => rfl
  | some limit =>
      have upTo : time ≤ limit := by
        rcases List.mem_append.mp member with inFront | isLimit
        · exact (of_decide_eq_true (List.mem_filter.mp inFront).2 : time < limit).le
        · exact (List.mem_singleton.mp isLimit).le
      change ((Panel.timesOf rows tradeable none).filter (· < limit) ++ [limit]).filter _ = _
      rw [List.filter_append, List.filter_filter, List.filter_singleton,
        decide_eq_false (not_lt.mpr upTo), cond_false, List.append_nil]
      refine List.filter_congr fun other _ => ?_
      by_cases before : other < time
      · simp [before, before.trans_le upTo]
      · simp [before]

/-- The earlier numbers of an ascending list are those in front. -/
theorem filter_lt_getElem {times : List ℤ} (sorted : times.Pairwise (· < ·)) {index : ℕ} {time : ℤ}
    (isTime : times[index]? = some time) : times.filter (· < time) = times.take index := by
  obtain ⟨bound, rfl⟩ := List.getElem?_eq_some_iff.mp isTime
  have cuts : Cuts (times.map id) times[index] index := by
    rw [List.map_id]
    refine ⟨bound.le, fun earlier before => ?_, fun later order inside => ?_⟩
    · rw [List.getD_eq_getElem _ _ (before.trans bound)]
      exact List.pairwise_iff_getElem.mp sorted earlier index _ _ before
    · rw [← List.getD_eq_getElem times 0 bound]
      exact getD_mono sorted order inside
  exact cuts.take.symm

/-- The days of the panel cut before a day are the days up to it. -/
theorem timesOf_truncated {index : ℕ} {time : ℤ}
    (isTime : (Panel.timesOf rows tradeable endTime)[index]? = some time) :
    Panel.timesOf (rowsBefore rows time) tradeable (some time) =
      (Panel.timesOf rows tradeable endTime).take (index + 1) := by
  have earlier : (Panel.timesOf rows tradeable none).filter (· < time) =
      (Panel.timesOf rows tradeable endTime).take index := by
    rw [← filter_timesOf (List.mem_of_getElem? isTime), filter_lt_getElem timesOf_ascending isTime]
  have whole : Panel.timesOf (rowsBefore rows time) tradeable (some time) =
      (Panel.timesOf (rowsBefore rows time) tradeable none).filter (· < time) ++ [time] := rfl
  rw [whole, timesOf_rowsBefore, List.filter_filter, List.take_add_one, isTime, ← earlier]
  simp

/-- A panel cut before one of its days is built, with the earlier rows and the days up to it. -/
theorem Panel.truncated_of_build {panel : Panel F}
    (built : Panel.build rows tradeable endTime = .ok panel) {index : ℕ} {time : ℤ}
    (isTime : panel.times[index]? = some time) :
    ∃ cut, panel.truncated index = .ok cut ∧ cut.rows = rowsBefore rows time ∧
      cut.times = panel.times.take (index + 1) ∧ cut.dates = panel.dates.take (index + 1) ∧
      cut.openTimes = (rowsBefore rows time).map fun row => (row.1, row.2.map Bar.openTimeMs) := by
  obtain ⟨spot, known, dated, isRows, isTradeable, isTimes, _, _⟩ := Panel.build_eq_ok built
  rw [isTimes] at isTime
  have days := timesOf_truncated isTime
  have cutSpot : ∀ item ∈ rowsBefore rows time, isSpot item.1 = true := by
    intro item member
    obtain ⟨row, isRow, rfl⟩ := List.mem_map.mp member
    exact spot row isRow
  have cutKnown : ∀ instrument ∈ tradeable, ((rowsBefore rows time).get? instrument).isSome := by
    intro instrument traded
    unfold rowsBefore
    rw [Dict.get?_mapValues rows fun bars => bars.filter fun bar => bar.openTimeMs < time,
      Option.isSome_map]
    exact known instrument traded
  have cutDated : (Panel.timesOf (rowsBefore rows time) tradeable (some time)).mapM utcDay? =
      some (panel.dates.take (index + 1)) := by
    rw [days]
    exact mapM_eq_some.mpr (List.forall₂_take _ (mapM_eq_some.mp dated))
  have isCut : panel.truncated index =
      Panel.build (rowsBefore rows time) tradeable (some time) := by
    unfold Panel.truncated
    rw [isTimes, isRows, isTradeable, isTime]
    rfl
  rw [isTimes, ← days]
  exact ⟨_, isCut.trans (Panel.build_of cutSpot cutKnown cutDated), rfl, rfl, rfl, rfl⟩

/-! ## What a strategy sees -/

/-- The histories answer alike: the same day, and the same from every accessor. -/
structure SameSight (first second : History F) : Prop where
  today : first.today = second.today
  nbars : ∀ instrument, first.nbars instrument = second.nbars instrument
  bars : ∀ instrument count, first.bars instrument count = second.bars instrument count
  closes : ∀ instrument count, first.closes instrument count = second.closes instrument count
  opens : ∀ instrument count, first.opens instrument count = second.opens instrument count

/-- The open times of a panel are those of its bars, which stand in their order. -/
structure Panel.Indexed (panel : Panel F) : Prop where
  openTimes : panel.openTimes = panel.rows.map fun row => (row.1, row.2.map Bar.openTimeMs)
  ascending : ∀ row ∈ panel.rows, Ascending row.2

/-- The bars that a history may see. -/
def seenBars (history : History F) (instrument : String) : Except EngineFailure (List (Bar F)) := do
  let bars ← require .key (history.panel.rows.get? instrument)
  return bars.filter fun bar => bar.openTimeMs < history.now

theorem History.nbars_eq {history : History F} (indexed : history.panel.Indexed)
    (instrument : String) : history.nbars instrument = (do
      let bars ← seenBars history instrument
      return bars.length) := by
  unfold History.nbars seenBars
  rw [indexed.openTimes, Dict.get?_mapValues history.panel.rows fun bars => bars.map Bar.openTimeMs]
  cases found : history.panel.rows.get? instrument with
  | none => rfl
  | some bars =>
      have ascending := indexed.ascending _ (Dict.mem_of_get?_eq_some found)
      change Except.ok (bisectLeft (bars.map Bar.openTimeMs) history.now) = .ok _
      rw [bisectLeft_eq_length ascending]

theorem History.bars_eq {history : History F} (indexed : history.panel.Indexed)
    (instrument : String) (count : Option ℤ) : history.bars instrument count = (do
      let bars ← seenBars history instrument
      return bars.drop (match count with
        | none => 0
        | some count => ((bars.length : ℤ) - count).toNat)) := by
  unfold History.bars
  rw [History.nbars_eq indexed]
  unfold seenBars
  cases found : history.panel.rows.get? instrument with
  | none => rfl
  | some bars =>
      have ascending : Ascending bars := indexed.ascending _ (Dict.mem_of_get?_eq_some found)
      have taken := take_bisectLeft ascending history.now
      rw [bisectLeft_eq_length ascending] at taken
      exact congrArg Except.ok (congrArg₂ List.drop rfl taken)

/-- Histories that see the same bars of every instrument answer alike. -/
theorem sameSight_of {first second : History F} (firstIndexed : first.panel.Indexed)
    (secondIndexed : second.panel.Indexed) (today : first.today = second.today)
    (seen : ∀ instrument, seenBars first instrument = seenBars second instrument) :
    SameSight first second := by
  have bars : ∀ instrument count, first.bars instrument count = second.bars instrument count := by
    intro instrument count
    rw [History.bars_eq firstIndexed, History.bars_eq secondIndexed, seen]
  refine ⟨today, fun instrument => ?_, bars, fun instrument count => ?_, fun instrument count => ?_⟩
  · rw [History.nbars_eq firstIndexed, History.nbars_eq secondIndexed, seen]
  · unfold History.closes
    rw [bars]
  · unfold History.opens
    rw [bars]

/-- On a day of a panel, a strategy sees on the cut panel what it sees on the whole one. -/
theorem truncated_sameSight {panel : Panel F}
    (built : Panel.build rows tradeable endTime = .ok panel)
    (ascending : ∀ row ∈ rows, Ascending row.2) {index : ℕ} (day : index < panel.times.length) :
    ∃ cut whole seen, panel.truncated index = .ok cut ∧ History.build panel index = .ok whole ∧
      History.build cut index = .ok seen ∧ SameSight seen whole := by
  obtain ⟨_, _, dated, isRows, _, isTimes, isOpenTimes, _⟩ := Panel.build_eq_ok built
  obtain ⟨time, isTime⟩ : ∃ time, panel.times[index]? = some time :=
    ⟨_, List.getElem?_eq_getElem day⟩
  have sameLength : panel.times.length = panel.dates.length := by
    rw [isTimes]
    exact (mapM_eq_some.mp dated).length_eq
  obtain ⟨today, isToday⟩ : ∃ today, panel.dates[index]? = some today :=
    ⟨_, List.getElem?_eq_getElem (sameLength ▸ day)⟩
  obtain ⟨cut, truncated, cutRows, cutTimes, cutDates, cutOpenTimes⟩ :=
    Panel.truncated_of_build built isTime
  have cutTime : cut.times[index]? = some time := by
    rw [cutTimes, List.getElem?_take_of_lt (Nat.lt_succ_self index), isTime]
  have cutToday : cut.dates[index]? = some today := by
    rw [cutDates, List.getElem?_take_of_lt (Nat.lt_succ_self index), isToday]
  refine ⟨cut, ⟨panel, today, time⟩, ⟨cut, today, time⟩, truncated, ?_, ?_, sameSight_of ?_ ?_ rfl ?_⟩
  · exact bind_eq_ok.mpr ⟨today, require_eq_ok.mpr isToday,
      bind_eq_ok.mpr ⟨time, require_eq_ok.mpr isTime, rfl⟩⟩
  · exact bind_eq_ok.mpr ⟨today, require_eq_ok.mpr cutToday,
      bind_eq_ok.mpr ⟨time, require_eq_ok.mpr cutTime, rfl⟩⟩
  · refine ⟨cutOpenTimes.trans (by rw [cutRows]), ?_⟩
    intro row member
    rw [cutRows] at member
    obtain ⟨whole, isRow, rfl⟩ := List.mem_map.mp member
    exact (ascending whole isRow).filter _
  · refine ⟨isOpenTimes.trans (by rw [isRows]), ?_⟩
    rw [isRows]
    exact ascending
  · intro instrument
    unfold seenBars
    dsimp only
    rw [cutRows, isRows]
    unfold rowsBefore
    rw [Dict.get?_mapValues rows fun bars => bars.filter fun bar => bar.openTimeMs < time]
    cases rows.get? instrument with
    | none => rfl
    | some bars =>
        change Except.ok ((bars.filter _).filter _) = .ok (bars.filter _)
        rw [List.filter_filter]
        simp

end CutPanel

/-! ## The audit -/

section Audit

variable {F : Type} [PyFloat F]

def auditTolerance : F := 1e-12

/-- `items[::step]`. -/
def everyNth {Item : Type} (items : List Item) (step : ℕ) : List Item :=
  (items.zipIdx.filter fun item => item.2 % step = 0).map Prod.fst

/-- `items[:stop]`; a negative stop counts from the end. -/
def sliceTo {Item : Type} (items : List Item) (stop : ℤ) : List Item :=
  items.take (if stop < 0 then items.length + stop else stop).toNat

/-- Every so many days, and the last one. -/
def sampledDays (daysIdx : List ℕ) (last : ℕ) (samples : ℤ) : Except NumberError (List ℕ) :=
  if samples = 0 then .error .zeroDivision
  else
    let step := max 1 (Int.fdiv daysIdx.length samples)
    .ok (sliceTo (everyNth daysIdx step.toNat) samples ++ [last])

/-- The same keys, with weights that differ by no more than the tolerance. -/
def sameTargets (full cut : Dict String F) : Bool :=
  (full.all fun item => (cut.get? item.1).isSome) && (cut.all fun item => (full.get? item.1).isSome) &&
    full.all fun item => (full.get? item.1).all fun weight => (cut.get? item.1).all fun other =>
      !PyFloat.lt auditTolerance (PyFloat.abs (weight - other))

/-- One sampled day; the weights in the text are left out. -/
def auditDay (strategy : StrategyProtocol F) (panel : Panel F) (index : ℕ) :
    Except SignalFailure Unit := do
  let history ← engine (History.build panel index)
  let full ← targetsOf strategy history
  let truncated ← engine (panel.truncated index)
  let seen ← engine (History.build truncated index)
  let cut ← targetsOf strategy seen
  if sameTargets full cut then return ()
  else
    let day ← engine (require .index panel.dates[index]?)
    throw (.engine (.engine .lookahead
      (strategy.name ++ ": lookahead or state on " ++ day.isoformat)))

/-- `audit_lookahead`. -/
def auditLookahead (strategy : StrategyProtocol F) (panel : Panel F) (daysIdx : List ℕ)
    (samples : ℤ) : Except SignalFailure Unit :=
  match daysIdx.getLast? with
  | none => .ok ()
  | some last => do
      let days ← number (sampledDays daysIdx last samples)
      days.forM (auditDay strategy panel)

/-- The weights are a function of the day and of what the accessors return. -/
def StrategyProtocol.Honest (strategy : StrategyProtocol F) : Prop :=
  ∀ first second, SameSight first second → strategy.weights first = strategy.weights second

/-- The weight of a ported rule is a function of the day and of what the accessors return. -/
theorem Strategy.weight_sameSight {G : Type} [PyMath G] {first second : History G}
    (same : SameSight first second) (strategy : Strategy G) :
    strategy.weight first = strategy.weight second := by
  cases strategy with
  | ens asset volTarget => simp only [Strategy.weight, same.closes]
  | btcTrend5 => simp only [Strategy.weight, same.closes]
  | btcTrend5Vt => simp only [Strategy.weight, same.bars, same.closes, same.today]
  | buyAndHold asset => rfl

/-- So a strategy of one ported rule is honest. -/
theorem Strategy.honest {G : Type} [PyMath G] (rule : Strategy G) (name asset : String)
    (warmupDays : ℕ) :
    (⟨name, [asset], warmupDays, rule.band, 1.0, fun history => do
      let weight ← rule.weight history
      return [(asset, weight)]⟩ : StrategyProtocol G).Honest := by
  intro first second same
  dsimp only
  rw [rule.weight_sameSight same]

theorem sampledDays_subset {daysIdx days : List ℕ} {last : ℕ} {samples : ℤ}
    (isLast : daysIdx.getLast? = some last) (sampled : sampledDays daysIdx last samples = .ok days) :
    ∀ index ∈ days, index ∈ daysIdx := by
  unfold sampledDays at sampled
  split at sampled
  next => cases sampled
  next =>
    cases sampled
    intro index member
    rcases List.mem_append.mp member with inSlice | isLastDay
    · obtain ⟨item, inNth, rfl⟩ := List.mem_map.mp (List.mem_of_mem_take inSlice)
      exact List.fst_mem_of_mem_zipIdx (List.mem_filter.mp inNth).1
    · rw [List.mem_singleton.mp isLastDay]
      exact List.mem_of_getLast? isLast

end Audit

/-- Equal weights are within the tolerance, also where they are infinite or no number. -/
theorem sameTargets_self (targets : Dict String Double) : sameTargets targets targets = true := by
  have within : ∀ weight : Double,
      PyFloat.lt auditTolerance (PyFloat.abs (weight - weight)) = false := by
    intro weight
    rcases Double.sub_self weight with same | same
    · rw [same]
      decide +kernel
    · rw [same]
      decide +kernel
  have found : ∀ item ∈ targets, (targets.get? item.1).isSome = true := by
    intro item member
    rw [Option.isSome_iff_ne_none]
    exact fun none => Dict.get?_eq_none_iff.mp none item member rfl
  unfold sameTargets
  rw [List.all_eq_true.mpr found, Bool.true_and, Bool.true_and]
  refine List.all_eq_true.mpr fun item _ => ?_
  cases targets.get? item.1 with
  | none => rfl
  | some weight => simp [within]

/-- On a day of the panel an honest strategy is refused nothing: the audit fails only as the
strategy itself does. -/
theorem auditDay_honest {strategy : StrategyProtocol Double} (honest : strategy.Honest)
    {rows : Dict String (List (Bar Double))} {tradeable : List String} {endTime : Option ℤ}
    {panel : Panel Double} (built : Panel.build rows tradeable endTime = .ok panel)
    (ascending : ∀ row ∈ rows, Ascending row.2) {index : ℕ} (day : index < panel.times.length) :
    ∃ history, History.build panel index = .ok history ∧
      auditDay strategy panel index = (strategy.weights history).map fun _ => () := by
  obtain ⟨cut, whole, seen, truncated, isWhole, isSeen, same⟩ :=
    truncated_sameSight built ascending day
  have seenTargets : targetsOf strategy seen = targetsOf strategy whole := by
    unfold targetsOf
    rw [honest seen whole same]
  refine ⟨whole, isWhole, ?_⟩
  cases weighed : strategy.weights whole with
  | error failure =>
      have failed : targetsOf strategy whole = .error failure := by
        unfold targetsOf
        rw [weighed]
        rfl
      unfold auditDay
      rw [isWhole]
      change (targetsOf strategy whole >>= _) = _
      rw [failed]
      rfl
  | ok weights =>
      have targets : targetsOf strategy whole =
          .ok (weights.filter fun item => !PyFloat.eq item.2 0.0) := by
        unfold targetsOf
        rw [weighed]
        rfl
      refine bind_eq_ok.mpr ⟨whole, mapError_eq_ok.mpr isWhole, bind_eq_ok.mpr ⟨_, targets, ?_⟩⟩
      refine bind_eq_ok.mpr ⟨cut, mapError_eq_ok.mpr truncated, ?_⟩
      refine bind_eq_ok.mpr ⟨seen, mapError_eq_ok.mpr isSeen, ?_⟩
      refine bind_eq_ok.mpr ⟨_, seenTargets.trans targets, ?_⟩
      rw [if_pos (sameTargets_self _)]
      rfl

/-- A day out of range has no history. -/
theorem auditDay_outside {strategy : StrategyProtocol Double}
    {rows : Dict String (List (Bar Double))} {tradeable : List String} {endTime : Option ℤ}
    {panel : Panel Double} (built : Panel.build rows tradeable endTime = .ok panel) {index : ℕ}
    (outside : panel.times.length ≤ index) :
    auditDay strategy panel index = .error (.engine .index) := by
  obtain ⟨_, _, dated, _, _, isTimes, _, _⟩ := Panel.build_eq_ok built
  have noDay : panel.dates[index]? = none := by
    rw [isTimes, (mapM_eq_some.mp dated).length_eq] at outside
    exact List.getElem?_eq_none outside
  unfold auditDay History.build
  rw [noDay]
  rfl

/-- **The audit compares like with like**: on every day of a panel the cut panel shows what the
whole one shows, so the audit of an honest strategy fails only where a day is out of range, where it
is asked for no sample, or where the strategy itself fails. -/
theorem audit_compares_like_with_like {rows : Dict String (List (Bar Double))}
    {tradeable : List String} {endTime : Option ℤ} {panel : Panel Double}
    (built : Panel.build rows tradeable endTime = .ok panel)
    (ascending : ∀ row ∈ rows, Ascending row.2) :
    (∀ index, index < panel.times.length → ∃ cut whole seen, panel.truncated index = .ok cut ∧
      History.build panel index = .ok whole ∧ History.build cut index = .ok seen ∧
      SameSight seen whole) ∧
    ∀ strategy : StrategyProtocol Double, strategy.Honest → ∀ daysIdx samples failure,
      auditLookahead strategy panel daysIdx samples = .error failure →
        (samples = 0 ∧ failure = .number .zeroDivision) ∨
        ∃ index ∈ daysIdx, (panel.times.length ≤ index ∧ failure = .engine .index) ∨
          ∃ history, History.build panel index = .ok history ∧
            strategy.weights history = .error failure := by
  refine ⟨fun index day => truncated_sameSight built ascending day, ?_⟩
  intro strategy honest daysIdx samples failure refused
  unfold auditLookahead at refused
  cases isLast : daysIdx.getLast? with
  | none =>
      rw [isLast] at refused
      cases refused
  | some last =>
      rw [isLast] at refused
      rcases bind_eq_error.mp refused with noSample | ⟨days, sampled, failed⟩
      · left
        unfold sampledDays at noSample
        split at noSample
        next none =>
          cases noSample
          exact ⟨none, rfl⟩
        next => cases noSample
      · right
        obtain ⟨index, member, raised⟩ := forM_eq_error failed
        refine ⟨index, sampledDays_subset isLast (mapError_eq_ok.mp sampled) index member, ?_⟩
        rcases lt_or_ge index panel.times.length with day | outside
        · obtain ⟨history, isHistory, same⟩ := auditDay_honest honest built ascending day
          rw [same] at raised
          cases weighed : strategy.weights history with
          | error found =>
              rw [weighed] at raised
              cases raised
              exact .inr ⟨history, isHistory, weighed⟩
          | ok weights =>
              rw [weighed] at raised
              cases raised
        · rw [auditDay_outside built outside] at raised
          cases raised
          exact .inl ⟨outside, rfl⟩

/-! ## A panel with a late listing -/

def flatBar (day : ℤ) (price : Double) : Bar Double := ⟨day * msPerDay, price, price, price, price⟩

/-- One instrument misses a day, and the other starts on it. -/
def lateRows : Dict String (List (Bar Double)) :=
  [("BTCUSDT", [flatBar 0 100.0, flatBar 2 110.0]), ("ETHUSDT", [flatBar 1 10.0, flatBar 2 12.0])]

def latePanel : Panel Double where
  rows := lateRows
  tradeable := ["BTCUSDT", "ETHUSDT"]
  times := [0, 86400000, 172800000]
  dates := [epoch, ⟨719164, dayAfterEpoch_first, dayAfterEpoch_last⟩, ⟨719165, thirdDay_first, thirdDay_last⟩]
  openTimes := [("BTCUSDT", [0, 172800000]), ("ETHUSDT", [86400000, 172800000])]
  openAt := [("BTCUSDT", [some 100.0, none, some 110.0]), ("ETHUSDT", [none, some 10.0, some 12.0])]

theorem latePanel_built : Panel.build lateRows ["BTCUSDT", "ETHUSDT"] none = .ok latePanel := by
  have times : Panel.timesOf lateRows ["BTCUSDT", "ETHUSDT"] none = [0, 86400000, 172800000] := by
    have ascends : ([0, 86400000, 172800000] : List ℤ).Pairwise (· < ·) := by decide
    refine eq_of_ascending timesOf_none_ascending ascends fun time => ?_
    rw [mem_timesOf_none]
    simp [lateRows, Panel.rowsOf, Dict.get?, flatBar, msPerDay, eq_comm]
    omega
  unfold Panel.build
  rw [times]
  rfl

theorem audit_compares_late_listing :
    (∀ index, index < latePanel.times.length → ∃ cut whole seen, latePanel.truncated index = .ok cut ∧
      History.build latePanel index = .ok whole ∧ History.build cut index = .ok seen ∧
      SameSight seen whole) ∧
    ∀ strategy : StrategyProtocol Double, strategy.Honest → ∀ daysIdx samples failure,
      auditLookahead strategy latePanel daysIdx samples = .error failure →
        (samples = 0 ∧ failure = .number .zeroDivision) ∨
        ∃ index ∈ daysIdx, (latePanel.times.length ≤ index ∧ failure = .engine .index) ∨
          ∃ history, History.build latePanel index = .ok history ∧
            strategy.weights history = .error failure := by
  refine audit_compares_like_with_like latePanel_built ?_
  intro row member
  simp only [lateRows, List.mem_cons, List.not_mem_nil, or_false] at member
  rcases member with rfl | rfl
  · simp [Ascending, flatBar, msPerDay]
  · simp [Ascending, flatBar, msPerDay]

end CryptoRadar.Trend
