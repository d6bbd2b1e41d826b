import CryptoRadar.L2.Ready

/-!
# The average that is used

`compute_l2_features` on a window. Its average of five minutes is that of the end of the run, and is there
exactly when the checks find it ready. For its average of an hour it takes the last fifteen complete hours
of the whole window (`hourly_tail`): when a bar is missing after the first of them, the hours lie before a
gap, and the average is used although it is not ready. Besides, a return of the last whole day that is
infinite ends it in an error. In every other case the averages that are used are those that are ready
(`used_atr_is_ready_iff`).
-/

set_option autoImplicit false

namespace CryptoRadar.L2

open Checked Integrity PyFloat

/-! ## So many bars at the end -/

section Tails

variable {F : Type} {bars : List (Bar F)} {place : Bar F → ℤ} {interval count : ℕ}

/-- `contiguous_tail` gives the end of the bars where so many of them follow each other, else nothing. -/
theorem contiguousTail_cases (count : ℕ) (positive : 0 < interval) (needed : 0 < count)
    (placed : ∀ bar ∈ bars, bar.barTime.micros = place bar * minutes interval) :
    (contiguousTail bars count interval = [] ∧
      ∀ earlier first, bars.map place ≠ earlier ++ slotRun first count) ∨
    ∃ earlier last first, bars = earlier ++ last ∧ last.map place = slotRun first count ∧
      contiguousTail bars count interval = last := by
  by_cases short : bars.length < count
  · refine .inl ⟨if_pos short, ?_⟩
    intro earlier first ends
    have lengths := congrArg List.length ends
    rw [List.length_map, List.length_append, length_slotRun] at lengths
    omega
  have parts : bars.take (bars.length - count) ++ bars.lastN count = bars := List.take_append_drop _ _
  have length : (bars.lastN count).length = count := by
    rw [List.lastN, List.length_drop]
    omega
  have window : contiguousTail bars count interval =
      if isContiguous (bars.lastN count) interval then bars.lastN count else [] := if_neg short
  have follows : isContiguous (bars.lastN count) interval = true ↔
      ∃ first, (bars.lastN count).map place = slotRun first count := by
    cases isLast : bars.lastN count with
    | nil =>
        rw [isLast] at length
        exact absurd needed (length ▸ lt_irrefl 0)
    | cons first rest =>
        have inside : ∀ bar ∈ first :: rest, bar.barTime.micros = place bar * minutes interval := by
          intro bar member
          refine placed bar ?_
          rw [← parts, isLast]
          exact List.mem_append_right _ member
        rw [isLast, List.length_cons] at length
        rw [isContiguous_iff place positive inside, length]
        constructor
        · intro same
          exact ⟨_, same⟩
        · rintro ⟨start, same⟩
          rw [same]
          rw [← length] at same
          rw [(List.cons.inj same).1]
  by_cases contiguous : isContiguous (bars.lastN count) interval = true
  · obtain ⟨first, isRun⟩ := follows.mp contiguous
    exact .inr ⟨_, _, first, parts.symm, isRun, by rw [window, if_pos contiguous]⟩
  · refine .inl ⟨by rw [window, if_neg contiguous], ?_⟩
    intro earlier first ends
    refine contiguous (follows.mpr ⟨first, ?_⟩)
    rw [← parts, List.map_append] at ends
    refine (List.append_inj' ends ?_).2
    rw [List.length_map, length, length_slotRun]

/-- Ascending places end with a run of which all places are there and no later one. -/
theorem ends_iff {places : List ℤ} {among : ℤ → Prop} (ascending : places.Pairwise (· < ·))
    (mem_iff : ∀ place, place ∈ places ↔ among place) (needed : 0 < count) (first : ℤ) :
    (∃ earlier, places = earlier ++ slotRun first count) ↔
      (∀ place ∈ slotRun first count, among place) ∧ ∀ later, first + count ≤ later → ¬ among later := by
  constructor
  · rintro ⟨earlier, rfl⟩
    refine ⟨fun place member => (mem_iff place).mp (List.mem_append_right _ member), ?_⟩
    intro later after isAmong
    rcases List.mem_append.mp ((mem_iff later).mpr isAmong) with before | inside
    · have order := (List.pairwise_append.mp ascending).2.2 later before first
        (by rw [mem_slotRun]; omega)
      omega
    · rw [mem_slotRun] at inside
      omega
  · rintro ⟨present, none⟩
    have starts : first ∈ places := (mem_iff first).mpr (present first (by rw [mem_slotRun]; omega))
    obtain ⟨earlier, rest, rfl⟩ := List.append_of_mem starts
    obtain ⟨_, later, before⟩ := List.pairwise_append.mp ascending
    have holds : ∀ place ∈ slotRun first count, place ∈ first :: rest := by
      intro place member
      refine (List.mem_append.mp ((mem_iff place).mpr (present place member))).resolve_left ?_
      intro inFront
      have order := before place inFront first List.mem_cons_self
      rw [mem_slotRun] at member
      omega
    have run := take_eq_slotRun later holds
    have nothing : (first :: rest).drop count = [] := by
      rw [List.eq_nil_iff_forall_not_mem]
      intro place member
      rw [← List.take_append_drop count (first :: rest), run] at later
      have order := (List.pairwise_append.mp later).2.2 (first + count - 1) (by rw [mem_slotRun]; omega) place member
      refine none place (by omega) ((mem_iff place).mp ?_)
      exact List.mem_append_right _ (List.mem_of_mem_drop member)
    refine ⟨earlier, ?_⟩
    rw [← run]
    have whole := List.take_append_drop count (first :: rest)
    rw [nothing, List.append_nil] at whole
    rw [whole]

end Tails

/-! ## The sums return -/

section Sums

variable {bars group : List (Bar Double)}

theorem period_ne_zero : ((ofCount atrPeriod : Double).value == 0.0) = false := by decide

/-- Enough bars have an average. -/
theorem wilderAtr_isOk (length : bars.length = atrPeriod + 1) :
    ∃ value, wilderAtr bars atrPeriod = .ok (some value) := by
  have count : (trueRangeSeries bars).length = atrPeriod := by
    rw [trueRangeSeries, List.length_map, List.length_zip, List.length_tail, length]
    rfl
  obtain ⟨value, isValue⟩ := Double.divide_isOk
    (sum ((trueRangeSeries bars).take atrPeriod)) period_ne_zero
  refine ⟨value, ?_⟩
  have enough : ¬ (trueRangeSeries bars).length < atrPeriod := by
    rw [count]
    exact lt_irrefl _
  have nothing : (trueRangeSeries bars).drop atrPeriod = [] := List.drop_eq_nil_of_le count.le
  show (if (trueRangeSeries bars).length < atrPeriod then _ else _) = _
  rw [if_neg enough]
  refine bind_eq_ok.mpr ⟨value, isValue, ?_⟩
  rw [nothing]
  rfl

/-- The bar of a group: the first open, the last close, the extremes and the summed volume. -/
structure HourBar (group : List (Bar Double)) (hour : Bar Double) : Prop where
  first : ∃ bar, group.head? = some bar ∧ hour.barTime = bar.barTime ∧ hour.open_ = bar.open_
  last : ∃ bar, group.getLast? = some bar ∧ hour.close = bar.close
  high : maximum (group.map Bar.high) = .ok hour.high
  low : minimum (group.map Bar.low) = .ok hour.low
  volume : hour.volume = sum (group.map Bar.volume)

theorem mergeGroup_isOk (present : group ≠ []) : ∃ hour, mergeGroup group = .ok hour ∧ HourBar group hour := by
  cases group with
  | nil => exact absurd rfl present
  | cons first rest =>
      obtain ⟨vwap, isVwap⟩ := Double.divide_isOk
        (sum ((first :: rest).map fun bar => bar.vwap * bar.volume))
        (Double.larger_tiny_ne_zero (sum ((first :: rest).map Bar.volume)))
      refine ⟨_, bind_eq_ok.mpr ⟨_, rfl, bind_eq_ok.mpr ⟨_, rfl, bind_eq_ok.mpr ⟨vwap, isVwap, rfl⟩⟩⟩, ?_⟩
      have last : rest.getLastD first = rest.getLast?.getD first := List.getLastD_eq_getLast?
      refine ⟨⟨first, rfl, rfl, rfl⟩, ⟨_, List.getLast?_cons, ?_⟩, rfl, rfl, rfl⟩
      rw [← last]

theorem atrAsPct_isOk (atr : Option Double) (price : Double) : ∃ share, atrAsPct atr price = .ok share := by
  cases atr with
  | none => exact ⟨none, rfl⟩
  | some atr =>
      cases above : le price (ofCount 0) with
      | true => exact ⟨none, if_pos above⟩
      | false =>
          obtain ⟨share, isShare⟩ := Double.divide_isOk atr (Double.ne_zero_of_not_le above)
          refine ⟨some (share * ofCount 100), ?_⟩
          show (if le price (ofCount 0) = true then _ else _) = _
          rw [if_neg (by rw [above]; exact Bool.false_ne_true)]
          exact bind_eq_ok.mpr ⟨share, isShare, rfl⟩

theorem normalizeReturnByAtr_isOk (returnPct atrPct : Option Double) :
    ∃ normalized, normalizeReturnByAtr returnPct atrPct = .ok normalized := by
  cases returnPct with
  | none => exact ⟨none, rfl⟩
  | some returnPct =>
      cases atrPct with
      | none => exact ⟨none, rfl⟩
      | some atrPct =>
          cases above : le atrPct (ofCount 0) with
          | true => exact ⟨none, if_pos above⟩
          | false =>
              obtain ⟨share, isShare⟩ := Double.divide_isOk returnPct (Double.ne_zero_of_not_le above)
              refine ⟨some share, ?_⟩
              show (if le atrPct (ofCount 0) = true then _ else _) = _
              rw [if_neg (by rw [above]; exact Bool.false_ne_true)]
              exact bind_eq_ok.mpr ⟨share, isShare, rfl⟩

end Sums

/-! ## The hours of the window -/

section Hours

variable {bars : List (Bar Double)}

/-- The hour that a bar opens in, counted from the epoch. -/
def Bar.hour (bar : Bar Double) : ℤ := bar.barTime.micros / minutes 60

structure IsHourly (group : List (Bar Double)) (bar : Bar Double) : Prop extends HourBar group bar where
  hour : IsHour bar.hour group
  placed : bar.barTime.micros = bar.hour * minutes 60

theorem IsHour.head {group : List (Bar Double)} {hour : ℤ} (isHour : IsHour hour group) :
    12 * hour ∈ group.map Bar.slot := by
  rw [isHour, mem_slotRun]
  omega

/-- The bar that is made of the bars of an hour is the bar of the hour. -/
theorem isHourly_of_mergeGroup {group : List (Bar Double)} {bar : Bar Double} {hour : ℤ}
    (isHour : IsHour hour group)
    (placed : ∀ bar ∈ group, bar.barTime.micros = bar.slot * minutes ohlcIntervalMinutes)
    (made : mergeGroup group = .ok bar) : IsHourly group bar := by
  have present : group ≠ [] := by
    rintro rfl
    cases isHour.head
  obtain ⟨_, isBar, hourBar⟩ := mergeGroup_isOk present
  cases Except.ok.inj (made.symm.trans isBar)
  obtain ⟨first, isFirst, time, _⟩ := hourBar.first
  obtain ⟨rest, rfl⟩ : ∃ rest, group = first :: rest := by
    cases group with
    | nil => cases isFirst
    | cons head rest =>
        cases isFirst
        exact ⟨rest, rfl⟩
  have starts : first.slot = 12 * hour := (List.cons.inj isHour).1
  have micros : bar.barTime.micros = hour * minutes 60 := by
    rw [time, placed first List.mem_cons_self, starts]
    unfold minutes Moment.seconds ohlcIntervalMinutes
    push_cast
    ring
  have same : bar.hour = hour := by
    rw [Bar.hour, micros]
    exact Int.mul_ediv_cancel _ (by decide)
  exact ⟨hourBar, same ▸ isHour, same ▸ micros⟩

/-- The hours of groups that follow each other ascend. -/
theorem hours_ascending {groups : List (List (Bar Double))} {hourly : List (Bar Double)}
    (made : List.Forall₂ IsHourly groups hourly)
    (ascending : (groups.flatten.map Bar.slot).Pairwise (· < ·)) :
    (hourly.map Bar.hour).Pairwise (· < ·) ∧
      ∀ hour ∈ hourly.map Bar.hour, 12 * hour ∈ groups.flatten.map Bar.slot := by
  induction made with
  | nil => exact ⟨.nil, nofun⟩
  | @cons group bar groups hourly isBar _ ih =>
      rw [List.flatten_cons, List.map_append] at ascending ⊢
      obtain ⟨_, later, before⟩ := List.pairwise_append.mp ascending
      obtain ⟨ordered, inside⟩ := ih later
      refine ⟨.cons ?_ ordered, ?_⟩
      · intro hour member
        have order := before _ isBar.hour.head _ (inside hour member)
        omega
      · intro hour member
        rcases List.mem_cons.mp member with rfl | member
        · exact List.mem_append_left _ isBar.hour.head
        · exact List.mem_append_right _ (inside hour member)

/-- What `resample_bars` makes of a window: the bars of all its complete hours, in order. -/
structure Hourly (bars : List (Bar Double)) (groups : List (List (Bar Double))) (hourly : List (Bar Double)) :
    Prop where
  made : List.Forall₂ IsHourly groups hourly
  subset : ∀ group ∈ groups, ∀ bar ∈ group, bar ∈ bars
  placed : ∀ bar ∈ hourly, bar.barTime.micros = bar.hour * minutes 60
  ascending : (hourly.map Bar.hour).Pairwise (· < ·)
  complete : ∀ hour, hour ∈ hourly.map Bar.hour ↔ Complete (bars.map Bar.slot) hour

theorem resampleBars_hourly (onGrid : OnGrid bars) :
    ∃ groups hourly, resampleBars bars atr1hResampleBars = .ok hourly ∧ Hourly bars groups hourly := by
  obtain ⟨hours, parts⟩ := groupsFrom_hours bars.length onGrid
  have subset : ∀ group ∈ groupsFrom bars.length bars, ∀ bar ∈ group, bar ∈ bars := by
    intro group isGroup bar member
    exact parts.subset (List.mem_flatten_of_mem isGroup member)
  have makes : ∀ group ∈ groupsFrom bars.length bars, ∀ bar, mergeGroup group = .ok bar → IsHourly group bar := by
    intro group isGroup bar isBar
    obtain ⟨hour, isHour⟩ := hours group isGroup
    exact isHourly_of_mergeGroup isHour (fun other member => onGrid.grid _ (subset group isGroup other member)) isBar
  obtain ⟨hourly, isHourly⟩ : ∃ hourly, (groupsFrom bars.length bars).mapM mergeGroup = .ok hourly := by
    refine mapM_isOk ?_
    intro group isGroup
    obtain ⟨hour, isHour⟩ := hours group isGroup
    have present : group ≠ [] := by
      rintro rfl
      cases isHour.head
    obtain ⟨bar, isBar, _⟩ := mergeGroup_isOk present
    exact ⟨bar, isBar⟩
  have made : List.Forall₂ IsHourly (groupsFrom bars.length bars) hourly :=
    ((List.forall₂_and_left _ _).mpr ⟨makes, mapM_eq_ok.mp isHourly⟩).imp fun group bar both => both.1 bar both.2
  have ascending := (onGrid.sublist parts).ascending
  refine ⟨_, hourly, by rw [resampleBars, resampleFrom_eq, isHourly], made, subset, ?_,
    (hours_ascending made ascending).1, ?_⟩
  · intro bar member
    obtain ⟨group, isGroup, same⟩ := mem_of_mapM_eq_ok isHourly bar member
    exact (makes group isGroup bar same).placed
  intro hour
  constructor
  · intro member
    obtain ⟨bar, isBar, rfl⟩ := List.mem_map.mp member
    obtain ⟨group, isGroup, same⟩ := mem_of_mapM_eq_ok isHourly bar isBar
    have isHour := (makes group isGroup bar same).hour
    intro slot inside
    rw [← isHour] at inside
    obtain ⟨other, isOther, rfl⟩ := List.mem_map.mp inside
    exact List.mem_map_of_mem (subset group isGroup other isOther)
  · intro complete
    obtain ⟨group, isGroup, isHour⟩ := hour_mem_groupsFrom le_rfl onGrid complete
    obtain ⟨bar, isBar, same⟩ := exists_of_mapM_eq_ok isHourly group isGroup
    have starts : slotRun (12 * bar.hour) 12 = slotRun (12 * hour) 12 :=
      (makes group isGroup bar same).hour.symm.trans isHour
    have sameHour : bar.hour = hour := by
      have first := (List.cons.inj starts).1
      omega
    exact sameHour ▸ List.mem_map_of_mem isBar

end Hours

/-! ## Averages of the window -/

section Averages

variable {series : OhlcSeries} {bars before run : List (Bar Double)} {expected : InstrumentId} {asOf : Moment}
  {start : ℤ}

/-- The average of the last bars of the run. -/
def IsAtr5m (bars : List (Bar Double)) (value : Double) : Prop :=
  ∃ before run start, IsRun bars before run start ∧ atrPeriod + 1 ≤ run.length ∧
    wilderAtr (run.lastN (atrPeriod + 1)) atrPeriod = .ok (some value)

/-- The last hours of the slots, one after the other. -/
def LastHours (slots : List ℤ) (first : ℤ) : Prop :=
  (∀ hour ∈ slotRun first (atrPeriod + 1), Complete slots hour) ∧
    ∀ later, first + (atrPeriod + 1 : ℕ) ≤ later → ¬ Complete slots later

/-- The average of the bars of the last hours of the run. -/
def IsAtr1h (bars : List (Bar Double)) (value : Double) : Prop :=
  ∃ before run start first groups hourly, IsRun bars before run start ∧ LastHours (run.map Bar.slot) first ∧
    List.Forall₂ IsHour (slotRun first (atrPeriod + 1)) groups ∧ (∀ group ∈ groups, ∀ bar ∈ group, bar ∈ run) ∧
    List.Forall₂ HourBar groups hourly ∧ wilderAtr hourly atrPeriod = .ok (some value)

/-- The last hours are there, but a bar is missing between them and the latest one, or among them. -/
def HoursBeforeGap (bars : List (Bar Double)) : Prop :=
  ∃ first, LastHours (bars.map Bar.slot) first ∧
    ∃ missing latest, 12 * first ≤ missing ∧ missing < latest ∧ latest ∈ bars.map Bar.slot ∧
      missing ∉ bars.map Bar.slot

/-- Two bars in a row are of closes whose return is not finite. -/
def HasInfiniteReturn (day : List (Bar Double)) : Prop :=
  ∃ pair ∈ day.zip day.tail, ∃ share, divide pair.2.close pair.1.close = .ok share ∧
    isFinite ((share - ofCount 1) * ofCount 100) = false

/-- A return of the last 288 bars is not finite; none of them is missing. -/
def InfiniteReturn (bars : List (Bar Double)) : Prop :=
  HasInfiniteReturn (contiguousTail bars structure24hBars ohlcIntervalMinutes)

/-- The averages that the features use are those that the checks find ready. -/
def UsesReadyAtr [Zones] (series : OhlcSeries) (bars : List (Bar Double)) (expected : InstrumentId) (currentLast : Double)
    (l1 : L1Returns Double) (asOf : Moment) : Prop :=
  ∃ features m5 h1, computeL2Features bars currentLast l1 asOf = .ok features ∧
    evaluateAtr (some series) expected (.utc asOf) .m5 oc1Policy = .ok m5 ∧
    evaluateAtr (some series) expected (.utc asOf) .h1 oc1Policy = .ok h1 ∧
    (features.atr5m.isSome ↔ m5.status = .pass) ∧ (features.atr1h.isSome ↔ h1.status = .pass) ∧
    (∀ value, features.atr5m = some value → IsAtr5m bars value) ∧
    ∀ value, features.atr1h = some value → IsAtr1h bars value

theorem tailAtr_of_contiguous {interval : ℕ} {last : List (Bar Double)} (length : last.length = atrPeriod + 1)
    (tail : contiguousTail bars (atrPeriod + 1) interval = last) :
    ∃ value, tailAtr bars interval = .ok (some value) ∧ wilderAtr last atrPeriod = .ok (some value) := by
  obtain ⟨value, isValue⟩ := wilderAtr_isOk length
  refine ⟨value, ?_, isValue⟩
  rw [tailAtr, tail]
  cases last with
  | nil => cases length
  | cons => exact isValue

/-- The average of five minutes is there when the run is long enough. -/
theorem IsRun.atr5m (isRun : IsRun bars before run start) (onGrid : OnGrid bars) :
    (∃ value, tailAtr bars ohlcIntervalMinutes = .ok (some value) ∧ atrPeriod + 1 ≤ run.length ∧
        IsAtr5m bars value) ∨
      (tailAtr bars ohlcIntervalMinutes = .ok none ∧ run.length < atrPeriod + 1) := by
  rcases contiguousTail_cases (atrPeriod + 1) (show 0 < ohlcIntervalMinutes by decide) (Nat.succ_pos _)
    onGrid.grid with ⟨nothing, none⟩ | ⟨earlier, last, first, parts, follows, tail⟩
  · refine .inr ⟨by rw [tailAtr, nothing]; rfl, ?_⟩
    by_contra enough
    obtain ⟨slots, whole⟩ := isRun.lastN (not_lt.mp enough)
    refine none ((before ++ run.take (run.length - (atrPeriod + 1))).map Bar.slot)
      (start + run.length - (atrPeriod + 1 : ℕ)) ?_
    rw [← slots, ← List.map_append, ← whole]
  · have length : last.length = atrPeriod + 1 := by
      have lengths := congrArg List.length follows
      rw [List.length_map, length_slotRun] at lengths
      exact lengths
    have ends : bars.map Bar.slot = earlier.map Bar.slot ++ slotRun first (atrPeriod + 1) := by
      rw [parts, List.map_append, follows]
    have covered := isRun.covers (Nat.succ_pos atrPeriod) ends
    have enough : atrPeriod + 1 ≤ run.length := by
      have low := covered.1
      have high := covered.2
      omega
    have isLast : last = run.lastN (atrPeriod + 1) := by
      have whole := (isRun.lastN enough).2
      rw [parts] at whole
      refine (List.append_inj' whole ?_).2
      rw [length, List.lastN, List.length_drop]
      omega
    obtain ⟨value, used, isValue⟩ := tailAtr_of_contiguous length tail
    exact .inl ⟨value, used, enough, before, run, start, isRun, enough, isLast ▸ isValue⟩

/-- The average of an hour is there when the last hours of the window follow each other. -/
theorem Hourly.atr1h {groups : List (List (Bar Double))} {hourly : List (Bar Double)}
    (isHourly : Hourly bars groups hourly) :
    (∃ value first last lastGroups, tailAtr hourly 60 = .ok (some value) ∧ LastHours (bars.map Bar.slot) first ∧
        List.Forall₂ IsHour (slotRun first (atrPeriod + 1)) lastGroups ∧
        (∀ group ∈ lastGroups, ∀ bar ∈ group, bar ∈ bars) ∧ List.Forall₂ HourBar lastGroups last ∧
        wilderAtr last atrPeriod = .ok (some value)) ∨
      (tailAtr hourly 60 = .ok none ∧ ∀ first, ¬ LastHours (bars.map Bar.slot) first) := by
  have ends := ends_iff isHourly.ascending isHourly.complete (Nat.succ_pos atrPeriod)
  rcases contiguousTail_cases (atrPeriod + 1) (show 0 < 60 by decide) (Nat.succ_pos _) isHourly.placed with
    ⟨nothing, none⟩ | ⟨earlier, last, first, parts, follows, tail⟩
  · refine .inr ⟨by rw [tailAtr, nothing]; rfl, ?_⟩
    intro first isLast
    obtain ⟨earlier, whole⟩ := (ends first).mpr isLast
    exact none earlier first whole
  · have length : last.length = atrPeriod + 1 := by
      have lengths := congrArg List.length follows
      rw [List.length_map, length_slotRun] at lengths
      exact lengths
    have isLast := (ends first).mp ⟨earlier.map Bar.hour, by rw [parts, List.map_append, follows]⟩
    have made : List.Forall₂ IsHourly (groups.drop earlier.length) last := by
      have rest := List.forall₂_drop earlier.length isHourly.made
      rwa [parts, List.drop_left] at rest
    obtain ⟨value, used, isValue⟩ := tailAtr_of_contiguous length tail
    refine .inl ⟨value, first, last, groups.drop earlier.length, used, isLast, ?_, ?_, ?_, isValue⟩
    · rw [← follows, List.forall₂_map_left_iff]
      exact made.flip.imp fun bar group isBar => isBar.hour
    · intro group member
      exact isHourly.subset group (List.mem_of_mem_drop member)
    · exact made.imp fun group bar isBar => isBar.toHourBar

theorem Window.closedBarsAsOf [Zones] (window : Window series bars expected asOf) :
    closedBarsAsOf bars asOf ohlcIntervalMinutes = .ok bars := by
  refine filterM_eq_self ?_
  intro bar member
  obtain ⟨close, isClose, seen⟩ := window.closes member
  refine bind_eq_ok.mpr ⟨close, require_eq_ok.mpr isClose, ?_⟩
  rw [decide_eq_true seen]
  rfl

/-- The sums return with these averages. -/
theorem atrFeatures_isOk {atr5m atr1h : Option Double} {hourly : List (Bar Double)}
    (is5m : tailAtr bars ohlcIntervalMinutes = .ok atr5m)
    (isHourly : resampleBars bars atr1hResampleBars = .ok hourly) (is1h : tailAtr hourly 60 = .ok atr1h)
    (flags : List String) (currentLast : Double) (l1 : L1Returns Double) :
    ∃ features, atrFeatures bars flags currentLast l1 = .ok features ∧ features.atr5m = atr5m ∧
      features.atr1h = atr1h := by
  obtain ⟨share5m, isShare5m⟩ := atrAsPct_isOk atr5m currentLast
  obtain ⟨share1h, isShare1h⟩ := atrAsPct_isOk atr1h currentLast
  obtain ⟨return5m, isReturn5m⟩ := normalizeReturnByAtr_isOk l1.return5mPct share5m
  obtain ⟨return15m, isReturn15m⟩ := normalizeReturnByAtr_isOk l1.return15mPct share5m
  obtain ⟨return1h, isReturn1h⟩ := normalizeReturnByAtr_isOk l1.return1hPct share1h
  obtain ⟨return4h, isReturn4h⟩ := normalizeReturnByAtr_isOk l1.return4hPct share1h
  unfold atrFeatures
  simp only [is5m, isHourly, is1h, isShare5m, isShare1h, isReturn5m, isReturn15m, isReturn1h, isReturn4h,
    bind, Except.bind]
  exact ⟨_, rfl, rfl, rfl⟩

/-- Of positive closes every return is there. -/
theorem closeReturns_isOk {closes : List Double}
    (positive : ∀ close ∈ closes, lt (ofCount 0) close = true) :
    ∃ returns, closeReturns closes = .ok returns ∧
      List.Forall₂ (fun pair result => ∃ share, divide pair.2 pair.1 = .ok share ∧
        result = (share - ofCount 1) * ofCount 100) (closes.zip closes.tail) returns := by
  have kept : ((closes.zip closes.tail).filter fun pair => lt (ofCount 0) pair.1) =
      closes.zip closes.tail :=
    List.filter_eq_self.mpr fun pair member => positive pair.1 (List.of_mem_zip member).1
  have turns : ∀ pair ∈ closes.zip closes.tail, ∃ result : Double, (do
      let share ← divide pair.2 pair.1
      return (share - ofCount 1) * ofCount 100 : Except NumberError Double) = .ok result := by
    intro pair member
    obtain ⟨share, isShare⟩ := Double.divide_isOk pair.2
      (Double.ne_zero_of_lt (positive pair.1 (List.of_mem_zip member).1))
    exact ⟨_, bind_eq_ok.mpr ⟨share, isShare, rfl⟩⟩
  obtain ⟨returns, made⟩ := mapM_isOk turns
  refine ⟨returns, (congrArg (List.mapM _) kept).trans made, ?_⟩
  refine (mapM_eq_ok.mp made).imp ?_
  intro pair result turned
  obtain ⟨share, isShare, same⟩ := bind_eq_ok.mp turned
  exact ⟨share, isShare, (Except.ok.inj same).symm⟩

/-- Over a day of valid bars, the volatility raises for an infinite return only. -/
theorem realizedVolatility_cases {day : List (Bar Double)} (enough : 3 ≤ day.length)
    (positive : ∀ bar ∈ day, lt (ofCount 0) bar.close = true) :
    (HasInfiniteReturn day ∧ realizedVolatility day day.length = .error .attribute) ∨
      (¬ HasInfiniteReturn day ∧ realizedVolatility day day.length = .ok ()) := by
  have all : (day.map Bar.close).lastN (day.length + 1) = day.map Bar.close := by
    rw [List.lastN, List.length_map, Nat.sub_eq_zero_of_le (Nat.le_succ _), List.drop_zero]
  obtain ⟨returns, isReturns, each⟩ := closeReturns_isOk (List.forall_mem_map.mpr positive)
  have pairs : (day.map Bar.close).zip (day.map Bar.close).tail =
      (day.zip day.tail).map (Prod.map Bar.close Bar.close) := by
    rw [← List.map_tail, List.zip_map]
  rw [pairs, List.forall₂_map_left_iff] at each
  have count : ¬ returns.length < 2 := by
    have lengths := each.length_eq
    rw [List.length_zip, List.length_tail] at lengths
    omega
  have infinite : ¬ returns.all isFinite = true ↔ HasInfiniteReturn day := by
    rw [List.all_eq_true]
    push Not
    constructor
    · rintro ⟨result, member, notFinite⟩
      obtain ⟨pair, isPair, share, isShare, rfl⟩ := mem_of_forall₂ each result member
      exact ⟨pair, isPair, share, isShare, Bool.eq_false_iff.mpr notFinite⟩
    · rintro ⟨pair, isPair, share, isShare, notFinite⟩
      obtain ⟨result, member, other, isOther, rfl⟩ := mem_of_forall₂ each.flip pair isPair
      cases Except.ok.inj (isShare.symm.trans isOther)
      exact ⟨_, member, Bool.eq_false_iff.mp notFinite⟩
  have checked : realizedVolatility day day.length = ensure (returns.all isFinite) .attribute := by
    unfold realizedVolatility
    simp only [all, List.length_map, if_neg (not_lt.mpr enough), isReturns, Except.mapError, bind, Except.bind,
      if_neg count]
  rw [checked, ← infinite]
  by_cases finite : returns.all isFinite = true
  · exact .inr ⟨not_not.mpr finite, if_pos finite⟩
  · exact .inl ⟨finite, if_neg finite⟩

/-- On a window the features have these averages, unless a return of the day is infinite. -/
theorem Window.features [Zones] (window : Window series bars expected asOf) {atr5m atr1h : Option Double}
    {hourly : List (Bar Double)} (is5m : tailAtr bars ohlcIntervalMinutes = .ok atr5m)
    (isHourly : resampleBars bars atr1hResampleBars = .ok hourly) (is1h : tailAtr hourly 60 = .ok atr1h)
    (currentLast : Double) (l1 : L1Returns Double) :
    ∃ features, ((InfiniteReturn bars ∧ computeL2Features bars currentLast l1 asOf = .error .attribute) ∨
        (¬ InfiniteReturn bars ∧ computeL2Features bars currentLast l1 asOf = .ok features)) ∧
      features.atr5m = atr5m ∧ features.atr1h = atr1h := by
  obtain ⟨features, isFeatures, same⟩ := atrFeatures_isOk is5m isHourly is1h [] currentLast l1
  refine ⟨features, ?_, same⟩
  have computed : computeL2Features bars currentLast l1 asOf =
      (let day := contiguousTail bars structure24hBars ohlcIntervalMinutes
      if day.isEmpty then .ok features
      else (realizedVolatility day day.length).map fun _ => features) := by
    unfold computeL2Features
    simp only [window.closedBarsAsOf, bind, Except.bind, if_neg (not_lt.mpr window.enough), ne_eq,
      not_true_eq_false, if_false, isFeatures, Except.mapError]
    rfl
  rw [computed]
  unfold InfiniteReturn
  rcases contiguousTail_cases structure24hBars (show 0 < ohlcIntervalMinutes by decide) (by decide)
    window.onGrid.grid with ⟨nothing, _⟩ | ⟨earlier, last, first, parts, follows, tail⟩
  · rw [nothing]
    refine .inr ⟨?_, rfl⟩
    rintro ⟨_, member, _⟩
    cases member
  · have length : last.length = structure24hBars := by
      have lengths := congrArg List.length follows
      rwa [List.length_map, length_slotRun] at lengths
    have enough : 3 ≤ last.length := by
      rw [length]
      decide
    have positive : ∀ bar ∈ last, lt (ofCount 0) bar.close = true := by
      intro bar member
      have valid := window.valid bar (by rw [parts]; exact List.mem_append_right _ member)
      exact Double.lt_of_toRat_pos (valid.finite _ (by simp)) (valid.positive _ (by simp))
    have present : last.isEmpty = false := by
      cases last with
      | nil => cases length
      | cons => rfl
    dsimp only
    rw [tail, present]
    rcases realizedVolatility_cases enough positive with ⟨infinite, raised⟩ | ⟨finite, returned⟩
    · exact .inl ⟨infinite, by rw [raised]; rfl⟩
    · exact .inr ⟨finite, by rw [returned]; rfl⟩

/-! ### Ready and used -/

/-- The run has as many whole hours, one after the other. -/
def RunHasHours (run : List (Bar Double)) (start : ℤ) : Prop :=
  ∃ first : ℤ, start ≤ 12 * first ∧ 12 * (first + (atrPeriod + 1 : ℕ)) ≤ start + run.length

theorem LastHours.unique {slots : List ℤ} {first second : ℤ} (isFirst : LastHours slots first)
    (isSecond : LastHours slots second) : first = second := by
  have period : ((atrPeriod + 1 : ℕ) : ℤ) = 15 := rfl
  have atMost : ∀ {first second : ℤ}, LastHours slots first → LastHours slots second → first ≤ second := by
    intro first second isFirst isSecond
    by_contra above
    refine isSecond.2 (first + 14) (by rw [period]; omega) (isFirst.1 _ ?_)
    rw [mem_slotRun, period]
    omega
  exact le_antisymm (atMost isFirst isSecond) (atMost isSecond isFirst)

theorem IsRun.complete_iff (isRun : IsRun bars before run start) {hour : ℤ} (after : start ≤ 12 * hour) :
    Complete (bars.map Bar.slot) hour ↔ 12 * hour + 12 ≤ start + run.length := by
  constructor
  · intro complete
    have last := isRun.le_last (complete (12 * hour + 11) (by rw [mem_slotRun]; omega))
    omega
  · intro inside slot member
    rw [mem_slotRun] at member
    exact (isRun.mem_iff (by omega)).mpr (by omega)

/-- Hours of the run are among the last hours of the window. -/
theorem IsRun.lastHours_of_runHasHours (isRun : IsRun bars before run start) (has : RunHasHours run start) :
    ∃ first, start ≤ 12 * first ∧ LastHours (bars.map Bar.slot) first := by
  obtain ⟨some, starts, ends⟩ := has
  have period : ((atrPeriod + 1 : ℕ) : ℤ) = 15 := rfl
  refine ⟨(start + run.length) / 12 - 15, by omega, ?_, ?_⟩
  · intro hour member
    rw [mem_slotRun, period] at member
    exact (isRun.complete_iff (by omega)).mpr (by omega)
  · intro later after complete
    rw [period] at after
    have inside := (isRun.complete_iff (by omega)).mp complete
    omega

/-- The last hours of the window are those of its run, unless they start before it. -/
theorem IsRun.runHasHours_iff (isRun : IsRun bars before run start) {first : ℤ}
    (isLast : LastHours (bars.map Bar.slot) first) : RunHasHours run start ↔ start ≤ 12 * first := by
  have period : ((atrPeriod + 1 : ℕ) : ℤ) = 15 := rfl
  constructor
  · rintro ⟨some, starts, ends⟩
    rw [period] at ends
    by_contra early
    refine isLast.2 (some + 14) ?_ ((isRun.complete_iff (by omega)).mpr (by omega))
    rw [period]
    by_contra late
    omega
  · intro after
    have complete := isLast.1 (first + 14) (by rw [mem_slotRun, period]; omega)
    have inside := (isRun.complete_iff (by omega)).mp complete
    exact ⟨first, after, by rw [period]; omega⟩

/-- The last hours start before the run exactly when a bar is missing after the first of them starts. -/
theorem IsRun.gap_iff (isRun : IsRun bars before run start) (first : ℤ) :
    (∃ missing latest, 12 * first ≤ missing ∧ missing < latest ∧ latest ∈ bars.map Bar.slot ∧
      missing ∉ bars.map Bar.slot) ↔ 12 * first < start := by
  have positive := isRun.positive
  constructor
  · rintro ⟨missing, latest, after, order, isLatest, isMissing⟩
    by_contra inside
    have last := isRun.le_last isLatest
    exact isMissing ((isRun.mem_iff (by omega)).mpr (by omega))
  · intro early
    refine ⟨start - 1, start, by omega, by omega, (isRun.mem_iff (by omega)).mpr (by omega), ?_⟩
    intro member
    have inside := ((isRun.mem_iff le_rfl).mp member).1
    omega

/-- The average of the last hours of the window is one of its run, when they are. -/
theorem IsRun.isAtr1h (isRun : IsRun bars before run start) {value : Double} {first : ℤ}
    {last : List (Bar Double)} {groups : List (List (Bar Double))} (after : start ≤ 12 * first)
    (isLast : LastHours (bars.map Bar.slot) first)
    (hours : List.Forall₂ IsHour (slotRun first (atrPeriod + 1)) groups)
    (subset : ∀ group ∈ groups, ∀ bar ∈ group, bar ∈ bars) (made : List.Forall₂ HourBar groups last)
    (isValue : wilderAtr last atrPeriod = .ok (some value)) : IsAtr1h bars value := by
  refine ⟨before, run, start, first, groups, last, isRun, ⟨?_, ?_⟩, hours, ?_, made, isValue⟩
  · intro hour member slot inside
    rw [mem_slotRun] at inside
    have complete := isLast.1 hour member slot (by rw [mem_slotRun]; exact inside)
    rw [mem_slotRun] at member
    rw [isRun.slots, mem_slotRun]
    exact (isRun.mem_iff (by omega)).mp complete
  · intro later after complete
    refine isLast.2 later after ?_
    intro slot inside
    rw [isRun.parts, List.map_append]
    exact List.mem_append_right _ (complete slot inside)
  · intro group isGroup bar member
    obtain ⟨hour, isHour, late⟩ : ∃ hour, IsHour hour group ∧ first ≤ hour := by
      obtain ⟨hour, inRun, isHour⟩ := mem_of_forall₂ hours group isGroup
      exact ⟨hour, isHour, (mem_slotRun.mp inRun).1⟩
    have slots : bar.slot ∈ slotRun (12 * hour) 12 := isHour ▸ List.mem_map_of_mem member
    rw [mem_slotRun] at slots
    have whole := subset group isGroup bar member
    rw [isRun.parts, List.mem_append] at whole
    refine whole.resolve_left ?_
    intro early
    have below := isRun.gap bar early
    omega

/-- The run has whole hours enough when the window has, and no bar is missing after the first of them. -/
theorem IsRun.runHasHours_iff_noGap (isRun : IsRun bars before run start) :
    RunHasHours run start ↔ (∃ first, LastHours (bars.map Bar.slot) first) ∧ ¬ HoursBeforeGap bars := by
  constructor
  · intro has
    obtain ⟨first, after, isLast⟩ := isRun.lastHours_of_runHasHours has
    refine ⟨⟨first, isLast⟩, ?_⟩
    rintro ⟨other, isOther, gap⟩
    obtain rfl := isOther.unique isLast
    exact absurd after (not_le.mpr ((isRun.gap_iff other).mp gap))
  · rintro ⟨⟨first, isLast⟩, noGap⟩
    refine (isRun.runHasHours_iff isLast).mpr (not_lt.mp ?_)
    intro early
    exact noGap ⟨first, isLast, (isRun.gap_iff first).mpr early⟩

/-- What the checks and the features say of a window. -/
theorem Window.averages [Zones] (window : Window series bars expected asOf) (currentLast : Double)
    (l1 : L1Returns Double) :
    ∃ features m5 h1, ((InfiniteReturn bars ∧ computeL2Features bars currentLast l1 asOf = .error .attribute) ∨
        (¬ InfiniteReturn bars ∧ computeL2Features bars currentLast l1 asOf = .ok features)) ∧
      evaluateAtr (some series) expected (.utc asOf) .m5 oc1Policy = .ok m5 ∧
      evaluateAtr (some series) expected (.utc asOf) .h1 oc1Policy = .ok h1 ∧
      ((features.atr5m.isSome ↔ m5.status = .pass) ∧
        ∀ value, features.atr5m = some value → IsAtr5m bars value) ∧
      (features.atr1h.isSome ↔ ∃ first, LastHours (bars.map Bar.slot) first) ∧
      (h1.status = .pass ↔ (∃ first, LastHours (bars.map Bar.slot) first) ∧ ¬ HoursBeforeGap bars) ∧
      (h1.status = .pass → ∀ value, features.atr1h = some value → IsAtr1h bars value) := by
  obtain ⟨before, run, start, isRun, walked⟩ :=
    contiguousTail_eq_run window.isInterval window.bars_ne_nil window.onGrid
  obtain ⟨m5, isM5, pass5⟩ := window.evaluateAtr_iff isRun walked .m5 Nat.one_pos (by decide) (by decide)
  obtain ⟨h1, isH1, pass1⟩ := window.evaluateAtr_iff isRun walked .h1 (show 0 < 12 by decide) (by decide)
    (by decide)
  obtain ⟨groups, hourly, isHourly, madeHourly⟩ := resampleBars_hourly window.onGrid
  have ready1 : h1.status = .pass ↔ RunHasHours run start := pass1
  have right5 : ∃ atr5m, tailAtr bars ohlcIntervalMinutes = .ok atr5m ∧ (atr5m.isSome ↔ m5.status = .pass) ∧
      ∀ value, atr5m = some value → IsAtr5m bars value := by
    have ready : m5.status = .pass ↔ atrPeriod + 1 ≤ run.length := by
      rw [pass5]
      constructor
      · rintro ⟨first, starts, ends⟩
        push_cast at starts ends
        omega
      · intro enough
        exact ⟨start, by push_cast; omega, by push_cast; omega⟩
    rw [ready]
    rcases isRun.atr5m window.onGrid with ⟨value, used, enough, isAtr⟩ | ⟨none, short⟩
    · refine ⟨some value, used, iff_of_true rfl enough, ?_⟩
      rintro _ ⟨⟩
      exact isAtr
    · exact ⟨_, none, iff_of_false Bool.false_ne_true (not_le.mpr short), nofun⟩
  obtain ⟨atr5m, is5m, right5⟩ := right5
  have right1 : ∃ atr1h, tailAtr hourly 60 = .ok atr1h ∧
      (atr1h.isSome ↔ ∃ first, LastHours (bars.map Bar.slot) first) ∧
      (h1.status = .pass → ∀ value, atr1h = some value → IsAtr1h bars value) := by
    rcases madeHourly.atr1h with
      ⟨value, first, last, lastGroups, used, isLast, hours, subset, made, isValue⟩ | ⟨none, noHours⟩
    · refine ⟨some value, used, iff_of_true rfl ⟨first, isLast⟩, ?_⟩
      rintro ready _ ⟨⟩
      have after := (isRun.runHasHours_iff isLast).mp (ready1.mp ready)
      exact isRun.isAtr1h after isLast hours subset made isValue
    · exact ⟨_, none, iff_of_false Bool.false_ne_true fun ⟨first, isLast⟩ => noHours first isLast, fun _ => nofun⟩
  obtain ⟨atr1h, is1h, right1⟩ := right1
  obtain ⟨features, isFeatures, same5, same1⟩ := window.features is5m isHourly is1h currentLast l1
  subst same5 same1
  exact ⟨features, m5, h1, isFeatures, isM5, isH1, right5, right1.1, ready1.trans isRun.runHasHours_iff_noGap, right1.2⟩

/-- Hours before a gap are used although they are not ready. -/
theorem not_usesReadyAtr_of_gap [Zones] (window : Window series bars expected asOf) (currentLast : Double)
    (l1 : L1Returns Double) (gap : HoursBeforeGap bars) :
    ¬ UsesReadyAtr series bars expected currentLast l1 asOf := by
  obtain ⟨features, m5, h1, isFeatures, _, isH1, _, used, ready, _⟩ := window.averages currentLast l1
  rintro ⟨_, _, _, isFound, _, isJudged, _, used1, _⟩
  rcases isFeatures with ⟨_, raised⟩ | ⟨_, isFeatures⟩
  · cases raised.symm.trans isFound
  · cases Except.ok.inj (isFeatures.symm.trans isFound)
    cases Except.ok.inj (isH1.symm.trans isJudged)
    have hours : ∃ first, LastHours (bars.map Bar.slot) first := gap.imp fun _ both => both.1
    exact (ready.mp (used1.mp (used.mpr hours))).2 gap

/-- **The averages that are used are those that are ready**, and are made of the last bars and hours of the
run, exactly when the last fifteen hours of the window do not start before a gap and no return of its last
whole day is infinite. -/
theorem used_atr_is_ready_iff [Zones] (window : Window series bars expected asOf) (currentLast : Double)
    (l1 : L1Returns Double) :
    UsesReadyAtr series bars expected currentLast l1 asOf ↔ ¬ HoursBeforeGap bars ∧ ¬ InfiniteReturn bars := by
  constructor
  · intro used
    refine ⟨fun gap => not_usesReadyAtr_of_gap window currentLast l1 gap used, fun infinite => ?_⟩
    obtain ⟨_, _, _, isFeatures, _⟩ := window.averages currentLast l1
    obtain ⟨_, _, _, isFound, _⟩ := used
    rcases isFeatures with ⟨_, raised⟩ | ⟨finite, _⟩
    · cases raised.symm.trans isFound
    · exact finite infinite
  · rintro ⟨noGap, finite⟩
    obtain ⟨features, m5, h1, isFeatures, isM5, isH1, right5, used, ready, isAtr1h⟩ :=
      window.averages currentLast l1
    have same : features.atr1h.isSome ↔ h1.status = .pass := by
      rw [used, ready]
      exact (and_iff_left noGap).symm
    obtain ⟨_, isFeatures⟩ := isFeatures.resolve_left fun raised => finite raised.1
    refine ⟨features, m5, h1, isFeatures, isM5, isH1, right5.1, same, right5.2, ?_⟩
    intro value isValue
    exact isAtr1h (same.mp (by rw [isValue]; rfl)) value isValue

end Averages

/-! ## Flat windows -/

section Flat

/-- A bar of one price in a slot of the first month. -/
def flatBar (slot : Fin 8000) : Bar Double where
  barTime := ⟨(slot : ℕ) * 300000000, by
    have below := slot.isLt
    unfold Moment.least Moment.greatest
    omega⟩
  open_ := 100.0
  high := 100.0
  low := 100.0
  close := 100.0
  vwap := 100.0
  volume := 1.0
  trades := 1

@[simp] theorem flatBar_slot (slot : Fin 8000) : (flatBar slot).slot = (slot : ℕ) := by
  show ((slot : ℕ) * 300000000 : ℤ) / (60 * 5 * 1000000) = _
  omega

def flatInstrument : InstrumentId := ⟨"kraken", "XBT/USD", .spot, "XBT", "USD", "XBT"⟩

def flatTime (slot : Fin 8000) : Moment := (flatBar slot).barTime

def flatSeries (slots : List (Fin 8000)) (received : Moment) : OhlcSeries where
  instrument := flatInstrument
  interval := oc1Policy.ohlcInterval
  bars := (slots.map flatBar).map Bar.observed
  priceUnit := "USD"
  volumeUnit := "XBT"
  timing := ⟨.aware (.utc received), none⟩

theorem flatBar_valid (slot : Fin 8000) : Valid (flatBar slot) where
  finite := by
    have price : isFinite (100.0 : Double) = true := by decide +kernel
    have volume : isFinite (1.0 : Double) = true := by decide +kernel
    intro number member
    simp only [flatBar, List.mem_cons, List.not_mem_nil, or_false] at member
    rcases member with rfl | rfl | rfl | rfl | rfl
    · exact price
    · exact price
    · exact price
    · exact price
    · exact volume
  positive := by
    have price : 0 < (100.0 : Double).toRat := by decide +kernel
    intro number member
    simp only [flatBar, List.mem_cons, List.not_mem_nil, or_false, or_self] at member
    rw [member]
    exact price
  coherent := ⟨le_min le_rfl le_rfl, max_le le_rfl le_rfl⟩
  volume := by
    have volume : 0 ≤ (1.0 : Double).toRat := by decide +kernel
    exact volume

/-- Ascending flat bars, looked at when the last one closes. -/
theorem flatBar_placed (slot : Fin 8000) :
    (flatBar slot).barTime.micros = (flatBar slot).slot * minutes ohlcIntervalMinutes := by
  rw [flatBar_slot]
  rfl

theorem flat_window [Zones] {slots : List (Fin 8000)} {last close : Fin 8000} (ascending : slots.Pairwise (· < ·))
    (enough : l2MinBars ≤ slots.length) (isLast : slots.getLast? = some last) (closes : (close : ℕ) = last + 1) :
    Window (flatSeries slots (flatTime close)) (slots.map flatBar) flatInstrument (flatTime close) := by
  have atMost : ∀ slot ∈ slots, slot ≤ last := by
    obtain ⟨init, rfl⟩ := List.getLast?_eq_some_iff.mp isLast
    intro slot member
    rcases List.mem_append.mp member with early | same
    · exact ((List.pairwise_append.mp ascending).2.2 slot early last (List.mem_singleton_self _)).le
    · exact (List.mem_singleton.mp same).le
  have micros : ∀ slot : Fin 8000, (flatBar slot).barTime.micros = (slot : ℕ) * 300000000 := fun _ => rfl
  have unit : minutes ohlcIntervalMinutes = 300000000 := rfl
  refine ⟨rfl, rfl, rfl, rfl, rfl, by simp [flatSeries], ⟨.utc (flatTime close), rfl, ?_, ?_⟩, ⟨?_, ?_⟩,
    ?_, ?_, ?_⟩
  · rw [ZonedTime.instant_utc]
  · rw [List.forall_mem_map]
    intro slot member
    have order : (slot : ℕ) ≤ last := atMost slot member
    rw [ZonedTime.instant_utc, flatTime, micros, micros, unit]
    omega
  · rw [List.forall_mem_map]
    exact fun slot _ => flatBar_placed slot
  · rw [List.map_map, List.pairwise_map]
    refine ascending.imp ?_
    intro first second below
    simp only [Function.comp_apply, flatBar_slot]
    exact_mod_cast below
  · rw [List.forall_mem_map]
    exact fun slot _ => flatBar_valid slot
  · rw [List.length_map]
    exact enough
  · intro bar isBar
    rw [List.getLast?_map, isLast] at isBar
    cases isBar
    have limit : oc1Policy.ohlcLastCloseMaxAge.micros = 360000000 := rfl
    rw [flatTime, micros, micros, unit, limit]
    omega

/-- The first slots, and others after them. -/
def flatSlots (later : List (Fin 8000)) : List (Fin 8000) :=
  (List.finRange 181).map (Fin.castLE (by decide)) ++ later

theorem mem_flatSlots {later : List (Fin 8000)} {slot : ℤ} :
    slot ∈ ((flatSlots later).map flatBar).map Bar.slot ↔
      (0 ≤ slot ∧ slot < 181) ∨ ∃ other ∈ later, slot = ((other : ℕ) : ℤ) := by
  rw [flatSlots, List.map_map, List.map_append, List.mem_append, List.map_map]
  refine or_congr ?_ ?_
  · constructor
    · intro member
      obtain ⟨index, _, rfl⟩ := List.mem_map.mp member
      have below := index.isLt
      simp only [Function.comp_apply, flatBar_slot, Fin.val_castLE]
      omega
    · rintro ⟨nonneg, below⟩
      refine List.mem_map.mpr ⟨⟨slot.toNat, by omega⟩, List.mem_finRange _, ?_⟩
      simp only [Function.comp_apply, flatBar_slot, Fin.val_castLE]
      omega
  · simp [eq_comm]

theorem flatSlots_ascending {later : List (Fin 8000)} (ascending : later.Pairwise (· < ·))
    (after : ∀ slot ∈ later, 181 ≤ (slot : ℕ)) : (flatSlots later).Pairwise (· < ·) := by
  refine List.pairwise_append.mpr ⟨?_, ascending, ?_⟩
  · rw [List.pairwise_map]
    exact (List.pairwise_lt_finRange 181).imp fun below => below
  · intro first isFirst second isSecond
    obtain ⟨index, _, rfl⟩ := List.mem_map.mp isFirst
    have below := index.isLt
    have order := after second isSecond
    show (index : ℕ) < (second : ℕ)
    omega

/-- Fifteen hours, a bar and a last one. -/
theorem flatSlots_window [Zones] {last close : Fin 8000} (after : 181 ≤ (last : ℕ)) (closes : (close : ℕ) = last + 1) :
    Window (flatSeries (flatSlots [last]) (flatTime close)) ((flatSlots [last]).map flatBar) flatInstrument
      (flatTime close) := by
  refine flat_window (flatSlots_ascending (List.pairwise_singleton _ _) ?_) ?_ List.getLast?_concat closes
  · rw [List.forall_mem_singleton]
    exact after
  · rw [flatSlots, List.length_append, List.length_map, List.length_finRange, List.length_singleton]
    decide

/-- A bar is missing before the last one. -/
theorem flatSlots_gap : HoursBeforeGap ((flatSlots [182]).map flatBar) := by
  have period : ((atrPeriod + 1 : ℕ) : ℤ) = 15 := rfl
  have member : ∀ slot : ℤ, slot ∈ ((flatSlots [182]).map flatBar).map Bar.slot ↔
      (0 ≤ slot ∧ slot < 181) ∨ slot = 182 := by
    intro slot
    rw [mem_flatSlots]
    refine or_congr_right ⟨?_, ?_⟩
    · rintro ⟨other, isOther, rfl⟩
      rw [List.mem_singleton.mp isOther]
      rfl
    · rintro rfl
      exact ⟨_, List.mem_singleton_self _, rfl⟩
  refine ⟨0, ⟨?_, ?_⟩, 181, 182, by omega, by omega, (member 182).mpr (by omega), ?_⟩
  · intro hour inside slot isSlot
    rw [mem_slotRun, period] at inside
    rw [mem_slotRun] at isSlot
    exact (member slot).mpr (by omega)
  · intro later after complete
    rw [period] at after
    have second := (member _).mp (complete (12 * later + 1) (by rw [mem_slotRun]; omega))
    omega
  · rw [member]
    omega

/-- No bar is missing. -/
theorem flatSlots_noGap : ¬ HoursBeforeGap ((flatSlots [181]).map flatBar) := by
  have member : ∀ slot : ℤ, slot ∈ ((flatSlots [181]).map flatBar).map Bar.slot ↔
      (0 ≤ slot ∧ slot < 181) ∨ slot = 181 := by
    intro slot
    rw [mem_flatSlots]
    refine or_congr_right ⟨?_, ?_⟩
    · rintro ⟨other, isOther, rfl⟩
      rw [List.mem_singleton.mp isOther]
      rfl
    · rintro rfl
      exact ⟨_, List.mem_singleton_self _, rfl⟩
  rintro ⟨first, isLast, missing, latest, after, order, isLatest, isMissing⟩
  have period : ((atrPeriod + 1 : ℕ) : ℤ) = 15 := rfl
  have complete := isLast.1 first (by rw [mem_slotRun, period]; omega)
  have start := (member _).mp (complete (12 * first) (by rw [mem_slotRun]; omega))
  rw [member] at isLatest isMissing
  omega

/-- They are less than a whole day. -/
theorem flatSlots_finite : ¬ InfiniteReturn ((flatSlots [181]).map flatBar) := by
  have short : contiguousTail ((flatSlots [181]).map flatBar) structure24hBars ohlcIntervalMinutes = [] := by
    refine if_pos ?_
    rw [List.length_map, flatSlots, List.length_append, List.length_map, List.length_finRange,
      List.length_singleton]
    decide
  rintro ⟨pair, member, _⟩
  rw [short] at member
  cases member

/-- The averages of fifteen hours and two bars are the ready ones. -/
theorem used_atr_is_ready_full_hours :
    letI := Zones.allUtc
    UsesReadyAtr (flatSeries (flatSlots [181]) (flatTime 182)) ((flatSlots [181]).map flatBar) flatInstrument
      100.0 ⟨none, none, none, none⟩ (flatTime 182) :=
  (@used_atr_is_ready_iff _ _ _ _ Zones.allUtc (@flatSlots_window Zones.allUtc _ _ (by decide) (by decide))
    100.0 ⟨none, none, none, none⟩).mpr
    ⟨flatSlots_noGap, flatSlots_finite⟩

/-- With a bar missing before the last one, the average of an hour is used and is not ready. -/
theorem atr_used_before_gap :
    letI := Zones.allUtc
    ¬ ∀ (series : OhlcSeries) (bars : List (Bar Double)) (expected : InstrumentId) (asOf : Moment)
      (currentLast : Double) (l1 : L1Returns Double), Window series bars expected asOf →
        UsesReadyAtr series bars expected currentLast l1 asOf := by
  intro always
  have window := @flatSlots_window Zones.allUtc _ _ (show 181 ≤ ((182 : Fin 8000) : ℕ) by decide)
    (show ((183 : Fin 8000) : ℕ) = ((182 : Fin 8000) : ℕ) + 1 by decide)
  exact @not_usesReadyAtr_of_gap _ _ _ _ Zones.allUtc window 100.0 ⟨none, none, none, none⟩ flatSlots_gap
    (always _ _ _ _ 100.0 ⟨none, none, none, none⟩ window)

end Flat

end CryptoRadar.L2
