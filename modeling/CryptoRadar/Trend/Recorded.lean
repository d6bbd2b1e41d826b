import CryptoRadar.Trend.Appended

/-!
# The records of a booked day

The record of a book is a dictionary of texts, floats and dictionaries, at most eight deep
(`Plain`). With finite amounts it can be written in a line and read back, and the state that is
read from it is the state that was booked (`dayRecord_of_booked`). What the books of a ledger do with a sleeve and
which fields their records have is left open (`SleeveEntry`, `BookEntry`); `dayLines_bookDay` is the
result for the main ledger.
-/

set_option autoImplicit false

namespace CryptoRadar.Trend

open Checked JsonText

/-! ## Values of a record -/

section Values

variable {F : Type}

/-- A value made of texts, floats and dictionaries that can be read back, at most so deep. -/
inductive Plain : ℕ → Json F → Prop where
  | null (depth : ℕ) : Plain depth .null
  | bool (depth : ℕ) (flag : Bool) : Plain depth (.bool flag)
  | float (depth : ℕ) (value : F) : Plain depth (.float value)
  | str (depth : ℕ) {text : PyStr} (valid : text.Valid) : Plain depth (.str text)
  | object {depth : ℕ} {members : List (PyStr × Json F)} (distinct : (members.map Prod.fst).Nodup)
      (keys : ∀ member ∈ members, member.1.Valid) (inner : ∀ member ∈ members, Plain depth member.2) :
      Plain (depth + 1) (.object members)

inductive EveryFloat (holds : F → Prop) : Json F → Prop where
  | null : EveryFloat holds .null
  | bool (flag : Bool) : EveryFloat holds (.bool flag)
  | int (number : ℤ) : EveryFloat holds (.int number)
  | float {value : F} (isHeld : holds value) : EveryFloat holds (.float value)
  | str (text : PyStr) : EveryFloat holds (.str text)
  | array {items : List (Json F)} (inner : ∀ item ∈ items, EveryFloat holds item) :
      EveryFloat holds (.array items)
  | object {members : List (PyStr × Json F)}
      (inner : ∀ member ∈ members, EveryFloat holds member.2) : EveryFloat holds (.object members)

theorem Plain.text (depth : ℕ) (value : String) : Plain (F := F) depth (text value) :=
  .str depth (valid_pyStr value)

theorem Plain.optionalText (depth : ℕ) (value : Option String) :
    Plain (F := F) depth (optionalText value) := by
  cases value with
  | none => exact .null depth
  | some value => exact .text depth value

/-- A dictionary with names as its keys. -/
theorem Plain.fields {depth : ℕ} (items : List (String × Json F))
    (distinct : (items.map Prod.fst).Nodup) (inner : ∀ item ∈ items, Plain depth item.2) :
    Plain (depth + 1) (.object (items.map fun item => (pyStr item.1, item.2))) := by
  refine .object ?_ ?_ ?_
  · have keys : (items.map fun item => (pyStr item.1, item.2)).map Prod.fst =
        (items.map Prod.fst).map pyStr := by
      rw [List.map_map, List.map_map]
      rfl
    rw [keys]
    exact distinct.map pyStr_injective
  · intro member isMember
    obtain ⟨item, _, rfl⟩ := List.mem_map.mp isMember
    exact valid_pyStr item.1
  · intro member isMember
    obtain ⟨item, isItem, rfl⟩ := List.mem_map.mp isMember
    exact inner item isItem

theorem Plain.readable {depth : ℕ} {value : Json F} (plain : Plain depth value) : value.Readable := by
  induction plain with
  | null => exact .null
  | bool depth flag => exact .bool flag
  | float depth value => exact .float value
  | str depth valid => exact .str valid
  | object distinct keys _ hyp => exact .object distinct keys hyp

/-- With finite floats a plain value can be written. -/
theorem Plain.encodable {floats : FloatText F} (limits : JsonLimits) {depth : ℕ} {value : Json F}
    (plain : Plain depth value) (finite : EveryFloat (fun value => floats.constant? value = none) value) :
    Encodable floats limits depth value := by
  induction plain with
  | null depth => exact .null depth
  | bool depth flag => exact .bool depth flag
  | float depth value =>
      cases finite with
      | float isHeld => exact .float depth isHeld
  | str depth valid => exact .str depth _
  | object _ _ _ hyp =>
      cases finite with
      | object inner => exact .object fun member isMember => hyp member isMember (inner member isMember)

theorem EveryFloat.imp {holds other : F → Prop} (weaker : ∀ value, holds value → other value)
    {value : Json F} (every : EveryFloat holds value) : EveryFloat other value := by
  induction every with
  | null => exact .null
  | bool flag => exact .bool flag
  | int number => exact .int number
  | float isHeld => exact .float (weaker _ isHeld)
  | str text => exact .str text
  | array _ hyp => exact .array hyp
  | object _ hyp => exact .object hyp

theorem EveryFloat.get {holds : F → Prop} {record : Record F} {key : PyStr} {value : Json F}
    (every : EveryFloat holds (.object record)) (found : Dict.get? record key = some value) :
    EveryFloat holds value := by
  cases every with
  | object inner => exact inner _ (Dict.mem_of_get?_eq_some found)

theorem EveryFloat.holds {holds : F → Prop} {value : F} (every : EveryFloat holds (.float value)) :
    holds value := by
  cases every with
  | float isHeld => exact isHeld

end Values

/-! ## The sleeves of a book -/

section Books

variable {F : Type} [PyFloat F] {format : LedgerFormat} {platform : Platform F} {day : Date}

/-- A sleeve's entry of a record tells what the sleeve is after the day. -/
structure SleeveEntry (entry : Json F) (fill : Fill F) : Prop where
  told : ∃ members, entry = .object members ∧
    Record.get members "cash_after" = some (.float fill.sleeve.cash) ∧
    Record.get members "units_after" = some (.float fill.sleeve.units) ∧
    Record.get members "held_after" = some (.float fill.sleeve.held)
  plain : Plain 6 entry

structure BookEntry (format : LedgerFormat) (day : Date) (book : Book) (totals : BookTotals F)
    (record : Record F) : Prop where
  plain : Plain 7 (.object totals.assets) → Plain 8 (.object record)
  unchained : ∀ key ∈ chainKeys, Record.get record key = none
  noKind : Record.get record "kind" = none
  date : Record.get record "date" = some (text day.isoformat)
  isBook : Record.get record "book" = some (text book.id)
  fields : ∀ field ∈ format.fields, pyStr field.1 ∉ chainKeys.map pyStr ∧
    Record.get record field.1 = some (text field.2)
  assets : Record.get record "assets" = some (.object totals.assets)
  equity : ∃ equity, Record.get record "equity" = some (.float equity)

abbrev FiniteAmounts (value : Json F) : Prop :=
  EveryFloat (fun amount => PyFloat.isFinite amount = true) value

/-- A check of the amounts of a value that is nested at most so deep. -/
def finiteWithin : ℕ → Json F → Bool
  | _, .float amount => PyFloat.isFinite amount
  | depth + 1, .array items => items.all (finiteWithin depth)
  | depth + 1, .object members => members.all fun member => finiteWithin depth member.2
  | 0, .array _ => false
  | 0, .object _ => false
  | _, _ => true

theorem finiteAmounts_of_within : ∀ {depth : ℕ} {value : Json F},
    finiteWithin depth value = true → FiniteAmounts value := by
  intro depth
  induction depth with
  | zero =>
      intro value check
      cases value with
      | null => exact .null
      | bool flag => exact .bool flag
      | int number => exact .int number
      | float amount => exact .float check
      | str content => exact .str content
      | array items => cases check
      | object members => cases check
  | succ depth hyp =>
      intro value check
      cases value with
      | null => exact .null
      | bool flag => exact .bool flag
      | int number => exact .int number
      | float amount => exact .float check
      | str content => exact .str content
      | array items =>
          exact .array fun item member => hyp (List.all_eq_true.mp check item member)
      | object members =>
          exact .object fun item member => hyp (List.all_eq_true.mp check item member)

theorem numberOf_float {value : F} (finite : PyFloat.isFinite value = true) (what : String) :
    numberOf (some (.float value)) what = .ok value := by
  unfold numberOf
  simp only [bind, Except.bind, ensure_of finite]
  rfl

theorem SleeveEntry.sleeveOf {entry : Json F} {fill : Fill F} (isEntry : SleeveEntry entry fill)
    (finite : FiniteAmounts entry) {assets : Dict PyStr (Json F)} {asset : Asset}
    (found : assets.get? (pyStr asset.text) = some entry) (place : String) :
    sleeveOf assets place asset = .ok (asset.text, fill.sleeve) := by
  obtain ⟨members, rfl, cash, units, held⟩ := isEntry.told
  have cashFinite := (finite.get cash).holds
  have unitsFinite := (finite.get units).holds
  have heldFinite := (finite.get held).holds
  unfold CryptoRadar.Trend.sleeveOf
  simp only [found, cash, units, held, numberOf_float cashFinite, numberOf_float unitsFinite,
    numberOf_float heldFinite, bind, Except.bind]
  rfl

theorem Rule.assets_eq (rule : Rule) : rule.assets = (rule.sleeves (F := F)).map Prod.fst := by
  cases rule <;> rfl

theorem Rule.assets_distinct (rule : Rule) :
    (rule.assets.map fun asset => pyStr asset.text).Nodup := by
  cases rule <;> decide

/-- The entries of a book stand under the assets of its rule. -/
theorem Totalled.keys {step : SleeveStep F} {rule : Rule} {parts : List (Json F × Fill F)}
    {totals : BookTotals F} (totalled : Totalled step rule.sleeves parts totals) :
    totals.assets.map Prod.fst = rule.assets.map fun asset => pyStr asset.text := by
  have lengths := totalled.steps.length_eq
  rw [totalled.assets, rule.assets_eq (F := F), List.map_map, List.map_map]
  conv_rhs => rw [← List.map_fst_zip lengths.le]
  rw [List.map_map]
  rfl

/-- The state that is read from the record of a book is the state after its steps. -/
theorem sleevesOf_totalled {step : SleeveStep F} {book : Book} {parts : List (Json F × Fill F)}
    {totals : BookTotals F} (totalled : Totalled step book.rule.sleeves parts totals)
    (entries : ∀ part ∈ parts, SleeveEntry part.1 part.2) {record : Record F}
    (isRecord : BookEntry format day book totals record) (finite : FiniteAmounts (.object record))
    (place : String) : sleevesOf record book place = .ok totals.sleeves := by
  obtain ⟨equity, isEquity⟩ := isRecord.equity
  have keys := totalled.keys
  have lengths := totalled.steps.length_eq
  have distinct : Dict.Distinct totals.assets := by
    unfold Dict.Distinct
    rw [keys]
    exact book.rule.assets_distinct
  have allKeys : hasKeys totals.assets (book.rule.assets.map fun asset => pyStr asset.text) = true := by
    rw [← keys]
    unfold hasKeys
    rw [Bool.and_eq_true, List.all_eq_true, List.all_eq_true]
    refine ⟨fun item member => ?_, fun key member => ?_⟩
    · exact List.contains_iff_mem.mpr (List.mem_map_of_mem member)
    · obtain ⟨item, isItem, rfl⟩ := List.mem_map.mp member
      rw [(Dict.get?_eq_some_iff distinct).mpr isItem]
      rfl
  have sleeves : book.rule.assets.mapM (sleeveOf totals.assets place) = .ok totals.sleeves := by
    have assets : book.rule.assets =
        ((book.rule.sleeves (F := F)).zip parts).map fun pair => pair.1.1 := by
      rw [book.rule.assets_eq (F := F)]
      conv_lhs => rw [← List.map_fst_zip lengths.le]
      rw [List.map_map]
      rfl
    rw [mapM_eq_ok, assets, totalled.sleeves, List.forall₂_map_left_iff, List.forall₂_map_right_iff]
    refine List.forall₂_same.mpr fun pair member => ?_
    have found : totals.assets.get? (pyStr pair.1.1.text) = some pair.2.1 := by
      rw [Dict.get?_eq_some_iff distinct, totalled.assets]
      exact List.mem_map_of_mem member
    have isEntry := entries pair.2 (List.of_mem_zip member).2
    exact isEntry.sleeveOf ((finite.get isRecord.assets).get found) found place
  unfold sleevesOf
  simp only [isRecord.assets, ensure_of allKeys, bind, Except.bind, sleeves, isEquity,
    numberOf_float (finite.get isEquity).holds]
  rfl

/-- A record of finite amounts is read back. -/
theorem dayRecord_of_booked (texts : platform.Finite) {step : Book → BookState F → SleeveStep F}
    {record : Book → BookTotals F → Record F} {states : Dict String (BookState F)} {book : Book}
    {written : Record F} {after : BookState F}
    (booked : BookedBook step record states book written after)
    (entries : ∀ state asset strategy entry fill,
      step book state asset strategy = .ok (entry, fill) → SleeveEntry entry fill)
    (isRecord : ∀ totals, BookEntry format day book totals (record book totals))
    (finite : FiniteAmounts (.object written)) :
    DayRecord format platform day book written after := by
  obtain ⟨state, totals, parts, _, totalled, rfl, rfl⟩ := booked.booked
  have isEntry : ∀ part ∈ parts, SleeveEntry part.1 part.2 := by
    intro part member
    obtain ⟨sleeve, _, stepped⟩ := mem_of_forall₂ totalled.steps part member
    exact entries state sleeve.1 sleeve.2 part.1 part.2 stepped
  have assetsPlain : Plain 7 (.object totals.assets) := by
    refine .object ?_ ?_ ?_
    · rw [totalled.keys]
      exact book.rule.assets_distinct
    · intro member isMember
      rw [totalled.assets] at isMember
      obtain ⟨pair, _, rfl⟩ := List.mem_map.mp isMember
      exact valid_pyStr _
    · intro member isMember
      rw [totalled.assets] at isMember
      obtain ⟨pair, isPair, rfl⟩ := List.mem_map.mp isMember
      exact (isEntry pair.2 (List.of_mem_zip isPair).2).plain
  have plain := (isRecord totals).plain assetsPlain
  have written := plain.encodable platform.limits (finite.imp texts.noConstant)
  refine ⟨⟨plain.readable, ?_, (isRecord totals).unchained⟩, (isRecord totals).noKind,
    (isRecord totals).date, (isRecord totals).isBook, (isRecord totals).fields, ?_⟩
  · cases written with
    | object inner => exact inner
  · exact sleevesOf_totalled totalled isEntry (isRecord totals) finite

/-- The records of a booked day, with the books and their new states. -/
theorem dayLines_of_booked (texts : platform.Finite) {step : Book → BookState F → SleeveStep F}
    {record : Book → BookTotals F → Record F} {states : Dict String (BookState F)}
    (entries : ∀ book state asset strategy entry fill,
      step book state asset strategy = .ok (entry, fill) → SleeveEntry entry fill)
    (isRecord : ∀ book totals, BookEntry format day book totals (record book totals)) :
    ∀ {books : List Book} {records : List (Record F)} {news : List (BookState F)},
      List.Forall₂ (fun book pair => BookedBook step record states book pair.1 pair.2) books
        (records.zip news) → records.length = books.length → news.length = books.length →
      (∀ record ∈ records, FiniteAmounts (.object record)) →
      DayLines format platform day books records news := by
  intro books
  induction books with
  | nil =>
      intro records news _ noRecords noNews _
      rw [List.eq_nil_of_length_eq_zero noRecords, List.eq_nil_of_length_eq_zero noNews]
      exact .nil
  | cons book books hyp =>
      intro records news booked recordCount newsCount finite
      cases records with
      | nil => cases recordCount
      | cons written records =>
          cases news with
          | nil => cases newsCount
          | cons after news =>
              rw [List.zip_cons_cons] at booked
              rw [List.forall_mem_cons] at finite
              cases booked with
              | cons first others =>
                  exact .cons (dayRecord_of_booked texts first (entries book) (isRecord book) finite.1)
                    (hyp others (Nat.succ.inj recordCount) (Nat.succ.inj newsCount) finite.2)

end Books

/-! ## The main ledger -/

section Main

variable {F : Type}

/-- The derived values of every signal have different names. -/
structure DaySignals.Distinct (signals : DaySignals F) : Prop where
  ens : ∀ item ∈ signals.ens, Dict.Distinct item.2.values
  trend5 : Dict.Distinct signals.trend5.values

theorem signalFor_distinct {rule : Rule} {signals : DaySignals F} (distinct : signals.Distinct)
    {asset : Asset} {signal : AssetSignal F} (isSignal : signalFor rule signals asset = .ok signal) :
    Dict.Distinct signal.values := by
  unfold signalFor at isSignal
  split at isSignal
  next => exact distinct.ens _ (Dict.mem_of_get?_eq_some (require_eq_ok.mp isSignal))
  next =>
    cases isSignal
    exact distinct.trend5

/-- The values of a signal as a record holds them. -/
theorem plain_values (depth : ℕ) {signal : AssetSignal F} (distinct : Dict.Distinct signal.values) :
    Plain (depth + 1) (.object (signal.values.map fun item => (pyStr item.1, .float item.2))) := by
  have plain : Plain (depth + 1) (.object ((signal.values.map fun item =>
      (item.1, (.float item.2 : Json F))).map fun item => (pyStr item.1, item.2))) := by
    refine .fields _ ?_ ?_
    · rw [List.map_map]
      exact distinct
    · intro item member
      obtain ⟨value, _, rfl⟩ := List.mem_map.mp member
      exact .float depth value.2
  rw [List.map_map] at plain
  exact plain

variable [PyFloat F]

theorem assetRecord_entry (asset : Asset) (strategy : Strategy F) {signal : AssetSignal F}
    (distinct : Dict.Distinct signal.values) (openUsdt price : F) (source : String) (fill : Fill F) :
    SleeveEntry (assetRecord asset strategy signal openUsdt price source fill) fill := by
  refine ⟨⟨_, rfl, rfl, rfl, rfl⟩, ?_⟩
  refine Plain.fields [("symbol", text asset.usdtSymbol),
    ("registered_name", optionalText (strategy.registration.map RegisteredRule.name)),
    ("registered_sha256", optionalText (strategy.registration.map RegisteredRule.sha256)),
    ("signal_close_date", text signal.closeDate.isoformat),
    ("signal_close_usdt", .float signal.close),
    ("signal", .object (signal.values.map fun item => (pyStr item.1, .float item.2))),
    ("open_usdt", .float openUsdt), ("fill_price", .float price), ("fill_source", text source),
    ("target", .float fill.target), ("held_before", .float fill.heldBefore),
    ("held_after", .float fill.sleeve.held), ("traded", .bool fill.traded),
    ("traded_notional", .float fill.notional), ("fee", .float fill.fee),
    ("cash_after", .float fill.sleeve.cash), ("units_after", .float fill.sleeve.units),
    ("equity_after", .float fill.equityAfter)] (by simp) ?_
  simp only [List.forall_mem_cons]
  exact ⟨.text 5 _, .optionalText 5 _, .optionalText 5 _, .text 5 _, .float 5 _, plain_values 4 distinct,
    .float 5 _, .float 5 _, .text 5 _, .float 5 _, .float 5 _, .float 5 _, .bool 5 _, .float 5 _,
    .float 5 _, .float 5 _, .float 5 _, .float 5 _, by simp⟩

theorem sleeveDay_entry {inputs : DayInputs F} (distinct : inputs.signals.Distinct) {book : Book}
    {state : BookState F} {asset : Asset} {strategy : Strategy F} {entry : Json F} {fill : Fill F}
    (stepped : sleeveDay inputs book state asset strategy = .ok (entry, fill)) :
    SleeveEntry entry fill := by
  obtain ⟨⟨price, source⟩, _, stepped⟩ := bind_eq_ok.mp stepped
  obtain ⟨target, _, stepped⟩ := bind_eq_ok.mp stepped
  obtain ⟨sleeve, _, stepped⟩ := bind_eq_ok.mp stepped
  obtain ⟨filled, _, stepped⟩ := bind_eq_ok.mp stepped
  obtain ⟨signal, isSignal, stepped⟩ := bind_eq_ok.mp stepped
  obtain ⟨⟨openUsdt, _⟩, _, stepped⟩ := bind_eq_ok.mp stepped
  cases stepped
  exact assetRecord_entry asset strategy (signalFor_distinct distinct isSignal) openUsdt price source fill

theorem bookRecord_entry {inputs : DayInputs F} (tsValid : inputs.ts.Valid) (book : Book)
    (totals : BookTotals F) :
    BookEntry mainFormat inputs.day book totals (bookRecord inputs book totals) := by
  refine ⟨fun assets => ?_, ?_, rfl, rfl, rfl, (fun field member => by cases member), rfl, ⟨_, rfl⟩⟩
  · refine Plain.fields [("ts", .str inputs.ts), ("date", text inputs.day.isoformat),
      ("book", text book.id), ("quote", text book.quote.text), ("rule", text book.rule.text),
      ("family", text book.rule.family.text), ("comparator", optionalText book.comparator),
      ("fee_rate", .float book.fee.rate), ("slippage_bps", .float slippageBps),
      ("assets", .object totals.assets), ("equity_before", .float totals.equityBefore),
      ("cash", .float totals.cash), ("equity", .float totals.equity)] (by simp) ?_
    simp only [List.forall_mem_cons]
    exact ⟨.str 7 tsValid, .text 7 _, .text 7 _, .text 7 _, .text 7 _, .text 7 _, .optionalText 7 _,
      .float 7 _, .float 7 _, assets, .float 7 _, .float 7 _, .float 7 _, by simp⟩
  · intro key isChain
    simp only [chainKeys, List.mem_cons, List.not_mem_nil, or_false] at isChain
    rcases isChain with rfl | rfl | rfl | rfl
    all_goals rfl

end Main

section Signals

variable {F : Type} [PyMath F] {market : Market F} {day : Date}

theorem ensSignal_distinct {asset : Asset} {signal : AssetSignal F}
    (isSignal : ensSignal market asset day = .ok signal) : Dict.Distinct signal.values := by
  revert signal
  unfold ensSignal
  iterate 10 (apply forall_of_bind; intro _)
  rintro _ ⟨⟩
  simp [Dict.Distinct]

theorem trend5Signal_distinct {signal : AssetSignal F}
    (isSignal : trend5Signal market day = .ok signal) : Dict.Distinct signal.values := by
  revert signal
  unfold trend5Signal
  iterate 12 (apply forall_of_bind; intro _)
  rintro _ ⟨⟩
  simp [Dict.Distinct]

/-- The signals that the market gives have different names. -/
theorem daySignals_distinct {signals : DaySignals F} (isSignals : daySignals market day = .ok signals) :
    signals.Distinct := by
  obtain ⟨ens, isEns, isSignals⟩ := bind_eq_ok.mp isSignals
  obtain ⟨trend5, isTrend5, isSignals⟩ := bind_eq_ok.mp isSignals
  cases isSignals
  refine ⟨fun item member => ?_, trend5Signal_distinct isTrend5⟩
  obtain ⟨asset, _, turned⟩ := mem_of_mapM_eq_ok isEns item member
  obtain ⟨signal, isSignal, turned⟩ := bind_eq_ok.mp turned
  cases turned
  exact ensSignal_distinct isSignal

/-- **The records of a booked day are read back** as the records with the new states. -/
theorem dayLines_bookDay {platform : Platform F} (texts : platform.Finite) {start : Date}
    {states after : Dict String (BookState F)} {ts : PyStr} (tsValid : ts.Valid)
    {signals : Option (DaySignals F)} (distinct : ∀ given ∈ signals, given.Distinct)
    {records : List (Record F)}
    (isBooked : bookDay market day states ts start signals = .ok (records, after))
    (finite : ∀ record ∈ records, FiniteAmounts (.object record)) :
    ∃ news, after = (books.map Book.id).zip news ∧
      DayLines mainFormat platform day books records news := by
  obtain ⟨inputs, rfl, rfl, isSignals, _, news, isAfter, newsCount, booked, recordCount⟩ :=
    bookDay_eq_ok isBooked
  have named : inputs.signals.Distinct := by
    cases signals with
    | none => exact daySignals_distinct isSignals
    | some given =>
        cases isSignals
        exact distinct inputs.signals rfl
  refine ⟨news, isAfter, dayLines_of_booked texts ?_ (bookRecord_entry tsValid) booked recordCount
    newsCount finite⟩
  intro book state asset strategy entry fill stepped
  exact sleeveDay_entry named stepped

end Signals

/-! ## Gaps -/

section Gaps

variable {F : Type} [PyFloat F] {market : Market F} {day : Date}

theorem gapDay_mem (found : DayGap) : ∃ gap ∈ found.gaps, gap.day = found.gapDay := by
  have member := List.min_mem (l := found.gaps.map Gap.day) (by simpa using found.blocking)
  exact List.mem_map.mp member

/-- A signal misses closes of days before its own. -/
theorem signalGaps_before {gaps : List Gap} (isGaps : signalGaps market day = .ok gaps) :
    ∀ gap ∈ gaps, gap.day < day ∧ gap.symbol ∈ Asset.all.map Asset.usdtSymbol := by
  intro gap member
  obtain ⟨previous, isPrevious, isGaps⟩ := bind_eq_ok.mp isGaps
  obtain ⟨windows, isWindows, isGaps⟩ := bind_eq_ok.mp isGaps
  obtain ⟨series, isSeries, isGaps⟩ := bind_eq_ok.mp isGaps
  obtain ⟨_, _, isGaps⟩ := bind_eq_ok.mp isGaps
  obtain ⟨history, isHistory, isGaps⟩ := bind_eq_ok.mp isGaps
  cases isGaps
  obtain ⟨list, inLists, inList⟩ := (mem_foldl_insertGaps.mp member).resolve_left (by simp)
  rcases List.mem_append.mp inLists with inWindows | isBetween
  · obtain ⟨symbol, isSymbol, isList⟩ := mem_of_mapM_eq_ok isWindows list inWindows
    obtain ⟨_, _, isList⟩ := bind_eq_ok.mp isList
    obtain ⟨window, isWindow, isList⟩ := bind_eq_ok.mp isList
    cases isList
    obtain ⟨missing, inWindow, rfl⟩ := List.mem_map.mp inList
    obtain ⟨back, _, moved⟩ := mem_of_mapM_eq_ok isWindow missing (List.mem_filter.mp inWindow).1
    have first := Date.plusDays?_eq_some.mp (require_eq_ok.mp isPrevious)
    have second := Date.plusDays?_eq_some.mp (require_eq_ok.mp moved)
    refine ⟨?_, isSymbol⟩
    rw [Date.lt_iff]
    dsimp only
    omega
  · obtain ⟨pair, consecutive, isList⟩ := mem_of_mapM_eq_ok isHistory list isBetween
    obtain ⟨symbol, inside⟩ := daysBetween_inside isList gap inList
    have ends : pair.2 ∈ series.closedBefore day := List.mem_of_mem_tail (List.of_mem_zip consecutive).2
    have opened := of_decide_eq_true (List.mem_filter.mp ends).2
    refine ⟨?_, ?_⟩
    · have onDay := utcDay?_dayOpenMs gap.day
      exact (lt_dayOpenMs_iff onDay).mp ((inside _ onDay).2.trans opened)
    · rw [symbol]
      decide

/-- Gaps on the day fit a reason that asks for the day. -/
theorem skipFits_onDay {format : LedgerFormat} {found : DayGap} (known : found.reason ∈ format.reasons)
    (notSignal : found.reason ≠ .noSignalClose)
    (each : ∀ gap ∈ found.gaps, gap.day = found.day ∧ pyStr gap.symbol ∈ found.reason.symbols) :
    SkipFits format found := by
  obtain ⟨first, isFirst, sameDay⟩ := gapDay_mem found
  refine ⟨known, fun gap member => (each gap member).2, ?_⟩
  rw [← sameDay, (each first isFirst).1]
  simp [gapFits, notSignal]

/-- Gaps before the day fit a signal without a close. -/
theorem skipFits_before {format : LedgerFormat} {found : DayGap} (known : found.reason ∈ format.reasons)
    (isSignal : found.reason = .noSignalClose)
    (each : ∀ gap ∈ found.gaps, gap.day < found.day ∧ pyStr gap.symbol ∈ found.reason.symbols) :
    SkipFits format found := by
  obtain ⟨first, isFirst, sameDay⟩ := gapDay_mem found
  have before := (each first isFirst).1
  refine ⟨known, fun gap member => (each gap member).2, ?_⟩
  rw [← sameDay]
  simp [gapFits, isSignal, before.le, before.ne]

/-- An asset without a price in EUR misses its pair and EURUSDT on the day. -/
theorem eurGaps_onDay {asset : Asset} {gaps : List Gap} (isGaps : eurGaps market day asset = .ok gaps) :
    ∀ gap ∈ gaps, gap.day = day ∧ pyStr gap.symbol ∈ SkipReason.symbols .noEurPrice := by
  obtain ⟨noPair, _, isGaps⟩ := bind_eq_ok.mp isGaps
  cases noPair with
  | false =>
      cases isGaps
      simp
  | true =>
      obtain ⟨noRate, _, isGaps⟩ := bind_eq_ok.mp isGaps
      cases noRate with
      | false =>
          cases isGaps
          simp
      | true =>
          cases isGaps
          cases asset <;> simp [SkipReason.symbols, Asset.eurSymbol]

/-- What misses opens of the day fits a reason with these symbols. -/
theorem skipFits_of_lacking {format : LedgerFormat} {reason : SkipReason}
    {lacks : String → Except PaperFailure Bool} {symbols fill : List String} {found : DayGap}
    (isFill : select lacks symbols = .ok fill)
    (isFound : blocked day reason (fill.map fun symbol => ⟨symbol, day⟩) = some found)
    (known : reason ∈ format.reasons) (notSignal : reason ≠ .noSignalClose)
    (named : ∀ symbol ∈ symbols, pyStr symbol ∈ reason.symbols) :
    SkipFits format found ∧ found.day = day := by
  obtain ⟨rfl, isReason, isGaps⟩ := blocked_eq_some isFound
  refine ⟨skipFits_onDay (by rwa [isReason]) (by rwa [isReason]) ?_, rfl⟩
  intro gap member
  rw [isGaps] at member
  obtain ⟨symbol, isMissing, rfl⟩ := List.mem_map.mp member
  rw [isReason]
  exact ⟨rfl, named symbol ((mem_select isFill symbol).1.mp isMissing).1⟩

/-- What misses closes of a signal fits the format. -/
theorem skipFits_of_signalGaps {format : LedgerFormat} {signal : List Gap} {found : DayGap}
    (isSignal : signalGaps market day = .ok signal)
    (isFound : blocked day .noSignalClose signal = some found)
    (known : .noSignalClose ∈ format.reasons) : SkipFits format found ∧ found.day = day := by
  obtain ⟨rfl, isReason, isGaps⟩ := blocked_eq_some isFound
  refine ⟨skipFits_before (by rwa [isReason]) isReason ?_, rfl⟩
  intro gap member
  rw [isGaps] at member
  obtain ⟨before, known⟩ := signalGaps_before isSignal gap member
  rw [isReason]
  exact ⟨before, List.mem_map_of_mem known⟩

/-- What `day_gap` finds can be written and read back. -/
theorem skipFits_of_dayGap {found : DayGap} (isGap : dayGap market day = .ok (some found)) :
    SkipFits mainFormat found ∧ found.day = day := by
  cases gapFound_of_dayGap isGap with
  | fill isFill isFound =>
      exact skipFits_of_lacking isFill isFound (by decide) (by decide) fun _ => List.mem_map_of_mem
  | signal _ isSignal isFound => exact skipFits_of_signalGaps isSignal isFound (by decide)
  | eur _ _ isEur isFound =>
      obtain ⟨rfl, isReason, isGaps⟩ := blocked_eq_some isFound
      refine ⟨skipFits_onDay (by rw [isReason]; decide) (by rw [isReason]; decide) ?_, rfl⟩
      intro gap member
      rw [isGaps, mem_firstOnly] at member
      obtain ⟨list, isList, inList⟩ := List.mem_flatten.mp member
      obtain ⟨asset, _, turned⟩ := mem_of_mapM_eq_ok isEur list isList
      rw [isReason]
      exact eurGaps_onDay turned gap inList

end Gaps

end CryptoRadar.Trend
