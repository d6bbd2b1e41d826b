import CryptoRadar.Trend.Kraken
import CryptoRadar.Trend.Python
import CryptoRadar.Trend.Recorded

/-!
# Encoding, then verifying

What is booked for the next day of a ledger, or found missing for it, is encoded and verified
without a loss (`encoding_verified`): the ledger that is read has the records with their chain
fields, the day and the new states of all books, or the skipped day and everything else as it was.
It holds for the main ledger and for that of the Kraken books, which differ in their formats only.
-/

set_option autoImplicit false

namespace CryptoRadar.Trend

open Checked JsonText

/-! ## The Kraken books -/

section Kraken

variable {F : Type} [PyFloat F]

theorem krakenAssetRecord_entry (asset : Asset) (strategy : Strategy F) {signal : AssetSignal F}
    (distinct : Dict.Distinct signal.values) (price : F) (fill : Fill F) :
    SleeveEntry (krakenAssetRecord asset strategy signal price fill) fill := by
  refine ⟨⟨_, rfl, rfl, rfl, rfl⟩, ?_⟩
  refine Plain.fields [("symbol", text asset.usdtSymbol), ("pair", text (krakenPair asset)),
    ("registered_name", optionalText (strategy.registration.map RegisteredRule.name)),
    ("registered_sha256", optionalText (strategy.registration.map RegisteredRule.sha256)),
    ("signal_close_date", text signal.closeDate.isoformat),
    ("signal_close_usdt", .float signal.close),
    ("signal", .object (signal.values.map fun item => (pyStr item.1, .float item.2))),
    ("fill_price", .float price), ("fill_source", text ("Kraken " ++ krakenPair asset ++ " open")),
    ("target", .float fill.target), ("held_before", .float fill.heldBefore),
    ("held_after", .float fill.sleeve.held), ("traded", .bool fill.traded),
    ("traded_notional", .float fill.notional), ("fee", .float fill.fee),
    ("cash_after", .float fill.sleeve.cash), ("units_after", .float fill.sleeve.units),
    ("equity_after", .float fill.equityAfter)] (by simp) ?_
  simp only [List.forall_mem_cons]
  exact ⟨.text 5 _, .text 5 _, .optionalText 5 _, .optionalText 5 _, .text 5 _, .float 5 _,
    plain_values 4 distinct, .float 5 _, .text 5 _, .float 5 _, .float 5 _, .float 5 _, .bool 5 _,
    .float 5 _, .float 5 _, .float 5 _, .float 5 _, .float 5 _, by simp⟩

theorem krakenSleeveDay_entry {inputs : KrakenInputs F} (distinct : inputs.signals.Distinct)
    {book : Book} {state : BookState F} {asset : Asset} {strategy : Strategy F} {entry : Json F}
    {fill : Fill F} (stepped : krakenSleeveDay inputs book state asset strategy = .ok (entry, fill)) :
    SleeveEntry entry fill := by
  obtain ⟨price, _, stepped⟩ := bind_eq_ok.mp stepped
  obtain ⟨target, _, stepped⟩ := bind_eq_ok.mp stepped
  obtain ⟨sleeve, _, stepped⟩ := bind_eq_ok.mp stepped
  obtain ⟨filled, _, stepped⟩ := bind_eq_ok.mp stepped
  obtain ⟨signal, isSignal, stepped⟩ := bind_eq_ok.mp stepped
  cases stepped
  exact krakenAssetRecord_entry asset strategy (signalFor_distinct distinct isSignal) price fill

theorem krakenRecord_entry {inputs : KrakenInputs F} (tsValid : inputs.ts.Valid) (book : Book)
    (totals : BookTotals F) :
    BookEntry krakenFormat inputs.day book totals (krakenRecord inputs book totals) := by
  refine ⟨fun assets => ?_, ?_, rfl, rfl, rfl, ?_, rfl, ⟨_, rfl⟩⟩
  · refine Plain.fields [("ts", .str inputs.ts), ("date", text inputs.day.isoformat),
      ("book", text book.id), ("venue", text venue), ("quote", text krakenQuote),
      ("rule", text book.rule.text), ("family", text book.rule.family.text),
      ("comparator", optionalText book.comparator), ("fee_rate", .float book.fee.rate),
      ("fee_label", optionalText (feeLabels.get? book.fee)), ("slippage_bps", .float slippageBps),
      ("assets", .object totals.assets), ("equity_before", .float totals.equityBefore),
      ("cash", .float totals.cash), ("equity", .float totals.equity)] (by simp) ?_
    simp only [List.forall_mem_cons]
    exact ⟨.str 7 tsValid, .text 7 _, .text 7 _, .text 7 _, .text 7 _, .text 7 _, .text 7 _,
      .optionalText 7 _, .float 7 _, .optionalText 7 _, .float 7 _, assets, .float 7 _, .float 7 _,
      .float 7 _, by simp⟩
  · intro key isChain
    simp only [chainKeys, List.mem_cons, List.not_mem_nil, or_false] at isChain
    rcases isChain with rfl | rfl | rfl | rfl
    all_goals rfl
  · intro field member
    simp only [krakenFormat, List.mem_cons, List.not_mem_nil, or_false] at member
    rcases member with rfl | rfl
    · exact ⟨by decide, rfl⟩
    · exact ⟨by decide, rfl⟩

end Kraken

section KrakenDay

variable {F : Type} [PyMath F] {market : Market F} {day start : Date}

/-- The records of a booked Kraken day are read back as the records with the new states. -/
theorem dayLines_bookKrakenDay {platform : Platform F} (texts : platform.Finite)
    {states after : Dict String (BookState F)} {ts : PyStr} (tsValid : ts.Valid)
    {signals : Option (DaySignals F)} (distinct : ∀ given ∈ signals, given.Distinct)
    {records : List (Record F)}
    (isBooked : bookKrakenDay market day states ts start signals = .ok (records, after))
    (finite : ∀ record ∈ records, FiniteAmounts (.object record)) :
    ∃ news, after = (krakenBooks.map Book.id).zip news ∧
      DayLines krakenFormat platform day krakenBooks records news := by
  obtain ⟨_, _, isBooked⟩ := bind_eq_ok.mp isBooked
  obtain ⟨given, isGiven, isBooked⟩ := bind_eq_ok.mp isBooked
  obtain ⟨prices, _, isBooked⟩ := bind_eq_ok.mp isBooked
  obtain ⟨news, isAfter, newsCount, booked, recordCount⟩ :=
    booked_of_foldlM krakenBooks krakenBooks_distinct isBooked
  have named : given.Distinct := by
    cases signals with
    | none => exact daySignals_distinct isGiven
    | some other =>
        cases isGiven
        exact distinct given rfl
  refine ⟨news, isAfter, dayLines_of_booked texts ?_ (krakenRecord_entry tsValid) booked recordCount
    newsCount finite⟩
  intro book state asset strategy entry fill stepped
  exact krakenSleeveDay_entry named stepped

/-- What `kraken_day_gap` finds can be written and read back. -/
theorem skipFits_of_krakenDayGap {found : DayGap}
    (isGap : krakenDayGap market day = .ok (some found)) :
    SkipFits krakenFormat found ∧ found.day = day := by
  obtain ⟨fill, isFill, isGap⟩ := bind_eq_ok.mp isGap
  cases noFill : blocked day .noKrakenOpen (fill.map fun symbol => ⟨symbol, day⟩) with
  | some other =>
      rw [noFill] at isGap
      cases isGap
      exact skipFits_of_lacking isFill noFill (by decide) (by decide) fun _ => List.mem_map_of_mem
  | none =>
      rw [noFill] at isGap
      obtain ⟨signal, isSignal, isGap⟩ := bind_eq_ok.mp isGap
      have isFound : blocked day .noSignalClose signal = some found := Except.ok.inj isGap
      exact skipFits_of_signalGaps isSignal isFound (by decide)

end KrakenDay

/-! ## Both ledgers -/

section Both

variable {F : Type} [PyMath F]

/-- To encode the records and to read the bytes after the ledger adds the day: the records with
their chain fields, the day, and the states of all books. -/
def AddsDay (codec : LedgerCodec F)
    (extend : Ledger F → Bytes → Except PaperFailure (Ledger F)) (books : List Book)
    (ledger : Ledger F) (day : Date) (records : List (Record F))
    (states : Dict String (BookState F)) : Prop :=
  ∃ data extended lines, encodeDay codec ledger records = .ok data ∧
    extend ledger data = .ok extended ∧
    Chained ledger.entries ledger.tip records lines extended.tip ∧
    extended.records = ledger.records ++ lines ∧ extended.days = ledger.days ++ [day] ∧
    extended.skipped = ledger.skipped ∧
    ∀ book ∈ books, (states.get? book.id).isSome ∧ extended.states.get? book.id = states.get? book.id

/-- To read the encoded skip entry after the ledger adds the skipped day and nothing else. -/
def AddsSkip (extend : Ledger F → Bytes → Except PaperFailure (Ledger F))
    (encoded : Except PaperFailure Bytes) (ledger : Ledger F) (day : Date) (found : DayGap) : Prop :=
  ∃ data extended, encoded = .ok data ∧ extend ledger data = .ok extended ∧
    extended.skipped = ledger.skipped ++ [⟨day, found.reason, found.symbols, found.gapDay⟩] ∧
    extended.records = ledger.records ∧ extended.days = ledger.days ∧
    extended.states = ledger.states

theorem LedgerFormat.addsDay {format : LedgerFormat} {platform : Platform F}
    (lawful : platform.Lawful) (few : format.books.length ≤ 24)
    (distinct : (format.books.map Book.id).Nodup) {start day : Date} {ledger : Ledger F}
    (verified : format.Verified platform.codec start ledger)
    (isNext : firstDayToBook ledger start = .ok day) {records : List (Record F)}
    {news : List (BookState F)} (dayLines : DayLines format platform day format.books records news) :
    AddsDay platform.codec (format.extend platform.codec start) format.books ledger day records
      ((format.books.map Book.id).zip news) := by
  obtain ⟨data, extended, lines, encoded, isExtended, chained, records, days, skipped, states⟩ :=
    LedgerFormat.extend_encodeDay lawful few distinct verified isNext dayLines
  refine ⟨data, extended, lines, encoded, isExtended, chained, records, days, skipped, ?_⟩
  intro book member
  refine ⟨?_, states book member⟩
  cases found : Dict.get? ((format.books.map Book.id).zip news) book.id with
  | some state => rfl
  | none =>
      have keys : ((format.books.map Book.id).zip news).map Prod.fst = format.books.map Book.id :=
        List.map_fst_zip (by rw [List.length_map, dayLines.length.2])
      have inKeys : book.id ∈ ((format.books.map Book.id).zip news).map Prod.fst := by
        rw [keys]
        exact List.mem_map_of_mem member
      obtain ⟨item, isItem, same⟩ := List.mem_map.mp inKeys
      exact absurd same (Dict.get?_eq_none_iff.mp found item isItem)

/-- **Encoding then verifying loses nothing**, for the main ledger and for the Kraken ledger: `ts`
holds no surrogate pair, the texts of floats read back, and the amounts are finite. -/
theorem encoding_verified (platform : Platform F) (lawful : platform.Lawful)
    (texts : platform.Finite) (start day : Date) (market : Market F) (ts : PyStr)
    (tsValid : ts.Valid) (signals : Option (DaySignals F))
    (distinct : ∀ given ∈ signals, given.Distinct) (ledger : Ledger F)
    (isNext : firstDayToBook ledger start = .ok day) :
    ((∃ data, parseLedger platform.codec start data = .ok ledger) →
      (∀ states records after, bookDay market day states ts start signals = .ok (records, after) →
        (∀ record ∈ records, FiniteAmounts (.object record)) →
        AddsDay platform.codec (extendLedger platform.codec start) books ledger day records after) ∧
      ∀ found, dayGap market day = .ok (some found) →
        AddsSkip (extendLedger platform.codec start) (encodeSkip platform.codec ledger found ts)
          ledger day found) ∧
    ((∃ data, parseKrakenLedger platform.codec start data = .ok ledger) →
      (∀ states records after,
        bookKrakenDay market day states ts start signals = .ok (records, after) →
        (∀ record ∈ records, FiniteAmounts (.object record)) →
        AddsDay platform.codec (extendKrakenLedger platform.codec start) krakenBooks ledger day
          records after) ∧
      ∀ found, krakenDayGap market day = .ok (some found) →
        AddsSkip (extendKrakenLedger platform.codec start)
          (encodeKrakenSkip platform.codec ledger found ts) ledger day found) := by
  constructor
  · rintro ⟨data, parsed⟩
    have verified : mainFormat.Verified platform.codec start ledger :=
      ⟨data, (extend_mainFormat _ _ _ _).trans parsed⟩
    have sameExtend : mainFormat.extend platform.codec start = extendLedger platform.codec start := by
      funext other more
      exact extend_mainFormat _ _ _ _
    rw [← sameExtend]
    refine ⟨fun states records after isBooked finite => ?_, fun found isGap => ?_⟩
    · obtain ⟨news, rfl, dayLines⟩ := dayLines_bookDay texts tsValid distinct isBooked finite
      exact LedgerFormat.addsDay lawful (by decide) books_distinct verified isNext dayLines
    · obtain ⟨fits, rfl⟩ := skipFits_of_dayGap isGap
      exact LedgerFormat.extend_encodeSkip lawful (by decide) verified isNext fits tsValid
  · rintro ⟨data, parsed⟩
    have verified : krakenFormat.Verified platform.codec start ledger := ⟨data, parsed⟩
    refine ⟨fun states records after isBooked finite => ?_, fun found isGap => ?_⟩
    · obtain ⟨news, rfl, dayLines⟩ := dayLines_bookKrakenDay texts tsValid distinct isBooked finite
      exact LedgerFormat.addsDay lawful (by decide) krakenBooks_distinct verified isNext dayLines
    · obtain ⟨fits, rfl⟩ := skipFits_of_krakenDayGap isGap
      exact LedgerFormat.extend_encodeSkip lawful (by decide) verified isNext fits tsValid

end Both

/-! ## A first day -/

/-- The opens of the first paper day. -/
def firstMarket : Market Double :=
  [("BTCUSDT", openSeries "BTCUSDT" paperStart 64000.0 priced_64000),
    ("ETHUSDT", openSeries "ETHUSDT" paperStart 2500.0 priced_2500),
    ("BTCEUR", openSeries "BTCEUR" paperStart 60000.0 (by decide +kernel)),
    ("XBTEUR", openSeries "XBTEUR" paperStart 60010.0 (by decide +kernel)),
    ("ETHEUR", openSeries "ETHEUR" paperStart 2300.0 (by decide +kernel))]

def firstSignals : DaySignals Double :=
  ⟨paperStart,
    [(.btc, ⟨.btc, "BTCUSDT", eveOfStart, 63500.0, [("ENS", 0.6), ("ENS_VT", 0.5), ("vol30", 0.55)]⟩),
      (.eth, ⟨.eth, "ETHUSDT", eveOfStart, 2480.0, [("ENS", 0.4), ("ENS_VT", 0.3), ("vol30", 0.7)]⟩)],
    ⟨.btc, "BTCUSDT", eveOfStart, 63500.0, [("votes", 0.8), ("vol_scale", 0.9), ("BTC_TREND5", 0.8),
      ("BTC_TREND5_VT", 0.72)]⟩⟩

/-- A day was booked with finite amounts. -/
def bookedFinite : Except PaperFailure (List (Record Double) × Dict String (BookState Double)) → Bool
  | .ok (records, _) => records.all fun record => finiteWithin 8 (.object record)
  | .error _ => false

theorem exists_of_bookedFinite
    (booked : Except PaperFailure (List (Record Double) × Dict String (BookState Double)))
    (check : bookedFinite booked = true) : ∃ records after, booked = .ok (records, after) ∧
      ∀ record ∈ records, FiniteAmounts (.object record) := by
  cases booked with
  | error failure => cases check
  | ok result =>
      exact ⟨result.1, result.2, rfl, fun record member =>
        finiteAmounts_of_within (List.all_eq_true.mp check record member)⟩

theorem firstSignals_distinct : ∀ given ∈ some firstSignals, given.Distinct := by
  intro given isGiven
  cases isGiven
  exact ⟨by simp [firstSignals, Dict.Distinct], by simp [firstSignals, Dict.Distinct]⟩

theorem exists_gap (found : Except PaperFailure (Option DayGap))
    (check : (found.toOption.bind id).isSome = true) : ∃ gap, found = .ok (some gap) := by
  cases found with
  | error failure => cases check
  | ok gap =>
      cases gap with
      | none => cases check
      | some gap => exact ⟨gap, rfl⟩

/-- Both streams book the first paper day with finite amounts. -/
theorem firstDay_booked :
    bookedFinite (bookDay firstMarket paperStart [] (pyStr "t") paperStart (some firstSignals)) = true := by
  decide +kernel

theorem firstKrakenDay_booked : bookedFinite (bookKrakenDay firstMarket paperStart [] (pyStr "t")
    paperStart (some firstSignals)) = true := by
  decide +kernel

/-- The first paper day booked and, in a market without candles, skipped. -/
theorem encoding_verified_first :
    (∃ records after, bookDay firstMarket paperStart [] (pyStr "t") paperStart (some firstSignals) =
        .ok (records, after) ∧
      AddsDay python.codec (extendLedger python.codec paperStart) books Ledger.empty paperStart
        records after) ∧
    (∃ found, dayGap (F := Double) [] paperStart = .ok (some found) ∧
      AddsSkip (extendLedger python.codec paperStart)
        (encodeSkip python.codec Ledger.empty found (pyStr "t")) Ledger.empty paperStart found) ∧
    (∃ records after,
      bookKrakenDay firstMarket paperStart [] (pyStr "t") paperStart (some firstSignals) =
        .ok (records, after) ∧
      AddsDay python.codec (extendKrakenLedger python.codec paperStart) krakenBooks Ledger.empty
        paperStart records after) ∧
    (∃ found, krakenDayGap (F := Double) [] paperStart = .ok (some found) ∧
      AddsSkip (extendKrakenLedger python.codec paperStart)
        (encodeKrakenSkip python.codec Ledger.empty found (pyStr "t")) Ledger.empty paperStart
        found) := by
  have verified : ∃ data, parseLedger python.codec paperStart data = .ok Ledger.empty := ⟨[], rfl⟩
  have krakenVerified : ∃ data, parseKrakenLedger python.codec paperStart data = .ok Ledger.empty :=
    ⟨[], rfl⟩
  obtain ⟨main, kraken⟩ := encoding_verified python python_lawful python_finite paperStart paperStart
    firstMarket (pyStr "t") (valid_pyStr "t") (some firstSignals) firstSignals_distinct Ledger.empty rfl
  obtain ⟨mainGap, krakenGap⟩ := encoding_verified python python_lawful python_finite paperStart
    paperStart [] (pyStr "t") (valid_pyStr "t") none (by simp) Ledger.empty rfl
  refine ⟨?_, ?_, ?_, ?_⟩
  · obtain ⟨records, after, isBooked, finite⟩ := exists_of_bookedFinite
      (bookDay firstMarket paperStart [] (pyStr "t") paperStart (some firstSignals)) firstDay_booked
    exact ⟨records, after, isBooked, (main verified).1 [] records after isBooked finite⟩
  · obtain ⟨found, isGap⟩ := exists_gap (dayGap (F := Double) [] paperStart) (by decide +kernel)
    exact ⟨found, isGap, (mainGap verified).2 found isGap⟩
  · obtain ⟨records, after, isBooked, finite⟩ := exists_of_bookedFinite
      (bookKrakenDay firstMarket paperStart [] (pyStr "t") paperStart (some firstSignals))
      firstKrakenDay_booked
    exact ⟨records, after, isBooked, (kraken krakenVerified).1 [] records after isBooked finite⟩
  · obtain ⟨found, isGap⟩ :=
      exists_gap (krakenDayGap (F := Double) [] paperStart) (by decide +kernel)
    exact ⟨found, isGap, (krakenGap krakenVerified).2 found isGap⟩

end CryptoRadar.Trend
