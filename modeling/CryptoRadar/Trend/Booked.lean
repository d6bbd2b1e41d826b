import CryptoRadar.Trend.Ledger

/-!
# The shape of a booked day

Booking goes through the books of a day and, for each book, through the sleeves of its rule.
What it does with one sleeve and how it writes the record of a book is left open here
(`addSleeveWith`, `addBookWith`). Whatever they are, the records are those of the books in
order, the asset entries of a record are those of the rule's sleeves in order, and the new
state of a book holds the sleeves of the fills its record describes (`BookedBook`).
-/

set_option autoImplicit false

namespace CryptoRadar.Trend

open Checked

variable {F : Type} [PyFloat F]

/-- What a day does with one sleeve: its entry in the record, and its fill. -/
abbrev SleeveStep (F : Type) [PyFloat F] :=
  Asset → Strategy F → Except PaperFailure (Json F × Fill F)

def addSleeveWith (step : SleeveStep F) (totals : BookTotals F) (sleeve : Asset × Strategy F) :
    Except PaperFailure (BookTotals F) := do
  let (record, fill) ← step sleeve.1 sleeve.2
  return ⟨totals.assets ++ [(pyStr sleeve.1.text, record)],
    totals.sleeves ++ [(sleeve.1.text, fill.sleeve)], totals.equity + fill.equityAfter,
    totals.equityBefore + fill.equityBefore, totals.cash + fill.sleeve.cash⟩

def addBookWith (step : Book → BookState F → SleeveStep F) (record : Book → BookTotals F → Record F)
    (states : Dict String (BookState F)) (done : List (Record F) × Dict String (BookState F))
    (book : Book) : Except PaperFailure (List (Record F) × Dict String (BookState F)) := do
  let state ← stateBefore states book
  let totals ← book.rule.sleeves.foldlM (addSleeveWith (step book state)) ⟨[], [], 0.0, 0.0, 0.0⟩
  return (done.1 ++ [record book totals], done.2.assign book.id totals.sleeves)

/-- The books of the paper trader are booked in this way. -/
theorem addBook_eq (inputs : DayInputs F) (states : Dict String (BookState F)) :
    addBook inputs states =
      addBookWith (sleeveDay inputs) (bookRecord inputs) states := rfl

/-- The entries and the sleeves that the totals of a book hold are those of its steps. -/
structure Totalled (step : SleeveStep F) (sleeves : List (Asset × Strategy F))
    (parts : List (Json F × Fill F)) (totals : BookTotals F) : Prop where
  steps : List.Forall₂ (fun sleeve part => step sleeve.1 sleeve.2 = .ok part) sleeves parts
  assets : totals.assets =
    (sleeves.zip parts).map fun pair => (pyStr pair.1.1.text, pair.2.1)
  sleeves : totals.sleeves =
    (sleeves.zip parts).map fun pair => (pair.1.1.text, pair.2.2.sleeve)

theorem totalled_of_foldlM {step : SleeveStep F} {equity before cash : F} :
    ∀ (sleeves : List (Asset × Strategy F)) {totals : BookTotals F},
      sleeves.foldlM (addSleeveWith step) ⟨[], [], equity, before, cash⟩ = .ok totals →
        ∃ parts, Totalled step sleeves parts totals := by
  intro sleeves
  induction sleeves using List.reverseRecOn with
  | nil =>
      intro totals folded
      cases folded
      exact ⟨[], .nil, rfl, rfl⟩
  | append_singleton front sleeve hyp =>
      intro totals folded
      rw [List.foldlM_append] at folded
      obtain ⟨middle, first, last⟩ := bind_eq_ok.mp folded
      obtain ⟨parts, totalled⟩ := hyp first
      rw [List.foldlM_cons] at last
      obtain ⟨after, added, finished⟩ := bind_eq_ok.mp last
      cases finished
      obtain ⟨⟨record, fill⟩, stepped, added⟩ := bind_eq_ok.mp added
      cases added
      have lengths := totalled.steps.length_eq
      refine ⟨parts ++ [(record, fill)], ?_, ?_, ?_⟩
      · exact List.rel_append totalled.steps (.cons stepped .nil)
      · rw [List.zip_append lengths, List.map_append, ← totalled.assets]
        rfl
      · rw [List.zip_append lengths, List.map_append, ← totalled.sleeves]
        rfl

/-- What the day says of one book: its record, and its new state. -/
structure BookedBook (step : Book → BookState F → SleeveStep F)
    (record : Book → BookTotals F → Record F) (states : Dict String (BookState F)) (book : Book)
    (written : Record F) (after : BookState F) : Prop where
  booked : ∃ state totals parts, stateBefore states book = .ok state ∧
    Totalled (step book state) book.rule.sleeves parts totals ∧ written = record book totals ∧
    after = totals.sleeves

/-- The records of a day are those of the books in order, and every book has its new state. -/
theorem booked_of_foldlM {step : Book → BookState F → SleeveStep F}
    {record : Book → BookTotals F → Record F} {states : Dict String (BookState F)} :
    ∀ (books : List Book) {records : List (Record F)} {after : Dict String (BookState F)},
      (books.map Book.id).Nodup →
      books.foldlM (addBookWith step record states) ([], []) = .ok (records, after) →
        ∃ news, after = (books.map Book.id).zip news ∧ news.length = books.length ∧
          List.Forall₂ (fun book pair => BookedBook step record states book pair.1 pair.2) books
            (records.zip news) ∧ records.length = books.length := by
  intro books
  induction books using List.reverseRecOn with
  | nil =>
      intro records after _ folded
      cases folded
      exact ⟨[], rfl, rfl, .nil, rfl⟩
  | append_singleton front book hyp =>
      intro records after distinct folded
      rw [List.map_append, List.nodup_append] at distinct
      obtain ⟨distinctFront, _, apart⟩ := distinct
      rw [List.foldlM_append] at folded
      obtain ⟨⟨done, doneStates⟩, first, last⟩ := bind_eq_ok.mp folded
      obtain ⟨news, isStates, newsLength, booked, lengths⟩ := hyp distinctFront first
      rw [List.foldlM_cons] at last
      obtain ⟨⟨all, allStates⟩, added, finished⟩ := bind_eq_ok.mp last
      cases finished
      obtain ⟨state, isState, added⟩ := bind_eq_ok.mp added
      obtain ⟨totals, isTotals, added⟩ := bind_eq_ok.mp added
      cases added
      obtain ⟨parts, totalled⟩ := totalled_of_foldlM _ isTotals
      have absent : doneStates.get? book.id = none := by
        refine Dict.get?_eq_none_iff.mpr fun item member same => ?_
        rw [isStates] at member
        exact apart item.1 (List.of_mem_zip member).1 book.id (by simp) same
      have new : BookedBook step record states book (record book totals) totals.sleeves :=
        ⟨state, totals, parts, isState, totalled, rfl, rfl⟩
      refine ⟨news ++ [totals.sleeves], ?_, by simp [newsLength], ?_, by simp [lengths]⟩
      · rw [Dict.assign_of_get?_eq_none absent, isStates, List.map_append,
          List.zip_append (by simp [newsLength])]
        rfl
      · rw [List.zip_append (lengths.trans newsLength.symm)]
        exact List.rel_append booked (.cons new .nil)

theorem Asset.text_injective : Function.Injective Asset.text := by
  intro first second
  cases first <;> cases second <;> decide

/-- The assets of a rule are those of its sleeves, each of them once. -/
theorem Rule.sleeves_assets (rule : Rule) :
    (rule.sleeves.map fun sleeve : Asset × Strategy F => sleeve.1) = rule.assets := by
  cases rule <;> rfl

theorem Rule.assets_nodup (rule : Rule) : rule.assets.Nodup := by
  cases rule <;> decide

/-- Every asset of a rule has a sleeve and its part of the day. -/
theorem exists_part {step : SleeveStep F} {rule : Rule} {parts : List (Json F × Fill F)}
    {totals : BookTotals F} (totalled : Totalled step rule.sleeves parts totals) {asset : Asset}
    (isAsset : asset ∈ rule.assets) :
    ∃ (strategy : Strategy F) (part : Json F × Fill F),
      ((asset, strategy), part) ∈ rule.sleeves.zip parts := by
  have lengths := totalled.steps.length_eq
  rw [← Rule.sleeves_assets (F := F), ← List.map_fst_zip lengths.le, List.map_map] at isAsset
  obtain ⟨⟨⟨_, strategy⟩, part⟩, member, rfl⟩ := List.mem_map.mp isAsset
  exact ⟨strategy, part, member⟩

/-- What the parts of a day, under the names of their assets, say of one asset. -/
theorem get?_of_sleeve {Name Value : Type} [DecidableEq Name] (name : Asset → Name)
    (injective : Function.Injective name) {rule : Rule} {parts : List (Json F × Fill F)}
    (lengths : (rule.sleeves : List (Asset × Strategy F)).length = parts.length)
    (value : Json F × Fill F → Value) {pair : (Asset × Strategy F) × (Json F × Fill F)}
    (member : pair ∈ rule.sleeves.zip parts) :
    Dict.get? ((rule.sleeves.zip parts).map fun pair : (Asset × Strategy F) × (Json F × Fill F) =>
      (name pair.1.1, value pair.2)) (name pair.1.1) = some (value pair.2) := by
  refine (Dict.get?_eq_some_iff ?_).mpr (List.mem_map.mpr ⟨pair, member, rfl⟩)
  have names : ((rule.sleeves.zip parts).map fun pair : (Asset × Strategy F) × (Json F × Fill F) =>
      (name pair.1.1, value pair.2)).map Prod.fst = rule.assets.map name := by
    have fronts := List.map_fst_zip lengths.le
    rw [← Rule.sleeves_assets (F := F), List.map_map, List.map_map]
    conv_rhs => rw [← fronts, List.map_map]
    rfl
  unfold Dict.Distinct
  rw [names]
  exact rule.assets_nodup.map injective

/-- The ids of the books are different. -/
theorem books_distinct : (books.map Book.id).Nodup := by
  decide +kernel

/-! ## Booking a day -/

/-- What a booked day was computed from, and what it says of each book. -/
theorem bookDay_eq_ok {F : Type} [PyMath F] {market : Market F} {day start : Date}
    {states after : Dict String (BookState F)} {ts : PyStr} {signals : Option (DaySignals F)}
    {records : List (Record F)}
    (isBooked : bookDay market day states ts start signals = .ok (records, after)) :
    ∃ inputs : DayInputs F, inputs.day = day ∧ inputs.ts = ts ∧
      signals.elim (daySignals market day) .ok = .ok inputs.signals ∧
      dayPrices market day = .ok inputs.prices ∧
      ∃ news, after = (books.map Book.id).zip news ∧ news.length = books.length ∧
        List.Forall₂ (fun book pair =>
          BookedBook (sleeveDay inputs) (bookRecord inputs) states book pair.1 pair.2) books
          (records.zip news) ∧ records.length = books.length := by
  obtain ⟨_, _, isBooked⟩ := bind_eq_ok.mp isBooked
  obtain ⟨given, isGiven, isBooked⟩ := bind_eq_ok.mp isBooked
  obtain ⟨prices, isPrices, isBooked⟩ := bind_eq_ok.mp isBooked
  simp only [addBook_eq] at isBooked
  exact ⟨_, rfl, rfl, isGiven, isPrices, booked_of_foldlM books books_distinct isBooked⟩

theorem booked_of_mem {step : Book → BookState F → SleeveStep F}
    {record : Book → BookTotals F → Record F} {states : Dict String (BookState F)} {books : List Book}
    {records : List (Record F)} {news : List (BookState F)}
    (booked : List.Forall₂ (fun book pair => BookedBook step record states book pair.1 pair.2) books
      (records.zip news)) (recordsLength : records.length = books.length)
    (newsLength : news.length = books.length) {book : Book} (isBook : book ∈ books) :
    ∃ written ∈ records, ∃ new, (book.id, new) ∈ (books.map Book.id).zip news ∧
      BookedBook step record states book written new := by
  obtain ⟨index, inside, rfl⟩ := List.getElem_of_mem isBook
  have inZip : index < (records.zip news).length := by
    rw [List.length_zip]
    omega
  refine ⟨records.get ⟨index, by omega⟩, List.get_mem _ _, news.get ⟨index, by omega⟩, ?_, ?_⟩
  · have inNames : index < ((books.map Book.id).zip news).length := by
      rw [List.length_zip, List.length_map]
      omega
    have atIndex := List.getElem_mem inNames
    rw [List.getElem_zip, List.getElem_map] at atIndex
    exact atIndex
  · have atIndex := booked.get inside inZip
    simpa using atIndex

/-- Every record of a booked day is that of one of the books. -/
theorem exists_booked_of_mem {step : Book → BookState F → SleeveStep F}
    {record : Book → BookTotals F → Record F} {states : Dict String (BookState F)}
    {books : List Book} {records : List (Record F)} {news : List (BookState F)}
    (booked : List.Forall₂ (fun book pair => BookedBook step record states book pair.1 pair.2) books
      (records.zip news)) (lengths : records.length = news.length) {written : Record F}
    (member : written ∈ records) : ∃ book after, BookedBook step record states book written after := by
  obtain ⟨index, inside, rfl⟩ := List.getElem_of_mem member
  have inZip : index < (records.zip news).length := by
    rw [List.length_zip]
    omega
  have inBooks : index < books.length := by
    rw [booked.length_eq]
    exact inZip
  refine ⟨books.get ⟨index, inBooks⟩, news.get ⟨index, by omega⟩, ?_⟩
  have atIndex := booked.get inBooks inZip
  simpa using atIndex

end CryptoRadar.Trend
