import CryptoRadar.Costs.Agreement

/-!
# Missing is never zero

A component that is not known leaves a missing line, and only such a component does: each part of
the price has one exactly when its input is not given (`legPart_missing`, `feePart_missing`,
`fundingPart_missing`, `fxPart_missing`). A part without a missing line itemises what it priced, so
a complete scenario has every line it needs, once, and an incomplete one has no total
(`missing_is_never_zero`).
-/

set_option autoImplicit false

namespace CryptoRadar.Costs

open Checked

/-- What a scenario needs to know before it has a total. -/
structure Known (scenario : CostScenarioInput) : Prop where
  spread : scenario.spreadConvention = .slippageFromMid ∨ ∃ spread, scenario.spread = .given spread
  slippage : ∀ direction, ∃ slippage,
    scenario.slippage direction = .given slippage ∧ slippage.coverage = .full
  fee : ∀ leg, ∃ fee, scenario.fee leg = .given fee
  funding : scenario.instrument.kind = .futures → scenario.fundingIntervals ≠ 0 →
    ∃ funding, scenario.funding = .given funding
  fx : ∀ report quote, scenario.reportCurrency = some report →
    scenario.instrument.quoteCurrency = some quote → report ≠ quote → ∃ fx, scenario.fx = .given fx

/-- What a line is for: its component, and its leg. -/
def CostLine.place (line : CostLine) : CostComponent × Option Leg := (line.component, line.leg)

/-! ## The spread -/

theorem spreadPart_missing {scenario : CostScenarioInput} {part : Part (Option Decimal)}
    (isPart : spreadPart scenario = .ok part) :
    part.missing = [] ↔
      scenario.spreadConvention = .slippageFromMid ∨ ∃ spread, scenario.spread = .given spread := by
  cases convention : scenario.spreadConvention with
  | slippageFromMid =>
      simp only [spreadPart, convention] at isPart
      cases supplied : scenario.spread <;> rw [supplied] at isPart <;> cases isPart <;> simp
  | halfSpreadPlusTouchSlippage =>
      simp only [spreadPart, convention] at isPart
      cases supplied : scenario.spread with
      | given spread =>
          rw [supplied] at isPart
          obtain ⟨half, _, made⟩ := bind_eq_ok.mp isPart
          cases made
          simp
      | missing why =>
          rw [supplied] at isPart
          cases isPart
          simp [Leg.all]
      | absent =>
          rw [supplied] at isPart
          cases isPart
          simp [Leg.all]

/-- The places of the spread lines of a leg: none where the spread is part of the slippage. -/
def SpreadConvention.places (leg : Leg) : SpreadConvention → List (CostComponent × Option Leg)
  | .slippageFromMid => []
  | .halfSpreadPlusTouchSlippage => [(.spread, some leg)]

/-- There is a half spread unless it is part of the slippage. -/
theorem spreadPart_places {scenario : CostScenarioInput} {part : Part (Option Decimal)}
    (isPart : spreadPart scenario = .ok part) (known : part.missing = []) (leg : Leg) :
    part.value.toList.map (fun _ => (CostComponent.spread, some leg)) =
      scenario.spreadConvention.places leg := by
  cases convention : scenario.spreadConvention with
  | slippageFromMid =>
      simp only [spreadPart, convention] at isPart
      cases supplied : scenario.spread <;> rw [supplied] at isPart <;> cases isPart <;> rfl
  | halfSpreadPlusTouchSlippage =>
      obtain none | ⟨spread, supplied⟩ := (spreadPart_missing isPart).mp known
      · rw [convention] at none
        cases none
      · simp only [spreadPart, convention, supplied] at isPart
        obtain ⟨half, _, made⟩ := bind_eq_ok.mp isPart
        cases made
        rfl

/-! ## The legs -/

theorem legPart_missing {scenario : CostScenarioInput} {spread : Part (Option Decimal)} {leg : Leg}
    {part : Part (Option Fill)} (isPart : legPart scenario spread leg = .ok part) :
    part.missing = [] ↔ ∃ slippage,
      scenario.slippage (legDirection scenario.side leg) = .given slippage ∧
        slippage.coverage = .full := by
  unfold legPart at isPart
  simp only at isPart
  cases supplied : scenario.slippage (legDirection scenario.side leg) with
  | missing why =>
      rw [supplied] at isPart
      cases isPart
      simp
  | given slippage =>
      rw [supplied] at isPart
      cases coverage : slippage.coverage with
      | partialDepth =>
          simp only [if_pos coverage] at isPart
          cases isPart
          simp [coverage]
      | full =>
          have covered : slippage.coverage ≠ .partialDepth := by simp [coverage]
          simp only [if_neg covered] at isPart
          split at isPart
          next =>
            cases isPart
            simp [coverage]
          next =>
            obtain ⟨fraction, _, isPart⟩ := bind_eq_ok.mp isPart
            obtain ⟨fill, _, made⟩ := bind_eq_ok.mp isPart
            cases made
            simp [coverage]

/-- A leg with a fill has a line for its slippage and one for its half spread, if there is one. -/
theorem legPart_places {scenario : CostScenarioInput} {spread : Part (Option Decimal)} {leg : Leg}
    {part : Part (Option Fill)} (isPart : legPart scenario spread leg = .ok part)
    (observed : spread.missing = []) (known : part.missing = []) :
    part.value.isSome ∧ part.lines.map CostLine.place =
      spread.value.toList.map (fun _ => (.spread, some leg)) ++ [(.slippage, some leg)] := by
  unfold legPart at isPart
  simp only at isPart
  split at isPart
  next =>
    cases isPart
    cases known
  next slippage _ =>
    split at isPart
    next =>
      cases isPart
      cases known
    next =>
      split at isPart
      next unobserved => exact absurd observed unobserved
      next =>
        obtain ⟨fraction, _, isPart⟩ := bind_eq_ok.mp isPart
        obtain ⟨fill, isFill, made⟩ := bind_eq_ok.mp isPart
        cases made
        have half := (fillOf_toRat isFill).1
        simp only [Option.isSome_some, true_and, List.map_append, List.map_map, half]
        rfl

/-! ## Fees, funding and the report currency -/

theorem feePart_missing {scenario : CostScenarioInput} {leg : Leg} {fill : Option Fill}
    {part : Part (Option Decimal)} (isPart : feePart scenario leg fill = .ok part) :
    part.missing = [] ↔ ∃ fee, scenario.fee leg = .given fee := by
  unfold feePart at isPart
  cases supplied : scenario.fee leg with
  | missing why =>
      rw [supplied] at isPart
      cases isPart
      simp
  | given fee =>
      rw [supplied] at isPart
      cases fill with
      | none =>
          cases isPart
          simp
      | some fill =>
          obtain ⟨fraction, _, made⟩ := bind_eq_ok.mp isPart
          cases made
          simp

theorem feePart_places {scenario : CostScenarioInput} {leg : Leg} {fill : Option Fill}
    {part : Part (Option Decimal)} (isPart : feePart scenario leg fill = .ok part)
    (filled : fill.isSome) (known : part.missing = []) :
    part.lines.map CostLine.place = [(.fee, some leg)] := by
  obtain ⟨fee, supplied⟩ := (feePart_missing isPart).mp known
  obtain ⟨fill, rfl⟩ := Option.isSome_iff_exists.mp filled
  simp only [feePart, supplied] at isPart
  obtain ⟨fraction, _, made⟩ := bind_eq_ok.mp isPart
  cases made
  rfl

theorem fundingPart_missing {scenario : CostScenarioInput} {part : Part Decimal}
    (isPart : fundingPart scenario = .ok part) :
    part.missing = [] ↔ (scenario.instrument.kind = .futures → scenario.fundingIntervals ≠ 0 →
      ∃ funding, scenario.funding = .given funding) := by
  cases kind : scenario.instrument.kind with
  | spot =>
      simp only [fundingPart, kind] at isPart
      cases supplied : scenario.funding <;> rw [supplied] at isPart <;> cases isPart <;> simp
  | futures =>
      simp only [fundingPart, kind] at isPart
      split at isPart
      next none =>
        cases isPart
        simp [none]
      next some =>
        cases supplied : scenario.funding with
        | given funding =>
            rw [supplied] at isPart
            obtain ⟨fraction, _, made⟩ := bind_eq_ok.mp isPart
            cases made
            simp
        | missing why =>
            rw [supplied] at isPart
            cases isPart
            simp [some]
        | absent =>
            rw [supplied] at isPart
            cases isPart
            simp [some]

/-- Funding has one line, or none. -/
theorem fundingPart_places {scenario : CostScenarioInput} {part : Part Decimal}
    (isPart : fundingPart scenario = .ok part) :
    part.lines.map CostLine.place = [] ∨ part.lines.map CostLine.place = [(.funding, none)] := by
  unfold fundingPart at isPart
  split at isPart
  next =>
    split at isPart
    next => cases isPart
    next =>
      cases isPart
      exact .inl rfl
  next =>
    split at isPart
    next =>
      cases isPart
      exact .inl rfl
    next =>
      split at isPart
      next =>
        obtain ⟨fraction, _, made⟩ := bind_eq_ok.mp isPart
        cases made
        exact .inr rfl
      next =>
        cases isPart
        exact .inl rfl

theorem fxPart_missing {scenario : CostScenarioInput} {part : Part (Option Decimal)}
    (isPart : fxPart scenario = .ok part) :
    part.missing = [] ↔ ∀ report quote, scenario.reportCurrency = some report →
      scenario.instrument.quoteCurrency = some quote → report ≠ quote →
      ∃ fx, scenario.fx = .given fx := by
  cases reports : scenario.reportCurrency with
  | none =>
      simp only [fxPart, reports] at isPart
      cases isPart
      simp
  | some report =>
      cases quotes : scenario.instrument.quoteCurrency with
      | none =>
          simp only [fxPart, reports, quotes] at isPart
          cases isPart
          simp
      | some quote =>
          simp only [fxPart, reports, quotes] at isPart
          split at isPart
          next same =>
            cases isPart
            simp [same]
          next other =>
            cases supplied : scenario.fx with
            | given fx =>
                rw [supplied] at isPart
                obtain ⟨_, _, made⟩ := bind_eq_ok.mp isPart
                cases made
                simp
            | missing why =>
                rw [supplied] at isPart
                cases isPart
                simp [other]
            | absent =>
                rw [supplied] at isPart
                cases isPart
                simp [other]

/-! ## The scenario -/

structure Unpriced (priced : CostScenario) : Prop where
  missing : priced.missing ≠ []
  totalFraction : priced.totalFraction = none
  totalQuote : priced.totalQuote = none
  totalReport : priced.totalReport = none
  cashflow : priced.cashflow = none

/-- What is priced has a missing component exactly when it is incomplete. -/
theorem priceRoundTrip_missing {scenario : CostScenarioInput} {priced : CostScenario}
    (isPriced : priceRoundTrip scenario = .ok priced) :
    (priced.missing = [] ↔ Known scenario) ∧
      (priced.missing = [] ↔ priced.status = .complete) ∧
      (priced.status = .complete ↔ priced.totalFraction.isSome) ∧
      (priced.status = .incomplete → Unpriced priced) := by
  obtain ⟨spread, isSpread, isPriced⟩ := bind_eq_ok.mp isPriced
  obtain ⟨_, _, isPriced⟩ := bind_eq_ok.mp isPriced
  obtain ⟨_, _, isPriced⟩ := bind_eq_ok.mp isPriced
  obtain ⟨entry, isEntry, isPriced⟩ := bind_eq_ok.mp isPriced
  obtain ⟨exit, isExit, isPriced⟩ := bind_eq_ok.mp isPriced
  obtain ⟨entryFee, isEntryFee, isPriced⟩ := bind_eq_ok.mp isPriced
  obtain ⟨exitFee, isExitFee, isPriced⟩ := bind_eq_ok.mp isPriced
  obtain ⟨funding, isFunding, isPriced⟩ := bind_eq_ok.mp isPriced
  obtain ⟨fx, isFx, isPriced⟩ := bind_eq_ok.mp isPriced
  dsimp only at isPriced
  have known : spread.missing ++ entry.missing ++ exit.missing ++ entryFee.missing ++
      exitFee.missing ++ funding.missing ++ fx.missing = [] ↔ Known scenario := by
    simp only [List.append_eq_nil_iff, spreadPart_missing isSpread, legPart_missing isEntry,
      legPart_missing isExit, feePart_missing isEntryFee, feePart_missing isExitFee,
      fundingPart_missing isFunding, fxPart_missing isFx]
    constructor
    · rintro ⟨⟨⟨⟨⟨⟨spread, entrySlippage⟩, exitSlippage⟩, entryFee⟩, exitFee⟩, funding⟩, fx⟩
      refine ⟨spread, ?_, ?_, funding, fx⟩
      · -- The legs of a side take both directions.
        intro direction
        cases side : scenario.side <;> rw [side] at entrySlippage exitSlippage <;> cases direction
        exacts [entrySlippage, exitSlippage, exitSlippage, entrySlippage]
      · intro leg
        cases leg
        exacts [entryFee, exitFee]
    · intro known
      exact ⟨⟨⟨⟨⟨⟨known.spread, known.slippage _⟩, known.slippage _⟩, known.fee _⟩, known.fee _⟩,
        known.funding⟩, known.fx⟩
  split at isPriced
  next lacking =>
    cases isPriced
    refine ⟨known, ?_, ?_, ?_⟩
    · constructor
      · intro none
        exact absurd none lacking
      · intro complete
        cases complete
    · simp
    · intro _
      exact ⟨lacking, rfl, rfl, rfl, rfl⟩
  next none =>
    obtain ⟨total, _, isPriced⟩ := bind_eq_ok.mp isPriced
    obtain ⟨money, _, made⟩ := bind_eq_ok.mp isPriced
    cases made
    rw [not_not] at none
    refine ⟨?_, ?_, ?_, ?_⟩
    · simpa using known.mp none
    · simp
    · simp
    · intro incomplete
      cases incomplete

theorem priced_places {scenario : CostScenarioInput} {priced : CostScenario}
    (isPriced : priceRoundTrip scenario = .ok priced) (complete : priced.status = .complete) :
    ∃ funding, (funding = [] ∨ funding = [(CostComponent.funding, none)]) ∧
      priced.lines.map CostLine.place =
        (scenario.spreadConvention.places .entry ++ [(.slippage, some .entry)]) ++
          (scenario.spreadConvention.places .exit ++ [(.slippage, some .exit)]) ++
          [(.fee, some .entry)] ++ [(.fee, some .exit)] ++ funding := by
  obtain ⟨⟨spread, entry, exit, entryFee, exitFee, funding, fx, total, money, isSpread, isEntry,
    isExit, isEntryFee, isExitFee, isFunding, _, none, lines, _⟩, _⟩ :=
    pricedFrom_of_complete isPriced complete
  obtain ⟨noSpread, noEntry, noExit, noEntryFee, noExitFee, _⟩ := none
  obtain ⟨entryFilled, entryPlaces⟩ := legPart_places isEntry noSpread noEntry
  obtain ⟨exitFilled, exitPlaces⟩ := legPart_places isExit noSpread noExit
  refine ⟨_, fundingPart_places isFunding, ?_⟩
  rw [lines]
  simp only [List.map_append, entryPlaces, exitPlaces, spreadPart_places isSpread noSpread,
    feePart_places isEntryFee entryFilled noEntryFee, feePart_places isExitFee exitFilled noExitFee]

/-- **Missing is never zero**: what is priced is complete, with a total, exactly when every
component the scenario needs is known. A complete scenario has on each leg one line of slippage, one
of the fee and one of the spread unless the slippage is from the mid, and at most one line of
funding; an incomplete one says what is missing and has no total, money or cash. -/
theorem missing_is_never_zero (scenario : CostScenarioInput) (priced : CostScenario)
    (isPriced : priceRoundTrip scenario = .ok priced) :
    (priced.status = .complete ↔ Known scenario) ∧
      (priced.status = .complete ↔ priced.totalFraction.isSome) ∧
      (priced.status = .complete →
        (∀ leg, (priced.lines.map CostLine.place).count (.slippage, some leg) = 1 ∧
          (priced.lines.map CostLine.place).count (.fee, some leg) = 1 ∧
          (priced.lines.map CostLine.place).count (.spread, some leg) =
            if scenario.spreadConvention = .slippageFromMid then 0 else 1) ∧
        priced.lines.countP (fun line => line.component = .funding) ≤ 1) ∧
      (priced.status = .incomplete → Unpriced priced) := by
  obtain ⟨known, complete_iff, total, unpriced⟩ := priceRoundTrip_missing isPriced
  refine ⟨complete_iff.symm.trans known, total, ?_, unpriced⟩
  intro complete
  obtain ⟨funding, isFunding, places⟩ := priced_places isPriced complete
  have fundings : priced.lines.countP (fun line => line.component = .funding) =
      (priced.lines.map CostLine.place).countP (fun place => place.1 = .funding) := by
    rw [List.countP_map]
    rfl
  rw [fundings, places]
  generalize scenario.spreadConvention = convention
  constructor
  · intro leg
    obtain rfl | rfl := isFunding <;> cases convention <;> cases leg <;> decide
  · obtain rfl | rfl := isFunding <;> cases convention <;> decide

/-- The spot round trip with its book is complete. -/
theorem missing_is_never_zero_spot :
    ∃ priced, priceRoundTrip observedScenario = .ok priced ∧ Known observedScenario := by
  obtain ⟨priced, isPriced, complete⟩ := observedScenario_priced
  exact ⟨priced, isPriced, (missing_is_never_zero observedScenario priced isPriced).1.mp complete⟩

end CryptoRadar.Costs
