import CryptoRadar.Integrity.Checks

/-!
# The report on a snapshot

`evaluate_snapshot` of `domain/integrity.py`: every capability of one snapshot is checked, and
what passed is taken back where the clock does not pass. What blocks the selected opportunity is
read off the report.
-/

set_option autoImplicit false

namespace CryptoRadar.Integrity

open Checked

namespace Capability

/-- `capability in FRESHNESS_SENSITIVE`. -/
def freshnessSensitive : Capability → Bool
  | .spotTicker | .pairOhlc | .atr | .book | .trades | .futures => true
  | .clock | .metadata => false

/-- `capability in _SPOT_REQUIRED`. -/
def spotRequired : Capability → Bool
  | .spotTicker | .pairOhlc | .book => true
  | _ => false

/-- `capability in _SPOT_CAPABILITIES`. -/
def ofSpot : Capability → Bool
  | .spotTicker | .pairOhlc | .book | .atr | .trades => true
  | _ => false

end Capability

/-- What the checks of one moment are given. -/
structure MarketSnapshot where
  selected : InstrumentId
  ticker : Option TickerObservation
  ohlc : Option OhlcSeries
  book : Option BookSnapshot
  trades : Option TradesObservation
  clock : ClockSample
  futures : List FuturesExpectation
  metadata : List MetadataValue
  ohlcRequiredBars : ℤ
  claimAtr1h : Bool
  activeTradeClaim : Bool
  requiredDepth : Option RequiredDepth

/-- The results at a moment, under a policy. -/
structure IntegrityReport where
  evaluatedAt : ZonedTime
  policyVersion : String
  results : List CapabilityResult

namespace CapabilityResult

/-- Whether a result blocks the selected spot opportunity. -/
def blocks (item : CapabilityResult) : Bool :=
  if (item.capability.spotRequired ∨ item.capability = .clock) ∧ item.status ≠ .pass then true
  else item.capability.ofSpot ∧ item.status = .fail

end CapabilityResult

namespace IntegrityReport

/-- `report.result(capability, subject)`. -/
def result (report : IntegrityReport) (capability : Capability) (subject : String) :
    Except IntegrityFailure CapabilityResult :=
  require .key
    (report.results.find? fun item => item.capability = capability ∧ item.subject = subject)

/-- `report.clock`. -/
def clock (report : IntegrityReport) : Except IntegrityFailure CapabilityResult :=
  report.result .clock "utc"

/-- The results that block. -/
def blockingResults (report : IntegrityReport) : List CapabilityResult :=
  report.results.filter CapabilityResult.blocks

/-- `opportunity_blocked`. -/
def opportunityBlocked (report : IntegrityReport) : Bool := !report.blockingResults.isEmpty

/-- The futures that passed. -/
def eligibleFutures (report : IntegrityReport) : List String :=
  (report.results.filter fun item => item.capability = .futures ∧ item.status = .pass).map
    CapabilityResult.subject

end IntegrityReport

/-- `_clock_untrusted`. -/
def clockUntrusted (clock item : CapabilityResult) : CapabilityResult :=
  if ¬ item.capability.freshnessSensitive ∨ item.status ≠ .pass then item
  else
    result item.capability item.subject
      (item.reasons ++ [⟨.clockUntrusted, "clock", .status clock.status⟩]) item.timeBasis
      item.receivedAt item.sourceTime

section Evaluation

variable [Zones]

/-- The result about the range of an hour, where it is claimed. -/
def claimedAtr1h (snapshot : MarketSnapshot) (now : ZonedTime) (policy : IntegrityPolicy) :
    Except IntegrityFailure CapabilityResult :=
  if snapshot.claimAtr1h then evaluateAtr snapshot.ohlc snapshot.selected now .h1 policy
  else .ok (notApplicable .atr AtrTimeframe.h1.value)

def spotResults (snapshot : MarketSnapshot) (now : ZonedTime) (policy : IntegrityPolicy) :
    Except IntegrityFailure (List CapabilityResult) := do
  let selected := snapshot.selected
  let ticker ← evaluateTicker snapshot.ticker selected now policy
  let ohlc ← evaluateOhlc snapshot.ohlc selected now policy snapshot.ohlcRequiredBars
  let atr5m ← evaluateAtr snapshot.ohlc selected now .m5 policy
  let atr1h ← claimedAtr1h snapshot now policy
  let book ← evaluateBook snapshot.book selected now policy snapshot.requiredDepth
  let trades ← evaluateTrades snapshot.trades selected now policy snapshot.activeTradeClaim
  return [ticker, ohlc, atr5m, atr1h, book, trades]

def futuresResults (snapshot : MarketSnapshot) (now : ZonedTime) (policy : IntegrityPolicy) :
    Except IntegrityFailure (List CapabilityResult) :=
  if snapshot.futures.isEmpty then .ok [notApplicable .futures "*"]
  else snapshot.futures.mapM fun item => evaluateFutures item.observation item.instrument now policy

/-- `evaluate_snapshot`. -/
def evaluateSnapshot (snapshot : MarketSnapshot) (now : ZonedTime) (policy : IntegrityPolicy) :
    Except IntegrityFailure IntegrityReport := do
  let clock := evaluateClock snapshot.clock now policy
  let spot ← spotResults snapshot now policy
  let futures ← futuresResults snapshot now policy
  let metadata ← snapshot.metadata.mapM evaluateMetadata
  let results := spot ++ futures ++ metadata
  let results := if clock.status ≠ .pass then results.map (clockUntrusted clock) else results
  return { evaluatedAt := now, policyVersion := policy.version, results := results ++ [clock] }

end Evaluation

end CryptoRadar.Integrity
