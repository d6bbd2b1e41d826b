import CryptoRadar.Invocation.Domain
import CryptoRadar.Lib.Calendar
import CryptoRadar.Lib.Decimal
import CryptoRadar.Lib.Json
import CryptoRadar.Lib.Text

/-!
# Outcome subjects, quotes and labels

`domain/outcomes.py`: a subject is one observation at a decision, a quote is one observed top
of book, and a label is the outcome of a subject at a horizon. What the constructors of a
subject, of a recorded cost and of a quote check is carried by their structures. A label is
built by `OutcomeLabel.make`, which checks it; every other value of a label is computed.

Prices are decimals, and every operation on them is made in `outcomeContext`, except the
negation of a return, which the code leaves to the context of the thread.
-/

set_option autoImplicit false

namespace CryptoRadar.Outcomes

open Checked
open Invocation (InstrumentKind Direction)

/-- The codes of an `OutcomeInputError`. -/
inductive OutcomeErrorCode where
  | invalidField
  | naiveTimestamp
  | notDecimal
  | outOfRange
  | inconsistent
  deriving DecidableEq, Repr

/-- What the module raises: an `OutcomeInputError`, or an error of Python: a time outside the
calendar, a decimal signal outside `_exact_or_rounded`, a value the encoder refuses. -/
inductive OutcomeFailure where
  | outcome (code : OutcomeErrorCode) (field detail : String)
  | overflow
  | decimal (error : DecimalError)
  | encoding
  deriving DecidableEq, Repr

/-! ## Arithmetic -/

/-- `OUTCOME_CONTEXT`. -/
def outcomeContext : DecimalContext := ⟨50, .halfEven⟩

/-- The text of a decimal signal. -/
def decimalErrorText : DecimalError → String
  | .invalidOperation => "[<class 'decimal.InvalidOperation'>]"
  | .divisionByZero => "[<class 'decimal.DivisionByZero'>]"
  | .overflow => "[<class 'decimal.Overflow'>]"

/-- `_exact_or_rounded`: a signal is `OUT_OF_RANGE` of the field. -/
def exactOrRounded {α : Type} (field : String) : Except DecimalError α → Except OutcomeFailure α :=
  Except.mapError fun error => .outcome .outOfRange field (decimalErrorText error)

/-- `MAX_TEXT_LENGTH`. -/
def maxTextLength : ℕ := 200

/-- `_require_text` of a value that is text. -/
def requireText (value field : String) : Except OutcomeFailure Unit := do
  ensure (value ≠ "" ∧ Text.strip value = value ∧ value.length ≤ maxTextLength)
    (.outcome .invalidField field "must be 1..200 chars without edge whitespace")
  ensure (¬ value.toList.any Text.isControl)
    (.outcome .invalidField field "contains control characters")

/-! ## Vocabulary -/

/-- The horizons of a label. -/
inductive Horizon where
  | m15
  | h1
  | h4
  | h24
  deriving DecidableEq, Repr

/-- The minutes from a decision to its horizon. -/
def Horizon.minutes : Horizon → ℤ
  | .m15 => 15
  | .h1 => 60
  | .h4 => 240
  | .h24 => 1440

/-- The microseconds from a decision to its horizon. -/
def Horizon.duration (horizon : Horizon) : ℤ := Moment.seconds (horizon.minutes * 60)

/-- Whether a value of a label is there. -/
inductive Availability where
  | available
  | unavailable
  deriving DecidableEq, Repr

/-- Which quotes may be the exit of a horizon. -/
inductive LabelWindow where
  | forward
  | symmetric
  deriving DecidableEq, Repr

/-- Why one outcome value is absent. -/
inductive MissingReason where
  | quoteMissingAtHorizon
  | quoteInvalidAtHorizon
  | priceSourceUnsupported
  | noDirection
  | grossUnavailable
  | costNotRecorded
  | costIncomplete
  deriving DecidableEq, Repr

namespace MissingReason

/-- The text of a reason in an error. -/
def text : MissingReason → String
  | .quoteMissingAtHorizon => "MissingReason.QUOTE_MISSING_AT_HORIZON"
  | .quoteInvalidAtHorizon => "MissingReason.QUOTE_INVALID_AT_HORIZON"
  | .priceSourceUnsupported => "MissingReason.PRICE_SOURCE_UNSUPPORTED"
  | .noDirection => "MissingReason.NO_DIRECTION"
  | .grossUnavailable => "MissingReason.GROSS_UNAVAILABLE"
  | .costNotRecorded => "MissingReason.COST_NOT_RECORDED"
  | .costIncomplete => "MissingReason.COST_INCOMPLETE"

/-- The reasons why there is no market return. -/
def market : List MissingReason :=
  [.quoteMissingAtHorizon, .quoteInvalidAtHorizon, .priceSourceUnsupported]

/-- The reasons why there is no gross return. -/
def gross : List MissingReason := .noDirection :: market

/-- The reasons why there is no net return. -/
def net : List MissingReason := [.grossUnavailable, .costNotRecorded, .costIncomplete]

end MissingReason

/-- Why a subject has no link. -/
inductive LinkMissingReason where
  | notRecorded
  | legacyUnversioned
  deriving DecidableEq, Repr

/-- The text of a reason in the identity of a subject. -/
def LinkMissingReason.text : LinkMissingReason → String
  | .notRecorded => "not_recorded"
  | .legacyUnversioned => "legacy_unversioned"

/-- What a subject was decided by. -/
inductive DecisionKind where
  | invocation
  | decision
  deriving DecidableEq, Repr

/-- The text of a kind in the identity of a subject. -/
def DecisionKind.text : DecisionKind → String
  | .invocation => "invocation"
  | .decision => "decision"

/-- The sides of a recorded cost. -/
inductive Side where
  | long
  | short
  deriving DecidableEq, Repr

/-- Whether all components of a recorded cost are known. -/
inductive CostStatus where
  | complete
  | incomplete
  deriving DecidableEq, Repr

/-- `_SIDE_OF`. -/
def sideOf : Direction → Option Side
  | .long => some .long
  | .short => some .short
  | .none => none

/-! ## Subjects -/

/-- A symbol of a venue. -/
structure InstrumentId where
  venue : String
  symbol : String
  kind : InstrumentKind
  base : String
  quote : String
  sizeUnit : String
  deriving DecidableEq

/-- The decision a subject comes from. -/
structure DecisionRef where
  kind : DecisionKind
  refId : String
  deriving DecidableEq

/-- What the outcome keeps of a cost scenario; the total is set exactly when it is complete. -/
structure RecordedCost where
  policyVersion : String
  side : Side
  kind : InstrumentKind
  status : CostStatus
  totalFraction : Option Decimal
  consistent : status = .complete ↔ totalFraction.isSome
  versioned : requireText policyVersion "RecordedCost.policy_version" = .ok ()

/-- The cost recorded for a horizon. -/
structure HorizonCost where
  horizon : Horizon
  cost : RecordedCost

theorem hundred_positive : Decimal.lt (Decimal.ofNat 0) (Decimal.ofNat 100) = true := by decide

/-- One observation at a decision, to be labelled at every horizon. -/
structure OutcomeSubject where
  instrument : InstrumentId
  pair : String
  direction : Direction
  decisionAsOf : Moment
  entryMid : Decimal
  entryObservedAt : Moment
  evidence : String ⊕ LinkMissingReason
  decision : Option DecisionRef
  arm : Option String
  costs : List HorizonCost
  entryBefore : entryObservedAt ≤ decisionAsOf
  entryPositive : Decimal.lt (Decimal.ofNat 0) entryMid = true
  costsOnce : (costs.map HorizonCost.horizon).Nodup
  costsFit : ∀ entry ∈ costs, sideOf direction = some entry.cost.side ∧
    entry.cost.kind = instrument.kind

namespace OutcomeSubject

/-- `cost_for`. -/
def costFor (subject : OutcomeSubject) (horizon : Horizon) : Option RecordedCost :=
  (subject.costs.find? fun entry => entry.horizon = horizon).map HorizonCost.cost

/-- `target_at`. -/
def targetAt (subject : OutcomeSubject) (horizon : Horizon) : Except OutcomeFailure Moment :=
  require .overflow (subject.decisionAsOf.plus? horizon.duration)

end OutcomeSubject

section Identity

variable {F : Type} (codec : Codec F)

/-- A text in the identity of a subject. -/
def jsonText (value : String) : Json F := .str (pyStr value)

/-- A missing link in the identity of a subject. -/
def missingLink (reason : LinkMissingReason) : Json F :=
  .object [(pyStr "missing", jsonText reason.text)]

/-- The text of a kind of instrument. -/
def kindText : InstrumentKind → String
  | .spot => "spot"
  | .futures => "futures"

/-- The text of a direction. -/
def directionText : Direction → String
  | .long => "LONG"
  | .short => "SHORT"
  | .none => "NONE"

/-- What a subject is identified by: instrument, pair, direction, decision time and the links. -/
def identityJson (subject : OutcomeSubject) : Json F :=
  let instrument := subject.instrument
  .object [(pyStr "policy", jsonText "OUTCOME-1"), (pyStr "venue", jsonText instrument.venue),
    (pyStr "symbol", jsonText instrument.symbol), (pyStr "kind", jsonText (kindText instrument.kind)),
    (pyStr "base", jsonText instrument.base), (pyStr "quote", jsonText instrument.quote),
    (pyStr "size_unit", jsonText instrument.sizeUnit), (pyStr "pair", jsonText subject.pair),
    (pyStr "direction", jsonText (directionText subject.direction)),
    (pyStr "decision_as_of", jsonText (utcText subject.decisionAsOf)),
    (pyStr "evidence", subject.evidence.elim jsonText missingLink),
    (pyStr "decision", subject.decision.elim (missingLink .notRecorded) fun decision =>
      .object [(pyStr "kind", jsonText decision.kind.text), (pyStr "id", jsonText decision.refId)]),
    (pyStr "arm", subject.arm.elim (missingLink .notRecorded) jsonText)]

/-- Hash of the identity, with its prefix. -/
def subjectId (subject : OutcomeSubject) : Except OutcomeFailure PyStr := do
  let encoded ← require .encoding (codec.dumps (identityJson subject))
  return pyStr "outcome:sha256:" ++ codec.sha256Hex encoded

end Identity

/-! ## Quotes -/

/-- One observed top of book. No bid or ask means that it was not observed. -/
structure QuoteObservation where
  observedAt : Moment
  bid : Option Decimal
  ask : Option Decimal
  source : String
  sourced : requireText source "QuoteObservation.source" = .ok ()

/-- `(bid + ask) / 2` for a positive, uncrossed book. -/
def QuoteObservation.mid (quote : QuoteObservation) : Except OutcomeFailure (Option Decimal) :=
  match quote.bid, quote.ask with
  | some bid, some ask =>
      if Decimal.le bid (Decimal.ofNat 0) || Decimal.le ask (Decimal.ofNat 0) || Decimal.lt ask bid then
        .ok none
      else do
        let sum ← exactOrRounded "mid" (Decimal.add outcomeContext bid ask)
        let mid ← exactOrRounded "mid" (Decimal.div outcomeContext sum (Decimal.ofNat 2))
        return some mid
  | _, _ => .ok none

/-! ## Labels -/

/-- The outcome of one subject at one horizon, final once written. -/
structure OutcomeLabel where
  subjectId : PyStr
  horizon : Horizon
  status : Availability
  targetAt : Moment
  labelAvailableAt : Moment
  exitMid : Option Decimal
  exitObservedAt : Option Moment
  exitSource : Option String
  marketReturn : Option Decimal
  marketMissing : Option MissingReason
  grossMarkout : Option Decimal
  grossMissing : Option MissingReason
  netMarkout : Option Decimal
  netMissing : Option MissingReason
  costPolicyVersion : Option String
  deriving DecidableEq

namespace OutcomeLabel

/-- `_pair_ok`: a value or a reason of its kind. -/
def pairOk (value : Option Decimal) (reason : Option MissingReason) (allowed : List MissingReason)
    (field : String) : Except OutcomeFailure Unit := do
  ensure (value.isNone ≠ reason.isNone)
    (.outcome .inconsistent field "exactly one of value and reason must be set")
  ensure (∀ given ∈ reason, given ∈ allowed) (.outcome .inconsistent field
    ((reason.map MissingReason.text).getD "" ++ " is not a reason for this value"))

/-- The exit of an available label: a positive mid, and the availability its distance from the
target gives. -/
def checkExit (label : OutcomeLabel) (mid : Decimal) (observedAt : Moment) (source : String) :
    Except OutcomeFailure Unit := do
  ensure (Decimal.lt (Decimal.ofNat 0) mid) (.outcome .outOfRange "exit_mid" "must be > 0")
  let expected ← require .overflow
    (label.targetAt.plus? (observedAt.micros - label.targetAt.micros).natAbs)
  ensure (label.labelAvailableAt = expected) (.outcome .inconsistent "label_available_at"
    "must be target_at + |exit_observed_at - target_at|")
  requireText source "exit_source"

/-- The exit fields are all there, or none is, by the status. -/
def checkStatus (label : OutcomeLabel) : Except OutcomeFailure Unit :=
  match label.status with
  | .available =>
      match label.exitMid, label.exitObservedAt, label.exitSource, label.marketReturn with
      | some mid, some observedAt, some source, some _ => label.checkExit mid observedAt source
      | _, _, _, _ => .error (.outcome .inconsistent "exit" "an available label needs its exit quote")
  | .unavailable =>
      ensure (label.exitMid.isNone ∧ label.exitObservedAt.isNone ∧ label.exitSource.isNone ∧
          label.marketReturn.isNone)
        (.outcome .inconsistent "exit" "an unavailable label has no exit quote")

/-- The constructor, which checks the label. -/
def make (label : OutcomeLabel) : Except OutcomeFailure OutcomeLabel := do
  ensure (pyStr "outcome:sha256:" <+: label.subjectId)
    (.outcome .invalidField "subject_id" "not an outcome subject id")
  ensure (label.targetAt ≤ label.labelAvailableAt)
    (.outcome .inconsistent "label_available_at" "a label cannot be known before its horizon")
  label.checkStatus
  pairOk label.marketReturn label.marketMissing MissingReason.market "market_return"
  pairOk label.grossMarkout label.grossMissing MissingReason.gross "gross_markout"
  pairOk label.netMarkout label.netMissing MissingReason.net "net_markout"
  label.costPolicyVersion.elim (.ok ()) fun version => requireText version "cost_policy_version"
  return label

end OutcomeLabel

end CryptoRadar.Outcomes
