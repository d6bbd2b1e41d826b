import CryptoRadar.Lib.Checked
import CryptoRadar.Lib.Decimal
import CryptoRadar.Lib.Moment
import CryptoRadar.Lib.Text

/-!
# Quotes, exit levels and cents of the paper game

`domain/paper.py`, as far as the pilot uses it: which touch is a quote, where the EX-1 exit
levels of an entry lie, and which quote closes a position. A value of a quote is whatever the
caller or the database gave; it is checked here, and a `Quote` carries what the check found.
-/

set_option autoImplicit false

namespace CryptoRadar.Paper

open Checked

/-- `PAPER_CONTEXT`. -/
def paperContext : DecimalContext := ⟨50, .halfEven⟩

/-- The exponent of `CENT`. -/
def centExponent : ℤ := -2

/-- The decimal 10,000. -/
def bps : Decimal := .ofNat 10000

/-- The decimal 0. -/
def zero : Decimal := .ofNat 0

/-- The directions of a play. -/
inductive Direction where
  | long
  | short
  deriving DecidableEq, Repr

/-- The text of a direction. -/
def Direction.text : Direction → String
  | .long => "LONG"
  | .short => "SHORT"

/-- What is wrong with a quote. -/
inductive QuoteProblem where
  | missing
  | notANumber
  | notFinite
  | notPositive
  | crossed
  | notOnline
  deriving DecidableEq, Repr

/-- The text of a problem. -/
def QuoteProblem.text : QuoteProblem → String
  | .missing => "missing"
  | .notANumber => "not_a_number"
  | .notFinite => "not_finite"
  | .notPositive => "not_positive"
  | .crossed => "crossed"
  | .notOnline => "not_online"

/-- How a play ended. -/
inductive Outcome where
  | win
  | loss
  | flat
  deriving DecidableEq, Repr

/-- Why a play is closed. -/
inductive ExitReason where
  | stop
  | target
  | time
  deriving DecidableEq, Repr

/-- What the module raises: a `PaperInputError` of a field, a decimal signal, or an
`OverflowError` of the calendar. -/
inductive PaperFailure where
  | input (field detail : String)
  | decimal (error : DecimalError)
  | overflow
  deriving DecidableEq, Repr

/-- A decimal operation inside the module. -/
def calculated {α : Type} : Except DecimalError α → Except PaperFailure α :=
  Except.mapError .decimal

/-! ## Quotes -/

/-- A price as given. A float is finite with the decimal of its `repr`, or it is not; so is a
decimal. A truth value, a text and anything else is no number. -/
inductive PriceValue where
  | missing
  | integer (number : ℤ)
  | float (shown : Option Decimal)
  | decimal (number : Option Decimal)
  | other
  deriving DecidableEq, Repr

/-- A trading status as given. -/
inductive StatusValue where
  | missing
  | text (status : String)
  | other
  deriving DecidableEq, Repr

/-- A price above zero. -/
def positivePrice (number : Decimal) : Except QuoteProblem Decimal :=
  if Decimal.le number zero then .error .notPositive else .ok number

/-- `_price`. -/
def price : PriceValue → Except QuoteProblem Decimal
  | .missing => .error .missing
  | .integer number => positivePrice (.ofInt number)
  | .float (some shown) => positivePrice shown
  | .float none => .error .notFinite
  | .decimal (some number) => positivePrice number
  | .decimal none => .error .notFinite
  | .other => .error .notANumber

/-- A valid touch: positive and not crossed. -/
structure Quote where
  bid : Decimal
  ask : Decimal
  positive : Decimal.le bid zero = false
  askPositive : Decimal.le ask zero = false
  ordered : Decimal.lt ask bid = false

theorem price_ok {value : PriceValue} {number : Decimal} (checked : price value = .ok number) :
    Decimal.le number zero = false := by
  have positive : ∀ {given : Decimal}, positivePrice given = .ok number →
      Decimal.le number zero = false := by
    intro given result
    unfold positivePrice at result
    split at result
    next => cases result
    next above =>
      cases result
      exact Bool.eq_false_iff.mpr above
  match value with
  | .missing => cases checked
  | .integer _ => exact positive checked
  | .float (some _) => exact positive checked
  | .float none => cases checked
  | .decimal (some _) => exact positive checked
  | .decimal none => cases checked
  | .other => cases checked

/-- A status that does not keep the quote from being used. -/
def StatusValue.isOnline : StatusValue → Bool
  | .missing => true
  | .text status => Text.strip status = "" || (Text.strip status).toLower = "online"
  | .other => false

/-- A quote of two prices that are not crossed. -/
def quoteOf (bid ask : PriceValue) : Except QuoteProblem Quote :=
  match bidChecked : price bid with
  | .error problem => .error problem
  | .ok checkedBid =>
      match askChecked : price ask with
      | .error problem => .error problem
      | .ok checkedAsk =>
          if crossed : Decimal.lt checkedAsk checkedBid = true then .error .crossed
          else
            .ok ⟨checkedBid, checkedAsk, price_ok bidChecked, price_ok askChecked,
              Bool.eq_false_iff.mpr crossed⟩

/-- `validate_quote`: a quote when the touch can be traded on paper, else why not. -/
def validateQuote (bid ask : PriceValue) (status : StatusValue) : Except QuoteProblem Quote :=
  if status.isOnline then quoteOf bid ask else .error .notOnline

/-- `validate_atr`. -/
def validateAtr (value : PriceValue) : Except QuoteProblem Decimal := price value

/-! ## Amounts -/

/-- `_require_amount` of a finite decimal. -/
def requireAmount (field : String) (value : Decimal) (zeroAllowed : Bool) :
    Except PaperFailure Unit :=
  ensure (¬ (Decimal.lt value zero ∨ (Decimal.eq value zero ∧ ¬ zeroAllowed)))
    (.input field ("must be " ++ (if zeroAllowed then ">= 0" else "> 0") ++ ", got " ++ value.text))

/-- `cents`: half to even. -/
def cents (value : Decimal) : Except DecimalError Decimal :=
  Decimal.quantize paperContext .halfEven value centExponent

/-! ## Exit levels -/

/-- `EX1_POLICY_ID`. -/
def ex1PolicyId : String := "ex1_initial_paper_v1"

def ex1StopAtrMultiple : Decimal := .ofNat 2

def ex1TargetRMultiple : Decimal := .ofNat 2

def ex1MaxHoldMinutes : ℕ := 24 * 60

/-- The exits of an entry under their policy. -/
structure ExitLevels where
  policyId : String
  atr : Decimal
  entryPrice : Decimal
  stop : Decimal
  target : Decimal
  holdMinutes : ℕ
  deriving DecidableEq, Repr

/-- `due_at` of an aware time. -/
def dueAt (entryTs : Moment) (holdMinutes : ℕ) : Except PaperFailure Moment := do
  ensure (0 < holdMinutes)
    (.input "hold_minutes" ("must be a positive int, got " ++ toString holdMinutes))
  require .overflow (entryTs.plus? (Moment.seconds (holdMinutes * 60)))

/-- The EX-1 levels of an entry; none when a level is not positive. -/
def exitLevels (direction : Direction) (entry : Quote) (atr : Decimal) :
    Except PaperFailure (Option ExitLevels) := do
  requireAmount "atr" atr false
  let distance ← calculated (Decimal.mul paperContext ex1StopAtrMultiple atr)
  let reward ← calculated (Decimal.mul paperContext ex1TargetRMultiple distance)
  let entryPrice := match direction with
    | .long => entry.ask
    | .short => entry.bid
  let stop ← calculated (match direction with
    | .long => Decimal.sub paperContext entryPrice distance
    | .short => Decimal.add paperContext entryPrice distance)
  let target ← calculated (match direction with
    | .long => Decimal.add paperContext entryPrice reward
    | .short => Decimal.sub paperContext entryPrice reward)
  return if Decimal.le stop zero || Decimal.le target zero then none
    else some ⟨ex1PolicyId, atr, entryPrice, stop, target, ex1MaxHoldMinutes⟩

/-- Which quote closes a position, and why: the stop before the target, both before the time. -/
def exitDecision (direction : Direction) (stop target : Decimal) (due observedAt : Moment)
    (quote : Quote) : Except PaperFailure (Option ExitReason) := do
  requireAmount "stop" stop false
  requireAmount "target" target false
  let touched := match direction with
    | .long => (Decimal.le quote.bid stop, Decimal.le target quote.bid)
    | .short => (Decimal.le stop quote.ask, Decimal.le quote.ask target)
  return if touched.1 then some .stop
    else if touched.2 then some .target
    else if due ≤ observedAt then some .time
    else none

end CryptoRadar.Paper
