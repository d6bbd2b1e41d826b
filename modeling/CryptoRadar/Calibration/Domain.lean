import CryptoRadar.Experiments.Domain
import CryptoRadar.Lib.Number

/-!
# Metrics

`domain/calibration.py`: the metrics of the held-out block and what the module raises.

Floats are a type with the operations of Python, those of `math` that the module uses included
(`CalibrationMath`); no law of them is assumed.
-/

set_option autoImplicit false

namespace CryptoRadar.Calibration

open Checked

/-- The other functions of floats and of `math` that are used. -/
class CalibrationMath (F : Type) extends PyMath F where
  neg : F → F
  exp : F → Except NumberError F
  log1p : F → Except NumberError F
  /-- `math.fsum`. -/
  fsum : List F → Except NumberError F
  /-- `float.hex`. -/
  hex : F → String

/-! ## Settings -/

def binCount : ℕ := 10

def minBinSamples : ℕ := 20

/-! ## Errors -/

/-- The codes of `CalibrationError`. -/
inductive CalibrationErrorCode where
  | invalidField
  | selfConfidenceRefused
  | duplicateFeatures
  | inconsistent
  deriving DecidableEq, Repr

/-- What the module raises: a `CalibrationInputError`, or an error of the evaluation it builds, of
arithmetic, of rows of different lengths, of reading the manifest, or a failed assertion. -/
inductive CalibrationFailure where
  | calibration (code : CalibrationErrorCode) (field : String) (detail : PyStr)
  | experiment (failure : Experiments.ExperimentFailure)
  | number (error : NumberError)
  | lengths
  | json (failure : LoadsFailure)
  | assertion
  deriving DecidableEq, Repr

/-- A result of arithmetic. -/
def numeric {α : Type} : Except NumberError α → Except CalibrationFailure α :=
  Except.mapError .number

/-! ## Vocabulary -/

/-- Why a calibration is not available. -/
inductive UnavailableReason where
  | missingFeatures
  | emptyBlock
  | singleClassBlock
  | notConverged
  | smallBins
  | brierNotBetter
  | calibrationErrorHigh
  deriving DecidableEq, Repr

/-! ## Bins -/

/-- One bin of the reliability table. -/
structure ReliabilityBin (F : Type) where
  count : ℕ
  positives : ℕ
  meanProbability : F
  positiveRate : F
  lowest : F
  highest : F

/-- The measures of a calibration with its bins. -/
structure CalibrationMetrics (F : Type) where
  samples : ℕ
  positives : ℕ
  brier : F
  prevalence : F
  prevalenceBrier : F
  calibrationError : F
  bins : List (ReliabilityBin F)

/-- The bins with too few samples. -/
def CalibrationMetrics.smallBins {F : Type} (metrics : CalibrationMetrics F) : ℕ :=
  metrics.bins.countP fun bin => bin.count < minBinSamples

end CryptoRadar.Calibration
