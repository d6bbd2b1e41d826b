import CryptoRadar.Lib.JsonText

/-!
# What the experiments raise

The errors of `domain/experiments.py`, which a calibration of its cohorts passes on, and the encoding of
the texts that are hashed.
-/

set_option autoImplicit false

namespace CryptoRadar.Experiments

/-! ## Errors -/

inductive ExperimentErrorCode where
  | invalidField
  | duplicateObservation
  | inconsistent
  deriving DecidableEq, Repr

/-- What the module raises: an `ExperimentInputError`, or an error of Python: a time outside the
calendar, a reason that has no exclusion, a failed assertion, a text that has no encoding. -/
inductive ExperimentFailure where
  | experiment (code : ExperimentErrorCode) (field : String) (detail : PyStr)
  | overflow
  | key
  | assertion
  | encoding
  deriving DecidableEq, Repr

/-! ## Texts -/

/-- The UTF-8 encoding of a code point; a surrogate has none. -/
def utf8Char (code : ℕ) : Option Bytes :=
  let follow (shift : ℕ) : UInt8 := UInt8.ofNat (0x80 + code / 2 ^ shift % 64)
  if code < 0x80 then some [UInt8.ofNat code]
  else if code < 0x800 then some [UInt8.ofNat (0xC0 + code / 64), follow 0]
  else if 0xD800 ≤ code ∧ code < 0xE000 then none
  else if code < 0x10000 then some [UInt8.ofNat (0xE0 + code / 4096), follow 6, follow 0]
  else some [UInt8.ofNat (0xF0 + code / 262144), follow 12, follow 6, follow 0]

end CryptoRadar.Experiments
