import CryptoRadar.Lib.Double
import CryptoRadar.Lib.Sha256
import CryptoRadar.Trend.Canonical

/-!
# The platform of the program

The platform the program runs on: doubles with their text, `hashlib.sha256` and the limits of
`json`. It is lawful (`python_lawful`), so what is proved of every lawful platform holds of it, and
everything in it can be evaluated. `flatSeries` builds market data of it to evaluate on.
-/

set_option autoImplicit false

namespace CryptoRadar.Trend

/-- Doubles, SHA-256 and the limits of `json`. The text of a value in an error message is not
written out. -/
def python : Platform Double where
  floats := Double.floatText
  limits := ⟨4300, 900, 900, JsonLimits.pythonDepth, JsonLimits.pythonDepth, JsonLimits.pythonDigits⟩
  sha256Hex := Sha256.hexdigest
  floatEquals := Double.equalsInt
  repr _ := ""

theorem python_lawful : python.Lawful where
  floats := Double.lawful
  hexDigits := Sha256.hexdigest_hex

theorem python_finite : python.Finite where
  noConstant := Double.constant?_of_isFinite

/-! ## Series at one price -/

theorem priced_64000 : PyFloat.isFinite (64000.0 : Double) = true ∧
    PyFloat.lt 0.0 (64000.0 : Double) = true := by
  decide +kernel

theorem priced_2500 : PyFloat.isFinite (2500.0 : Double) = true ∧
    PyFloat.lt 0.0 (2500.0 : Double) = true := by
  decide +kernel

theorem dayOpenMs_lt {earlier later : Date} (before : earlier < later) :
    dayOpenMs earlier < dayOpenMs later :=
  (lt_dayOpenMs_iff (utcDay?_dayOpenMs earlier)).mpr before

/-- A series whose bars stand on the given days, and which may show the open of a later one, all at
one price. -/
def flatSeries (symbol : String) (days : List Date) (live : Option Date) (price : Double)
    (ascending : days.Pairwise (· < ·)) (last : ∀ day ∈ live, ∀ earlier ∈ days, earlier < day)
    (priced : PyFloat.isFinite price = true ∧ PyFloat.lt 0.0 price = true) : DailySeries Double where
  symbol := symbol
  closed := days.map fun day => ⟨dayOpenMs day, price, price, price, price⟩
  live := live.map fun day => (day, price)
  ascending := List.pairwise_map.mpr (ascending.imp dayOpenMs_lt)
  livePriced := by
    intro day other isLive
    obtain ⟨_, _, same⟩ := Option.map_eq_some_iff.mp isLive
    cases same
    exact priced
  liveLast := by
    intro day other isLive bar member
    obtain ⟨_, isDay, same⟩ := Option.map_eq_some_iff.mp isLive
    cases same
    obtain ⟨earlier, inDays, rfl⟩ := List.mem_map.mp member
    exact dayOpenMs_lt (last day isDay earlier inDays)
  dated := by
    intro bar member
    obtain ⟨day, _, rfl⟩ := List.mem_map.mp member
    simp [utcDay?_dayOpenMs]

/-- A series that shows the open of a day alone. -/
def openSeries (symbol : String) (day : Date) (price : Double)
    (priced : PyFloat.isFinite price = true ∧ PyFloat.lt 0.0 price = true) : DailySeries Double :=
  flatSeries symbol [] (some day) price .nil (by simp) priced

end CryptoRadar.Trend
