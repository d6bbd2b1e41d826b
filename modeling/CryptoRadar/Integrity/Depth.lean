import CryptoRadar.Integrity.Checks
import CryptoRadar.Lib.DecimalExact
import CryptoRadar.Lib.DecimalThread
import Mathlib.Data.Nat.Prime.Basic

/-!
# The depth of a book

`evaluate_book` compares the required depth with the sum of the sizes of a side. Each size becomes the
decimal of its exact value (`toRat_asDecimal`), but the sum is made by the context of the thread, which
rounds to 28 digits after each addition. So a side and its cuts are judged exactly where the sums of its
first sizes have at most 28 digits (`depth_coverage_exact_iff`); a level of just the required size may not
cover it (`equal_size_not_covered`).
-/

set_option autoImplicit false

namespace CryptoRadar.Integrity

open Checked

/-! ## Numbers as decimals -/

section Numbers

theorem den_dvd (numerator denominator : ℕ) : ((numerator : ℚ) / denominator).den ∣ denominator := by
  have divides := Rat.den_dvd (numerator : ℤ) (denominator : ℤ)
  rw [← Rat.intCast_div_eq_divInt, Int.natCast_dvd_natCast, Int.cast_natCast, Int.cast_natCast] at divides
  exact divides

/-- The value of a double is a whole number of halves of halves. -/
theorem exists_den_toRat (number : Double) : ∃ places : ℕ, number.toRat.den = 2 ^ places := by
  have divides : number.toRat.den ∣ 2 ^ (-number.parts.2).toNat := by
    unfold Double.toRat Double.ratio
    simp only
    split
    · rw [Rat.neg_den]
      exact den_dvd _ _
    · exact den_dvd _ _
  obtain ⟨places, -, isPower⟩ := (Nat.dvd_prime_pow Nat.prime_two).mp divides
  exact ⟨places, isPower⟩

theorem toRat_nonpos {number : Double} (negative : number.isNegative = true) : number.toRat ≤ 0 := by
  unfold Double.toRat
  simp only [negative, if_true, Left.neg_nonpos_iff]
  positivity

theorem toRat_nonneg {number : Double} (positive : number.isNegative = false) : 0 ≤ number.toRat := by
  unfold Double.toRat
  simp only [positive, Bool.false_eq_true, if_false]
  positivity

theorem toRat_asDecimal (number : Number) : number.asDecimal.toRat = number.value := by
  have ofInt (whole : ℤ) : (Decimal.ofInt whole).toRat = whole := by
    unfold Decimal.ofInt Decimal.toRat Decimal.magnitude
    rcases lt_or_ge whole 0 with below | above
    · simp [below, abs_of_neg (show (whole : ℚ) < 0 by exact_mod_cast below)]
    · simp [not_lt.mpr above, abs_of_nonneg (show (0 : ℚ) ≤ whole by exact_mod_cast above)]
  cases number with
  | flag value => cases value <;> simp [Number.asDecimal, Number.value, ofInt]
  | int whole => exact ofInt whole
  | decimal value => rfl
  | special name => simp [Number.asDecimal, Number.value, ofInt]
  | float value =>
      obtain ⟨places, isPower⟩ := exists_den_toRat value
      have counted : Nat.log2 value.toRat.den = places := by rw [isPower, Nat.log2_two_pow]
      have size : ((value.toRat.num.natAbs * 5 ^ places : ℕ) : ℚ) * 10 ^ (-places : ℤ) = |value.toRat| := by
        have split : |value.toRat| = value.toRat.num.natAbs / value.toRat.den := by
          conv_lhs => rw [← Rat.num_div_den value.toRat]
          rw [abs_div, Nat.abs_cast, Nat.cast_natAbs, Int.cast_abs]
        have tens : (10 : ℚ) ^ places = 5 ^ places * 2 ^ places := by rw [← mul_pow]; norm_num
        rw [split, isPower, zpow_neg, zpow_natCast, tens]
        push_cast
        field_simp
      unfold Number.asDecimal Number.value Decimal.toRat Decimal.magnitude
      simp only [counted, size]
      cases negative : value.isNegative with
      | true =>
          rw [if_pos rfl, abs_of_nonpos (toRat_nonpos negative), neg_neg]
      | false =>
          rw [if_neg Bool.false_ne_true, abs_of_nonneg (toRat_nonneg negative)]

def Number.IsReal : Number → Prop
  | .int _ => True
  | .float value => PyFloat.isFinite value = true
  | .decimal _ => True
  | .flag _ => False
  | .special _ => False

/-- A whole number is not too large for a float, which the check of its finiteness makes of it. -/
def Number.InFloatRange (number : Number) : Prop :=
  ∀ whole, number = .int whole → (PyFloat.ofInt whole : Except NumberError Double).isOk = true

theorem finite_eq_ok {number : Number} {finite : Bool} (isReal : number.IsReal)
    (isFinite : number.finite = .ok finite) : number.InFloatRange ∧ finite = true := by
  cases number with
  | flag value => exact isReal.elim
  | special name => exact isReal.elim
  | float value =>
      cases isFinite
      exact ⟨nofun, isReal⟩
  | decimal value =>
      cases isFinite
      exact ⟨nofun, rfl⟩
  | int whole =>
      unfold Number.finite at isFinite
      simp only at isFinite
      split at isFinite
      next isFloat =>
        cases isFinite
        refine ⟨?_, rfl⟩
        rintro other ⟨⟩
        rw [isFloat]
        rfl
      next => cases isFinite

theorem finite_of_inFloatRange {number : Number} (isReal : number.IsReal)
    (inRange : number.InFloatRange) : number.finite = .ok true := by
  cases number with
  | flag value => exact isReal.elim
  | special name => exact isReal.elim
  | float value => exact congrArg Except.ok isReal
  | decimal value => rfl
  | int whole =>
      have isOk := inRange whole rfl
      unfold Number.finite
      simp only
      split
      next => rfl
      next failed =>
        rw [failed] at isOk
        cases isOk

end Numbers

/-! ## Valid sides -/

structure ValidLevel (level : BookLevel) : Prop where
  priceReal : level.price.IsReal
  pricePos : 0 < level.price.value
  sizeReal : level.size.IsReal
  sizeNonneg : 0 ≤ level.size.value

/-- The price of `next` comes after that of `previous`. -/
def BookSide.Follows (side : BookSide) (previous next : BookLevel) : Prop :=
  match side with
  | .bid => next.price.value < previous.price.value
  | .ask => previous.price.value < next.price.value

/-- A side of valid levels, strictly ordered by their prices. -/
structure ValidSide (side : BookSide) (levels : List BookLevel) : Prop where
  nonempty : levels ≠ []
  valid : ∀ level ∈ levels, ValidLevel level
  ordered : levels.Pairwise side.Follows

/-- The numbers of a level can be checked. -/
def BookLevel.InFloatRange (level : BookLevel) : Prop :=
  level.price.InFloatRange ∧ level.size.InFloatRange

section Sides

variable {side : BookSide} {levels : List BookLevel}

theorem price_valid {number : Number} (isReal : number.IsReal) (positive : 0 < number.value)
    (inRange : number.InFloatRange) (name : String) : price number name = .ok (true, []) := by
  unfold price
  rw [finite_of_inFloatRange isReal inRange]
  simp [bind, Except.bind, pure, Except.pure, not_le.mpr positive]

theorem size_valid {number : Number} (isReal : number.IsReal) (inRange : number.InFloatRange)
    {strictlyPositive : Bool} (nonneg : 0 ≤ number.value)
    (positive : strictlyPositive = true → 0 < number.value) (name : String) :
    size number name strictlyPositive = .ok (true, []) := by
  have bounded : ¬ (number.value < 0 ∨ (strictlyPositive ∧ number.value = 0)) := by
    rintro (below | ⟨strict, zero⟩)
    · exact absurd nonneg (not_le.mpr below)
    · exact absurd zero (positive strict).ne'
  unfold size
  rw [finite_of_inFloatRange isReal inRange]
  simp only [bind, Except.bind, pure, Except.pure, not_true, if_false, if_neg bounded]

theorem inFloatRange_of_price {number : Number} (isReal : number.IsReal) {name : String}
    {checked : Bool × List Reason} (isChecked : price number name = .ok checked) : number.InFloatRange := by
  obtain ⟨finite, isFinite, _⟩ := bind_eq_ok.mp isChecked
  exact (finite_eq_ok isReal isFinite).1

theorem inFloatRange_of_size {number : Number} (isReal : number.IsReal) {name : String}
    {strictlyPositive : Bool} {checked : Bool × List Reason}
    (isChecked : size number name strictlyPositive = .ok checked) : number.InFloatRange := by
  obtain ⟨finite, isFinite, _⟩ := bind_eq_ok.mp isChecked
  exact (finite_eq_ok isReal isFinite).1

/-- The numbers of valid levels are valid, where they can be checked. -/
theorem levelNumbers_valid (name : String) {indexed : List (BookLevel × ℕ)}
    (valid : ∀ entry ∈ indexed, ValidLevel entry.1)
    (inRange : ∀ entry ∈ indexed, entry.1.InFloatRange) :
    levelNumbers name indexed = .ok (true, []) := by
  induction indexed with
  | nil => rfl
  | cons entry rest ih =>
      obtain ⟨level, index⟩ := entry
      have isValid := valid (level, index) List.mem_cons_self
      have isRange := inRange (level, index) List.mem_cons_self
      have later := ih (fun entry isMem => valid entry (List.mem_cons_of_mem _ isMem))
        fun entry isMem => inRange entry (List.mem_cons_of_mem _ isMem)
      have sized := size_valid isValid.sizeReal isRange.2 isValid.sizeNonneg
        fun strict : false = true => absurd strict Bool.false_ne_true
      rw [levelNumbers, price_valid isValid.priceReal isValid.pricePos isRange.1]
      simp only [sized, later]
      rfl

theorem inFloatRange_of_levelNumbers {name : String} {indexed : List (BookLevel × ℕ)}
    (valid : ∀ entry ∈ indexed, ValidLevel entry.1) {checked : Bool × List Reason}
    (isChecked : levelNumbers name indexed = .ok checked) :
    ∀ entry ∈ indexed, entry.1.InFloatRange := by
  induction indexed generalizing checked with
  | nil => exact fun entry isMem => absurd isMem List.not_mem_nil
  | cons entry rest ih =>
      obtain ⟨level, index⟩ := entry
      have isValid := valid (level, index) List.mem_cons_self
      obtain ⟨_, isPrice, isChecked⟩ := bind_eq_ok.mp isChecked
      obtain ⟨_, isSize, isChecked⟩ := bind_eq_ok.mp isChecked
      obtain ⟨_, isRest, _⟩ := bind_eq_ok.mp isChecked
      intro other isMem
      rcases List.mem_cons.mp isMem with rfl | isLater
      · exact ⟨inFloatRange_of_price isValid.priceReal isPrice,
          inFloatRange_of_size isValid.sizeReal isSize⟩
      · exact ih (fun entry isMem => valid entry (List.mem_cons_of_mem _ isMem)) isRest other isLater

theorem firstUnordered_of_ordered (ordered : levels.Pairwise side.Follows) (index : ℕ) :
    firstUnordered side index levels = none := by
  induction levels generalizing index with
  | nil => rfl
  | cons previous rest ih =>
      cases rest with
      | nil => rfl
      | cons next later =>
          obtain ⟨follows, rest⟩ := List.pairwise_cons.mp ordered
          have isNext := follows next List.mem_cons_self
          have onward := ih rest (index + 1)
          cases side <;> simp only [BookSide.Follows] at isNext <;>
            simpa [firstUnordered, isNext] using onward

theorem bookSide_valid (valid : ValidSide side levels) (inRange : ∀ level ∈ levels, level.InFloatRange) :
    bookSide levels side = .ok (true, []) := by
  have numbers : levelNumbers side.levels levels.zipIdx = .ok (true, []) := by
    refine levelNumbers_valid _ (fun entry isMem => ?_) fun entry isMem => ?_
    · exact valid.valid entry.1 (List.fst_mem_of_mem_zipIdx isMem)
    · exact inRange entry.1 (List.fst_mem_of_mem_zipIdx isMem)
  rw [bookSide, if_neg valid.nonempty, numbers]
  simp only [bind, Except.bind, not_true, if_false, firstUnordered_of_ordered valid.ordered]
  rfl

theorem inFloatRange_of_bookSide (valid : ValidSide side levels) {checked : Bool × List Reason}
    (isChecked : bookSide levels side = .ok checked) : ∀ level ∈ levels, level.InFloatRange := by
  rw [bookSide, if_neg valid.nonempty] at isChecked
  obtain ⟨_, isNumbers, _⟩ := bind_eq_ok.mp isChecked
  intro level isMem
  obtain ⟨index, isIndexed⟩ := List.mem_iff_getElem?.mp isMem
  have isMember : (level, index) ∈ levels.zipIdx := List.mk_mem_zipIdx_iff_getElem?.mpr isIndexed
  exact inFloatRange_of_levelNumbers
    (fun entry isMem => valid.valid entry.1 (List.fst_mem_of_mem_zipIdx isMem)) isNumbers _ isMember

end Sides

/-! ## The depth of a side -/

def BookSnapshot.levelsOf (book : BookSnapshot) : BookSide → List BookLevel
  | .bid => book.bids
  | .ask => book.asks

/-- The exact sum of the sizes. -/
def exactDepth (levels : List BookLevel) : ℚ := (levels.map fun level => level.size.value).sum

/-- What `evaluate_book` adds up. -/
def summed (levels : List BookLevel) : Except DecimalError Decimal :=
  levels.foldlM (fun total level => Decimal.add .default total level.size.asDecimal) (Decimal.ofInt 0)

/-- The sums of the first sizes, however many, have at most 28 digits. -/
def SumsHeld (levels : List BookLevel) : Prop :=
  ∀ count ≤ levels.length, ThreadContext.default.Holds (exactDepth (levels.take count))

section Sums

variable {levels : List BookLevel} {level : BookLevel}

theorem exactDepth_concat (levels : List BookLevel) (level : BookLevel) :
    exactDepth (levels ++ [level]) = exactDepth levels + level.size.value := by
  simp [exactDepth]

theorem summed_concat (levels : List BookLevel) (level : BookLevel) :
    summed (levels ++ [level]) =
      summed levels >>= fun total => Decimal.add .default total level.size.asDecimal := by
  unfold summed
  rw [List.foldlM_append]
  refine bind_congr fun total => ?_
  rw [List.foldlM_cons]
  cases Decimal.add .default total level.size.asDecimal <;> rfl

theorem sumsHeld_concat : SumsHeld (levels ++ [level]) ↔
    SumsHeld levels ∧ ThreadContext.default.Holds (exactDepth (levels ++ [level])) := by
  unfold SumsHeld
  rw [List.length_append, List.length_singleton]
  constructor
  · intro held
    refine ⟨fun count within => ?_, ?_⟩
    · have kept := held count (by omega)
      rwa [List.take_append_of_le_length within] at kept
    · have all := held (levels.length + 1) le_rfl
      rwa [List.take_of_length_le (by simp)] at all
  · rintro ⟨held, all⟩ count within
    rcases Nat.lt_or_ge levels.length count with beyond | inside
    · rwa [List.take_of_length_le (by simp; omega)]
    · rw [List.take_append_of_le_length inside]
      exact held count inside

/-- Sums that are held are not rounded. -/
theorem summed_of_held (held : SumsHeld levels) :
    ∃ depth, summed levels = .ok depth ∧ depth.toRat = exactDepth levels := by
  induction levels using List.reverseRecOn with
  | nil => exact ⟨_, rfl, Decimal.toRat_eq_zero.mpr rfl⟩
  | append_singleton levels level hyp =>
      obtain ⟨before, all⟩ := sumsHeld_concat.mp held
      obtain ⟨total, isTotal, value⟩ := hyp before
      rw [exactDepth_concat, ← value, ← toRat_asDecimal level.size] at all
      obtain ⟨sum, isSum, same⟩ := ThreadContext.add_default_of_holds all
      refine ⟨sum, ?_, ?_⟩
      · rw [summed_concat, isTotal]
        exact isSum
      · rw [same, value, toRat_asDecimal, exactDepth_concat]

/-- A last sum that is exact is held, where those before it are. -/
theorem holds_of_summed (before : SumsHeld levels) {depth : Decimal}
    (isDepth : summed (levels ++ [level]) = .ok depth)
    (same : depth.toRat = exactDepth (levels ++ [level])) :
    ThreadContext.default.Holds (exactDepth (levels ++ [level])) := by
  obtain ⟨total, isTotal, value⟩ := summed_of_held before
  rw [summed_concat, isTotal] at isDepth
  rw [exactDepth_concat, ← value, ← toRat_asDecimal level.size] at same ⊢
  exact (ThreadContext.add_default_exact_iff isDepth).mp same

/-- The exact sum is the value of a decimal. -/
theorem exists_exactDepth (levels : List BookLevel) : ∃ number : Decimal, number.toRat = exactDepth levels := by
  induction levels using List.reverseRecOn with
  | nil => exact ⟨Decimal.ofInt 0, Decimal.toRat_eq_zero.mpr rfl⟩
  | append_singleton levels level hyp =>
      obtain ⟨number, value⟩ := hyp
      refine ⟨Decimal.wholeSum number level.size.asDecimal, ?_⟩
      rw [Decimal.toRat_wholeSum, value, toRat_asDecimal, exactDepth_concat]

end Sums

def NotCovered (reasons : List Reason) : Prop := ∃ reason ∈ reasons, reason.code = .sizeNotCovered

/-- What is said of the depth of a valid side: nothing else than that the sum is too small. -/
theorem depthReasons_valid {levels : List BookLevel} {required : RequiredDepth}
    (isReal : required.size.IsReal) (positive : 0 < required.size.value)
    (inRange : required.size.InFloatRange) {reasons : List Reason} :
    depthReasons levels true required = .ok reasons →
      ∃ depth, summed levels = .ok depth ∧ (NotCovered reasons ↔ depth.toRat < required.size.value) := by
  intro isReasons
  unfold depthReasons at isReasons
  rw [size_valid isReal inRange positive.le fun _ => positive] at isReasons
  obtain ⟨_, isSize, isReasons⟩ := bind_eq_ok.mp isReasons
  cases isSize
  obtain ⟨depth, isDepth, isReasons⟩ := bind_eq_ok.mp isReasons
  cases isReasons
  refine ⟨depth, mapError_eq_ok.mp isDepth, ?_⟩
  have less : Decimal.lt depth required.size.asDecimal = true ↔ depth.toRat < required.size.value := by
    rw [Decimal.lt_iff, toRat_asDecimal]
  rw [← less]
  unfold NotCovered
  split_ifs with short <;> simp [short]

theorem depthReasons_isOk {levels : List BookLevel} {required : RequiredDepth}
    (isReal : required.size.IsReal) (positive : 0 < required.size.value)
    (inRange : required.size.InFloatRange) {depth : Decimal} (isDepth : summed levels = .ok depth) :
    ∃ reasons, depthReasons levels true required = .ok reasons := by
  unfold summed at isDepth
  unfold depthReasons
  rw [size_valid isReal inRange positive.le fun _ => positive, isDepth]
  exact ⟨_, rfl⟩

/-! ## What `evaluate_book` says -/

section Evaluated

variable {book : BookSnapshot} {expected : InstrumentId} {now : ZonedTime} {policy : IntegrityPolicy}
  {required : RequiredDepth}

/-- What is said of identity, units and times is not about the depth. -/
theorem not_notCovered_identity (actual : InstrumentId) : ¬ NotCovered (identity actual expected) := by
  unfold NotCovered identity
  split <;> simp

theorem not_notCovered_unit (actual given name : String) : ¬ NotCovered (unit actual given name) := by
  unfold NotCovered unit
  split <;> simp

theorem not_notCovered_receipt [Zones] (now : ZonedTime) (received : Stamp) (limit : Option Timedelta) :
    ¬ NotCovered (receipt received now limit) := by
  unfold NotCovered receipt
  split
  · simp
  · split
    · simp
    · split
      · split <;> simp
      · simp

theorem not_notCovered_sourceMoment [Zones] (stamp : Stamp) (name : String) (limit : Option Timedelta) :
    ¬ NotCovered (sourceMoment stamp name now policy limit .staleSource).2 := by
  unfold NotCovered sourceMoment
  split
  · simp
  · split
    · simp
    · split
      · split <;> simp
      · simp

theorem notCovered_append (first second : List Reason) :
    NotCovered (first ++ second) ↔ NotCovered first ∨ NotCovered second := by
  unfold NotCovered
  simp only [List.mem_append, or_and_right, exists_or]

theorem not_notCovered_timing [Zones] (given : SourceTiming) (receiptMax sourceMax : Option Timedelta) :
    ¬ NotCovered (timing given now policy receiptMax sourceMax).2 := by
  have received := not_notCovered_receipt now given.receivedAt receiptMax
  unfold timing
  simp only
  split
  · exact received
  · rw [notCovered_append, not_or]
    exact ⟨received, not_notCovered_sourceMoment _ _ _⟩

/-- What is said of the best levels of two valid sides. -/
def crossedQuotes (book : BookSnapshot) : List Reason :=
  match book.bids.head?, book.asks.head? with
  | some bid, some ask =>
      if true = true ∧ true = true ∧ ask.price.value ≤ bid.price.value then
        [⟨.crossedQuote, "bids[0].price", .pair bid.price ask.price⟩]
      else []
  | _, _ => []

/-- Of the levels of a valid book it is said that they cross, if they do, and what is said of the depth. -/
theorem levelReasons_valid (required : RequiredDepth) (bids : ValidSide .bid book.bids) (asks : ValidSide .ask book.asks)
    (inRange : ∀ level ∈ book.bids ++ book.asks, level.InFloatRange) :
    ∃ crossed, ¬ NotCovered crossed ∧ levelReasons book (some required) =
      (depthReasons (book.levelsOf required.side) true required).map fun depth => crossed ++ depth := by
  have bidsOk := bookSide_valid bids fun level isMem => inRange level (List.mem_append_left _ isMem)
  have asksOk := bookSide_valid asks fun level isMem => inRange level (List.mem_append_right _ isMem)
  refine ⟨crossedQuotes book, ?_, ?_⟩
  · unfold NotCovered crossedQuotes
    split
    · split_ifs <;> simp
    · simp
  · unfold levelReasons BookSnapshot.levelsOf
    rw [bidsOk, asksOk]
    obtain ⟨side, size⟩ := required
    cases side with
    | bid =>
        change (depthReasons book.bids true ⟨.bid, size⟩ >>= fun depth => .ok (_ ++ depth)) = _
        cases depthReasons book.bids true ⟨.bid, size⟩ <;> rfl
    | ask =>
        change (depthReasons book.asks true ⟨.ask, size⟩ >>= fun depth => .ok (_ ++ depth)) = _
        cases depthReasons book.asks true ⟨.ask, size⟩ <;> rfl

/-- The numbers of a valid book of which something is said can be checked. -/
theorem inFloatRange_of_levelReasons (bids : ValidSide .bid book.bids) (asks : ValidSide .ask book.asks)
    {reasons : List Reason} (isReasons : levelReasons book (some required) = .ok reasons) :
    ∀ level ∈ book.bids ++ book.asks, level.InFloatRange := by
  obtain ⟨_, isBids, isReasons⟩ := bind_eq_ok.mp isReasons
  obtain ⟨_, isAsks, _⟩ := bind_eq_ok.mp isReasons
  intro level isMem
  rcases List.mem_append.mp isMem with isBid | isAsk
  · exact inFloatRange_of_bookSide bids isBids level isBid
  · exact inFloatRange_of_bookSide asks isAsks level isAsk

/-- Whether the depth is covered is said of the levels only. -/
theorem notCovered_bookReasons [Zones] {levels reasons : List Reason}
    (isLevels : levelReasons book (some required) = .ok levels)
    (isReasons : bookReasons book expected now policy (some required) = .ok reasons) :
    NotCovered reasons ↔ NotCovered levels := by
  unfold bookReasons at isReasons
  rw [isLevels] at isReasons
  cases isReasons
  simp only [notCovered_append, not_notCovered_identity, not_notCovered_unit, not_notCovered_timing,
    false_or]

end Evaluated

/-- `evaluate_book` returns, and says `SIZE_NOT_COVERED` just where the exact sum of the sizes is less than
the required size. -/
def JudgedExactly [Zones] (book : BookSnapshot) (expected : InstrumentId) (now : ZonedTime)
    (policy : IntegrityPolicy) (required : RequiredDepth) : Prop :=
  ∃ item, evaluateBook (some book) expected now policy (some required) = .ok item ∧
    (NotCovered item.reasons ↔ exactDepth (book.levelsOf required.side) < required.size.value)

section Judged

variable [Zones] {book : BookSnapshot} {expected : InstrumentId} {now : ZonedTime} {policy : IntegrityPolicy}
  {required : RequiredDepth}

/-- A valid book is judged by the sum that is made of its sizes. -/
theorem judgedExactly_iff (required : RequiredDepth) (bids : ValidSide .bid book.bids)
    (asks : ValidSide .ask book.asks) (isReal : required.size.IsReal) (positive : 0 < required.size.value) :
    JudgedExactly book expected now policy required ↔
      (∀ level ∈ book.bids ++ book.asks, level.InFloatRange) ∧ required.size.InFloatRange ∧
        ∃ depth, summed (book.levelsOf required.side) = .ok depth ∧
          (depth.toRat < required.size.value ↔
            exactDepth (book.levelsOf required.side) < required.size.value) := by
  constructor
  · rintro ⟨item, evaluated, judged⟩
    obtain ⟨reasons, isReasons, evaluated⟩ := bind_eq_ok.mp evaluated
    cases evaluated
    obtain ⟨levels, isLevels, _⟩ := bind_eq_ok.mp isReasons
    have inRange := inFloatRange_of_levelReasons bids asks isLevels
    have sameLevels := notCovered_bookReasons isLevels isReasons
    obtain ⟨crossed, notCrossed, byDepth⟩ := levelReasons_valid required bids asks inRange
    cases isDepth : depthReasons (book.levelsOf required.side) true required with
    | error failure =>
        rw [byDepth, isDepth] at isLevels
        cases isLevels
    | ok reasons =>
        rw [byDepth, isDepth] at isLevels
        cases isLevels
        have requiredRange : required.size.InFloatRange := by
          obtain ⟨_, isSize, _⟩ := bind_eq_ok.mp isDepth
          exact inFloatRange_of_size isReal isSize
        obtain ⟨depth, isSum, depthIff⟩ := depthReasons_valid isReal positive requiredRange isDepth
        rw [notCovered_append, or_iff_right notCrossed] at sameLevels
        exact ⟨inRange, requiredRange, depth, isSum,
          depthIff.symm.trans (sameLevels.symm.trans judged)⟩
  · rintro ⟨inRange, requiredRange, depth, isSum, alike⟩
    obtain ⟨reasons, isDepth⟩ := depthReasons_isOk isReal positive requiredRange isSum
    obtain ⟨crossed, notCrossed, byDepth⟩ := levelReasons_valid required bids asks inRange
    rw [isDepth] at byDepth
    have isLevels : levelReasons book (some required) = .ok (crossed ++ reasons) := byDepth
    obtain ⟨other, isOther, depthIff⟩ := depthReasons_valid isReal positive requiredRange isDepth
    cases isSum.symm.trans isOther
    have isReasons : bookReasons book expected now policy (some required) = .ok _ :=
      bind_eq_ok.mpr ⟨_, isLevels, rfl⟩
    have sameLevels := notCovered_bookReasons isLevels isReasons
    have ofDepth : NotCovered (crossed ++ reasons) ↔ NotCovered reasons :=
      (notCovered_append crossed reasons).trans (or_iff_right notCrossed)
    exact ⟨_, bind_eq_ok.mpr ⟨_, isReasons, rfl⟩,
      sameLevels.trans (ofDepth.trans (depthIff.trans alike))⟩

end Judged

/-- The book with the first levels of a side only. -/
def BookSnapshot.cut (book : BookSnapshot) (side : BookSide) (count : ℕ) : BookSnapshot :=
  match side with
  | .bid => { book with bids := book.bids.take count }
  | .ask => { book with asks := book.asks.take count }

section Cuts

variable {book : BookSnapshot} {side : BookSide} {count : ℕ}

theorem levelsOf_cut (book : BookSnapshot) (side : BookSide) (count : ℕ) :
    (book.cut side count).levelsOf side = (book.levelsOf side).take count := by
  cases side <;> rfl

theorem ValidSide.take {levels : List BookLevel} (valid : ValidSide side levels) (some : 0 < count) :
    ValidSide side (levels.take count) where
  nonempty := by
    rw [Ne, List.take_eq_nil_iff, not_or]
    exact ⟨some.ne', valid.nonempty⟩
  valid level member := valid.valid level (List.mem_of_mem_take member)
  ordered := valid.ordered.sublist (List.take_sublist _ _)

theorem cut_valid (side : BookSide) (bids : ValidSide .bid book.bids) (asks : ValidSide .ask book.asks)
    (some : 0 < count) :
    ValidSide .bid (book.cut side count).bids ∧ ValidSide .ask (book.cut side count).asks := by
  cases side with
  | bid => exact ⟨bids.take some, asks⟩
  | ask => exact ⟨bids, asks.take some⟩

theorem cut_subset (book : BookSnapshot) (side : BookSide) (count : ℕ) :
    ∀ level ∈ (book.cut side count).bids ++ (book.cut side count).asks, level ∈ book.bids ++ book.asks := by
  intro level member
  rw [List.mem_append] at member ⊢
  cases side with
  | bid => exact member.imp_left List.mem_of_mem_take
  | ask => exact member.imp_right List.mem_of_mem_take

theorem cut_all (book : BookSnapshot) (side : BookSide) : book.cut side (book.levelsOf side).length = book := by
  cases side with
  | bid => exact congrArg (fun levels => { book with bids := levels }) (List.take_length ..)
  | ask => exact congrArg (fun levels => { book with asks := levels }) (List.take_length ..)

end Cuts

/-- **When the depth of a book is judged exactly.** A side of a valid book, and every cut of it, is judged
exactly for every valid, positive required size that is not too large for a float, if and only if no whole
number of the book is too large for a float and the sums of the first sizes of the side have at most 28
digits. -/
theorem depth_coverage_exact_iff [Zones] (book : BookSnapshot) (expected : InstrumentId)
    (now : ZonedTime) (policy : IntegrityPolicy) (side : BookSide) (bids : ValidSide .bid book.bids)
    (asks : ValidSide .ask book.asks) :
    (∀ count, 0 < count → count ≤ (book.levelsOf side).length → ∀ size : Number, size.IsReal →
        0 < size.value →
          (JudgedExactly (book.cut side count) expected now policy ⟨side, size⟩ ↔ size.InFloatRange)) ↔
      (∀ level ∈ book.bids ++ book.asks, level.InFloatRange) ∧ SumsHeld (book.levelsOf side) := by
  constructor
  · intro judged
    -- a decimal is in the range of floats
    have byDecimal : ∀ count, 0 < count → count ≤ (book.levelsOf side).length → ∀ size : Decimal,
        0 < size.toRat → (∀ level ∈ (book.cut side count).bids ++ (book.cut side count).asks,
          level.InFloatRange) ∧ ∃ depth, summed ((book.levelsOf side).take count) = .ok depth ∧
            (depth.toRat < size.toRat ↔ exactDepth ((book.levelsOf side).take count) < size.toRat) := by
      intro count some within size positive
      obtain ⟨cutBids, cutAsks⟩ := cut_valid side bids asks some
      have isJudged := (judged count some within (.decimal size) trivial positive).mpr nofun
      obtain ⟨inRange, -, depth, isSum, alike⟩ := (judgedExactly_iff
        ⟨side, .decimal size⟩ cutBids cutAsks trivial positive).mp isJudged
      rw [levelsOf_cut] at isSum alike
      exact ⟨inRange, depth, isSum, alike⟩
    have levels : 0 < (book.levelsOf side).length := by
      cases side with
      | bid => exact List.length_pos_iff.mpr bids.nonempty
      | ask => exact List.length_pos_iff.mpr asks.nonempty
    have one : 0 < (Decimal.ofNat 1).toRat := by
      rw [Decimal.toRat_ofNat]
      norm_num
    refine ⟨?_, ?_⟩
    · have inRange := (byDecimal _ levels le_rfl _ one).1
      rwa [cut_all] at inRange
    · have held : ∀ count ≤ (book.levelsOf side).length, SumsHeld ((book.levelsOf side).take count) := by
        intro count within
        induction count with
        | zero =>
            intro other none
            rw [List.take_zero, List.length_nil, Nat.le_zero] at none
            rw [none]
            exact ThreadContext.holds_zero
        | succ count hyp =>
            have before := hyp (by omega)
            have split : (book.levelsOf side).take (count + 1) =
                (book.levelsOf side).take count ++ [(book.levelsOf side)[count]] :=
              List.take_succ_eq_append_getElem within
            rw [split, sumsHeld_concat, ← split]
            refine ⟨before, ?_⟩
            have nonneg : 0 ≤ exactDepth ((book.levelsOf side).take (count + 1)) := by
              refine List.sum_nonneg fun size isSize => ?_
              obtain ⟨level, member, rfl⟩ := List.mem_map.mp isSize
              have inside := List.mem_of_mem_take member
              cases side with
              | bid => exact (bids.valid level inside).sizeNonneg
              | ask => exact (asks.valid level inside).sizeNonneg
            rcases nonneg.eq_or_lt with zero | positive
            · rw [← zero]
              exact ThreadContext.holds_zero
            obtain ⟨-, depth, isSum, -⟩ := byDecimal _ (Nat.succ_pos count) within _ one
            -- a required size of the larger of the two sums tells them apart
            have same : depth.toRat = exactDepth ((book.levelsOf side).take (count + 1)) := by
              obtain ⟨number, value⟩ := exists_exactDepth ((book.levelsOf side).take (count + 1))
              rcases lt_trichotomy depth.toRat (exactDepth ((book.levelsOf side).take (count + 1))) with
                less | same | more
              · obtain ⟨-, other, isOther, alike⟩ :=
                  byDecimal _ (Nat.succ_pos count) within number (value ▸ positive)
                cases isSum.symm.trans isOther
                rw [value] at alike
                exact absurd (alike.mp less) (lt_irrefl _)
              · exact same
              · obtain ⟨-, other, isOther, alike⟩ :=
                  byDecimal _ (Nat.succ_pos count) within depth (positive.trans more)
                cases isSum.symm.trans isOther
                exact absurd (alike.mpr more) (lt_irrefl _)
            rw [split] at isSum same ⊢
            exact holds_of_summed before isSum same
      have all := held _ le_rfl
      rwa [List.take_length] at all
  · rintro ⟨inRange, held⟩ count some within size isReal positive
    obtain ⟨cutBids, cutAsks⟩ := cut_valid side bids asks some
    rw [judgedExactly_iff ⟨side, size⟩ cutBids cutAsks isReal positive, levelsOf_cut]
    have cutHeld : SumsHeld ((book.levelsOf side).take count) := by
      intro fewer less
      rw [List.take_take, List.length_take] at *
      exact held _ (by omega)
    obtain ⟨depth, isSum, same⟩ := summed_of_held cutHeld
    refine ⟨fun both => both.2.1, fun sizeRange => ⟨?_, sizeRange, depth, isSum, by rw [same]⟩⟩
    exact fun level member => inRange level (cut_subset book side count level member)

/-! ## A level of just the required size -/

def sampleInstrument : InstrumentId := ⟨"kraken", "BTC/USD", .spot, "BTC", "USD", "BTC"⟩

def sampleNow : ZonedTime := .epoch

/-- A bid at 99 and an ask at 100, of one size. -/
def sampleBook (size : Number) : BookSnapshot where
  instrument := sampleInstrument
  bids := [⟨.int 99, size⟩]
  asks := [⟨.int 100, size⟩]
  priceUnit := "USD"
  sizeUnit := "BTC"
  timing := ⟨.aware sampleNow, none⟩

theorem sampleBook_valid (size : Number) (isReal : size.IsReal) (nonneg : 0 ≤ size.value) :
    ValidSide .bid (sampleBook size).bids ∧ ValidSide .ask (sampleBook size).asks := by
  have valid (price : ℤ) (positive : 0 < price) : ValidLevel ⟨.int price, size⟩ :=
    ⟨trivial, by simpa [Number.value] using positive, isReal, nonneg⟩
  exact ⟨⟨List.cons_ne_nil _ _, by simp [sampleBook, valid], List.pairwise_singleton _ _⟩,
    ⟨List.cons_ne_nil _ _, by simp [sampleBook, valid], List.pairwise_singleton _ _⟩⟩

/-- What `evaluate_book` says of the depth of the sample book. -/
def sampleNotCovered (size required : Number) : Option Bool :=
  letI := Zones.allUtc
  (evaluateBook (some (sampleBook size)) sampleInstrument sampleNow oc1Policy
    (some ⟨.ask, required⟩)).toOption.map fun item =>
      item.reasons.any fun reason => reason.code = .sizeNotCovered

/-- Two asks, of two and of a half. -/
def twoLevels : BookSnapshot :=
  { sampleBook (.int 2) with asks := [⟨.int 100, .int 2⟩, ⟨.int 101, .decimal ⟨false, 5, -1⟩⟩] }

/-- A required depth of two and a half is covered by both, and by the first alone it is not. -/
theorem depth_coverage_exact_iff_two :
    letI := Zones.allUtc
    JudgedExactly (twoLevels.cut .ask 1) sampleInstrument sampleNow oc1Policy
        ⟨.ask, .decimal ⟨false, 25, -1⟩⟩ ∧
      JudgedExactly (twoLevels.cut .ask 2) sampleInstrument sampleNow oc1Policy
        ⟨.ask, .decimal ⟨false, 25, -1⟩⟩ := by
  have bids := (sampleBook_valid (.int 2) trivial (by norm_num [Number.value])).1
  have asks : ValidSide .ask twoLevels.asks := by
    refine ⟨List.cons_ne_nil _ _, ?_, ?_⟩
    · simp only [twoLevels, List.forall_mem_cons, List.not_mem_nil, false_implies, implies_true, and_true]
      refine ⟨⟨trivial, ?_, trivial, ?_⟩, ⟨trivial, ?_, trivial, ?_⟩⟩
      all_goals norm_num [Number.value, Decimal.toRat, Decimal.magnitude]
    · refine List.pairwise_pair.mpr ?_
      show (Number.int 100).value < (Number.int 101).value
      norm_num [Number.value]
  have inRange : ∀ level ∈ twoLevels.bids ++ twoLevels.asks, level.InFloatRange := by
    have ofInt (whole : ℤ) (isFloat : (PyFloat.ofInt whole : Except NumberError Double).isOk = true) :
        (Number.int whole).InFloatRange := by
      rintro other ⟨⟩
      exact isFloat
    simp only [twoLevels, sampleBook, List.cons_append, List.nil_append, List.forall_mem_cons,
      List.not_mem_nil, false_implies, implies_true, and_true]
    exact ⟨⟨ofInt 99 (by decide +kernel), ofInt 2 (by decide +kernel)⟩,
      ⟨ofInt 100 (by decide +kernel), ofInt 2 (by decide +kernel)⟩, ofInt 101 (by decide +kernel), by rintro _ ⟨⟩⟩
  have held : SumsHeld (twoLevels.levelsOf .ask) := by
    change SumsHeld ([] ++ [⟨.int 100, .int 2⟩] ++ [⟨.int 101, .decimal ⟨false, 5, -1⟩⟩])
    refine sumsHeld_concat.mpr ⟨sumsHeld_concat.mpr ⟨?_, ?_⟩, ?_⟩
    · intro count none
      rw [List.take_nil]
      exact ThreadContext.holds_zero
    · exact ⟨2, 0, by norm_num [exactDepth, Number.value], by decide, by decide, by decide⟩
    · exact ⟨25, -1, by norm_num [exactDepth, Number.value, Decimal.toRat, Decimal.magnitude], by decide,
        by decide, by decide⟩
  have positive : 0 < (Number.decimal ⟨false, 25, -1⟩).value := by
    norm_num [Number.value, Decimal.toRat, Decimal.magnitude]
  have sizeInRange : (Number.decimal ⟨false, 25, -1⟩).InFloatRange := by
    rintro _ ⟨⟩
  have judged := (@depth_coverage_exact_iff Zones.allUtc twoLevels sampleInstrument sampleNow oc1Policy .ask bids asks).mpr
    ⟨inRange, held⟩
  exact ⟨(judged 1 one_pos one_le_two (.decimal ⟨false, 25, -1⟩) trivial positive).mpr sizeInRange,
    (judged 2 two_pos le_rfl (.decimal ⟨false, 25, -1⟩) trivial positive).mpr sizeInRange⟩

/-- One level of the float `0.1` does not cover a required `0.1`: its decimal has 55 digits. -/
theorem equal_size_not_covered :
    ValidSide .bid (sampleBook (.float ⟨0.1⟩)).bids ∧ ValidSide .ask (sampleBook (.float ⟨0.1⟩)).asks ∧
      sampleNotCovered (.float ⟨0.1⟩) (.float ⟨0.1⟩) = some true ∧
      exactDepth (sampleBook (.float ⟨0.1⟩)).asks = (Number.float ⟨0.1⟩).value ∧
      0 < (Number.float ⟨0.1⟩).value := by
  have isReal : (Number.float ⟨0.1⟩).IsReal := by
    change PyFloat.isFinite (⟨0.1⟩ : Double) = true
    decide +kernel
  have positive : 0 < (Number.float ⟨0.1⟩).value := by decide +kernel
  obtain ⟨bids, asks⟩ := sampleBook_valid _ isReal positive.le
  exact ⟨bids, asks, by decide +kernel, by simp [exactDepth, sampleBook], positive⟩

end CryptoRadar.Integrity
