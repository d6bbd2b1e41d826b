import CryptoRadar.Lib.DecimalUnits
import CryptoRadar.Paper.Store

/-!
# What the schema of the paper game keeps

`PaperDb.Sound` collects what the constraints of the four tables promise: rows are numbered by
their place, an event has one play, a play has one close, amounts are integers of 64 bits. Every
insert keeps it (`Sound.addPlay`, `Sound.addClose`), so it holds of every table the calls reach.

Amounts of 64 bits have few digits, so the decimals read from them are sums of cents without
rounding: `readWallet_eq_ok` gives the balance and the stakes of the open plays in cents.
-/

set_option autoImplicit false

namespace CryptoRadar.Paper

open Checked Decimal
open Pilot (Observation)

/-! ## Cents -/

abbrev IsCents (count : ℤ) (amount : Decimal) : Prop := IsUnits centExponent count amount

theorem paperContext_holdsCents : HoldsUnits paperContext centExponent := by
  constructor <;> decide

theorem default_holdsUnits {exponent : ℤ} (least : -1000 ≤ exponent) (greatest : exponent ≤ 1000) :
    HoldsUnits DecimalContext.default exponent := by
  refine ⟨by decide, ?_, ?_⟩
  · exact le_trans (by decide) least
  · exact le_trans greatest (by decide)

/-- An integer column of SQLite holds 64 bits. -/
def IsSqlInteger (number : ℤ) : Prop := -2 ^ 63 ≤ number ∧ number < 2 ^ 63

theorem sqlInteger_eq_ok {number stored : ℤ} (held : sqlInteger number = .ok stored) :
    stored = number ∧ IsSqlInteger number := by
  unfold sqlInteger at held
  split at held
  next bounded =>
    cases held
    exact ⟨rfl, bounded⟩
  next => cases held

theorem IsSqlInteger.few {number : ℤ} (held : IsSqlInteger number) : |number| ≤ (2 ^ 63 : ℕ) := by
  obtain ⟨least, greatest⟩ := held
  rw [abs_le]
  constructor <;> push_cast <;> omega

theorem fromCents_isCents {count : ℤ} (held : IsSqlInteger count) :
    ∃ amount, fromCents count = .ok amount ∧ IsCents count amount := by
  have few : |count| < 10 ^ DecimalContext.default.precision :=
    lt_of_le_of_lt held.few (by decide)
  obtain ⟨amount, divided, isCents⟩ :=
    isUnits_div_hundred (default_holdsUnits (by decide) (by decide)) few
  refine ⟨amount, ?_, isCents⟩
  unfold fromCents
  rw [show Risk.hundred = Decimal.ofNat 100 from rfl, divided]
  rfl

/-- A hundred times a number of cents is that number. -/
theorem toCents_of_isCents {count : ℤ} {amount : Decimal} (isCents : IsCents count amount)
    (few : |count| ≤ 10 ^ 11) : toCents amount = .ok count := by
  have hundredfold : IsUnits 0 count ⟨amount.negative != Risk.hundred.negative,
      amount.coeff * Risk.hundred.coeff, amount.exponent + Risk.hundred.exponent⟩ := by
    have cents : amount.toRat = count * 10 ^ centExponent := isCents
    unfold IsUnits
    rw [toRat_product, cents, show Risk.hundred.toRat = 100 from toRat_ofNat 100]
    norm_num [centExponent]
    ring
  obtain ⟨product, isFit, isProduct⟩ := hundredfold.fit
    (default_holdsUnits (by decide) (by decide)) (lt_of_le_of_lt few (by decide))
  have multiplied : Decimal.mul DecimalContext.default amount Risk.hundred = .ok product := isFit
  have bounds := abs_le.mp few
  unfold toCents
  rw [multiplied]
  change sqlInteger product.toInt = _
  rw [toInt_of_isUnits isProduct]
  exact if_pos ⟨by omega, by omega⟩

theorem wholeCents_isCents {field : String} {amount : Decimal} {done : Unit}
    (whole : wholeCents field amount = .ok done) :
    ∃ count, 0 < count ∧ IsCents count amount ∧ toCents amount = .ok count := by
  obtain ⟨_, inRange, whole⟩ := bind_eq_ok.mp whole
  obtain ⟨positive, most⟩ := ensure_eq_ok.mp inRange
  obtain ⟨rounded, quantized, whole⟩ := bind_eq_ok.mp whole
  have same := Decimal.eq_iff.mp (ensure_eq_ok.mp whole)
  have exponent : rounded.exponent = centExponent := by
    cases result : cents amount with
    | ok value =>
        rw [result] at quantized
        cases quantized
        exact quantize_exponent result
    | error signal =>
        rw [result] at quantized
        cases quantized
  obtain ⟨count, isUnits⟩ := exists_isUnits rounded
  have isCents : IsCents count amount := by
    rw [exponent] at isUnits
    exact same.trans isUnits
  have value : amount.toRat = count / 100 := by
    have cents : amount.toRat = count * 10 ^ centExponent := isCents
    rw [cents]
    norm_num [centExponent]
    ring
  have above := Decimal.lt_iff.mp positive
  have below := (Decimal.le_iff _ _).mp most
  rw [show zero.toRat = 0 from toRat_ofNat 0, value] at above
  rw [show maxAmount.toRat = 1000000000 from toRat_ofNat 1000000000, value] at below
  have positiveCount : 0 < count := by
    have : (0 : ℚ) < count := by linarith
    exact_mod_cast this
  have few : count ≤ 10 ^ 11 := by
    have : (count : ℚ) ≤ 10 ^ 11 := by linarith
    exact_mod_cast this
  refine ⟨count, positiveCount, isCents, toCents_of_isCents isCents ?_⟩
  rw [abs_of_pos positiveCount]
  exact few

theorem toCents_isSqlInteger {amount : Decimal} {count : ℤ} (counted : toCents amount = .ok count) :
    IsSqlInteger count := by
  obtain ⟨product, _, held⟩ := bind_eq_ok.mp counted
  obtain ⟨rfl, bounded⟩ := sqlInteger_eq_ok held
  exact bounded

/-! ## The tables -/

/-- The rows of the store are numbered and close what was played, once. -/
structure PaperDb.Sound (db : PaperDb) : Prop where
  numbered : db.plays.map PlayRow.playId = (List.range db.plays.length).map (· + 1)
  events : (db.plays.map PlayRow.eventId).Nodup
  once : (db.closes.map CloseRow.playId).Nodup
  ofPlay : ∀ close ∈ db.closes, ∃ play ∈ db.plays, play.playId = close.playId
  playRows : db.plays.length ≤ maxRowId
  closeRows : db.closes.length ≤ maxRowId
  stakes : ∀ play ∈ db.plays, IsSqlInteger play.stakeCents
  nets : ∀ close ∈ db.closes, IsSqlInteger close.netCents
  start : ∀ wallet ∈ db.wallet, IsSqlInteger wallet.startBalanceCents

theorem PaperDb.sound_empty : PaperDb.Sound {} where
  numbered := rfl
  events := List.nodup_nil
  once := List.nodup_nil
  ofPlay _ member := by cases member
  playRows := Nat.zero_le _
  closeRows := Nat.zero_le _
  stakes _ member := by cases member
  nets _ member := by cases member
  start _ member := by cases member

/-- The tables with one more play. -/
def PaperDb.withPlay (db : PaperDb) (row : PlayRow) : PaperDb :=
  { db with plays := db.plays ++ [row] }

/-- The tables with one more close. -/
def PaperDb.withClose (db : PaperDb) (row : CloseRow) : PaperDb :=
  { db with closes := db.closes ++ [row] }

theorem PaperDb.insertPlay_eq_ok {db after : PaperDb} {row : PlayRow} {whyReadable : Bool}
    (inserted : db.insertPlay row whyReadable = .ok after) :
    after = db.withPlay row ∧ db.playFits row whyReadable := by
  obtain ⟨_, fits, made⟩ := bind_eq_ok.mp inserted
  cases made
  exact ⟨rfl, ensure_eq_ok.mp fits⟩

theorem PaperDb.insertClose_eq_ok {db after : PaperDb} {row : CloseRow}
    (inserted : db.insertClose row = .ok after) :
    after = db.withClose row ∧ db.closeFits row := by
  obtain ⟨_, fits, made⟩ := bind_eq_ok.mp inserted
  cases made
  exact ⟨rfl, ensure_eq_ok.mp fits⟩

theorem PaperDb.insertExitQuote_eq_ok {db after : PaperDb} {row : ExitQuoteRow}
    (inserted : db.insertExitQuote row = .ok after) :
    after = { db with exitQuotes := db.exitQuotes ++ [row] } := by
  obtain ⟨_, _, made⟩ := bind_eq_ok.mp inserted
  cases made
  rfl

theorem PaperDb.isClosed_iff {db : PaperDb} {playId : ℕ} :
    db.isClosed playId = true ↔ ∃ close ∈ db.closes, close.playId = playId := by
  simp [PaperDb.isClosed]

/-- A close opens nothing. -/
theorem PaperDb.openPlays_withClose (db : PaperDb) (row : CloseRow) :
    (db.withClose row).openPlays.Sublist db.openPlays := by
  unfold PaperDb.openPlays PaperDb.withClose
  refine List.monotone_filter_right _ fun play isOpen => ?_
  simp only [PaperDb.isClosed, List.any_append, Bool.not_or, Bool.and_eq_true] at isOpen ⊢
  exact isOpen.1

namespace PaperDb.Sound

variable {db : PaperDb} (sound : db.Sound)
include sound

theorem playId_le {play : PlayRow} (member : play ∈ db.plays) : play.playId ≤ db.plays.length := by
  have inRange : play.playId ∈ db.plays.map PlayRow.playId := List.mem_map_of_mem member
  rw [sound.numbered] at inRange
  obtain ⟨place, isPlace, same⟩ := List.mem_map.mp inRange
  have below := List.mem_range.mp isPlace
  omega

/-- A new play is open, and the plays that were open still are. -/
theorem openPlays_withPlay {row : PlayRow} (place : row.playId = db.plays.length + 1) :
    (db.withPlay row).openPlays = db.openPlays ++ [row] := by
  have isOpen : db.isClosed row.playId = false := by
    rw [Bool.eq_false_iff]
    intro closed
    obtain ⟨close, member, same⟩ := isClosed_iff.mp closed
    obtain ⟨play, inPlays, isPlay⟩ := sound.ofPlay close member
    have below := sound.playId_le inPlays
    omega
  unfold PaperDb.openPlays PaperDb.withPlay
  rw [List.filter_append]
  congr 1
  have same : PaperDb.isClosed { db with plays := db.plays ++ [row] } row.playId = false := isOpen
  simp [same]

theorem withPlay {row : PlayRow} {whyReadable : Bool} (place : row.playId = db.plays.length + 1)
    (fits : db.playFits row whyReadable) (stake : IsSqlInteger row.stakeCents) :
    (db.withPlay row).Sound := by
  obtain ⟨least, _, newEvent, _⟩ := fits
  have plays : (db.withPlay row).plays = db.plays ++ [row] := rfl
  refine ⟨?_, ?_, sound.once, ?_, ?_, sound.closeRows, ?_, sound.nets, sound.start⟩
  · rw [plays, List.map_append, sound.numbered, List.length_append, List.length_singleton,
      List.range_succ, List.map_append, List.map_singleton, List.map_singleton, place]
  · rw [plays, List.map_append, List.nodup_append]
    refine ⟨sound.events, List.nodup_singleton _, fun event old other new same => ?_⟩
    obtain ⟨play, inPlays, rfl⟩ := List.mem_map.mp old
    rw [List.map_singleton, List.mem_singleton] at new
    exact newEvent play inPlays (same.trans new)
  · intro close member
    obtain ⟨play, inPlays, isPlay⟩ := sound.ofPlay close member
    exact ⟨play, List.mem_append_left _ inPlays, isPlay⟩
  · rw [plays, List.length_append, List.length_singleton, ← place]
    exact least
  · intro play member
    rcases List.mem_append.mp member with old | new
    · exact sound.stakes play old
    · rw [List.mem_singleton.mp new]
      exact stake

theorem withClose {row : CloseRow} (place : row.closeId = db.closes.length + 1)
    (fits : db.closeFits row) (net : IsSqlInteger row.netCents) : (db.withClose row).Sound := by
  obtain ⟨least, newPlay, ofPlay, _⟩ := fits
  have closes : (db.withClose row).closes = db.closes ++ [row] := rfl
  refine ⟨sound.numbered, sound.events, ?_, ?_, sound.playRows, ?_, sound.stakes, ?_, sound.start⟩
  · rw [closes, List.map_append, List.nodup_append]
    refine ⟨sound.once, List.nodup_singleton _, fun play old other new same => ?_⟩
    obtain ⟨close, inCloses, rfl⟩ := List.mem_map.mp old
    rw [List.map_singleton, List.mem_singleton] at new
    exact newPlay close inCloses (same.trans new)
  · intro close member
    rcases List.mem_append.mp member with old | new
    · exact sound.ofPlay close old
    · rw [List.mem_singleton.mp new]
      exact ofPlay
  · rw [closes, List.length_append, List.length_singleton, ← place]
    exact least
  · intro close member
    rcases List.mem_append.mp member with old | new
    · exact sound.nets close old
    · rw [List.mem_singleton.mp new]
      exact net

theorem withExitQuotes (rows : List ExitQuoteRow) : PaperDb.Sound { db with exitQuotes := rows } :=
  ⟨sound.numbered, sound.events, sound.once, sound.ofPlay, sound.playRows, sound.closeRows,
    sound.stakes, sound.nets, sound.start⟩

end PaperDb.Sound

/-! ## What is read -/

/-- The open positions are the open plays, with their stakes in cents. -/
def Matches (positions : List OpenPosition) (plays : List PlayRow) : Prop :=
  List.Forall₂ (fun position play => position.asset = play.asset ∧
    IsCents play.stakeCents position.stake) positions plays

/-- The balance in cents. -/
def PaperDb.balanceCents (db : PaperDb) (wallet : WalletRow) : ℤ :=
  wallet.startBalanceCents + (db.closes.map CloseRow.netCents).sum

def PaperDb.openStakes (db : PaperDb) : ℤ := (db.openPlays.map PlayRow.stakeCents).sum

theorem fromCents_eq_ok {count : ℤ} {amount : Decimal} (held : IsSqlInteger count)
    (read : fromCents count = .ok amount) : IsCents count amount := by
  obtain ⟨other, isOther, isCents⟩ := fromCents_isCents held
  cases read.symm.trans isOther
  exact isCents

/-- Fewer than 2^63 amounts of 64 bits have fewer digits than the context. -/
theorem balance_few {start : ℤ} (held : IsSqlInteger start) {count : ℕ} (few : count ≤ 2 ^ 63) :
    |start| + count * (2 ^ 63 : ℕ) < 10 ^ paperContext.precision := by
  have first := held.few
  have many : (count : ℤ) ≤ 2 ^ 63 := by exact_mod_cast few
  have bound : (2 : ℤ) ^ 63 + 2 ^ 63 * 2 ^ 63 < 10 ^ paperContext.precision := by decide
  push_cast at first ⊢
  nlinarith

namespace PaperDb.Sound

variable {db : PaperDb} (sound : db.Sound)
include sound

theorem netCents_few : (db.closes.map CloseRow.netCents).length ≤ 2 ^ 63 ∧
    ∀ count ∈ db.closes.map CloseRow.netCents, |count| ≤ (2 ^ 63 : ℕ) := by
  refine ⟨?_, fun count member => ?_⟩
  · rw [List.length_map]
    exact le_trans sound.closeRows (by decide)
  · obtain ⟨close, inCloses, rfl⟩ := List.mem_map.mp member
    exact (sound.nets close inCloses).few

theorem openStakes_few : (db.openPlays.map PlayRow.stakeCents).length ≤ 2 ^ 63 ∧
    ∀ count ∈ db.openPlays.map PlayRow.stakeCents, |count| ≤ (2 ^ 63 : ℕ) := by
  refine ⟨?_, fun count member => ?_⟩
  · rw [List.length_map]
    exact le_trans (List.length_filter_le _ _) (le_trans sound.playRows (by decide))
  · obtain ⟨play, inOpen, rfl⟩ := List.mem_map.mp member
    exact (sound.stakes play (List.mem_of_mem_filter inOpen)).few

theorem readWallet_eq_ok {currentBalance : Decimal} {positions : List OpenPosition}
    (read : readWallet db = .ok (currentBalance, positions)) :
    ∃ wallet, db.wallet = some wallet ∧ IsCents (db.balanceCents wallet) currentBalance ∧
      Matches positions db.openPlays := by
  obtain ⟨wallet, isWallet, read⟩ := bind_eq_ok.mp read
  obtain ⟨start, isStart, read⟩ := bind_eq_ok.mp read
  obtain ⟨nets, areNets, read⟩ := bind_eq_ok.mp read
  obtain ⟨total, isBalance, read⟩ := bind_eq_ok.mp read
  obtain ⟨found, arePositions, made⟩ := bind_eq_ok.mp read
  cases made
  have recorded : db.wallet = some wallet := require_eq_ok.mp isWallet
  refine ⟨wallet, recorded, ?_, ?_⟩
  · have startCents := fromCents_eq_ok (sound.start wallet recorded) isStart
    have netsCents : List.Forall₂ (fun net count => IsCents count net) nets
        (db.closes.map CloseRow.netCents) := by
      rw [List.forall₂_map_right_iff]
      refine List.Forall₂.flip ?_
      refine ((List.forall₂_and_left _ _).mpr ⟨sound.nets, mapM_eq_ok.mp areNets⟩).imp ?_
      rintro close net ⟨held, isNet⟩
      exact fromCents_eq_ok held isNet
    obtain ⟨few, small⟩ := sound.netCents_few
    obtain ⟨sum, folded, isSum⟩ := IsUnits.sum paperContext_holdsCents netsCents startCents small
      (balance_few (sound.start wallet recorded) few)
    obtain ⟨_, _, summed⟩ := bind_eq_ok.mp (mapError_eq_ok.mp isBalance)
    rw [folded] at summed
    cases summed
    exact isSum
  · refine List.Forall₂.flip ?_
    have stakes : ∀ play ∈ db.openPlays, IsSqlInteger play.stakeCents :=
      fun play member => sound.stakes play (List.mem_of_mem_filter member)
    refine ((List.forall₂_and_left _ _).mpr ⟨stakes, mapM_eq_ok.mp arePositions⟩).imp ?_
    rintro play position ⟨held, made⟩
    obtain ⟨stake, isStake, made⟩ := bind_eq_ok.mp made
    cases made
    exact ⟨rfl, fromCents_eq_ok held isStake⟩

end PaperDb.Sound

end CryptoRadar.Paper
