import CryptoRadar.Trend.Python
import CryptoRadar.Trend.Recorded

/-!
# A catch-up that was interrupted

A catch-up whose process stops after some of its appends leaves a file that is a ledger, and a
second catch-up on this ledger, with the same markets, finishes the file as the first one would
have (`catchUpDays_resumes`). What a day's lines are depends on the market, the day and the
ledger before it. The ledger read back from the file is the one that was computed in memory
(`extendLedger_twice`), and the second plan says of the days that are left what the first one
said (`Trend.Plan`), so both runs append the same lines.

The day after the last day of the ledger must exist: a ledger that has reached 9999-12-31 cannot
be caught up at all, not even when nothing is due (`catchUpDays_after_last_date`).
-/

set_option autoImplicit false

namespace CryptoRadar.Trend

open Checked

/-! ## Prepared days -/

section Prepare

variable {F : Type} [PyMath F] {codec : LedgerCodec F} {start : Date} {market : Market F} {ts : PyStr}

/-- The chunks extend the ledger, one after the other, to the last one. -/
inductive Extends (codec : LedgerCodec F) (start : Date) :
    Ledger F → List Chunk → Ledger F → Prop where
  | nil (ledger : Ledger F) : Extends codec start ledger [] ledger
  | cons {ledger middle last : Ledger F} {chunk : Chunk} {rest : List Chunk}
      (extended : extendLedger codec start ledger chunk.data = .ok middle)
      (covered : middle.lastDay = some chunk.day) (others : Extends codec start middle rest last) :
      Extends codec start ledger (chunk :: rest) last

def bytesOfChunks (chunks : List Chunk) : Bytes := chunks.flatMap Chunk.data

theorem Extends.extendLedger {ledger last : Ledger F} {chunks : List Chunk}
    (extends_ : Extends codec start ledger chunks last) :
    extendLedger codec start ledger (bytesOfChunks chunks) = .ok last := by
  induction extends_ with
  | nil ledger => exact extendLedger_nil ledger
  | cons extended _ _ hyp =>
      rw [bytesOfChunks, List.flatMap_cons, ← extendLedger_twice _ extended]
      exact hyp

theorem Extends.split {ledger last : Ledger F} {front rest : List Chunk}
    (extends_ : Extends codec start ledger (front ++ rest) last) :
    ∃ middle, Extends codec start ledger front middle ∧ Extends codec start middle rest last := by
  induction front generalizing ledger with
  | nil => exact ⟨ledger, .nil ledger, extends_⟩
  | cons chunk front hyp =>
      cases extends_ with
      | cons extended covered others =>
          obtain ⟨middle, first, second⟩ := hyp others
          exact ⟨middle, .cons extended covered first, second⟩

theorem Extends.unique {ledger last other : Ledger F} {chunks : List Chunk}
    (extends_ : Extends codec start ledger chunks last) :
    Extends codec start ledger chunks other → last = other := by
  induction extends_ with
  | nil ledger =>
      intro again
      cases again
      rfl
  | cons extended _ _ hyp =>
      intro again
      cases again with
      | cons extendedAgain _ others =>
          cases extended.symm.trans extendedAgain
          exact hyp others

/-- After some chunks the last day of the ledger is that of the last chunk. -/
theorem Extends.lastDay {ledger last : Ledger F} {chunks : List Chunk} {chunk : Chunk}
    (extends_ : Extends codec start ledger (chunks ++ [chunk]) last) :
    last.lastDay = some chunk.day := by
  obtain ⟨middle, _, final⟩ := extends_.split
  cases final with
  | cons _ covered others =>
      cases others
      exact covered

theorem prepare_days {gaps : Dict Date DayGap} {days : List Date} :
    ∀ {pending : Ledger F} {chunks : List Chunk},
      prepare codec start market ts gaps pending days = .ok chunks →
        chunks.map Chunk.day = days := by
  induction days with
  | nil =>
      intro pending chunks prepared
      cases prepared
      rfl
  | cons day rest hyp =>
      intro pending chunks prepared
      rw [prepare] at prepared
      obtain ⟨data, _, prepared⟩ := bind_eq_ok.mp prepared
      obtain ⟨extended, _, prepared⟩ := bind_eq_ok.mp prepared
      obtain ⟨others, isOthers, prepared⟩ := bind_eq_ok.mp prepared
      cases prepared
      rw [List.map_cons, hyp isOthers]

/-- What was prepared for the later days is prepared again on the ledger the earlier days lead
to, by a plan that says the same of them. -/
theorem prepare_resumed {gaps later : Dict Date DayGap} {rest : List Date}
    (same : ∀ day ∈ rest, later.get? day = gaps.get? day) {more : List Chunk} {chunks : List Chunk} :
    ∀ {days : List Date} {pending middle : Ledger F},
      prepare codec start market ts gaps pending (days ++ rest) = .ok (chunks ++ more) →
      chunks.length = days.length → Extends codec start pending chunks middle →
      prepare codec start market ts later middle rest = .ok more := by
  induction chunks with
  | nil =>
      intro days pending middle prepared lengths extends_
      obtain rfl := List.eq_nil_of_length_eq_zero lengths.symm
      cases extends_
      rw [List.nil_append, List.nil_append] at prepared
      rw [← prepared]
      clear prepared lengths
      induction rest generalizing pending with
      | nil => rfl
      | cons day rest hyp =>
          have sameLines : dayLines codec start market ts later pending day =
              dayLines codec start market ts gaps pending day := by
            unfold dayLines
            rw [same day List.mem_cons_self]
          rw [prepare, prepare, sameLines, same day List.mem_cons_self]
          refine bind_congr fun data => ?_
          refine bind_congr fun extended => ?_
          rw [hyp fun day member => same day (List.mem_cons_of_mem _ member)]
  | cons chunk chunks hyp =>
      intro days pending middle prepared lengths extends_
      cases days with
      | nil => cases lengths
      | cons day days =>
          rw [List.cons_append, prepare] at prepared
          obtain ⟨data, _, prepared⟩ := bind_eq_ok.mp prepared
          obtain ⟨extended, isExtended, prepared⟩ := bind_eq_ok.mp prepared
          obtain ⟨others, isOthers, prepared⟩ := bind_eq_ok.mp prepared
          cases prepared
          cases extends_ with
          | cons again _ tail =>
              cases isExtended.symm.trans again
              exact hyp isOthers (Nat.succ.inj lengths) tail

end Prepare

/-! ## The writer -/

section Writer

variable {F : Type} [PyMath F] {codec : LedgerCodec F} {start : Date}

def Writer.Verified (codec : LedgerCodec F) (start : Date) (writer : Writer F) : Prop :=
  parseLedger codec start writer.file = .ok writer.ledger

theorem Writer.Verified.size {writer : Writer F} (verified : writer.Verified codec start) :
    writer.file.length = writer.ledger.size := by
  rw [extendLedger_size verified]
  exact (Nat.zero_add _).symm

/-- A writer that goes on appends lines that extend its ledger. -/
theorem Writer.append_eq {file data : Bytes} {ledger extended : Ledger F} {left : Option ℕ}
    (verified : (⟨file, ledger, left⟩ : Writer F).Verified codec start) (goes : left ≠ some 0)
    (isExtended : extendLedger codec start ledger data = .ok extended) :
    Writer.append codec start data ⟨file, ledger, left⟩ =
        (.ok extended, ⟨file ++ data, extended, left.map (· - 1)⟩) ∧
      (⟨file ++ data, extended, left.map (· - 1)⟩ : Writer F).Verified codec start := by
  constructor
  · have size := verified.size
    unfold Writer.append
    simp only [if_neg goes, isExtended, size, if_true]
  · unfold Writer.Verified parseLedger at verified ⊢
    rw [← extendLedger_twice _ verified]
    exact isExtended

/-- The writer appends as many of the chunks as it has appends left. -/
theorem appendChunks_extends {chunks : List Chunk} {ledger last : Ledger F}
    (extends_ : Extends codec start ledger chunks last) :
    ∀ {file : Bytes} (left : Option ℕ),
      (⟨file, ledger, left⟩ : Writer F).Verified codec start →
      ∃ reached, Extends codec start ledger (chunks.take (left.getD chunks.length)) reached ∧
        (appendChunks (Writer.append codec start) chunks ⟨file, ledger, left⟩).2.file =
          file ++ bytesOfChunks (chunks.take (left.getD chunks.length)) ∧
        (appendChunks (Writer.append codec start) chunks ⟨file, ledger, left⟩).2.ledger = reached ∧
        (left = none → (appendChunks (Writer.append codec start) chunks ⟨file, ledger, left⟩).1 =
          .ok ()) := by
  induction extends_ with
  | nil ledger =>
      intro file left verified
      exact ⟨ledger, by simpa using Extends.nil ledger, by simp [appendChunks, bytesOfChunks],
        rfl, fun _ => rfl⟩
  | @cons ledger middle last chunk rest extended covered others hyp =>
      intro file left verified
      by_cases stops : left = some 0
      · subst stops
        refine ⟨ledger, by simpa using Extends.nil ledger, ?_, ?_, by simp⟩
        · simp [appendChunks, Writer.append, bytesOfChunks]
        · simp [appendChunks, Writer.append]
      · obtain ⟨appended, verifiedAfter⟩ := Writer.append_eq verified stops extended
        obtain ⟨reached, front, sameFile, sameLedger, done⟩ := hyp (left.map (· - 1)) verifiedAfter
        have step : appendChunks (Writer.append codec start) (chunk :: rest) ⟨file, ledger, left⟩ =
            appendChunks (Writer.append codec start) rest
              ⟨file ++ chunk.data, middle, left.map (· - 1)⟩ := by
          rw [appendChunks, appended]
          exact if_pos covered
        have taken : (chunk :: rest).take (left.getD (chunk :: rest).length) =
            chunk :: rest.take ((left.map (· - 1)).getD rest.length) := by
          cases left with
          | none => simp
          | some count =>
              cases count with
              | zero => exact absurd rfl stops
              | succ count => simp
        rw [step, taken]
        refine ⟨reached, .cons extended covered front, ?_, sameLedger, fun none => done (by simp [none])⟩
        rw [sameFile, bytesOfChunks, bytesOfChunks, List.flatMap_cons, List.append_assoc]

/-- Chunks that a writer appends without failing extend its ledger. -/
theorem extends_of_appendChunks {chunks : List Chunk} :
    ∀ {writer : Writer F}, (appendChunks (Writer.append codec start) chunks writer).1 = .ok () →
      ∃ last, Extends codec start writer.ledger chunks last := by
  induction chunks with
  | nil =>
      intro writer _
      exact ⟨writer.ledger, .nil _⟩
  | cons chunk rest hyp =>
      intro writer done
      have step : ∃ middle after, extendLedger codec start writer.ledger chunk.data = .ok middle ∧
          Writer.append codec start chunk.data writer = (.ok middle, after) ∧
          after.ledger = middle := by
        unfold Writer.append
        by_cases stops : writer.left = some 0
        · rw [appendChunks, Writer.append, if_pos stops] at done
          cases done
        cases isExtended : extendLedger codec start writer.ledger chunk.data with
        | error failure =>
            rw [appendChunks, Writer.append, if_neg stops, isExtended] at done
            cases done
        | ok middle =>
            by_cases size : writer.file.length = writer.ledger.size
            · exact ⟨middle, _, rfl, by rw [if_neg stops]; simp only [if_pos size]; rfl, rfl⟩
            · rw [appendChunks, Writer.append, if_neg stops, isExtended] at done
              simp only [if_neg size] at done
              cases done
      obtain ⟨middle, after, isExtended, appended, sameLedger⟩ := step
      rw [appendChunks, appended] at done
      by_cases covered : middle.lastDay = some chunk.day
      · simp only [if_pos covered] at done
        obtain ⟨last, others⟩ := hyp done
        exact ⟨last, .cons isExtended covered (sameLedger ▸ others)⟩
      · simp only [if_neg covered] at done
        cases done

end Writer

/-! ## The catch-up -/

section CatchUp

variable {F : Type} [PyMath F] (codec : LedgerCodec F) (start : Date) (market second : Market F)
  (ts : PyStr) (today : Option Date)

/-- A catch-up of the writer's file, confirmed by the second market whatever is asked of it. -/
def Writer.catchUp (writer : Writer F) : Except CatchUpFailure (List Date) × Writer F :=
  catchUpDays codec start market ts (Writer.append codec start) (some fun _ => second)
    writer.ledger today writer

variable {codec start market second ts today}

/-- 9999-12-31. -/
def lastDate : Date := ⟨3652059, by decide, by decide⟩

theorem plusDays_one_isOk {day : Date} (notLast : day ≠ lastDate) :
    ∃ next, plusDays day 1 = .ok next := by
  have upper := day.upper
  have different : day.ordinal ≠ 3652059 := fun same => notLast (Date.ext same)
  refine ⟨⟨day.ordinal + 1, by omega, by omega⟩, ?_⟩
  exact require_eq_ok.mpr (Date.plusDays?_eq_some.mpr (by simp))

/-- The plan on the ledger that some of the chunks lead to prepares the rest of them. -/
theorem prepare_after_cut {ledger middle : Ledger F} {plan : CatchUpPlan} {front rest : List Chunk}
    (isReady : Prepared codec start market ts (some fun _ => second) ledger today plan (front ++ rest))
    (extends_ : Extends codec start ledger front middle) (notLast : middle.lastDay ≠ some lastDate) :
    ∃ resumed, Prepared codec start market ts (some fun _ => second) middle today resumed rest := by
  rcases List.eq_nil_or_concat' front with rfl | ⟨front, chunk, rfl⟩
  · cases extends_
    exact ⟨plan, isReady⟩
  · obtain ⟨base, isBase, goes, baseDays, baseGaps, confirmed⟩ :=
      of_confirmedPlan isReady.isPlan isReady.checked
    have prepared := isReady.prepared
    have isCovered := extends_.lastDay
    obtain ⟨first, isFirst⟩ := plusDays_one_isOk fun same => notLast (isCovered.trans (congrArg some same))
    have days : plan.days = front.map Chunk.day ++ chunk.day :: rest.map Chunk.day := by
      rw [← prepare_days prepared]
      simp
    obtain ⟨later, isLater, laterGoes, laterDays, laterGaps, fewer⟩ :=
      planCatchUp_resumed isBase goes (baseDays.trans days) isCovered isFirst
    have laterConfirmed : ∀ gap ∈ later.missing, refusal second gap = .ok none := by
      intro gap member
      obtain ⟨ask, isAsk, refused⟩ := confirmed gap (fewer gap member)
      cases isAsk
      exact refused
    obtain ⟨resumed, isResumed, checkedAgain, resumedDays, resumedGaps⟩ :=
      confirmedPlan_of (fun _ => second) isLater laterGoes laterConfirmed
    refine ⟨resumed, isResumed, checkedAgain, ?_⟩
    rw [resumedDays, laterDays, resumedGaps]
    rw [days] at prepared
    have same : ∀ day ∈ rest.map Chunk.day, later.gaps.get? day = plan.gaps.get? day := by
      intro day member
      rw [laterGaps day member, baseGaps]
    have regrouped : prepare codec start market ts plan.gaps ledger
        ((front.map Chunk.day ++ [chunk.day]) ++ rest.map Chunk.day) =
          .ok ((front ++ [chunk]) ++ rest) := by
      simpa using prepared
    exact prepare_resumed same regrouped (by simp) extends_

/-- **A resumed catch-up equals an uninterrupted one**: a catch-up that settles every due day is
stopped after some of its appends. What it leaves is a ledger and, unless this ledger ends with
9999-12-31, the same catch-up on it settles the days that are left, with the file the
uninterrupted run ends with. -/
theorem catchUpDays_resumes (codec : LedgerCodec F) (start : Date) (market second : Market F)
    (ts : PyStr) (today : Option Date) (file : Bytes) (ledger : Ledger F) (appends : ℕ)
    (parsed : parseLedger codec start file = .ok ledger)
    (settles : ∃ booked, ((⟨file, ledger, none⟩ : Writer F).catchUp codec start market second ts
      today).1 = .ok booked) :
    let whole := ((⟨file, ledger, none⟩ : Writer F).catchUp codec start market second ts today).2
    let cut := ((⟨file, ledger, some appends⟩ : Writer F).catchUp codec start market second ts
      today).2
    parseLedger codec start cut.file = .ok cut.ledger ∧
      (cut.ledger.lastDay ≠ some lastDate →
        let resumed := (⟨cut.file, cut.ledger, none⟩ : Writer F).catchUp codec start market second
          ts today
        (∃ booked, resumed.1 = .ok booked) ∧ resumed.2.file = whole.file) := by
  intro whole cut
  obtain ⟨booked, returned⟩ := settles
  obtain ⟨plan, chunks, isReady⟩ : ∃ plan chunks,
      Prepared codec start market ts (some fun _ => second) ledger today plan chunks := by
    rcases catchUpDays_outcome codec start market ts (some fun _ => second) ledger today
      (Writer.append codec start) ⟨file, ledger, none⟩ with ⟨failure, failed, _⟩ | isReady
    · rw [Writer.catchUp, failed] at returned
      cases returned
    · exact isReady
  obtain ⟨sameWhole, returns, _⟩ := catchUpDays_prepared isReady (Writer.append codec start)
    ⟨file, ledger, none⟩
  obtain ⟨sameCut, _⟩ := catchUpDays_prepared isReady (Writer.append codec start)
    ⟨file, ledger, some appends⟩
  obtain ⟨last, extends_⟩ := extends_of_appendChunks (returns.mp ⟨booked, returned⟩)
  obtain ⟨reached, _, wholeFile, _, _⟩ := appendChunks_extends extends_ none parsed
  obtain ⟨middle, front, cutFile, cutLedger, _⟩ := appendChunks_extends extends_ (some appends) parsed
  rw [← sameWhole] at wholeFile
  rw [← sameCut] at cutFile cutLedger
  change whole.file = _ at wholeFile
  change cut.file = _ at cutFile
  change cut.ledger = _ at cutLedger
  simp only [Option.getD_none, List.take_length, Option.getD_some] at wholeFile cutFile front
  have reparsed : parseLedger codec start cut.file = .ok middle := by
    unfold parseLedger at parsed ⊢
    rw [cutFile, ← extendLedger_twice _ parsed]
    exact front.extendLedger
  rw [cutLedger]
  refine ⟨reparsed, fun notLast => ?_⟩
  -- the rest of the chunks is what the second catch-up prepares and appends
  have split := (List.take_append_drop appends chunks).symm
  obtain ⟨again, frontAgain, rest⟩ := (split ▸ extends_).split
  obtain rfl := front.unique frontAgain
  obtain ⟨later, isLater⟩ := prepare_after_cut (split ▸ isReady) front notLast
  obtain ⟨sameResumed, resumes, _⟩ := catchUpDays_prepared isLater (Writer.append codec start)
    ⟨cut.file, middle, none⟩
  obtain ⟨_, _, resumedFile, _, done⟩ := appendChunks_extends rest none reparsed
  refine ⟨resumes.mpr (done rfl), ?_⟩
  rw [Option.getD_none, List.take_length] at resumedFile
  calc _ = cut.file ++ bytesOfChunks (chunks.drop appends) := by
        rw [Writer.catchUp, sameResumed]
        exact resumedFile
    _ = file ++ (bytesOfChunks (chunks.take appends) ++ bytesOfChunks (chunks.drop appends)) := by
        rw [cutFile, List.append_assoc]
    _ = file ++ bytesOfChunks chunks := by
        unfold bytesOfChunks
        rw [← List.flatMap_append, List.take_append_drop]
    _ = whole.file := wholeFile.symm

end CatchUp

/-! ## At the end of the calendar -/

section LastDate

variable {F : Type} [PyMath F] {platform : Platform F} {start : Date} {market second : Market F}
  {ts : PyStr}

/-- A ledger that has reached the last date cannot be caught up: its next day does not exist. -/
theorem catchUpDays_after_last_date (codec : LedgerCodec F) (today : Option Date) (writer : Writer F)
    (ends : writer.ledger.lastDay = some lastDate) :
    writer.catchUp codec start market second ts today =
      (.error (.paper (.engine .overflow)), writer) := by
  have isFirst : firstDayToBook writer.ledger start = .error (.engine .overflow) := by
    have noNext : plusDays lastDate 1 = .error (.engine .overflow) := by decide +kernel
    unfold firstDayToBook
    rw [ends]
    exact noNext
  unfold Writer.catchUp catchUpDays confirmedPlan planCatchUp
  rw [isFirst]
  rfl

/-- A first day that is due alone and cannot be booked is skipped, once both markets show that
its candles are missing for good. -/
theorem catchUp_skips (lawful : platform.Lawful) (tsValid : ts.Valid) {found : DayGap}
    {horizon : Date} (isGap : dayGap market start = .ok (some found))
    (later : ∀ gap ∈ found.gaps, hasLater market gap.symbol gap.day = .ok true)
    (confirmed : ∀ gap ∈ found.gaps, refusal second gap = .ok none)
    (isHorizon : lastBookableDay market = .ok (some horizon)) (reached : start ≤ horizon)
    (left : Option ℕ) (goes : left ≠ some 0) :
    let after := (⟨[], .empty, left⟩ : Writer F).catchUp platform.codec start market second ts
      (some start)
    after.2.ledger.lastDay = some start ∧ (left = none → ∃ booked, after.1 = .ok booked) := by
  have settles : Settles market start (some found) found.gaps :=
    ⟨dayNeeds_eq_ok.mpr ⟨isGap, rfl⟩, firstUnsettled_eq_none.mpr later⟩
  have isDays : daysUpTo start start = .ok [start] := daysUpTo_eq_ok.mpr (by simp)
  have isBase : planCatchUp Ledger.empty market start (some start) =
      .ok (CatchUpPlan.add (.ofDays [start]) start found.gaps (some found)) := by
    refine (planCatchUp_eq_ok rfl).mpr ⟨start, some horizon, rfl, isHorizon, .inr ?_⟩
    exact ⟨start, [start], rfl, le_refl _, by simpa using reached, isDays, planDays_cons settles⟩
  obtain ⟨plan, isPlan, checked, days, gaps⟩ := confirmedPlan_of (fun _ => second) isBase rfl (by
    intro gap member
    have inGap : gap ∈ found.gaps ++ [] ++ [] := member
    exact confirmed gap (by simpa using inGap))
  obtain ⟨fits, isStart⟩ := skipFits_of_dayGap isGap
  have isFirst : firstDayToBook (Ledger.empty (F := F)) start = .ok found.day :=
    congrArg Except.ok isStart.symm
  obtain ⟨data, extended, encoded, isExtended, skipped, _, noDays, _⟩ :=
    LedgerFormat.extend_encodeSkip lawful (by decide) ⟨[], rfl⟩ isFirst fits tsValid
  rw [extend_mainFormat] at isExtended
  have covered : extended.lastDay = some start := by
    unfold Ledger.lastDay
    rw [skipped, noDays]
    exact congrArg some isStart
  have prepared : prepare platform.codec start market ts plan.gaps .empty plan.days =
      .ok [⟨start, data, true⟩] := by
    rw [days, gaps]
    have lines : dayLines platform.codec start market ts [(start, found)] Ledger.empty start =
        .ok data := by
      simpa [dayLines, Dict.get?_cons] using encoded
    have isSkip : (Dict.get? [(start, found)] start).isSome = true := by simp [Dict.get?_cons]
    change prepare platform.codec start market ts [(start, found)] .empty [start] = _
    rw [prepare, lines]
    refine bind_eq_ok.mpr ⟨data, rfl, bind_eq_ok.mpr ⟨extended, isExtended, ?_⟩⟩
    exact bind_eq_ok.mpr ⟨[], rfl, by rw [isSkip]; rfl⟩
  intro after
  have isReady : Prepared platform.codec start market ts (some fun _ => second) .empty (some start)
      plan [⟨start, data, true⟩] := ⟨isPlan, checked, prepared⟩
  obtain ⟨same, returns, _⟩ := catchUpDays_prepared isReady (Writer.append platform.codec start)
    ⟨[], .empty, left⟩
  have extends_ : Extends platform.codec start .empty [⟨start, data, true⟩] extended :=
    .cons isExtended covered (.nil extended)
  have verified : (⟨[], .empty, left⟩ : Writer F).Verified platform.codec start := rfl
  obtain ⟨last, front, _, isLedger, done⟩ := appendChunks_extends extends_ left verified
  have all : ([⟨start, data, true⟩] : List Chunk).take (left.getD 1) = [] ++ [⟨start, data, true⟩] := by
    cases left with
    | none => rfl
    | some count => cases count with
      | zero => exact absurd rfl goes
      | succ count => simp
  refine ⟨?_, fun whole => returns.mpr (done whole)⟩
  rw [← same] at isLedger
  rw [List.length_singleton, all] at front
  change after.2.ledger = last at isLedger
  rw [isLedger, front.lastDay]

/-- The BTCUSDT candle of its listing day, and the opens of the last date. -/
def lastMarket : Market Double :=
  [("BTCUSDT", flatSeries "BTCUSDT" [btcusdtListingDay] (some lastDate) 64000.0 (by decide) (by decide)
      priced_64000),
    ("ETHUSDT", openSeries "ETHUSDT" lastDate 2500.0 priced_2500)]

/-- Every series ends at the last date, and so do the days that can be booked; the last date itself
lacks the closes of its signals. -/
theorem lastMarket_ends :
    (∀ symbol ∈ Asset.all.map Asset.usdtSymbol,
      (match seriesOf lastMarket symbol with
        | .ok series => series.lastOpenDay
        | .error _ => none) = some lastDate) ∧
    lastBookableDay lastMarket = .ok (some lastDate) ∧
    ((dayGap lastMarket lastDate).toOption.bind id).map DayGap.reason = some .noSignalClose := by
  decide +kernel

theorem lastMarket_hasLater {symbol : String} (known : symbol ∈ Asset.all.map Asset.usdtSymbol)
    {day : Date} (before : day < lastDate) : hasLater lastMarket symbol day = .ok true := by
  have lastOpen : ∀ symbol ∈ Asset.all.map Asset.usdtSymbol, ∃ series,
      seriesOf lastMarket symbol = .ok series ∧ series.lastOpenDay = some lastDate := by
    intro symbol known
    have last := lastMarket_ends.1 symbol known
    cases isSeries : seriesOf lastMarket symbol with
    | error failure =>
        rw [isSeries] at last
        cases last
    | ok series =>
        rw [isSeries] at last
        exact ⟨series, rfl, last⟩
  obtain ⟨series, isSeries, last⟩ := lastOpen symbol known
  refine bind_eq_ok.mpr ⟨series, isSeries, ?_⟩
  rw [last]
  exact congrArg Except.ok (decide_eq_true before)

/-- A market confirms the gaps it lacks for good itself. -/
theorem refusal_of_lacksForGood {F : Type} [PyFloat F] {market : Market F} {gap : Gap}
    (lacks : LacksForGood market gap) (later : hasLater market gap.symbol gap.day = .ok true) :
    refusal market gap = .ok none := by
  obtain ⟨series, held, named, noOpen, _⟩ := lacks.lacks
  unfold refusal
  rw [held]
  simp only [named, ne_eq, not_true_eq_false, if_false]
  refine bind_eq_ok.mpr ⟨true, later, ?_⟩
  rw [noOpen]
  rfl

/-- The last date is skipped, for the closes its signals lack. -/
theorem lastMarket_gap : ∃ found, dayGap lastMarket lastDate = .ok (some found) ∧
    ∀ gap ∈ found.gaps, hasLater lastMarket gap.symbol gap.day = .ok true := by
  obtain ⟨gap, isGap, isReason⟩ : ∃ found, dayGap lastMarket lastDate = .ok (some found) ∧
      found.reason = .noSignalClose := exists_dayGap DayGap.reason lastMarket_ends.2.2
  refine ⟨gap, isGap, fun missing member => ?_⟩
  cases gapFound_of_dayGap isGap with
  | fill _ isFound =>
      have other := (blocked_eq_some isFound).2.1
      cases isReason.symm.trans other
  | signal _ isSignal isFound =>
      rw [(blocked_eq_some isFound).2.2] at member
      obtain ⟨before, known⟩ := signalGaps_before isSignal missing member
      exact lastMarket_hasLater known before
  | eur _ _ _ isFound =>
      have other := (blocked_eq_some isFound).2.1
      cases isReason.symm.trans other

/-- A catch-up of the last date settles it, and cannot be made again on the file it leaves. -/
theorem catchUpDays_not_resumed :
    parseLedger python.codec lastDate [] = .ok .empty ∧
    (∃ booked, ((⟨[], .empty, none⟩ : Writer Double).catchUp python.codec lastDate lastMarket
      lastMarket (pyStr "t") (some lastDate)).1 = .ok booked) ∧
    let cut := ((⟨[], .empty, some 1⟩ : Writer Double).catchUp python.codec lastDate lastMarket
      lastMarket (pyStr "t") (some lastDate)).2
    ¬ ∃ booked, ((⟨cut.file, cut.ledger, none⟩ : Writer Double).catchUp python.codec lastDate
      lastMarket lastMarket (pyStr "t") (some lastDate)).1 = .ok booked := by
  obtain ⟨found, isGap, later⟩ := lastMarket_gap
  have confirmed : ∀ gap ∈ found.gaps, refusal lastMarket gap = .ok none := fun gap member =>
    refusal_of_lacksForGood (lacksForGood_of_absent (absent_of_dayGap isGap gap member)
      (later gap member)) (later gap member)
  have isHorizon : lastBookableDay lastMarket = .ok (some lastDate) := lastMarket_ends.2.1
  have skips := catchUp_skips python_lawful (JsonText.valid_pyStr "t") isGap later confirmed isHorizon le_rfl
  have fails : ∀ cut : Writer Double, cut.ledger.lastDay = some lastDate →
      ¬ ∃ booked, ((⟨cut.file, cut.ledger, none⟩ : Writer Double).catchUp python.codec lastDate
        lastMarket lastMarket (pyStr "t") (some lastDate)).1 = .ok booked := by
    rintro cut ends ⟨booked, again⟩
    rw [catchUpDays_after_last_date _ _ ⟨cut.file, cut.ledger, none⟩ ends] at again
    cases again
  exact ⟨rfl, (skips none (by simp)).2 rfl, fails _ (skips (some 1) (by simp)).1⟩

end LastDate

/-- Without BTCUSDT candles on the first two paper days. -/
def twoGapsMarket : Market Double :=
  [("BTCUSDT", openSeries "BTCUSDT" twoDaysAfterStart 64000.0 priced_64000),
    ("ETHUSDT", flatSeries "ETHUSDT" [paperStart, dayAfterStart] none 2500.0 (by decide) (by simp)
      priced_2500)]

/-- A catch-up of the first two paper days, which may stop after some appends. -/
def bothDays (appends : Option ℕ) : Except CatchUpFailure (List Date) × Writer Double :=
  (⟨[], .empty, appends⟩ : Writer Double).catchUp python.codec paperStart twoGapsMarket twoGapsMarket
    (pyStr "t") (some dayAfterStart)

/-- It skips both days, and stopped after its first append it has skipped the first. -/
theorem bothDays_skipped : (bothDays none).1.isOk = true ∧
    (bothDays none).2.ledger.lastDay = some dayAfterStart ∧
    (bothDays (some 1)).2.ledger.lastDay = some paperStart := by
  decide +kernel

/-- The one that stopped is resumed. -/
theorem catchUpDays_resumes_two :
    let cut := (bothDays (some 1)).2
    let resumed := (⟨cut.file, cut.ledger, none⟩ : Writer Double).catchUp python.codec paperStart
      twoGapsMarket twoGapsMarket (pyStr "t") (some dayAfterStart)
    (bothDays none).2.ledger.lastDay = some dayAfterStart ∧ cut.ledger.lastDay = some paperStart ∧
      (∃ booked, resumed.1 = .ok booked) ∧ resumed.2.file = (bothDays none).2.file := by
  obtain ⟨returns, isWhole, isCut⟩ := bothDays_skipped
  have settles : ∃ booked, (bothDays none).1 = .ok booked := by
    cases returned : (bothDays none).1 with
    | ok booked => exact ⟨booked, rfl⟩
    | error failure =>
        rw [returned] at returns
        cases returns
  have resumes := (catchUpDays_resumes python.codec paperStart twoGapsMarket twoGapsMarket (pyStr "t")
    (some dayAfterStart) [] .empty 1 rfl settles).2
  exact ⟨isWhole, isCut, resumes fun ends => absurd (isCut.symm.trans ends) (by decide)⟩

end CryptoRadar.Trend
