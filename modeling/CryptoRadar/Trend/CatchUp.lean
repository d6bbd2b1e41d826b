import CryptoRadar.Trend.Gaps

/-!
# Catching up

`domain/trend_paper.py`, its encoders and its catch-up, and the writer of
`adapters/trend_paper_store.py`. A plan lists the due days with what they miss (`planCatchUp`)
and is confirmed by a second market (`confirmPlan`). `applyPlan` computes every day in memory
first (`prepare`), each on the ledger the days before it lead to, and appends the days only
then, one by one (`appendChunks`).

An append changes a world and may fail in it, so that what was written before a failure is
kept. The writer is one such world: the file, the ledger it last verified and the number of
appends it makes before its process stops.
-/

set_option autoImplicit false

namespace CryptoRadar.Trend

open Checked

/-! ## Encoding -/

section Encoding

variable {F : Type} (codec : LedgerCodec F)

/-- `canonical`; the encoder's error is not caught. -/
def canonical (record : Record F) : Except PaperFailure Bytes :=
  require .encoding (codec.dumps (.object record))

/-- The fields that chain a record. -/
def chainKeys : List String := ["schema", "seq", "prev", "sha256"]

/-- The chain fields of a record, without its digest. -/
def chainFields (seq : ℕ) (prev : PyStr) : Record F :=
  [(pyStr "schema", .int ledgerSchema), (pyStr "seq", .int seq), (pyStr "prev", .str prev)]

/-- The line of a body that holds its chain fields, and its hash. -/
def encodeBody (body : Record F) : Except PaperFailure (Bytes × PyStr) := do
  let digest := codec.sha256Hex (← canonical codec body)
  let line ← canonical codec (body ++ [(pyStr "sha256", .str digest)])
  return (line ++ [10], digest)

/-- What `encode_day` has written: the lines, the next `prev` and the next `seq`. -/
structure Encoded where
  lines : Bytes
  prev : PyStr
  seq : ℕ

/-- The line of a record, chained to the lines before it. -/
def encodeRecord (encoded : Encoded) (record : Record F) : Except PaperFailure Encoded := do
  ensure (∀ key ∈ chainKeys, ¬ Record.has record key)
    (.paper .ledgerInvalid "a record may not set chain fields")
  let (line, digest) ← encodeBody codec (record ++ chainFields encoded.seq encoded.prev)
  return ⟨encoded.lines ++ line, digest, encoded.seq + 1⟩

/-- `encode_day`: the lines that append the records to the ledger. -/
def encodeDay (ledger : Ledger F) (records : List (Record F)) : Except PaperFailure Bytes := do
  let encoded ← records.foldlM (encodeRecord codec) ⟨[], ledger.tip, ledger.entries⟩
  return encoded.lines

/-- The fields of a skip. -/
def skipFields (found : DayGap) (ts : PyStr) : Record F :=
  [(pyStr "kind", .str (pyStr "skip")), (pyStr "ts", .str ts),
    (pyStr "date", .str (pyStr found.day.isoformat)),
    (pyStr "reason", .str (pyStr found.reason.text)),
    (pyStr "missing", .array (found.symbols.map .str)),
    (pyStr "gap_day", .str (pyStr found.gapDay.isoformat))]

/-- `encode_skip`: the one chained line that records the day as skipped. -/
def encodeSkip (ledger : Ledger F) (found : DayGap) (ts : PyStr) : Except PaperFailure Bytes := do
  let (line, _) ← encodeBody codec (skipFields found ts ++ chainFields ledger.entries ledger.tip)
  return line

end Encoding

/-! ## Plans -/

section Plan

variable {F : Type} [PyFloat F]

/-- `first_day_to_book`. -/
def firstDayToBook (ledger : Ledger F) (start : Date) : Except PaperFailure Date :=
  match ledger.lastDay with
  | none => .ok start
  | some last => plusDays last 1

/-- `last_bookable_day`: the last day whose open both USDT series show. -/
def lastBookableDay (market : Market F) : Except PaperFailure (Option Date) := do
  let days ← (Asset.all.map Asset.usdtSymbol).mapM fun symbol => do
    let series ← seriesOf market symbol
    return series.lastOpenDay
  return if days.any Option.isNone then none else (days.filterMap id).min?

/-- The due days in order, the ones that cannot be booked and why nothing may be written. -/
structure CatchUpPlan where
  days : List Date
  gaps : Dict Date DayGap
  waiting : Option String
  confirmed : Bool
  fallbacks : List Gap

namespace CatchUpPlan

/-- A plan of these days without gaps. -/
def ofDays (days : List Date) : CatchUpPlan := ⟨days, [], none, false, []⟩

/-- A plan that waits. -/
def wait (days : List Date) (why : String) : CatchUpPlan := ⟨days, [], some why, false, []⟩

/-- Every missing candle the plan relies on: the gaps of skipped days, then the fallbacks. -/
def missing (plan : CatchUpPlan) : List Gap :=
  (plan.gaps.flatMap fun item => item.2.gaps) ++ plan.fallbacks

/-- The earliest missing day of each symbol with a missing candle. -/
def toConfirm (plan : CatchUpPlan) : Dict String Date :=
  plan.missing.foldl (fun since gap =>
    since.assign gap.symbol (min ((since.get? gap.symbol).getD gap.day) gap.day)) []

end CatchUpPlan

/-- The first of the gaps without a later candle of its symbol. -/
def firstUnsettled (market : Market F) : List Gap → Except PaperFailure (Option Gap)
  | [] => .ok none
  | gap :: rest => do
      if ← hasLater market gap.symbol gap.day then firstUnsettled market rest
      else return some gap

/-- What the plan relies on for the day: its gap, and the candles that are missing. -/
def dayNeeds (market : Market F) (day : Date) :
    Except PaperFailure (Option DayGap × List Gap) := do
  match ← dayGap market day with
  | some found => return (some found, found.gaps)
  | none =>
      let fallbacks ← eurFallbacks market day
      return (none, fallbacks)

/-- The plan goes through the due days until one of them has to wait. -/
def planDays (market : Market F) (plan : CatchUpPlan) : List Date → Except PaperFailure CatchUpPlan
  | [] => .ok plan
  | day :: rest => do
      let (found, missing) ← dayNeeds market day
      match ← firstUnsettled market missing with
      | some gap =>
          return .wait plan.days ("no " ++ gap.symbol ++ " candle on " ++ gap.day.isoformat ++
            " yet (none after it either)")
      | none =>
          match found with
          | some found => planDays market { plan with gaps := plan.gaps.assign day found } rest
          | none => planDays market { plan with fallbacks := plan.fallbacks ++ missing } rest

/-- The days from `first` to `last`. -/
def daysUpTo (first last : Date) : Except PaperFailure (List Date) :=
  (List.range (last.ordinal - first.ordinal + 1)).mapM fun (count : ℕ) => plusDays first count

/-- `plan_catch_up`: with `today` every day up to it is due, without it the due days end where
the USDT data end. -/
def planCatchUp (ledger : Ledger F) (market : Market F) (start : Date) (today : Option Date) :
    Except PaperFailure CatchUpPlan := do
  let first ← firstDayToBook ledger start
  let horizon ← lastBookableDay market
  match today.or horizon with
  | none => return .ofDays []
  | some last =>
      if last < first then return .ofDays []
      let days ← daysUpTo first last
      if horizon.all fun horizon => horizon < last then
        return .wait days
          ("the public USDT daily candles do not reach the " ++ last.isoformat ++ " open yet")
      planDays market (.ofDays days) days

/-- Why the second market does not confirm a gap, if it does not. -/
def refusal (second : Market F) (gap : Gap) : Except PaperFailure (Option String) := do
  let unconfirmed := "the absence of " ++ gap.symbol ++ " on " ++ gap.day.isoformat ++
    " was not confirmed by a second request"
  match second.get? gap.symbol with
  | none => return some unconfirmed
  | some series =>
      if series.symbol ≠ gap.symbol then return some unconfirmed
      if ← hasLater second gap.symbol gap.day then
        return if (series.openOn gap.day).isSome then
          some ("two requests disagree on " ++ gap.symbol ++ " " ++ gap.day.isoformat ++
            "; nothing was booked")
        else none
      return some unconfirmed

/-- Why the first gap that the second market does not confirm is refused. -/
def firstRefusal (second : Market F) : List Gap → Except PaperFailure (Option String)
  | [] => .ok none
  | gap :: rest => do
      match ← refusal second gap with
      | some why => return some why
      | none => firstRefusal second rest

/-- `confirm_plan`. -/
def confirmPlan (plan : CatchUpPlan) (second : Market F) : Except PaperFailure CatchUpPlan := do
  match ← firstRefusal second plan.missing with
  | some why => return { plan with waiting := some why }
  | none => return { plan with confirmed := true }

/-- The plan of a catch-up, confirmed where it relies on missing candles and there is a second
market to ask. -/
def confirmedPlan (start : Date) (market : Market F)
    (refetch : Option (Dict String Date → Market F)) (ledger : Ledger F) (today : Option Date) : Except PaperFailure CatchUpPlan := do
  let plan ← planCatchUp ledger market start today
  match refetch with
  | none => return plan
  | some refetch =>
      if plan.waiting = none ∧ plan.missing ≠ [] then confirmPlan plan (refetch plan.toConfirm)
      else return plan

end Plan

/-! ## Settling the days -/

/-- The codes of a `TrendPaperStoreError` while days are appended. -/
inductive StoreErrorCode where
  | changedDuringAppend
  deriving DecidableEq, Repr

/-- Why a catch-up does not return: an error of the paper trader, an error of an append, or the
end of its process. -/
inductive CatchUpFailure where
  | paper (failure : PaperFailure)
  | store (code : StoreErrorCode)
  | stopped
  deriving DecidableEq, Repr

/-- The bytes of a day. -/
structure Chunk where
  day : Date
  data : Bytes
  skips : Bool

section Settle

variable {F : Type} [PyMath F] (codec : LedgerCodec F) (start : Date) (market : Market F)
  (ts : PyStr)

/-- The lines of a day: a skip or the records of its books. -/
def dayLines (gaps : Dict Date DayGap) (ledger : Ledger F) (day : Date) :
    Except PaperFailure Bytes :=
  match gaps.get? day with
  | some found => encodeSkip codec ledger found ts
  | none => do
      let (records, _) ← bookDay market day ledger.states ts start none
      encodeDay codec ledger records

/-- The days computed and verified in memory, each on the ledger the earlier ones lead to. -/
def prepare (gaps : Dict Date DayGap) (pending : Ledger F) :
    List Date → Except PaperFailure (List Chunk)
  | [] => .ok []
  | day :: rest => do
      let data ← dayLines codec start market ts gaps pending day
      let extended ← extendLedger codec start pending data
      let chunks ← prepare gaps extended rest
      return ⟨day, data, (gaps.get? day).isSome⟩ :: chunks

/-- What `apply_plan` raises before it writes. -/
def checkPlan (plan : CatchUpPlan) : Except PaperFailure Unit := do
  if let some why := plan.waiting then throw (.paper .waitingForData why)
  ensure (plan.missing = [] ∨ plan.confirmed)
    (.paper .waitingForData "a missing candle was seen in one response only")

variable {World : Type}

/-- Append the days one by one; each must be the last day of the ledger after it. -/
def appendChunks (append : Bytes → World → Except CatchUpFailure (Ledger F) × World) :
    List Chunk → World → Except CatchUpFailure Unit × World
  | [], world => (.ok (), world)
  | chunk :: rest, world =>
      match append chunk.data world with
      | (.error failure, after) => (.error failure, after)
      | (.ok ledger, after) =>
          if ledger.lastDay = some chunk.day then appendChunks append rest after
          else (.error (.paper (.paper .ledgerInvalid
            (chunk.day.isoformat ++ " was not the last day after the append"))), after)

/-- `apply_plan`: the booked and the skipped days. -/
def applyPlan (append : Bytes → World → Except CatchUpFailure (Ledger F) × World)
    (ledger : Ledger F) (plan : CatchUpPlan) (world : World) :
    Except CatchUpFailure (List Date × List Date) × World :=
  match checkPlan plan >>= fun _ => prepare codec start market ts plan.gaps ledger plan.days with
  | .error failure => (.error (.paper failure), world)
  | .ok chunks =>
      match appendChunks append chunks world with
      | (.error failure, after) => (.error failure, after)
      | (.ok _, after) => (.ok (((chunks.filter fun chunk => !chunk.skips).map Chunk.day),
          (chunks.filter Chunk.skips).map Chunk.day), after)

/-- `catch_up_days`: plan, confirm and settle every due day. -/
def catchUpDays (append : Bytes → World → Except CatchUpFailure (Ledger F) × World)
    (refetch : Option (Dict String Date → Market F)) (ledger : Ledger F) (today : Option Date)
    (world : World) : Except CatchUpFailure (List Date) × World :=
  match confirmedPlan start market refetch ledger today with
  | .error failure => (.error (.paper failure), world)
  | .ok plan =>
      match applyPlan codec start market ts append ledger plan world with
      | (.error failure, after) => (.error failure, after)
      | (.ok settled, after) => (.ok settled.1, after)

end Settle

/-! ## The writer -/

section Writer

variable {F : Type} [PyFloat F] (codec : LedgerCodec F) (start : Date)

/-- The writer of a ledger file: the file, the ledger it last verified and, where its process is
to stop, the number of appends it still makes. -/
structure Writer (F : Type) where
  file : Bytes
  ledger : Ledger F
  left : Option ℕ

/-- `LedgerWriter.append`: the lines are verified, the file is the one that was verified before,
then they are written. -/
def Writer.append (data : Bytes) (writer : Writer F) :
    Except CatchUpFailure (Ledger F) × Writer F :=
  if writer.left = some 0 then (.error .stopped, writer)
  else
    match extendLedger codec start writer.ledger data with
    | .error failure => (.error (.paper failure), writer)
    | .ok extended =>
        if writer.file.length = writer.ledger.size then
          (.ok extended, ⟨writer.file ++ data, extended, writer.left.map (· - 1)⟩)
        else (.error (.store .changedDuringAppend), writer)

end Writer

end CryptoRadar.Trend
