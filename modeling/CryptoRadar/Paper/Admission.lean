import CryptoRadar.Lib.Search
import CryptoRadar.Paper.Sound
import CryptoRadar.Pilot.Admission

/-!
# The wallet under concurrent writers

Any number of writers open and close plays over tables that satisfy the schema. A batch of
candidates decides under the write lock, with the balance and the open plays it read there and
the plays it opened itself, so after a batch that opened something the open plays are within its
limit and their stakes within the balance (`openCandidates_safe`). A writer that closes plays
decides on exits before it has the lock; what it still knows to be true under the lock is that
its plays are rows of the table, since rows are never changed (`Inv.found`).

`wallet_safe` is the result for every interleaving. Plays that the tables held at the start may
have been opened under another rule: assets are apart among the plays opened since.
-/

set_option autoImplicit false

namespace CryptoRadar.Paper

open Checked Decimal
open Pilot (Observation)
open Risk (DirectionValue)

/-! ## Admission -/

theorem availableCash_eq_ok {currentBalance cash : Decimal} {positions : List OpenPosition}
    {plays : List PlayRow} {total : ℤ} (matching : Matches positions plays)
    (isBalance : IsCents total currentBalance)
    (small : ∀ count ∈ plays.map PlayRow.stakeCents, |count| ≤ (2 ^ 63 : ℕ))
    (few : plays.length ≤ 2 ^ 63) (bounded : |total| ≤ 2 ^ 127)
    (isCash : availableCash currentBalance positions = .ok cash) :
    IsCents (total - (plays.map PlayRow.stakeCents).sum) cash := by
  have stakes : List.Forall₂ (fun stake count => IsCents count stake)
      (positions.map OpenPosition.stake) (plays.map PlayRow.stakeCents) := by
    rw [List.forall₂_map_left_iff, List.forall₂_map_right_iff]
    exact matching.imp fun _ _ same => same.2
  have many : ((plays.map PlayRow.stakeCents).length : ℤ) * (2 ^ 63 : ℕ) ≤ 2 ^ 126 := by
    rw [List.length_map]
    have : (plays.length : ℤ) ≤ 2 ^ 63 := by exact_mod_cast few
    push_cast
    nlinarith
  have room : (2 : ℤ) ^ 127 + 2 ^ 126 < 10 ^ paperContext.precision := by decide
  obtain ⟨tied, folded, isTied⟩ := IsUnits.sum paperContext_holdsCents stakes
    (isUnits_zero centExponent) small (by rw [abs_zero]; linarith)
  rw [zero_add] at isTied
  have tiedSmall := abs_sum_le small
  have triangle := abs_sub total (plays.map PlayRow.stakeCents).sum
  obtain ⟨rest, subtracted, isRest⟩ := isBalance.sub isTied paperContext_holdsCents (by linarith)
  obtain ⟨other, isOther, isCash⟩ := bind_eq_ok.mp isCash
  cases folded.symm.trans isOther
  cases subtracted.symm.trans isCash
  exact isRest

/-- What an admitted play may rely on. -/
structure Admits (plays : List PlayRow) (asset : String) (maxOpen total stake : ℤ) : Prop where
  apart : ∀ play ∈ plays, play.asset ≠ asset
  few : (plays.length : ℤ) < maxOpen
  covered : (plays.map PlayRow.stakeCents).sum + stake ≤ total

theorem admitPlay_eq_none {direction : DirectionValue} {asset : String}
    {positions : List OpenPosition} {plays : List PlayRow} {currentBalance stake : Decimal}
    {maxOpen total count : ℤ} (matching : Matches positions plays)
    (isBalance : IsCents total currentBalance) (isStake : IsCents count stake)
    (small : ∀ count ∈ plays.map PlayRow.stakeCents, |count| ≤ (2 ^ 63 : ℕ))
    (few : plays.length ≤ 2 ^ 63) (bounded : |total| ≤ 2 ^ 127)
    (admitted : admitPlay direction asset positions currentBalance stake maxOpen = .ok none) :
    Admits plays asset maxOpen total count := by
  obtain ⟨_, _, admitted⟩ := bind_eq_ok.mp admitted
  obtain ⟨_, _, admitted⟩ := bind_eq_ok.mp admitted
  split at admitted
  next => cases admitted
  next =>
    split at admitted
    next => cases admitted
    next noSame =>
      split at admitted
      next => cases admitted
      next room =>
        obtain ⟨cash, isCash, admitted⟩ := bind_eq_ok.mp admitted
        have isUnits := availableCash_eq_ok matching isBalance small few bounded
          (mapError_eq_ok.mp isCash)
        split at admitted
        next => cases admitted
        next covered =>
          have length := matching.length_eq
          have enough := (isUnits.lt_iff isStake).not.mp covered
          refine ⟨fun play member same => noSame ?_, by omega, by omega⟩
          obtain ⟨position, isPosition, sameAsset, _⟩ := mem_of_forall₂ matching play member
          exact List.any_eq_true.mpr ⟨position, isPosition, by simp [sameAsset, same]⟩

/-! ## Opening -/

theorem playRow_eq_ok {playId : ℕ} {item : CheckedCandidate} {entry : Entry} {terms : PlayTerms}
    {openedAt : Moment} {row : PlayRow} (made : playRow playId item entry terms openedAt = .ok row) :
    row.playId = playId ∧ row.asset = item.candidate.asset ∧
      toCents terms.stake = .ok row.stakeCents := by
  obtain ⟨due, _, made⟩ := bind_eq_ok.mp made
  obtain ⟨stakeCents, isStake, made⟩ := bind_eq_ok.mp made
  cases made
  exact ⟨rfl, rfl, isStake⟩

/-- A turn skips its candidate or opens a play that was admitted. -/
theorem openOne_eq_ok {runtime : Runtime} {call : OpenCall} {currentBalance : Decimal}
    {progress after : OpenProgress} {item : CheckedCandidate}
    (turned : openOne runtime call currentBalance progress item = .ok after) :
    (∃ skip, after = progress.skip skip) ∨
    ∃ entry row, admitPlay (.text entry.direction.text) item.candidate.asset progress.positions
        currentBalance call.terms.stake call.terms.maxOpen = .ok none ∧
      playRow (progress.db.plays.length + 1) item entry call.terms call.now = .ok row ∧
      progress.db.playFits row item.whyReadable ∧
      after = { progress with
        db := progress.db.withPlay row
        positions := progress.positions ++ [⟨item.candidate.asset, call.terms.stake⟩]
        recorded := progress.recorded ++ [item.candidate.eventId]
        openedIds := progress.openedIds ++ [row.playId] } := by
  simp only [openOne] at turned
  split at turned
  next =>
    cases turned
    exact .inl ⟨_, rfl⟩
  next =>
    obtain ⟨found, _, turned⟩ := bind_eq_ok.mp turned
    cases found with
    | error skip =>
        cases turned
        exact .inl ⟨_, rfl⟩
    | ok entry =>
        obtain ⟨refusal, decided, turned⟩ := bind_eq_ok.mp turned
        cases refusal with
        | some reason =>
            cases turned
            exact .inl ⟨_, rfl⟩
        | none =>
            obtain ⟨row, isRow, turned⟩ := bind_eq_ok.mp turned
            obtain ⟨db, inserted, turned⟩ := bind_eq_ok.mp turned
            obtain ⟨rfl, fits⟩ := PaperDb.insertPlay_eq_ok inserted
            cases turned
            exact .inr ⟨entry, row, mapError_eq_ok.mp decided, isRow, fits, rfl⟩

/-- The open plays that were opened since the tables were `initial`. -/
def openedSince (initial db : PaperDb) : List PlayRow :=
  db.openPlays.filter fun play => initial.plays.length < play.playId

/-- The open plays are within the limit of a batch, and their stakes within the balance: the
start balance and all recorded nets. -/
structure WithinWallet (maxOpen : ℤ) (db : PaperDb) : Prop where
  few : (db.openPlays.length : ℤ) ≤ maxOpen
  covered : ∃ wallet, db.wallet = some wallet ∧ db.openStakes ≤ db.balanceCents wallet

/-- The plays were extended since `initial`, and no asset was opened twice since. -/
structure Apart (initial db : PaperDb) : Prop where
  sound : db.Sound
  plays : initial.plays <+: db.plays
  apart : ((openedSince initial db).map PlayRow.asset).Nodup

theorem Apart.withPlay {initial db : PaperDb} {row : PlayRow} {whyReadable : Bool}
    (apart : Apart initial db) (place : row.playId = db.plays.length + 1)
    (fits : db.playFits row whyReadable) (stake : IsSqlInteger row.stakeCents)
    (newAsset : ∀ play ∈ db.openPlays, play.asset ≠ row.asset) : Apart initial (db.withPlay row) := by
  refine ⟨apart.sound.withPlay place fits stake, apart.plays.trans (List.prefix_append _ _), ?_⟩
  have later : initial.plays.length < row.playId := by
    have longer := apart.plays.length_le
    omega
  have more : openedSince initial (db.withPlay row) = openedSince initial db ++ [row] := by
    unfold openedSince
    rw [apart.sound.openPlays_withPlay place, List.filter_append]
    simp [later]
  rw [more, List.map_append, List.nodup_append]
  refine ⟨apart.apart, List.nodup_singleton _, fun asset old other new same => ?_⟩
  obtain ⟨play, inOpened, rfl⟩ := List.mem_map.mp old
  rw [List.map_singleton, List.mem_singleton] at new
  exact newAsset play (List.mem_of_mem_filter inOpened) (same.trans new)

/-- What holds at every turn of the loop of `open_candidates` that began with the tables
`before`. -/
structure Opening (initial before : PaperDb) (maxOpen : ℤ) (progress : OpenProgress) : Prop where
  apart : Apart initial progress.db
  wallet : progress.db.wallet = before.wallet
  closes : progress.db.closes = before.closes
  plays : before.plays <+: progress.db.plays
  positions : Matches progress.positions progress.db.openPlays
  within : progress.openedIds ≠ [] → WithinWallet maxOpen progress.db

theorem Opening.skip {initial before : PaperDb} {maxOpen : ℤ} {progress : OpenProgress}
    (opening : Opening initial before maxOpen progress) (skip : Skip) :
    Opening initial before maxOpen (progress.skip skip) :=
  ⟨opening.apart, opening.wallet, opening.closes, opening.plays, opening.positions, opening.within⟩

theorem PaperDb.Sound.balance_bounded {db : PaperDb} (sound : db.Sound) {wallet : WalletRow}
    (recorded : db.wallet = some wallet) : |db.balanceCents wallet| ≤ 2 ^ 127 := by
  obtain ⟨few, small⟩ := sound.netCents_few
  have start := (sound.start wallet recorded).few
  have sum := abs_sum_le small
  have count : ((db.closes.map CloseRow.netCents).length : ℤ) ≤ 2 ^ 63 := by exact_mod_cast few
  have triangle := abs_add_le wallet.startBalanceCents (db.closes.map CloseRow.netCents).sum
  unfold PaperDb.balanceCents
  push_cast at start sum
  nlinarith

theorem Opening.turn {runtime : Runtime} {call : OpenCall} {currentBalance : Decimal}
    {initial before : PaperDb} {wallet : WalletRow} {count : ℤ} {progress after : OpenProgress}
    {item : CheckedCandidate} (recorded : before.wallet = some wallet)
    (isBalance : IsCents (before.balanceCents wallet) currentBalance)
    (isStake : IsCents count call.terms.stake) (stakeCents : toCents call.terms.stake = .ok count)
    (opening : Opening initial before call.terms.maxOpen progress)
    (turned : openOne runtime call currentBalance progress item = .ok after) :
    Opening initial before call.terms.maxOpen after := by
  rcases openOne_eq_ok turned with ⟨skip, rfl⟩ | ⟨entry, row, admitted, isRow, fits, rfl⟩
  · exact opening.skip skip
  · obtain ⟨place, asset, stake⟩ := playRow_eq_ok isRow
    cases stakeCents.symm.trans stake
    have sound := opening.apart.sound
    have recordedNow := opening.wallet.trans recorded
    have sameBalance : progress.db.balanceCents wallet = before.balanceCents wallet := by
      unfold PaperDb.balanceCents
      rw [opening.closes]
    obtain ⟨few, small⟩ := sound.openStakes_few
    rw [List.length_map] at few
    have admits := admitPlay_eq_none opening.positions isBalance isStake small few
      (sameBalance ▸ sound.balance_bounded recordedNow) admitted
    have openPlays := sound.openPlays_withPlay place
    refine ⟨opening.apart.withPlay place fits (toCents_isSqlInteger stake) ?_, opening.wallet,
      opening.closes, opening.plays.trans (List.prefix_append _ _), ?_, fun _ => ⟨?_, ?_⟩⟩
    · rw [asset]
      exact admits.apart
    · change Matches _ (progress.db.withPlay row).openPlays
      rw [openPlays]
      exact List.rel_append opening.positions (.cons ⟨asset.symm, isStake⟩ .nil)
    · change ((progress.db.withPlay row).openPlays.length : ℤ) ≤ _
      rw [openPlays, List.length_append, List.length_singleton]
      have room := admits.few
      push_cast
      omega
    · refine ⟨wallet, recordedNow, ?_⟩
      change (progress.db.withPlay row).openStakes ≤ progress.db.balanceCents wallet
      unfold PaperDb.openStakes
      rw [openPlays, List.map_append, List.sum_append, List.map_singleton, List.sum_singleton,
        sameBalance]
      exact admits.covered

/-- A batch that opened something leaves the open plays within its limit and the balance. -/
theorem openCandidates_safe {runtime : Runtime} {call : OpenCall} {initial db after : PaperDb}
    {report : OpenReport} (apart : Apart initial db)
    (opened : openCandidates runtime call db = .ok (report, after)) :
    Apart initial after ∧ after.wallet = db.wallet ∧ after.closes = db.closes ∧
      db.plays <+: after.plays ∧
      (report.opened ≠ [] → WithinWallet call.terms.maxOpen after) := by
  obtain ⟨_, terms, opened⟩ := bind_eq_ok.mp opened
  obtain ⟨_, whole, _⟩ := bind_eq_ok.mp terms
  obtain ⟨count, _, isStake, stakeCents⟩ := wholeCents_isCents whole
  obtain ⟨checked, _, opened⟩ := bind_eq_ok.mp opened
  split at opened
  next =>
    cases opened
    exact ⟨apart, rfl, rfl, List.prefix_rfl, fun some => absurd rfl some⟩
  next =>
    obtain ⟨progress, looped, opened⟩ := bind_eq_ok.mp opened
    cases opened
    obtain ⟨⟨currentBalance, positions⟩, read, looped⟩ := bind_eq_ok.mp looped
    obtain ⟨wallet, recorded, isBalance, matching⟩ := apart.sound.readWallet_eq_ok read
    have first : Opening initial db call.terms.maxOpen
        ⟨db, positions, db.plays.map PlayRow.eventId, [], []⟩ :=
      ⟨apart, rfl, rfl, List.prefix_rfl, matching, fun some => absurd rfl some⟩
    have last := foldlM_invariant (Opening initial db call.terms.maxOpen)
      (fun _ _ _ opening turned => opening.turn recorded isBalance isStake stakeCents turned)
      checked first looped
    refine ⟨last.apart, last.wallet, last.closes, last.plays, fun some => last.within ?_⟩
    intro none
    refine some (List.filter_eq_nil_iff.mpr fun play _ member => ?_)
    rw [none] at member
    simp at member

/-! ## Closing -/

/-- What an observation decides about a play with these levels. -/
def exitOn (play : PlayRow) (stop target : Decimal) (observation : Observation) :
    Except StoreRaise (Option Exit) := do
  let decision ← domain (exitDecision play.direction stop target play.dueAt observation.observedAt
    observation.quote)
  return decision.map fun reason => ⟨play, observation, some reason⟩

theorem firstExit_eq_findSomeM? (play : PlayRow) (stop target : Decimal)
    (observations : List Observation) :
    firstExit play stop target observations = observations.findSomeM? (exitOn play stop target) := by
  induction observations with
  | nil => rfl
  | cons observation rest hyp =>
      rw [firstExit, List.findSomeM?_cons, exitOn, bind_assoc]
      congr 1
      funext decision
      cases decision with
      | some reason => rfl
      | none => exact hyp

theorem firstExit_eq_some {play : PlayRow} {stop target : Decimal} {found : Exit}
    {observations : List Observation}
    (closes : firstExit play stop target observations = .ok (some found)) :
    found.play = play ∧ found.observation ∈ observations := by
  rw [firstExit_eq_findSomeM?] at closes
  obtain ⟨observation, member, decided⟩ := Search.findSomeM?_eq_some closes
  obtain ⟨decision, _, decided⟩ := bind_eq_ok.mp decided
  obtain ⟨reason, _, rfl⟩ := Option.map_eq_some_iff.mp (Except.ok.inj decided)
  exact ⟨rfl, member⟩

theorem findExit_play {runtime : Runtime} {quotes : Pilot.Quotes} {play : PlayRow} {found : Exit}
    (exit : findExit runtime quotes play = .ok (some found)) : found.play = play := by
  unfold findExit at exit
  split at exit
  next =>
    obtain ⟨spot, _, exit⟩ := bind_eq_ok.mp exit
    exact (firstExit_eq_some exit).1
  next =>
    split at exit
    next => cases exit
    next =>
      obtain ⟨spot, _, exit⟩ := bind_eq_ok.mp exit
      obtain ⟨observation, _, rfl⟩ := Option.map_eq_some_iff.mp (Except.ok.inj exit)
      rfl

/-- A call asks for a play unless it names others. -/
def CloseCall.Wants (call : CloseCall) (play : PlayRow) : Prop :=
  ∀ ids ∈ call.playIds, (play.playId : ℤ) ∈ ids

/-- The first phase collects the exits of the plays that a call asks for. -/
theorem findOne_collects (runtime : Runtime) (call : CloseCall) :
    Search.Collects (findExit runtime call.quotes) call.Wants ClosePlan.exits
      (findOne runtime call) := by
  have isTurn : findOne runtime call = Search.collect
      (fun play => call.playIds.any fun ids => (play.playId : ℤ) ∉ ids)
      (findExit runtime call.quotes) (fun plan exit => { plan with exits := plan.exits ++ [exit] })
      fun plan play => if play.dueAt ≤ call.quotes.now then
        { plan with pending := plan.pending ++ [play.playId] } else plan := by
    funext plan play
    unfold findOne Search.collect
    congr 2
    funext exit
    cases exit <;> rfl
  rw [isTurn]
  refine Search.collect_collects (fun play wanted => ?_) (fun _ _ => rfl) fun plan play => ?_
  · rw [Option.any_eq_false]
    exact fun ids given => decide_eq_false (not_not_intro (wanted ids given))
  · split <;> rfl

/-- The first phase decides about open plays. -/
theorem findExits_sound {runtime : Runtime} {call : CloseCall} {db : PaperDb} {plan : ClosePlan}
    (phase : findExits runtime call db = .ok plan) : ∀ exit ∈ plan.exits,
      exit.play ∈ db.openPlays ∧ findExit runtime call.quotes exit.play = .ok (some exit) := by
  obtain ⟨_, _, phase⟩ := bind_eq_ok.mp phase
  intro exit member
  obtain ⟨play, isOpen, isExit⟩ := (findOne_collects runtime call).sound rfl phase exit member
  rw [findExit_play isExit]
  exact ⟨isOpen, isExit⟩

/-- The close holds the cents of the result of its own play: from the recorded entry, stake and
fee of the play to the quote that the close records. -/
structure ComputedFrom (play : PlayRow) (close : CloseRow) : Prop where
  own : close.playId = play.playId
  settled : ∃ entry exit stake result, entryQuote play = .ok entry ∧
    fromCents play.stakeCents = .ok stake ∧
    settle play.direction stake play.feeBps entry exit = .ok result ∧
    close.exitBid = exit.bid.throughText ∧ close.exitAsk = exit.ask.throughText ∧
    toCents result.grossMid = .ok close.grossMidCents ∧
    toCents result.spreadCost = .ok close.spreadCostCents ∧
    toCents result.fees = .ok close.feesCents ∧ toCents result.net = .ok close.netCents ∧
    close.outcome = result.outcome

/-- The row of a close is what the observation of the exit and the play make it. -/
def ClosedOn (found : Exit) (exitId : ℤ) (row : CloseRow) : Prop :=
  ∃ now entry stake result closeId, entryQuote found.play = .ok entry ∧
    fromCents found.play.stakeCents = .ok stake ∧
    settle found.play.direction stake found.play.feeBps entry found.observation.quote = .ok result ∧
    closeRow found now result exitId closeId = .ok row

theorem closeRow_closeId {found : Exit} {now : Moment} {result : PlayResult} {exitId : ℤ}
    {closeId : ℕ} {row : CloseRow} (made : closeRow found now result exitId closeId = .ok row) :
    row.closeId = closeId := by
  revert row
  unfold closeRow
  iterate 5 (apply forall_of_bind; intro _)
  rintro _ ⟨⟩
  rfl

theorem ClosedOn.computed {found : Exit} {exitId : ℤ} {row : CloseRow}
    (closed : ClosedOn found exitId row) : ComputedFrom found.play row := by
  obtain ⟨now, entry, stake, result, closeId, isEntry, isStake, settled, made⟩ := closed
  obtain ⟨snapshotId, _, made⟩ := bind_eq_ok.mp made
  obtain ⟨grossMid, isGross, made⟩ := bind_eq_ok.mp made
  obtain ⟨spreadCost, isSpread, made⟩ := bind_eq_ok.mp made
  obtain ⟨fees, areFees, made⟩ := bind_eq_ok.mp made
  obtain ⟨net, isNet, made⟩ := bind_eq_ok.mp made
  cases made
  exact ⟨rfl, entry, found.observation.quote, stake, result, isEntry, isStake, settled,
    rfl, rfl, isGross, isSpread, areFees, isNet, rfl⟩

/-- An observation from outside is recorded, which changes no other table. -/
theorem recordExitQuote_eq_ok {found : Exit} {closedAt : Moment} {db after : PaperDb} {exitId : ℤ}
    (recorded : recordExitQuote found closedAt db = .ok (exitId, after)) :
    (∃ rows, after = { db with exitQuotes := rows }) ∧
      (found.observation.extra = none → exitId = found.observation.ident) := by
  unfold recordExitQuote at recorded
  split at recorded
  next outside =>
    obtain ⟨quoted, inserted, recorded⟩ := bind_eq_ok.mp recorded
    cases recorded
    exact ⟨⟨_, PaperDb.insertExitQuote_eq_ok inserted⟩, fun none => by cases none.symm.trans outside⟩
  next =>
    cases recorded
    exact ⟨⟨db.exitQuotes, rfl⟩, fun _ => rfl⟩

/-- What a turn of the second phase writes: one close of the play. -/
structure Writes (found : Exit) (before : PaperDb) (row : CloseRow) (after : PaperDb) : Prop where
  place : row.closeId = before.closes.length + 1
  fits : before.closeFits row
  closed : ∃ exitId, ClosedOn found exitId row ∧
    (found.observation.extra = none → exitId = found.observation.ident)
  tables : ∃ rows, after = ({ before with exitQuotes := rows } : PaperDb).withClose row

/-- A turn of the second phase finds its play closed and writes nothing, or writes its close. -/
theorem writeClose_cases {now : Moment} {progress after : PaperDb × List ℕ} {found : Exit}
    (turned : writeClose now progress found = .ok after) :
    (after = progress ∧ progress.1.isClosed found.play.playId = true) ∨
      ∃ row, Writes found progress.1 row after.1 := by
  obtain ⟨db, closedIds⟩ := progress
  simp only [writeClose] at turned
  split at turned
  next closed =>
    cases turned
    exact .inl ⟨rfl, closed⟩
  next =>
    obtain ⟨entry, isEntry, turned⟩ := bind_eq_ok.mp turned
    obtain ⟨stake, isStake, turned⟩ := bind_eq_ok.mp turned
    obtain ⟨result, settled, turned⟩ := bind_eq_ok.mp turned
    obtain ⟨⟨exitId, quoted⟩, recorded, turned⟩ := bind_eq_ok.mp turned
    obtain ⟨⟨rows, rfl⟩, snapshot⟩ := recordExitQuote_eq_ok recorded
    obtain ⟨row, isRow, turned⟩ := bind_eq_ok.mp turned
    obtain ⟨closed, inserted, turned⟩ := bind_eq_ok.mp turned
    obtain ⟨rfl, fits⟩ := PaperDb.insertClose_eq_ok inserted
    cases turned
    exact .inr ⟨row, closeRow_closeId isRow, fits, ⟨exitId, ⟨now, entry, stake, result, _, isEntry,
      isStake, mapError_eq_ok.mp settled, isRow⟩, snapshot⟩, rows, rfl⟩

/-! ## Every interleaving -/

/-- The closes written since `initial` were computed from their own plays. -/
def Computed (initial db : PaperDb) : Prop :=
  ∀ close ∈ db.closes, close ∈ initial.closes ∨ ∃ play ∈ db.plays, ComputedFrom play close

/-- What holds of the tables and of what the writers found. -/
structure Inv (initial : PaperDb) (system : System) : Prop where
  apart : Apart initial system.db
  computed : Computed initial system.db
  found : ∀ writer, ∀ plan ∈ system.found writer, ∀ exit ∈ plan.exits, exit.play ∈ system.db.plays

theorem Inv.start {initial : PaperDb} (sound : initial.Sound) :
    Inv initial ⟨initial, fun _ => none⟩ := by
  refine ⟨⟨sound, List.prefix_rfl, ?_⟩, fun close member => .inl member, fun _ _ none => by cases none⟩
  have nothing : openedSince initial initial = [] := by
    refine List.filter_eq_nil_iff.mpr fun play isOpen later => ?_
    have below := sound.playId_le (List.mem_of_mem_filter isOpen)
    have above := of_decide_eq_true later
    omega
  rw [nothing]
  exact List.nodup_nil

theorem Apart.withClose {initial db : PaperDb} {row : CloseRow} (apart : Apart initial db)
    (place : row.closeId = db.closes.length + 1) (fits : db.closeFits row)
    (net : IsSqlInteger row.netCents) : Apart initial (db.withClose row) :=
  ⟨apart.sound.withClose place fits net, apart.plays,
    apart.apart.sublist (((db.openPlays_withClose row).filter _).map _)⟩

/-- Each turn of the second phase keeps the tables as they should be. -/
theorem closePlays_safe {initial db after : PaperDb} {plan : ClosePlan} {report : SettleReport}
    (apart : Apart initial db) (computed : Computed initial db)
    (inPlays : ∀ exit ∈ plan.exits, exit.play ∈ db.plays)
    (closed : closePlays plan db = .ok (report, after)) :
    after.plays = db.plays ∧ Apart initial after ∧ Computed initial after := by
  obtain ⟨⟨last, closedIds⟩, looped, closed⟩ := bind_eq_ok.mp closed
  cases closed
  refine foldlM_invariant_of_mem (fun progress : PaperDb × List ℕ => progress.1.plays = db.plays ∧
    Apart initial progress.1 ∧ Computed initial progress.1) plan.exits ?_ ⟨rfl, apart, computed⟩
    looped
  rintro exit member progress next ⟨plays, apart, computed⟩ turned
  rcases writeClose_cases turned with ⟨rfl, _⟩ | ⟨row, writes⟩
  · exact ⟨plays, apart, computed⟩
  · obtain ⟨exitId, closed, _⟩ := writes.closed
    obtain ⟨rows, isNext⟩ := writes.tables
    rw [isNext]
    have own := closed.computed
    obtain ⟨_, _, _, result, _, _, _, _, _, _, _, _, net, _⟩ := own.settled
    have quoted : Apart initial { progress.1 with exitQuotes := rows } :=
      ⟨apart.sound.withExitQuotes rows, apart.plays, apart.apart⟩
    refine ⟨plays, quoted.withClose writes.place writes.fits (toCents_isSqlInteger net), ?_⟩
    intro close inCloses
    rcases List.mem_append.mp inCloses with old | new
    · exact computed close old
    · rw [List.mem_singleton.mp new]
      refine .inr ⟨exit.play, ?_, own⟩
      change exit.play ∈ progress.1.plays
      rw [plays]
      exact inPlays exit member

theorem ensureWallet_eq_ok {startBalance : Decimal} {currency : String} {now : Moment}
    {db after : PaperDb} {row : WalletRow}
    (ensured : ensureWallet startBalance currency now db = .ok (row, after)) :
    ∃ wallet, after = { db with wallet := some wallet } ∧
      (db.wallet = some wallet ∨ IsSqlInteger wallet.startBalanceCents) := by
  obtain ⟨_, _, ensured⟩ := bind_eq_ok.mp ensured
  obtain ⟨_, _, ensured⟩ := bind_eq_ok.mp ensured
  cases recorded : db.wallet with
  | some existing =>
      rw [recorded] at ensured
      cases ensured
      exact ⟨row, by rw [← recorded], .inl rfl⟩
  | none =>
      rw [recorded] at ensured
      obtain ⟨startCents, counted, ensured⟩ := bind_eq_ok.mp ensured
      obtain ⟨_, _, ensured⟩ := bind_eq_ok.mp ensured
      cases ensured
      exact ⟨_, rfl, .inr (toCents_isSqlInteger counted)⟩

theorem Inv.keeps (runtime : Runtime) {initial : PaperDb} (system : System) (operation : Operation)
    (answer : Answer) (after : System) (inv : Inv initial system)
    (committed : attempt runtime system operation = .ok (answer, after)) : Inv initial after := by
  cases operation with
  | ensureWallet startBalance currency now =>
      obtain ⟨⟨row, db⟩, ensured, committed⟩ := bind_eq_ok.mp committed
      cases committed
      obtain ⟨wallet, rfl, recorded⟩ := ensureWallet_eq_ok ensured
      have sound := inv.apart.sound
      refine ⟨⟨⟨sound.numbered, sound.events, sound.once, sound.ofPlay, sound.playRows,
        sound.closeRows, sound.stakes, sound.nets, ?_⟩, inv.apart.plays, inv.apart.apart⟩,
        inv.computed, inv.found⟩
      intro other isOther
      cases isOther
      rcases recorded with old | new
      · exact sound.start _ old
      · exact new
  | openCandidates call =>
      obtain ⟨⟨report, db⟩, opened, committed⟩ := bind_eq_ok.mp committed
      cases committed
      obtain ⟨apart, _, closes, plays, _⟩ := openCandidates_safe inv.apart opened
      refine ⟨apart, ?_, fun writer plan given exit member =>
        plays.subset (inv.found writer plan given exit member)⟩
      intro close member
      change close ∈ db.closes at member
      rw [closes] at member
      rcases inv.computed close member with old | ⟨play, inPlays, own⟩
      · exact .inl old
      · exact .inr ⟨play, plays.subset inPlays, own⟩
  | findExits writer call =>
      obtain ⟨plan, found, committed⟩ := bind_eq_ok.mp committed
      cases committed
      refine ⟨inv.apart, inv.computed, fun other given isGiven => ?_⟩
      by_cases same : other = writer
      · subst same
        rw [show System.found _ other = some plan from Function.update_self ..] at isGiven
        cases isGiven
        exact fun exit member => List.mem_of_mem_filter (findExits_sound found exit member).1
      · rw [show System.found _ other = system.found other from
          Function.update_of_ne same ..] at isGiven
        exact inv.found other given isGiven
  | closePlays writer =>
      simp only [attempt] at committed
      split at committed
      next =>
        cases committed
        exact inv
      next plan isPlan =>
        obtain ⟨⟨report, db⟩, closed, committed⟩ := bind_eq_ok.mp committed
        cases committed
        obtain ⟨plays, apart, computed⟩ :=
          closePlays_safe inv.apart inv.computed (inv.found writer plan isPlan) closed
        refine ⟨apart, computed, fun other given isGiven => ?_⟩
        change ∀ exit ∈ given.exits, exit.play ∈ db.plays
        rw [plays]
        by_cases same : other = writer
        · subst same
          rw [show System.found _ other = none from Function.update_self ..] at isGiven
          cases isGiven
        · rw [show System.found _ other = system.found other from
            Function.update_of_ne same ..] at isGiven
          exact inv.found other given isGiven

/-- For every order of the calls of any number of writers, on tables that satisfy the schema.
After a batch that opened plays, the assets of the open plays that were opened since the start
are apart, no more than `max_open` plays are open, and their stakes are within the balance. An
event has one play, a play one close, and a close since the start was computed from its own
play. -/
theorem wallet_safe (runtime : Runtime) (initial : PaperDb) (sound : initial.Sound)
    (operations : List Operation) :
    (∀ entry ∈ (paperGame runtime).trace ⟨initial, fun _ => none⟩ operations, ∀ call report,
      entry.input = .openCandidates call → entry.answer = .ok (.opened report) →
      report.opened ≠ [] →
        ((openedSince initial entry.after.db).map PlayRow.asset).Nodup ∧
        WithinWallet call.terms.maxOpen entry.after.db) ∧
    let last := ((paperGame runtime).run ⟨initial, fun _ => none⟩ operations).db
    (last.plays.map PlayRow.eventId).Nodup ∧ (last.closes.map CloseRow.playId).Nodup ∧
      Computed initial last := by
  have keeps := Runs.Machine.transactional_keeps (fun _ => True) (Inv initial)
    fun system operation answer after _ inv committed =>
      Inv.keeps runtime system operation answer after inv committed
  refine ⟨fun entry member call report isCall isAnswer opened => ?_, ?_⟩
  · obtain ⟨before, after⟩ := (paperGame runtime).trace_invariant (fun _ => True) (Inv initial) keeps
      (fun _ _ => trivial) (Inv.start sound) member
    obtain ⟨earlier, later, _, isEntry⟩ := (paperGame runtime).exists_split_of_mem_trace member
    refine ⟨after.apart.apart, ?_⟩
    have committed : attempt runtime entry.before entry.input =
        .ok (.opened report, entry.after) := by
      rw [isEntry] at isAnswer ⊢
      exact Runs.Machine.transactional_answer_ok_iff.mp isAnswer
    rw [isCall] at committed
    obtain ⟨⟨given, db⟩, done, committed⟩ := bind_eq_ok.mp committed
    obtain ⟨isReport, isAfter⟩ := Prod.mk.inj (Except.ok.inj committed)
    cases isReport
    rw [← isAfter]
    exact (openCandidates_safe before.apart done).2.2.2.2 opened
  · have inv := (paperGame runtime).run_invariant (fun _ => True) (Inv initial) keeps operations
      ⟨initial, fun _ => none⟩ (fun _ _ => trivial) (Inv.start sound)
    exact ⟨inv.apart.sound.events, inv.apart.sound.once, inv.computed⟩

/-! ## A run that opens a play -/

def sampleCandidate (eventId : String) : PaperCandidate where
  eventId := eventId
  runId := "run"
  asset := "BTC"
  pair := "BTCUSD"
  quote := "USD"
  direction := .text "LONG"
  bid := .decimal (some ⟨false, 1000, -1⟩)
  ask := .decimal (some ⟨false, 1001, -1⟩)
  snapshotTs := "1970-01-12T13:46:40+00:00"
  status := .missing
  why := .facts "\x7b\x7d" true
  atr := .decimal (some (.ofNat 1))
  atrPair := .text "BTCUSD"

/-- Ten seconds after the candidates. -/
def sampleLater : Moment := ⟨1000010000000, by decide⟩

/-- A quote below the stop, five seconds after the candidates. -/
def sampleDrop : CloseCall :=
  ⟨⟨[], [⟨"BTCUSD", .decimal (some (.ofNat 90)), .decimal (some (.ofNat 90)), ⟨1000005000000, by decide⟩,
    "book"⟩], sampleLater⟩, none⟩

/-- A wallet, and two candidates of one asset in one batch. Then two writers find the exit of the play, the
first closes it, a third candidate is opened, and the second writes its close late. -/
def sampleOperations : List Operation :=
  [.ensureWallet (.ofNat 100) "USD" Pilot.sampleNow,
    .openCandidates ⟨[sampleCandidate "first", sampleCandidate "second"],
      ⟨.ofNat 10, .ofNat 26, 3⟩, Pilot.sampleNow⟩,
    .findExits 1 sampleDrop, .findExits 2 sampleDrop, .closePlays 1,
    .openCandidates ⟨[sampleCandidate "third"], ⟨.ofNat 10, .ofNat 26, 3⟩, sampleLater⟩, .closePlays 2]

theorem wallet_safe_two_writers :
    let last := ((paperGame Pilot.sampleRuntime).run ⟨{}, fun _ => none⟩ sampleOperations).db
    (last.openPlays.map PlayRow.eventId = ["third"] ∧ last.closes.map CloseRow.playId = [1]) ∧
      (last.plays.map PlayRow.eventId).Nodup ∧ (last.closes.map CloseRow.playId).Nodup ∧
        Computed {} last :=
  ⟨by decide +kernel,
    (wallet_safe Pilot.sampleRuntime {} PaperDb.sound_empty sampleOperations).2⟩

end CryptoRadar.Paper
