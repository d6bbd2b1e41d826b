import CryptoRadar.Lib.Search
import CryptoRadar.Trend.CatchUp

/-!
# What a plan says of its days

A plan that does not wait has settled each of its days on its own: what a day needs and whether
the candles it misses are final depends on the market and the day only (`Settles`). The plan's
gaps and the candles it relies on are those of its days (`planDays_gaps`, `mem_planDays_missing`).
So a plan of later days says of them what the plan of more days said
(`planDays_of_settles`).

A plan is confirmed when the second market confirms every candle it relies on
(`confirmPlan_eq_ok`), and it is applied when it does not wait and is confirmed or relies on no
missing candle (`checkPlan_eq_ok`).
-/

set_option autoImplicit false

namespace CryptoRadar.Trend

open Checked

/-! ## Single days -/

section Days

variable {F : Type} [PyFloat F] {market second : Market F}

theorem firstUnsettled_eq_none {gaps : List Gap} :
    firstUnsettled market gaps = .ok none ↔
      ∀ gap ∈ gaps, hasLater market gap.symbol gap.day = .ok true := by
  have isSearch : firstUnsettled market gaps = gaps.findSomeM? fun gap => do
      let later ← hasLater market gap.symbol gap.day
      return if later then none else some gap := by
    induction gaps with
    | nil => rfl
    | cons gap rest hyp =>
        rw [firstUnsettled, List.findSomeM?_cons, bind_assoc]
        congr 1
        funext later
        cases later with
        | true => exact hyp
        | false => rfl
  rw [isSearch, Search.findSomeM?_eq_none]
  refine forall₂_congr fun gap _ => ?_
  rw [bind_eq_ok]
  constructor
  · rintro ⟨later, isLater, settled⟩
    cases later with
    | true => exact isLater
    | false => cases settled
  · intro isLater
    exact ⟨true, isLater, rfl⟩

/-- A day with a gap needs the candles of its gap; a day without one those of its fallbacks. -/
theorem dayNeeds_eq_ok {day : Date} {found : Option DayGap} {missing : List Gap} :
    dayNeeds market day = .ok (found, missing) ↔ dayGap market day = .ok found ∧
      (match found with
        | some found => missing = found.gaps
        | none => eurFallbacks market day = .ok missing) := by
  unfold dayNeeds
  rw [bind_eq_ok]
  constructor
  · rintro ⟨other, isGap, needs⟩
    cases other with
    | some other =>
        cases needs
        exact ⟨isGap, rfl⟩
    | none =>
        obtain ⟨fallbacks, isFallbacks, needs⟩ := bind_eq_ok.mp needs
        cases needs
        exact ⟨isGap, isFallbacks⟩
  · rintro ⟨isGap, needs⟩
    refine ⟨found, isGap, ?_⟩
    cases found with
    | some found =>
        subst needs
        rfl
    | none => exact bind_eq_ok.mpr ⟨missing, needs, rfl⟩

/-- The market settles the day: the day's needs, and a later candle of each one it misses. -/
structure Settles (market : Market F) (day : Date) (found : Option DayGap) (missing : List Gap) :
    Prop where
  needs : dayNeeds market day = .ok (found, missing)
  later : firstUnsettled market missing = .ok none

/-- A day has one gap and one list of missing candles. -/
theorem Settles.unique {day : Date} {found other : Option DayGap} {missing more : List Gap}
    (settles : Settles market day found missing) (again : Settles market day other more) :
    found = other ∧ missing = more := by
  have same := settles.needs.symm.trans again.needs
  cases same
  exact ⟨rfl, rfl⟩

def CatchUpPlan.add (plan : CatchUpPlan) (day : Date) (missing : List Gap) :
    Option DayGap → CatchUpPlan
  | some found => { plan with gaps := plan.gaps.assign day found }
  | none => { plan with fallbacks := plan.fallbacks ++ missing }

theorem planDays_cons {plan : CatchUpPlan} {day : Date} {rest : List Date}
    {found : Option DayGap} {missing : List Gap} (settles : Settles market day found missing) :
    planDays market plan (day :: rest) = planDays market (plan.add day missing found) rest := by
  rw [planDays, settles.needs]
  change (firstUnsettled market missing >>= _) = _
  rw [settles.later]
  cases found <;> rfl

/-- A plan that does not wait settled its first day. -/
theorem settles_of_planDays {plan result : CatchUpPlan} {day : Date} {rest : List Date}
    (planned : planDays market plan (day :: rest) = .ok result) (goes : result.waiting = none) :
    ∃ found missing, Settles market day found missing := by
  rw [planDays] at planned
  obtain ⟨⟨found, missing⟩, needs, planned⟩ := bind_eq_ok.mp planned
  obtain ⟨unsettled, checked, planned⟩ := bind_eq_ok.mp planned
  cases unsettled with
  | some gap =>
      cases planned
      cases goes
  | none => exact ⟨found, missing, needs, checked⟩

/-- A plan that does not wait settled all its days. -/
theorem forall_settles_of_planDays {days : List Date} :
    ∀ {plan result : CatchUpPlan}, planDays market plan days = .ok result →
      result.waiting = none → ∀ day ∈ days, ∃ found missing, Settles market day found missing := by
  induction days with
  | nil => simp
  | cons first rest hyp =>
      intro plan result planned goes day member
      obtain ⟨found, missing, settles⟩ := settles_of_planDays planned goes
      rcases List.mem_cons.mp member with rfl | later
      · exact ⟨found, missing, settles⟩
      · rw [planDays_cons settles] at planned
        exact hyp planned goes day later

/-- Days that the market settles can be planned without waiting. -/
theorem planDays_of_settles {days : List Date} :
    ∀ (plan : CatchUpPlan), (∀ day ∈ days, ∃ found missing, Settles market day found missing) →
      ∃ result, planDays market plan days = .ok result ∧ result.days = plan.days ∧
        result.waiting = plan.waiting ∧ result.confirmed = plan.confirmed := by
  induction days with
  | nil =>
      intro plan _
      exact ⟨plan, rfl, rfl, rfl, rfl⟩
  | cons day rest hyp =>
      intro plan settled
      obtain ⟨found, missing, settles⟩ := settled day List.mem_cons_self
      obtain ⟨result, planned, sameDays, sameWaiting, sameConfirmed⟩ :=
        hyp (plan.add day missing found) fun later member =>
          settled later (List.mem_cons_of_mem _ member)
      refine ⟨result, (planDays_cons settles).trans planned, ?_⟩
      cases found <;> exact ⟨sameDays, sameWaiting, sameConfirmed⟩

/-- The gap of a day, if it has one. -/
def gapOf (market : Market F) (day : Date) : Option DayGap := (dayGap market day).toOption.join

theorem Settles.gapOf {day : Date} {found : Option DayGap} {missing : List Gap}
    (settles : Settles market day found missing) : gapOf market day = found := by
  rw [Trend.gapOf, (dayNeeds_eq_ok.mp settles.needs).1]
  rfl

/-- The plan of some days holds the gaps of these days, and on other days what it held before. -/
theorem planDays_gaps {days : List Date} :
    ∀ {plan result : CatchUpPlan}, planDays market plan days = .ok result →
      (∀ day ∈ days, ∃ found missing, Settles market day found missing) →
      result.gaps = plan.gaps.assignAll (gapOf market) days := by
  induction days with
  | nil =>
      intro plan result planned _
      cases planned
      rfl
  | cons first rest hyp =>
      intro plan result planned settled
      obtain ⟨found, missing, settles⟩ := settled first List.mem_cons_self
      rw [planDays_cons settles] at planned
      rw [hyp planned fun day member => settled day (List.mem_cons_of_mem _ member)]
      change _ = Dict.assignAll _ ((gapOf market first).elim plan.gaps _) rest
      rw [settles.gapOf]
      cases found <;> rfl

theorem CatchUpPlan.mem_missing {plan : CatchUpPlan} {gap : Gap} :
    gap ∈ plan.missing ↔ (∃ item ∈ plan.gaps, gap ∈ item.2.gaps) ∨ gap ∈ plan.fallbacks := by
  simp [CatchUpPlan.missing]

/-- A day without a gap so far adds what it misses. -/
theorem CatchUpPlan.mem_missing_add {plan : CatchUpPlan} {day : Date} {found : Option DayGap}
    {missing : List Gap} (settles : Settles market day found missing)
    (absent : plan.gaps.get? day = none) {gap : Gap} :
    gap ∈ (plan.add day missing found).missing ↔ gap ∈ plan.missing ∨ gap ∈ missing := by
  cases found with
  | none => simp [CatchUpPlan.add, CatchUpPlan.missing, or_assoc]
  | some found =>
      obtain rfl : missing = found.gaps := (dayNeeds_eq_ok.mp settles.needs).2
      rw [mem_missing, mem_missing]
      change (∃ item ∈ plan.gaps.assign day found, _) ∨ gap ∈ plan.fallbacks ↔ _
      rw [Dict.assign_of_get?_eq_none absent]
      simp only [List.mem_append, List.mem_singleton]
      grind

/-- The plan relies on the candles its days miss, and on those it relied on before. -/
theorem mem_planDays_missing {days : List Date} (distinct : days.Nodup) :
    ∀ {plan result : CatchUpPlan}, planDays market plan days = .ok result →
      (∀ day ∈ days, ∃ found missing, Settles market day found missing) →
      (∀ day ∈ days, plan.gaps.get? day = none) →
      ∀ gap, gap ∈ result.missing ↔ gap ∈ plan.missing ∨
        ∃ day ∈ days, ∃ found missing, Settles market day found missing ∧ gap ∈ missing := by
  induction days with
  | nil =>
      intro plan result planned _ _ gap
      cases planned
      simp
  | cons first rest hyp =>
      intro plan result planned settled absent gap
      obtain ⟨notLater, distinct⟩ := List.nodup_cons.mp distinct
      obtain ⟨found, missing, settles⟩ := settled first List.mem_cons_self
      rw [planDays_cons settles] at planned
      have stillAbsent : ∀ day ∈ rest, (plan.add first missing found).gaps.get? day = none := by
        intro day member
        have before := absent day (List.mem_cons_of_mem _ member)
        cases found with
        | none => exact before
        | some found =>
            have different : first ≠ day := fun same => notLater (same ▸ member)
            change (plan.gaps.assign first found).get? day = none
            rw [Dict.get?_assign, if_neg different, before]
      rw [hyp distinct planned (fun day member => settled day (List.mem_cons_of_mem _ member))
        stillAbsent, CatchUpPlan.mem_missing_add settles (absent first List.mem_cons_self), or_assoc]
      refine or_congr_right ⟨?_, ?_⟩
      · rintro (inFirst | ⟨day, member, rest⟩)
        · exact ⟨first, List.mem_cons_self, found, missing, settles, inFirst⟩
        · exact ⟨day, List.mem_cons_of_mem _ member, rest⟩
      · rintro ⟨day, member, other, more, again, inDay⟩
        rcases List.mem_cons.mp member with rfl | later
        · obtain ⟨rfl, rfl⟩ := again.unique settles
          exact .inl inDay
        · exact .inr ⟨day, later, other, more, again, inDay⟩

end Days

/-! ## Consecutive days -/

theorem daysUpTo_eq_ok {first last : Date} {days : List Date} :
    daysUpTo first last = .ok days ↔
      days.map Date.ordinal = List.range' first.ordinal (last.ordinal - first.ordinal + 1) := by
  have sums : ∀ (count : ℕ) (day : Date),
      plusDays first count = .ok day ↔ first.ordinal + count = day.ordinal := by
    intro count day
    unfold plusDays
    rw [require_eq_ok, Date.plusDays?_eq_some]
    omega
  unfold daysUpTo
  rw [mapM_eq_ok, List.range'_eq_map_range, eq_comm, ← List.forall₂_eq_eq_eq,
    List.forall₂_map_left_iff, List.forall₂_map_right_iff]
  simp only [sums]

theorem nodup_of_daysUpTo {first last : Date} {days : List Date}
    (isDays : daysUpTo first last = .ok days) : days.Nodup := by
  have ordinals : (days.map Date.ordinal).Nodup := by
    rw [daysUpTo_eq_ok.mp isDays]
    exact List.nodup_range' _
  exact List.Nodup.of_map _ ordinals

/-- Without the first `count` of them the days start `count` days later. -/
theorem daysUpTo_drop {first later last : Date} {days : List Date} {count : ℕ}
    (isDays : daysUpTo first last = .ok days) (isLater : later.ordinal = first.ordinal + count)
    (ordered : later ≤ last) : daysUpTo later last = .ok (days.drop count) := by
  have le : later.ordinal ≤ last.ordinal := ordered
  rw [daysUpTo_eq_ok, List.map_drop, daysUpTo_eq_ok.mp isDays, List.drop_range', isLater]
  congr 1
  · simp
  · omega

/-! ## Plans -/

section Due

variable {F : Type} [PyMath F] (start : Date) (market : Market F)

/-- The days that are due: from the first one to book up to today, or to the end of the USDT
data. -/
def daysDue (ledger : Ledger F) (today : Option Date) : Except PaperFailure (List Date) := do
  let first ← firstDayToBook ledger start
  let horizon ← lastBookableDay market
  match today.or horizon with
  | none => return []
  | some last => if last < first then return [] else daysUpTo first last

end Due

section Plans

variable {F : Type} [PyMath F] {market second : Market F} {ledger : Ledger F} {start : Date}
  {today : Option Date}

/-- The frame of a plan: it goes through the due days if the data reach them. -/
def planDue {Plan : Type} (ofDays : List Date → Plan) (wait : List Date → String → Plan)
    (go : List Date → Except PaperFailure Plan) (ledger : Ledger F) (market : Market F)
    (start : Date) (today : Option Date) : Except PaperFailure Plan := do
  let first ← firstDayToBook ledger start
  let horizon ← lastBookableDay market
  match today.or horizon with
  | none => return ofDays []
  | some last =>
      if last < first then return ofDays []
      let days ← daysUpTo first last
      if horizon.all fun horizon => horizon < last then
        return wait days
          ("the public USDT daily candles do not reach the " ++ last.isoformat ++ " open yet")
      go days

section Frame

variable {Plan : Type} {ofDays : List Date → Plan} {wait : List Date → String → Plan}
  {go : List Date → Except PaperFailure Plan} {plan : Plan}

/-- A plan that does not wait has no due day, or goes through every day from the first one to book
up to the last one due. -/
theorem planDue_eq_ok (goes : ∀ days why, plan ≠ wait days why) :
    planDue ofDays wait go ledger market start today = .ok plan ↔
      ∃ first horizon, firstDayToBook ledger start = .ok first ∧
        lastBookableDay market = .ok horizon ∧
        ((plan = ofDays [] ∧ ∀ last, today.or horizon = some last → last < first) ∨
          ∃ last days, today.or horizon = some last ∧ first ≤ last ∧
            (horizon.all fun horizon => horizon < last) = false ∧
            daysUpTo first last = .ok days ∧ go days = .ok plan) := by
  unfold planDue
  rw [bind_eq_ok]
  refine exists_congr fun first => ?_
  rw [bind_eq_ok]
  constructor
  · rintro ⟨isFirst, horizon, isHorizon, planned⟩
    refine ⟨horizon, isFirst, isHorizon, ?_⟩
    cases due : today.or horizon with
    | none =>
        rw [due] at planned
        cases planned
        exact .inl ⟨rfl, by simp⟩
    | some last =>
        rw [due] at planned
        by_cases past : last < first
        · simp only [if_pos past] at planned
          cases planned
          exact .inl ⟨rfl, by simpa using past⟩
        · simp only [if_neg past] at planned
          obtain ⟨days, isDays, planned⟩ := bind_eq_ok.mp planned
          by_cases short : (horizon.all fun horizon => horizon < last) = true
          · simp only [if_pos short] at planned
            exact absurd (Except.ok.inj planned).symm (goes _ _)
          · simp only [if_neg short] at planned
            exact .inr ⟨last, days, rfl, not_lt.mp past, by simpa using short, isDays, planned⟩
  · rintro ⟨horizon, isFirst, isHorizon, cases⟩
    refine ⟨isFirst, horizon, isHorizon, ?_⟩
    rcases cases with ⟨rfl, none⟩ | ⟨last, days, due, ordered, reached, isDays, planned⟩
    · cases due : today.or horizon with
      | none => rfl
      | some last => simp only [if_pos (none last due)]; rfl
    · rw [due]
      simp only [if_neg (not_lt.mpr ordered)]
      refine bind_eq_ok.mpr ⟨days, isDays, ?_⟩
      simp only [reached, Bool.false_eq_true, if_false]
      exact planned

/-- A plan that does not wait is about the days that are due. -/
theorem daysDue_of_planDue (goes : ∀ days why, plan ≠ wait days why)
    (planned : planDue ofDays wait go ledger market start today = .ok plan) :
    ∃ days, daysDue start market ledger today = .ok days ∧ days.Nodup ∧
      (days = [] ∧ plan = ofDays [] ∨ go days = .ok plan) := by
  obtain ⟨first, horizon, isFirst, isHorizon, due⟩ := (planDue_eq_ok goes).mp planned
  unfold daysDue
  rw [isFirst, isHorizon]
  rcases due with ⟨rfl, nothing⟩ | ⟨last, days, due, ordered, _, isDays, planned⟩
  · refine ⟨[], ?_, List.nodup_nil, .inl ⟨rfl, rfl⟩⟩
    change (match today.or horizon with
      | none => Except.ok []
      | some last => if last < first then Except.ok [] else daysUpTo first last) = .ok []
    cases isDue : today.or horizon with
    | none => rfl
    | some last => exact if_pos (nothing last isDue)
  · refine ⟨days, ?_, nodup_of_daysUpTo isDays, .inr planned⟩
    change (match today.or horizon with
      | none => Except.ok []
      | some last => if last < first then Except.ok [] else daysUpTo first last) = .ok days
    rw [due]
    simp only [if_neg (not_lt.mpr ordered)]
    exact isDays

end Frame

theorem CatchUpPlan.ne_wait {plan : CatchUpPlan} (goes : plan.waiting = none) (days : List Date)
    (why : String) : plan ≠ .wait days why := by
  rintro rfl
  cases goes

/-- A plan that does not wait has no due day, or settles every day from the first one to book up
to the last one due. -/
theorem planCatchUp_eq_ok {plan : CatchUpPlan} (goes : plan.waiting = none) :
    planCatchUp ledger market start today = .ok plan ↔
      ∃ first horizon, firstDayToBook ledger start = .ok first ∧
        lastBookableDay market = .ok horizon ∧
        ((plan = .ofDays [] ∧ ∀ last, today.or horizon = some last → last < first) ∨
          ∃ last days, today.or horizon = some last ∧ first ≤ last ∧
            (horizon.all fun horizon => horizon < last) = false ∧
            daysUpTo first last = .ok days ∧ planDays market (.ofDays days) days = .ok plan) :=
  planDue_eq_ok (CatchUpPlan.ne_wait goes)

/-- A plan that does not wait is about the days that are due. -/
theorem daysDue_of_planCatchUp {plan : CatchUpPlan}
    (planned : planCatchUp ledger market start today = .ok plan) (goes : plan.waiting = none) :
    ∃ days, daysDue start market ledger today = .ok days ∧ days.Nodup ∧
      (days = [] ∧ plan = .ofDays [] ∨ planDays market (.ofDays days) days = .ok plan) :=
  daysDue_of_planDue (CatchUpPlan.ne_wait goes) planned

theorem firstRefusal_eq_none {gaps : List Gap} :
    firstRefusal second gaps = .ok none ↔ ∀ gap ∈ gaps, refusal second gap = .ok none := by
  have isSearch : firstRefusal second gaps = gaps.findSomeM? (refusal second) := by
    induction gaps with
    | nil => rfl
    | cons gap rest hyp =>
        rw [firstRefusal, List.findSomeM?_cons]
        congr 1
        funext why
        cases why with
        | some why => rfl
        | none => exact hyp
  rw [isSearch, Search.findSomeM?_eq_none]

/-- A plan is confirmed when the second market confirms every candle it relies on. -/
theorem confirmPlan_eq_ok {plan result : CatchUpPlan} (goes : result.waiting = none) :
    confirmPlan plan second = .ok result ↔
      result = { plan with confirmed := true } ∧ plan.waiting = none ∧
        ∀ gap ∈ plan.missing, refusal second gap = .ok none := by
  unfold confirmPlan
  rw [bind_eq_ok, ← firstRefusal_eq_none]
  constructor
  · rintro ⟨why, refused, confirmed⟩
    cases why with
    | some why =>
        cases confirmed
        cases goes
    | none =>
        cases confirmed
        exact ⟨rfl, goes, refused⟩
  · rintro ⟨rfl, _, refused⟩
    exact ⟨none, refused, rfl⟩

theorem checkPlan_eq_ok {plan : CatchUpPlan} {done : Unit} :
    checkPlan plan = .ok done ↔ plan.waiting = none ∧ (plan.missing = [] ∨ plan.confirmed = true) := by
  unfold checkPlan
  cases plan.waiting with
  | none => simp
  | some why =>
      constructor
      · intro checked
        cases checked
      · rintro ⟨goes, _⟩
        cases goes

/-- What is planned is not confirmed yet. -/
theorem planCatchUp_unconfirmed {base : CatchUpPlan}
    (isBase : planCatchUp ledger market start today = .ok base) (goes : base.waiting = none) :
    base.confirmed = false := by
  obtain ⟨_, _, _, _, due⟩ := (planCatchUp_eq_ok goes).mp isBase
  rcases due with ⟨rfl, _⟩ | ⟨_, days, _, _, _, _, planned⟩
  · rfl
  · obtain ⟨result, again, _, _, confirmed⟩ :=
      planDays_of_settles (.ofDays days) (forall_settles_of_planDays planned goes)
    cases planned.symm.trans again
    exact confirmed

/-- A plan that is applied comes from a plan that does not wait, each of whose missing candles the
second market confirms. -/
theorem of_confirmedPlan {refetch : Option (Dict String Date → Market F)} {plan : CatchUpPlan}
    {done : Unit} (isPlan : confirmedPlan start market refetch ledger today = .ok plan)
    (checked : checkPlan plan = .ok done) :
    ∃ base, planCatchUp ledger market start today = .ok base ∧ base.waiting = none ∧
      base.days = plan.days ∧ base.gaps = plan.gaps ∧
      ∀ gap ∈ base.missing, ∃ ask ∈ refetch, refusal (ask base.toConfirm) gap = .ok none := by
  obtain ⟨goes, settled⟩ := checkPlan_eq_ok.mp checked
  obtain ⟨base, isBase, isPlan⟩ := bind_eq_ok.mp isPlan
  refine ⟨base, isBase, ?_⟩
  cases refetch with
  | none =>
      cases isPlan
      have nothing : plan.missing = [] :=
        settled.resolve_right (by simp [planCatchUp_unconfirmed isBase goes])
      exact ⟨goes, rfl, rfl, by simp [nothing]⟩
  | some ask =>
      by_cases asks : base.waiting = none ∧ base.missing ≠ []
      · simp only [if_pos asks] at isPlan
        obtain ⟨rfl, _, confirmed⟩ := (confirmPlan_eq_ok goes).mp isPlan
        exact ⟨asks.1, rfl, rfl, fun gap member => ⟨ask, rfl, confirmed gap member⟩⟩
      · simp only [if_neg asks] at isPlan
        cases isPlan
        have nothing : plan.missing = [] := by
          by_contra some
          exact asks ⟨goes, some⟩
        exact ⟨goes, rfl, rfl, by simp [nothing]⟩

theorem confirmedPlan_of (ask : Dict String Date → Market F) {base : CatchUpPlan}
    (isBase : planCatchUp ledger market start today = .ok base) (goes : base.waiting = none)
    (confirmed : ∀ gap ∈ base.missing, refusal (ask base.toConfirm) gap = .ok none) :
    ∃ plan, confirmedPlan start market (some ask) ledger today = .ok plan ∧
      checkPlan plan = .ok () ∧ plan.days = base.days ∧ plan.gaps = base.gaps := by
  by_cases asks : base.missing ≠ []
  · refine ⟨{ base with confirmed := true }, ?_, checkPlan_eq_ok.mpr ⟨goes, .inr rfl⟩, rfl, rfl⟩
    refine bind_eq_ok.mpr ⟨base, isBase, ?_⟩
    have stillGoes : ({ base with confirmed := true } : CatchUpPlan).waiting = none := goes
    simp only [if_pos (And.intro goes asks)]
    exact (confirmPlan_eq_ok stillGoes).mpr ⟨rfl, goes, confirmed⟩
  · refine ⟨base, bind_eq_ok.mpr ⟨base, isBase, ?_⟩, ?_, rfl, rfl⟩
    · exact if_neg fun both => asks both.2
    · exact checkPlan_eq_ok.mpr ⟨goes, .inl (not_not.mp asks)⟩

/-- A plan that was made on an earlier ledger says of the days that are left what a new plan says
of them: `later` is a ledger that covers the first days of the plan. -/
theorem planCatchUp_resumed {base : CatchUpPlan} {later : Ledger F} {front rest : List Date}
    {covered first : Date} (isBase : planCatchUp ledger market start today = .ok base)
    (goes : base.waiting = none) (isDays : base.days = front ++ covered :: rest)
    (isCovered : later.lastDay = some covered) (isFirst : plusDays covered 1 = .ok first) :
    ∃ resumed, planCatchUp later market start today = .ok resumed ∧ resumed.waiting = none ∧
      resumed.days = rest ∧ (∀ day ∈ rest, resumed.gaps.get? day = base.gaps.get? day) ∧
      ∀ gap ∈ resumed.missing, gap ∈ base.missing := by
  obtain ⟨earliest, horizon, _, isHorizon, due⟩ := (planCatchUp_eq_ok goes).mp isBase
  rcases due with ⟨rfl, _⟩ | ⟨last, days, due, ordered, reached, isUpTo, planned⟩
  · exact absurd isDays.symm (by simp [CatchUpPlan.ofDays])
  have settled := forall_settles_of_planDays planned goes
  have sameDays : base.days = days := by
    obtain ⟨result, again, same, _⟩ := planDays_of_settles (.ofDays days) settled
    cases planned.symm.trans again
    exact same
  rw [sameDays] at isDays
  subst isDays
  have next : (first.ordinal : ℤ) = covered.ordinal + 1 :=
    Date.plusDays?_eq_some.mp (require_eq_ok.mp isFirst)
  -- the day that is covered stands `front.length` days after the first one
  have ordinals := daysUpTo_eq_ok.mp isUpTo
  have count : front.length < last.ordinal - earliest.ordinal + 1 := by
    have lengths := congrArg List.length ordinals
    simp at lengths
    omega
  have position : covered.ordinal = earliest.ordinal + front.length := by
    have found := congrArg (fun list => list[front.length]?) ordinals
    simp only [List.map_append, List.map_cons, List.getElem?_append_right (le_of_eq (List.length_map _)),
      List.length_map, Nat.sub_self, List.getElem?_cons_zero] at found
    rw [List.getElem?_range' count] at found
    simpa using found
  have isNext : firstDayToBook later start = .ok first := by
    unfold firstDayToBook
    rw [isCovered]
    exact isFirst
  by_cases past : last < first
  · have nothing : rest = [] := by
      have lengths := congrArg List.length ordinals
      have beyond : last.ordinal < first.ordinal := past
      simp at lengths
      exact List.eq_nil_of_length_eq_zero (by omega)
    subst nothing
    refine ⟨.ofDays [], ?_, rfl, rfl, by simp, by simp [CatchUpPlan.missing, CatchUpPlan.ofDays]⟩
    refine (planCatchUp_eq_ok rfl).mpr ⟨first, horizon, isNext, isHorizon, .inl ⟨rfl, ?_⟩⟩
    intro other isOther
    cases due.symm.trans isOther
    exact past
  · have isRest : daysUpTo first last = .ok rest := by
      have isLater : first.ordinal = earliest.ordinal + (front.length + 1) := by omega
      have dropped := daysUpTo_drop isUpTo isLater (not_lt.mp past)
      simpa using dropped
    have distinct := nodup_of_daysUpTo isUpTo
    have inside : ∀ day ∈ rest, day ∈ front ++ covered :: rest := by
      intro day member
      simp [member]
    have settledRest := fun day member => settled day (inside day member)
    obtain ⟨resumed, again, days, waiting, _⟩ := planDays_of_settles (.ofDays rest) settledRest
    refine ⟨resumed, ?_, waiting, days, fun day member => ?_, fun gap member => ?_⟩
    · exact (planCatchUp_eq_ok waiting).mpr ⟨first, horizon, isNext, isHorizon,
        .inr ⟨last, rest, due, not_lt.mp past, reached, isRest, again⟩⟩
    · rw [planDays_gaps planned settled, planDays_gaps again settledRest, Dict.get?_assignAll,
        Dict.get?_assignAll, if_pos (inside day member), if_pos member]
      rfl
    · have absent : ∀ (days : List Date), ∀ day ∈ days, (CatchUpPlan.ofDays days).gaps.get? day = none :=
        fun _ _ _ => rfl
      have relied := (mem_planDays_missing (nodup_of_daysUpTo isRest) again settledRest
        (absent rest) gap).mp member
      refine (mem_planDays_missing distinct planned settled (absent _) gap).mpr (.inr ?_)
      obtain ⟨day, isDay, relied⟩ := relied.resolve_left (by simp [CatchUpPlan.missing, CatchUpPlan.ofDays])
      exact ⟨day, inside day isDay, relied⟩

end Plans

/-! ## What a catch-up comes to -/

section Outcome

variable {F : Type} [PyMath F] {World : Type} (codec : LedgerCodec F) (start : Date)
  (market : Market F) (ts : PyStr) (refetch : Option (Dict String Date → Market F))
  (ledger : Ledger F) (today : Option Date)

/-- The chunks a catch-up prepares: its plan goes on and every day of it was computed. -/
structure Prepared (plan : CatchUpPlan) (chunks : List Chunk) : Prop where
  isPlan : confirmedPlan start market refetch ledger today = .ok plan
  checked : checkPlan plan = .ok ()
  prepared : prepare codec start market ts plan.gaps ledger plan.days = .ok chunks

/-- A catch-up prepares its chunks or fails before it has changed anything. -/
theorem catchUpDays_outcome (append : Bytes → World → Except CatchUpFailure (Ledger F) × World)
    (world : World) :
    (∃ failure, catchUpDays codec start market ts append refetch ledger today world =
        (.error (.paper failure), world) ∧
      (confirmedPlan start market refetch ledger today >>= fun plan => checkPlan plan >>= fun _ =>
        prepare codec start market ts plan.gaps ledger plan.days) = .error failure) ∨
      ∃ plan chunks, Prepared codec start market ts refetch ledger today plan chunks := by
  unfold catchUpDays applyPlan
  cases isPlan : confirmedPlan start market refetch ledger today with
  | error failure => exact .inl ⟨failure, rfl, rfl⟩
  | ok plan =>
      simp only
      cases ready : (checkPlan plan >>= fun _ =>
          prepare codec start market ts plan.gaps ledger plan.days) with
      | error failure => exact .inl ⟨failure, rfl, ready⟩
      | ok chunks =>
          obtain ⟨_, checked, prepared⟩ := bind_eq_ok.mp ready
          exact .inr ⟨plan, chunks, isPlan, checked, prepared⟩

variable {codec start market ts refetch ledger today}

/-- A catch-up that has prepared its chunks returns, fails and changes the world as their appends
do. -/
theorem catchUpDays_prepared {plan : CatchUpPlan} {chunks : List Chunk}
    (isReady : Prepared codec start market ts refetch ledger today plan chunks)
    (append : Bytes → World → Except CatchUpFailure (Ledger F) × World) (world : World) :
    (catchUpDays codec start market ts append refetch ledger today world).2 =
        (appendChunks append chunks world).2 ∧
      ((∃ booked, (catchUpDays codec start market ts append refetch ledger today world).1 =
        .ok booked) ↔ (appendChunks append chunks world).1 = .ok ()) ∧
      ∀ failure, (catchUpDays codec start market ts append refetch ledger today world).1 =
        .error failure → (appendChunks append chunks world).1 = .error failure := by
  have ready : (checkPlan plan >>= fun _ =>
      prepare codec start market ts plan.gaps ledger plan.days) = .ok chunks :=
    bind_eq_ok.mpr ⟨(), isReady.checked, isReady.prepared⟩
  unfold catchUpDays applyPlan
  rw [isReady.isPlan]
  simp only [ready]
  cases appendChunks append chunks world with
  | mk result after => cases result <;> simp

end Outcome

end CryptoRadar.Trend
