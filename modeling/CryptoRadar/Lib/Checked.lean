import Mathlib.Algebra.Ring.Int.Defs
import Mathlib.Algebra.Ring.Nat
import Mathlib.Data.List.Forall2
import Mathlib.Logic.Basic

/-!
# Computations that may fail

A computation that raises is an `Except`. The lemmas here take a successful result apart:
a sequence succeeds when its first part does and its second part does on the result
(`bind_eq_ok`), a check succeeds when its condition holds (`ensure_eq_ok`), and a loop over
a list succeeds when every turn does (`foldlM_invariant`, `foldlM_reaches`, `mapM_eq_ok`).
-/

set_option autoImplicit false

namespace Checked

universe u v

variable {Failure : Type u} {α β : Type v}

theorem bind_eq_ok {first : Except Failure α} {second : α → Except Failure β} {result : β} :
    (first >>= second) = .ok result ↔ ∃ value, first = .ok value ∧ second value = .ok result := by
  cases first with
  | error failure =>
      constructor
      · intro equal
        cases equal
      · rintro ⟨value, equal, _⟩
        cases equal
  | ok value =>
      constructor
      · intro equal
        exact ⟨value, rfl, equal⟩
      · rintro ⟨other, equal, rest⟩
        cases equal
        exact rest

theorem bind_eq_error {first : Except Failure α} {second : α → Except Failure β}
    {failure : Failure} : (first >>= second) = .error failure ↔
      first = .error failure ∨ ∃ value, first = .ok value ∧ second value = .error failure := by
  cases first with
  | error raised =>
      constructor
      · intro equal
        cases equal
        exact .inl rfl
      · rintro (equal | ⟨value, equal, _⟩)
        · cases equal
          rfl
        · cases equal
  | ok value =>
      constructor
      · intro equal
        exact .inr ⟨value, rfl, equal⟩
      · rintro (equal | ⟨other, equal, rest⟩)
        · cases equal
        · cases equal
          exact rest

/-- What the last part of a sequence ensures of its results holds of the results of the sequence. -/
theorem forall_of_bind {P : β → Prop} {first : Except Failure α} {second : α → Except Failure β}
    (last : ∀ value result, second value = .ok result → P result) :
    ∀ result, (first >>= second) = .ok result → P result := by
  intro result isResult
  obtain ⟨value, _, isResult⟩ := bind_eq_ok.mp isResult
  exact last value result isResult

/-- What a sequence gives when each of its parts returns. -/
theorem bind_gives {first : Except Failure α} {second : α → Except Failure (Option β)}
    (isOk : ∃ value, first = .ok value)
    (gives : ∀ value, ∃ result, second value = .ok (some result)) :
    ∃ result, (first >>= second) = .ok (some result) := by
  obtain ⟨value, isValue⟩ := isOk
  obtain ⟨result, isResult⟩ := gives value
  exact ⟨result, bind_eq_ok.mpr ⟨value, isValue, isResult⟩⟩

theorem forM_eq_ok {Item : Type u} {turn : Item → Except Failure PUnit} {items : List Item}
    (turns : ∀ item ∈ items, turn item = .ok ⟨⟩) : items.forM turn = .ok ⟨⟩ := by
  induction items with
  | nil => rfl
  | cons item rest hyp =>
      have first := turns item List.mem_cons_self
      exact bind_eq_ok.mpr ⟨⟨⟩, first, hyp fun later member => turns later (List.mem_cons_of_mem _ member)⟩

/-- A loop that fails does so in the turn of an item. -/
theorem forM_eq_error {Item : Type u} {turn : Item → Except Failure PUnit} {items : List Item}
    {failure : Failure} (failed : items.forM turn = .error failure) :
    ∃ item ∈ items, turn item = .error failure := by
  induction items with
  | nil => cases failed
  | cons item rest hyp =>
      rcases bind_eq_error.mp failed with here | ⟨_, _, later⟩
      · exact ⟨item, List.mem_cons_self, here⟩
      · obtain ⟨other, member, found⟩ := hyp later
        exact ⟨other, List.mem_cons_of_mem _ member, found⟩

/-- Fail with `failure` unless the condition holds. -/
def ensure {Failure : Type u} (condition : Prop) [Decidable condition] (failure : Failure) :
    Except Failure Unit :=
  if condition then .ok () else .error failure

@[simp] theorem ensure_eq_ok {condition : Prop} [Decidable condition] {failure : Failure}
    {done : Unit} : ensure condition failure = .ok done ↔ condition := by
  unfold ensure
  split <;> simp_all

theorem ensure_of {condition : Prop} [Decidable condition] {failure : Failure}
    (holds : condition) : ensure condition failure = .ok () :=
  if_pos holds

/-- The value of an optional result, or a failure when there is none. -/
def require {Failure : Type u} (failure : Failure) : Option α → Except Failure α
  | some value => .ok value
  | none => .error failure

@[simp] theorem require_eq_ok {failure : Failure} {found : Option α} {value : α} :
    require failure found = .ok value ↔ found = some value := by
  cases found <;> simp [require]

/-- A property that the turn of every item keeps holds at the end of a successful loop. -/
theorem foldlM_invariant_of_mem {State : Type v} {Item : Type u} (Inv : State → Prop)
    {turn : State → Item → Except Failure State} :
    ∀ (items : List Item) {state after : State},
      (∀ item ∈ items, ∀ state after, Inv state → turn state item = .ok after → Inv after) →
      Inv state → items.foldlM turn state = .ok after → Inv after
  | [], _, _, _, holds, result => by
      cases result
      exact holds
  | item :: rest, state, after, keeps, holds, result => by
      obtain ⟨middle, first, tail⟩ := bind_eq_ok.mp (by simpa only [List.foldlM_cons] using result)
      exact foldlM_invariant_of_mem Inv rest
        (fun later member => keeps later (List.mem_cons_of_mem _ member))
        (keeps item List.mem_cons_self state middle holds first) tail

/-- A property that every successful turn keeps holds at the end of a successful loop. -/
theorem foldlM_invariant {State : Type v} {Item : Type u} (Inv : State → Prop)
    {turn : State → Item → Except Failure State}
    (keeps : ∀ state item after, Inv state → turn state item = .ok after → Inv after)
    (items : List Item) {state after : State} (holds : Inv state)
    (result : items.foldlM turn state = .ok after) : Inv after :=
  foldlM_invariant_of_mem Inv items (fun item _ state after => keeps state item after) holds result

/-- What the turn of an item reaches, and every turn keeps, is reached for all items at the end of a
successful loop. -/
theorem foldlM_reaches {State : Type v} {Item : Type u} (Reached : Item → State → Prop)
    {turn : State → Item → Except Failure State} :
    ∀ (items : List Item) {state after : State},
      (∀ item ∈ items, ∀ state after, turn state item = .ok after →
        Reached item after ∧ ∀ other, Reached other state → Reached other after) →
      items.foldlM turn state = .ok after → ∀ item ∈ items, Reached item after
  | [], _, _, _, _, item, member => by cases member
  | first :: rest, state, after, turns, result, item, member => by
      obtain ⟨middle, turned, tail⟩ := bind_eq_ok.mp (by simpa only [List.foldlM_cons] using result)
      have turnsRest : ∀ other ∈ rest, ∀ state after, turn state other = .ok after →
          Reached other after ∧ ∀ third, Reached third state → Reached third after :=
        fun other later => turns other (List.mem_cons_of_mem _ later)
      rcases List.mem_cons.mp member with rfl | later
      · exact foldlM_invariant_of_mem (Reached item) rest
          (fun other later state after held turned => (turnsRest other later state after turned).2 _ held)
          (turns item List.mem_cons_self state middle turned).1 tail
      · exact foldlM_reaches Reached rest turnsRest tail item later

/-- A loop over one more item takes its turn at the end. -/
theorem foldlM_concat {State Item : Type} {turn : State → Item → Except Failure State}
    {items : List Item} {item : Item} {first middle last : State}
    (isMiddle : items.foldlM turn first = .ok middle) (isLast : turn middle item = .ok last) :
    (items ++ [item]).foldlM turn first = .ok last := by
  rw [List.foldlM_append]
  refine bind_eq_ok.mpr ⟨middle, isMiddle, ?_⟩
  rw [List.foldlM_cons, isLast]
  rfl

/-- A list of results is made of the results of the turns. -/
theorem mapM_eq_ok {Item : Type u} {turn : Item → Except Failure β} :
    ∀ {items : List Item} {values : List β}, items.mapM turn = .ok values ↔
      List.Forall₂ (fun item value => turn item = .ok value) items values
  | [], values => by
      rw [List.mapM_nil, List.forall₂_nil_left_iff]
      constructor
      · intro equal
        cases equal
        rfl
      · rintro rfl
        rfl
  | item :: rest, values => by
      rw [List.mapM_cons, bind_eq_ok, List.forall₂_cons_left_iff]
      constructor
      · rintro ⟨value, first, rest⟩
        obtain ⟨later, turned, equal⟩ := bind_eq_ok.mp rest
        cases equal
        exact ⟨value, later, first, mapM_eq_ok.mp turned, rfl⟩
      · rintro ⟨value, later, first, turned, rfl⟩
        exact ⟨value, first, bind_eq_ok.mpr ⟨later, mapM_eq_ok.mpr turned, rfl⟩⟩

/-- A failure of a list of computations is the failure of one of them. -/
theorem mapM_eq_error {Item : Type u} {turn : Item → Except Failure β} {items : List Item}
    {failure : Failure} (failed : items.mapM turn = .error failure) :
    ∃ item ∈ items, turn item = .error failure := by
  induction items with
  | nil => cases failed
  | cons item rest hyp =>
      rw [List.mapM_cons] at failed
      rcases bind_eq_error.mp failed with here | ⟨_, _, failed⟩
      · exact ⟨item, List.mem_cons_self, here⟩
      · rcases bind_eq_error.mp failed with later | ⟨_, _, failed⟩
        · obtain ⟨other, member, found⟩ := hyp later
          exact ⟨other, List.mem_cons_of_mem _ member, found⟩
        · cases failed

/-- The same for turns that may have no result. -/
theorem mapM_eq_some {Item : Type u} {turn : Item → Option β} :
    ∀ {items : List Item} {values : List β}, items.mapM turn = some values ↔
      List.Forall₂ (fun item value => turn item = some value) items values
  | [], values => by
      rw [List.mapM_nil, List.forall₂_nil_left_iff]
      constructor
      · intro equal
        cases equal
        rfl
      · rintro rfl
        rfl
  | item :: rest, values => by
      rw [List.mapM_cons, Option.bind_eq_bind, Option.bind_eq_some_iff, List.forall₂_cons_left_iff]
      constructor
      · rintro ⟨value, first, rest⟩
        obtain ⟨later, turned, equal⟩ := Option.bind_eq_some_iff.mp rest
        cases equal
        exact ⟨value, later, first, mapM_eq_some.mp turned, rfl⟩
      · rintro ⟨value, later, first, turned, rfl⟩
        exact ⟨value, first, Option.bind_eq_some_iff.mpr ⟨later, mapM_eq_some.mpr turned, rfl⟩⟩

/-- Renaming the failure keeps the result. -/
theorem mapError_eq_ok {Other : Type u} {change : Failure → Other} {result : Except Failure α}
    {value : α} : result.mapError change = .ok value ↔ result = .ok value := by
  cases result with
  | error failure =>
      constructor
      · intro equal
        cases equal
      · intro equal
        cases equal
  | ok found =>
      constructor
      · intro equal
        cases equal
        rfl
      · intro equal
        cases equal
        rfl

/-- Each value of a related list is related to one of the items. -/
theorem mem_of_forall₂ {Item Value : Type} {relation : Item → Value → Prop} {items : List Item}
    {values : List Value} (related : List.Forall₂ relation items values) :
    ∀ value ∈ values, ∃ item ∈ items, relation item value := by
  induction related with
  | nil => simp
  | cons first later hyp =>
      rw [List.forall_mem_cons]
      refine ⟨⟨_, List.mem_cons_self, first⟩, fun value member => ?_⟩
      obtain ⟨item, isItem, holds⟩ := hyp value member
      exact ⟨item, List.mem_cons_of_mem _ isItem, holds⟩

/-- Functions that agree on related items give one list. -/
theorem map_eq_of_forall₂ {Item Value Other : Type} {relation : Item → Value → Prop}
    {first : Item → Other} {second : Value → Other} {items : List Item} {values : List Value}
    (related : List.Forall₂ relation items values)
    (agree : ∀ item value, relation item value → first item = second value) :
    items.map first = values.map second := by
  induction related with
  | nil => rfl
  | cons here _ hyp => rw [List.map_cons, List.map_cons, agree _ _ here, hyp]

/-- What holds between the items of a list holds between what they are related to. -/
theorem pairwise_of_forall₂ {Item Value : Type} {relation : Item → Value → Prop}
    {before : Item → Item → Prop} {after : Value → Value → Prop} {items : List Item}
    {values : List Value} (related : List.Forall₂ relation items values)
    (sorted : items.Pairwise before)
    (carried : ∀ one two first second, relation one first → relation two second →
      before one two → after first second) : values.Pairwise after := by
  induction related with
  | nil => exact .nil
  | cons here later hyp =>
      obtain ⟨least, rest⟩ := List.pairwise_cons.mp sorted
      refine List.pairwise_cons.mpr ⟨fun value member => ?_, hyp rest⟩
      obtain ⟨item, isItem, there⟩ := mem_of_forall₂ later value member
      exact carried _ _ _ _ here there (least item isItem)

/-- Every result of a list is that of one of the items. -/
theorem mem_of_mapM_eq_ok {Item : Type u} {turn : Item → Except Failure β} {items : List Item}
    {values : List β} (mapped : items.mapM turn = .ok values) :
    ∀ value ∈ values, ∃ item ∈ items, turn item = .ok value := by
  intro value member
  induction mapM_eq_ok.mp mapped with
  | nil => cases member
  | @cons item first rest others turned later hyp =>
      rcases List.mem_cons.mp member with rfl | inOthers
      · exact ⟨item, List.mem_cons_self, turned⟩
      · obtain ⟨found, inRest, isTurn⟩ := hyp (mapM_eq_ok.mpr later) inOthers
        exact ⟨found, List.mem_cons_of_mem _ inRest, isTurn⟩

/-- Every item of a list has a result. -/
theorem exists_of_mapM_eq_ok {Item : Type u} {turn : Item → Except Failure β} {items : List Item}
    {values : List β} (mapped : items.mapM turn = .ok values) :
    ∀ item ∈ items, ∃ value ∈ values, turn item = .ok value := by
  intro item member
  induction mapM_eq_ok.mp mapped with
  | nil => cases member
  | @cons first value rest others turned later hyp =>
      rcases List.mem_cons.mp member with rfl | inRest
      · exact ⟨value, List.mem_cons_self, turned⟩
      · obtain ⟨found, inOthers, isTurn⟩ := hyp (mapM_eq_ok.mpr later) inRest
        exact ⟨found, List.mem_cons_of_mem _ inOthers, isTurn⟩

theorem exists_of_mapM_eq_some {Item Value : Type} {turn : Item → Option Value} {items : List Item}
    {values : List Value} (mapped : items.mapM turn = some values) :
    ∀ item ∈ items, ∃ value ∈ values, turn item = some value := by
  intro item member
  induction mapM_eq_some.mp mapped with
  | nil => cases member
  | @cons first value rest others turned later hyp =>
      rcases List.mem_cons.mp member with rfl | inRest
      · exact ⟨value, List.mem_cons_self, turned⟩
      · obtain ⟨found, inOthers, isTurn⟩ := hyp (mapM_eq_some.mpr later) inRest
        exact ⟨found, List.mem_cons_of_mem _ inOthers, isTurn⟩

/-- The results of a list are those that its turns have. -/
theorem toOption_of_mapM {Item : Type u} {turn : Item → Except Failure β} {items : List Item}
    {values : List β} (mapped : items.mapM turn = .ok values) :
    values = items.filterMap fun item => (turn item).toOption := by
  induction mapM_eq_ok.mp mapped with
  | nil => rfl
  | cons turned _ hyp =>
      rw [List.filterMap_cons, turned]
      exact congrArg _ (hyp (mapM_eq_ok.mpr ‹_›))

/-- Turns that agree on the items of a list make the same results. -/
theorem mapM_congr {Effect : Type → Type} [Monad Effect] [LawfulMonad Effect] {Item Value : Type}
    {first second : Item → Effect Value} {items : List Item}
    (agree : ∀ item ∈ items, first item = second item) : items.mapM first = items.mapM second := by
  induction items with
  | nil => rw [List.mapM_nil, List.mapM_nil]
  | cons item rest hyp =>
      rw [List.mapM_cons, List.mapM_cons, agree item List.mem_cons_self,
        hyp fun later member => agree later (List.mem_cons_of_mem _ member)]

/-- A filter that keeps every item. -/
theorem filterM_eq_self {Item : Type} {keeps : Item → Except Failure Bool} {items : List Item}
    (all : ∀ item ∈ items, keeps item = .ok true) : items.filterM keeps = .ok items := by
  have walked : ∀ (items kept : List Item), (∀ item ∈ items, keeps item = .ok true) →
      items.filterAuxM keeps kept = .ok (items.reverse ++ kept) := by
    intro items
    induction items with
    | nil => exact fun kept _ => rfl
    | cons item rest ih =>
        intro kept all
        refine bind_eq_ok.mpr ⟨true, all item List.mem_cons_self, ?_⟩
        rw [List.reverse_cons, List.append_assoc]
        exact ih (item :: kept) fun other member => all other (List.mem_cons_of_mem _ member)
  refine bind_eq_ok.mpr ⟨_, walked items [] all, ?_⟩
  rw [List.append_nil, List.reverse_reverse]
  rfl

/-- Turns that all succeed make a list of results. -/
theorem mapM_isOk {Item : Type u} {turn : Item → Except Failure β} {items : List Item}
    (turns : ∀ item ∈ items, ∃ value, turn item = .ok value) :
    ∃ values, items.mapM turn = .ok values := by
  induction items with
  | nil => exact ⟨[], rfl⟩
  | cons item rest hyp =>
      obtain ⟨value, first⟩ := turns item List.mem_cons_self
      obtain ⟨values, mapped⟩ := hyp fun later member => turns later (List.mem_cons_of_mem _ member)
      exact ⟨value :: values, mapM_eq_ok.mpr (.cons first (mapM_eq_ok.mp mapped))⟩

theorem mapM_isSome {Item : Type u} {turn : Item → Option β} {items : List Item}
    (turns : ∀ item ∈ items, ∃ value, turn item = some value) :
    ∃ values, items.mapM turn = some values := by
  induction items with
  | nil => exact ⟨[], rfl⟩
  | cons item rest hyp =>
      obtain ⟨value, first⟩ := turns item List.mem_cons_self
      obtain ⟨values, mapped⟩ := hyp fun later member => turns later (List.mem_cons_of_mem _ member)
      exact ⟨value :: values, mapM_eq_some.mpr (.cons first (mapM_eq_some.mp mapped))⟩

/-- The items whose test holds, tested in order. -/
def select {Item : Type v} (test : Item → Except Failure Bool) : List Item → Except Failure (List Item)
  | [] => .ok []
  | item :: rest =>
      match test item with
      | .error failure => .error failure
      | .ok keep =>
          match select test rest with
          | .error failure => .error failure
          | .ok kept => .ok (if keep then item :: kept else kept)

/-- Tests that do not fail select some of the items. -/
theorem select_isOk {Item : Type v} {test : Item → Except Failure Bool} :
    ∀ {items : List Item}, (∀ item ∈ items, ∃ keep, test item = .ok keep) →
      ∃ kept, select test items = .ok kept ∧ ∀ item ∈ kept, item ∈ items
  | [], _ => ⟨[], rfl, fun _ member => member⟩
  | item :: rest, decided => by
      obtain ⟨keep, tested⟩ := decided item List.mem_cons_self
      have decidedRest : ∀ later ∈ rest, ∃ keep, test later = .ok keep :=
        fun later member => decided later (List.mem_cons_of_mem _ member)
      obtain ⟨kept, selected, inside⟩ := select_isOk decidedRest
      cases keep with
      | true =>
          refine ⟨item :: kept, by simp [select, tested, selected], fun other member => ?_⟩
          rcases List.mem_cons.mp member with rfl | later
          · exact List.mem_cons_self
          · exact List.mem_cons_of_mem _ (inside other later)
      | false =>
          exact ⟨kept, by simp [select, tested, selected],
            fun other member => List.mem_cons_of_mem _ (inside other member)⟩

/-- What is selected are the items whose test holds; every test succeeded. -/
theorem mem_select {Item : Type v} {test : Item → Except Failure Bool} :
    ∀ {items kept : List Item}, select test items = .ok kept → ∀ item,
      (item ∈ kept ↔ item ∈ items ∧ test item = .ok true) ∧
        (item ∈ items → ∃ keep, test item = .ok keep)
  | [], kept, selected, item => by
      cases selected
      simp
  | first :: rest, kept, selected, item => by
      rw [select] at selected
      cases tested : test first with
      | error failure =>
          rw [tested] at selected
          cases selected
      | ok keep =>
          rw [tested] at selected
          cases later : select test rest with
          | error failure =>
              rw [later] at selected
              cases selected
          | ok others =>
              rw [later] at selected
              cases selected
              have hyp := mem_select later item
              cases keep <;> grind

end Checked
