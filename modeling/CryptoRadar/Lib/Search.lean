import CryptoRadar.Lib.Checked

/-!
# Searches that may fail

Two loops of programs that look something up item by item. A search for the first finding
(`List.findSomeM?`) stops at the item that has one, so what it finds among some items it finds
among more (`findSomeM?_append`), and it finds nothing only when no item has anything
(`findSomeM?_eq_none`).

A collecting loop goes through all items: it passes over those nobody asked for and keeps what it
finds of the others (`Collects`). Everything it keeps was found of an item (`Collects.sound`), and
of an item that was asked for it keeps what there is to find (`Collects.complete`).
-/

set_option autoImplicit false

namespace Search

open Checked

universe u

variable {Failure Item Found : Type u}

/-! ## The first finding -/

section First

variable {look : Item → Except Failure (Option Found)} {found : Found}

theorem findSomeM?_cons {item : Item} {rest : List Item} {result : Option Found} :
    (item :: rest).findSomeM? look = .ok result ↔ ∃ here, look item = .ok here ∧
      here.elim (rest.findSomeM? look) (fun found => .ok (some found)) = .ok result := by
  rw [List.findSomeM?_cons, bind_eq_ok]
  refine exists_congr fun here => and_congr_right fun _ => ?_
  cases here <;> rfl

theorem findSomeM?_append {first : List Item} (finds : first.findSomeM? look = .ok (some found))
    (second : List Item) : (first ++ second).findSomeM? look = .ok (some found) := by
  induction first with
  | nil => cases finds
  | cons item rest hyp =>
      obtain ⟨here, isHere, finds⟩ := findSomeM?_cons.mp finds
      refine findSomeM?_cons.mpr ⟨here, isHere, ?_⟩
      cases here with
      | some _ => exact finds
      | none => exact hyp finds

/-- What is found is found of an item. -/
theorem findSomeM?_eq_some {items : List Item} (finds : items.findSomeM? look = .ok (some found)) :
    ∃ item ∈ items, look item = .ok (some found) := by
  induction items with
  | nil => cases finds
  | cons item rest hyp =>
      obtain ⟨here, isHere, finds⟩ := findSomeM?_cons.mp finds
      cases here with
      | some _ =>
          cases finds
          exact ⟨item, List.mem_cons_self, isHere⟩
      | none =>
          obtain ⟨other, member, isFound⟩ := hyp finds
          exact ⟨other, List.mem_cons_of_mem _ member, isFound⟩

theorem findSomeM?_eq_none {items : List Item} :
    items.findSomeM? look = .ok none ↔ ∀ item ∈ items, look item = .ok none := by
  induction items with
  | nil => exact iff_of_true rfl (by simp)
  | cons item rest hyp =>
      rw [findSomeM?_cons, List.forall_mem_cons, ← hyp]
      constructor
      · rintro ⟨here, isHere, others⟩
        cases here with
        | some _ => cases others
        | none => exact ⟨isHere, others⟩
      · rintro ⟨isHere, others⟩
        exact ⟨none, isHere, others⟩

end First

/-! ## All findings -/

section All

variable {Plan : Type u} {find : Item → Except Failure (Option Found)} {wants : Item → Prop}
  {kept : Plan → List Found} {turn : Plan → Item → Except Failure Plan} {items : List Item}
  {plan after : Plan}

/-- A turn of a loop keeps what it finds of its item; it keeps nothing of an item that nobody asks
for, or of which there is nothing to find. -/
structure Collects (find : Item → Except Failure (Option Found)) (wants : Item → Prop)
    (kept : Plan → List Found) (turn : Plan → Item → Except Failure Plan) : Prop where
  turned {plan after : Plan} {item : Item} (result : turn plan item = .ok after) :
    (kept after = kept plan ∧ (wants item → find item = .ok none)) ∨
    ∃ found, find item = .ok (some found) ∧ kept after = kept plan ++ [found]

/-- A turn that passes over some items, adds what it finds of the others, and may note that there
is nothing to find. -/
def collect (passes : Item → Bool) (find : Item → Except Failure (Option Found))
    (add : Plan → Found → Plan) (note : Plan → Item → Plan) (plan : Plan) (item : Item) :
    Except Failure Plan :=
  if passes item then .ok plan
  else find item >>= fun found => .ok (found.elim (note plan item) (add plan))

theorem collect_collects {passes : Item → Bool} {add : Plan → Found → Plan}
    {note : Plan → Item → Plan} (asked : ∀ item, wants item → passes item = false)
    (adds : ∀ plan found, kept (add plan found) = kept plan ++ [found])
    (notes : ∀ plan item, kept (note plan item) = kept plan) :
    Collects find wants kept (collect passes find add note) := by
  constructor
  intro plan after item turned
  unfold collect at turned
  split at turned
  next passed =>
    cases turned
    refine .inl ⟨rfl, fun wanted => ?_⟩
    rw [asked item wanted] at passed
    cases passed
  next =>
    obtain ⟨found, isFound, turned⟩ := bind_eq_ok.mp turned
    cases turned
    cases found with
    | some found => exact .inr ⟨found, isFound, adds plan found⟩
    | none => exact .inl ⟨notes plan item, fun _ => isFound⟩

theorem Collects.sound (collects : Collects find wants kept turn) (nothing : kept plan = [])
    (looped : items.foldlM turn plan = .ok after) :
    ∀ found ∈ kept after, ∃ item ∈ items, find item = .ok (some found) := by
  refine foldlM_invariant_of_mem
    (fun plan => ∀ found ∈ kept plan, ∃ item ∈ items, find item = .ok (some found)) items ?_
    (by simp [nothing]) looped
  intro item isItem plan after sound turned found member
  rcases collects.turned turned with ⟨same, _⟩ | ⟨other, isFound, more⟩
  · exact sound found (same ▸ member)
  · rw [more] at member
    rcases List.mem_append.mp member with old | new
    · exact sound found old
    · cases List.mem_singleton.mp new
      exact ⟨item, isItem, isFound⟩

theorem Collects.complete (collects : Collects find wants kept turn)
    (looped : items.foldlM turn plan = .ok after) : ∀ item ∈ items, wants item →
      find item = .ok none ∨ ∃ found ∈ kept after, find item = .ok (some found) := by
  refine foldlM_reaches (fun item plan => wants item →
    find item = .ok none ∨ ∃ found ∈ kept plan, find item = .ok (some found)) items
    (fun item _ plan after turned => ⟨fun wanted => ?_, fun other reached wanted => ?_⟩) looped
  · rcases collects.turned turned with ⟨_, nothing⟩ | ⟨found, isFound, more⟩
    · exact .inl (nothing wanted)
    · exact .inr ⟨found, more ▸ List.mem_append_right _ List.mem_cons_self, isFound⟩
  · rcases reached wanted with none | ⟨found, member, isFound⟩
    · exact .inl none
    · refine .inr ⟨found, ?_, isFound⟩
      rcases collects.turned turned with ⟨same, _⟩ | ⟨_, _, more⟩
      · exact same ▸ member
      · exact more ▸ List.mem_append_left _ member

end All

end Search
