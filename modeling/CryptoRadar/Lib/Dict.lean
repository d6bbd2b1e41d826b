import Mathlib.Data.List.Basic
import Mathlib.Data.List.Induction
import Mathlib.Data.List.Nodup

/-!
# Dictionaries in insertion order

A dictionary is the list of its items, oldest first, with distinct keys. `assign` replaces
the value of a key where it stands, or adds the item after the last one; `erase` removes a
key.

The items of a dictionary with distinct keys are found by their keys (`get?_eq_some_iff`),
and a dictionary whose items are read off another one, each under a key of its own, is
changed like it (`erase_map`): that is how an index of a dictionary stays exact.
-/

set_option autoImplicit false

universe u v w

abbrev Dict (Key : Type u) (Value : Type v) := List (Key × Value)

namespace Dict

variable {Key : Type u} {Value : Type v} {Other : Type w} [DecidableEq Key] [DecidableEq Other]

/-- No key has two items. -/
def Distinct (dict : Dict Key Value) : Prop := (dict.map Prod.fst).Nodup

def get? (dict : Dict Key Value) (key : Key) : Option Value :=
  (dict.find? fun item => item.1 = key).map Prod.snd

/-- Replace the value of the key where it stands, or add an item after the last one. -/
def assign (dict : Dict Key Value) (key : Key) (value : Value) : Dict Key Value :=
  if (dict.get? key).isSome then dict.map fun item => if item.1 = key then (key, value) else item
  else dict ++ [(key, value)]

/-- The dictionary of the items, a later one replacing an earlier one of its key. -/
def ofItems (items : List (Key × Value)) : Dict Key Value :=
  items.foldl (fun dict item => dict.assign item.1 item.2) []

def erase (dict : Dict Key Value) (key : Key) : Dict Key Value :=
  dict.filter fun item => item.1 ≠ key

theorem get?_eq_none_iff {dict : Dict Key Value} {key : Key} :
    dict.get? key = none ↔ ∀ item ∈ dict, item.1 ≠ key := by
  unfold get?
  rw [Option.map_eq_none_iff, List.find?_eq_none]
  simp

theorem mem_of_get?_eq_some {dict : Dict Key Value} {key : Key} {value : Value}
    (found : dict.get? key = some value) : (key, value) ∈ dict := by
  unfold get? at found
  obtain ⟨item, isFound, rfl⟩ := Option.map_eq_some_iff.mp found
  have same : item.1 = key := by simpa using List.find?_some isFound
  subst same
  exact List.mem_of_find?_eq_some isFound

/-- With distinct keys a key finds exactly its item. -/
theorem get?_eq_some_iff {dict : Dict Key Value} (distinct : dict.Distinct) {key : Key}
    {value : Value} : dict.get? key = some value ↔ (key, value) ∈ dict := by
  constructor
  · exact mem_of_get?_eq_some
  · intro member
    cases found : dict.get? key with
    | none => exact absurd rfl (get?_eq_none_iff.mp found _ member)
    | some other =>
        have same := List.inj_on_of_nodup_map distinct (mem_of_get?_eq_some found) member rfl
        cases same
        rfl

theorem assign_of_get?_eq_none {dict : Dict Key Value} {key : Key} {value : Value}
    (absent : dict.get? key = none) : dict.assign key value = dict ++ [(key, value)] := by
  simp [assign, absent]

theorem get?_cons {dict : Dict Key Value} {item : Key × Value} {key : Key} :
    Dict.get? (item :: dict) key = if item.1 = key then some item.2 else dict.get? key := by
  unfold get?
  rw [List.find?_cons]
  by_cases same : item.1 = key <;> simp [same]

/-- Changing every value changes what a key finds. -/
theorem get?_mapValues {Result : Type w} (dict : Dict Key Value) (change : Value → Result)
    (key : Key) :
    Dict.get? (dict.map fun item => (item.1, change item.2)) key = (dict.get? key).map change := by
  unfold get?
  rw [List.find?_map, Option.map_map, Option.map_map]
  rfl

theorem get?_append (first second : Dict Key Value) (key : Key) :
    Dict.get? (first ++ second) key = (first.get? key).or (second.get? key) := by
  unfold get?
  rw [List.find?_append]
  cases first.find? fun item => item.1 = key <;> rfl

/-- Replacing the value of a key changes what that key finds, and nothing else. -/
theorem get?_replace (dict : Dict Key Value) (key other : Key) (value : Value) :
    Dict.get? (dict.map fun item => if item.1 = key then (key, value) else item) other =
      if key = other then (dict.get? other).map fun _ => value else dict.get? other := by
  induction dict with
  | nil => simp [get?]
  | cons item rest hyp =>
      rw [List.map_cons, get?_cons, get?_cons, hyp]
      by_cases isKey : item.1 = key <;> by_cases isOther : key = other <;> grind

/-- After an assignment the key has the new value, and every other key what it had. -/
theorem get?_assign (dict : Dict Key Value) (key other : Key) (value : Value) :
    (dict.assign key value).get? other = if key = other then some value else dict.get? other := by
  unfold assign
  split
  next present =>
    rw [get?_replace]
    by_cases same : key = other
    · subst same
      obtain ⟨old, found⟩ := Option.isSome_iff_exists.mp present
      simp [found]
    · simp [same]
  next absent =>
    rw [get?_append, get?_cons]
    by_cases same : key = other
    · subst same
      have missing : dict.get? key = none := by simpa using absent
      simp [missing]
    · simp [same, get?]

/-- Some keys get their values in turn, where they have one. -/
def assignAll (value : Key → Option Value) (dict : Dict Key Value) (keys : List Key) :
    Dict Key Value :=
  keys.foldl (fun dict key => (value key).elim dict (dict.assign key)) dict

theorem get?_assignAll (value : Key → Option Value) (keys : List Key) :
    ∀ (dict : Dict Key Value) (key : Key), (dict.assignAll value keys).get? key =
      if key ∈ keys then (value key).or (dict.get? key) else dict.get? key := by
  induction keys with
  | nil => simp [assignAll]
  | cons first rest hyp =>
      intro dict key
      have here : ((value first).elim dict (dict.assign first)).get? key =
          if first = key then (value key).or (dict.get? key) else dict.get? key := by
        cases given : value first with
        | none => split <;> simp_all
        | some held =>
            rw [Option.elim_some, get?_assign]
            split <;> simp_all
      change (assignAll value ((value first).elim dict (dict.assign first)) rest).get? key = _
      rw [hyp, here]
      by_cases same : first = key
      · subst same
        simp [← Option.or_assoc]
      · simp [same, Ne.symm same]

/-- The items after an assignment are those before it and the new one. -/
theorem mem_assign {dict : Dict Key Value} {key : Key} {value : Value} {item : Key × Value}
    (member : item ∈ dict.assign key value) : item ∈ dict ∨ item = (key, value) := by
  unfold assign at member
  split at member
  next =>
    obtain ⟨old, isOld, rfl⟩ := List.mem_map.mp member
    split
    next => exact .inr rfl
    next => exact .inl isOld
  next => simpa using member

theorem Distinct.assign {dict : Dict Key Value} (distinct : dict.Distinct) (key : Key)
    (value : Value) : (dict.assign key value).Distinct := by
  unfold Dict.assign
  split
  next =>
    have same : (dict.map fun item => if item.1 = key then (key, value) else item).map Prod.fst =
        dict.map Prod.fst := by
      rw [List.map_map]
      refine List.map_congr_left fun item _ => ?_
      by_cases isKey : item.1 = key <;> simp [isKey]
    unfold Distinct
    rwa [same]
  next absent =>
    have new : key ∉ dict.map Prod.fst := by
      intro known
      obtain ⟨item, member, same⟩ := List.mem_map.mp known
      exact get?_eq_none_iff.mp (by simpa using absent) item member same
    unfold Distinct
    rw [List.map_append, List.nodup_append]
    refine ⟨distinct, List.nodup_singleton _, ?_⟩
    intro other isOther one isOne
    cases List.mem_singleton.mp isOne
    rintro rfl
    exact new isOther

/-- A key finds the last of its items. -/
theorem get?_ofItems (items : List (Key × Value)) (key : Key) :
    (ofItems items).get? key = (items.reverse.find? fun item => item.1 = key).map Prod.snd := by
  induction items using List.reverseRecOn with
  | nil => rfl
  | append_singleton front item hyp =>
      have step : ofItems (front ++ [item]) = (ofItems front).assign item.1 item.2 := by
        simp [ofItems]
      rw [step, get?_assign, hyp, List.reverse_append]
      by_cases same : item.1 = key <;> simp [same]

/-- Of items with distinct keys each is found by its key. -/
theorem get?_ofItems_of_mem {items : Dict Key Value} (distinct : items.Distinct) {key : Key}
    {value : Value} (member : (key, value) ∈ items) : (ofItems items).get? key = some value := by
  have reversed : Dict.Distinct items.reverse := by
    unfold Distinct
    rw [List.map_reverse]
    exact List.nodup_reverse.mpr distinct
  rw [get?_ofItems]
  exact (get?_eq_some_iff reversed).mpr (List.mem_reverse.mpr member)

theorem mem_erase {dict : Dict Key Value} {key : Key} {item : Key × Value} :
    item ∈ dict.erase key ↔ item ∈ dict ∧ item.1 ≠ key := by
  simp [erase, List.mem_filter]

theorem get?_erase (dict : Dict Key Value) (key other : Key) :
    (dict.erase key).get? other = if other = key then none else dict.get? other := by
  induction dict with
  | nil => simp [erase, get?]
  | cons item rest hyp =>
      unfold erase at hyp ⊢
      rw [List.filter_cons, get?_cons]
      by_cases isKey : item.1 = key
      · rw [if_neg (by simp [isKey]), hyp]
        by_cases same : other = key
        · rw [if_pos same, if_pos same]
        · rw [if_neg same, if_neg same, if_neg (isKey ▸ Ne.symm same)]
      · rw [if_pos (by simp [isKey]), get?_cons, hyp]
        by_cases same : other = key
        · rw [if_pos same, if_pos same, if_neg (same ▸ isKey)]
        · rw [if_neg same, if_neg same]

/-- An item and the rest of the dictionary. -/
theorem Distinct.perm_erase {dict : Dict Key Value} (distinct : dict.Distinct) {item : Key × Value}
    (member : item ∈ dict) : dict.Perm (item :: dict.erase item.1) := by
  have rest : (dict.erase item.1).Nodup := (List.Nodup.of_map _ distinct).filter _
  have out : item ∉ dict.erase item.1 := fun inside => (mem_erase.mp inside).2 rfl
  refine (List.perm_ext_iff_of_nodup (List.Nodup.of_map _ distinct)
    (List.nodup_cons.mpr ⟨out, rest⟩)).mpr fun other => ?_
  rw [List.mem_cons, mem_erase]
  constructor
  · intro inside
    by_cases same : other.1 = item.1
    · exact .inl (List.inj_on_of_nodup_map distinct inside member same)
    · exact .inr ⟨inside, same⟩
  · rintro (rfl | inside)
    · exact member
    · exact inside.1

theorem Distinct.erase {dict : Dict Key Value} (distinct : dict.Distinct) (key : Key) :
    (dict.erase key).Distinct :=
  distinct.sublist (List.filter_sublist.map _)

/-- Erasing a key of a dictionary erases the matching key of an index of it: the index has
one item for each item, under a key that only this item has. -/
theorem erase_map {dict : Dict Key Value} {index : Key × Value → Other × Key}
    {key : Key} {other : Other}
    (matching : ∀ item ∈ dict, (index item).1 = other ↔ item.1 = key) :
    Dict.erase (dict.map index) other = (dict.erase key).map index := by
  unfold Dict.erase
  rw [List.filter_map]
  congr 1
  refine List.filter_congr fun item member => ?_
  simp [matching item member]

end Dict
