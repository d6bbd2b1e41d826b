import Mathlib.Logic.Basic

/-!
# Programs over a state that may raise

A program reads and writes a state and returns a value or raises. What it wrote before it
raised stays written: there is no transaction around it. `exec` runs a program from a state.

`Ends program state post` says that the program returns from the state and that `post` holds
of the value and the state it leaves. The rules take a program apart as it is written:
`ends_pure`, `ends_bind`, `ends_get`, `ends_set`, `ends_lift` for a computation without state,
and `ends_foldlM` for a loop, whose invariant speaks of the items still to come. `Settles` is
the same for a program that may also refuse: raise before it wrote anything.

`Yields program state post` is the partial form: if the program returns, `post` holds. It needs
no reason why the program does not raise, and it adds to what `Ends` says (`Ends.and_yields`).

`Leaves program state post` speaks of every end: `post` holds of what the program returns or
raises and of the state it leaves.
-/

set_option autoImplicit false

/-- Programs over `State` that may raise a `Failure`. -/
abbrev Program (State Failure : Type) : Type → Type := ExceptT Failure (StateM State)

namespace Program

variable {State Failure α β : Type}

/-- What the program returns or raises, and the state it leaves. -/
def exec (program : Program State Failure α) (state : State) : Except Failure α × State :=
  StateT.run (ExceptT.run program) state

/-- A computation without state, as a program. -/
def lift : Except Failure α → Program State Failure α
  | .ok value => pure value
  | .error failure => throw failure

/-- The program returns from `state`, with `post` of the value and of the state it leaves. -/
def Ends (program : Program State Failure α) (state : State) (post : α → State → Prop) : Prop :=
  ∃ value after, program.exec state = (.ok value, after) ∧ post value after

/-- The program raises an expected failure from `state` and leaves the state as it was, or it
returns with `post`. -/
def Settles (expected : Failure → Prop) (program : Program State Failure α) (state : State)
    (post : α → State → Prop) : Prop :=
  (∃ failure, expected failure ∧ program.exec state = (.error failure, state)) ∨
    Ends program state post

section Exec

variable (state : State)

@[simp] theorem exec_pure (value : α) :
    exec (pure value : Program State Failure α) state = (.ok value, state) := rfl

@[simp] theorem exec_get : exec (get : Program State Failure State) state = (.ok state, state) := rfl

@[simp] theorem exec_set (after : State) :
    exec (set after : Program State Failure Unit) state = (.ok (), after) := rfl

@[simp] theorem exec_throw (failure : Failure) :
    exec (throw failure : Program State Failure α) state = (.error failure, state) := rfl

theorem exec_bind (first : Program State Failure α) (second : α → Program State Failure β) :
    exec (first >>= second) state =
      match exec first state with
      | (.ok value, after) => exec (second value) after
      | (.error failure, after) => (.error failure, after) := by
  change StateT.run (ExceptT.run first >>= ExceptT.bindCont second) state = _
  rw [StateT.run_bind]
  unfold exec
  generalize StateT.run (ExceptT.run first) state = ran
  obtain ⟨result, after⟩ := ran
  cases result with
  | ok value => rfl
  | error failure => rfl

@[simp] theorem exec_map (change : α → β) (program : Program State Failure α) :
    exec (change <$> program) state = ((exec program state).1.map change, (exec program state).2) := by
  rw [← bind_pure_comp, exec_bind]
  cases exec program state with
  | mk result after => cases result <;> rfl

end Exec

section Rules

variable {state : State} {post : α → State → Prop} {postβ : β → State → Prop}

theorem ends_pure {value : α} :
    Ends (pure value : Program State Failure α) state post ↔ post value state := by
  constructor
  · rintro ⟨returned, after, equal, holds⟩
    cases equal
    exact holds
  · intro holds
    exact ⟨value, state, rfl, holds⟩

/-- A sequence ends when its first part does and its second part does from there. -/
theorem ends_bind {first : Program State Failure α} {second : α → Program State Failure β} :
    Ends (first >>= second) state postβ ↔
      Ends first state fun value after => Ends (second value) after postβ := by
  constructor
  · rintro ⟨returned, last, equal, holds⟩
    rw [exec_bind] at equal
    cases ran : exec first state with
    | mk result after =>
        rw [ran] at equal
        cases result with
        | ok value => exact ⟨value, after, ran, returned, last, equal, holds⟩
        | error failure => cases equal
  · rintro ⟨value, after, ran, returned, last, equal, holds⟩
    refine ⟨returned, last, ?_, holds⟩
    rw [exec_bind, ran]
    exact equal

theorem ends_get {next : State → State → Prop} :
    Ends (get : Program State Failure State) state next ↔ next state state := by
  constructor
  · rintro ⟨returned, after, equal, holds⟩
    cases equal
    exact holds
  · intro holds
    exact ⟨state, state, rfl, holds⟩

theorem ends_set {after : State} {next : Unit → State → Prop} :
    Ends (set after : Program State Failure Unit) state next ↔ next () after := by
  constructor
  · rintro ⟨returned, left, equal, holds⟩
    cases equal
    exact holds
  · intro holds
    exact ⟨(), after, rfl, holds⟩

theorem ends_lift {computed : Except Failure α} :
    Ends (lift computed : Program State Failure α) state post ↔
      ∃ value, computed = .ok value ∧ post value state := by
  cases computed with
  | ok value =>
      constructor
      · intro ends
        exact ⟨value, rfl, ends_pure.mp ends⟩
      · rintro ⟨other, equal, holds⟩
        cases equal
        exact ends_pure.mpr holds
  | error failure =>
      constructor
      · rintro ⟨returned, after, equal, _⟩
        cases equal
      · rintro ⟨other, equal, _⟩
        cases equal

/-- A weaker postcondition holds as well. -/
theorem Ends.mono {program : Program State Failure α} {weaker : α → State → Prop}
    (ends : Ends program state post) (implies : ∀ value after, post value after → weaker value after) :
    Ends program state weaker := by
  obtain ⟨value, after, ran, holds⟩ := ends
  exact ⟨value, after, ran, implies value after holds⟩

/-- A sequence, from a first part whose postcondition lets the second part end. -/
theorem Ends.bind {first : Program State Failure α} {second : α → Program State Failure β}
    (ends : Ends first state post)
    (next : ∀ value after, post value after → Ends (second value) after postβ) :
    Ends (first >>= second) state postβ :=
  ends_bind.mpr (ends.mono next)

/-- A loop ends with its invariant of no items to come. -/
theorem ends_foldlM {Item : Type} {turn : β → Item → Program State Failure β}
    (Inv : List Item → β → State → Prop)
    (keeps : ∀ item rest value state, Inv (item :: rest) value state →
      Ends (turn value item) state fun next after => Inv rest next after) :
    ∀ (items : List Item) (value : β) (state : State), Inv items value state →
      Ends (items.foldlM turn value) state (Inv [])
  | [], _, _, holds => ends_pure.mpr holds
  | item :: rest, value, state, holds => by
      rw [List.foldlM_cons]
      exact (keeps item rest value state holds).bind
        fun next after holds => ends_foldlM Inv keeps rest next after holds

end Rules

section Refusals

variable {expected : Failure → Prop} {state : State} {post : α → State → Prop}
  {postβ : β → State → Prop}

theorem Ends.settles {program : Program State Failure α} (ends : Ends program state post) :
    Settles expected program state post := .inr ends

theorem settles_throw {failure : Failure} (isExpected : expected failure) :
    Settles expected (throw failure : Program State Failure α) state post :=
  .inl ⟨failure, isExpected, rfl⟩

/-- A check that writes nothing, followed by a program that settles. -/
theorem Settles.bind {first : Program State Failure α} {second : α → Program State Failure β}
    (passed : α → Prop)
    (check : Settles expected first state fun value after => after = state ∧ passed value)
    (next : ∀ value, passed value → Settles expected (second value) state postβ) :
    Settles expected (first >>= second) state postβ := by
  rcases check with ⟨failure, isExpected, ran⟩ | ⟨value, after, ran, same, holds⟩
  · refine .inl ⟨failure, isExpected, ?_⟩
    rw [exec_bind, ran]
  · subst same
    rcases next value holds with ⟨failure, isExpected, raised⟩ | ⟨returned, last, ended, rest⟩
    · refine .inl ⟨failure, isExpected, ?_⟩
      rw [exec_bind, ran]
      exact raised
    · refine .inr ⟨returned, last, ?_, rest⟩
      rw [exec_bind, ran]
      exact ended

theorem Settles.mono {program : Program State Failure α} {weaker : α → State → Prop}
    (settles : Settles expected program state post)
    (implies : ∀ value after, post value after → weaker value after) :
    Settles expected program state weaker :=
  settles.imp id fun ends => ends.mono implies

/-- A program that settles, followed by one that always ends. -/
theorem Settles.then_ends {first : Program State Failure α} {second : α → Program State Failure β}
    (settles : Settles expected first state post)
    (next : ∀ value after, post value after → Ends (second value) after postβ) :
    Settles expected (first >>= second) state postβ := by
  rcases settles with ⟨failure, isExpected, ran⟩ | ends
  · refine .inl ⟨failure, isExpected, ?_⟩
    rw [exec_bind, ran]
  · exact .inr (ends.bind next)

end Refusals

/-! ## Partial correctness -/

/-- If the program returns from `state`, then with `post` of the value and of the state it leaves. -/
def Yields (program : Program State Failure α) (state : State) (post : α → State → Prop) : Prop :=
  ∀ value after, program.exec state = (.ok value, after) → post value after

section Yields

variable {state : State} {post : α → State → Prop} {postβ : β → State → Prop}

theorem yields_pure {value : α} (holds : post value state) :
    Yields (pure value : Program State Failure α) state post := by
  intro returned after equal
  cases equal
  exact holds

theorem yields_throw {failure : Failure} :
    Yields (throw failure : Program State Failure α) state post := by
  intro returned after equal
  cases equal

theorem yields_lift {computed : Except Failure α}
    (holds : ∀ value, computed = .ok value → post value state) :
    Yields (lift computed : Program State Failure α) state post := by
  cases computed with
  | ok value => exact yields_pure (holds value rfl)
  | error failure => exact yields_throw

theorem Yields.bind {first : Program State Failure α} {second : α → Program State Failure β}
    (yields : Yields first state post)
    (next : ∀ value after, post value after → Yields (second value) after postβ) :
    Yields (first >>= second) state postβ := by
  intro returned last equal
  rw [exec_bind] at equal
  cases ran : exec first state with
  | mk result after =>
      rw [ran] at equal
      cases result with
      | ok value => exact next value after (yields value after ran) returned last equal
      | error failure => cases equal

theorem yields_set {after : State} {next : Unit → State → Prop} (holds : next () after) :
    Yields (set after : Program State Failure Unit) state next := by
  intro returned left equal
  cases equal
  exact holds

theorem yields_get_bind {second : State → Program State Failure β}
    (yields : Yields (second state) state postβ) :
    Yields ((get : Program State Failure State) >>= second) state postβ := by
  intro returned last equal
  rw [exec_bind, exec_get] at equal
  exact yields returned last equal

theorem yields_set_bind {written : State} {second : Unit → Program State Failure β}
    (yields : Yields (second ()) written postβ) :
    Yields ((set written : Program State Failure Unit) >>= second) state postβ := by
  intro returned last equal
  rw [exec_bind, exec_set] at equal
  exact yields returned last equal

theorem Yields.mono {program : Program State Failure α} {weaker : α → State → Prop}
    (yields : Yields program state post)
    (implies : ∀ value after, post value after → weaker value after) :
    Yields program state weaker :=
  fun value after ran => implies value after (yields value after ran)

theorem yields_any (program : Program State Failure α) (state : State) :
    Yields program state fun _ _ => True :=
  fun _ _ _ => trivial

theorem Yields.and {program : Program State Failure α} {more : α → State → Prop}
    (yields : Yields program state post) (others : Yields program state more) :
    Yields program state fun value after => post value after ∧ more value after :=
  fun value after ran => ⟨yields value after ran, others value after ran⟩

/-- A loop keeps an invariant that the turn of each of its items keeps. -/
theorem yields_foldlM_of_mem {Item : Type} {turn : β → Item → Program State Failure β}
    (Inv : β → State → Prop) :
    ∀ (items : List Item) (value : β) (state : State),
      (∀ item ∈ items, ∀ value state, Inv value state → Yields (turn value item) state Inv) →
      Inv value state → Yields (items.foldlM turn value) state Inv
  | [], _, _, _, holds => yields_pure holds
  | item :: rest, value, state, keeps, holds => by
      rw [List.foldlM_cons]
      exact (keeps item List.mem_cons_self value state holds).bind fun next after holds =>
        yields_foldlM_of_mem Inv rest next after
          (fun later member => keeps later (List.mem_cons_of_mem _ member)) holds

/-- A loop keeps its invariant. -/
theorem yields_foldlM {Item : Type} {turn : β → Item → Program State Failure β}
    (Inv : β → State → Prop)
    (keeps : ∀ item value state, Inv value state → Yields (turn value item) state Inv)
    (items : List Item) (value : β) (state : State) (holds : Inv value state) :
    Yields (items.foldlM turn value) state Inv :=
  yields_foldlM_of_mem Inv items value state (fun item _ => keeps item) holds

/-- A program has one end. -/
theorem Ends.yields {program : Program State Failure α} (ends : Ends program state post) :
    Yields program state post := by
  obtain ⟨value, after, ran, holds⟩ := ends
  intro returned last equal
  cases ran.symm.trans equal
  exact holds

/-- A program that only refuses otherwise. -/
theorem Settles.yields {program : Program State Failure α} {expected : Failure → Prop}
    (settles : Settles expected program state post) : Yields program state post := by
  rcases settles with ⟨failure, _, ran⟩ | ends
  · intro returned last equal
    cases ran.symm.trans equal
  · exact ends.yields

theorem Ends.and_yields {program : Program State Failure α} {more : α → State → Prop}
    (ends : Ends program state post) (yields : Yields program state more) :
    Ends program state fun value after => post value after ∧ more value after := by
  obtain ⟨value, after, ran, holds⟩ := ends
  exact ⟨value, after, ran, holds, yields value after ran⟩

theorem Settles.and_yields {program : Program State Failure α} {expected : Failure → Prop}
    {more : α → State → Prop} (settles : Settles expected program state post)
    (yields : Yields program state more) :
    Settles expected program state fun value after => post value after ∧ more value after :=
  settles.imp id fun ends => ends.and_yields yields

end Yields

/-! ## Every end -/

/-- `post` holds of what the program returns or raises from `state` and of what it leaves. -/
def Leaves (program : Program State Failure α) (state : State)
    (post : Except Failure α → State → Prop) : Prop :=
  post (program.exec state).1 (program.exec state).2

section Leaves

variable {state : State} {post : Except Failure α → State → Prop}
  {postβ : Except Failure β → State → Prop}

theorem leaves_pure {value : α} (holds : post (.ok value) state) :
    Leaves (pure value : Program State Failure α) state post := holds

theorem leaves_lift {computed : Except Failure α} (holds : post computed state) :
    Leaves (lift computed : Program State Failure α) state post := by
  cases computed with
  | ok value => exact holds
  | error failure => exact holds

theorem Leaves.bind {first : Program State Failure α} {second : α → Program State Failure β}
    (leaves : Leaves first state post)
    (returned : ∀ value after, post (.ok value) after → Leaves (second value) after postβ)
    (raised : ∀ failure after, post (.error failure) after → postβ (.error failure) after) :
    Leaves (first >>= second) state postβ := by
  unfold Leaves at leaves ⊢
  rw [exec_bind]
  cases ran : exec first state with
  | mk result after =>
      rw [ran] at leaves
      cases result with
      | ok value => exact returned value after leaves
      | error failure => exact raised failure after leaves

theorem leaves_lift_bind {computed : Except Failure α} {second : α → Program State Failure β}
    (returned : ∀ value, computed = .ok value → Leaves (second value) state postβ)
    (raised : ∀ failure, postβ (.error failure) state) :
    Leaves (lift computed >>= second) state postβ := by
  unfold Leaves
  rw [exec_bind]
  cases computed with
  | ok value => exact returned value rfl
  | error failure => exact raised failure

theorem leaves_pure_bind {value : α} {second : α → Program State Failure β}
    (leaves : Leaves (second value) state postβ) :
    Leaves ((pure value : Program State Failure α) >>= second) state postβ := by
  rw [pure_bind]
  exact leaves

theorem leaves_get_bind {second : State → Program State Failure β}
    (leaves : Leaves (second state) state postβ) :
    Leaves ((get : Program State Failure State) >>= second) state postβ := by
  unfold Leaves
  rw [exec_bind, exec_get]
  exact leaves

theorem leaves_set_bind {written : State} {second : Unit → Program State Failure β}
    (leaves : Leaves (second ()) written postβ) :
    Leaves ((set written : Program State Failure Unit) >>= second) state postβ := by
  unfold Leaves
  rw [exec_bind, exec_set]
  exact leaves

theorem Leaves.mono {program : Program State Failure α} {weaker : Except Failure α → State → Prop}
    (leaves : Leaves program state post) (implies : ∀ result after, post result after →
      weaker result after) : Leaves program state weaker :=
  implies _ _ leaves

end Leaves

end Program
