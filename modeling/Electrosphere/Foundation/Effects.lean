import Mathlib.Init

/-!
# Effects that may fail

A computation changes a state and yields a value or an error.  An error ends
it and keeps what has happened to the state so far, until a handler takes
over.
-/

namespace Foundation

def Effect (σ ε α : Type) : Type := σ → Except ε α × σ

namespace Effect

variable {σ ε α β : Type}

instance monadEffect : Monad (Effect σ ε) where
  pure value state := (.ok value, state)
  bind first later state :=
    match first state with
    | (.ok value, state) => later value state
    | (.error error, state) => (.error error, state)

def fail (error : ε) : Effect σ ε α := fun state => (.error error, state)

/-- An answer that leaves the state alone. -/
def ofExcept (answer : Except ε α) : Effect σ ε α :=
  fun state => (answer, state)

/-- A change of the state; a failing one changes nothing. -/
def change (operation : σ → Except ε σ) : Effect σ ε Unit := fun state =>
  match operation state with
  | .ok later => (.ok (), later)
  | .error error => (.error error, state)

def handle (body : Effect σ ε α) (handler : ε → Effect σ ε α) :
    Effect σ ε α := fun state =>
  match body state with
  | (.ok value, later) => (.ok value, later)
  | (.error error, later) => handler error later

section Runs

variable {state : σ}

theorem run_bind (first : Effect σ ε α) (later : α → Effect σ ε β) :
    (first >>= later) state =
      match first state with
      | (.ok value, state) => later value state
      | (.error error, state) => (.error error, state) := rfl

theorem run_bind_of_ok {first : Effect σ ε α} {later : α → Effect σ ε β}
    {value : α} {next : σ} (isFirst : first state = (.ok value, next)) :
    (first >>= later) state = later value next := by
  rw [run_bind, isFirst]

/-- A sequence succeeds exactly when its parts do. -/
theorem run_bind_eq_ok_iff {first : Effect σ ε α} {later : α → Effect σ ε β}
    {result : β} {last : σ} :
    (first >>= later) state = (.ok result, last) ↔
      ∃ value next, first state = (.ok value, next) ∧
        later value next = (.ok result, last) := by
  constructor
  · intro ran
    rw [run_bind] at ran
    split at ran
    · next value next isFirst => exact ⟨value, next, isFirst, ran⟩
    · cases ran
  · rintro ⟨value, next, isFirst, rest⟩
    rw [run_bind_of_ok isFirst, rest]

/-- Steps may be grouped either way. -/
instance lawfulEffect : LawfulMonad (Effect σ ε) :=
  LawfulMonad.mk' _
    (by
      intro α action
      funext state
      change (action >>= fun value => pure value) state = action state
      rw [run_bind]
      rcases action state with ⟨_ | value, later⟩
      · rfl
      · rfl)
    (fun _ _ => rfl)
    (by
      intro α β γ action first second
      funext state
      rw [run_bind, run_bind, run_bind]
      rcases action state with ⟨_ | value, later⟩
      · rfl
      · rfl)

theorem run_change_eq_ok_iff {operation : σ → Except ε σ} {later : σ} :
    change operation state = (.ok (), later) ↔ operation state = .ok later := by
  rw [change]
  split
  · next next isNext => simp [isNext]
  · next error isError => simp [isError]

end Runs

/-! ## Triples -/

/-- Started where the precondition holds, a computation meets the first
postcondition if it succeeds and the second if it fails. -/
def Ensures (pre : σ → Prop) (action : Effect σ ε α) (done : α → σ → Prop)
    (failed : ε → σ → Prop) : Prop :=
  ∀ state, pre state →
    (∀ value later, action state = (.ok value, later) → done value later) ∧
      ∀ error later, action state = (.error error, later) → failed error later

section Rules

variable {pre : σ → Prop} {action body : Effect σ ε α}
  {done : α → σ → Prop} {failed : ε → σ → Prop}

theorem ensures_pure {value : α} (holds : ∀ state, pre state → done value state) :
    Ensures pre (pure value) done failed := by
  intro state isPre
  constructor
  · intro result later same
    cases same
    exact holds state isPre
  · intro error later same
    cases same

theorem ensures_fail {error : ε} (holds : ∀ state, pre state → failed error state) :
    Ensures pre (fail error : Effect σ ε α) done failed := by
  intro state isPre
  constructor
  · intro result later same
    cases same
  · intro error later same
    cases same
    exact holds state isPre

theorem ensures_ofExcept {answer : Except ε α}
    (isOk : ∀ value, answer = .ok value → ∀ state, pre state → done value state)
    (isError : ∀ error, answer = .error error →
      ∀ state, pre state → failed error state) :
    Ensures pre (ofExcept answer) done failed := by
  intro state isPre
  constructor
  · intro value later same
    cases answer with
    | ok result =>
        cases same
        exact isOk _ rfl state isPre
    | error error => cases same
  · intro error later same
    cases answer with
    | ok result => cases same
    | error error =>
        cases same
        exact isError _ rfl state isPre

theorem ensures_change {operation : σ → Except ε σ} {done : Unit → σ → Prop}
    (isOk : ∀ state, pre state → ∀ later, operation state = .ok later →
      done () later)
    (isError : ∀ state, pre state → ∀ error, operation state = .error error →
      failed error state) :
    Ensures pre (change operation) done failed := by
  intro state isPre
  rw [change]
  cases answer : operation state with
  | ok next =>
      constructor
      · intro value later same
        cases same
        exact isOk state isPre _ answer
      · intro error later same
        cases same
  | error thrown =>
      constructor
      · intro value later same
        cases same
      · intro error later same
        cases same
        exact isError state isPre _ answer

theorem ensures_bind (middle : α → σ → Prop) {later : α → Effect σ ε β}
    {last : β → σ → Prop}
    (first : Ensures pre action middle failed)
    (rest : ∀ value, Ensures (middle value) (later value) last failed) :
    Ensures pre (action >>= later) last failed := by
  intro state isPre
  obtain ⟨isDone, isFailed⟩ := first state isPre
  rw [run_bind]
  cases result : action state with
  | mk answer next =>
      cases answer with
      | ok value => exact rest value next (isDone value next result)
      | error error =>
          constructor
          · intro value last same
            cases same
          · intro other last same
            cases same
            exact isFailed error next result

theorem ensures_handle (broken : ε → σ → Prop) {handler : ε → Effect σ ε α}
    (first : Ensures pre body done broken)
    (rest : ∀ error, Ensures (broken error) (handler error) done failed) :
    Ensures pre (handle body handler) done failed := by
  intro state isPre
  obtain ⟨isDone, isBroken⟩ := first state isPre
  rw [handle]
  cases result : body state with
  | mk answer next =>
      cases answer with
      | ok value =>
          constructor
          · intro other later same
            cases same
            exact isDone value next result
          · intro error later same
            cases same
      | error error => exact rest error next (isBroken error next result)

/-- A computation that succeeds meets every postcondition of failures. -/
theorem ensures_of_ok (succeeds : ∀ state, pre state → ∃ value later,
    action state = (.ok value, later) ∧ done value later) :
    Ensures pre action done failed := by
  intro state isPre
  obtain ⟨value, later, ran, isDone⟩ := succeeds state isPre
  constructor
  · intro other last same
    cases ran.symm.trans same
    exact isDone
  · intro error last same
    cases ran.symm.trans same

theorem ensures_of_and {fact : Prop} (ensures : fact → Ensures pre action done failed) :
    Ensures (fun state => fact ∧ pre state) action done failed :=
  fun state both => ensures both.1 state both.2

theorem ensures_of_exists {ι : Type} {pre : ι → σ → Prop}
    (ensures : ∀ index, Ensures (pre index) action done failed) :
    Ensures (fun state => ∃ index, pre index state) action done failed :=
  fun state ⟨index, isPre⟩ => ensures index state isPre

theorem Ensures.mono {stronger : σ → Prop} {weaker : α → σ → Prop}
    {broken : ε → σ → Prop} (ensures : Ensures pre action done failed)
    (before : ∀ state, stronger state → pre state)
    (after : ∀ value state, done value state → weaker value state)
    (otherwise : ∀ error state, failed error state → broken error state) :
    Ensures stronger action weaker broken := by
  intro state isPre
  obtain ⟨isDone, isFailed⟩ := ensures state (before state isPre)
  constructor
  · intro value later same
    exact after value later (isDone value later same)
  · intro error later same
    exact otherwise error later (isFailed error later same)

end Rules

/-! ## Computations that succeed -/

/-- Started where the precondition holds, a computation yields the value. -/
def Succeeds (pre : σ → Prop) (action : Effect σ ε α) (value : α) : Prop :=
  ∀ state, pre state → ∃ later, action state = (.ok value, later)

section Success

variable {pre : σ → Prop} {action : Effect σ ε α} {value : α}
  {failed : ε → σ → Prop}

theorem succeeds_pure : Succeeds pre (pure value : Effect σ ε α) value :=
  fun state _ => ⟨state, rfl⟩

theorem succeeds_change {operation : σ → Except ε σ}
    (isOk : ∀ state, pre state → ∃ later, operation state = .ok later) :
    Succeeds pre (change operation) () := by
  intro state isPre
  obtain ⟨later, isLater⟩ := isOk state isPre
  exact ⟨later, run_change_eq_ok_iff.mpr isLater⟩

/-- What the first computation ensures is where the second starts. -/
theorem Succeeds.bind {middle : α → σ → Prop} {later : α → Effect σ ε β}
    {result : β} (succeeds : Succeeds pre action value)
    (ensures : Ensures pre action middle failed)
    (rest : Succeeds (middle value) (later value) result) :
    Succeeds pre (action >>= later) result := by
  intro state isPre
  obtain ⟨next, ran⟩ := succeeds state isPre
  have isMiddle := (ensures state isPre).1 value next ran
  obtain ⟨last, ranLater⟩ := rest next isMiddle
  exact ⟨last, by rw [run_bind_of_ok ran, ranLater]⟩

theorem Succeeds.mono {stronger : σ → Prop}
    (succeeds : Succeeds pre action value)
    (before : ∀ state, stronger state → pre state) :
    Succeeds stronger action value :=
  fun state isPre => succeeds state (before state isPre)

/-- A handler does not matter to a computation that succeeds. -/
theorem Succeeds.handle {handler : ε → Effect σ ε α}
    (succeeds : Succeeds pre action value) :
    Succeeds pre (handle action handler) value := by
  intro state isPre
  obtain ⟨later, ran⟩ := succeeds state isPre
  refine ⟨later, ?_⟩
  rw [Effect.handle, ran]

theorem succeeds_of_exists {ι : Type} {pre : ι → σ → Prop}
    (succeeds : ∀ index, Succeeds (pre index) action value) :
    Succeeds (fun state => ∃ index, pre index state) action value :=
  fun state ⟨index, isPre⟩ => succeeds index state isPre

theorem succeeds_of_and {fact : Prop}
    (succeeds : fact → Succeeds pre action value) :
    Succeeds (fun state => fact ∧ pre state) action value :=
  fun state both => succeeds both.1 state both.2

/-- A computation whose failure is impossible succeeds. -/
theorem Ensures.succeeds {action : Effect σ ε Unit} {done : Unit → σ → Prop}
    (ensures : Ensures pre action done fun _ _ => False) :
    Succeeds pre action () := by
  intro state isPre
  cases result : action state with
  | mk answer later =>
      cases answer with
      | ok value => exact ⟨later, rfl⟩
      | error error => exact ((ensures state isPre).2 error later result).elim

end Success

end Effect

end Foundation
