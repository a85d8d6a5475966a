import Mathlib.Logic.Relation

/-!
# Runs of partial labelled transitions

A system is an executable partial step function.  `run` replays a list of
labels, and `Reachable` collects the states that some run of permitted labels
reaches from a permitted start.  The invariant rules package the induction on
runs once, so that a model only has to discharge its start and its steps.
-/

namespace Foundation

universe u v

variable {σ : Type u} {ε : Type v}

/-- Replay labels from left to right; the run is undefined as soon as one of
the steps is. -/
def run (step : σ → ε → Option σ) : σ → List ε → Option σ
  | state, [] => some state
  | state, label :: labels =>
      (step state label).bind fun next => run step next labels

theorem run_append (step : σ → ε → Option σ) (state : σ)
    (first second : List ε) :
    run step state (first ++ second) =
      (run step state first).bind fun middle => run step middle second := by
  induction first generalizing state with
  | nil => rfl
  | cons label labels induction =>
      rw [List.cons_append, run, run]
      cases step state label with
      | none => rfl
      | some next => exact induction next

/-- States reached from a start by permitted labels. -/
inductive Reachable (step : σ → ε → Option σ) (start : σ → Prop)
    (permitted : ε → Prop) : σ → Prop where
  | start {state : σ} : start state → Reachable step start permitted state
  | step {state next : σ} {label : ε} :
      Reachable step start permitted state → permitted label →
      step state label = some next →
      Reachable step start permitted next

variable {step : σ → ε → Option σ} {start : σ → Prop} {permitted : ε → Prop}

/-- The induction every safety argument needs: a property of the start that
each step preserves holds in every reachable state. -/
theorem Reachable.invariant {property : σ → Prop}
    (initial : ∀ state, start state → property state)
    (preserved : ∀ state label next, property state → permitted label →
      step state label = some next → property next)
    {state : σ} (reached : Reachable step start permitted state) :
    property state := by
  induction reached with
  | start atStart => exact initial _ atStart
  | step _ allowed taken induction =>
      exact preserved _ _ _ induction allowed taken

/-- A step may rely on facts already known of every reachable state. -/
theorem Reachable.invariant_under {known property : σ → Prop}
    (established : ∀ state, Reachable step start permitted state → known state)
    (initial : ∀ state, start state → property state)
    (preserved : ∀ state label next, known state → known next →
      property state → permitted label → step state label = some next →
      property next)
    {state : σ} (reached : Reachable step start permitted state) :
    property state := by
  induction reached with
  | start atStart => exact initial _ atStart
  | step before allowed taken induction =>
      exact preserved _ _ _ (established _ before)
        (established _ (before.step allowed taken)) induction allowed taken

theorem Reachable.of_run {labels : List ε} {state final : σ}
    (reached : Reachable step start permitted state)
    (allowed : ∀ label ∈ labels, permitted label)
    (replay : run step state labels = some final) :
    Reachable step start permitted final := by
  induction labels generalizing state with
  | nil =>
      simp only [run, Option.some.injEq] at replay
      exact replay ▸ reached
  | cons label labels induction =>
      obtain ⟨next, taken, rest⟩ := Option.bind_eq_some_iff.mp replay
      exact induction
        (reached.step (allowed label List.mem_cons_self) taken)
        (fun later member => allowed later (List.mem_cons_of_mem _ member))
        rest

/-- A run whose steps are all in a relation. -/
theorem reflTransGen_of_run {relation : σ → σ → Prop}
    (related : ∀ state label next, step state label = some next →
      relation state next) {labels : List ε} {state final : σ}
    (replay : run step state labels = some final) :
    Relation.ReflTransGen relation state final := by
  induction labels generalizing state with
  | nil =>
      cases replay
      exact .refl
  | cons label labels induction =>
      obtain ⟨next, taken, rest⟩ := Option.bind_eq_some_iff.mp replay
      exact .head (related state label next taken) (induction rest)

section Guarded

variable (guard : σ → ε → Prop) [∀ state label, Decidable (guard state label)]
  (step : σ → ε → Option σ)

/-- A step that is refused where its guard is not met. -/
def guarded (state : σ) (label : ε) : Option σ :=
  if guard state label then step state label else none

variable {guard} {step}

theorem guarded_eq_some_iff {state next : σ} {label : ε} :
    guarded guard step state label = some next ↔
      guard state label ∧ step state label = some next := by
  unfold guarded
  split
  case isTrue met => exact (and_iff_right met).symm
  case isFalse unmet =>
    refine iff_of_false ?_ (fun both => unmet both.1)
    intro isNext
    cases isNext

/-- What guarded steps preserve holds at the end of a guarded run. -/
theorem invariant_of_guarded_run {property : σ → Prop}
    (preserved : ∀ state label next, property state → guard state label →
      step state label = some next → property next)
    {labels : List ε} {state final : σ} (initial : property state)
    (replay : run (guarded guard step) state labels = some final) :
    property final := by
  induction labels generalizing state with
  | nil =>
      cases replay
      exact initial
  | cons label labels induction =>
      obtain ⟨next, taken, rest⟩ := Option.bind_eq_some_iff.mp replay
      obtain ⟨met, moved⟩ := guarded_eq_some_iff.mp taken
      exact induction (preserved state label next initial met moved) rest

end Guarded

end Foundation
