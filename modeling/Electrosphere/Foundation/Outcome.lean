import Mathlib.Init

/-!
# Computations that may fail

A sequence of steps succeeds exactly when each of its steps does.
-/

namespace Foundation

section Outcome

variable {ε α β : Type}

theorem bind_eq_ok_iff {first : Except ε α} {later : α → Except ε β}
    {result : β} :
    first >>= later = .ok result ↔
      ∃ middle, first = .ok middle ∧ later middle = .ok result := by
  cases first with
  | error thrown => simp [bind, Except.bind]
  | ok middle => simp [bind, Except.bind]

theorem pure_eq_ok_iff {value result : α} :
    (pure value : Except ε α) = .ok result ↔ value = result := by
  simp [pure, Except.pure]

/-- A failure that guards what follows. -/
theorem guard_eq_ok_iff {condition : Prop} [Decidable condition] {thrown : ε}
    {later : Except ε α} {result : α} :
    (if condition then .error thrown else later) = .ok result ↔
      ¬ condition ∧ later = .ok result := by
  split <;> simp_all

end Outcome

end Foundation
