import Mathlib.Algebra.Order.Round
import Mathlib.Data.Int.Log
import Mathlib.Tactic.GCongr
import Mathlib.Tactic.Linarith
import Mathlib.Tactic.Ring

/-!
# Binary rounding

Numbers rounded to the nearest ones with so many binary digits, as
floating-point arithmetic rounds its results while they stay in its range.
-/

namespace Foundation

variable {K : Type*} [Field K] [LinearOrder K] [IsStrictOrderedRing K]
  [FloorRing K] {number : K} {digits : Nat}

/-- The nearest integer, or the even one of the two nearest. -/
def roundEven (number : K) : Int :=
  if Int.fract number = 1 / 2 then
    if Even ⌊number⌋ then ⌊number⌋ else ⌊number⌋ + 1
  else round number

theorem abs_roundEven_sub (number : K) :
    |(roundEven number : K) - number| ≤ 1 / 2 := by
  have split := Int.floor_add_fract number
  rw [roundEven]
  split
  · next middle =>
    rw [middle] at split
    split
    · rw [abs_le]
      constructor <;> linarith
    · rw [abs_le]
      push_cast
      constructor <;> linarith
  · rw [abs_sub_comm]
    exact abs_sub_round number

/-- What the last of the digits counts. -/
def lastPlace (digits : Nat) (number : K) : K :=
  2 ^ (Int.log 2 number + 1 - digits)

/-- A positive number with so many digits. -/
def roundTo (digits : Nat) (number : K) : K :=
  roundEven (number / lastPlace digits number) * lastPlace digits number

theorem lastPlace_pos : 0 < lastPlace digits number :=
  zpow_pos two_pos _

theorem lastPlace_le (positive : 0 < number) :
    lastPlace digits number ≤ number * 2 / 2 ^ digits := by
  have power : (2 : K) ^ Int.log 2 number ≤ number := by
    have below := Int.zpow_log_le_self (b := 2) one_lt_two positive
    rwa [Nat.cast_ofNat] at below
  rw [lastPlace, zpow_sub₀ two_ne_zero, zpow_add_one₀ two_ne_zero,
    zpow_natCast]
  gcongr

/-- Rounding changes a number by at most half of what its last digit counts. -/
theorem abs_roundTo_sub (digits : Nat) (positive : 0 < number) :
    |roundTo digits number - number| ≤ number / 2 ^ digits := by
  have apart := abs_roundEven_sub (number / lastPlace digits number)
  have place := @lastPlace_pos K _ _ _ _ number digits
  have same : number =
      number / lastPlace digits number * lastPlace digits number :=
    (div_mul_cancel₀ _ place.ne').symm
  calc
    |roundTo digits number - number|
      = |(roundEven (number / lastPlace digits number) : K) -
          number / lastPlace digits number| * lastPlace digits number := by
        nth_rewrite 2 [same]
        rw [roundTo, ← sub_mul, abs_mul, abs_of_pos place]
    _ ≤ 1 / 2 * (number * 2 / 2 ^ digits) := by
        gcongr
        exact lastPlace_le positive
    _ = number / 2 ^ digits := by ring

theorem roundTo_zero (digits : Nat) : roundTo digits (0 : K) = 0 := by
  rw [roundTo, zero_div]
  simp [roundEven]

end Foundation
