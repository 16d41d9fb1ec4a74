import Mathlib.Algebra.Group.Nat.Defs

set_option autoImplicit false

/-! The integers as a 53-bit significand holds them: exactly below `2 ^ 53`, and from
there on rounded to a multiple of a power of two, ties to the even one. -/

namespace Doubles

/-- `n / unit` rounded to the nearest integer, ties to the even one. -/
def quotient (n unit : Nat) : Nat :=
  let floor := n / unit
  let twice := 2 * (n % unit)
  if unit < twice ∨ (twice = unit ∧ floor % 2 = 1) then floor + 1 else floor

/-- The double nearest to a natural number. -/
def nearest (n : Nat) : Nat :=
  if n < 2 ^ 53 then n else quotient n (2 ^ (n.log2 - 52)) * 2 ^ (n.log2 - 52)

def number (i : Int) : Int := if i < 0 then -(nearest i.natAbs : Int) else nearest i.natAbs

theorem nearest_of_lt {n : Nat} (small : n < 2 ^ 53) : nearest n = n := if_pos small

theorem le_quotient (n unit : Nat) : n / unit ≤ quotient n unit := by
  unfold quotient
  dsimp only
  split
  · exact Nat.le_succ _
  · exact Nat.le_refl _

/-- Rounding never brings a number back into the exact range. -/
theorem le_nearest {n : Nat} (large : 2 ^ 53 ≤ n) : 2 ^ 53 ≤ nearest n := by
  have top : 53 ≤ n.log2 := (Nat.le_log2 (by omega)).mpr large
  have lower : 2 ^ n.log2 ≤ n := Nat.log2_self_le (by omega)
  have split : 2 ^ n.log2 = 2 ^ 52 * 2 ^ (n.log2 - 52) := by
    rw [← Nat.pow_add]
    congr 1
    omega
  have significand : 2 ^ 52 ≤ n / 2 ^ (n.log2 - 52) := by
    rw [Nat.le_div_iff_mul_le (Nat.two_pow_pos _), ← split]
    exact lower
  have unit : 2 ^ 1 ≤ 2 ^ (n.log2 - 52) := Nat.pow_le_pow_right (by decide) (by omega)
  rw [nearest, if_neg (by omega)]
  calc 2 ^ 53 = 2 ^ 52 * 2 ^ 1 := by decide
    _ ≤ quotient n (2 ^ (n.log2 - 52)) * 2 ^ (n.log2 - 52) :=
      Nat.mul_le_mul (Nat.le_trans significand (le_quotient ..)) unit

@[simp]
theorem number_natCast (n : Nat) : number (n : Int) = (nearest n : Int) := by
  have positive : ¬ (n : Int) < 0 := by omega
  rw [number, if_neg positive, Int.natAbs_natCast]

example : nearest (2 ^ 53 + 1) = 2 ^ 53 ∧ nearest (2 ^ 64 - 1) = 2 ^ 64 := by decide

end Doubles
