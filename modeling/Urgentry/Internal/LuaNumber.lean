import Mathlib.Algebra.Order.Ring.Int
import Mathlib.Data.Nat.Log

/-!
# The numbers of Lua

A number of Lua is a double. `toDouble` rounds an integer to the nearest one, and a tie goes to the
even significand. Integers of up to 53 bits are not changed.
-/

namespace LuaNumber

/-- A natural number, rounded to 53 significant bits. -/
def roundNat (n : ℕ) : ℕ :=
  if n ≤ 2 ^ 53 then n
  else
    let unit := 2 ^ (Nat.log 2 n - 52)
    let quotient := n / unit
    let rest := n % unit
    (if unit < 2 * rest ∨ unit = 2 * rest ∧ quotient % 2 = 1 then quotient + 1 else quotient) * unit

/-- An integer as a double. -/
def toDouble (n : ℤ) : ℤ := if 0 ≤ n then roundNat n.toNat else -roundNat (-n).toNat

theorem toDouble_of_le {n : ℤ} (hlo : 0 ≤ n) (hhi : n ≤ 2 ^ 53) : toDouble n = n := by
  have hle : n.toNat ≤ 2 ^ 53 := by omega
  rw [toDouble, roundNat, if_pos hle]
  omega

/-- The first integer that is not a double. -/
example : toDouble (2 ^ 53 + 1) = 2 ^ 53 ∧ toDouble (2 ^ 53 + 3) = 2 ^ 53 + 4 := by decide +kernel

end LuaNumber
