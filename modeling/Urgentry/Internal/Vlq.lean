import Mathlib.Data.Nat.Bitwise
import Mathlib.Tactic.Ring

/-!
# Numbers in groups of bits

A number is written as groups of `w` bits, the lowest first, each with a flag in bit `w` that says
whether another group follows. A signed number has its sign in the lowest bit.

A reader collects the groups with `|||` and `<<<`. As long as the shift is above what was collected,
this is addition (`or_shiftLeft`), so what is read is `r + n * 2 ^ s`. -/

namespace Vlq

/-- The groups of `n`. -/
def groups (w n : ℕ) : List ℕ :=
  if n < 2 ^ w ∨ w = 0 then [n] else (n % 2 ^ w + 2 ^ w) :: groups w (n / 2 ^ w)
termination_by n
decreasing_by
  rename_i h
  have hpow : 1 < 2 ^ w := Nat.one_lt_two_pow (not_or.mp h).2
  exact Nat.div_lt_self (by omega) hpow

theorem groups_of_lt {w n : ℕ} (h : n < 2 ^ w) : groups w n = [n] := by
  rw [groups, if_pos (.inl h)]

theorem groups_of_le {w n : ℕ} (hw : w ≠ 0) (h : 2 ^ w ≤ n) :
    groups w n = (n % 2 ^ w + 2 ^ w) :: groups w (n / 2 ^ w) := by
  rw [groups, if_neg (by omega)]

/-- **Induction along the groups** of a number. -/
theorem groups_induction {w : ℕ} (hw : w ≠ 0) {P : ℕ → Prop} (last : ∀ n < 2 ^ w, P n)
    (more : ∀ n, 2 ^ w ≤ n → P (n / 2 ^ w) → P n) (n : ℕ) : P n := by
  induction n using Nat.strongRecOn with
  | ind n ih =>
    by_cases h : n < 2 ^ w
    · exact last n h
    · have hpow : 1 < 2 ^ w := Nat.one_lt_two_pow hw
      exact more n (by omega) (ih _ (Nat.div_lt_self (by omega) hpow))

theorem groups_ne_nil (w n : ℕ) : groups w n ≠ [] := by
  rw [groups]
  split <;> exact List.cons_ne_nil _ _

/-- Each group has `w` bits and the flag. -/
theorem lt_of_mem_groups {w : ℕ} (hw : w ≠ 0) (n : ℕ) : ∀ d ∈ groups w n, d < 2 ^ (w + 1) := by
  induction n using groups_induction hw with
  | last n h =>
    rw [groups_of_lt h, List.forall_mem_singleton]
    omega
  | more n h ih =>
    rw [groups_of_le hw h, List.forall_mem_cons]
    exact ⟨by omega, by rwa [Nat.pow_succ] at ih⟩

/-- Above what was collected, a group is added. -/
theorem or_shiftLeft {r s : ℕ} (h : r < 2 ^ s) (d : ℕ) : r ||| d <<< s = r + d * 2 ^ s := by
  rw [Nat.or_comm, ← Nat.shiftLeft_add_eq_or_of_lt h, Nat.shiftLeft_eq, Nat.add_comm]

/-- A signed number with its sign in the lowest bit. -/
def signed (d : ℤ) : ℕ := 2 * d.natAbs + if d < 0 then 1 else 0

theorem signed_div_two (d : ℤ) : signed d / 2 = d.natAbs := by
  rw [signed]
  split <;> omega

theorem signed_mod_two (d : ℤ) : signed d % 2 = 1 ↔ d < 0 := by
  rw [signed]
  split <;> omega

end Vlq
