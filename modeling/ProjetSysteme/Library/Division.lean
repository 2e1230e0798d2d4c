/- Library/Division
   digest: Divisions of natural numbers by parts: an estimate of the quotient, and halves of the divisor. -/

import Mathlib.Tactic.Ring

set_option autoImplicit false
set_option relaxedAutoImplicit false

namespace ProjetSysteme.Library.Division

section Estimate

variable {n m s : ℕ}

private theorem estimate_eq (n m s : ℕ) : n / s / (m / s + 1) = n / (s * (m / s + 1)) :=
  Nat.div_div_eq_div_mul n s (m / s + 1)

theorem estimate_le (positive : 0 < s) (divisor : 0 < m) : n / s / (m / s + 1) ≤ n / m := by
  rw [estimate_eq]
  apply Nat.div_le_div_left _ divisor
  rw [Nat.mul_add, Nat.mul_one]
  exact (Nat.lt_div_mul_add positive).le.trans_eq (by rw [Nat.mul_comm])

theorem le_estimate (positive : 0 < s) (long : n / s < 2 * (m / s) * (m / s + 1)) :
    n / m ≤ n / s / (m / s + 1) + 2 := by
  generalize lead : m / s = a at long ⊢
  generalize found : n / s / (a + 1) = q
  have leading : a * s ≤ m := lead ▸ Nat.div_mul_le_self m s
  have few : q < 2 * a := by
    rw [← found]
    exact Nat.div_lt_of_lt_mul (by rwa [Nat.mul_comm] at long)
  have below : n < (q + 1) * (s * (a + 1)) := by
    rw [← found, Nat.div_div_eq_div_mul]
    apply Nat.lt_mul_of_div_lt (Nat.lt_succ_self _)
    exact Nat.mul_pos positive a.succ_pos
  -- rounding up by one unit of the leading part costs `q + 1` units, two divisors are `2 * a`
  have enough : (q + 1) * (s * (a + 1)) ≤ (q + 3) * (a * s) := by
    have bound := Nat.mul_le_mul_right s few
    calc (q + 1) * (s * (a + 1)) = (q + 1) * (a * s) + (q + 1) * s := by ring
      _ ≤ (q + 1) * (a * s) + 2 * a * s := Nat.add_le_add_left bound _
      _ = (q + 3) * (a * s) := by ring
  apply Nat.le_of_lt_succ
  apply Nat.div_lt_of_lt_mul
  calc n < (q + 3) * (a * s) := below.trans_le enough
    _ ≤ (q + 3) * m := Nat.mul_le_mul_left _ leading
    _ = m * (q + 2 + 1) := Nat.mul_comm _ _

end Estimate

section Digits

variable {d : ℕ} (positive : 0 < d) (b h l : ℕ)

theorem two_digits : h * b + l = d * (h / d * b) + (h % d * b + l) := by
  nth_rewrite 1 [← Nat.div_add_mod h d]
  ring

include positive

theorem two_digits_div : (h * b + l) / d = h / d * b + (h % d * b + l) / d := by
  rw [two_digits, Nat.mul_add_div positive]

omit positive in
theorem two_digits_mod : (h * b + l) % d = (h % d * b + l) % d := by
  rw [two_digits (d := d), Nat.mul_add_mod]

end Digits

structure Restoring (n d m q r : ℕ) : Prop where
  value : n = q * d + r
  small : r < d * m

namespace Restoring

variable {n d m q r : ℕ}

theorem done (restoring : Restoring n d 1 q r) : q = n / d ∧ r = n % d := by
  obtain ⟨rfl, small⟩ := restoring
  rw [Nat.mul_one] at small
  have positive : 0 < d := by omega
  constructor
  · rw [Nat.mul_comm, Nat.mul_add_div positive, Nat.div_eq_of_lt small, Nat.add_zero]
  · rw [Nat.mul_comm, Nat.mul_add_mod, Nat.mod_eq_of_lt small]

theorem skip (restoring : Restoring n d (m + m) q r) (less : r < d * m) : Restoring n d m q r :=
  ⟨restoring.value, less⟩

theorem take (restoring : Restoring n d (m + m) q r) (more : d * m ≤ r) :
    Restoring n d m (q + m) (r - d * m) := by
  obtain ⟨rfl, small⟩ := restoring
  rw [Nat.mul_add] at small
  constructor
  · rw [Nat.add_mul, Nat.mul_comm m d]
    omega
  · omega

end Restoring

end ProjetSysteme.Library.Division
