/- Library/Congruential
   digest: The recurrences x ↦ a x + c with a ≡ 1 modulo 4 and c odd go through every residue of a
   power of two. -/

import Mathlib.NumberTheory.Multiplicity
import Mathlib.RingTheory.Coprime.Lemmas
import Mathlib.Tactic.LinearCombination

set_option autoImplicit false
set_option relaxedAutoImplicit false

namespace ProjetSysteme.Library.Congruential

theorem two_pow_dvd_five_pow_sub_one (k n : ℕ) : (2 : ℤ) ^ (k + 2) ∣ 5 ^ n - 1 ↔ 2 ^ k ∣ n := by
  have valuation := Int.two_pow_sub_pow' (x := 5) (y := 1) n (by norm_num) (by norm_num)
  have four : emultiplicity (2 : ℤ) (5 - 1) = 2 :=
    emultiplicity_eq_coe.mpr ⟨by norm_num, by norm_num⟩
  rw [one_pow, four] at valuation
  have cast : ((2 : ℤ) ^ k ∣ n) ↔ 2 ^ k ∣ n := by exact_mod_cast Iff.rfl
  rw [← cast, pow_dvd_iff_le_emultiplicity, pow_dvd_iff_le_emultiplicity, valuation, Nat.cast_add,
    add_comm (k : ℕ∞)]
  exact ENat.add_le_add_iff_left (ENat.natCast_ne_top 2)

section Recurrence

variable {x : ℕ → ℕ} {k : ℕ}

theorem closed_form (step : ∀ n, x (n + 1) ≡ 5 * x n + 1 [MOD 2 ^ k]) (n : ℕ) :
    4 * x n + 1 ≡ 5 ^ n * (4 * x 0 + 1) [MOD 2 ^ (k + 2)] := by
  induction n with
  | zero => rw [pow_zero, one_mul]
  | succ n ih =>
      have scaled : 4 * x (n + 1) ≡ 4 * (5 * x n + 1) [MOD 2 ^ (k + 2)] := by
        rw [pow_add, mul_comm (2 ^ k)]
        exact (step n).mul_left' 4
      calc 4 * x (n + 1) + 1 ≡ 4 * (5 * x n + 1) + 1 [MOD 2 ^ (k + 2)] := scaled.add_right 1
        _ = 5 * (4 * x n + 1) := by ring
        _ ≡ 5 * (5 ^ n * (4 * x 0 + 1)) [MOD 2 ^ (k + 2)] := ih.mul_left 5
        _ = 5 ^ (n + 1) * (4 * x 0 + 1) := by ring

theorem period_dvd (step : ∀ n, x (n + 1) ≡ 5 * x n + 1 [MOD 2 ^ k]) {n : ℕ}
    (same : x n ≡ x 0 [MOD 2 ^ k]) : 2 ^ k ∣ n := by
  have back : 4 * x 0 + 1 ≡ 5 ^ n * (4 * x 0 + 1) [MOD 2 ^ (k + 2)] := by
    have scaled : 4 * x n ≡ 4 * x 0 [MOD 2 ^ (k + 2)] := by
      rw [pow_add, mul_comm (2 ^ k)]
      exact same.mul_left' 4
    exact (scaled.symm.add_right 1).trans (closed_form step n)
  have multiple : (2 : ℤ) ^ (k + 2) ∣ (5 ^ n - 1) * (4 * x 0 + 1) := by
    have divides := (Nat.modEq_iff_dvd.mp back)
    push_cast at divides
    rwa [sub_mul, one_mul]
  have odd : IsCoprime ((2 : ℤ) ^ (k + 2)) (4 * x 0 + 1) :=
    IsCoprime.pow_left ⟨-(2 * x 0), 1, by ring⟩
  exact (two_pow_dvd_five_pow_sub_one k n).mp (odd.dvd_of_dvd_mul_right multiple)

theorem reaches {N : ℕ} (step : ∀ n, N ≤ n → x (n + 1) ≡ 5 * x n + 1 [MOD 2 ^ k]) {r : ℕ}
    (residue : r < 2 ^ k) : ∃ n, n < N + 2 ^ k ∧ x n % 2 ^ k = r := by
  have positive : 0 < 2 ^ k := Nat.two_pow_pos k
  let visit : Fin (2 ^ k) → Fin (2 ^ k) := fun n => ⟨x (N + n) % 2 ^ k, Nat.mod_lt _ positive⟩
  have distinct : ∀ i j : Fin (2 ^ k), i ≤ j → visit i = visit j → i = j := by
    intro i j order same
    have later : ∀ n, x (N + i + (n + 1)) ≡ 5 * x (N + i + n) + 1 [MOD 2 ^ k] := fun n =>
      step (N + i + n) (by omega)
    have divides : 2 ^ k ∣ j.val - i.val := by
      refine period_dvd (x := fun n => x (N + i + n)) later ?_
      have place : N + i.val + (j.val - i.val) = N + j := by
        have := Fin.le_def.mp order
        omega
      change x (N + i.val + (j.val - i.val)) ≡ x (N + i) [MOD 2 ^ k]
      rw [place]
      exact (Fin.ext_iff.mp same).symm
    have small : j.val - i.val < 2 ^ k := lt_of_le_of_lt (Nat.sub_le _ _) j.isLt
    have zero := Nat.eq_zero_of_dvd_of_lt divides small
    exact Fin.ext (le_antisymm order (Nat.sub_eq_zero_iff_le.mp zero))
  have injective : Function.Injective visit := by
    intro i j same
    rcases le_total i j with order | order
    · exact distinct i j order same
    · exact (distinct j i order same.symm).symm
  obtain ⟨n, reached⟩ := Finite.injective_iff_surjective.mp injective ⟨r, residue⟩
  exact ⟨N + n, Nat.add_lt_add_left n.isLt N, Fin.ext_iff.mp reached⟩

end Recurrence

section General

variable {a c : ℕ} {x : ℕ → ℕ} {k : ℕ}

def exactValue (a c : ℕ) (start : ℕ) : ℕ → ℤ
  | 0 => start
  | n + 1 => a * exactValue a c start n + c

theorem exact_closed_form (start n : ℕ) : ((a : ℤ) - 1) * (exactValue a c start n - start) =
    ((a : ℤ) ^ n - 1) * ((a - 1) * start + c) := by
  induction n with
  | zero => rw [exactValue, sub_self, mul_zero, pow_zero, sub_self, zero_mul]
  | succ n ih =>
      rw [exactValue, pow_succ]
      linear_combination (a : ℤ) * ih

theorem exact_congruent (step : ∀ n, x (n + 1) ≡ a * x n + c [MOD 2 ^ k]) (n : ℕ) :
    (x n : ℤ) ≡ exactValue a c (x 0) n [ZMOD ((2 ^ k : ℕ) : ℤ)] := by
  induction n with
  | zero => rfl
  | succ n ih =>
      have next := (Int.natCast_modEq_iff.mpr (step n))
      push_cast at next
      exact next.trans ((ih.mul_left (a : ℤ)).add_right (c : ℤ))

section Period

variable (one : 1 < a) (four : a % 4 = 1) (odd : c % 2 = 1)
include one four odd

/-- With a multiplier that is 1 modulo 4 and an odd increment, `n` steps change the start by a number
with as many factors 2 as `n`. -/
theorem exact_valuation (start n : ℕ) :
    emultiplicity (2 : ℤ) (exactValue a c start n - start) = emultiplicity (2 : ℤ) n := by
  have even : ¬ (2 : ℤ) ∣ a := by omega
  have oddFactor : ¬ (2 : ℤ) ∣ (a - 1) * start + c := by
    intro divides
    have factor : (2 : ℤ) ∣ ((a : ℤ) - 1) * start := Dvd.dvd.mul_right (by omega) _
    have increment := (dvd_add_right factor).mp divides
    omega
  have valuation := Int.two_pow_sub_pow' (x := a) (y := 1) n (by omega) even
  rw [one_pow] at valuation
  have finite : emultiplicity (2 : ℤ) ((a : ℤ) - 1) ≠ ⊤ := by
    apply finiteMultiplicity_iff_emultiplicity_ne_top.mp
    exact Int.finiteMultiplicity_iff.mpr ⟨by decide, by omega⟩
  -- the power of 2 in both sides of the closed form
  have powers := congrArg (emultiplicity (2 : ℤ)) (exact_closed_form (a := a) (c := c) start n)
  rw [emultiplicity_mul Int.prime_two, emultiplicity_mul Int.prime_two, valuation,
    emultiplicity_eq_zero.mpr oddFactor, add_zero] at powers
  apply le_antisymm
  · exact (ENat.add_le_add_iff_left finite).mp powers.le
  · exact (ENat.add_le_add_iff_left finite).mp powers.ge

theorem back_iff (step : ∀ n, x (n + 1) ≡ a * x n + c [MOD 2 ^ k]) (n : ℕ) :
    x n ≡ x 0 [MOD 2 ^ k] ↔ 2 ^ k ∣ n := by
  have value : x n ≡ x 0 [MOD 2 ^ k] ↔ (2 : ℤ) ^ k ∣ exactValue a c (x 0) n - x 0 := by
    have congruent := exact_congruent step n
    rw [← Int.natCast_modEq_iff]
    constructor
    · intro same
      have divides := (congruent.symm.trans same).symm.dvd
      push_cast at divides
      exact divides
    · intro divides
      refine congruent.trans (Int.modEq_iff_dvd.mpr ?_).symm
      push_cast
      exact divides
  have cast : ((2 : ℤ) ^ k ∣ n) ↔ 2 ^ k ∣ n := by exact_mod_cast Iff.rfl
  rw [value, ← cast, pow_dvd_iff_le_emultiplicity, exact_valuation one four odd,
    ← pow_dvd_iff_le_emultiplicity]

theorem same_iff (step : ∀ n, x (n + 1) ≡ a * x n + c [MOD 2 ^ k]) (n m : ℕ) :
    x (n + m) ≡ x n [MOD 2 ^ k] ↔ 2 ^ k ∣ m :=
  back_iff (x := fun m => x (n + m)) one four odd (fun m => step (n + m)) m

theorem residues_bijective (step : ∀ n, x (n + 1) ≡ a * x n + c [MOD 2 ^ k]) :
    Function.Bijective fun n : Fin (2 ^ k) => (⟨x n % 2 ^ k, Nat.mod_lt _ (Nat.two_pow_pos k)⟩ : Fin (2 ^ k)) := by
  apply Finite.injective_iff_bijective.mp
  have distinct : ∀ i j : Fin (2 ^ k), i ≤ j → x j ≡ x i [MOD 2 ^ k] → i = j := by
    intro i j order same
    have place : i.val + (j.val - i.val) = j := Nat.add_sub_cancel' order
    have divides := (same_iff one four odd step i (j.val - i.val)).mp (by rwa [place])
    have zero := Nat.eq_zero_of_dvd_of_lt divides ((Nat.sub_le _ _).trans_lt j.isLt)
    exact Fin.ext (le_antisymm order (Nat.sub_eq_zero_iff_le.mp zero))
  intro i j same
  have equal : x i ≡ x j [MOD 2 ^ k] := Fin.ext_iff.mp same
  rcases le_total i j with order | order
  · exact distinct i j order equal.symm
  · exact (distinct j i order equal).symm

end Period

end General

end ProjetSysteme.Library.Congruential
