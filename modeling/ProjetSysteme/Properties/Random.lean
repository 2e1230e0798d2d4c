/- Properties/Random
   source: kernel/math.c
   digest: The period of the pseudo-random numbers, and how often each value is drawn. -/

import Mathlib.Order.Interval.Finset.Nat
import Mathlib.Tactic.LinearCombination
import ProjetSysteme.Kernel.Random
import ProjetSysteme.Library.Congruential

set_option autoImplicit false
set_option relaxedAutoImplicit false

namespace ProjetSysteme.Properties.Random

open Kernel.Random Library.Congruential

section Produit

private theorem morceau_toNat (x : LongLong) (n : Nat) : (morceau x n).toNat = x.toNat / 2 ^ (16 * n) % 2 ^ 16 := by
  have masque : (0xffff : LongLong).toNat = 2 ^ 16 - 1 := rfl
  rw [morceau, BitVec.toNat_setWidth, BitVec.toNat_and, masque, Nat.and_two_pow_sub_one_eq_mod,
    BitVec.toNat_ushiftRight, Nat.shiftRight_eq_div_pow]
  omega

private theorem produit_morceaux (x y : LongLong) (n m : Nat) : (morceau x n * morceau y m).setWidth 64 =
    (morceau x n).setWidth 64 * (morceau y m).setWidth 64 := by
  apply BitVec.eq_of_toNat_eq
  have gauche : (morceau x n).toNat < 2 ^ 16 := by
    rw [morceau_toNat]
    exact Nat.mod_lt _ (by decide)
  have droite : (morceau y m).toNat < 2 ^ 16 := by
    rw [morceau_toNat]
    exact Nat.mod_lt _ (by decide)
  have court : (morceau x n).toNat * (morceau y m).toNat < 2 ^ 32 :=
    (Nat.mul_lt_mul'' gauche droite).trans_eq (by norm_num)
  rw [BitVec.toNat_setWidth, BitVec.toNat_mul, BitVec.toNat_mul, BitVec.toNat_setWidth, BitVec.toNat_setWidth]
  rw [Nat.mod_eq_of_lt court, Nat.mod_eq_of_lt (gauche.trans (by norm_num)),
    Nat.mod_eq_of_lt (droite.trans (by norm_num))]

private theorem morceaux (x : LongLong) : x = (morceau x 0).setWidth 64 +
    65536 * ((morceau x 1).setWidth 64 + 65536 * ((morceau x 2).setWidth 64 + 65536 * (morceau x 3).setWidth 64)) := by
  apply BitVec.eq_of_toNat_eq
  simp only [BitVec.toNat_add, BitVec.toNat_mul, BitVec.toNat_setWidth, morceau_toNat]
  have borne := x.isLt
  have base : (65536 : LongLong).toNat = 65536 := rfl
  rw [base]
  omega

theorem mul64_eq (x y : LongLong) : mul64 x y = x * y := by
  have nul : (65536 : LongLong) ^ 4 = 0 := by decide
  have decale : ∀ z : LongLong, z <<< 16 = z * 65536 := by
    intro z
    rw [BitVec.shiftLeft_eq_mul_twoPow]
    rfl
  conv_rhs => rw [morceaux x, morceaux y]
  simp only [mul64, decale, produit_morceaux]
  generalize (morceau x 0).setWidth 64 = a
  generalize (morceau x 1).setWidth 64 = b
  generalize (morceau x 2).setWidth 64 = c
  generalize (morceau x 3).setWidth 64 = d
  generalize (morceau y 0).setWidth 64 = e
  generalize (morceau y 1).setWidth 64 = f
  generalize (morceau y 2).setWidth 64 = g
  generalize (morceau y 3).setWidth 64 = h
  -- the products that `mul64` leaves out are multiples of 2^64
  linear_combination -(b * h + c * g + d * f + 65536 * (c * h + d * g) + 65536 ^ 2 * (d * h)) * nul

end Produit

section Graines

variable (s : LongLong) (appels : Nat → Nat)

theorem randBits_graine (bits : Nat) :
    (randBits bits s).2.toNat = (0x5DEECE66D * s.toNat + 0xB) % 2 ^ 48 := by
  have masque : mask.toNat = 2 ^ 48 - 1 := rfl
  have valeur : (randBits bits s).2 = mul64 s multiplier + addend &&& mask := rfl
  have facteur : multiplier.toNat = 0x5DEECE66D := rfl
  have terme : addend.toNat = 0xB := rfl
  rw [valeur, BitVec.toNat_and, masque, Nat.and_two_pow_sub_one_eq_mod, mul64_eq, BitVec.toNat_add,
    BitVec.toNat_mul, facteur, terme, Nat.mul_comm]
  omega

theorem randBits_valeur {bits : Nat} (max : bits ≤ 32) :
    (randBits bits s).1.toNat = (randBits bits s).2.toNat / 2 ^ (48 - bits) := by
  have petite : (randBits bits s).2.toNat < 2 ^ 48 := by
    rw [randBits_graine]
    exact Nat.mod_lt _ (by norm_num)
  have valeur : (randBits bits s).1 = ((randBits bits s).2 >>> 16).setWidth 32 >>> (32 - bits) := rfl
  have deux : (2 : Nat) ^ (48 - bits) = 2 ^ 16 * 2 ^ (32 - bits) := by
    rw [← Nat.pow_add]
    congr 1
    omega
  rw [valeur, BitVec.toNat_ushiftRight, BitVec.toNat_setWidth, BitVec.toNat_ushiftRight,
    Nat.shiftRight_eq_div_pow, Nat.shiftRight_eq_div_pow, Nat.mod_eq_of_lt (by omega), deux,
    Nat.div_div_eq_div_mul]

private theorem recurrence (n : Nat) :
    (graines s appels (n + 1)).toNat ≡ 0x5DEECE66D * (graines s appels n).toNat + 0xB [MOD 2 ^ 48] := by
  rw [graines, randBits_graine]
  exact Nat.mod_modEq _ _

private theorem graines_petite (n : Nat) : (graines s appels (n + 1)).toNat % 2 ^ 48 =
    (graines s appels (n + 1)).toNat := by
  rw [graines, randBits_graine, Nat.mod_mod]

/-- Whatever the calls, the seed after one call comes back after 2^48 more, and not before. -/
theorem graine_periode (n m : Nat) :
    graines s appels (n + 1 + m) = graines s appels (n + 1) ↔ 2 ^ 48 ∣ m := by
  have retour := same_iff (x := fun n => (graines s appels n).toNat) (a := 0x5DEECE66D) (c := 0xB)
    (by norm_num) (by norm_num) (by norm_num) (recurrence s appels) (n + 1) m
  have place : n + 1 + m = n + m + 1 := by omega
  rw [← retour, ← BitVec.toNat_inj, Nat.ModEq, place, graines_petite, graines_petite]

/-- In a whole period of calls of `randBits` every value is drawn equally often. -/
theorem tirages_equidistribues {bits : Nat} (un : 1 ≤ bits) (max : bits ≤ 32) {v : Nat} (dans : v < 2 ^ bits) :
    ((Finset.range (2 ^ 48)).filter fun n =>
      (randBits bits (graines s (fun _ => bits) n)).1.toNat = v).card = 2 ^ (48 - bits) := by
  have tranche : (Finset.Ico (v * 2 ^ (48 - bits)) ((v + 1) * 2 ^ (48 - bits))).card = 2 ^ (48 - bits) := by
    rw [Nat.card_Ico, ← Nat.sub_mul, Nat.add_sub_cancel_left, Nat.one_mul]
  have mem_tranche : ∀ g, g ∈ Finset.Ico (v * 2 ^ (48 - bits)) ((v + 1) * 2 ^ (48 - bits)) ↔
      g / 2 ^ (48 - bits) = v := by
    intro g
    rw [Finset.mem_Ico, ← Nat.le_div_iff_mul_le (Nat.two_pow_pos _), ← Nat.div_lt_iff_lt_mul (Nat.two_pow_pos _)]
    omega
  have tirage : ∀ n, (randBits bits (graines s (fun _ => bits) n)).1.toNat =
      (graines s (fun _ => bits) (n + 1)).toNat / 2 ^ (48 - bits) := fun n => randBits_valeur _ max
  obtain ⟨injective, surjective⟩ := residues_bijective (a := 0x5DEECE66D) (c := 0xB) (k := 48)
    (x := fun n => (graines s (fun _ => bits) (n + 1)).toNat) (by norm_num) (by norm_num) (by norm_num)
    fun n => recurrence s _ (n + 1)
  -- the seeds after the calls are all the numbers of 48 bits, each once
  rw [← tranche]
  apply Finset.card_bij fun n _ => (graines s (fun _ => bits) (n + 1)).toNat
  · intro n mem
    rw [Finset.mem_filter, tirage] at mem
    exact (mem_tranche _).mpr mem.2
  · intro n mem m mem' meme
    have bn := Finset.mem_range.mp (Finset.mem_filter.mp mem).1
    have bm := Finset.mem_range.mp (Finset.mem_filter.mp mem').1
    have egaux := @injective ⟨n, bn⟩ ⟨m, bm⟩ (Fin.ext (congrArg (· % 2 ^ 48) meme))
    exact Fin.ext_iff.mp egaux
  · intro g mem
    have petit : g < 2 ^ 48 := by
      have haut := (Finset.mem_Ico.mp mem).2
      have large : (v + 1) * 2 ^ (48 - bits) ≤ 2 ^ 48 := by
        calc (v + 1) * 2 ^ (48 - bits) ≤ 2 ^ bits * 2 ^ (48 - bits) := Nat.mul_le_mul_right _ dans
          _ = 2 ^ 48 := by rw [← Nat.pow_add, Nat.add_sub_cancel' (by omega)]
      omega
    obtain ⟨n, atteint⟩ := surjective ⟨g, petit⟩
    have valeur : (graines s (fun _ => bits) (n + 1)).toNat = g := by
      rw [← graines_petite]
      exact Fin.ext_iff.mp atteint
    refine ⟨n, Finset.mem_filter.mpr ⟨Finset.mem_range.mpr n.isLt, ?_⟩, valeur⟩
    rw [tirage, valeur]
    exact (mem_tranche g).mp mem

theorem tirages_equidistribues_exemple : ((Finset.range (2 ^ 48)).filter fun n =>
    (randBits 15 (graines 1 (fun _ => 15) n)).1.toNat = 7).card = 2 ^ (48 - 15) :=
  tirages_equidistribues 1 (by norm_num) (by norm_num) (by norm_num)

end Graines

end ProjetSysteme.Properties.Random
