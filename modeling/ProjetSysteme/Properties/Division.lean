/- Properties/Division
   source: shared/div64.c, kernel/math.c
   digest: The two divisions of 64-bit numbers give the quotient and the remainder; one of them faults
   on some divisors. -/

import ProjetSysteme.Invariant.Division

set_option autoImplicit false
set_option relaxedAutoImplicit false

namespace ProjetSysteme.Properties.Division

open Kernel.Division Invariant.Division Library.Loop Library.Division

variable {x y : LongLong}

/-- The leading 32 bits of the divisor, which has more than 32, are ones. -/
def UnsEnTete (y : LongLong) : Prop := ∃ l, y.toNat / 2 ^ (l + 1) = 2 ^ 32 - 1

theorem unsEnTete_iff : UnsEnTete y ↔ Long y ∧ y.toNat / 2 ^ decalage y = 2 ^ 32 - 1 := by
  constructor
  · rintro ⟨l, uns⟩
    obtain ⟨long, place⟩ := decalage_unique (y := y) (l := l) (by omega) (by omega)
    exact ⟨long, place ▸ uns⟩
  · rintro ⟨-, uns⟩
    exact ⟨hardBsr (motHaut y), uns⟩

private theorem doDiv64_long (long : Long y) : doDiv64 x y = (do
    let q ← estimer x y
    loop (tourCorriger y) ((x - y * q.setWidth 64).toNat + 1) (q, x - y * q.setWidth 64)) := by
  unfold doDiv64
  exact if_pos (long_iff.mp long)

private theorem doDiv64_estime (long : Long y) {q : Entier} (donne : estimer x y = some q) :
    doDiv64 x y = some (x / y, x % y) := by
  rw [doDiv64_long long, donne]
  have moins := (estimer_borne long donne).1
  have corrige := corrige_depart long moins
  apply corriger_finit long corrige
  -- a divisor that is taken away lowers the rest by more than one
  have divise : 0 < y.toNat := by
    rw [Long] at long
    omega
  have somme : x.toNat / y.toNat = q.toNat + (x - y * q.setWidth 64).toNat / y.toNat := by
    have valeur : x.toNat = q.toNat * y.toNat + (x - y * q.setWidth 64).toNat := corrige
    generalize (x - y * q.setWidth 64).toNat = r at valeur ⊢
    rw [valeur, Nat.mul_comm, Nat.mul_add_div divise]
  show x.toNat / y.toNat - q.toNat < _
  have petit := Nat.div_le_self (x - y * q.setWidth 64).toNat y.toNat
  omega

private theorem doDiv64_court (court : ¬ Long y) : doDiv64 x y = some (x / y, x % y) := by
  have unMot : ¬ motHaut y ≠ 0 := fun autre => court (long_iff.mpr autre)
  unfold doDiv64
  dsimp only
  rw [if_neg unMot]
  by_cases petit : motHaut x < motBas y
  · rw [if_pos petit, ← une_division court petit]
    cases div64_32 (motHaut x) (motBas x) (motBas y) <;> rfl
  · rw [if_neg petit]
    by_cases nonNul : motBas y ≠ 0
    · rw [if_pos nonNul]
      exact deux_divisions court nonNul
    · have nul : y = 0 := by
        apply BitVec.eq_of_toNat_eq
        rw [diviseur_court court, not_not.mp nonNul]
        rfl
      rw [if_neg nonNul, nul]
      simp

private theorem doDiv64_sans_uns (sansUns : ¬ UnsEnTete y) : doDiv64 x y = some (x / y, x % y) := by
  by_cases long : Long y
  · apply doDiv64_estime long
    exact (estimer_eq long).trans (if_neg fun uns => sansUns (unsEnTete_iff.mpr ⟨long, uns⟩))
  · exact doDiv64_court long

/-- `do_div64` faults exactly on the divisors whose leading 32 bits are ones; else it gives the
quotient and the remainder, 0 and the dividend for the divisor 0. -/
theorem do_div64_faute_iff (x y : LongLong) :
    (doDiv64 x y = none ↔ UnsEnTete y) ∧ (UnsEnTete y ∨ doDiv64 x y = some (x / y, x % y)) := by
  by_cases uns : UnsEnTete y
  · obtain ⟨long, tete⟩ := unsEnTete_iff.mp uns
    have faute : doDiv64 x y = none := by
      rw [doDiv64_long long, estimer_eq long, if_pos tete]
      rfl
    exact ⟨⟨fun _ => uns, fun _ => faute⟩, .inl uns⟩
  · have juste := doDiv64_sans_uns (x := x) uns
    refine ⟨⟨fun nul => absurd (nul.symm.trans juste) (by simp), fun tete => absurd tete uns⟩, .inr juste⟩

example : doDiv64 0xfedcba9876543210 0x1ffffffff = none := by decide

/-- After the division of the processor at most two turns of the correction are left. -/
theorem deux_corrections (long : 2 ^ 32 ≤ y.toNat) {q : Entier} (donne : estimer x y = some q) :
    loop (tourCorriger y) 3 (q, x - y * q.setWidth 64) = some (x / y, x % y) := by
  obtain ⟨moins, plus⟩ := estimer_borne long donne
  apply corriger_finit long (corrige_depart long moins)
  show x.toNat / y.toNat - q.toNat < 3
  omega

theorem deux_corrections_exemple : (2 : Nat) ^ 32 ≤ (0x180000000 : LongLong).toNat ∧
    loop (tourCorriger 0x180000000) 3
      (0xaaaaaaa9, 0xffffffffffffffff - 0x180000000 * (0xaaaaaaa9 : Entier).setWidth 64) =
      some (0xaaaaaaaa, 0xffffffff) :=
  ⟨by decide, (deux_corrections (by decide) (by decide)).trans (by decide)⟩

private theorem enCours_depart {div mul : LongLong} (double : Double x y (div, mul))
    (proche : x.toNat < 2 * div.toNat) : EnCours x y { mul, div, q := mul, x := x - div } := by
  obtain ⟨⟨k, puissance, produit⟩, dedans⟩ := double
  simp only at puissance produit dedans
  refine ⟨k, puissance, produit, ?_, ?_⟩
  · show x.toNat = mul.toNat * y.toNat + (x - div).toNat
    rw [BitVec.toNat_sub_of_le (BitVec.le_def.mpr dedans), puissance, Nat.mul_comm, ← produit]
    omega
  · show (x - div).toNat < y.toNat * 2 ^ k
    rw [BitVec.toNat_sub_of_le (BitVec.le_def.mpr dedans), ← produit]
    omega

/-- `div64` ends with the quotient and the remainder, for every dividend and divisor; `do_div64`
agrees with it wherever it does not fault. -/
theorem div64_exact (x y : LongLong) :
    div64 x y = some (x / y, x % y) ∧ (UnsEnTete y ∨ doDiv64 x y = div64 x y) := by
  have juste : div64 x y = some (x / y, x % y) := by
    unfold div64
    split
    · next petit =>
        apply congrArg some
        rcases petit with petit | rfl
        · have moins := BitVec.lt_def.mp petit
          apply Prod.ext
          · exact BitVec.eq_of_toNat_eq ((Nat.div_eq_of_lt moins).symm.trans (BitVec.toNat_udiv ..).symm)
          · exact BitVec.eq_of_toNat_eq ((Nat.mod_eq_of_lt moins).symm.trans (BitVec.toNat_umod ..).symm)
        · simp
    · next grand =>
        rw [not_or, BitVec.not_lt] at grand
        obtain ⟨⟨div, mul⟩, boucle, double, proche⟩ := doubler_finit grand.2 grand.1
        rw [boucle]
        exact retrancher_finit (enCours_depart double proche)
  by_cases uns : UnsEnTete y
  · exact ⟨juste, .inl uns⟩
  · exact ⟨juste, .inr ((doDiv64_sans_uns uns).trans juste.symm)⟩

end ProjetSysteme.Properties.Division
