/- Invariant/Division
   digest: The blocks of the divisions as divisions of natural numbers. -/

import Mathlib.Tactic.IntervalCases
import Mathlib.Tactic.Ring
import ProjetSysteme.Kernel.Division
import ProjetSysteme.Library.Division

set_option autoImplicit false
set_option relaxedAutoImplicit false

namespace ProjetSysteme.Invariant.Division

open Kernel.Division Library.Loop Library.Division

variable {x y : LongLong}

section Mots

theorem motHaut_toNat (x : LongLong) : (motHaut x).toNat = x.toNat / 2 ^ 32 := by
  rw [motHaut, BitVec.extractLsb'_toNat, Nat.shiftRight_eq_div_pow]
  exact Nat.mod_eq_of_lt (by omega)

theorem motBas_toNat (x : LongLong) : (motBas x).toNat = x.toNat % 2 ^ 32 := by
  rw [motBas, BitVec.extractLsb'_toNat, Nat.shiftRight_zero]

theorem deux_mots (x : LongLong) : (motHaut x).toNat * 2 ^ 32 + (motBas x).toNat = x.toNat := by
  rw [motHaut_toNat, motBas_toNat]
  omega

theorem assembler {a b : Nat} (haut : a < 2 ^ 32) (bas : b < 2 ^ 32) :
    ((BitVec.ofNat 32 a).setWidth 64 <<< 32 + (BitVec.ofNat 32 b).setWidth 64 : LongLong).toNat = a * 2 ^ 32 + b := by
  simp only [BitVec.toNat_add, BitVec.toNat_shiftLeft, BitVec.toNat_setWidth, BitVec.toNat_ofNat,
    Nat.shiftLeft_eq]
  omega

theorem shrd_eq (x : LongLong) {n : Nat} (court : n < 32) :
    shrd (motHaut x) (motBas x) n = motBas (x >>> n) := by
  ext i dans
  simp only [shrd, motHaut, motBas, Nat.mod_eq_of_lt court, BitVec.getElem_or, BitVec.getElem_shiftLeft,
    BitVec.getElem_ushiftRight, BitVec.getElem_extractLsb', BitVec.getLsbD_extractLsb',
    BitVec.getLsbD_ushiftRight, Nat.zero_add]
  -- the bit `n + i` is in the low word, or in the high one
  by_cases bas : n + i < 32
  · have reste : i < 32 - n := by omega
    simp [bas, reste]
  · have reste : ¬ i < 32 - n := by omega
    have place : 32 + (i - (32 - n)) = n + i := by omega
    simp [bas, reste, place]

theorem testBit_cinq {n : Nat} (borne : n ≤ 32) : n.testBit 5 = decide (n = 32) := by
  interval_cases n <;> rfl

theorem rshift64_32_eq (x : LongLong) {n : Nat} (borne : n ≤ 32) :
    rshift64_32 (motHaut x) (motBas x) n = motBas (x >>> n) := by
  rw [rshift64_32, testBit_cinq borne]
  by_cases plein : n = 32
  · subst plein
    apply BitVec.eq_of_toNat_eq
    rw [if_pos (by rfl), motHaut_toNat, motBas_toNat, BitVec.toNat_ushiftRight, Nat.shiftRight_eq_div_pow]
    omega
  · rw [if_neg (by simp [plein])]
    exact shrd_eq x (by omega)

theorem rshift64_eq (x : LongLong) {n : Nat} (borne : n ≤ 32) :
    rshift64 (motHaut x) (motBas x) n = (motHaut (x >>> n), motBas (x >>> n)) := by
  have bas := rshift64_32_eq x borne
  rw [rshift64_32] at bas
  rw [rshift64, testBit_cinq borne] at *
  by_cases plein : n = 32
  · subst plein
    have haut : motHaut (x >>> 32) = 0 := by
      apply BitVec.eq_of_toNat_eq
      rw [motHaut_toNat, BitVec.toNat_ushiftRight, Nat.shiftRight_eq_div_pow]
      show x.toNat / 2 ^ 32 / 2 ^ 32 = 0
      omega
    rw [if_pos (by rfl)] at bas ⊢
    rw [haut, ← bas]
    simp
  · have haut : motHaut x >>> (n % 32) = motHaut (x >>> n) := by
      apply BitVec.eq_of_toNat_eq
      rw [BitVec.toNat_ushiftRight, motHaut_toNat, motHaut_toNat, BitVec.toNat_ushiftRight,
        Nat.shiftRight_eq_div_pow, Nat.shiftRight_eq_div_pow, Nat.mod_eq_of_lt (by omega),
        Nat.div_div_eq_div_mul, Nat.div_div_eq_div_mul, Nat.mul_comm]
    rw [if_neg (by simp [plein])] at bas ⊢
    rw [haut, bas]

end Mots

theorem div64_32_eq {x1 x0 d : Entier} (nonNul : d ≠ 0) (petit : x1.toNat < d.toNat) :
    div64_32 x1 x0 d = some (BitVec.ofNat 32 ((x1.toNat * 2 ^ 32 + x0.toNat) % d.toNat),
      BitVec.ofNat 32 ((x1.toNat * 2 ^ 32 + x0.toNat) / d.toNat)) := by
  have court : (x1.toNat * 2 ^ 32 + x0.toNat) / d.toNat < 2 ^ 32 := by
    apply Nat.div_lt_of_lt_mul
    have bas := x0.isLt
    have haut := Nat.mul_le_mul_right (2 ^ 32) petit
    omega
  rw [div64_32, if_neg]
  rintro (nul | grand)
  · exact nonNul nul
  · omega

section Estimation

def decalage (y : LongLong) : Nat := hardBsr (motHaut y) + 1

def Long (y : LongLong) : Prop := 2 ^ 32 ≤ y.toNat

theorem long_iff : Long y ↔ motHaut y ≠ 0 := by
  rw [Long, ne_eq, ← BitVec.toNat_inj, motHaut_toNat]
  show _ ↔ ¬ y.toNat / 2 ^ 32 = 0
  omega

private theorem mot_nonNul (long : Long y) : (motHaut y).toNat ≠ 0 := by
  rw [motHaut_toNat]
  rw [Long] at long
  omega

theorem decalage_borne (long : Long y) : decalage y ≤ 32 :=
  (Nat.log2_lt (mot_nonNul long)).mpr (motHaut y).isLt

theorem tete_borne (long : Long y) :
    2 ^ 31 ≤ y.toNat / 2 ^ decalage y ∧ y.toNat / 2 ^ decalage y < 2 ^ 32 := by
  have bas := Nat.log2_self_le (mot_nonNul long)
  have haut := Nat.lt_log2_self (n := (motHaut y).toNat)
  have double : 2 ^ decalage y = 2 * 2 ^ (motHaut y).toNat.log2 := by rw [decalage, hardBsr, Nat.pow_succ']
  rw [Nat.pow_succ', ← double, motHaut_toNat] at haut
  rw [motHaut_toNat] at bas double
  have positif : 0 < 2 ^ decalage y := Nat.two_pow_pos _
  constructor
  · apply (Nat.le_div_iff_mul_le positif).mpr
    omega
  · apply (Nat.div_lt_iff_lt_mul positif).mpr
    omega

theorem decalage_unique {l : Nat} (tete : 2 ^ 31 ≤ y.toNat / 2 ^ (l + 1)) (court : y.toNat / 2 ^ (l + 1) < 2 ^ 32) :
    Long y ∧ decalage y = l + 1 := by
  have positif : 0 < 2 ^ (l + 1) := Nat.two_pow_pos _
  have double : 2 ^ (l + 1) = 2 * 2 ^ l := Nat.pow_succ'
  have bas := (Nat.le_div_iff_mul_le positif).mp tete
  have haut := (Nat.div_lt_iff_lt_mul positif).mp court
  have un : 0 < 2 ^ l := Nat.two_pow_pos _
  have long : Long y := by
    rw [Long]
    omega
  refine ⟨long, ?_⟩
  rw [decalage, hardBsr, Nat.add_right_cancel_iff]
  apply (Nat.log2_eq_iff (mot_nonNul long)).mpr
  rw [motHaut_toNat]
  omega

theorem quotient_court (long : Long y) (x : LongLong) :
    x.toNat / 2 ^ decalage y < 2 * (y.toNat / 2 ^ decalage y) * (y.toNat / 2 ^ decalage y + 1) ∧
      x.toNat / 2 ^ decalage y / 2 ^ 32 < 2 ^ 31 := by
  have court : x.toNat / 2 ^ decalage y < 2 ^ 63 := by
    apply (Nat.div_lt_iff_lt_mul (Nat.two_pow_pos _)).mpr
    have double : 2 ^ decalage y = 2 * 2 ^ (motHaut y).toNat.log2 := by rw [decalage, hardBsr, Nat.pow_succ']
    have un : 0 < 2 ^ (motHaut y).toNat.log2 := Nat.two_pow_pos _
    omega
  have tete := (tete_borne long).1
  refine ⟨court.trans_le ?_, by omega⟩
  calc 2 ^ 63 ≤ 2 * 2 ^ 31 * (2 ^ 31 + 1) := by norm_num
    _ ≤ _ := Nat.mul_le_mul (Nat.mul_le_mul_left 2 tete) (Nat.add_le_add_right tete 1)

/-- The first block faults when the leading 32 bits of the divisor are ones; else it divides the
leading parts, the divisor's rounded up. -/
theorem estimer_eq (long : Long y) : estimer x y =
    if y.toNat / 2 ^ decalage y = 2 ^ 32 - 1 then none
    else some (BitVec.ofNat 32 (x.toNat / 2 ^ decalage y / (y.toNat / 2 ^ decalage y + 1))) := by
  have borne := decalage_borne long
  obtain ⟨tete, court⟩ := tete_borne long
  obtain ⟨-, petit⟩ := quotient_court long x
  have diviseur : (motBas (y >>> decalage y) + 1).toNat = (y.toNat / 2 ^ decalage y + 1) % 2 ^ 32 := by
    rw [BitVec.toNat_add, motBas_toNat, BitVec.toNat_ushiftRight, Nat.shiftRight_eq_div_pow,
      Nat.mod_eq_of_lt court]
    rfl
  have donne : estimer x y = (div64_32 (motHaut (x >>> decalage y)) (motBas (x >>> decalage y))
      (motBas (y >>> decalage y) + 1)).map Prod.snd := by
    have deplace := rshift64_eq x borne
    rw [← rshift64_32_eq y borne]
    rw [decalage] at deplace ⊢
    simp only [estimer, deplace]
  rw [donne]
  split
  · next uns =>
      rw [uns] at diviseur
      rw [div64_32, if_pos (.inl (BitVec.eq_of_toNat_eq diviseur))]
      rfl
  · next autre =>
      rw [Nat.mod_eq_of_lt (by omega)] at diviseur
      have dividende : (motHaut (x >>> decalage y)).toNat * 2 ^ 32 + (motBas (x >>> decalage y)).toNat =
          x.toNat / 2 ^ decalage y := by
        rw [deux_mots, BitVec.toNat_ushiftRight, Nat.shiftRight_eq_div_pow]
      rw [div64_32_eq, dividende, diviseur]
      · rfl
      · intro nul
        rw [nul] at diviseur
        cases diviseur
      · rw [motHaut_toNat, BitVec.toNat_ushiftRight, Nat.shiftRight_eq_div_pow, diviseur]
        omega

theorem estimer_borne (long : Long y) {q : Entier} (donne : estimer x y = some q) :
    q.toNat ≤ x.toNat / y.toNat ∧ x.toNat / y.toNat ≤ q.toNat + 2 := by
  rw [estimer_eq long] at donne
  split at donne
  · cases donne
  · cases donne
    obtain ⟨assez, petit⟩ := quotient_court long x
    have positif : 0 < 2 ^ decalage y := Nat.two_pow_pos _
    have court : x.toNat / 2 ^ decalage y / (y.toNat / 2 ^ decalage y + 1) < 2 ^ 32 := by
      have tete := (tete_borne long).1
      apply Nat.div_lt_of_lt_mul
      omega
    rw [BitVec.toNat_ofNat, Nat.mod_eq_of_lt court]
    have divise : 0 < y.toNat := by
      rw [Long] at long
      omega
    exact ⟨estimate_le positif divise, le_estimate positif assez⟩

/-- The locals of the correction: `r` is what `x0` divisors leave of the dividend. -/
def Corrige (x y : LongLong) (v : Entier × LongLong) : Prop := x.toNat = v.1.toNat * y.toNat + v.2.toNat

theorem corrige_depart (long : Long y) {q : Entier} (moins : q.toNat ≤ x.toNat / y.toNat) :
    Corrige x y (q, x - y * q.setWidth 64) := by
  have divise : 0 < y.toNat := by
    rw [Long] at long
    omega
  have produit : q.toNat * y.toNat ≤ x.toNat := (Nat.le_div_iff_mul_le divise).mp moins
  have valeur : (y * q.setWidth 64).toNat = q.toNat * y.toNat := by
    have large : q.toNat < 2 ^ 64 := q.isLt.trans (by norm_num)
    rw [BitVec.toNat_mul, BitVec.toNat_setWidth, Nat.mod_eq_of_lt large, Nat.mul_comm]
    exact Nat.mod_eq_of_lt (by omega)
  show x.toNat = q.toNat * y.toNat + (x - y * q.setWidth 64).toNat
  rw [BitVec.toNat_sub_of_le (BitVec.le_def.mpr (by omega)), valeur]
  omega

theorem corriger_finit (long : Long y) {v : Entier × LongLong} (corrige : Corrige x y v) {n : Nat}
    (assez : x.toNat / y.toNat - v.1.toNat < n) : loop (tourCorriger y) n v = some (x / y, x % y) := by
  have divise : 0 < y.toNat := by
    rw [Long] at long
    omega
  have quotient : ∀ v, Corrige x y v → x.toNat / y.toNat = v.1.toNat + v.2.toNat / y.toNat := by
    intro v corrige
    rw [corrige, Nat.mul_comm, Nat.mul_add_div divise]
  -- a turn ends with the result, or brings the digit nearer to the quotient
  have tour : ∀ v, Corrige x y v → (∃ t, tourCorriger y v = some (.inr t) ∧ t = (x / y, x % y)) ∨
      ∃ v', tourCorriger y v = some (.inl v') ∧ Corrige x y v' ∧
        x.toNat / y.toNat - v'.1.toNat < x.toNat / y.toNat - v.1.toNat := by
    rintro ⟨q, r⟩ corrige
    have somme := quotient _ corrige
    rw [Corrige] at corrige
    simp only at somme corrige
    by_cases reste : y ≤ r
    · have un : 1 ≤ r.toNat / y.toNat := (Nat.one_le_div_iff divise).mpr (BitVec.le_def.mp reste)
      have court : x.toNat / y.toNat < 2 ^ 32 := by
        apply Nat.div_lt_of_lt_mul
        rw [Long] at long
        omega
      have suivant : (q + 1).toNat = q.toNat + 1 := by
        rw [BitVec.toNat_add]
        exact Nat.mod_eq_of_lt (by show q.toNat + 1 < 2 ^ 32; omega)
      refine .inr ⟨(q + 1, r - y), by rw [tourCorriger, if_pos reste], ?_, ?_⟩
      · have moins := BitVec.le_def.mp reste
        rw [Corrige, suivant, BitVec.toNat_sub_of_le reste, Nat.add_mul]
        omega
      · simp only [suivant]
        omega
    · have petit : r.toNat < y.toNat := by
        rw [BitVec.le_def] at reste
        omega
      refine .inl ⟨_, by rw [tourCorriger, if_neg reste], ?_⟩
      rw [Nat.div_eq_of_lt petit] at somme
      apply Prod.ext
      · apply BitVec.eq_of_toNat_eq
        rw [BitVec.toNat_setWidth, BitVec.toNat_udiv, somme]
        exact Nat.mod_eq_of_lt (q.isLt.trans (by norm_num))
      · apply BitVec.eq_of_toNat_eq
        rw [BitVec.toNat_umod, corrige, Nat.mul_comm, Nat.mul_add_mod, Nat.mod_eq_of_lt petit]
  obtain ⟨t, resultat, rfl⟩ := loop_total _ tour corrige assez
  exact resultat

end Estimation

section Courte

variable (court : ¬ Long y)
include court

theorem diviseur_court : y.toNat = (motBas y).toNat := by
  rw [Long] at court
  rw [motBas_toNat]
  omega

theorem une_division (petit : motHaut x < motBas y) :
    (div64_32 (motHaut x) (motBas x) (motBas y)).map (fun v => (v.2.setWidth 64, v.1.setWidth 64)) =
      some (x / y, x % y) := by
  have petit' := BitVec.lt_def.mp petit
  have nonNul : motBas y ≠ 0 := by
    rintro nul
    rw [nul] at petit'
    exact absurd petit' (Nat.not_lt_zero _)
  have quotient : x.toNat / y.toNat < 2 ^ 32 := by
    apply Nat.div_lt_of_lt_mul
    rw [diviseur_court court]
    have bas := motBas_toNat x
    have haut := motHaut_toNat x
    omega
  have reste : x.toNat % y.toNat < 2 ^ 32 :=
    (Nat.mod_lt _ (by rw [diviseur_court court]; omega)).trans (by rw [diviseur_court court]; exact (motBas y).isLt)
  rw [div64_32_eq nonNul petit', deux_mots, ← diviseur_court court]
  apply congrArg some
  apply Prod.ext
  · apply BitVec.eq_of_toNat_eq
    simp only [BitVec.toNat_setWidth, BitVec.toNat_ofNat, BitVec.toNat_udiv]
    rw [Nat.mod_eq_of_lt quotient, Nat.mod_eq_of_lt (quotient.trans (by norm_num))]
  · apply BitVec.eq_of_toNat_eq
    simp only [BitVec.toNat_setWidth, BitVec.toNat_ofNat, BitVec.toNat_umod]
    rw [Nat.mod_eq_of_lt reste, Nat.mod_eq_of_lt (reste.trans (by norm_num))]

theorem deux_divisions (nonNul : motBas y ≠ 0) :
    (do
      let (x2, x1) ← div64_32 0 (motHaut x) (motBas y)
      let (x2, x0) ← div64_32 x2 (motBas x) (motBas y)
      some ((x1.setWidth 64) <<< 32 + x0.setWidth 64, x2.setWidth 64)) = some (x / y, x % y) := by
  have egal := diviseur_court court
  have mots := deux_mots x
  generalize motBas y = d at nonNul egal ⊢
  generalize motHaut x = x1 at mots ⊢
  generalize motBas x = x0 at mots ⊢
  have positif : 0 < d.toNat := Nat.pos_of_ne_zero fun nul => nonNul (BitVec.eq_of_toNat_eq nul)
  have resteCourt : x1.toNat % d.toNat < d.toNat := Nat.mod_lt _ positif
  have reste : (BitVec.ofNat 32 (x1.toNat % d.toNat)).toNat = x1.toNat % d.toNat := by
    rw [BitVec.toNat_ofNat, Nat.mod_eq_of_lt (resteCourt.trans d.isLt)]
  have premier : div64_32 0 x1 d =
      some (BitVec.ofNat 32 (x1.toNat % d.toNat), BitVec.ofNat 32 (x1.toNat / d.toNat)) := by
    have zero : (0 : Entier).toNat = 0 := rfl
    rw [div64_32_eq nonNul (by rwa [zero]), zero, Nat.zero_mul, Nat.zero_add]
  rw [premier]
  simp only [Option.bind_eq_bind, Option.bind_some]
  rw [div64_32_eq nonNul (by rwa [reste]), reste]
  simp only [Option.bind_some]
  have bas : (x1.toNat % d.toNat * 2 ^ 32 + x0.toNat) / d.toNat < 2 ^ 32 := by
    apply Nat.div_lt_of_lt_mul
    have mot := x0.isLt
    have serre := Nat.mul_le_mul_right (2 ^ 32) resteCourt
    omega
  have haut : x1.toNat / d.toNat < 2 ^ 32 := (Nat.div_le_self _ _).trans_lt x1.isLt
  have dernier : (x1.toNat % d.toNat * 2 ^ 32 + x0.toNat) % d.toNat < 2 ^ 32 := (Nat.mod_lt _ positif).trans d.isLt
  apply congrArg some
  apply Prod.ext
  · apply BitVec.eq_of_toNat_eq
    rw [assembler haut bas, BitVec.toNat_udiv, egal, ← mots, two_digits_div positif _ x1.toNat x0.toNat]
  · apply BitVec.eq_of_toNat_eq
    rw [BitVec.toNat_umod, egal, ← mots, two_digits_mod _ x1.toNat x0.toNat, BitVec.toNat_setWidth, BitVec.toNat_ofNat,
      Nat.mod_eq_of_lt dernier, Nat.mod_eq_of_lt (dernier.trans (by norm_num))]

end Courte

section Decalages

theorem bit_haut (div : LongLong) : div >>> 32 &&& 0x80000000 ≠ 0 ↔ 2 ^ 63 ≤ div.toNat := by
  have masque : (0x80000000 : LongLong) = BitVec.twoPow 64 31 := rfl
  have lu : (div >>> 32).getLsbD 31 = decide (2 ^ 63 ≤ div.toNat) := by
    rw [BitVec.getLsbD_ushiftRight]
    exact BitVec.msb_eq_decide div
  rw [masque, BitVec.and_twoPow, lu]
  by_cases haut : 2 ^ 63 ≤ div.toNat
  · rw [decide_eq_true haut, if_pos rfl]
    exact ⟨fun _ => haut, fun _ => by decide⟩
  · rw [decide_eq_false haut, if_neg (by decide)]
    exact ⟨fun autre => absurd rfl autre, fun plein => absurd plein haut⟩

structure Double (x d : LongLong) (v : LongLong × LongLong) : Prop where
  puissance : ∃ k, v.2.toNat = 2 ^ k ∧ v.1.toNat = d.toNat * 2 ^ k
  dedans : v.1.toNat ≤ x.toNat

theorem doubler_finit {d : LongLong} (nonNul : d ≠ 0) (petit : d ≤ x) :
    ∃ v, loop (tourDoubler x) (2 ^ 64 - d.toNat + 1) (d, 1) = some v ∧ Double x d v ∧
      x.toNat < 2 * v.1.toNat := by
  have positif : 0 < d.toNat := Nat.pos_of_ne_zero fun nul => nonNul (BitVec.eq_of_toNat_eq nul)
  have depart : Double x d (d, 1) := ⟨⟨0, rfl, (Nat.mul_one _).symm⟩, BitVec.le_def.mp petit⟩
  refine loop_total (fun v => 2 ^ 64 - v.1.toNat) (I := Double x d) ?_ depart (Nat.lt_succ_self _)
  rintro ⟨div, mul⟩ double
  obtain ⟨⟨k, puissance, produit⟩, dedans⟩ := double
  simp only at puissance produit dedans
  have borne := x.isLt
  by_cases plein : 2 ^ 63 ≤ div.toNat
  · refine .inl ⟨(div, mul), by rw [tourDoubler, if_pos ((bit_haut div).mpr plein)], ⟨⟨k, puissance, produit⟩, dedans⟩, ?_⟩
    show x.toNat < 2 * div.toNat
    omega
  · have somme : (div + div).toNat = 2 * div.toNat := by
      rw [BitVec.toNat_add]
      omega
    have tour : tourDoubler x (div, mul) =
        if x < div + div then some (.inr (div, mul)) else some (.inl (div + div, mul + mul)) := by
      rw [tourDoubler, if_neg fun haut => plein ((bit_haut div).mp haut)]
    by_cases arret : x < div + div
    · refine .inl ⟨(div, mul), by rw [tour, if_pos arret], ⟨⟨k, puissance, produit⟩, dedans⟩, ?_⟩
      have apres := BitVec.lt_def.mp arret
      show x.toNat < 2 * div.toNat
      omega
    · have encore : 2 * div.toNat ≤ x.toNat := by
        rw [BitVec.lt_def] at arret
        omega
      have non_nul : 0 < div.toNat := by
        rw [produit]
        exact Nat.mul_pos positif (Nat.two_pow_pos k)
      have moindre : 2 ^ k ≤ div.toNat := by
        rw [produit]
        exact Nat.le_mul_of_pos_left _ positif
      refine .inr ⟨(div + div, mul + mul), by rw [tour, if_neg arret], ⟨⟨k + 1, ?_, ?_⟩, ?_⟩, ?_⟩
      · show (mul + mul).toNat = 2 ^ (k + 1)
        rw [BitVec.toNat_add, puissance, Nat.pow_succ]
        omega
      · show (div + div).toNat = d.toNat * 2 ^ (k + 1)
        rw [somme, produit, Nat.pow_succ]
        ring
      · show (div + div).toNat ≤ x.toNat
        omega
      · show 2 ^ 64 - (div + div).toNat < 2 ^ 64 - div.toNat
        omega

def EnCours (x d : LongLong) (v : Variables) : Prop :=
  ∃ k, v.mul.toNat = 2 ^ k ∧ v.div.toNat = d.toNat * 2 ^ k ∧ Restoring x.toNat d.toNat (2 ^ k) v.q.toNat v.x.toNat

theorem retrancher_finit {d : LongLong} {v : Variables} (enCours : EnCours x d v) :
    loop tourRetrancher (v.mul.toNat + 1) v = some (x / d, x % d) := by
  have tour : ∀ v, EnCours x d v → (∃ t, tourRetrancher v = some (.inr t) ∧ t = (x / d, x % d)) ∨
      ∃ v', tourRetrancher v = some (.inl v') ∧ EnCours x d v' ∧ v'.mul.toNat < v.mul.toNat := by
    rintro v ⟨k, puissance, produit, division⟩
    have moitie : (v.mul / 2).toNat = 2 ^ k / 2 := by
      rw [BitVec.toNat_udiv, puissance]
      rfl
    have moitieDiv : (v.div / 2).toNat = d.toNat * 2 ^ k / 2 := by
      rw [BitVec.toNat_udiv, produit]
      rfl
    cases k with
    | zero =>
        have nul : v.mul / 2 = 0 := BitVec.eq_of_toNat_eq moitie
        obtain ⟨quotient, reste⟩ := division.done
        refine .inl ⟨(v.q, v.x), by rw [tourRetrancher]; exact if_pos nul, ?_⟩
        apply Prod.ext
        · exact BitVec.eq_of_toNat_eq (quotient.trans (BitVec.toNat_udiv ..).symm)
        · exact BitVec.eq_of_toNat_eq (reste.trans (BitVec.toNat_umod ..).symm)
    | succ k =>
        rw [Nat.pow_succ, Nat.mul_div_cancel _ (by norm_num)] at moitie
        rw [Nat.pow_succ, ← Nat.mul_assoc, Nat.mul_div_cancel _ (by norm_num)] at moitieDiv
        rw [Nat.pow_succ, Nat.mul_two] at division puissance
        have un : 0 < 2 ^ k := Nat.two_pow_pos k
        have nonNul : v.mul / 2 ≠ 0 := by
          intro nul
          rw [nul] at moitie
          exact un.ne moitie
        have plus : v.mul.toNat = 2 * (v.mul / 2).toNat := by omega
        rw [tourRetrancher]
        by_cases moins : v.x < v.div / 2
        · refine .inr ⟨{ v with mul := v.mul / 2, div := v.div / 2 }, ?_, ⟨k, moitie, moitieDiv, ?_⟩, ?_⟩
          · exact (if_neg nonNul).trans (if_pos moins)
          · apply division.skip
            rw [← moitieDiv]
            exact BitVec.lt_def.mp moins
          · show (v.mul / 2).toNat < v.mul.toNat
            omega
        · have assez : v.div / 2 ≤ v.x := BitVec.not_lt.mp moins
          have suite := division.take (moitieDiv ▸ BitVec.le_def.mp assez)
          have positif : 0 < d.toNat := Nat.pos_of_mul_pos_right (Nat.zero_lt_of_lt division.small)
          have court : v.q.toNat + 2 ^ k < 2 ^ 64 := by
            have borne := x.isLt
            have valeur := suite.value
            have large := Nat.le_mul_of_pos_right (v.q.toNat + 2 ^ k) positif
            omega
          refine .inr ⟨⟨v.mul / 2, v.div / 2, v.q + v.mul / 2, v.x - v.div / 2⟩, ?_, ⟨k, moitie, moitieDiv, ?_⟩, ?_⟩
          · exact (if_neg nonNul).trans (if_neg moins)
          · show Restoring _ _ _ (v.q + v.mul / 2).toNat (v.x - v.div / 2).toNat
            rw [BitVec.toNat_add, moitie, Nat.mod_eq_of_lt court, BitVec.toNat_sub_of_le assez, moitieDiv]
            exact suite
          · show (v.mul / 2).toNat < v.mul.toNat
            omega
  obtain ⟨t, resultat, rfl⟩ := loop_total (fun v => v.mul.toNat) tour enCours (Nat.lt_succ_self _)
  exact resultat

end Decalages

end ProjetSysteme.Invariant.Division
