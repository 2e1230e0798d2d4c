/- Invariant/EarlyMm
   digest: The tables of the boot as a function of the page number, and what a region adds to it. -/

import ProjetSysteme.Invariant.Paging
import ProjetSysteme.Kernel.EarlyMm

set_option autoImplicit false
set_option relaxedAutoImplicit false

namespace ProjetSysteme.Invariant.EarlyMm

open Kernel Kernel.EarlyMm

/-- Where crt0.S puts the directory and the 64 tables. -/
structure Place (pgdir pgtab : Mot) : Prop where
  repertoire : pgdir.toNat % 4096 = 0
  tables : pgtab.toNat % 4096 = 0
  disjoints : pgdir.toNat + 4096 ≤ pgtab.toNat
  borne : pgtab.toNat + 4096 * 64 ≤ 2 ^ 32

structure Projete (pgdir pgtab : Mot) (c : Nat → Mot) (mots : Mot → Mot) : Prop where
  repertoire : ∀ i < 1024, mots (caseTable pgdir i) = earlyMmFillPgdir pgtab 64 i
  entrees : ∀ p < 65536, mots (caseTable pgtab p) = c p

variable {pgdir pgtab : Mot} {c : Nat → Mot} {mots : Mot → Mot}

section Adresses

theorem caseTable_toNat {base : Mot} {i : Nat} (borne : base.toNat + 4 * i < 2 ^ 32) :
    (caseTable base i).toNat = base.toNat + 4 * i := by
  rw [caseTable, BitVec.toNat_add, BitVec.toNat_ofNat]
  omega

theorem entree_repertoire (place : Place pgdir pgtab) {i : Nat} (dans : i < 64) (j : Nat) :
    earlyMmFillPgdir pgtab 64 i &&& 1 ≠ 0 ∧ earlyMmFillPgdir pgtab 64 i &&& 2 ≠ 0 ∧
      caseTable (earlyMmFillPgdir pgtab 64 i &&& 0xFFFFF000) j = caseTable pgtab (1024 * i + j) := by
  have entree : earlyMmFillPgdir pgtab 64 i = (pgtab + BitVec.ofNat 32 (i * 0x1000)) ||| 3 := if_pos dans
  have adresse : (pgtab + BitVec.ofNat 32 (i * 0x1000)).toNat = pgtab.toNat + i * 4096 := by
    have borne := place.borne
    rw [BitVec.toNat_add, BitVec.toNat_ofNat]
    omega
  have aligne : (pgtab + BitVec.ofNat 32 (i * 0x1000)).toNat % 4096 = 0 := by
    have tables := place.tables
    omega
  rw [entree, drapeau_mis _ (by decide : (3 : Mot) &&& 1 = 1), drapeau_mis _ (by decide : (3 : Mot) &&& 2 = 2),
    drapeau_autre _ (by decide : (3 : Mot) &&& 0xFFFFF000 = 0)]
  refine ⟨by decide, by decide, ?_⟩
  have page : (pgtab + BitVec.ofNat 32 (i * 0x1000)) &&& 0xFFFFF000 = pgtab + BitVec.ofNat 32 (i * 0x1000) :=
    adresse_alignee aligne
  rw [page, caseTable, caseTable, BitVec.add_assoc, ← BitVec.ofNat_add]
  congr 2
  omega

theorem page_index (a : Mot) :
    1024 * (a >>> 22).toNat + ((a >>> 12) &&& 0x3FF).toNat = a.toNat / 4096 := by
  have masque : (0x3FF : Mot).toNat = 2 ^ 10 - 1 := rfl
  rw [BitVec.toNat_and, masque, Nat.and_two_pow_sub_one_eq_mod, BitVec.toNat_ushiftRight,
    BitVec.toNat_ushiftRight, Nat.shiftRight_eq_div_pow, Nat.shiftRight_eq_div_pow]
  omega

end Adresses

/-- The page `p` has a byte among the addresses `a`, `a + 4096`, … before `fin`. -/
def Couvre (a fin : Mot) (p : Nat) : Prop := a.toNat / 4096 ≤ p ∧ 4096 * p + a.toNat % 4096 < fin.toNat

instance (a fin : Mot) (p : Nat) : Decidable (Couvre a fin p) := inferInstanceAs (Decidable (_ ∧ _))

def ajouter (r : Region) (c : Nat → Mot) (p : Nat) : Mot :=
  if Couvre r.debut r.fin p then BitVec.ofNat 32 (4096 * p) ||| r.flags else c p

section Boucle

theorem page_adresse (a : Mot) : a &&& 0xFFFFF000 = BitVec.ofNat 32 (4096 * (a.toNat / 4096)) := by
  have masque : (0xFFFFF000 : Mot) = BitVec.allOnes 32 <<< 12 := rfl
  rw [masque]
  ext i dans
  have droite : (BitVec.ofNat 32 (4096 * (a.toNat / 4096)))[i] = (2 ^ 12 * (a.toNat / 2 ^ 12)).testBit i := by
    rw [← BitVec.getLsbD_eq_getElem dans, BitVec.getLsbD_ofNat]
    simp [dans]
  rw [BitVec.getElem_and, BitVec.getElem_shiftLeft, droite, Nat.testBit_two_pow_mul,
    ← BitVec.getLsbD_eq_getElem dans, ← BitVec.testBit_toNat,
    BitVec.getElem_allOnes, Nat.testBit_div_two_pow]
  by_cases bas : i < 12
  · have non : ¬ i ≥ 12 := by omega
    simp [bas, non]
  · have haut : i ≥ 12 := by omega
    have place : i - 12 + 12 = i := by omega
    rw [place]
    simp [bas, haut]

theorem couvre_pas {a fin : Mot} (reste : a < fin) (max : fin.toNat ≤ 2 ^ 28) (p : Nat) :
    Couvre a fin p ↔ p = a.toNat / 4096 ∨ Couvre (a + 4096) fin p := by
  have avant := BitVec.lt_def.mp reste
  have suivant : (a + 4096).toNat = a.toNat + 4096 := by
    have pas : (4096 : Mot).toNat = 4096 := rfl
    rw [BitVec.toNat_add, pas]
    omega
  rw [Couvre, Couvre, suivant]
  omega

theorem Projete.ecrire (place : Place pgdir pgtab) (projete : Projete pgdir pgtab c mots) {p : Nat}
    (dans : p < 65536) (v : Mot) :
    Projete pgdir pgtab (Function.update c p v) (Kernel.ecrire mots (caseTable pgtab p) v) := by
  have borne := place.borne
  have disjoints := place.disjoints
  constructor
  · intro i borneI
    have autre : caseTable pgdir i ≠ caseTable pgtab p := by
      intro meme
      have egal := congrArg BitVec.toNat meme
      rw [caseTable_toNat (by omega), caseTable_toNat (by omega)] at egal
      omega
    rw [← projete.repertoire i borneI]
    exact if_neg autre
  · intro q borneQ
    by_cases meme : q = p
    · subst meme
      rw [Function.update_self]
      exact if_pos rfl
    · have autre : caseTable pgtab q ≠ caseTable pgtab p := by
        intro egal
        have adresses := congrArg BitVec.toNat egal
        rw [caseTable_toNat (by omega), caseTable_toNat (by omega)] at adresses
        omega
      rw [Function.update_of_ne meme, ← projete.entrees q borneQ]
      exact if_neg autre

theorem projete_congr {c' : Nat → Mot} (projete : Projete pgdir pgtab c mots) (meme : ∀ p, c p = c' p) :
    Projete pgdir pgtab c' mots :=
  ⟨projete.repertoire, fun p dans => (projete.entrees p dans).trans (meme p)⟩

theorem mapRegion_projete (place : Place pgdir pgtab) {fin flags : Mot} (max : fin.toNat ≤ 2 ^ 28) {tours : Nat}
    {a : Mot} (projete : Projete pgdir pgtab c mots) (assez : fin.toNat < a.toNat + 4096 * tours) :
    ∃ mots', earlyMmMapRegion mots pgdir (tours + 1) a fin flags = some mots' ∧
      Projete pgdir pgtab (ajouter ⟨a, fin, flags⟩ c) mots' := by
  induction tours generalizing a c mots with
  | zero =>
      have arret : ¬ a < fin := by
        rw [BitVec.lt_def]
        omega
      refine ⟨mots, by rw [earlyMmMapRegion, if_neg arret], projete_congr projete fun p => ?_⟩
      rw [ajouter, if_neg]
      rintro ⟨debut, avant⟩
      simp only at debut avant
      omega
  | succ tours ih =>
      by_cases reste : a < fin
      · have avant := BitVec.lt_def.mp reste
        have index := page_index a
        have dans : (a >>> 22).toNat < 64 := by
          rw [BitVec.toNat_ushiftRight, Nat.shiftRight_eq_div_pow]
          omega
        have ecrite := projete.ecrire place (p := a.toNat / 4096) (by omega) ((a &&& 0xFFFFF000) ||| flags)
        have suivant : (a + 4096).toNat = a.toNat + 4096 := by
          have pas : (4096 : Mot).toNat = 4096 := rfl
          rw [BitVec.toNat_add, pas]
          omega
        obtain ⟨mots', resultat, fini⟩ := ih (a := a + 4096) ecrite (by omega)
        refine ⟨mots', ?_, projete_congr fini fun p => ?_⟩
        · rw [earlyMmMapRegion, if_pos reste]
          dsimp only
          rw [projete.repertoire _ (by omega), (entree_repertoire place dans _).2.2, index]
          exact resultat
        · simp only [ajouter, couvre_pas reste max p]
          by_cases plusLoin : Couvre (a + 4096) fin p
          · rw [if_pos plusLoin, if_pos (.inr plusLoin)]
          · rw [if_neg plusLoin]
            by_cases ici : p = a.toNat / 4096
            · rw [if_pos (.inl ici), ici, Function.update_self, page_adresse]
            · rw [if_neg (not_or.mpr ⟨ici, plusLoin⟩), Function.update_of_ne ici]
      · refine ⟨mots, by rw [earlyMmMapRegion, if_neg reste], projete_congr projete fun p => ?_⟩
        rw [ajouter, if_neg]
        rintro ⟨debut, avant⟩
        rw [BitVec.lt_def] at reste
        simp only at debut avant
        omega

end Boucle

end ProjetSysteme.Invariant.EarlyMm
