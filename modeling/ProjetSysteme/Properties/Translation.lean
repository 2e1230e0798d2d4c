/- Properties/Translation
   source: kernel/page.c
   digest: The translation that a sequence of calls of put_address_reel gives to a new directory. -/

import ProjetSysteme.Invariant.Paging
import ProjetSysteme.Kernel.Step

set_option autoImplicit false
set_option relaxedAutoImplicit false

namespace ProjetSysteme.Properties

open Kernel Invariant Library.PageTable

/-- The walk of the processor through the two levels: the frame of a virtual address, and
whether it may be written. -/
def traduire (mots : Mot → Mot) (pd v : Mot) : Option (Mot × Bool) :=
  let pde := mots (pd + 4 * (v >>> 22))
  if pde &&& 1 = 0 then none
  else
    let pte := mots ((pde &&& 0xFFFFF000) + 4 * ((v >>> 12) &&& 0x3FF))
    if pte &&& 1 = 0 then none
    else some (pte &&& 0xFFFFF000, (pde &&& 2 != 0) && (pte &&& 2 != 0))

/-- The arguments of a call of `put_address_reel`. -/
structure Placement where
  adrReel : Mot
  adrVirt : Mot
  perm : Permission

/-- A sequence of calls of `put_address_reel` on one directory, all of which return 0. -/
def poser (env : Env) (pd : Mot) : List Placement → Memoire → Option Memoire
  | [], m => some m
  | c :: reste, m =>
    match putAddressReel env m c.adrReel c.adrVirt c.perm pd with
    | .ok (0, m) => poser env pd reste m
    | _ => none

/-- The last call for the virtual page of `v`. -/
def derniere (l : List Placement) (v : Mot) : Option Placement :=
  l.reverse.find? fun c => c.adrVirt >>> 12 = v >>> 12

theorem caseTable_repertoire (pd v : Mot) : pd + 4 * (v >>> 22) = caseTable pd (indexRepertoire v) :=
  rfl

theorem caseTable_page (pt v : Mot) :
    pt + 4 * ((v >>> 12) &&& 0x3FF) = caseTable pt (indexTable v) := by
  rw [caseTable]
  congr 1
  apply BitVec.eq_of_toNat_eq
  rw [BitVec.toNat_mul, BitVec.toNat_and, BitVec.toNat_ushiftRight, BitVec.toNat_ofNat]
  change 4 * (v.toNat >>> 12 &&& 2 ^ 10 - 1) % 2 ^ 32 = _
  rw [Nat.and_two_pow_sub_one_eq_mod]
  rfl

theorem traduire_eq (mots : Mot → Mot) (pd : Mot) {v : Mot} (haut : 64 ≤ (indexRepertoire v).val) :
    traduire mots pd v = translate (lireRepertoire mots pd) (indexRepertoire v, indexTable v) := by
  rw [traduire, caseTable_repertoire]
  by_cases absente : mots (caseTable pd (indexRepertoire v)) &&& kMskBitP = 0
  · rw [Library.PageTable.translate, lireRepertoire_absente absente]
    exact if_pos absente
  · rw [Library.PageTable.translate, lireRepertoire_presente haut absente]
    refine (if_neg absente).trans ?_
    rw [caseTable_page]
    simp only [lireTable]
    change (if mots (caseTable (_ &&& kMskAdd) (indexTable v)) &&& kMskBitP = 0 then _ else _) = _
    split
    · rfl
    · rfl

theorem memePage_iff (v w : Mot) : (indexRepertoire v, indexTable v) = (indexRepertoire w, indexTable w) ↔
    v >>> 12 = w >>> 12 := by
  rw [Prod.ext_iff, Fin.ext_iff, Fin.ext_iff, ← BitVec.toNat_inj, BitVec.toNat_ushiftRight,
    BitVec.toNat_ushiftRight]
  simp only [indexRepertoire, indexTable, Nat.shiftRight_eq_div_pow]
  omega

theorem indexRepertoire_haut {v : Mot} (haut : 0x10000000 ≤ v) : 64 ≤ (indexRepertoire v).val := by
  have borne : 0x10000000 ≤ v.toNat := haut
  simp only [indexRepertoire, Nat.shiftRight_eq_div_pow]
  omega

def Placement.mapping (c : Placement) : Mapping (Fin 1024) (Fin 1024) Mot :=
  ⟨(indexRepertoire c.adrVirt, indexTable c.adrVirt), c.adrReel &&& kMskAdd, c.perm = .write⟩

theorem poser_bati {env : Env} (frais : BlocsFrais env) {pd : Mot} {n₀ : Nat} (l : List Placement)
    {m m' : Memoire} (bati : Bati env m pd n₀) (pose : poser env pd l m = some m') :
    Bati env m' pd n₀ ∧ Cadre env pd n₀ m m' ∧
      lireRepertoire m'.mots pd = puts (lireRepertoire m.mots pd) (l.map Placement.mapping) := by
  induction l generalizing m with
  | nil =>
      cases pose
      exact ⟨bati, .refl _, rfl⟩
  | cons c reste ih =>
      rw [poser] at pose
      split at pose
      · next m₁ place =>
          obtain ⟨_, bati₁, cadre₁, lu₁⟩ := putAddressReel_bati frais bati place
          obtain ⟨bati', cadre', lu'⟩ := ih bati₁ pose
          refine ⟨bati', cadre₁.trans cadre', ?_⟩
          rw [lu', lu₁]
          rfl
      · cases pose

/-- After any sequence of calls that return 0, the processor translates each virtual page
from 256 MiB on as the last call for it says, and no other; the entries of the kernel are
those of `pgdir`. -/
theorem traduction_ponctuelle (env : Env) (frais : BlocsFrais env) {m m₁ m' : Memoire} {pd : Mot}
    {l : List Placement} (cree : createPageDirectory env m = (some pd, m₁))
    (pose : poser env pd l m₁ = some m') :
    (∀ v : Mot, 0x10000000 ≤ v → traduire m'.mots pd v =
      (derniere l v).map fun c => (c.adrReel &&& 0xFFFFF000, decide (c.perm = .write))) ∧
    ∀ d : Fin 1024, d.val < 64 → m'.mots (caseTable pd d) = env.pgdir d := by
  obtain ⟨bati, vide, _, noyau, _⟩ := createPageDirectory_bati frais cree
  obtain ⟨_, cadre, lu⟩ := poser_bati frais l bati pose
  constructor
  · intro v haut
    have couvre : Covers (lireRepertoire m₁.mots pd) := by
      rw [vide]
      exact fun d granted table p frame inUse => by cases inUse
    rw [traduire_eq _ _ (indexRepertoire_haut haut), lu, translate_puts couvre, derniere,
      ← List.map_reverse, List.find?_map]
    have meme : (fun m : Mapping (Fin 1024) (Fin 1024) Mot =>
        decide (m.page = (indexRepertoire v, indexTable v))) ∘ Placement.mapping =
        fun c : Placement => decide (c.adrVirt >>> 12 = v >>> 12) := by
      funext c
      exact decide_eq_decide.mpr (memePage_iff c.adrVirt v)
    rw [meme]
    cases l.reverse.find? fun c : Placement => decide (c.adrVirt >>> 12 = v >>> 12) with
    | none => rw [vide]; rfl
    | some c => rfl
  · intro d bas
    rw [cadre.noyau frais bati.racine bas, noyau d bas]

/-- An environment as `Env.exemple`, whose allocator hands out each block once. -/
def envFrais : Env :=
  { Env.exemple with
    memalign := fun n =>
      if n + 256 < 2 ^ 20 then some (BitVec.ofNat 32 (4096 * (n + 256))) else none }

theorem envFrais_blocs : BlocsFrais envFrais := by
  have adresse : ∀ n a, envFrais.memalign n = some a → a.toNat = 4096 * (n + 256) := by
    intro n a bloc
    simp only [envFrais] at bloc
    split at bloc
    · rw [← Option.some.inj bloc, BitVec.toNat_ofNat]
      omega
    · cases bloc
  refine ⟨fun n a bloc => ?_, fun n n' a un deux => ?_⟩
  · rw [adresse n a bloc]
    omega
  · have egal := (adresse n a un).symm.trans (adresse n' a deux)
    omega

theorem traduction_exemple : ∃ pd m₁ m', createPageDirectory envFrais noyauVide.memoire = (some pd, m₁) ∧
    poser envFrais pd [⟨0x5000, 0x40000000, .read⟩, ⟨0x6000, 0x40001000, .write⟩,
      ⟨0x7123, 0x40000FFF, .write⟩, ⟨0x8000, 0x40001000, .read⟩] m₁ = some m' ∧
    traduire m'.mots pd 0x40000000 = some (0x7000, true) ∧
    traduire m'.mots pd 0x40001000 = some (0x8000, false) ∧
    traduire m'.mots pd 0x40002000 = none := by
  obtain ⟨pd, m₁, cree⟩ : ∃ pd m₁, createPageDirectory envFrais noyauVide.memoire = (some pd, m₁) :=
    ⟨_, _, rfl⟩
  have reussi : (poser envFrais 0x100000 [⟨0x5000, 0x40000000, .read⟩, ⟨0x6000, 0x40001000, .write⟩,
      ⟨0x7123, 0x40000FFF, .write⟩, ⟨0x8000, 0x40001000, .read⟩]
      (createPageDirectory envFrais noyauVide.memoire).2).isSome = true := by
    decide +kernel
  have racine : pd = 0x100000 := by
    have egal := congrArg Prod.fst cree
    exact (Option.some.inj egal).symm
  rw [cree, ← racine] at reussi
  obtain ⟨m', pose⟩ := Option.isSome_iff_exists.mp reussi
  obtain ⟨pages, _⟩ := traduction_ponctuelle envFrais envFrais_blocs cree pose
  refine ⟨pd, m₁, m', cree, pose, ?_, ?_, ?_⟩
  · exact (pages _ (by decide)).trans (by decide)
  · exact (pages _ (by decide)).trans (by decide)
  · exact (pages _ (by decide)).trans (by decide)

end ProjetSysteme.Properties
