/- Properties/FreePage
   source: kernel/page.c, kernel/boot/early_mm.c
   digest: The blocks that free_page gives back for a directory. -/

import ProjetSysteme.Invariant.Entries
import ProjetSysteme.Properties.Translation

set_option autoImplicit false
set_option relaxedAutoImplicit false

namespace ProjetSysteme.Properties

open Kernel Invariant

/-- A sequence of calls of `put_address_reel` on one directory, with those that return 0. -/
def poserTout (env : Env) (pd : Mot) : List Placement → Memoire → Option (List Placement × Memoire)
  | [], m => some ([], m)
  | c :: reste, m =>
    match putAddressReel env m c.adrReel c.adrVirt c.perm pd with
    | .error _ => none
    | .ok (r, m) => (poserTout env pd reste m).map fun suite =>
        (if r = 0 then c :: suite.1 else suite.1, suite.2)

def tablesDe (mots : Mot → Mot) (pd : Mot) (i n : Nat) : List Mot :=
  (List.range' i n).filterMap fun j =>
    let v := mots (caseTable pd j)
    if v &&& kMskBitP ≠ 0 then some (v &&& kMskAdd) else none

def tablesNoyau (env : Env) : List Mot :=
  (List.range' 0 64).filterMap fun j =>
    if env.pgdir j &&& kMskBitP ≠ 0 then some (env.pgdir j &&& kMskAdd) else none

def blocsEntre (env : Env) (m m' : Memoire) : List Mot :=
  (List.range' m.nbMemalign (m'.nbMemalign - m.nbMemalign)).filterMap env.memalign

/-- `free_page` frees the directory and the page tables created since the state `m`, each
once, and no table of the kernel. -/
def LibereExactement (env : Env) (m m' : Memoire) (pd : Mot) : Prop :=
  ∃ appels, (freePage m' pd).liberees = appels ++ m'.liberees ∧
    appels.Perm (pd :: blocsEntre env m m') ∧ appels.Nodup ∧ ∀ t ∈ tablesNoyau env, t ∉ appels

structure Peuple (env : Env) (m : Memoire) (pd : Mot) (n₀ : Nat) (faits : List Placement) : Prop where
  bati : Bati env m pd n₀
  complet : Complet env m pd n₀
  presentes : ∀ d : Fin 1024, 64 ≤ d.val →
    (m.mots (caseTable pd d) &&& kMskBitP ≠ 0 ↔ ∃ c ∈ faits, indexRepertoire c.adrVirt = d)

section Repertoire

variable {env : Env} {pd : Mot} {n₀ : Nat} {m m' : Memoire}

theorem poserTout_peuple (frais : BlocsFrais env) {l avant faits : List Placement}
    (peuple : Peuple env m pd n₀ avant) (essai : poserTout env pd l m = some (faits, m')) :
    Peuple env m' pd n₀ (avant ++ faits) ∧ Cadre env pd n₀ m m' ∧
      ∀ c ∈ faits, 64 ≤ (indexRepertoire c.adrVirt).val := by
  induction l generalizing m avant faits with
  | nil =>
      cases essai
      rw [List.append_nil]
      exact ⟨peuple, .refl _, by simp⟩
  | cons c reste ih =>
      rw [poserTout] at essai
      split at essai
      · cases essai
      · next r m₁ place =>
          obtain ⟨⟨faits', fin⟩, essai', egal⟩ := Option.map_eq_some_iff.mp essai
          obtain ⟨bati₁, cadre₁⟩ := putAddressReel_suite frais peuple.bati place
          obtain ⟨haut, ⟨rfl, refusee⟩ | ⟨rfl, posee⟩⟩ := putAddressReel_entree frais peuple.bati place
          · have peuple₁ : Peuple env m₁ pd n₀ avant := by
              refine ⟨bati₁, peuple.complet.refusee refusee, fun d haut => ?_⟩
              rw [refusee.mots]
              exact peuple.presentes d haut
            rw [if_neg (by decide)] at egal
            cases egal
            obtain ⟨peuple', cadre', hauts⟩ := ih peuple₁ essai'
            exact ⟨peuple', cadre₁.trans cadre', hauts⟩
          · have peuple₁ : Peuple env m₁ pd n₀ (avant ++ [c]) := by
              refine ⟨bati₁, peuple.complet.posee frais haut posee, fun d haut => ?_⟩
              rw [posee.presente_iff frais d, peuple.presentes d haut]
              simp [or_and_right, exists_or, eq_comm]
            rw [if_pos rfl] at egal
            cases egal
            obtain ⟨peuple', cadre', hauts⟩ := ih peuple₁ essai'
            rw [List.append_assoc, List.singleton_append] at peuple'
            refine ⟨peuple', cadre₁.trans cadre', fun c' mem => ?_⟩
            rcases List.mem_cons.mp mem with rfl | mem
            · exact haut
            · exact hauts c' mem

theorem mem_tablesDe {mots : Mot → Mot} {i n : Nat} {t : Mot} : t ∈ tablesDe mots pd i n ↔
    ∃ j, (i ≤ j ∧ j < i + n) ∧ mots (caseTable pd j) &&& kMskBitP ≠ 0 ∧
      mots (caseTable pd j) &&& kMskAdd = t := by
  simp only [tablesDe, List.mem_filterMap, List.mem_range'_1, Option.ite_none_right_eq_some,
    Option.some.injEq]

theorem tablesDe_append (mots : Mot → Mot) (pd : Mot) (i n k : Nat) :
    tablesDe mots pd i (n + k) = tablesDe mots pd i n ++ tablesDe mots pd (i + n) k := by
  rw [tablesDe, ← List.range'_append_1, List.filterMap_append]
  rfl

theorem Peuple.tables_perm {faits : List Placement} (peuple : Peuple env m' pd n₀ faits)
    (frais : BlocsFrais env) (suivant : m.nbMemalign = n₀ + 1) :
    (tablesDe m'.mots pd 64 960).Perm (blocsEntre env m m') ∧ (pd :: blocsEntre env m m').Nodup := by
  have bati := peuple.bati
  have bloc : ∀ j, 64 ≤ j ∧ j < 64 + 960 → m'.mots (caseTable pd j) &&& kMskBitP ≠ 0 →
      ∃ d : Fin 1024, d.val = j ∧ ∃ n, n₀ < n ∧ n < m'.nbMemalign ∧ Ouverte env m'.mots pd d n := by
    rintro j ⟨haut, borne⟩ presente
    exact ⟨⟨j, by omega⟩, rfl, bati.tables ⟨j, by omega⟩ haut presente⟩
  have nodupTables : (tablesDe m'.mots pd 64 960).Nodup := by
    refine List.pairwise_filterMap.mpr (List.Pairwise.imp_of_mem ?_ List.nodup_range')
    intro j j' memJ memJ' autre
    simp only [Option.ite_none_right_eq_some, Option.some.injEq]
    rintro t ⟨presente, adresse⟩ t' ⟨presente', adresse'⟩ rfl
    obtain ⟨d, rfl, n, -, -, ouverte⟩ := bloc j (List.mem_range'_1.mp memJ) presente
    obtain ⟨d', rfl, n', -, -, ouverte'⟩ := bloc j' (List.mem_range'_1.mp memJ') presente'
    obtain rfl : n = n' := frais.uniques n n' t (adresse ▸ ouverte.bloc) (adresse' ▸ ouverte'.bloc)
    exact autre (congrArg Fin.val (bati.distinctes d d' n ouverte ouverte'))
  have nodupBlocs : (blocsEntre env m m').Nodup := List.Nodup.filterMap frais.uniques List.nodup_range'
  refine ⟨(List.perm_ext_iff_of_nodup nodupTables nodupBlocs).mpr fun t => ?_,
    List.nodup_cons.mpr ⟨fun mem => ?_, nodupBlocs⟩⟩
  · rw [mem_tablesDe, blocsEntre, List.mem_filterMap]
    constructor
    · rintro ⟨j, borne, presente, rfl⟩
      obtain ⟨d, rfl, n, apres, avant, ouverte⟩ := bloc j borne presente
      exact ⟨n, List.mem_range'_1.mpr (by omega), ouverte.bloc⟩
    · rintro ⟨n, borne, donne⟩
      obtain ⟨apres, avant⟩ := List.mem_range'_1.mp borne
      obtain ⟨d, ouverte⟩ := peuple.complet n t (by omega) (by omega) donne
      have haut := ouverte.haut
      refine ⟨d, by omega, ouverte.presente, ?_⟩
      exact Option.some.inj (ouverte.bloc.symm.trans donne)
  · obtain ⟨n, borne, donne⟩ := List.mem_filterMap.mp mem
    have apres := (List.mem_range'_1.mp borne).1
    have meme := frais.uniques n n₀ pd donne bati.racine
    omega

theorem freePage_liberees (env : Env) (noyau : ∀ d : Fin 1024, d.val < 64 →
    m'.mots (caseTable pd d) = env.pgdir d) : (freePage m' pd).liberees =
      (pd :: (tablesNoyau env ++ tablesDe m'.mots pd 64 896).reverse) ++ m'.liberees := by
  have tables : tablesDe m'.mots pd 0 960 = tablesNoyau env ++ tablesDe m'.mots pd 64 896 := by
    rw [tablesDe_append m'.mots pd 0 64 896]
    congr 1
    refine List.filterMap_congr fun j mem => ?_
    have borne := (List.mem_range'_1.mp mem).2
    have egal := noyau ⟨j, by omega⟩ (by omega)
    simp only [egal]
  rw [← tables, freePage, tablesDe, ← List.range_eq_range']
  rfl

end Repertoire

theorem tablesNoyau_nil_iff {env : Env} :
    tablesNoyau env = [] ↔ ∀ j < 64, env.pgdir j &&& kMskBitP = 0 := by
  simp [tablesNoyau, List.filterMap_eq_nil_iff]

theorem indexRepertoire_960 (v : Mot) : (indexRepertoire v).val < 960 ↔ v < 0xF0000000 := by
  rw [BitVec.lt_def]
  simp only [indexRepertoire, Nat.shiftRight_eq_div_pow]
  have borne : (0xF0000000 : Mot).toNat = 960 * 2 ^ 22 := rfl
  omega

/-- After any sequence of calls on a new directory, `free_page` gives back what it should
exactly when the kernel has no page table and none was created from entry 960 on. -/
theorem libere_iff (env : Env) (frais : BlocsFrais env) {m m₁ m' : Memoire} {pd : Mot}
    {l faits : List Placement} (cree : createPageDirectory env m = (some pd, m₁))
    (essai : poserTout env pd l m₁ = some (faits, m')) :
    LibereExactement env m₁ m' pd ↔
      (∀ j < 64, env.pgdir j &&& kMskBitP = 0) ∧ ∀ c ∈ faits, c.adrVirt < 0xF0000000 := by
  obtain ⟨bati, vide, suivant, noyau, -⟩ := createPageDirectory_bati frais cree
  have neuf : Peuple env m₁ pd m.nbMemalign [] := by
    refine ⟨bati, fun n a apres avant => by omega, fun d haut => ?_⟩
    simp only [List.not_mem_nil, false_and, exists_false, iff_false, not_not]
    by_contra presente
    cases (congrFun vide d).symm.trans (lireRepertoire_presente haut presente)
  obtain ⟨peuple, cadre, hauts⟩ := poserTout_peuple frais neuf essai
  rw [List.nil_append] at peuple
  obtain ⟨perm, nodup⟩ := peuple.tables_perm frais suivant
  have liberees := freePage_liberees env fun d bas =>
    (cadre.noyau frais bati.racine bas).trans (noyau d bas)
  set basses := tablesDe m'.mots pd 64 896 with defBasses
  have toutes : tablesDe m'.mots pd 64 960 = basses ++ tablesDe m'.mots pd 960 64 :=
    tablesDe_append m'.mots pd 64 896 64
  have hautes : tablesDe m'.mots pd 960 64 = [] ↔ ∀ c ∈ faits, c.adrVirt < 0xF0000000 := by
    simp only [List.eq_nil_iff_forall_not_mem, mem_tablesDe, not_exists, not_and]
    constructor
    · intro aucune c mem
      rw [← indexRepertoire_960]
      by_contra grand
      have borne := (indexRepertoire c.adrVirt).isLt
      have presente := (peuple.presentes _ (hauts c mem)).mpr ⟨c, mem, rfl⟩
      exact aucune _ _ (by omega) presente rfl
    · rintro petites t j ⟨grand, borne⟩ presente -
      obtain ⟨c, mem, index⟩ := (peuple.presentes ⟨j, by omega⟩ (by simp only; omega)).mp presente
      have petit := (indexRepertoire_960 c.adrVirt).mpr (petites c mem)
      rw [index] at petit
      exact absurd grand (not_le.mpr petit)
  rw [← tablesNoyau_nil_iff, ← hautes]
  constructor
  · rintro ⟨appels, egal, exacts, -, epargne⟩
    obtain rfl : pd :: (tablesNoyau env ++ basses).reverse = appels :=
      List.append_cancel_right (liberees.symm.trans egal)
    have sansNoyau : tablesNoyau env = [] := by
      refine List.eq_nil_iff_forall_not_mem.mpr fun t mem => epargne t mem ?_
      exact List.mem_cons_of_mem _ (List.mem_reverse.mpr (List.mem_append_left _ mem))
    refine ⟨sansNoyau, List.eq_nil_of_length_eq_zero ?_⟩
    have nombre := exacts.length_eq
    have total := perm.length_eq
    rw [toutes, List.length_append] at total
    simp only [sansNoyau, List.nil_append, List.length_cons, List.length_reverse] at nombre
    omega
  · rintro ⟨sansNoyau, sansHautes⟩
    rw [sansNoyau, List.nil_append] at liberees
    rw [toutes, sansHautes, List.append_nil] at perm
    have exacts : (pd :: basses.reverse).Perm (pd :: blocsEntre env m₁ m') :=
      ((List.reverse_perm basses).trans perm).cons pd
    refine ⟨_, liberees, exacts, exacts.nodup_iff.mpr nodup, ?_⟩
    rw [sansNoyau]
    exact fun t mem => absurd mem List.not_mem_nil

/-- With the page tables of the kernel in `pgdir`, `free_page` gives back some of them for
every directory. -/
theorem libere_noyau (env : Env) (frais : BlocsFrais env) {pgtab : Mot}
    (demarrage : env.pgdir = earlyMmFillPgdir pgtab 64) {m m₁ m' : Memoire} {pd : Mot}
    {l faits : List Placement} (cree : createPageDirectory env m = (some pd, m₁))
    (essai : poserTout env pd l m₁ = some (faits, m')) : ¬ LibereExactement env m₁ m' pd := by
  rw [libere_iff env frais cree essai]
  rintro ⟨sansNoyau, -⟩
  have premiere := sansNoyau 0 (by decide)
  rw [demarrage, earlyMmFillPgdir, if_pos (by decide), drapeau_mis _ (by decide)] at premiere
  exact absurd premiere (by decide)

/-- An environment as `envFrais`, with the page directory of a kernel that starts. -/
def envNoyau : Env := { envFrais with pgdir := earlyMmFillPgdir 0x102000 64 }

theorem envNoyau_blocs : BlocsFrais envNoyau := ⟨envFrais_blocs.alignes, envFrais_blocs.uniques⟩

theorem unePage : ∃ pd m₁ faits m', createPageDirectory envNoyau noyauVide.memoire = (some pd, m₁) ∧
    poserTout envNoyau pd [⟨0x5000, 0x40000000, .read⟩] m₁ = some (faits, m') := by
  obtain ⟨pd, m₁, cree⟩ : ∃ pd m₁, createPageDirectory envNoyau noyauVide.memoire = (some pd, m₁) :=
    ⟨_, _, rfl⟩
  have reussi : (poserTout envNoyau 0x100000 [⟨0x5000, 0x40000000, .read⟩]
      (createPageDirectory envNoyau noyauVide.memoire).2).isSome = true := by
    decide +kernel
  have racine : pd = 0x100000 := (Option.some.inj (congrArg Prod.fst cree)).symm
  rw [cree, ← racine] at reussi
  obtain ⟨⟨faits, m'⟩, essai⟩ := Option.isSome_iff_exists.mp reussi
  exact ⟨pd, m₁, faits, m', cree, essai⟩

theorem libere_noyau_exemple : ∃ pd m₁ faits m',
    createPageDirectory envNoyau noyauVide.memoire = (some pd, m₁) ∧
    poserTout envNoyau pd [⟨0x5000, 0x40000000, .read⟩] m₁ = some (faits, m') ∧
    ¬ LibereExactement envNoyau m₁ m' pd := by
  obtain ⟨pd, m₁, faits, m', cree, essai⟩ := unePage
  exact ⟨pd, m₁, faits, m', cree, essai, libere_noyau envNoyau envNoyau_blocs rfl cree essai⟩

/-- The 64 page tables of the kernel are freed with the directory of one page. -/
theorem libere_tables_noyau : ¬ ∀ env : Env, BlocsFrais env → ∀ m m₁ m' pd l faits,
    createPageDirectory env m = (some pd, m₁) → poserTout env pd l m₁ = some (faits, m') →
    LibereExactement env m₁ m' pd := by
  intro toujours
  obtain ⟨pd, m₁, faits, m', cree, essai⟩ := unePage
  have exact' := toujours envNoyau envNoyau_blocs _ m₁ m' pd _ faits cree essai
  have premiere := ((libere_iff envNoyau envNoyau_blocs cree essai).mp exact').1 0 (by decide)
  exact absurd premiere (by decide)

end ProjetSysteme.Properties
