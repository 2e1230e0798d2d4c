/- Properties/Isolation
   source: kernel/process.c, kernel/phy_mem_allocator.c, kernel/page.c
   digest: No page of a process is mapped by another one, nor free. -/

import ProjetSysteme.Invariant.PageRuns
import ProjetSysteme.Properties.Translation

set_option autoImplicit false
set_option relaxedAutoImplicit false

namespace ProjetSysteme.Properties

open Kernel Invariant Library.Outcome Library.PageTable

def Mappee (k : Noyau) (i : Indice) (f : Mot) : Prop :=
  ∃ v w, kBaseVirtAdr ≤ v ∧ traduire k.memoire.mots (k.table i).pageDirectory v = some (f, w)

/-- The processes that have not terminated share no page, and none of their pages is free. -/
structure MemoireIsolee (k : Noyau) : Prop where
  separes : ∀ i j f, Survit k i → Survit k j → Mappee k i f → Mappee k j f → i = j
  occupees : ∀ i f, Survit k i → Mappee k i f → f ∉ pagesLibres k.memoire

structure Attribuee (env : Env) (m : Memoire) (pd : Mot) (n₀ : Nat) (pid : Int) : Prop where
  bati : Bati env m pd n₀
  couvre : Covers (lireRepertoire m.mots pd)
  pages : ∀ page f w, translate (lireRepertoire m.mots pd) page = some (f, w) →
    ∃ p, (entreesDe pid m).head? = some p ∧ f ∈ pagesPhysiques p

structure Isole (env : Env) (k : Noyau) : Prop where
  blocs : BlocsDistincts k.memoire
  nodup : (toutesLesPages k.memoire).Nodup
  alignees : ∀ a ∈ toutesLesPages k.memoire, a.toNat % 4096 = 0
  repertoires : ∀ i, Survit k i →
    ∃ n₀, Attribuee env k.memoire (k.table i).pageDirectory n₀ (i.val : Int)

theorem mem_toutesLesPages {m : Memoire} {p : PageAllouee} {a : Mot} (mem : p ∈ m.pagesAllouees)
    (dans : a ∈ pagesPhysiques p) : a ∈ toutesLesPages m :=
  List.mem_append_right _ (List.mem_flatMap.mpr ⟨p, mem, dans⟩)

theorem head_mem {m : Memoire} {pid : Int} {p : PageAllouee}
    (premier : (entreesDe pid m).head? = some p) : p ∈ m.pagesAllouees ∧ p.pid = pid :=
  mem_entreesDe.mp (List.mem_of_head? premier)

section Memoires

variable {env : Env} {m m' : Memoire} {pd : Mot} {n₀ : Nat} {pid : Int}

theorem Attribuee.transport (attribuee : Attribuee env m pd n₀ pid)
    (memalign : m.nbMemalign ≤ m'.nbMemalign) (memes : ∀ n b, n < m.nbMemalign →
      env.memalign n = some b → ∀ i : Fin 1024, m'.mots (caseTable b i) = m.mots (caseTable b i))
    (entrees : entreesDe pid m' = entreesDe pid m) : Attribuee env m' pd n₀ pid := by
  obtain ⟨bati, lu⟩ := attribuee.bati.transport memalign memes
  refine ⟨bati, ?_, fun page f w traduite => ?_⟩
  · rw [lu]
    exact attribuee.couvre
  · rw [lu] at traduite
    rw [entrees]
    exact attribuee.pages page f w traduite

theorem Attribuee.put (attribuee : Attribuee env m pd n₀ pid) (frais : BlocsFrais env)
    {p : PageAllouee} (premier : (entreesDe pid m).head? = some p) {ad : Adresse}
    (mem : ad ∈ p.adresses) (aligne : ad.adressePhy.toNat % 4096 = 0) {r : Int}
    (place : putAddressReel env m ad.adressePhy ad.adresseVirt ad.perm pd = .ok (r, m')) :
    Attribuee env m' pd n₀ pid ∧ Cadre env pd n₀ m m' := by
  have listes : MemesListes m m' :=
    (putAddressReel_listes env m ad.adressePhy ad.adresseVirt ad.perm pd).of_ok place
  have entrees : entreesDe pid m' = entreesDe pid m := by
    rw [entreesDe, listes]
    rfl
  by_cases zero : r = 0
  · subst zero
    obtain ⟨_, bati, cadre, lu⟩ := putAddressReel_bati frais attribuee.bati place
    refine ⟨⟨bati, ?_, fun page f w traduite => ?_⟩, cadre⟩
    · rw [lu]
      exact attribuee.couvre.put _ _ _
    · rw [lu, translate_put attribuee.couvre] at traduite
      rw [entrees]
      split at traduite
      · cases traduite
        rw [adresse_alignee aligne]
        exact ⟨p, premier, List.mem_map_of_mem mem⟩
      · exact attribuee.pages page f w traduite
  · -- no block for a page table: nothing is stored
    obtain ⟨mots, memalign⟩ := putAddressReel_echec place zero
    have cadre : Cadre env pd n₀ m m' := ⟨listes, memalign, fun a _ _ => by rw [mots]⟩
    exact ⟨attribuee.transport memalign (fun n b _ _ i => by rw [mots]) entrees, cadre⟩

theorem Attribuee.mapper (frais : BlocsFrais env) (alignees : ∀ a ∈ toutesLesPages m, a.toNat % 4096 = 0)
    (attribuee : Attribuee env m pd n₀ pid) (n i : Nat)
    (mappe : mapperPages env pid pd n i m = .ok m') :
    Attribuee env m' pd n₀ pid ∧ Cadre env pd n₀ m m' := by
  induction n generalizing i m with
  | zero =>
      cases mappe
      exact ⟨attribuee, .refl _⟩
  | succ n ih =>
      rw [mapperPages] at mappe
      split at mappe
      · cases mappe
      · cases mappe
      · exact ih alignees attribuee (i + 1) mappe
      · next adr trouve =>
          obtain ⟨p, premier, mem⟩ := getAdr_vers trouve
          have dans := mem_toutesLesPages (head_mem premier).1 (List.mem_map_of_mem mem)
          split at mappe
          · cases mappe
          · next r m₁ place =>
              have listes : MemesListes m m₁ :=
                (putAddressReel_listes env m adr.adressePhy adr.adresseVirt adr.perm pd).of_ok place
              have pages : toutesLesPages m₁ = toutesLesPages m := by
                rw [listes]
                rfl
              obtain ⟨un, cadre⟩ := attribuee.put frais premier mem (alignees _ dans) place
              obtain ⟨deux, cadre'⟩ := ih (by rwa [pages]) un (i + 1) mappe
              exact ⟨deux, cadre.trans cadre'⟩

/-- The memory operations of a `start` that succeeds: the new directory maps the pages of
its pid, and the words of older blocks stay. -/
theorem creer_attribuee (frais : BlocsFrais env) {nbPage : Nat} (blocs : BlocsDistincts m)
    (alignees : ∀ a ∈ toutesLesPages m, a.toNat % 4096 = 0)
    (cree : creerMemoireProcessus env m pid nbPage = .ok (pd, m')) :
    Attribuee env m' pd m.nbMemalign pid ∧ m.nbMemalign ≤ m'.nbMemalign ∧
      ∀ n b, n < m.nbMemalign → env.memalign n = some b →
        ∀ i : Fin 1024, m'.mots (caseTable b i) = m.mots (caseTable b i) := by
  obtain ⟨m₁, m₂, directory, alloue, _, mappe⟩ := creer_cas cree
  obtain ⟨bati₁, vide, suivant, _, anciens⟩ := createPageDirectory_bati frais directory
  have listes₁ : MemesListes m m₁ := by
    have listes := createPageDirectory_listes env m
    rwa [directory] at listes
  have blocs₁ : BlocsDistincts m₁ := by
    rw [listes₁]
    exact ⟨blocs.nodup, blocs.alloues⟩
  have deplace := ((alloue_sat env m₁ pid nbPage .read blocs₁).of_ok alloue).1
  have alignees₂ : ∀ a ∈ toutesLesPages m₂, a.toNat % 4096 = 0 := by
    intro a mem
    refine alignees a ?_
    have avant := deplace.pages.subset mem
    rw [listes₁] at avant
    exact avant
  have bati₂ : Bati env m₂ pd m.nbMemalign ∧
      lireRepertoire m₂.mots pd = lireRepertoire m₁.mots pd :=
    bati₁.transport deplace.nbMemalign.ge fun _ _ _ _ _ => by rw [deplace.mots]
  have attribuee₂ : Attribuee env m₂ pd m.nbMemalign pid := by
    refine ⟨bati₂.1, ?_, fun page f w traduite => ?_⟩
    · rw [bati₂.2, vide]
      exact fun d granted table p frame inUse => by cases inUse
    · rw [bati₂.2, vide] at traduite
      cases traduite
  obtain ⟨attribuee, cadre⟩ := attribuee₂.mapper frais alignees₂ nbPage 0 mappe
  refine ⟨attribuee, ?_, fun n b avant bloc i => ?_⟩
  · have apres := cadre.memalign
    rw [deplace.nbMemalign, suivant] at apres
    omega
  · rw [cadre.ancien frais bati₁.racine bloc avant i, deplace.mots]
    exact anciens n b avant bloc i

end Memoires

section Runs

variable {env : Env} {e : Evenement} {k k' : Noyau}

theorem Isole.isolee (isole : Isole env k) : MemoireIsolee k := by
  -- a page that a process reaches is a page of the first element of its pid
  have possede : ∀ i f, Survit k i → Mappee k i f →
      ∃ p ∈ k.memoire.pagesAllouees, p.pid = i.val ∧ f ∈ pagesPhysiques p := by
    rintro i f vivant ⟨v, w, haut, traduite⟩
    obtain ⟨n₀, attribuee⟩ := isole.repertoires i vivant
    have borne : (0x10000000 : Mot) ≤ v := BitVec.le_trans (by decide) haut
    rw [traduire_eq _ _ (indexRepertoire_haut borne)] at traduite
    obtain ⟨p, premier, mem⟩ := attribuee.pages _ f w traduite
    obtain ⟨dans, de⟩ := head_mem premier
    exact ⟨p, dans, de, mem⟩
  have nodup := isole.nodup
  rw [toutesLesPages, List.nodup_append] at nodup
  obtain ⟨_, attachees, disjointes⟩ := nodup
  constructor
  · intro i j f vivantI vivantJ mappeeI mappeeJ
    obtain ⟨p, memP, deP, dansP⟩ := possede i f vivantI mappeeI
    obtain ⟨q, memQ, deQ, dansQ⟩ := possede j f vivantJ mappeeJ
    have meme : p = q := by
      by_contra autre
      let _ : Std.Symm fun x y : PageAllouee => (pagesPhysiques x).Disjoint (pagesPhysiques y) :=
        ⟨fun _ _ => List.Disjoint.symm⟩
      exact (List.nodup_flatMap.mp attachees).2.forall memP memQ autre dansP dansQ
    rw [meme, deQ] at deP
    exact (Fin.ext (Int.ofNat.inj deP)).symm
  · intro i f vivant mappee libre
    obtain ⟨p, mem, _, dans⟩ := possede i f vivant mappee
    exact disjointes f libre f (List.mem_flatMap.mpr ⟨p, mem, dans⟩) rfl

theorem Isole.fin (isole : Isole env k) {m : Memoire} {pid : Int} {pd : Mot}
    (rendues : desallouePagesProcess env k.memoire pid = .ok m) (memoire : k'.memoire = freePage m pd)
    (survit : ∀ j, Survit k' j → (j.val : Int) ≠ pid ∧ Survit k j)
    (repertoire : ∀ j, (k'.table j).pageDirectory = (k.table j).pageDirectory) : Isole env k' := by
  obtain ⟨deplace, _, _⟩ := (desalloue_sat env k.memoire pid isole.blocs).of_ok rendues
  have blocs := deplace.blocs
  have pages : (toutesLesPages k'.memoire).Perm (toutesLesPages k.memoire) := by
    rw [memoire]
    exact deplace.pages
  refine ⟨?_, pages.nodup_iff.mpr isole.nodup, fun a mem => isole.alignees a (pages.subset mem),
    fun i vivant => ?_⟩
  · rw [memoire]
    exact ⟨blocs.nodup, blocs.alloues⟩
  · obtain ⟨autre, vivant'⟩ := survit i vivant
    obtain ⟨n₀, attribuee⟩ := isole.repertoires i vivant'
    rw [repertoire, memoire]
    refine ⟨n₀, attribuee.transport ?_ (fun n b _ _ j => ?_) ?_⟩
    · exact deplace.nbMemalign.ge
    · change m.mots _ = _
      rw [deplace.mots]
    · exact deplace.entreesDe autre

theorem Isole.vie (isole : Isole env k) (frais : BlocsFrais env) (vie : Vie env e k k') :
    Isole env k' := by
  cases vie with
  | calme memoire survit repertoire =>
      refine ⟨?_, ?_, ?_, fun i vivant => ?_⟩
      · rw [memoire]
        exact isole.blocs
      · rw [memoire]
        exact isole.nodup
      · rw [memoire]
        exact isole.alignees
      · rw [memoire, repertoire]
        exact isole.repertoires i ((survit i).mp vivant)
  | @naissance pid nbPage mort cree vivant survit repertoire =>
      obtain ⟨blocs, pages, autres, _, _⟩ := creer_pages cree isole.blocs
      obtain ⟨attribuee, suivant, anciens⟩ := creer_attribuee frais isole.blocs isole.alignees cree
      refine ⟨blocs, pages.nodup_iff.mpr isole.nodup, fun a mem => isole.alignees a (pages.subset mem),
        fun i vivantI => ?_⟩
      by_cases meme : i = pid
      · rw [meme]
        exact ⟨_, attribuee⟩
      · obtain ⟨n₀, ancienne⟩ := isole.repertoires i ((survit i meme).mp vivantI)
        rw [repertoire i meme]
        refine ⟨n₀, ancienne.transport suivant anciens (entreesDe_of_autres autres fun egal => ?_)⟩
        exact meme (Fin.ext (Int.ofNat.inj egal))
  | @fin z m nonZero mourant vivant rendues memoire fini survit repertoire =>
      refine isole.fin rendues memoire (fun j vivantJ => ?_) repertoire
      have autre : j ≠ z := by
        rintro rfl
        exact fini vivantJ
      refine ⟨?_, (survit j autre).mp vivantJ⟩
      split
      · omega
      · exact fun egal => autre (Fin.ext (Int.ofNat.inj egal))

theorem isole_of_boot (frais : BlocsFrais env) {memoire : Memoire}
    (cree : createListPagesVides env noyauVide.memoire = .ok memoire) :
    Isole env { noyauVide with memoire := memoire } := by
  obtain ⟨noyau, adrs, libres, appels⟩ := (creerPagesVides_sat env 1000 noyauVide.memoire).of_ok cree
  have vide : memoire.pagesAllouees = [] := by rw [noyau]; rfl
  have pages : (toutesLesPages memoire).Perm adrs := by
    rw [toutesLesPages, vide, List.flatMap_nil, List.append_nil]
    refine libres.trans ?_
    rw [show pagesLibres noyauVide.memoire = [] from rfl, List.append_nil]
  have appel : ∀ n ∈ List.range' 0 1000, ∃ a, env.memalign n = some a := by
    intro n mem
    have dans := List.mem_map_of_mem (f := env.memalign) mem
    rw [show List.range' 0 1000 = List.range' noyauVide.memoire.nbMemalign 1000 from rfl, ← appels] at dans
    obtain ⟨a, _, egal⟩ := List.mem_map.mp dans
    exact ⟨a, egal.symm⟩
  refine ⟨⟨?_, ?_⟩, ?_, fun a mem => ?_, fun i vivant => absurd rfl vivant.1⟩
  · simp [vide]
  · simp [vide]
  · refine pages.nodup_iff.mpr (List.Nodup.of_map some ?_)
    rw [appels]
    refine List.Nodup.map_on (fun x memX y _ egal => ?_) List.nodup_range'
    obtain ⟨a, alloue⟩ := appel x memX
    exact frais.uniques x y a alloue (egal ▸ alloue)
  · have dans := List.mem_map_of_mem (f := some) (pages.subset mem)
    rw [appels] at dans
    obtain ⟨n, _, alloue⟩ := List.mem_map.mp dans
    exact frais.alignes n a alloue

/-- In every run of the process primitives, the processes that have not terminated share no
physical page at user addresses, and no page of theirs is free. -/
theorem memoire_isolee (env : Env) (frais : BlocsFrais env)
    (atteint : Atteint env (fun _ e => deProcessus e = true) k) : MemoireIsolee k := by
  obtain ⟨_, _, isole⟩ := Atteint.vie env (P := Isole env) (fun _ _ => id)
    (fun _ => isole_of_boot frais) (fun k e k' _ isole _ vie => isole.vie frais vie) atteint
  exact isole.isolee

end Runs

theorem memoire_isolee_exemple : ∃ k, Atteint envFrais (fun _ e => deProcessus e = true) k ∧
    Survit k 1 ∧ Survit k 3 ∧ ¬ Survit k 2 ∧
    (traduire k.memoire.mots (k.table 1).pageDirectory 0x40001000).isSome = true ∧
    (traduire k.memoire.mots (k.table 3).pageDirectory 0x40000000).isSome = true ∧ MemoireIsolee k := by
  obtain ⟨k, atteint, test⟩ := Atteint.of_verifier envFrais (C := fun _ e => deProcessus e)
    (l := [demarrer 0, .reprise, .appel (.start "prog" 4096 3 0), .reprise, demarrer 2, .reprise,
      demarrer 1, .reprise, .appel (.kill 2)])
    (T := fun k => decide (Survit k 1 ∧ Survit k 3 ∧ ¬ Survit k 2 ∧
      (traduire k.memoire.mots (k.table 1).pageDirectory 0x40001000).isSome = true ∧
      (traduire k.memoire.mots (k.table 3).pageDirectory 0x40000000).isSome = true))
    (by decide +kernel)
  obtain ⟨un, trois, deux, pageUn, pageTrois⟩ := of_decide_eq_true test
  exact ⟨k, atteint, un, trois, deux, pageUn, pageTrois, memoire_isolee envFrais envFrais_blocs atteint⟩

end ProjetSysteme.Properties
