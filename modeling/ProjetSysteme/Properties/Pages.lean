/- Properties/Pages
   source: kernel/process.c, kernel/phy_mem_allocator.c
   digest: What a termination gives back of the physical pages, and the branch that loses them. -/

import ProjetSysteme.Invariant.PageRuns
import ProjetSysteme.Properties.Orphans

set_option autoImplicit false
set_option relaxedAutoImplicit false

namespace ProjetSysteme.Properties

open Kernel Invariant Library.Outcome

/-- The element of `pages_allouees` belongs to a process that has not terminated. -/
def DeVivant (k : Noyau) (p : PageAllouee) : Prop := ∃ i : Indice, p.pid = (i.val : Int) ∧ Survit k i

instance (k : Noyau) (p : PageAllouee) : Decidable (DeVivant k p) :=
  inferInstanceAs (Decidable (∃ _ : Fin nbProc, _))

def pagesAttachees (k : Noyau) : Nat :=
  ((k.memoire.pagesAllouees.filter fun p => DeVivant k p).map fun p => p.adresses.length).sum

/-- Every page is free or attached to a process that has not terminated. -/
structure PagesRendues (k : Noyau) : Prop where
  total : k.memoire.pagesVides.length + pagesAttachees k = 1000
  entrees : ∀ p ∈ k.memoire.pagesAllouees, DeVivant k p

/-- All pages of the process `z` are free in `k'`. -/
structure RendPages (k k' : Noyau) (z : Indice) : Prop where
  libres : (pagesLibres k'.memoire).Perm
    ((entreesDe z.val k.memoire).flatMap pagesPhysiques ++ pagesLibres k.memoire)
  reste : entreesDe z.val k'.memoire = []

/-- A process that ends has a father. -/
def AvecPere (k : Noyau) (e : Evenement) : Prop :=
  ∀ z, z ≠ 0 → Mourant k z e → Survit k z → (k.table z).pere ≠ none

instance (k : Noyau) (e : Evenement) : Decidable (AvecPere k e) :=
  inferInstanceAs (Decidable (∀ _ : Fin nbProc, _))

/-- The elements of `pages_allouees` are those of the processes that have not terminated,
one for each. -/
structure Comptes (k : Noyau) : Prop where
  blocs : BlocsDistincts k.memoire
  total : (toutesLesPages k.memoire).length = 1000
  vivants : ∀ p ∈ k.memoire.pagesAllouees, DeVivant k p
  uniques : ∀ i : Indice, (entreesDe i.val k.memoire).length ≤ 1
  presentes : ∀ i, Survit k i → entreesDe i.val k.memoire ≠ []

theorem toutesLesPages_length (m : Memoire) : (toutesLesPages m).length =
    m.pagesVides.length + (m.pagesAllouees.map fun p => p.adresses.length).sum := by
  rw [toutesLesPages, List.length_append, List.length_flatMap, pagesLibres, List.length_map]
  congr 2
  exact List.map_congr_left fun p _ => List.length_map _

theorem Comptes.rendues {k : Noyau} (comptes : Comptes k) : PagesRendues k := by
  refine ⟨?_, comptes.vivants⟩
  have tous : k.memoire.pagesAllouees.filter (fun p => DeVivant k p) = k.memoire.pagesAllouees :=
    List.filter_eq_self.mpr fun p mem => decide_eq_true (comptes.vivants p mem)
  rw [pagesAttachees, tous, ← toutesLesPages_length, comptes.total]

section Pas

variable {env : Env} {e : Evenement} {k k' : Noyau}

theorem val_ne {i j : Indice} (autre : i ≠ j) : (i.val : Int) ≠ (j.val : Int) := fun meme =>
  autre (Fin.ext (Int.ofNat.inj meme))

theorem Comptes.fin (comptes : Comptes k) {z : Indice} {m : Memoire}
    (rendues : desallouePagesProcess env k.memoire z.val = .ok m)
    (memoire : k'.memoire = freePage m (k.table z).pageDirectory) (vivant : Survit k z)
    (fini : ¬ Survit k' z) (survit : ∀ j, j ≠ z → (Survit k' j ↔ Survit k j)) :
    RendPages k k' z ∧ Comptes k' := by
  obtain ⟨deplace, reste, libres⟩ := (desalloue_sat env k.memoire z.val comptes.blocs).of_ok rendues
  obtain ⟨page, seule⟩ : ∃ page, entreesDe z.val k.memoire = [page] := by
    obtain ⟨page, reste, entrees⟩ := List.exists_cons_of_ne_nil (comptes.presentes z vivant)
    have unique := comptes.uniques z
    rw [entrees, List.length_cons] at unique
    have vide : reste = [] := List.eq_nil_of_length_eq_zero (by omega)
    exact ⟨page, by rw [entrees, vide]⟩
  rw [seule] at reste libres
  have entrees : ∀ pid, entreesDe pid k'.memoire = entreesDe pid m := fun pid => by rw [memoire]; rfl
  constructor
  · refine ⟨?_, by rw [entrees, reste]; rfl⟩
    rw [memoire, seule, List.flatMap_singleton]
    exact libres
  · refine ⟨?_, ?_, fun p mem => ?_, fun i => ?_, fun i vivantI => ?_⟩
    · rw [memoire]
      exact ⟨deplace.blocs.nodup, deplace.blocs.alloues⟩
    · rw [memoire]
      exact deplace.pages.length_eq.trans comptes.total
    · rw [memoire] at mem
      have autre : p.pid ≠ z.val := by
        intro de
        have dans : p ∈ entreesDe z.val m := mem_entreesDe.mpr ⟨mem, de⟩
        rw [reste] at dans
        cases dans
      have ancien : p ∈ autresEntrees z.val k.memoire := by
        rw [← deplace.autres]
        exact mem_autresEntrees.mpr ⟨mem, autre⟩
      obtain ⟨i, de, vivantI⟩ := comptes.vivants p (mem_autresEntrees.mp ancien).1
      refine ⟨i, de, (survit i ?_).mpr vivantI⟩
      rintro rfl
      exact autre de
    · rw [entrees]
      by_cases meme : i = z
      · rw [meme, reste]
        exact Nat.zero_le 1
      · rw [deplace.entreesDe (val_ne meme)]
        exact comptes.uniques i
    · have autre : i ≠ z := by
        rintro rfl
        exact fini vivantI
      rw [entrees, deplace.entreesDe (val_ne autre)]
      exact comptes.presentes i ((survit i autre).mp vivantI)

theorem Comptes.orphelin (comptes : Comptes k) {z : Indice} {m : Memoire}
    (rendues : desallouePagesProcess env k.memoire (-1) = .ok m)
    (memoire : k'.memoire = freePage m (k.table z).pageDirectory) (vivant : Survit k z)
    (fini : ¬ Survit k' z) : ¬ PagesRendues k' := by
  intro apres
  obtain ⟨deplace, _, _⟩ := (desalloue_sat env k.memoire (-1) comptes.blocs).of_ok rendues
  obtain ⟨page, mem⟩ := List.exists_mem_of_ne_nil _ (comptes.presentes z vivant)
  rw [← deplace.entreesDe (by omega)] at mem
  obtain ⟨dans, de⟩ := mem_entreesDe.mp mem
  obtain ⟨i, de', vivantI⟩ := apres.entrees page (by rw [memoire]; exact dans)
  have meme : i = z := Fin.ext (Int.ofNat.inj (de'.symm.trans de))
  exact fini (meme ▸ vivantI)

theorem Comptes.naissance (comptes : Comptes k) {pid : Indice} {nbPage : Nat}
    (libre : ¬ Survit k pid) (cree : creerMemoireProcessus env k.memoire pid.val nbPage =
      .ok ((k'.table pid).pageDirectory, k'.memoire)) (vivant : Survit k' pid)
    (survit : ∀ j, j ≠ pid → (Survit k' j ↔ Survit k j)) : Comptes k' := by
  obtain ⟨blocs, pages, autres, compte, present⟩ := creer_pages cree comptes.blocs
  have vide : entreesDe pid.val k.memoire = [] := by
    refine List.eq_nil_iff_forall_not_mem.mpr fun p mem => ?_
    obtain ⟨dans, de⟩ := mem_entreesDe.mp mem
    obtain ⟨i, de', vivantI⟩ := comptes.vivants p dans
    have meme : i = pid := Fin.ext (Int.ofNat.inj (de'.symm.trans de))
    exact libre (meme ▸ vivantI)
  refine ⟨blocs, pages.length_eq.trans comptes.total, fun p mem => ?_, fun i => ?_, fun i vivantI => ?_⟩
  · by_cases de : p.pid = pid.val
    · exact ⟨pid, de, vivant⟩
    · have ancien : p ∈ autresEntrees pid.val k.memoire := by
        rw [← autres]
        exact mem_autresEntrees.mpr ⟨mem, de⟩
      obtain ⟨i, de', vivantI⟩ := comptes.vivants p (mem_autresEntrees.mp ancien).1
      refine ⟨i, de', (survit i ?_).mpr vivantI⟩
      rintro rfl
      exact de de'
  · by_cases meme : i = pid
    · rw [vide] at compte
      rw [meme]
      exact compte
    · rw [entreesDe_of_autres autres (val_ne meme)]
      exact comptes.uniques i
  · by_cases meme : i = pid
    · rw [meme]
      exact present
    · rw [entreesDe_of_autres autres (val_ne meme)]
      exact comptes.presentes i ((survit i meme).mp vivantI)

theorem Comptes.vie (comptes : Comptes k) (condition : AvecPere k e) (vie : Vie env e k k') :
    Comptes k' := by
  cases vie with
  | calme memoire survit repertoire =>
      refine ⟨?_, ?_, fun p mem => ?_, fun i => ?_, fun i vivant => ?_⟩
      · rw [memoire]
        exact comptes.blocs
      · rw [memoire]
        exact comptes.total
      · rw [memoire] at mem
        obtain ⟨i, de, vivant⟩ := comptes.vivants p mem
        exact ⟨i, de, (survit i).mpr vivant⟩
      · rw [memoire]
        exact comptes.uniques i
      · rw [memoire]
        exact comptes.presentes i ((survit i).mp vivant)
  | naissance mort cree vivant survit repertoire =>
      exact comptes.naissance (fun survit => survit.1 mort) cree vivant survit
  | @fin z m nonZero mourant vivant rendues memoire fini survit repertoire =>
      rw [if_neg (condition z nonZero mourant vivant)] at rendues
      exact (comptes.fin rendues memoire vivant fini survit).2

theorem rendues_iff (comptes : Comptes k) {z : Indice} (vivant : Survit k z) (fini : ¬ Survit k' z)
    (vie : Vie env e k k') : RendPages k k' z ∧ PagesRendues k' ↔ (k.table z).pere ≠ none := by
  cases vie with
  | calme memoire survit repertoire => exact absurd ((survit z).mpr vivant) fini
  | @naissance pid nbPage mort cree vivant' survit repertoire =>
      by_cases meme : z = pid
      · exact absurd (meme ▸ vivant') fini
      · exact absurd ((survit z meme).mpr vivant) fini
  | @fin y m nonZero mourant vivantY rendues memoire finiY survit repertoire =>
      have meme : z = y := by
        by_contra autre
        exact fini ((survit z autre).mpr vivant)
      subst meme
      by_cases pere : (k.table z).pere = none
      · rw [if_pos pere] at rendues
        exact iff_of_false (fun rend => comptes.orphelin rendues memoire vivant fini rend.2)
          fun avec => avec pere
      · rw [if_neg pere] at rendues
        obtain ⟨rend, apres⟩ := comptes.fin rendues memoire vivant fini survit
        exact iff_of_true ⟨rend, apres.rendues⟩ pere

end Pas

theorem comptes_of_boot {env : Env} {memoire : Memoire}
    (cree : createListPagesVides env noyauVide.memoire = .ok memoire) :
    Comptes { noyauVide with memoire := memoire } := by
  obtain ⟨noyau, adrs, libres, appels⟩ := (creerPagesVides_sat env 1000 noyauVide.memoire).of_ok cree
  have nombre : adrs.length = 1000 := by
    have longueur := congrArg List.length appels
    rwa [List.length_map, List.length_map, List.length_range'] at longueur
  have vide : memoire.pagesAllouees = [] := by rw [noyau]; rfl
  have entrees : ∀ pid, entreesDe pid memoire = [] := fun pid => by rw [entreesDe, vide]; rfl
  refine ⟨⟨?_, ?_⟩, ?_, ?_, fun i => ?_, fun i vivant => ?_⟩
  · simp [vide]
  · simp [vide]
  · rw [toutesLesPages_length, vide, ← List.length_map PageVide.adr]
    refine (Nat.add_zero _).trans (libres.length_eq.trans ?_)
    rw [List.length_append, nombre]
    rfl
  · simp [vide]
  · simp [entrees]
  · exact absurd rfl vivant.1

/-- In every run in which each process that ends has a father, the 1000 pages are in every
state free or attached to processes that have not terminated; and from such a state a
termination gives back the pages exactly when the process has a father. -/
theorem pages_rendues (env : Env) {k : Noyau}
    (atteint : Atteint env (fun k e => deProcessus e = true ∧ AvecPere k e) k) :
    PagesRendues k ∧ ∀ e k' z, Finit env k e k' z →
      (RendPages k k' z ∧ PagesRendues k' ↔ (k.table z).pere ≠ none) := by
  obtain ⟨sain, sans, comptes⟩ := Atteint.vie env (P := Comptes) (fun _ _ => And.left)
    (fun _ => comptes_of_boot) (fun k e k' _ comptes condition vie => comptes.vie condition.2 vie)
    atteint
  refine ⟨comptes.rendues, fun e k' z ⟨autorise, _, resultat, vivant, fini⟩ => ?_⟩
  exact rendues_iff comptes vivant fini (sain.vie sans autorise resultat)

theorem pages_rendues_exemple : ∃ k, Atteint Env.exemple
      (fun k e => deProcessus e = true ∧ AvecPere k e) k ∧ (k.table 2).etat = .mort ∧
    k.memoire.pagesVides.length = 998 ∧ PagesRendues k ∧
    ∃ e k', Finit Env.exemple k e k' 1 ∧ RendPages k k' 1 ∧ PagesRendues k' := by
  obtain ⟨k, atteint, test⟩ := Atteint.of_verifier Env.exemple
    (C := fun k e => decide (deProcessus e = true ∧ AvecPere k e))
    (l := [demarrer 0, .reprise, demarrer 3, .reprise, demarrer 2, .reprise,
      .appel (.waitpid 2 true), .reprise, .appel (.exit 3), .reprise, .reprise])
    (T := fun k => verifierPas Env.exemple k (.appel (.exit 4)) fun k' =>
      decide ((k.table 2).etat = .mort ∧ k.memoire.pagesVides.length = 998 ∧
          permis k (.appel (.exit 4)) = true ∧ Survit k 1 ∧ ¬ Survit k' 1 ∧ (k.table 1).pere ≠ none))
    (by decide +kernel)
  obtain ⟨k', resultat, test⟩ := pas_of_verifierPas Env.exemple test
  obtain ⟨mort, libres, autorise, vivant, fini, pere⟩ := of_decide_eq_true test
  have course := atteint.mono Env.exemple fun _ _ => of_decide_eq_true
  obtain ⟨rendues, fins⟩ := pages_rendues Env.exemple course
  have finit : Finit Env.exemple k (.appel (.exit 4)) k' 1 := ⟨autorise, rfl, resultat, vivant, fini⟩
  obtain ⟨rend, apres⟩ := (fins _ k' 1 finit).mpr pere
  exact ⟨k, course, mort, libres, rendues, _, k', finit, rend, apres⟩

/-- A process is killed after its father was collected: its page is lost. -/
theorem pages_perdues : ¬ ∀ k, Atteint Env.exemple (fun _ e => deFamille e = true) k →
    PagesRendues k := by
  intro toujours
  obtain ⟨k, atteint, test⟩ := Atteint.of_verifier Env.exemple (C := fun _ e => deFamille e)
    (l := [demarrer 0, .reprise, demarrer 3, .reprise, demarrer 2, .reprise,
      .appel (.waitpid 2 true), .reprise, demarrer 1, .reprise, .appel (.exit 3), .reprise, .reprise,
      .appel (.kill 3)])
    (T := fun k => decide (k.memoire.pagesVides.length + pagesAttachees k ≠ 1000))
    (by decide +kernel)
  exact of_decide_eq_true test (toujours k atteint).total

end ProjetSysteme.Properties
