/- Invariant/PageRuns
   source: kernel/process.c, kernel/phy_mem_allocator.c
   digest: The memory of the processes along a run: it changes when one starts or ends, and only then. -/

import ProjetSysteme.Invariant.Pages
import ProjetSysteme.Invariant.Paging
import ProjetSysteme.Invariant.AnnexRuns
import ProjetSysteme.Invariant.ProcessRuns

set_option autoImplicit false
set_option relaxedAutoImplicit false

namespace ProjetSysteme.Invariant

open Kernel Library.Outcome

variable (env : Env)

/-- What an event does to the processes that have not terminated and to their memory. -/
inductive Vie (e : Evenement) (k : Noyau) : Noyau → Prop
  | calme {k' : Noyau} (memoire : k'.memoire = k.memoire) (survit : ∀ j, Survit k' j ↔ Survit k j)
      (repertoire : ∀ j, (k'.table j).pageDirectory = (k.table j).pageDirectory) : Vie e k k'
  | naissance {k' : Noyau} {pid : Indice} {nbPage : Nat} (mort : (k.table pid).etat = .mort)
      (cree : creerMemoireProcessus env k.memoire pid.val nbPage =
        .ok ((k'.table pid).pageDirectory, k'.memoire)) (vivant : Survit k' pid)
      (survit : ∀ j, j ≠ pid → (Survit k' j ↔ Survit k j))
      (repertoire : ∀ j, j ≠ pid → (k'.table j).pageDirectory = (k.table j).pageDirectory) : Vie e k k'
  | fin {k' : Noyau} {z : Indice} {m : Memoire} (nonZero : z ≠ 0) (mourant : Mourant k z e)
      (vivant : Survit k z)
      (rendues : desallouePagesProcess env k.memoire
        (if (k.table z).pere = none then -1 else (z.val : Int)) = .ok m)
      (memoire : k'.memoire = freePage m (k.table z).pageDirectory) (fini : ¬ Survit k' z)
      (survit : ∀ j, j ≠ z → (Survit k' j ↔ Survit k j))
      (repertoire : ∀ j, (k'.table j).pageDirectory = (k.table j).pageDirectory) : Vie e k k'

def bornes (k : Noyau) : List Fait := k.journal.filter fun f => estMarque f && estVital f

theorem bornes_marques (k : Noyau) : bornes k = (marques k).filter estVital := by
  rw [bornes, marques, List.filter_filter]
  refine List.filter_congr fun f _ => ?_
  rw [Bool.and_comm]

theorem bornes_vitaux (k : Noyau) : bornes k = (vitaux k).filter estMarque := by
  rw [bornes, vitaux, List.filter_filter]

section Pas

variable {env} {e : Evenement} {k k' : Noyau}

inductive Population (e : Evenement) (k : Noyau) : Noyau → Prop
  | calme {k' : Noyau} (faits : bornes k' = bornes k) (survit : ∀ j, Survit k' j ↔ Survit k j) :
      Population e k k'
  | naissance {k' : Noyau} {pid : Indice} (mort : (k.table pid).etat = .mort) (vivant : Survit k' pid)
      (survit : ∀ j, j ≠ pid → (Survit k' j ↔ Survit k j))
      (faits : bornes k' = .demarrage k.pidActif pid :: bornes k) : Population e k k'
  | fin {k' : Noyau} {z : Indice} (mourant : Mourant k z e) (vivant : Survit k z)
      (fini : ¬ Survit k' z) (survit : ∀ j, j ≠ z → (Survit k' j ↔ Survit k j))
      (faits : bornes k' = .terminaison z :: bornes k) : Population e k k'

theorem Termine.survit {z : Indice} {f : EtatProcessus} (fin : Termine z f k k') {j : Indice}
    (autre : j ≠ z) : Survit k' j ↔ Survit k j := by
  rcases fin.autres j autre with ⟨_, etat⟩ | ⟨_, zombie, mort⟩
  · rw [Survit, Survit, etat]
  · simp [Survit, mort, zombie]

theorem Filiation.population (filiation : Filiation e k k') : Population e k k' := by
  cases filiation with
  | stable vif faits => exact .calme (by rw [bornes_vitaux, faits, bornes_vitaux]) vif.survit
  | naissance mort vivant pere autres faits =>
      refine .naissance mort vivant (fun j autre => ?_) ?_
      · rw [Survit, Survit, (autres j autre).2]
      · rw [bornes_vitaux, faits, bornes_vitaux]
        rfl
  | @fin k₁ _ z mourant vif vivant nonZombie fin faits =>
      have bornes : bornes k' = .terminaison z :: bornes k := by
        rcases faits with faits | ⟨v, faits⟩
        · rw [bornes_vitaux, faits, bornes_vitaux]
          rfl
        · rw [bornes_vitaux, faits, bornes_vitaux]
          rfl
      cases fin with
      | mort pere fin =>
          refine .fin mourant ⟨vivant, nonZombie⟩ (fun survit => survit.1 fin.etat_soi)
            (fun j autre => ?_) bornes
          exact (fin.survit autre).trans (vif.survit j)
      | zombie pere reveille seul fin =>
          refine .fin mourant ⟨vivant, nonZombie⟩ (fun survit => survit.2 fin.etat_soi)
            (fun j autre => ?_) bornes
          exact (fin.survit autre).trans ((vif.trans (.of_pereReveille reveille)).survit j)
  | @recolte k₁ _ a c vif pere zombie fin faits =>
      refine .calme ?_ fun j => ?_
      · rcases faits with faits | faits
        · rw [bornes_vitaux, faits, bornes_vitaux]
        · rw [bornes_vitaux, faits, bornes_vitaux]
          rfl
      · by_cases meme : j = c
        · simp [Survit, meme, fin.etat_soi, zombie]
        · exact (fin.survit meme).trans (vif.survit j)

theorem Population.survit_of_bornes (population : Population e k k') (faits : bornes k' = bornes k)
    (j : Indice) : Survit k' j ↔ Survit k j := by
  cases population with
  | calme _ survit => exact survit j
  | naissance mort vivant survit faits' =>
      exact absurd (faits'.symm.trans faits) (List.cons_ne_self _ _)
  | fin mourant vivant fini survit faits' =>
      exact absurd (faits'.symm.trans faits) (List.cons_ne_self _ _)

theorem Population.of_demarrage (population : Population e k k') {pid : Indice}
    (faits : bornes k' = .demarrage k.pidActif pid :: bornes k) :
    (k.table pid).etat = .mort ∧ Survit k' pid ∧ ∀ j, j ≠ pid → (Survit k' j ↔ Survit k j) := by
  cases population with
  | calme faits' _ => exact absurd (faits.symm.trans faits') (List.cons_ne_self _ _)
  | naissance mort vivant survit faits' =>
      cases faits.symm.trans faits'
      exact ⟨mort, vivant, survit⟩
  | fin mourant vivant fini survit faits' => cases faits.symm.trans faits'

theorem Population.of_terminaison (population : Population e k k') {z : Indice}
    (faits : bornes k' = .terminaison z :: bornes k) :
    Mourant k z e ∧ Survit k z ∧ ¬ Survit k' z ∧ ∀ j, j ≠ z → (Survit k' j ↔ Survit k j) := by
  cases population with
  | calme faits' _ => exact absurd (faits.symm.trans faits') (List.cons_ne_self _ _)
  | naissance mort vivant survit faits' => cases faits.symm.trans faits'
  | fin mourant vivant fini survit faits' =>
      cases faits.symm.trans faits'
      exact ⟨mourant, vivant, fini, survit⟩

theorem Etape.population (etape : Etape e k k') (sain : Sain k) : Population e (enregistrer k e) k' := by
  obtain ⟨k₁, filiation, vif, faits⟩ := etape.filiation sain
  have bornes : bornes k' = bornes k₁ := by rw [bornes_vitaux, faits, bornes_vitaux]
  cases filiation.population with
  | calme faits₁ survit => exact .calme (bornes.trans faits₁) fun j => (vif.survit j).trans (survit j)
  | naissance mort vivant survit faits₁ =>
      refine .naissance mort ((vif.survit _).mpr vivant) (fun j autre => ?_) (bornes.trans faits₁)
      exact (vif.survit j).trans (survit j autre)
  | fin mourant vivant fini survit faits₁ =>
      refine .fin mourant vivant (mt (vif.survit _).mp fini) (fun j autre => ?_) (bornes.trans faits₁)
      exact (vif.survit j).trans (survit j autre)

inductive Possession (env : Env) (k : Noyau) : Noyau → Prop
  | calme {k' : Noyau} (faits : bornes k' = bornes k) (memoire : k'.memoire = k.memoire)
      (repertoire : ∀ j, (k'.table j).pageDirectory = (k.table j).pageDirectory) : Possession env k k'
  | naissance {k' : Noyau} {pid : Indice} {nbPage : Nat}
      (faits : bornes k' = .demarrage k.pidActif pid :: bornes k)
      (cree : creerMemoireProcessus env k.memoire pid.val nbPage =
        .ok ((k'.table pid).pageDirectory, k'.memoire))
      (repertoire : ∀ j, j ≠ pid → (k'.table j).pageDirectory = (k.table j).pageDirectory) :
      Possession env k k'
  | fin {k₀ k₁ k' : Noyau} {z : Indice} {m : Memoire}
      (faits : bornes k' = .terminaison z :: bornes k) (nonVeille : (k.table z).pid ≠ some 0)
      (vue : MemeVue k k₀) (fini : finirProcessus k₀ z = .ok k₁)
      (rendues : desallouePagesProcess env k.memoire (pidInt (k₁.table z).pid) = .ok m)
      (memoire : k'.memoire = freePage m (k.table z).pageDirectory)
      (repertoire : ∀ j, (k'.table j).pageDirectory = (k.table j).pageDirectory) : Possession env k k'

theorem MemeAnnexe.bornes {sauf : Option Indice} (meme : MemeAnnexe sauf k k') :
    bornes k' = bornes k := by
  rw [bornes_marques, meme.marques, bornes_marques]

theorem keyboardData_possession {c : Int8} (autre : c ≠ 13) :
    Sat (keyboardData k c) (fun k' => k' = { k with console := k'.console }) fun _ => True := by
  unfold keyboardData
  rw [if_neg autre]
  split
  · split <;> rfl
  · split <;> rfl

theorem EffetAnnexe.possession (sain : Sain k) (effet : EffetAnnexe env e k k') :
    Possession env k k' := by
  cases effet with
  | meme meme => exact .calme meme.bornes meme.memoire meme.pageDirectory
  | @demarrer _ pid nbPage prio args code pageDirectory m libre cree meme =>
      obtain ⟨mort, autre⟩ := sain.libre libre
      refine @Possession.naissance env k k' pid nbPage ?_ ?_ fun j autreJ => ?_
      · rw [meme.bornes]
        rw [bornes, Noyau.noter, installerProcessus_noyau]
        rfl
      · rw [meme.memoire, meme.pageDirectory, Noyau.noter_table,
          installerProcessus_table_self k prio args code pageDirectory m autre, cree]
        rw [Noyau.noter, installerProcessus_noyau]
        rfl
      · rw [meme.pageDirectory, Noyau.noter_table,
          installerProcessus_table_ne k prio args code pageDirectory m autreJ]
  | finir mourant avant vue nonVeille fini rendues meme =>
      exact .fin (meme.bornes.trans rfl) nonVeille vue fini rendues meme.memoire meme.pageDirectory
  | entrer actif appel positif entree meme =>
      refine .calme (meme.bornes.trans rfl) meme.memoire fun j => ?_
      rw [meme.pageDirectory, Noyau.suspend_table]
  | valider touche sortie meme =>
      obtain ⟨liens, rfl⟩ := sortirConsRead_annexe sortie
      exact .calme (meme.bornes.trans rfl) meme.memoire meme.pageDirectory
  | frapper touche autre frappe =>
      have noyau := (keyboardData_possession autre).of_ok frappe
      refine .calme ?_ ?_ fun j => ?_ <;> rw [noyau]
      rfl
  | lire actif reprise suite lu =>
      unfold consReadReprise at lu
      split at lu
      · cases lu
      · cases lu
        refine .calme rfl rfl fun j => ?_
        rw [Noyau.renvoie, Noyau.suspend_table]
        rfl

theorem finirProcessus_pid (valide : Valide k) {z : Indice} (survit : Survit k z) :
    Sat (finirProcessus k z)
      (fun k' => pidInt (k'.table z).pid = if (k.table z).pere = none then -1 else (z.val : Int))
      fun _ => True := by
  unfold finirProcessus
  cases pere : (k.table z).pere with
  | none =>
      obtain ⟨_, k₁, _, run, fin⟩ := definirEtat_mort valide survit.1
      simp only [run, sat_ok, fin.pid_soi, if_true]
      rfl
  | some p =>
      obtain ⟨k₁, run₁, reveille, valide₁⟩ := reveillerPere_ok valide p z
      have table : k₁.table z = k.table z := reveille.autres z (valide.pere_ne survit.1 pere).symm
      obtain ⟨bon, mauvais⟩ := definirEtat_zombie valide₁ (z := z) (by rw [table]; exact survit.1)
        (by rw [table]; exact survit.2)
      simp only [run₁, bind, Except.bind]
      by_cases seul : DernierSeul k₁ (k₁.table z).fils
      · obtain ⟨_, k₂, _, run, fin⟩ := bon seul
        have pid := valide.coherent.pid_vivant survit.1
        simp [run, fin.pid_soi, table, pid, pidInt]
      · rw [mauvais seul]
        trivial

theorem pas_vie (sain : Sain k) (autorise : permis k e = true) (resultat : pas env k e = .ok k')
    (etape : Etape e k k') : Vie env e (enregistrer k e) k' := by
  have sain' := sain.enregistrer e
  have possession := (pas_annexe env sain autorise resultat).possession sain'
  have population := etape.population sain
  set k₀ := enregistrer k e with defk₀
  cases possession with
  | calme faits memoire repertoire =>
      exact .calme memoire (population.survit_of_bornes faits) repertoire
  | naissance faits cree repertoire =>
      obtain ⟨mort, vivant, survit⟩ := population.of_demarrage faits
      exact .naissance mort cree vivant survit repertoire
  | @fin k₂ k₁ _ z m faits nonVeille vue fini rendues memoire repertoire =>
      obtain ⟨mourant, vivant, finiZ, survit⟩ := population.of_terminaison faits
      have survit₂ : Survit k₂ z := by
        rw [Survit, vue.etat]
        exact vivant
      have nonZero : z ≠ 0 := by
        rintro rfl
        exact nonVeille (sain'.valide.coherent.pid_vivant vivant.1)
      have pid := (finirProcessus_pid (sain'.valide.transport vue) survit₂).of_ok fini
      rw [pid, vue.pere] at rendues
      exact .fin nonZero mourant vivant rendues memoire finiZ survit repertoire

theorem Vie.of_noter {f : Fait} (vie : Vie env e (k.noter f) k') : Vie env e k k' := by
  cases vie with
  | calme memoire survit repertoire => exact .calme memoire survit repertoire
  | naissance mort cree vivant survit repertoire =>
      exact .naissance mort cree vivant survit repertoire
  | fin nonZero mourant vivant rendues memoire fini survit repertoire =>
      exact .fin nonZero mourant vivant rendues memoire fini survit repertoire

theorem Sain.vie (sain : Sain k) (sans : SansBlocage k) (autorise : permis k e = true)
    (resultat : Kernel.pas env k e = .ok k') : Vie env e k k' := by
  have etape := (sain.pas env autorise (sans.killPropre e) resultat).1
  have vie := pas_vie sain autorise resultat etape
  rcases enregistrer_cas k e with meme | ⟨a, x, _, _, note⟩
  · rwa [meme] at vie
  · rw [note] at vie
    exact vie.of_noter

variable (env)

theorem Atteint.vie {C : Noyau → Evenement → Prop} {P : Noyau → Prop}
    (seuls : ∀ k e, C k e → deProcessus e = true)
    (boot : ∀ memoire, createListPagesVides env noyauVide.memoire = .ok memoire →
      P { noyauVide with memoire := memoire })
    (etape : ∀ k e k', Sain k → P k → C k e → Vie env e k k' → P k')
    {k : Noyau} (atteint : Atteint env C k) : Sain k ∧ SansBlocage k ∧ P k := by
  refine Atteint.induction env (P := fun k => Sain k ∧ SansBlocage k ∧ P k) (fun k₀ depart => ?_) ?_
    atteint
  · obtain ⟨sain, sans, _⟩ := Atteint.processus env (C := C) (P := fun _ => True) seuls
      (fun _ _ => trivial) (fun _ _ _ _ _ _ _ _ _ _ => trivial) ⟨k₀, depart, .refl⟩
    obtain ⟨memoire, cree, valeur⟩ := bind_ok depart
    cases valeur
    exact ⟨sain, sans, boot memoire cree⟩
  · rintro k e k' _ ⟨sain, sans, avant⟩ autorise condition resultat
    obtain ⟨pas, sain'⟩ := sain.pas env autorise (sans.killPropre e) resultat
    exact ⟨sain', sans.etape sain (seuls k e condition) pas,
      etape k e k' sain avant condition (sain.vie sans autorise resultat)⟩

end Pas

section Start

theorem mapperPages_listes (pid : Int) (pd : Mot) (n i : Nat) (m : Memoire) :
    Sat (mapperPages env pid pd n i m) (MemesListes m) fun _ => True := by
  induction n generalizing i m with
  | zero => rfl
  | succ n ih =>
      rw [mapperPages]
      split
      · trivial
      · trivial
      · exact ih (i + 1) m
      · next adr _ =>
          split
          · trivial
          · next r m₁ place =>
              have un := (putAddressReel_listes env m adr.adressePhy adr.adresseVirt adr.perm pd).of_ok place
              exact (ih (i + 1) m₁).mono (fun _ => un.trans) fun _ => id

variable {env} {m m' : Memoire} {pid : Int} {nbPage : Nat} {pd : Mot}

theorem creer_cas (cree : creerMemoireProcessus env m pid nbPage = .ok (pd, m')) :
    ∃ m₁ m₂, createPageDirectory env m = (some pd, m₁) ∧
      allouePagesProcess env m₁ pid nbPage .read = .ok m₂ ∧ entreesDe pid m₂ ≠ [] ∧
      mapperPages env pid pd nbPage 0 m₂ = .ok m' := by
  unfold creerMemoireProcessus at cree
  split at cree
  · cases cree
  · next pd₁ m₁ directory =>
      obtain ⟨m₂, alloue, suite⟩ := bind_ok cree
      obtain ⟨n, compte, suite⟩ := bind_ok suite
      split at suite
      · cases suite
      · next juste =>
          obtain ⟨m₃, mappe, valeur⟩ := bind_ok suite
          cases valeur
          refine ⟨m₁, m₂, directory, alloue, fun vide => ?_, mappe⟩
          unfold getNbPages at compte
          split at compte
          · next page trouve =>
              have premier := cherchePid_vers trouve
              rw [vide] at premier
              cases premier
          · cases compte
          · cases compte
            omega

theorem creer_pages (cree : creerMemoireProcessus env m pid nbPage = .ok (pd, m'))
    (blocs : BlocsDistincts m) : BlocsDistincts m' ∧ (toutesLesPages m').Perm (toutesLesPages m) ∧
      autresEntrees pid m' = autresEntrees pid m ∧
      (entreesDe pid m').length ≤ (entreesDe pid m).length + 1 ∧ entreesDe pid m' ≠ [] := by
  obtain ⟨m₁, m₂, directory, alloue, present, mappe⟩ := creer_cas cree
  have listes₁ : MemesListes m m₁ := by
    have listes := createPageDirectory_listes env m
    rwa [directory] at listes
  have blocs₁ : BlocsDistincts m₁ := by
    rw [listes₁]
    exact ⟨blocs.nodup, blocs.alloues⟩
  obtain ⟨deplace, compte⟩ := (alloue_sat env m₁ pid nbPage .read blocs₁).of_ok alloue
  have listes₂ := (mapperPages_listes env pid pd nbPage 0 m₂).of_ok mappe
  have blocs₂ := deplace.blocs
  have pages := deplace.pages
  have autres := deplace.autres
  rw [listes₁] at compte pages autres
  rw [listes₂]
  exact ⟨⟨blocs₂.nodup, blocs₂.alloues⟩, pages, autres, compte, present⟩

end Start

end ProjetSysteme.Invariant
