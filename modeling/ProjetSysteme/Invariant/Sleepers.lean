/- Invariant/Sleepers
   source: kernel/horloge.c, kernel/process.c
   digest: Only the clock interrupt moves the tick counter, and it wakes whom wait_clock put to sleep. -/

import ProjetSysteme.Invariant.Health

set_option autoImplicit false
set_option relaxedAutoImplicit false

namespace ProjetSysteme.Invariant

open Kernel Library.PriorityList

structure Dort (k : Noyau) (i : Indice) (w : UInt32) : Prop where
  etat : (k.table i).etat = .bloqueSurSemaphore
  echeance : (k.table i).waitIemeInterruptionClock = w

structure Repos (sauf : Indice → Prop) (k k' : Noyau) : Prop where
  horloge : k'.horloge = k.horloge
  dort : ∀ j w, ¬ sauf j → Dort k j w → Dort k' j w

namespace Repos

variable {sauf : Indice → Prop} {k k' k'' : Noyau} {a pr : Indice}

theorem refl (sauf : Indice → Prop) (k : Noyau) : Repos sauf k k := ⟨rfl, fun _ _ _ dort => dort⟩

theorem trans (un : Repos sauf k k') (deux : Repos sauf k' k'') : Repos sauf k k'' where
  horloge := deux.horloge.trans un.horloge
  dort j w dehors dort := deux.dort j w dehors (un.dort j w dehors dort)

theorem of_table (horloge : k'.horloge = k.horloge)
    (table : ∀ j, ¬ sauf j → (k.table j).etat = .bloqueSurSemaphore →
      (k'.table j).etat = .bloqueSurSemaphore ∧
        (k'.table j).waitIemeInterruptionClock = (k.table j).waitIemeInterruptionClock) :
    Repos sauf k k' := by
  refine ⟨horloge, fun j w dehors dort => ?_⟩
  obtain ⟨etat, echeance⟩ := table j dehors dort.etat
  exact ⟨etat, echeance.trans dort.echeance⟩

theorem of_champs (horloge : k'.horloge = k.horloge) (table : k'.table = k.table) :
    Repos sauf k k' :=
  .of_table horloge fun j _ dort => by rw [table]; exact ⟨dort, rfl⟩

theorem of_neutre (neutre : Neutre k k') : Repos sauf k k' :=
  .of_champs neutre.horloge neutre.table

theorem modifie (k : Noyau) (i : Indice) {f : Processus → Processus}
    (garde : ∀ p, (f p).etat = p.etat ∧
      (f p).waitIemeInterruptionClock = p.waitIemeInterruptionClock) :
    Repos sauf k (k.modifie i f) := by
  refine .of_table rfl fun j _ dort => ?_
  rw [Noyau.modifie_table]
  split
  · exact ⟨(garde _).1.trans dort, (garde _).2⟩
  · exact ⟨dort, rfl⟩

theorem suspend (k : Noyau) (i : Indice) (s : Suite) : Repos sauf k (k.suspend i s) :=
  .modifie k i fun _ => ⟨rfl, rfl⟩

theorem renvoieActif (k : Noyau) (v : Int) : Repos sauf k (k.renvoieActif v) := by
  unfold Noyau.renvoieActif
  split
  · exact .refl sauf k
  · exact .suspend k _ _

theorem modifieFile (k : Noyau) (fid : IndiceFile) (f : FileMessage → FileMessage) :
    Repos sauf k (k.modifieFile fid f) := .of_champs rfl rfl

theorem noter (k : Noyau) (f : Fait) : Repos sauf k (k.noter f) := .of_champs rfl rfl

theorem finAppelFile (k : Noyau) (a : Indice) (v : Int) : Repos sauf k (finAppelFile k a v) := by
  refine Repos.trans (.modifie k a ?_) (.suspend _ a _)
  exact fun _ => ⟨rfl, rfl⟩

theorem of_change {e : EtatProcessus} (change : Change k pr e k')
    (eveille : (k.table pr).etat ≠ .bloqueSurSemaphore) : Repos sauf k k' := by
  refine .of_table (by rw [change.noyau]) fun j _ dort => ?_
  have autre : j ≠ pr := by
    rintro rfl
    exact eveille dort
  rw [change.table_ne autre]
  exact ⟨dort, rfl⟩

theorem of_prepare (prepare : Prepare k a k')
    (echeance : (k'.table a).waitIemeInterruptionClock = (k.table a).waitIemeInterruptionClock) :
    Repos sauf k k' := by
  refine .of_table (by rw [prepare.noyau]) fun j _ dort => ⟨(prepare.vue.etat j).trans dort, ?_⟩
  by_cases meme : j = a
  · exact meme ▸ echeance
  · rw [prepare.autres j meme]

theorem of_ordonnance (ord : Ordonnance k k') : Repos sauf k k' := by
  refine .of_table (by rw [ord.noyau]) fun j _ dort => ?_
  refine ⟨(ord.etat_iff (by simp) (by simp) j).mpr dort, ?_⟩
  rw [ord.champs]

theorem of_reclasse {prio : Int} (reclasse : Reclasse k pr prio k') : Repos sauf k k' := by
  refine .of_table (by rw [reclasse.noyau]) fun j _ dort => ?_
  rw [reclasse.champs]
  exact ⟨dort, rfl⟩

theorem of_pereReveille {pere : Indice} (reveille : PereReveille k pere pr k') : Repos sauf k k' := by
  refine .of_table (by rw [reveille.noyau]) fun j _ dort => ?_
  by_cases meme : j = pere
  · subst meme
    rcases reveille.reveil with ⟨etat, _, _⟩ | ⟨attend, _, _⟩
    · refine ⟨etat.trans dort, ?_⟩
      rw [reveille.champs]
    · rw [dort] at attend
      cases attend
  · rw [reveille.autres j meme]
    exact ⟨dort, rfl⟩

theorem of_termine {e : EtatProcessus} (fin : Termine pr e k k')
    (vise : sauf pr ∨ (k.table pr).etat ≠ .bloqueSurSemaphore) : Repos sauf k k' := by
  refine .of_table (by rw [fin.noyau]) fun j dehors dort => ?_
  have autre : j ≠ pr := by
    rintro rfl
    exact vise.elim dehors fun eveille => eveille dort
  refine ⟨(fin.etat_iff (by simp) (by simp) autre).mpr dort, ?_⟩
  rw [fin.donnees j]

theorem of_terminaison (fin : Terminaison k pr k')
    (vise : sauf pr ∨ (k.table pr).etat ≠ .bloqueSurSemaphore) : Repos sauf k k' := by
  cases fin with
  | @mort k₁ m pere fin => exact (of_termine fin vise).trans (.of_champs rfl rfl)
  | @zombie k₁ k₂ m p pere reveille seul fin =>
      have reveil : Repos sauf k k₁ := .of_pereReveille reveille
      refine (reveil.trans (.of_termine fin (vise.imp_right fun eveille dort => eveille ?_))).trans
        (.of_champs rfl rfl)
      by_cases meme : pr = p
      · rcases reveille.reveil with ⟨etat, _, _⟩ | ⟨_, activable, _⟩
        · rw [meme, ← etat, ← meme, dort]
        · rw [meme, activable] at dort
          cases dort
      · rw [← reveille.autres pr meme, dort]

theorem of_installer (k : Noyau) {pid : Indice} (prio : Int) (args code pageDirectory : Mot)
    (m : Memoire) (mort : (k.table pid).etat = .mort) :
    Repos sauf k (installerProcessus k pid prio args code pageDirectory m) := by
  refine .of_table (by rw [installerProcessus_noyau]) fun j _ dort => ?_
  have autre : j ≠ pid := by
    rintro rfl
    rw [mort] at dort
    cases dort
  rw [installerProcessus_table_ne k prio args code pageDirectory m autre]
  exact ⟨dort, rfl⟩

theorem of_vide {fid : IndiceFile} (vide : Vide fid k k') (files : FilesSaines k) :
    Repos sauf k k' := by
  refine .of_table (by rw [vide.noyau]) fun j _ dort => ?_
  rcases vide.table files j with meme | ⟨bloque, _⟩
  · rw [meme]
    exact ⟨dort, rfl⟩
  · rcases bloque with etat | etat <;> simp [dort] at etat

theorem of_bloque {s : Suite} {e : EtatProcessus} {f : Processus → Processus}
    (change : Change ((k.modifie a f).suspend a s) a e k')
    (actif : (k.table a).etat = .actif) : Repos sauf k k' := by
  refine .of_table (by rw [change.noyau]; rfl) fun j _ dort => ?_
  have autre : j ≠ a := by
    rintro rfl
    rw [actif] at dort
    cases dort
  rw [change.table_ne autre, Noyau.suspend_table_ne _ _ autre, Noyau.modifie_table_ne _ _ autre]
  exact ⟨dort, rfl⟩

end Repos

section Events

variable {e : Evenement} {k k' : Noyau}

theorem EffetProcessus.repos (sain : Sain k) (nonTic : e ≠ .tic) (effet : EffetProcessus e k k') :
    Repos (Vise e) k k' := by
  cases effet with
  | neutre avant neutre => exact .of_neutre neutre
  | @rendre k₁ a s actif avant apres neutre => exact (Repos.of_neutre neutre).trans (.suspend k₁ a s)
  | dormir clock actif nonZero avant apres change => exact .of_bloque change (sain.actif _ actif)
  | @demarrer _ pid prio args code pageDirectory m avant libre change =>
      obtain ⟨mort, autre⟩ := sain.libre libre
      set k₁ := (installerProcessus k pid prio args code pageDirectory m).noter
        (.demarrage k.pidActif pid) with defk₁
      have installe : Repos (Vise e) k k₁ :=
        (Repos.of_installer k prio args code pageDirectory m mort).trans (.noter _ _)
      refine (installe.trans (.renvoieActif k₁ _)).trans (.of_change change ?_)
      rw [defk₁, demarrage_soi _ _ _ _ _ _ _ autre]
      exact EtatProcessus.noConfusion
  | @tuer _ a pr pid actif avant appel cible nonZero vivant nonZombie fin =>
      exact (Repos.suspend k a _).trans (.of_terminaison fin (.inl ⟨pid, appel, cible⟩))
  | @sortir _ a s v actif nonZero avant apres fin =>
      have prepare : Repos (Vise e) k (((k.modifie a fun p => { p with retval := v }).noter
          (.fin a v)).suspend a s) :=
        .of_prepare (sortie_prepare k a v s) (by rw [sortie_soi])
      refine prepare.trans (.of_terminaison fin (.inr ?_))
      rw [sortie_soi, sain.actif a actif]
      exact EtatProcessus.noConfusion
  | @achever _ a actif nonZero reprise suite fin =>
      refine (Repos.suspend k a .termine).trans (.of_terminaison fin (.inr ?_))
      rw [Noyau.suspend_table_self, sain.actif a actif]
      exact EtatProcessus.noConfusion
  | attendre retvalp actif nonZero avant fils aucun change =>
      exact .of_bloque change (sain.actif _ actif)
  | attendreFils retvalp actif nonZero avant pere vivant nonZombie change =>
      exact .of_bloque change (sain.actif _ actif)
  | @recuperer k₁ _ a c retvalp actif avant pere zombie attend fin =>
      have recolte := recolte_prepare attend c retvalp (k.table c).retval
      have prepare : Repos (Vise e) k (avantRecolte k₁ a c retvalp (k.table c).retval) :=
        .of_prepare recolte (by rw [recolte_soi attend])
      refine prepare.trans (.of_termine fin (.inr fun dort => ?_))
      cases ((recolte.vue.etat c).trans zombie).symm.trans dort
  | @reclasser k₁ a pr prio oldprio actif avant vivant reclasse =>
      exact (Repos.of_reclasse reclasse).trans (.suspend k₁ a _)
  | tic horloge appel avant reveils => exact absurd appel nonTic
  | @entrerConsole k₁ _ a length actif nonZero appel avant entree change =>
      obtain ⟨console, _, rfl, _⟩ := entree
      have entre : Repos (Vise e) k { k with console := console } := .of_champs rfl rfl
      refine (entre.trans (.suspend _ a _)).trans (.of_change change ?_)
      rw [Noyau.suspend_table_self]
      simp [sain.actif a actif]
  | @sortirConsole k₁ k₂ _ p avant sortie change neutre =>
      obtain ⟨console, _, rfl, _, queue⟩ := sortie
      have lecteur := sain.console.bloques p (by simp [queue])
      have sorti : Repos (Vise e) k { k with console := console } := .of_champs rfl rfl
      exact (sorti.trans (.of_change change (by simp [lecteur]))).trans (.of_neutre neutre)
  | @finReception a actif suite => exact .finAppelFile k a 0

theorem EffetFile.repos (sain : Sain k) (effet : EffetFile e k k') : Repos (Vise e) k k' := by
  cases effet with
  | @creer a fid count nbFiles actif avant appel positif libre =>
      have cree : Repos (Vise e) k (({ k.modifieFile fid (nouvelleFile count) with
          nbFiles := nbFiles } : Noyau).noter (.creation fid)) := .of_champs rfl rfl
      exact cree.trans (.suspend _ a _)
  | @bloquerReception k₁ a fid actif nonZero appel vide drapeau change =>
      refine (((Repos.modifieFile k fid _).trans (.suspend _ a _)).trans
        (.of_change change ?_)).trans (.modifieFile k₁ fid _)
      rw [Noyau.suspend_table_self]
      simp [sain.actif a actif]
  | @bloquerEnvoi k₁ a fid message actif nonZero appel neuf plein drapeau change =>
      refine (((Repos.modifieFile k fid _).trans (.suspend _ a _)).trans
        (.of_change change ?_)).trans (.modifieFile k₁ fid _)
      rw [Noyau.suspend_table_self]
      simp [sain.actif a actif]
  | @prendre a fid message reste actif appel drapeau tete sans =>
      exact ((Repos.modifieFile k fid _).trans (.noter _ _)).trans (.finAppelFile _ a 0)
  | @prendreReveil k₁ a fid message reste q actif nonZero appel drapeau tete plein dernier change =>
      have etat := (sain.files.emetteurs fid q (last_mem dernier)).1
      refine ((((Repos.modifieFile k fid _).trans (.noter _ _)).trans (.suspend _ a _)).trans
        (.of_change change ?_)).trans (.modifieFile k₁ fid _)
      rw [(MemeVue.suspend _ a _).etat, Noyau.noter_table, Noyau.modifieFile_table, etat]
      exact EtatProcessus.noConfusion
  | @deposer a fid message actif appel place drapeau sans =>
      exact ((Repos.modifieFile k fid _).trans (.noter _ _)).trans (.finAppelFile _ a 0)
  | @deposerReveil k₁ a fid message q actif appel place drapeau vide dernier change =>
      have etat := (sain.files.recepteurs fid q (last_mem dernier)).1
      refine ((((Repos.modifieFile k fid _).trans (.noter _ _)).trans (.of_change change ?_)).trans
        (.modifieFile k₁ fid _)).trans (.finAppelFile _ a 0)
      rw [Noyau.noter_table, Noyau.modifieFile_table, etat]
      exact EtatProcessus.noConfusion
  | @refuser a fid actif appel drapeau => exact .finAppelFile k a (-1)
  | @abandonner a fid message actif reprise suite plein => exact .suspend k a _
  | @vider k₁ a fid n actif avant appel ouverte vide =>
      exact (Repos.of_vide vide sain.files).trans (.suspend k₁ a _)
  | @supprimer k₁ a fid n nbFiles actif avant appel ouverte vide =>
      have supprimee : Repos (Vise e) k₁ (({ k₁.modifieFile fid
          (fun f => { f with size := 0, statut := false }) with nbFiles := nbFiles } : Noyau).noter
            (.destruction fid)) := .of_champs rfl rfl
      exact ((Repos.of_vide vide sain.files).trans supprimee).trans (.suspend _ a _)

/-- Every event but a clock interrupt lets the clock and the sleepers be, but for the
process that it kills. -/
theorem Etape.repos (sain : Sain k) (nonTic : e ≠ .tic) (etape : Etape e k k') :
    Repos (Vise e) k k' := by
  obtain ⟨k₁, effet, fin⟩ := etape
  have debut : Repos (Vise e) k (enregistrer k e) := by
    rcases enregistrer_cas k e with meme | ⟨a, x, _, _, note⟩
    · rw [meme]
      exact .refl _ k
    · rw [note]
      exact .noter k _
  have milieu : Repos (Vise e) (enregistrer k e) k₁ := by
    cases effet with
    | processus effet => exact effet.repos (sain.enregistrer e) nonTic
    | file effet => exact effet.repos (sain.enregistrer e)
  refine (debut.trans milieu).trans ?_
  rcases fin with rfl | ord
  · exact .refl _ k'
  · exact .of_ordonnance ord

theorem Reveils.horloge (reveils : Reveils k k') : k'.horloge = k.horloge := by
  induction reveils with
  | fin => rfl
  | suivant endormi change reste ih => exact ih.trans (by rw [change.noyau])

end Events

end ProjetSysteme.Invariant
