/- Invariant/Waiting
   digest: What waitpid will find, across the starts, the ends and the wake-ups of processes. -/

import ProjetSysteme.Invariant.Inversion

set_option autoImplicit false
set_option relaxedAutoImplicit false

namespace ProjetSysteme.Invariant

open Kernel Library.PriorityList

theorem Change.table_ne {k k' : Noyau} {pr j : Indice} {e : EtatProcessus} (change : Change k pr e k')
    (autre : j ≠ pr) : k'.table j = k.table j := by
  rw [change.champs, change.etat, if_neg autre]

def SuiteLibre : Suite → Prop
  | .waitpidAttente _ | .waitpidAttenteFils .. | .exitFin | .termine => False
  | _ => True

theorem VeilleSuite.libre {s : Suite} (veille : VeilleSuite s) : SuiteLibre s := by
  cases s <;> trivial

theorem Posture.of_libre {k : Noyau} {i : Indice} (courant : Courant (k.table i).etat)
    (libre : SuiteLibre (k.table i).suite) : Posture k i := by
  rw [Posture.of_courant courant]
  unfold Reprise
  split
  · next suite => rw [suite] at libre; exact libre.elim
  · next suite => rw [suite] at libre; exact libre.elim
  · next suite => rw [suite] at libre; exact libre.elim
  · next suite => rw [suite] at libre; exact libre.elim
  · trivial

theorem Posture.of_fin {k : Noyau} {i : Indice}
    (fin : (k.table i).etat = .mort ∨ (k.table i).etat = .zombie) : Posture k i := by
  unfold Posture
  rcases fin with etat | etat <;> rw [etat] <;> trivial

theorem Posture.suiteLibre {k : Noyau} {i : Indice} (posture : Posture k i)
    (bloque : (k.table i).etat = .bloqueSurSemaphore ∨ (k.table i).etat = .bloqueSurEntreeSortie ∨
      (k.table i).etat = .bloqueSurReception ∨ (k.table i).etat = .bloqueSurEnvoi) :
    SuiteLibre (k.table i).suite := by
  unfold Posture at posture
  rcases bloque with etat | etat | etat | etat <;> rw [etat] at posture
  · rcases posture with ⟨v, suite⟩ | suite <;> rw [suite] <;> trivial
  · obtain ⟨n, suite⟩ := posture
    rw [suite]
    trivial
  · obtain ⟨fid, suite⟩ := posture
    rw [suite]
    trivial
  · obtain ⟨fid, message, suite⟩ := posture
    rw [suite]
    trivial

theorem Vif.of_bloque {k k₁ k' : Noyau} {a : Indice} {e : EtatProcessus} (vue : MemeVue k k₁)
    (change : Change k₁ a e k') (simple : Simple e) (etat : (k.table a).etat = .actif) : Vif k k' := by
  refine (Vif.of_vue vue).trans (.of_change change ?_ simple)
  rw [vue.etat, etat]
  exact EtatProcessus.noConfusion

def Postures (k : Noyau) : Prop := ∀ i, Posture k i

namespace Postures

variable {k k' : Noyau}

theorem autres (postures : Postures k) (a : Indice) (vif : Vif k k')
    (table : ∀ j, j ≠ a → k'.table j = k.table j) (soi : Posture k' a) : Postures k' := by
  intro i
  by_cases meme : i = a
  · exact meme ▸ soi
  · refine (postures i).garde ?_ (vif.memesFils i)
    rw [table i meme]
    exact .refl _

theorem of_table (postures : Postures k) (table : k'.table = k.table) : Postures k' := by
  intro i
  have vif : Vif k k' := ⟨fun j => by rw [table], fun j => by rw [table], fun j => by rw [table]⟩
  refine (postures i).garde ?_ (vif.memesFils i)
  rw [table]
  exact .refl _

theorem suspend (postures : Postures k) {a : Indice} (etat : (k.table a).etat = .actif) {s : Suite}
    (libre : SuiteLibre s) : Postures (k.suspend a s) := by
  refine postures.autres a (.of_vue (.suspend k a s)) (fun j => k.suspend_table_ne s) ?_
  refine .of_libre ?_ ?_ <;> rw [Noyau.suspend_table_self]
  · exact .inl etat
  · exact libre

theorem eveil (postures : Postures k) {pr : Indice} (change : Change k pr .activable k')
    (libre : SuiteLibre (k.table pr).suite) (nonZombie : (k.table pr).etat ≠ .zombie) :
    Postures k' := by
  refine postures.autres pr (.of_change change nonZombie simple_activable)
    (fun j => change.table_ne) (.of_libre ?_ ?_)
  · rw [change.etat, if_pos rfl]
    exact courant_activable
  · rw [change.champs]
    exact libre

theorem finAppelFile (postures : Postures k) {a : Indice} (etat : (k.table a).etat = .actif)
    (v : Int) : Postures (finAppelFile k a v) := by
  have vue := finAppelFile_vue k a v
  refine postures.autres a (.of_vue vue) (fun j autre => ?_) (.of_libre ?_ ?_)
  · rw [Kernel.finAppelFile, Noyau.renvoie, Noyau.suspend_table_ne _ _ autre,
      Noyau.modifie_table_ne _ _ autre]
  · rw [vue.etat]
    exact .inl etat
  · rw [Kernel.finAppelFile, Noyau.renvoie, Noyau.suspend_table_self]
    trivial

theorem bloque (postures : Postures k) {k₁ : Noyau} {a : Indice} {s : Suite} {e : EtatProcessus}
    (change : Change (k₁.suspend a s) a e k') (simple : Simple e)
    (etat : (k.table a).etat = .actif) (vue : MemeVue k k₁)
    (table : ∀ j, j ≠ a → k₁.table j = k.table j) (soi : Posture k' a) : Postures k' := by
  have vif : Vif k k' := .of_bloque (vue.trans (.suspend k₁ a s)) change simple etat
  refine postures.autres a vif (fun j autre => ?_) soi
  rw [change.table_ne autre, Noyau.suspend_table_ne _ _ autre, table j autre]

end Postures

namespace Termine

variable {z i c : Indice} {e : EtatProcessus} {k k' : Noyau}

theorem etat_vivant (fin : Termine z e k k') (autre : i ≠ z) (nonZombie : (k.table i).etat ≠ .zombie) :
    (k'.table i).etat = (k.table i).etat :=
  (fin.etat autre).resolve_right fun detruit => nonZombie detruit.1

theorem non_disparu (fin : Termine z e k k') (autre : i ≠ z)
    (nonZombie : (k.table i).etat ≠ .zombie) : ¬ Disparu k k' i := by
  rintro ⟨vivant, mort⟩
  rw [fin.etat_vivant autre nonZombie] at mort
  exact vivant mort

theorem fils_garde (fin : Termine z e k k') (autre : i ≠ z) (nonZombie : (k.table i).etat ≠ .zombie)
    (pere : (k.table c).pere = some i) :
    (k'.table c).pere = some i ∧ (c ≠ z → (k'.table c).etat = (k.table c).etat) := by
  have reste := fin.non_disparu autre nonZombie
  constructor
  · rcases fin.pere c with meme | ⟨_, disparu⟩
    · rw [meme, pere]
    · exact absurd (disparu i pere) reste
  · intro autreC
    refine (fin.etat autreC).resolve_right fun detruit => ?_
    rcases fin.sous c autreC detruit i pere with estZ | disparu
    · exact autre estZ
    · exact reste disparu

theorem memesFils (fin : Termine z e k k') (autre : i ≠ z) (nonZombie : (k.table i).etat ≠ .zombie)
    (orphelin : (k.table z).pere ≠ some i) : MemesFils k k' i where
  garde c pere vivant := by
    have autreC : c ≠ z := fun meme => orphelin (meme ▸ pere)
    obtain ⟨pere', etat⟩ := fin.fils_garde autre nonZombie pere
    rw [etat autreC]
    exact ⟨pere', vivant, Iff.rfl⟩
  ancien c pere zombie := by
    have pere₀ := fin.pere_some pere
    have autreC : c ≠ z := fun meme => orphelin (meme ▸ pere₀)
    rw [(fin.fils_garde autre nonZombie pere₀).2 autreC] at zombie
    exact ⟨pere₀, zombie⟩

theorem memeAttente (fin : Termine z e k k') (autre : i ≠ z)
    (nonZombie : (k.table i).etat ≠ .zombie) : MemeAttente (k.table i) (k'.table i) := by
  refine ⟨?_, ?_, .inl (fin.etat_vivant autre nonZombie)⟩ <;> rw [fin.donnees i]

theorem fini (fin : Termine z e k k') (autre : i ≠ z)
    (fini : (k.table i).etat = .mort ∨ (k.table i).etat = .zombie) :
    (k'.table i).etat = .mort ∨ (k'.table i).etat = .zombie := by
  rcases fin.etat autre with meme | detruit
  · rwa [meme]
  · exact .inl detruit.2

theorem posture (fin : Termine z e k k') (autre : i ≠ z) (orphelin : (k.table z).pere ≠ some i)
    (posture : Posture k i) : Posture k' i := by
  by_cases ended : (k.table i).etat = .mort ∨ (k.table i).etat = .zombie
  · exact .of_fin (fin.fini autre ended)
  · have nonZombie : (k.table i).etat ≠ .zombie := fun etat => ended (.inr etat)
    exact posture.garde (fin.memeAttente autre nonZombie) (fin.memesFils autre nonZombie orphelin)

section Pere

variable {k₁ : Noyau} {pere pr : Indice}

theorem autres_fils (reveille : PereReveille k pere pr k₁) (fin : Termine pr .zombie k₁ k')
    (autre : pere ≠ pr) (nonZombie : (k.table pere).etat ≠ .zombie)
    (fils : (k.table c).pere = some pere) (autreC : c ≠ pr) :
    (k'.table c).pere = some pere ∧ ((k'.table c).etat = .mort ↔ (k.table c).etat = .mort) ∧
      ((k'.table c).etat = .zombie ↔ (k.table c).etat = .zombie) := by
  have vif : Vif k k₁ := .of_pereReveille reveille
  rw [← vif.pere c] at fils
  obtain ⟨pere', etat⟩ := fin.fils_garde autre (mt (vif.zombie pere).mp nonZombie) fils
  rw [etat autreC, vif.mort, vif.zombie]
  exact ⟨pere', Iff.rfl, Iff.rfl⟩

theorem posture_garde (reveille : PereReveille k pere pr k₁) (fin : Termine pr .zombie k₁ k')
    (autre : pere ≠ pr) (pid : (k.table pr).pid = some pr) (nonZombie : (k.table pr).etat ≠ .zombie)
    (nonZombiePere : (k.table pere).etat ≠ .zombie)
    (etat : (k₁.table pere).etat = (k.table pere).etat)
    (attend : (k₁.table pere).attendFils = (k.table pere).attendFils)
    (endormi : ¬ ((k.table pere).etat = .bloqueSurAttenteDUnFils ∧
      ((k.table pere).attendFils = .nImporteLequel ∨
        (k.table pere).attendFils = .ofPid (k.table pr).pid)))
    (posture : Posture k pere) : Posture k' pere := by
  have attente := fin.memeAttente autre (by rwa [etat])
  have suite : (k₁.table pere).suite = (k.table pere).suite := by rw [reveille.champs]
  have soi : MemeAttente (k.table pere) (k'.table pere) := by
    refine ⟨attente.suite.trans suite, attente.attendFils.trans attend, ?_⟩
    rw [← etat]
    exact attente.etat
  have zombie : ∀ c, (k.table c).pere = some pere → (k.table c).etat = .zombie →
      (k'.table c).pere = some pere ∧ (k'.table c).etat = .zombie := by
    intro c pereC etatC
    have autreC : c ≠ pr := by
      rintro rfl
      exact nonZombie etatC
    obtain ⟨pereC', _, iff⟩ := autres_fils reveille fin autre nonZombiePere pereC autreC
    exact ⟨pereC', iff.mpr etatC⟩
  refine posture.attend soi zombie fun bloque demande => ?_
  unfold Demande at demande ⊢
  rw [soi.suite, soi.attendFils]
  split at demande
  · exact absurd ⟨bloque, .inl demande.1⟩ endormi
  · next c _ _ =>
      obtain ⟨voulu, pereC, vivant, nonZombieC⟩ := demande
      have autreC : c ≠ pr := by
        rintro rfl
        exact endormi ⟨bloque, .inr (by rw [voulu, pid]; rfl)⟩
      obtain ⟨pereC', mort, zombieC⟩ := autres_fils reveille fin autre nonZombiePere pereC autreC
      exact ⟨voulu, pereC', mt mort.mp vivant, mt zombieC.mp nonZombieC⟩
  · exact demande

theorem posture_reveille (reveille : PereReveille k pere pr k₁) (fin : Termine pr .zombie k₁ k')
    (autre : pere ≠ pr) (pid : (k.table pr).pid = some pr)
    (fils : (k.table pr).pere = some pere)
    (bloque : (k.table pere).etat = .bloqueSurAttenteDUnFils)
    (activable : (k₁.table pere).etat = .activable)
    (voulu : (k.table pere).attendFils = .nImporteLequel ∨
      (k.table pere).attendFils = .ofPid (k.table pr).pid)
    (attend : (k₁.table pere).attendFils = .ofPid (k.table pr).pid)
    (posture : Posture k pere) : Posture k' pere := by
  have nonZombie : (k₁.table pere).etat ≠ .zombie := by
    rw [activable]
    exact EtatProcessus.noConfusion
  have attente := fin.memeAttente autre nonZombie
  have suite : (k₁.table pere).suite = (k.table pere).suite := by rw [reveille.champs]
  have demande : Demande k pere := by
    unfold Posture at posture
    rwa [bloque] at posture
  have courant : Courant (k'.table pere).etat := by
    rw [fin.etat_vivant autre nonZombie, activable]
    exact courant_activable
  have pere' : (k'.table pr).pere = some pere :=
    (fin.fils_garde autre nonZombie (by rw [(Vif.of_pereReveille reveille).pere, fils])).1
  have attend' : (k'.table pere).attendFils = .fils pr := by
    rw [attente.attendFils, attend, pid]
    rfl
  rw [Posture.of_courant courant]
  unfold Demande at demande
  unfold Reprise
  rw [attente.suite, suite]
  split at demande
  · next enCours =>
      rw [enCours]
      exact ⟨pr, attend', pere', fin.etat_soi⟩
  · next c _ enCours =>
      have estPr : c = pr := by
        rcases voulu with voulu | voulu <;> rw [demande.1] at voulu
        · cases voulu
        · rw [pid] at voulu
          exact AttendFils.fils.inj voulu
      rw [enCours, estPr]
      exact ⟨pere', fin.etat_soi⟩
  · exact demande.elim

theorem posture_pere (reveille : PereReveille k pere pr k₁)
    (fin : Termine pr .zombie k₁ k') (autre : pere ≠ pr) (pid : (k.table pr).pid = some pr)
    (fils : (k.table pr).pere = some pere) (nonZombie : (k.table pr).etat ≠ .zombie)
    (posture : Posture k pere) : Posture k' pere := by
  have vif : Vif k k₁ := .of_pereReveille reveille
  by_cases fini : (k.table pere).etat = .mort ∨ (k.table pere).etat = .zombie
  · exact .of_fin (fin.fini autre (by rwa [vif.mort, vif.zombie]))
  rcases reveille.reveil with ⟨etat, attend, endormi⟩ | ⟨bloque, activable, voulu, attend⟩
  · exact posture_garde reveille fin autre pid nonZombie (fun zombie => fini (.inr zombie)) etat
      attend endormi posture
  · exact posture_reveille reveille fin autre pid fils bloque activable voulu attend posture

end Pere

end Termine

theorem Terminaison.postures {k k' : Noyau} {pr : Indice} (valide : Valide k)
    (vivant : (k.table pr).etat ≠ .mort) (nonZombie : (k.table pr).etat ≠ .zombie)
    (fin : Terminaison k pr k') (postures : ∀ i, i ≠ pr → Posture k i) : Postures k' := by
  cases fin with
  | @mort k₁ m pere fin =>
      have postures₁ : Postures k₁ := by
        intro i
        by_cases meme : i = pr
        · exact .of_fin (.inl (meme ▸ fin.etat_soi))
        · exact fin.posture meme (by simp [pere]) (postures i meme)
      exact postures₁.of_table rfl
  | @zombie k₁ k₂ m p pere reveille seul fin =>
      have autrePere : p ≠ pr := valide.pere_ne vivant pere
      have pid := valide.coherent.pid_vivant vivant
      have postures₂ : Postures k₂ := by
        intro i
        by_cases meme : i = pr
        · exact .of_fin (.inr (meme ▸ fin.etat_soi))
        by_cases estPere : i = p
        · subst estPere
          exact Termine.posture_pere reveille fin meme pid pere nonZombie (postures i meme)
        · have vif : Vif k k₁ := .of_pereReveille reveille
          have posture₁ : Posture k₁ i := by
            refine (postures i meme).garde ?_ (vif.memesFils i)
            rw [reveille.autres i estPere]
            exact .refl _
          refine fin.posture meme ?_ posture₁
          rw [vif.pere, pere]
          exact fun memePere => estPere (Option.some.inj memePere).symm
      exact postures₂.of_table rfl

theorem Postures.demarrer {k k' : Noyau} (postures : Postures k) {pid : Indice} {prio : Int}
    {args code pageDirectory : Mot} {m : Memoire} {f : Fait} {v : Int} (sain : Sain k)
    (libre : pidLibre k = some pid)
    (change : Change (((installerProcessus k pid prio args code pageDirectory m).noter
      f).renvoieActif v) pid .activable k') : Postures k' := by
  obtain ⟨mort, autre⟩ := sain.libre libre
  set k₁ := (installerProcessus k pid prio args code pageDirectory m).noter f with defk₁
  have actif₁ : k₁.pidActif = k.pidActif :=
    installerProcessus_pidActif k pid prio args code pageDirectory m
  have table₁ : ∀ j, j ≠ pid → k₁.table j = { k.table j with fils := (k₁.table j).fils } :=
    fun j => installerProcessus_table_ne k prio args code pageDirectory m
  have table : ∀ j, j ≠ pid → k'.table j = (k₁.renvoieActif v).table j := fun j => change.table_ne
  have champs : ∀ j, j ≠ pid →
      (k'.table j).pere = (k.table j).pere ∧ (k'.table j).etat = (k.table j).etat := by
    intro j autreJ
    rw [table j autreJ]
    exact (demarrage_autre prio args code pageDirectory m f v autreJ).symm
  intro i
  by_cases nouveau : i = pid
  · subst nouveau
    refine .of_libre (by rw [change.etat, if_pos rfl]; exact courant_activable) ?_
    rw [change.champs, defk₁, demarrage_soi _ _ _ _ _ _ _ autre]
    trivial
  by_cases actif : k.pidActif = some i
  · refine .of_libre (.inl ?_) ?_
    · rw [(champs i nouveau).2, sain.actif i actif]
    · rw [table i nouveau, Noyau.renvoieActif, actif₁, actif]
      simp [Noyau.renvoie, SuiteLibre]
  · refine (postures i).garde ?_ ⟨fun c pere vivant => ?_, fun c pere zombie => ?_⟩
    · rw [table i nouveau, renvoieActif_table_ne k₁ v (actif₁ ▸ actif), table₁ i nouveau]
      exact ⟨rfl, rfl, .inl rfl⟩
    · have autreC : c ≠ pid := fun meme => vivant (meme ▸ mort)
      rw [(champs c autreC).1, (champs c autreC).2]
      exact ⟨pere, vivant, Iff.rfl⟩
    · have autreC : c ≠ pid := by
        rintro rfl
        rw [change.etat, if_pos rfl] at zombie
        cases zombie
      rw [(champs c autreC).1] at pere
      rw [(champs c autreC).2] at zombie
      exact ⟨pere, zombie⟩

theorem Postures.reveils {k k' : Noyau} (postures : Postures k) (reveils : Reveils k k') :
    Postures k' := by
  induction reveils with
  | fin k => exact postures
  | @suivant k k₁ k' i endormi change reste ih =>
      refine ih (postures.eveil change ((postures i).suiteLibre (.inl endormi)) ?_)
      rw [endormi]
      exact EtatProcessus.noConfusion

theorem Terminaison.postures_actif {k k₁ k' : Noyau} {a : Indice} (fin : Terminaison k₁ a k')
    (sain : Sain k) (actif : k.pidActif = some a) (prepare : Prepare k a k₁) : Postures k' := by
  have etat : (k₁.table a).etat = .actif := by rw [prepare.vue.etat, sain.actif a actif]
  refine fin.postures (sain.valide.transport prepare.vue) (by simp [etat]) (by simp [etat])
    fun i autre => ?_
  refine (sain.posture i).garde ?_ ((Vif.of_vue prepare.vue).memesFils i)
  rw [prepare.autres i autre]
  exact .refl _

theorem Termine.postures_recolte {k k₁ k' : Noyau} {a c : Indice} (fin : Termine c .mort k₁ k')
    (sain : Sain k) (actif : k.pidActif = some a) (pere : (k.table c).pere = some a)
    (zombie : (k.table c).etat = .zombie) (prepare : Prepare k a k₁)
    (libre : SuiteLibre (k₁.table a).suite) : Postures k' := by
  have etat : (k₁.table a).etat = .actif := by rw [prepare.vue.etat, sain.actif a actif]
  have autre : c ≠ a := sain.passif actif zombie (by decide)
  intro i
  by_cases estC : i = c
  · exact .of_fin (.inl (estC ▸ fin.etat_soi))
  by_cases estA : i = a
  · subst estA
    refine .of_libre ?_ ?_
    · rw [fin.etat_vivant autre.symm (by simp [etat])]
      exact .inl etat
    · rw [fin.donnees i]
      exact libre
  · have posture : Posture k₁ i := by
      refine (sain.posture i).garde ?_ ((Vif.of_vue prepare.vue).memesFils i)
      rw [prepare.autres i estA]
      exact .refl _
    refine fin.posture estC ?_ posture
    rw [prepare.vue.pere, pere]
    exact fun meme => estA (Option.some.inj meme).symm

theorem Postures.attend {k k' : Noyau} {a : Indice} {cible : AttendFils} {s : Suite} (postures : Postures k)
    (sain : Sain k) (actif : k.pidActif = some a)
    (change : Change ((k.modifie a fun p => { p with attendFils := cible }).suspend a s) a .bloqueSurAttenteDUnFils k')
    (demande : Vif k k' → (k'.table a).suite = s → (k'.table a).attendFils = cible → Demande k' a) : Postures k' := by
  have vue : MemeVue k (k.modifie a fun p => { p with attendFils := cible }) :=
    .modifie k a fun _ => ⟨rfl, rfl, rfl, rfl, rfl⟩
  have vif : Vif k k' :=
    .of_bloque (vue.trans (.suspend _ a _)) change ⟨by simp, by simp, by simp⟩ (sain.actif a actif)
  refine postures.bloque change ⟨by simp, by simp, by simp⟩ (sain.actif a actif) vue (fun j => k.modifie_table_ne _) ?_
  unfold Posture
  rw [change.etat, if_pos rfl]
  refine demande vif ?_ ?_ <;> rw [change.champs a, Noyau.suspend_table_self, Noyau.modifie_table_self]

theorem EffetProcessus.postures {e : Evenement} {k k' : Noyau} (sain : Sain k)
    (effet : EffetProcessus e k k') : Postures k' := by
  have postures : Postures k := sain.posture
  cases effet with
  | neutre avant neutre => exact postures.of_table neutre.table
  | @rendre k₁ a s actif avant apres neutre =>
      refine (postures.of_table neutre.table).suspend ?_ apres.libre
      rw [neutre.table, sain.actif a actif]
  | @dormir k₁ a s clock actif nonZero avant apres change =>
      refine postures.bloque change ⟨by simp, by simp, by simp⟩ (sain.actif a actif)
        (.modifie k a fun _ => ⟨rfl, rfl, rfl, rfl, rfl⟩) (fun j => k.modifie_table_ne _) ?_
      unfold Posture
      rw [change.etat, if_pos rfl, change.champs, Noyau.suspend_table_self]
      exact apres
  | demarrer prio args code pageDirectory m avant libre change =>
      exact postures.demarrer sain libre change
  | @tuer k₁ a pr pid actif avant appel cible nonZero vivant nonZombie fin =>
      have vue : MemeVue k (k.renvoie a 0) := .renvoie k a 0
      have retour : Postures (k.renvoie a 0) := postures.suspend (sain.actif a actif) trivial
      exact fin.postures (sain.valide.transport vue) (by rwa [vue.etat]) (by rwa [vue.etat])
        fun i _ => retour i
  | @sortir k₁ a s v actif nonZero avant apres fin =>
      exact fin.postures_actif sain actif (sortie_prepare k a v s)
  | @achever k₁ a actif nonZero reprise suite fin =>
      exact fin.postures_actif sain actif (.suspend k a .termine)
  | @attendre k₁ a retvalp actif nonZero avant fils aucun change =>
      refine postures.attend sain actif change fun vif suite attend => ?_
      have enfants := sain.valide.famille.enfants a (sain.vivant actif)
      unfold Demande
      rw [suite]
      refine ⟨attend, ?_, fun c pere zombie => ?_⟩
      · obtain ⟨c, mem⟩ := List.exists_mem_of_ne_nil _ fils
        obtain ⟨pere, vivant⟩ := (enfants.mem c).mp mem
        exact ⟨c, by rw [vif.pere, pere], mt (vif.mort c).mp vivant⟩
      · rw [vif.pere] at pere
        rw [vif.zombie] at zombie
        exact aucun c ((enfants.mem c).mpr ⟨pere, by simp [zombie]⟩) zombie
  | @attendreFils k₁ a c retvalp actif nonZero avant pere vivant nonZombie change =>
      refine postures.attend sain actif change fun vif suite attend => ?_
      unfold Demande
      rw [suite]
      exact ⟨attend, by rw [vif.pere, pere], mt (vif.mort c).mp vivant, mt (vif.zombie c).mp nonZombie⟩
  | @recuperer k₁ k₂ a c retvalp actif avant pere zombie attend fin =>
      have fin : Termine c .mort (avantRecolte k₁ a c retvalp (k.table c).retval) k' := fin
      refine fin.postures_recolte sain actif pere zombie (recolte_prepare attend c retvalp _) ?_
      rw [recolte_soi attend]
      trivial
  | @reclasser k₁ a pr prio oldprio actif avant vivant reclasse =>
      have postures₁ : Postures k₁ := by
        refine fun i => (postures i).garde ?_ ((Vif.of_reclasse reclasse).memesFils i)
        rw [reclasse.champs]
        exact ⟨rfl, rfl, .inl rfl⟩
      refine postures₁.suspend ?_ trivial
      rw [reclasse.champs, sain.actif a actif]
  | tic horloge appel avant reveils =>
      have postures₁ : Postures { k with horloge := horloge } := .of_table postures rfl
      exact postures₁.reveils reveils
  | @entrerConsole k₁ k₂ a length actif nonZero appel avant entree change =>
      obtain ⟨console, _, rfl, _⟩ := entree
      refine postures.bloque change ⟨by simp, by simp, by simp⟩ (sain.actif a actif)
        (.of_table rfl rfl rfl rfl) (fun _ _ => rfl) ?_
      unfold Posture
      rw [change.etat, if_pos rfl, change.champs, Noyau.suspend_table_self]
      exact ⟨length, rfl⟩
  | @sortirConsole k₁ k₂ k₃ p avant sortie change neutre =>
      obtain ⟨console, _, rfl, _, queue⟩ := sortie
      have lecteur := sain.console.bloques p (by simp [queue])
      have postures₁ : Postures { k with console := console } := postures.of_table rfl
      have postures₂ : Postures k₂ := postures₁.eveil change
        ((postures p).suiteLibre (.inr (.inl lecteur))) (by simp [lecteur])
      exact postures₂.of_table neutre.table
  | @finReception a actif suite => exact postures.finAppelFile (sain.actif a actif) 0

theorem FilesSaines.attente {k : Noyau} (files : FilesSaines k) {fid : IndiceFile} {i : Indice}
    (attend : ∃ n ∈ (k.files fid).listeProcBloqueReception ++ (k.files fid).listeProcBloqueEnvoi,
      n.pid = i) : (k.table i).etat = .bloqueSurReception ∨ (k.table i).etat = .bloqueSurEnvoi := by
  obtain ⟨n, mem, rfl⟩ := attend
  rcases List.mem_append.mp mem with mem | mem
  · exact .inl (files.recepteurs fid n mem).1
  · exact .inr (files.emetteurs fid n mem).1

theorem Vide.table {k k' : Noyau} {fid : IndiceFile} (vide : Vide fid k k') (files : FilesSaines k)
    (i : Indice) : k'.table i = k.table i ∨
      ((k.table i).etat = .bloqueSurReception ∨ (k.table i).etat = .bloqueSurEnvoi) ∧
        k'.table i = { k.table i with etat := .activable, valresetfile := 1 } := by
  by_cases attend : ∃ n ∈ (k.files fid).listeProcBloqueReception ++
      (k.files fid).listeProcBloqueEnvoi, n.pid = i
  · exact .inr ⟨files.attente attend, vide.reveille i attend⟩
  · push Not at attend
    exact .inl (vide.autres i attend)

theorem Vide.vif {k k' : Noyau} {fid : IndiceFile} (vide : Vide fid k k') (files : FilesSaines k) :
    Vif k k' := by
  refine ⟨fun j => ?_, fun j => ?_, fun j => ?_⟩ <;>
  · rcases vide.table files j with meme | ⟨etat | etat, eveil⟩
    · rw [meme]
    all_goals simp [eveil, etat]

theorem Vide.postures {k k' : Noyau} {fid : IndiceFile} (vide : Vide fid k k') (sain : Sain k) :
    Postures k' := by
  have table := vide.table sain.files
  have vif := vide.vif sain.files
  intro i
  rcases table i with meme | ⟨bloque, eveil⟩
  · refine (sain.posture i).garde ?_ (vif.memesFils i)
    rw [meme]
    exact .refl _
  · have libre := (sain.posture i).suiteLibre (.inr (.inr bloque))
    refine .of_libre ?_ ?_ <;> rw [eveil]
    · exact courant_activable
    · exact libre

theorem Vide.actif {k k' : Noyau} {fid : IndiceFile} {a : Indice} (vide : Vide fid k k')
    (sain : Sain k) (actif : k.pidActif = some a) : (k'.table a).etat = .actif := by
  rcases vide.table sain.files a with meme | ⟨bloque, -⟩
  · rw [meme, sain.actif a actif]
  · simp [sain.actif a actif] at bloque

theorem EffetFile.postures {e : Evenement} {k k' : Noyau} (sain : Sain k) (effet : EffetFile e k k') :
    Postures k' := by
  have postures : Postures k := sain.posture
  cases effet with
  | @creer a fid count nbFiles actif avant appel positif libre =>
      exact Postures.suspend (postures.of_table rfl) (sain.actif a actif) trivial
  | @bloquerReception k₁ a fid actif nonZero appel vide drapeau change =>
      have bloque : Postures k₁ := by
        refine postures.bloque change ⟨by simp, by simp, by simp⟩ (sain.actif a actif)
          (.modifieFile k fid _) (fun _ _ => rfl) ?_
        unfold Posture
        rw [change.etat, if_pos rfl, change.champs, Noyau.suspend_table_self]
        exact ⟨fid, rfl⟩
      exact bloque.of_table rfl
  | @bloquerEnvoi k₁ a fid message actif nonZero appel neuf plein drapeau change =>
      have bloque : Postures k₁ := by
        refine postures.bloque change ⟨by simp, by simp, by simp⟩ (sain.actif a actif)
          (.modifieFile k fid _) (fun _ _ => rfl) ?_
        unfold Posture
        rw [change.etat, if_pos rfl, change.champs, Noyau.suspend_table_self]
        exact ⟨fid, message, rfl⟩
      exact bloque.of_table rfl
  | @prendre a fid message reste actif appel drapeau tete sans =>
      exact Postures.finAppelFile (postures.of_table rfl) (sain.actif a actif) 0
  | @prendreReveil k₁ a fid message reste q actif nonZero appel drapeau tete plein dernier change =>
      obtain ⟨etat, m, suite⟩ := sain.files.emetteurs fid q (last_mem dernier)
      have autre : q.pid ≠ a := sain.emetteur_passif actif (last_mem dernier)
      have suspendu : Postures (((k.modifieFile fid fun f =>
          { f with
            file := reste, nbelem := f.nbelem - 1
            listeProcBloqueEnvoi := f.listeProcBloqueEnvoi.dropLast }).noter
          (.reception a fid message)).suspend a .preceiveFin) :=
        Postures.suspend (postures.of_table rfl) (sain.actif a actif) trivial
      have eveil : Postures k₁ := by
        refine suspendu.eveil change ?_ ?_ <;> rw [Noyau.suspend_table_ne _ _ autre, Noyau.noter_table,
          Noyau.modifieFile_table]
        · rw [suite]
          trivial
        · rw [etat]
          exact EtatProcessus.noConfusion
      exact eveil.of_table rfl
  | @deposer a fid message actif appel place drapeau sans =>
      exact Postures.finAppelFile (postures.of_table rfl) (sain.actif a actif) 0
  | @deposerReveil k₁ a fid message q actif appel place drapeau vide dernier change =>
      obtain ⟨etat, suite⟩ := sain.files.recepteurs fid q (last_mem dernier)
      have autre : q.pid ≠ a := sain.recepteur_passif actif (last_mem dernier)
      have depose : Postures ((k.modifieFile fid fun f =>
          { f with
            file := f.file ++ [message], nbelem := f.nbelem + 1
            listeProcBloqueReception := f.listeProcBloqueReception.dropLast }).noter
          (.envoi a fid message)) := postures.of_table rfl
      have eveil : Postures k₁ := by
        refine depose.eveil change ?_ ?_ <;> rw [Noyau.noter_table, Noyau.modifieFile_table]
        · rw [suite]
          trivial
        · rw [etat]
          exact EtatProcessus.noConfusion
      refine Postures.finAppelFile (eveil.of_table rfl) ?_ 0
      rw [change.etat, if_neg autre.symm]
      exact sain.actif a actif
  | @refuser a fid actif appel drapeau => exact postures.finAppelFile (sain.actif a actif) (-1)
  | @abandonner a fid message actif reprise suite plein =>
      exact postures.suspend (sain.actif a actif) trivial
  | @vider k₁ a fid n actif avant appel ouverte vide =>
      exact (vide.postures sain).suspend (vide.actif sain actif) trivial
  | @supprimer k₁ a fid n nbFiles actif avant appel ouverte vide =>
      exact Postures.suspend ((vide.postures sain).of_table rfl) (vide.actif sain actif) trivial

end ProjetSysteme.Invariant
