/- Invariant/Posture
   digest: For each process, the agreement of its state with the call it is suspended in. -/

import ProjetSysteme.Invariant.Preservation

set_option autoImplicit false
set_option relaxedAutoImplicit false

namespace ProjetSysteme.Invariant

open Kernel Library.PriorityList

def Demande (k : Noyau) (i : Indice) : Prop :=
  match (k.table i).suite with
  | .waitpidAttente _ =>
    (k.table i).attendFils = .nImporteLequel ∧
    (∃ c, (k.table c).pere = some i ∧ (k.table c).etat ≠ .mort) ∧
    ∀ c, (k.table c).pere = some i → (k.table c).etat ≠ .zombie
  | .waitpidAttenteFils c _ =>
    (k.table i).attendFils = .fils c ∧ (k.table c).pere = some i ∧
    (k.table c).etat ≠ .mort ∧ (k.table c).etat ≠ .zombie
  | _ => False

def Reprise (k : Noyau) (i : Indice) : Prop :=
  match (k.table i).suite with
  | .waitpidAttente _ =>
    ∃ c, (k.table i).attendFils = .fils c ∧ (k.table c).pere = some i ∧ (k.table c).etat = .zombie
  | .waitpidAttenteFils c _ => (k.table c).pere = some i ∧ (k.table c).etat = .zombie
  | .exitFin | .termine => False
  | _ => True

def Posture (k : Noyau) (i : Indice) : Prop :=
  match (k.table i).etat with
  | .actif | .activable => Reprise k i
  | .bloqueSurSemaphore => (∃ v, (k.table i).suite = .retour v) ∨ (k.table i).suite = .finConfirme
  | .bloqueSurAttenteDUnFils => Demande k i
  | .bloqueSurEntreeSortie => ∃ n, (k.table i).suite = .consReadAttente n
  | .bloqueSurReception => ∃ fid, (k.table i).suite = .preceiveAttente fid
  | .bloqueSurEnvoi => ∃ fid message, (k.table i).suite = .psendAttente fid message
  | .endormi => False
  | .mort | .zombie => True

theorem Posture.of_courant {k : Noyau} {i : Indice} (courant : Courant (k.table i).etat) :
    Posture k i ↔ Reprise k i := by
  unfold Posture
  rcases courant with etat | etat <;> rw [etat]

structure MemeAttente (p p' : Processus) : Prop where
  suite : p'.suite = p.suite
  attendFils : p'.attendFils = p.attendFils
  etat : p'.etat = p.etat ∨ (Courant p.etat ∧ Courant p'.etat)

theorem MemeAttente.refl (p : Processus) : MemeAttente p p := ⟨rfl, rfl, .inl rfl⟩

/-- The children of `i` that `k'` knows are those of `k`, with the same states as far
as `waitpid` can tell. -/
structure MemesFils (k k' : Noyau) (i : Indice) : Prop where
  garde : ∀ c, (k.table c).pere = some i → (k.table c).etat ≠ .mort →
    (k'.table c).pere = some i ∧ (k'.table c).etat ≠ .mort ∧
      ((k'.table c).etat = .zombie ↔ (k.table c).etat = .zombie)
  ancien : ∀ c, (k'.table c).pere = some i → (k'.table c).etat = .zombie →
    (k.table c).pere = some i ∧ (k.table c).etat = .zombie

theorem MemesFils.zombie {k k' : Noyau} {i : Indice} (fils : MemesFils k k' i) {c : Indice}
    (pere : (k.table c).pere = some i) (etat : (k.table c).etat = .zombie) :
    (k'.table c).pere = some i ∧ (k'.table c).etat = .zombie := by
  obtain ⟨pere', _, iff⟩ := fils.garde c pere (by simp [etat])
  exact ⟨pere', iff.mpr etat⟩

theorem Reprise.garde {k k' : Noyau} {i : Indice} (soi : MemeAttente (k.table i) (k'.table i))
    (zombie : ∀ c, (k.table c).pere = some i → (k.table c).etat = .zombie →
      (k'.table c).pere = some i ∧ (k'.table c).etat = .zombie)
    (reprise : Reprise k i) : Reprise k' i := by
  unfold Reprise at reprise ⊢
  rw [soi.suite, soi.attendFils]
  split at reprise
  · obtain ⟨c, attend, pere, etat⟩ := reprise
    exact ⟨c, attend, zombie c pere etat⟩
  · exact zombie _ reprise.1 reprise.2
  · exact reprise
  · exact reprise
  · trivial

theorem Demande.garde {k k' : Noyau} {i : Indice} (soi : MemeAttente (k.table i) (k'.table i))
    (fils : MemesFils k k' i) (demande : Demande k i) : Demande k' i := by
  unfold Demande at demande ⊢
  rw [soi.suite, soi.attendFils]
  split at demande
  · obtain ⟨attend, ⟨c, pere, vivant⟩, aucun⟩ := demande
    obtain ⟨pere', vivant', _⟩ := fils.garde c pere vivant
    refine ⟨attend, ⟨c, pere', vivant'⟩, fun d pereD zombie => ?_⟩
    obtain ⟨pereD', zombie'⟩ := fils.ancien d pereD zombie
    exact aucun d pereD' zombie'
  · obtain ⟨attend, pere, vivant, nonZombie⟩ := demande
    obtain ⟨pere', vivant', iff⟩ := fils.garde _ pere vivant
    exact ⟨attend, pere', vivant', fun zombie => nonZombie (iff.mp zombie)⟩
  · exact demande

/-- A posture is kept with the call in progress, if the zombie children stay and what
a process blocked in `waitpid` waits for is still to come. -/
theorem Posture.attend {k k' : Noyau} {i : Indice} (soi : MemeAttente (k.table i) (k'.table i))
    (zombie : ∀ c, (k.table c).pere = some i → (k.table c).etat = .zombie →
      (k'.table c).pere = some i ∧ (k'.table c).etat = .zombie)
    (demande : (k.table i).etat = .bloqueSurAttenteDUnFils → Demande k i → Demande k' i)
    (posture : Posture k i) : Posture k' i := by
  rcases soi.etat with meme | ⟨avant, apres⟩
  · unfold Posture at posture ⊢
    rw [meme, soi.suite]
    split at posture
    · exact posture.garde soi zombie
    · exact posture.garde soi zombie
    · exact posture
    · next bloque => exact demande bloque posture
    all_goals exact posture
  · rw [Posture.of_courant avant] at posture
    rw [Posture.of_courant apres]
    exact posture.garde soi zombie

theorem Posture.garde {k k' : Noyau} {i : Indice} (soi : MemeAttente (k.table i) (k'.table i))
    (fils : MemesFils k k' i) (posture : Posture k i) : Posture k' i :=
  posture.attend soi (fun _ => fils.zombie) fun _ => Demande.garde soi fils

/-- No process becomes or ceases to be MORT or ZOMBIE, or changes its father. -/
structure Vif (k k' : Noyau) : Prop where
  pere : ∀ j, (k'.table j).pere = (k.table j).pere
  mort : ∀ j, (k'.table j).etat = .mort ↔ (k.table j).etat = .mort
  zombie : ∀ j, (k'.table j).etat = .zombie ↔ (k.table j).etat = .zombie

namespace Vif

variable {k k' k'' : Noyau}

theorem trans (un : Vif k k') (deux : Vif k' k'') : Vif k k'' where
  pere j := (deux.pere j).trans (un.pere j)
  mort j := (deux.mort j).trans (un.mort j)
  zombie j := (deux.zombie j).trans (un.zombie j)

theorem memesFils (vif : Vif k k') (i : Indice) : MemesFils k k' i where
  garde c pere vivant := by
    rw [vif.pere, Ne, vif.mort, vif.zombie]
    exact ⟨pere, vivant, Iff.rfl⟩
  ancien c pere etat := by
    rw [vif.pere] at pere
    rw [vif.zombie] at etat
    exact ⟨pere, etat⟩

theorem of_vue (vue : MemeVue k k') : Vif k k' where
  pere := vue.pere
  mort j := by rw [vue.etat]
  zombie j := by rw [vue.etat]

theorem of_ordonnance (ord : Ordonnance k k') : Vif k k' where
  pere := ord.pere
  mort := ord.etat_iff (by simp) (by simp)
  zombie := ord.etat_iff (by simp) (by simp)

theorem of_change {pr : Indice} {e : EtatProcessus} (change : Change k pr e k')
    (vivant : (k.table pr).etat ≠ .zombie) (simple : Simple e) : Vif k k' where
  pere j := by rw [change.champs]
  mort j := by
    rw [change.etat]
    split
    · next meme => simp [meme, change.1, simple.2.1]
    · rfl
  zombie j := by
    rw [change.etat]
    split
    · next meme => simp [meme, vivant, simple.2.2]
    · rfl

theorem of_reclasse {pr : Indice} {prio : Int} (reclasse : Reclasse k pr prio k') : Vif k k' := by
  refine ⟨fun j => ?_, fun j => ?_, fun j => ?_⟩ <;> rw [reclasse.champs]

theorem of_pereReveille {pere pr : Indice} (reveille : PereReveille k pere pr k') : Vif k k' := by
  have etat : ∀ s, s ≠ .bloqueSurAttenteDUnFils → s ≠ .activable → ∀ j,
      (k'.table j).etat = s ↔ (k.table j).etat = s := by
    intro s nonBloque nonActivable j
    by_cases meme : j = pere
    · rw [meme]
      rcases reveille.reveil with ⟨garde, _⟩ | ⟨bloque, activable, _⟩
      · rw [garde]
      · rw [bloque, activable]
        exact ⟨fun h => absurd h.symm nonActivable, fun h => absurd h.symm nonBloque⟩
    · rw [reveille.autres j meme]
  refine ⟨fun j => ?_, etat _ (by simp) (by simp), etat _ (by simp) (by simp)⟩
  by_cases meme : j = pere
  · rw [meme, reveille.champs]
  · rw [reveille.autres j meme]

end Vif

theorem MemeAttente.of_ordonnance {k k' : Noyau} (ord : Ordonnance k k') (i : Indice) :
    MemeAttente (k.table i) (k'.table i) :=
  ⟨by rw [ord.champs], by rw [ord.champs], ord.etat i⟩

theorem Posture.ordonnance {k k' : Noyau} (ord : Ordonnance k k') {i : Indice}
    (posture : Posture k i) : Posture k' i :=
  posture.garde (.of_ordonnance ord i) ((Vif.of_ordonnance ord).memesFils i)

/-- Value of a child for `waitpid`, read off the history: that of its last call of
`exit` or return since it was started, else 0. -/
def valeurFin : List Fait → Indice → Int
  | [], _ => 0
  | .fin j v :: reste, c => if j = c then v else valeurFin reste c
  | .demarrage _ j :: reste, c => if j = c then 0 else valeurFin reste c
  | _ :: reste, c => valeurFin reste c

def Valeurs (k : Noyau) : Prop :=
  ∀ c, (k.table c).etat ≠ .mort → (k.table c).retval = valeurFin k.journal c

end ProjetSysteme.Invariant
