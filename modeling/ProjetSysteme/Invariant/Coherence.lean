/- Invariant/Coherence
   digest: Agreement of the process table with the queues, and the forest of fathers and children. -/

import ProjetSysteme.Kernel.Step

set_option autoImplicit false
set_option relaxedAutoImplicit false

namespace ProjetSysteme.Invariant

open Kernel Library.PriorityList

structure Rangement (k : Noyau) : Prop where
  pid_indice : ∀ i, (k.table i).pid = some i ∨ (k.table i).pid = none
  pid_mort : ∀ i, (k.table i).pid = none ↔ (k.table i).etat = .mort
  activables_mem : ∀ i, i ∈ k.activables ↔ (k.table i).etat = .activable
  activables_nodup : k.activables.Nodup
  activables_tries : Ascending k.prioDe k.activables
  endormis_mem : ∀ i, i ∈ k.endormis ↔ (k.table i).etat = .bloqueSurSemaphore
  endormis_nodup : k.endormis.Nodup

theorem Rangement.pid_vivant {k : Noyau} (range : Rangement k) {i : Indice}
    (vivant : (k.table i).etat ≠ .mort) : (k.table i).pid = some i :=
  (range.pid_indice i).resolve_right fun libre => vivant ((range.pid_mort i).mp libre)

/-- No process but `pid_actif` is ACTIF. -/
structure Coherent (k : Noyau) : Prop extends Rangement k where
  actif_seul : ∀ i, (k.table i).etat = .actif → k.pidActif = some i

structure Enfants (k : Noyau) (p : Indice) : Prop where
  mem : ∀ j, j ∈ (k.table p).fils ↔ (k.table j).pere = some p ∧ (k.table j).etat ≠ .mort
  nodup : (k.table p).fils.Nodup

structure Famille (k : Noyau) : Prop where
  enfants : ∀ p, (k.table p).etat ≠ .mort → Enfants k p
  pere_vivant : ∀ j p, (k.table j).etat ≠ .mort → (k.table j).pere = some p →
    (k.table p).etat ≠ .mort
  rang : ∃ r : Indice → Nat, ∀ j p, (k.table j).etat ≠ .mort → (k.table j).pere = some p →
    r p < r j

structure Valide (k : Noyau) : Prop where
  coherent : Coherent k
  famille : Famille k

structure MemeVue (k k' : Noyau) : Prop where
  pid : ∀ j, (k'.table j).pid = (k.table j).pid
  etat : ∀ j, (k'.table j).etat = (k.table j).etat
  prio : ∀ j, (k'.table j).prio = (k.table j).prio
  pere : ∀ j, (k'.table j).pere = (k.table j).pere
  fils : ∀ j, (k'.table j).fils = (k.table j).fils
  activables : k'.activables = k.activables
  endormis : k'.endormis = k.endormis
  pidActif : k'.pidActif = k.pidActif

theorem MemeVue.of_table {k k' : Noyau} (table : k'.table = k.table)
    (activables : k'.activables = k.activables) (endormis : k'.endormis = k.endormis)
    (pidActif : k'.pidActif = k.pidActif) : MemeVue k k' := by
  refine ⟨?_, ?_, ?_, ?_, ?_, activables, endormis, pidActif⟩ <;>
  · intro j
    rw [table]

theorem MemeVue.refl (k : Noyau) : MemeVue k k := .of_table rfl rfl rfl rfl

theorem MemeVue.trans {k k' k'' : Noyau} (un : MemeVue k k') (deux : MemeVue k' k'') :
    MemeVue k k'' where
  pid j := (deux.pid j).trans (un.pid j)
  etat j := (deux.etat j).trans (un.etat j)
  prio j := (deux.prio j).trans (un.prio j)
  pere j := (deux.pere j).trans (un.pere j)
  fils j := (deux.fils j).trans (un.fils j)
  activables := deux.activables.trans un.activables
  endormis := deux.endormis.trans un.endormis
  pidActif := deux.pidActif.trans un.pidActif

theorem MemeVue.modifie (k : Noyau) (i : Indice) {f : Processus → Processus}
    (garde : ∀ p, (f p).pid = p.pid ∧ (f p).etat = p.etat ∧ (f p).prio = p.prio ∧
      (f p).pere = p.pere ∧ (f p).fils = p.fils) : MemeVue k (k.modifie i f) := by
  refine ⟨?_, ?_, ?_, ?_, ?_, rfl, rfl, rfl⟩ <;>
  · intro j
    rw [Noyau.modifie_table]
    split
    · simp [garde]
    · rfl

theorem MemeVue.suspend (k : Noyau) (i : Indice) (s : Suite) : MemeVue k (k.suspend i s) :=
  .modifie k i fun _ => ⟨rfl, rfl, rfl, rfl, rfl⟩

theorem MemeVue.prepare (k : Noyau) (i : Indice) (s : Suite) {f : Processus → Processus}
    (garde : ∀ p, (f p).pid = p.pid ∧ (f p).etat = p.etat ∧ (f p).prio = p.prio ∧
      (f p).pere = p.pere ∧ (f p).fils = p.fils) : MemeVue k ((k.modifie i f).suspend i s) :=
  (MemeVue.modifie k i garde).trans (.suspend _ i s)

theorem MemeVue.renvoie (k : Noyau) (i : Indice) (v : Int) : MemeVue k (k.renvoie i v) :=
  .suspend k i _

theorem MemeVue.renvoieActif (k : Noyau) (v : Int) : MemeVue k (k.renvoieActif v) := by
  unfold Noyau.renvoieActif
  split
  · exact .refl k
  · exact .renvoie k _ v

theorem MemeVue.noter (k : Noyau) (f : Fait) : MemeVue k (k.noter f) := .of_table rfl rfl rfl rfl

theorem MemeVue.modifieFile (k : Noyau) (fid : IndiceFile) (f : FileMessage → FileMessage) :
    MemeVue k (k.modifieFile fid f) := .of_table rfl rfl rfl rfl

theorem Coherent.transport {k k' : Noyau} (vue : MemeVue k k') (coherent : Coherent k) :
    Coherent k' where
  pid_indice i := by rw [vue.pid]; exact coherent.pid_indice i
  pid_mort i := by rw [vue.pid, vue.etat]; exact coherent.pid_mort i
  activables_mem i := by rw [vue.activables, vue.etat]; exact coherent.activables_mem i
  activables_nodup := by rw [vue.activables]; exact coherent.activables_nodup
  activables_tries := by
    rw [vue.activables]
    exact coherent.activables_tries.congr _ fun i _ => (vue.prio i).symm
  endormis_mem i := by rw [vue.endormis, vue.etat]; exact coherent.endormis_mem i
  endormis_nodup := by rw [vue.endormis]; exact coherent.endormis_nodup
  actif_seul i := by rw [vue.etat, vue.pidActif]; exact coherent.actif_seul i

theorem Famille.congr {k k' : Noyau} (famille : Famille k)
    (mort : ∀ j, (k'.table j).etat = .mort ↔ (k.table j).etat = .mort)
    (pere : ∀ j, (k'.table j).pere = (k.table j).pere)
    (fils : ∀ j, (k'.table j).fils = (k.table j).fils) : Famille k' where
  enfants p vivant :=
    have enfants := famille.enfants p (mt (mort p).mpr vivant)
    { mem := fun j => by rw [fils, pere, enfants.mem, Ne, Ne, mort]
      nodup := by rw [fils]; exact enfants.nodup }
  pere_vivant j p vivant estPere := by
    rw [Ne, mort] at vivant ⊢
    exact famille.pere_vivant j p vivant (pere j ▸ estPere)
  rang := by
    obtain ⟨r, croissant⟩ := famille.rang
    refine ⟨r, fun j p vivant estPere => ?_⟩
    exact croissant j p (mt (mort j).mpr vivant) (pere j ▸ estPere)

theorem Famille.transport {k k' : Noyau} (vue : MemeVue k k') (famille : Famille k) : Famille k' :=
  famille.congr (fun j => by rw [vue.etat]) vue.pere vue.fils

theorem Valide.transport {k k' : Noyau} (vue : MemeVue k k') (valide : Valide k) : Valide k' :=
  ⟨valide.coherent.transport vue, valide.famille.transport vue⟩

theorem Valide.of_table {k k' : Noyau} (valide : Valide k) (table : k'.table = k.table)
    (activables : k'.activables = k.activables) (endormis : k'.endormis = k.endormis)
    (pidActif : k'.pidActif = k.pidActif) : Valide k' :=
  valide.transport (.of_table table activables endormis pidActif)

end ProjetSysteme.Invariant
