/- Invariant/Change
   digest: Effect of the state changes that neither end a process nor elect one. -/

import ProjetSysteme.Invariant.Coherence

set_option autoImplicit false
set_option relaxedAutoImplicit false

namespace ProjetSysteme.Invariant

open Kernel Library.PriorityList

/-- The states that `definir_etat_processus` sets without a child loop and
without a change of `pid_actif`. -/
def Simple (e : EtatProcessus) : Prop := e ≠ .actif ∧ e ≠ .mort ∧ e ≠ .zombie

def changeEtat (k : Noyau) (pr : Indice) (e : EtatProcessus) : Noyau :=
  let activables := k.activables.erase pr
  let endormis := k.endormis.erase pr
  let k' := { k with
    activables := if e = EtatProcessus.activable then place k.prioDe pr activables else activables
    endormis := if e = EtatProcessus.bloqueSurSemaphore then place k.prioDe pr endormis else endormis }
  k'.modifie pr fun p => { p with etat := e }

theorem changeEtat_table (k : Noyau) (pr j : Indice) (e : EtatProcessus) :
    (changeEtat k pr e).table j = if j = pr then { k.table j with etat := e } else k.table j := rfl

theorem changeEtat_etat (k : Noyau) (pr j : Indice) (e : EtatProcessus) :
    ((changeEtat k pr e).table j).etat = if j = pr then e else (k.table j).etat := by
  rw [changeEtat_table]
  split <;> rfl

theorem changeEtat_champs (k : Noyau) (pr j : Indice) (e : EtatProcessus) :
    (changeEtat k pr e).table j =
      { k.table j with etat := ((changeEtat k pr e).table j).etat } := by
  rw [changeEtat_table]
  split <;> rfl

theorem changeEtat_noyau (k : Noyau) (pr : Indice) (e : EtatProcessus) :
    changeEtat k pr e = { k with
      table := (changeEtat k pr e).table
      activables := (changeEtat k pr e).activables
      endormis := (changeEtat k pr e).endormis } := rfl

theorem changeEtat_endormis {k : Noyau} (range : Rangement k) {pr : Indice} {e : EtatProcessus}
    (avant : (k.table pr).etat ≠ .bloqueSurSemaphore) (apres : e ≠ .bloqueSurSemaphore) :
    (changeEtat k pr e).endormis = k.endormis := by
  simp only [changeEtat, Noyau.modifie, if_neg apres]
  exact List.erase_of_not_mem fun mem => avant ((range.endormis_mem pr).mp mem)

private theorem erase_mem_activables {k : Noyau} (range : Rangement k) (pr : Indice) {j : Indice} :
    j ∈ k.activables.erase pr ↔ j ≠ pr ∧ (k.table j).etat = .activable := by
  rw [range.activables_nodup.mem_erase_iff, range.activables_mem]

private theorem erase_mem_endormis {k : Noyau} (range : Rangement k) (pr : Indice) {j : Indice} :
    j ∈ k.endormis.erase pr ↔ j ≠ pr ∧ (k.table j).etat = .bloqueSurSemaphore := by
  rw [range.endormis_nodup.mem_erase_iff, range.endormis_mem]

theorem quitterActivables_ok {k : Noyau} (range : Rangement k) (pr : Indice) {e : EtatProcessus}
    (nonActif : e ≠ .actif) :
    quitterActivables k pr e = .ok { k with activables := k.activables.erase pr } := by
  unfold quitterActivables
  by_cases activable : (k.table pr).etat = .activable
  · have mem := (range.activables_mem pr).mpr activable
    rw [if_pos ⟨activable, nonActif⟩, queueDel, if_pos mem]
    rfl
  · have absent : pr ∉ k.activables := fun mem => activable ((range.activables_mem pr).mp mem)
    rw [if_neg fun both => activable both.1, List.erase_of_not_mem absent]

theorem quitterEndormis_ok {k : Noyau} (range : Rangement k) (pr : Indice) (l : List Indice) :
    quitterEndormis { k with activables := l } pr =
      .ok { k with activables := l, endormis := k.endormis.erase pr } := by
  unfold quitterEndormis
  by_cases endormi : (k.table pr).etat = .bloqueSurSemaphore
  · have mem := (range.endormis_mem pr).mpr endormi
    rw [if_pos endormi, queueDel, if_pos mem]
    rfl
  · have absent : pr ∉ k.endormis := fun mem => endormi ((range.endormis_mem pr).mp mem)
    rw [if_neg endormi, List.erase_of_not_mem absent]

theorem definirEtat_mort_confirme {k : Noyau} (range : Rangement k) {pr : Indice}
    {e : EtatProcessus} (mort : (k.table pr).etat = .mort) :
    definirEtat k pr e = .error (.confirme k) := by
  have libre := (range.pid_mort pr).mpr mort
  rw [definirEtat, limite, definirEtatProcessus, if_pos libre]

theorem definirEtat_meme {k : Noyau} (range : Rangement k) {pr : Indice} {e : EtatProcessus}
    (vivant : (k.table pr).etat ≠ .mort) (meme : (k.table pr).etat = e) :
    definirEtat k pr e = .ok k := by
  have occupe : (k.table pr).pid ≠ none := fun libre => vivant ((range.pid_mort pr).mp libre)
  rw [definirEtat, limite, definirEtatProcessus, if_neg occupe, if_pos meme]

theorem definirEtat_cas {k : Noyau} (range : Rangement k) {pr : Indice} {e : EtatProcessus}
    (nonActif : e ≠ .actif) (vivant : (k.table pr).etat ≠ .mort) (autre : (k.table pr).etat ≠ e) :
    definirEtat k pr e =
      casEtat 999
        { k with activables := k.activables.erase pr, endormis := k.endormis.erase pr } pr e >>=
      fun k => .ok (k.modifie pr fun p => { p with etat := e }) := by
  have occupe : (k.table pr).pid ≠ none := fun libre => vivant ((range.pid_mort pr).mp libre)
  rw [definirEtat, limite, definirEtatProcessus, if_neg occupe, if_neg autre,
    quitterActivables_ok range pr nonActif]
  simp only [bind, Except.bind, quitterEndormis_ok range pr]

theorem definirEtat_change {k : Noyau} (range : Rangement k) {pr : Indice} {e : EtatProcessus}
    (simple : Simple e) (vivant : (k.table pr).etat ≠ .mort) (autre : (k.table pr).etat ≠ e) :
    definirEtat k pr e = .ok (changeEtat k pr e) := by
  have absentA : pr ∉ k.activables.erase pr := range.activables_nodup.not_mem_erase
  have absentE : pr ∉ k.endormis.erase pr := range.endormis_nodup.not_mem_erase
  obtain ⟨nonActif, nonMort, nonZombie⟩ := simple
  rw [definirEtat_cas range nonActif vivant autre]
  cases e with
  | activable =>
      simp [casEtat, entrerActivables, queueAdd, absentA, bind, Except.bind, changeEtat]
      rfl
  | bloqueSurSemaphore =>
      simp [casEtat, entrerEndormis, queueAdd, absentE, bind, Except.bind, changeEtat]
      rfl
  | actif | mort | zombie => contradiction
  | _ => simp [casEtat, bind, Except.bind, changeEtat]

theorem changeEtat_rangement {k : Noyau} (range : Rangement k) {pr : Indice} {e : EtatProcessus}
    (simple : Simple e) (vivant : (k.table pr).etat ≠ .mort) : Rangement (changeEtat k pr e) := by
  obtain ⟨nonActif, nonMort, nonZombie⟩ := simple
  have prio : ∀ i, (changeEtat k pr e).prioDe i = k.prioDe i := by
    intro i
    rw [Noyau.prioDe, changeEtat_champs]
    rfl
  have pid : ∀ i, ((changeEtat k pr e).table i).pid = (k.table i).pid := by
    intro i
    rw [changeEtat_champs]
  refine ⟨?_, ?_, ?_, ?_, ?_, ?_, ?_⟩
  · intro i
    rw [pid]
    exact range.pid_indice i
  · intro i
    rw [pid, changeEtat_etat, range.pid_mort]
    split
    · next meme => simp [meme, vivant, nonMort]
    · rfl
  · intro i
    rw [changeEtat_etat, changeEtat]
    simp only [Noyau.modifie]
    split_ifs <;> simp_all [erase_mem_activables range]
  · simp only [changeEtat, Noyau.modifie]
    split_ifs
    · exact place_nodup _ range.activables_nodup.not_mem_erase (range.activables_nodup.erase _)
    · exact range.activables_nodup.erase _
  · have reste := range.activables_tries.sublist _ (l := k.activables.erase pr) List.erase_sublist
    refine Ascending.congr k.prioDe (fun i _ => (prio i).symm) ?_
    simp only [changeEtat, Noyau.modifie]
    split_ifs
    · exact place_ascending _ _ reste
    · exact reste
  · intro i
    rw [changeEtat_etat, changeEtat]
    simp only [Noyau.modifie]
    split_ifs <;> simp_all [erase_mem_endormis range]
  · simp only [changeEtat, Noyau.modifie]
    split_ifs
    · exact place_nodup _ range.endormis_nodup.not_mem_erase (range.endormis_nodup.erase _)
    · exact range.endormis_nodup.erase _

theorem changeEtat_coherent {k : Noyau} (coherent : Coherent k) {pr : Indice} {e : EtatProcessus}
    (simple : Simple e) (vivant : (k.table pr).etat ≠ .mort) : Coherent (changeEtat k pr e) where
  toRangement := changeEtat_rangement coherent.toRangement simple vivant
  actif_seul i actif := by
    rw [changeEtat_etat] at actif
    split at actif
    · exact absurd actif simple.1
    · exact coherent.actif_seul i actif

theorem changeEtat_famille {k : Noyau} (famille : Famille k) {pr : Indice} {e : EtatProcessus}
    (simple : Simple e) (vivant : (k.table pr).etat ≠ .mort) : Famille (changeEtat k pr e) := by
  refine famille.congr ?_ (fun j => by rw [changeEtat_champs]) (fun j => by rw [changeEtat_champs])
  intro j
  rw [changeEtat_etat]
  split
  · next meme => simp [meme, vivant, simple.2.1]
  · rfl

theorem changeEtat_valide {k : Noyau} (valide : Valide k) {pr : Indice} {e : EtatProcessus}
    (simple : Simple e) (vivant : (k.table pr).etat ≠ .mort) : Valide (changeEtat k pr e) :=
  ⟨changeEtat_coherent valide.coherent simple vivant,
    changeEtat_famille valide.famille simple vivant⟩

end ProjetSysteme.Invariant
