/- Properties/Scheduler
   source: kernel/process.c, kernel/horloge.c
   digest: The process table, the ready queue and the sleep queue agree in every run. -/

import ProjetSysteme.Invariant.ProcessRuns

set_option autoImplicit false
set_option relaxedAutoImplicit false

namespace ProjetSysteme.Properties

open Kernel Invariant Library.PriorityList

/-- The tables of the scheduler agree. -/
structure EtatOrdonnanceur (k : Noyau) : Prop where
  pid_indice : ∀ i, (k.table i).pid = some i ∨ (k.table i).pid = none
  pid_mort : ∀ i, (k.table i).pid = none ↔ (k.table i).etat = .mort
  actif : (∃ pere i, Fait.demarrage pere i ∈ k.journal) →
    ∃ a, k.pidActif = some a ∧ ∀ i, (k.table i).etat = .actif ↔ i = a
  activables_mem : ∀ i, i ∈ k.activables ↔ (k.table i).etat = .activable
  activables_nodup : k.activables.Nodup
  activables_tries : Ascending k.prioDe k.activables
  endormis_mem : ∀ i, i ∈ k.endormis ↔ (k.table i).etat = .bloqueSurSemaphore
  endormis_nodup : k.endormis.Nodup

theorem pidActif_none {e : Evenement} {k k' : Noyau} (sain : Sain k) (propre : KillPropre k e)
    (etape : Etape e k k') (stable : Stable k') (aucun : k'.pidActif = none) :
    k.pidActif = none ∧ vitaux k' = vitaux k := by
  obtain ⟨k₁, effet, fin⟩ := etape
  have sain₀ := sain.enregistrer e
  have mort' : ∀ i, (k'.table i).etat = .mort := by
    rcases stable with depart | ⟨a, cours⟩
    · exact depart.mort
    · rw [cours.pidActif] at aucun
      cases aucun
  -- before ordonnancer, which elects a process or changes nothing
  have avant : k₁.pidActif = none ∧ (∀ i, (k₁.table i).etat = .mort) ∧ vitaux k' = vitaux k₁ := by
    rcases fin with rfl | ord
    · exact ⟨aucun, mort', rfl⟩
    · refine ⟨?_, fun i => (ord.etat_iff (by simp) (by simp) i).mp (mort' i),
        vitaux_congr (by rw [ord.noyau])⟩
      by_cases vide : k₁.activables = []
      · rw [← ord.vide vide, aucun]
      · obtain ⟨a, elu, _⟩ := ord.elu vide
        rw [elu] at aucun
        cases aucun
  obtain ⟨aucun₁, mort₁, faits⟩ := avant
  have aucun₀ : (enregistrer k e).pidActif = none := by
    rw [← (effet.bilan sain₀ propre.enregistrer).pidActif, aucun₁]
  have mort₀ : ∀ i, ((enregistrer k e).table i).etat = .mort := by
    rcases sain₀.stable with depart | ⟨a, cours⟩
    · exact depart.mort
    · rw [cours.pidActif] at aucun₀
      cases aucun₀
  refine ⟨by rw [← enregistrer_pidActif k e, aucun₀], ?_⟩
  rw [faits, ← vitaux_enregistrer k e]
  cases effet.filiation sain₀ with
  | stable vif faits => exact faits
  | naissance mort vivant => exact absurd (mort₁ _) vivant.1
  | fin mourant vif vivant => exact absurd (mort₀ _) vivant
  | recolte vif pere zombie =>
      rw [mort₀] at zombie
      cases zombie

/-- In every run of the process primitives the tables of the scheduler agree, and no
link assertion of `queue_add` and `queue_del` fails. -/
theorem etat_ordonnanceur (env : Env) {k : Noyau}
    (atteint : Atteint env (fun _ e => deProcessus e = true) k) :
    EtatOrdonnanceur k ∧ ∀ e, permis k e = true → deProcessus e = true →
      pas env k e ≠ .error (.faute .assertionMaillon) := by
  obtain ⟨sain, _, sansActif⟩ := Atteint.processus env
    (P := fun k => k.pidActif = none → vitaux k = []) (fun _ _ => id)
    (fun k₀ boot _ => by
      obtain ⟨memoire, _, valeur⟩ := Library.Outcome.bind_ok boot
      cases valeur
      rfl)
    (fun k e k' sain sans avant _ _ etape sain' aucun => by
      obtain ⟨aucun₀, faits⟩ := pidActif_none sain (sans.killPropre e) etape sain'.stable aucun
      rw [faits, avant aucun₀])
    atteint
  have coherent := sain.valide.coherent
  constructor
  · refine ⟨coherent.pid_indice, coherent.pid_mort, ?_, coherent.activables_mem,
      coherent.activables_nodup, coherent.activables_tries, coherent.endormis_mem,
      coherent.endormis_nodup⟩
    rintro ⟨pere, i, mem⟩
    cases actif : k.pidActif with
    | none =>
        have vital : Fait.demarrage pere i ∈ vitaux k := List.mem_filter.mpr ⟨mem, rfl⟩
        rw [sansActif actif] at vital
        cases vital
    | some a =>
        refine ⟨a, rfl, fun j => ⟨fun etat => ?_, fun meme => ?_⟩⟩
        · exact (Option.some.inj (actif.symm.trans (coherent.actif_seul j etat))).symm
        · exact meme ▸ sain.actif a actif
  · intro e autorise processus erreur
    obtain ⟨length, appel⟩ := (pas_sat env sain.stable autorise).of_error erreur rfl
    rw [appel] at processus
    cases processus

theorem etat_ordonnanceur_exemple : ∃ k, Atteint Env.exemple (fun _ e => deProcessus e = true) k ∧
    k.pidActif = some 2 ∧ k.activables = [0] ∧ k.endormis = [1] ∧ EtatOrdonnanceur k ∧
    pas Env.exemple k .tic ≠ .error (.faute .assertionMaillon) := by
  obtain ⟨k, atteint, test⟩ := Atteint.of_verifier Env.exemple (C := fun _ e => deProcessus e)
    (l := [demarrer 0, .reprise, demarrer 3, .reprise, demarrer 2, .reprise,
      .appel (.waitClock 5), .reprise, .appel (.chprio 1 7), .reprise])
    (T := fun k => decide (k.pidActif = some 2 ∧ k.activables = [0] ∧ k.endormis = [1] ∧
      permis k .tic = true))
    (by decide +kernel)
  obtain ⟨actif, activables, endormis, autorise⟩ := of_decide_eq_true test
  obtain ⟨etat, liens⟩ := etat_ordonnanceur Env.exemple atteint
  exact ⟨k, atteint, actif, activables, endormis, etat, liens .tic autorise rfl⟩

end ProjetSysteme.Properties
