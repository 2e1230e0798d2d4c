/- Invariant/Installation
   source: kernel/process.c
   digest: What start does to the process table. -/

import ProjetSysteme.Invariant.Stability

set_option autoImplicit false
set_option relaxedAutoImplicit false

namespace ProjetSysteme.Invariant

open Kernel Library.PriorityList

theorem installerProcessus_table_self (k : Noyau) {pid : Indice} (prio : Int)
    (args code pageDirectory : Mot) (memoire : Memoire) (autre : k.pidActif ≠ some pid) :
    (installerProcessus k pid prio args code pageDirectory memoire).table pid =
      nouveauProcessus pid prio k.pidActif args code pageDirectory := by
  unfold installerProcessus
  cases actif : k.pidActif with
  | none => simp [Noyau.modifie]
  | some a =>
      have ne : pid ≠ a := by
        rintro rfl
        exact autre actif
      simp [Noyau.modifie, ne]

theorem installerProcessus_table_ne (k : Noyau) {pid j : Indice} (prio : Int)
    (args code pageDirectory : Mot) (memoire : Memoire) (autre : j ≠ pid) :
    (installerProcessus k pid prio args code pageDirectory memoire).table j =
      { k.table j with
        fils := ((installerProcessus k pid prio args code pageDirectory memoire).table j).fils } := by
  unfold installerProcessus
  cases actif : k.pidActif with
  | none => simp [Noyau.modifie, autre]
  | some a =>
      by_cases estA : j = a
      · subst estA
        simp [Noyau.modifie, autre]
      · simp [Noyau.modifie, autre, estA]

theorem installerProcessus_fils (k : Noyau) {pid : Indice} (prio : Int)
    (args code pageDirectory : Mot) (memoire : Memoire) (p j : Indice) (autre : p ≠ pid) :
    j ∈ ((installerProcessus k pid prio args code pageDirectory memoire).table p).fils ↔
      (k.pidActif = some p ∧ j = pid) ∨ j ∈ (k.table p).fils := by
  unfold installerProcessus
  cases actif : k.pidActif with
  | none => simp [Noyau.modifie, autre]
  | some a =>
      by_cases estA : p = a
      · subst estA
        simp [Noyau.modifie, autre]
      · simp [Noyau.modifie, autre, estA, Ne.symm estA]

theorem installerProcessus_fils_nodup (k : Noyau) {pid : Indice} (prio : Int)
    (args code pageDirectory : Mot) (memoire : Memoire) {p : Indice} (autre : p ≠ pid)
    (absent : pid ∉ (k.table p).fils) (nodup : (k.table p).fils.Nodup) :
    ((installerProcessus k pid prio args code pageDirectory memoire).table p).fils.Nodup := by
  unfold installerProcessus
  cases actif : k.pidActif with
  | none => simpa [Noyau.modifie, autre] using nodup
  | some a =>
      by_cases estA : p = a
      · subst estA
        simpa [Noyau.modifie, autre] using place_nodup _ absent nodup
      · simpa [Noyau.modifie, autre, estA] using nodup

theorem installerProcessus_noyau (k : Noyau) (pid : Indice) (prio : Int)
    (args code pageDirectory : Mot) (memoire : Memoire) :
    installerProcessus k pid prio args code pageDirectory memoire = { k with
      table := (installerProcessus k pid prio args code pageDirectory memoire).table
      memoire := memoire
      console := { k.console with attente := Maillons.initLink k.console.attente (.processus pid) } } := by
  unfold installerProcessus
  cases actif : k.pidActif <;> simp [Noyau.modifie]

theorem installerProcessus_pidActif (k : Noyau) (pid : Indice) (prio : Int)
    (args code pageDirectory : Mot) (memoire : Memoire) :
    (installerProcessus k pid prio args code pageDirectory memoire).pidActif = k.pidActif := by
  rw [installerProcessus_noyau]

/-- What `start` does to the table: the slot `pid` is filled, and its father gets a child. -/
structure Installe (k : Noyau) (pid : Indice) (k' : Noyau) : Prop where
  activables : k'.activables = k.activables
  endormis : k'.endormis = k.endormis
  pidActif : k'.pidActif = k.pidActif
  soi : ∃ prio args code pageDirectory,
    k'.table pid = nouveauProcessus pid prio k.pidActif args code pageDirectory
  autres : ∀ j, j ≠ pid → k'.table j = { k.table j with fils := (k'.table j).fils }
  fils : ∀ p, p ≠ pid → ∀ j, j ∈ (k'.table p).fils ↔
    (k.pidActif = some p ∧ j = pid) ∨ j ∈ (k.table p).fils
  fils_nodup : ∀ p, p ≠ pid → pid ∉ (k.table p).fils → (k.table p).fils.Nodup →
    (k'.table p).fils.Nodup

theorem installerProcessus_installe {k : Noyau} {pid : Indice} (prio : Int)
    (args code pageDirectory : Mot) (memoire : Memoire) (autre : k.pidActif ≠ some pid) :
    Installe k pid (installerProcessus k pid prio args code pageDirectory memoire) where
  activables := by rw [installerProcessus_noyau]
  endormis := by rw [installerProcessus_noyau]
  pidActif := installerProcessus_pidActif k pid prio args code pageDirectory memoire
  soi := ⟨prio, args, code, pageDirectory,
    installerProcessus_table_self k prio args code pageDirectory memoire autre⟩
  autres _ := installerProcessus_table_ne k prio args code pageDirectory memoire
  fils p autre j := installerProcessus_fils k prio args code pageDirectory memoire p j autre
  fils_nodup _ := installerProcessus_fils_nodup k prio args code pageDirectory memoire

namespace Installe

variable {k k' : Noyau} {pid : Indice}

theorem etat_soi (installe : Installe k pid k') : (k'.table pid).etat = .endormi := by
  obtain ⟨prio, args, code, pageDirectory, soi⟩ := installe.soi
  rw [soi]
  rfl

theorem pid_soi (installe : Installe k pid k') : (k'.table pid).pid = some pid := by
  obtain ⟨prio, args, code, pageDirectory, soi⟩ := installe.soi
  rw [soi]
  rfl

theorem pere_soi (installe : Installe k pid k') : (k'.table pid).pere = k.pidActif := by
  obtain ⟨prio, args, code, pageDirectory, soi⟩ := installe.soi
  rw [soi]
  rfl

theorem fils_soi (installe : Installe k pid k') : (k'.table pid).fils = [] := by
  obtain ⟨prio, args, code, pageDirectory, soi⟩ := installe.soi
  rw [soi]
  rfl

theorem pere_ne (installe : Installe k pid k') {j : Indice} (autre : j ≠ pid) :
    (k'.table j).pere = (k.table j).pere := by
  rw [installe.autres j autre]

theorem vivant_iff (installe : Installe k pid k') (j : Indice) :
    (k'.table j).etat ≠ .mort ↔ j = pid ∨ (k.table j).etat ≠ .mort := by
  by_cases meme : j = pid
  · simp [meme, installe.etat_soi]
  · rw [installe.autres j meme]
    simp [meme]

theorem etat_iff (installe : Installe k pid k') (libre : (k.table pid).etat = .mort)
    {s : EtatProcessus} (nonMort : s ≠ .mort) (nonEndormi : s ≠ .endormi) (j : Indice) :
    (k'.table j).etat = s ↔ (k.table j).etat = s := by
  by_cases meme : j = pid
  · rw [meme, installe.etat_soi, libre]
    exact ⟨fun egal => absurd egal.symm nonEndormi, fun egal => absurd egal.symm nonMort⟩
  · rw [installe.autres j meme]

theorem coherent (installe : Installe k pid k') (coherent : Coherent k)
    (libre : (k.table pid).etat = .mort) : Coherent k' where
  pid_indice i := by
    by_cases meme : i = pid
    · rw [meme]
      exact .inl installe.pid_soi
    · rw [installe.autres i meme]
      exact coherent.pid_indice i
  pid_mort i := by
    by_cases meme : i = pid
    · rw [meme, installe.pid_soi, installe.etat_soi]
      simp
    · rw [installe.autres i meme]
      exact coherent.pid_mort i
  activables_mem i := by
    rw [installe.activables, installe.etat_iff libre (by simp) (by simp), coherent.activables_mem]
  activables_nodup := by
    rw [installe.activables]
    exact coherent.activables_nodup
  activables_tries := by
    rw [installe.activables]
    refine coherent.activables_tries.congr _ fun j mem => ?_
    have autre : j ≠ pid := by
      rintro rfl
      rw [coherent.activables_mem, libre] at mem
      cases mem
    rw [Noyau.prioDe, Noyau.prioDe, installe.autres j autre]
  endormis_mem i := by
    rw [installe.endormis, installe.etat_iff libre (by simp) (by simp), coherent.endormis_mem]
  endormis_nodup := by
    rw [installe.endormis]
    exact coherent.endormis_nodup
  actif_seul i actif := by
    rw [installe.etat_iff libre (by simp) (by simp)] at actif
    rw [installe.pidActif]
    exact coherent.actif_seul i actif

theorem famille (installe : Installe k pid k') (famille : Famille k)
    (libre : (k.table pid).etat = .mort)
    (vivant : ∀ a, k.pidActif = some a → (k.table a).etat ≠ .mort) : Famille k' where
  enfants p vivantP := by
    by_cases meme : p = pid
    · subst meme
      refine ⟨fun j => ?_, by rw [installe.fils_soi]; exact List.nodup_nil⟩
      rw [installe.fils_soi]
      refine iff_of_false List.not_mem_nil ?_
      rintro ⟨pere, vivantJ⟩
      by_cases estP : j = p
      · rw [estP, installe.pere_soi] at pere
        exact vivant p pere libre
      · rw [installe.pere_ne estP] at pere
        rw [installe.vivant_iff] at vivantJ
        exact famille.pere_vivant j p (vivantJ.resolve_left estP) pere libre
    · have enfants := famille.enfants p (((installe.vivant_iff p).mp vivantP).resolve_left meme)
      have absent : pid ∉ (k.table p).fils := fun mem => ((enfants.mem pid).mp mem).2 libre
      refine ⟨fun j => ?_, installe.fils_nodup p meme absent enfants.nodup⟩
      rw [installe.fils p meme, installe.vivant_iff]
      by_cases estPid : j = pid
      · subst estPid
        simp [absent, installe.pere_soi]
      · simp [estPid, installe.pere_ne estPid, enfants.mem]
  pere_vivant j p vivantJ pere := by
    rw [installe.vivant_iff] at vivantJ ⊢
    by_cases meme : j = pid
    · rw [meme, installe.pere_soi] at pere
      exact .inr (vivant p pere)
    · rw [installe.pere_ne meme] at pere
      exact .inr (famille.pere_vivant j p (vivantJ.resolve_left meme) pere)
  rang := by
    obtain ⟨r, croissant⟩ := famille.rang
    refine ⟨fun j => if j = pid then k.pidActif.elim 0 (fun a => r a + 1) else r j,
      fun j p vivantJ pere => ?_⟩
    by_cases meme : j = pid
    · rw [meme, installe.pere_soi] at pere
      have autre : p ≠ pid := fun estPid => vivant p pere (estPid ▸ libre)
      simp only [if_pos meme, if_neg autre]
      rw [pere]
      exact Nat.lt_succ_self _
    · rw [installe.pere_ne meme] at pere
      rw [installe.vivant_iff] at vivantJ
      have vivantJ₀ := vivantJ.resolve_left meme
      have autre : p ≠ pid := by
        rintro rfl
        exact famille.pere_vivant j p vivantJ₀ pere libre
      simp only [if_neg meme, if_neg autre]
      exact croissant j p vivantJ₀ pere

end Installe

theorem installerProcessus_valide {k : Noyau} (valide : Valide k) {pid : Indice}
    (libre : (k.table pid).etat = .mort) (prio : Int) (args code pageDirectory : Mot)
    (memoire : Memoire) (vivant : ∀ a, k.pidActif = some a → (k.table a).etat ≠ .mort) :
    Valide (installerProcessus k pid prio args code pageDirectory memoire) := by
  have installe := installerProcessus_installe prio args code pageDirectory memoire
    fun actif => vivant pid actif libre
  exact ⟨installe.coherent valide.coherent libre, installe.famille valide.famille libre vivant⟩

end ProjetSysteme.Invariant
