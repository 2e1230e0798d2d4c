/- Properties/Reset
   source: kernel/file.c, kernel/process.c
   digest: The flag by which preset and pdelete fail the calls in progress, and the failures of psend. -/

import ProjetSysteme.Invariant.ChannelRuns
import ProjetSysteme.Invariant.Outcomes

set_option autoImplicit false
set_option relaxedAutoImplicit false

namespace ProjetSysteme.Properties

open Kernel Invariant Library

/-- A psend that resumes with its flag raised finds a place. -/
def RepriseVidee (k : Noyau) : Evenement → Prop
  | .reprise => ∀ a, k.pidActif = some a → (k.table a).valresetfile ≠ 0 →
    match (k.table a).suite with
    | .psendAttente fid _ => (k.files fid).nbelem ≠ (k.files fid).size
    | _ => True
  | _ => True

theorem heedful_of_videe {k : Noyau} {e : Evenement} {act : Channel.Action Indice IndiceFile Int}
    (sans : sansKill e = true) (videe : RepriseVidee k e)
    (etiquette : Etiquette (enregistrer k e) e act) :
    Channel.Heedful (canaux (enregistrer k e)) act := by
  cases act with
  | giveUp a fid =>
      obtain ⟨actif, rfl, ⟨message, suite⟩, plein⟩ := etiquette
      change k.pidActif = some a at actif
      change (k.table a).suite = _ at suite
      change decide ((k.table a).valresetfile ≠ 0) = false
      refine decide_eq_false fun leve => ?_
      have place := videe a actif leve
      rw [suite] at place
      exact place plein
  | leave a =>
      obtain ⟨pid, rfl, _⟩ := etiquette
      cases sans
  | _ => trivial

theorem courant_of_woken {k : Noyau} {i : Indice} (sain : Sain k)
    (woken : ((canaux k).phase i).Woken) : ∃ fid, EnAppel k fid i ∧ Courant (k.table i).etat := by
  have posture := sain.posture i
  unfold Posture at posture
  change (phaseDe (k.table i)).Woken at woken
  cases phase : phaseDe (k.table i) with
  | wokenReceive fid =>
      obtain ⟨suite, nonMort, nonZombie, nonBloque⟩ := phaseDe_wokenReceive.mp phase
      refine ⟨fid, .inl suite, ?_⟩
      split at posture <;> simp_all [Courant, Demande]
  | wokenSend fid message =>
      obtain ⟨suite, nonMort, nonZombie, nonBloque⟩ := phaseDe_wokenSend.mp phase
      refine ⟨fid, .inr ⟨message, suite⟩, ?_⟩
      split at posture <;> simp_all [Courant, Demande]
  | _ =>
      rw [phase] at woken
      exact woken.elim

def Bloque (k : Noyau) (fid : IndiceFile) (i : Indice) : Prop :=
  ∃ n ∈ (k.files fid).listeProcBloqueReception ++ (k.files fid).listeProcBloqueEnvoi, n.pid = i

/-- What a reset does to the calls in progress: a raised flag belongs to a woken call, stays
until this call resumes, and is lowered by its failure. -/
structure UnSeulEchec (env : Env) (k : Noyau) : Prop where
  leve : ∀ i, (k.table i).valresetfile ≠ 0 →
    ∃ fid, EnAppel k fid i ∧ Courant (k.table i).etat
  leves : ∀ e n k' fid i, e = .appel (.preset n) ∨ e = .appel (.pdelete n) →
    fileOuverte? k n = some fid → permis k e = true → pas env k e = .ok k' → Bloque k fid i →
      EnAppel k' fid i ∧ (k'.table i).valresetfile = 1 ∧ (k'.table i).etat = .activable
  garde : ∀ e k' i, permis k e = true → sansKill e = true → pas env k e = .ok k' →
    (k.table i).valresetfile ≠ 0 → ¬ (e = .reprise ∧ k.pidActif = some i) →
      (k'.table i).valresetfile ≠ 0 ∧ (k'.table i).suite = (k.table i).suite
  echec : ∀ a k', k.pidActif = some a → RepriseVidee k .reprise →
    pas env k .reprise = .ok k' → (k.table a).valresetfile ≠ 0 →
      (k'.table a).suite = .retour (-1) ∧ (k'.table a).valresetfile = 0

theorem Bloque.appel {k : Noyau} {fid : IndiceFile} {i : Indice} (bloque : Bloque k fid i)
    (files : FilesSaines k) : EnAppel k fid i ∧ (k.table i).etat ≠ .actif := by
  obtain ⟨n, mem, rfl⟩ := bloque
  rcases List.mem_append.mp mem with mem | mem
  · obtain ⟨etat, suite⟩ := files.recepteurs fid n mem
    exact ⟨.inl suite, by simp [etat]⟩
  · obtain ⟨etat, suite⟩ := files.emetteurs fid n mem
    exact ⟨.inr suite, by simp [etat]⟩

theorem pas_reset (env : Env) {k k' : Noyau} {e : Evenement} {n : Int} {fid : IndiceFile}
    {a : Indice} (sain : Sain k) (actif : k.pidActif = some a)
    (appel : e = .appel (.preset n) ∨ e = .appel (.pdelete n)) (ouverte : fileOuverte? k n = some fid)
    (resultat : pas env k e = .ok k') :
    ∃ k₁, Vide fid (enregistrer k e) k₁ ∧ k'.table = (k₁.renvoie a 0).table := by
  have ouverte' : ∀ x, fileOuverte? (k.noter (.appel a x)) n = some fid := fun _ => ouverte
  rcases appel with rfl | rfl
  · obtain ⟨k₁, run, vide⟩ := preset_ouverte env (sain.noter_appel a (.preset n)) actif (ouverte' _)
    simp only [pas, executer, actif, appeler, run] at resultat
    cases resultat
    rw [enregistrer_appel actif]
    exact ⟨k₁, vide, rfl⟩
  · obtain ⟨k₁, vide, run⟩ := pdelete_ouverte env (sain.noter_appel a (.pdelete n)) actif (ouverte' _)
    simp only [pas, executer, actif, appeler, run] at resultat
    cases resultat
    rw [enregistrer_appel actif]
    exact ⟨k₁, vide, rfl⟩

theorem reset_libere (env : Env) {k k' : Noyau} {e : Evenement} {n : Int} {fid : IndiceFile}
    (sain : Sain k) (appel : e = .appel (.preset n) ∨ e = .appel (.pdelete n))
    (ouverte : fileOuverte? k n = some fid) (autorise : permis k e = true)
    (resultat : pas env k e = .ok k') {i : Indice} (bloque : Bloque k fid i) :
    EnAppel k' fid i ∧ (k'.table i).valresetfile = 1 ∧ (k'.table i).etat = .activable := by
  cases actif : k.pidActif with
  | none => rcases appel with rfl | rfl <;> simp [permis, actif, Appel.estStart] at autorise
  | some a =>
      obtain ⟨k₁, vide, table⟩ := pas_reset env sain actif appel ouverte resultat
      obtain ⟨enAppel, nonActif⟩ := bloque.appel sain.files
      have autre : i ≠ a := by
        rintro rfl
        exact nonActif (sain.actif i actif)
      have libere : k'.table i = { k.table i with etat := .activable, valresetfile := 1 } := by
        rw [table, Noyau.renvoie, Noyau.suspend_table_ne _ _ autre, vide.reveille i, enregistrer_table]
        rw [enregistrer_files]
        exact bloque
      unfold EnAppel
      rw [libere]
      exact ⟨enAppel, rfl, rfl⟩

theorem leve_garde (env : Env) {k k' : Noyau} {e : Evenement} {i : Indice} (sain : Sain k)
    (woken : ((canaux k).phase i).Woken) (autorise : permis k e = true) (sans : sansKill e = true)
    (resultat : pas env k e = .ok k') (raised : (k.table i).valresetfile ≠ 0)
    (autre : ¬ (e = .reprise ∧ k.pidActif = some i)) :
    (k'.table i).valresetfile ≠ 0 ∧ (k'.table i).suite = (k.table i).suite := by
  have propre : KillPropre k e := killPropre_of_sansKill sans
  obtain ⟨_, act, pas, etiquette⟩ :=
    (sain.pas env autorise propre resultat).1.simule sain autorise propre
  have table : (canaux (enregistrer k e)).phase = (canaux k).phase ∧
      (canaux (enregistrer k e)).flag = (canaux k).flag := by
    simp only [canaux, enregistrer_table, and_self]
  -- the step of `i` itself can only be a resumption
  have soi : (enregistrer k e).pidActif = some i → e ≠ .reprise → False := by
    intro actif nonReprise
    rw [enregistrer_pidActif] at actif
    obtain ⟨fid, appel, _⟩ := courant_of_woken sain woken
    have execution : (k.table i).suite = .execution := by
      cases e <;> simp_all [permis]
    rcases appel with suite | ⟨message, suite⟩ <;> simp [suite] at execution
  have keeps := pas.keeps (p := i) (sain.enregistrer e).files.regles (by rwa [table.1])
    (by rw [table.2]; simpa [canaux, drapeauDe] using raised) ?_ ?_ ?_
  · obtain ⟨phase, flag⟩ := keeps
    refine ⟨by simpa [canaux, drapeauDe] using flag, ?_⟩
    rw [table.1] at phase
    change phaseDe (k'.table i) = phaseDe (k.table i) at phase
    change (phaseDe (k.table i)).Woken at woken
    cases avant : phaseDe (k.table i) with
    | wokenReceive fid =>
        rw [avant] at phase
        rw [(phaseDe_wokenReceive.mp avant).1, (phaseDe_wokenReceive.mp phase).1]
    | wokenSend fid message =>
        rw [avant] at phase
        rw [(phaseDe_wokenSend.mp avant).1, (phaseDe_wokenSend.mp phase).1]
    | _ =>
        rw [avant] at woken
        exact woken.elim
  · rintro rfl
    refine soi etiquette.1 fun reprise => autre ⟨reprise, ?_⟩
    rw [← enregistrer_pidActif k e]
    exact etiquette.1
  · rintro fid rfl
    refine autre ⟨etiquette.2.1, ?_⟩
    rw [← enregistrer_pidActif k e]
    exact etiquette.1
  · rintro rfl
    obtain ⟨pid, rfl, _⟩ := etiquette
    cases sans

theorem leve_echec (env : Env) {k k' : Noyau} {a : Indice} (sain : Sain k)
    (woken : ((canaux k).phase a).Woken) (actif : k.pidActif = some a)
    (videe : RepriseVidee k .reprise) (resultat : pas env k .reprise = .ok k')
    (raised : (k.table a).valresetfile ≠ 0) :
    (k'.table a).suite = .retour (-1) ∧ (k'.table a).valresetfile = 0 := by
  suffices execute : executer env k .reprise = .ok (finAppelFile k a (-1)) by
    rw [pas_of_ok env execute resultat]
    exact ⟨finAppelFile_suite .., by simp [finAppelFile, Noyau.renvoie]⟩
  obtain ⟨fid, suite | ⟨message, suite⟩, _⟩ := courant_of_woken sain woken
  · exact (executer_preceiveReprise env actif suite).trans (preceive_averti raised)
  · have place := videe a actif raised
    simp only [suite] at place
    rw [executer_psendReprise env actif suite, psendReprise, if_neg place]
    exact psend_leve raised

/-- In every run without kill in which no psend resumes on a full queue with its flag raised,
a reset fails one call of each process that it releases, and no more. -/
theorem un_seul_echec (env : Env) {k : Noyau}
    (atteint : Atteint env (fun k e => sansKill e = true ∧ RepriseVidee k e) k) :
    UnSeulEchec env k := by
  obtain ⟨sain, flagged⟩ := Atteint.canaux env (P := Channel.Flagged)
    (fun _ _ condition => killPropre_of_sansKill condition.1) (fun _ => by intro leve; cases leve)
    (fun s a s' wf flagged pas => pas.flagged wf trivial flagged)
    (fun k e act s' sain _ condition flagged pas etiquette =>
      pas.flagged (sain.enregistrer e).files.regles
        (heedful_of_videe condition.1 condition.2 etiquette) flagged) atteint
  have leve : ∀ i, (k.table i).valresetfile ≠ 0 → ((canaux k).phase i).Woken := fun i leve =>
    flagged i (by simpa [canaux, drapeauDe] using leve)
  refine ⟨fun i raised => courant_of_woken sain (leve i raised), ?_, ?_, ?_⟩
  · exact fun e n k' fid i appel ouverte autorise resultat => reset_libere env sain appel ouverte
      autorise resultat
  · exact fun e k' i autorise sans resultat raised => leve_garde env sain (leve i raised) autorise
      sans resultat raised
  · exact fun a k' actif videe resultat raised => leve_echec env sain (leve a raised) actif videe
      resultat raised

instance (k : Noyau) (e : Evenement) : Decidable (RepriseVidee k e) := by
  induction e using Evenement.casesOn with
  | reprise =>
      have (a : Indice) : Decidable (match (k.table a).suite with
          | .psendAttente fid _ => (k.files fid).nbelem ≠ (k.files fid).size
          | _ => True) := by
        induction (k.table a).suite using Suite.casesOn <;> infer_instance
      unfold RepriseVidee
      infer_instance
  | _ => exact isTrue trivial

theorem un_seul_echec_exemple : ∃ k k',
    Atteint Env.exemple (fun k e => sansKill e = true ∧ RepriseVidee k e) k ∧
    (k.table 2).valresetfile ≠ 0 ∧ pas Env.exemple k .reprise = .ok k' ∧
    (k'.table 2).suite = .retour (-1) ∧ (k'.table 2).valresetfile = 0 := by
  obtain ⟨k, atteint, test⟩ := Atteint.of_verifier Env.exemple
    (C := fun k e => decide (sansKill e = true ∧ RepriseVidee k e))
    (l := [demarrer 0, .reprise, demarrer 1, .reprise, .appel (.pcreate 1), .reprise,
      .appel (.psend 0 7), .reprise, demarrer 2, .reprise, .appel (.psend 0 8), .reprise,
      .appel (.preset 0), .reprise, .appel (.waitClock 5)])
    (T := fun k => verifierPas Env.exemple k .reprise fun _ =>
      decide (k.pidActif = some 2 ∧ (k.table 2).valresetfile ≠ 0 ∧ RepriseVidee k .reprise))
    (by decide +kernel)
  have course := atteint.mono Env.exemple fun _ _ => of_decide_eq_true
  obtain ⟨k', resultat, test⟩ := pas_of_verifierPas Env.exemple test
  obtain ⟨actif, leve, videe⟩ := of_decide_eq_true test
  exact ⟨k, k', course, leve, resultat,
    (un_seul_echec Env.exemple course).echec 2 k' actif videe resultat leve⟩

/-- A sender released by pdelete resumes on a queue of size 0 and returns with its flag
still raised. -/
theorem drapeau_oublie : ¬ ∀ k, Atteint Env.exemple (fun _ e => sansKill e = true) k →
    ∀ i, (k.table i).valresetfile ≠ 0 → ∃ fid, EnAppel k fid i := by
  intro toujours
  obtain ⟨k, atteint, test⟩ := Atteint.of_verifier Env.exemple (C := fun _ e => sansKill e)
    (l := [demarrer 0, .reprise, demarrer 1, .reprise, .appel (.pcreate 1), .reprise,
      .appel (.psend 0 7), .reprise, demarrer 2, .reprise, .appel (.psend 0 8), .reprise,
      .appel (.pdelete 0), .reprise, .appel (.waitClock 5), .reprise, .reprise])
    (T := fun k => decide ((k.table 2).valresetfile ≠ 0 ∧ (k.table 2).suite = .execution))
    (by decide +kernel)
  obtain ⟨leve, execution⟩ := of_decide_eq_true test
  obtain ⟨fid, suite | ⟨message, suite⟩⟩ := toujours k atteint 2 leve
  · cases execution.symm.trans suite
  · cases execution.symm.trans suite

end ProjetSysteme.Properties
