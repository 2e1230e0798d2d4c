/- Properties/WakeUps
   source: kernel/file.c
   digest: Processes that stay blocked on a message queue that could serve them. -/

import ProjetSysteme.Invariant.ChannelRuns

set_option autoImplicit false
set_option relaxedAutoImplicit false

namespace ProjetSysteme.Properties

open Kernel Invariant Library

/-- Process `i` was taken off the list of receivers of `fid` and has not resumed. -/
def ReveilleReception (k : Noyau) (fid : IndiceFile) (i : Indice) : Prop :=
  (k.table i).suite = .preceiveAttente fid ∧ (k.table i).etat ≠ .mort ∧
    (k.table i).etat ≠ .zombie ∧ (k.table i).etat ≠ .bloqueSurReception

/-- Process `i` was taken off the list of senders of `fid` and has not resumed. -/
def ReveilleEnvoi (k : Noyau) (fid : IndiceFile) (i : Indice) : Prop :=
  (∃ message, (k.table i).suite = .psendAttente fid message) ∧ (k.table i).etat ≠ .mort ∧
    (k.table i).etat ≠ .zombie ∧ (k.table i).etat ≠ .bloqueSurEnvoi

theorem reveilleReception_iff {k : Noyau} {fid : IndiceFile} {i : Indice} :
    ReveilleReception k fid i ↔ ((canaux k).phase i).ReceivesOn fid := by
  rw [ReveilleReception, ← phaseDe_wokenReceive]
  change _ ↔ (phaseDe (k.table i)).ReceivesOn fid
  cases phaseDe (k.table i) <;> simp [Channel.Phase.ReceivesOn]

theorem reveilleEnvoi_iff {k : Noyau} {fid : IndiceFile} {i : Indice} :
    ReveilleEnvoi k fid i ↔ ((canaux k).phase i).SendsOn fid := by
  have woken : ReveilleEnvoi k fid i ↔ ∃ message, phaseDe (k.table i) = .wokenSend fid message := by
    simp only [ReveilleEnvoi, phaseDe_wokenSend, exists_and_right]
  rw [woken]
  change _ ↔ (phaseDe (k.table i)).SendsOn fid
  cases phaseDe (k.table i) <;> simp [Channel.Phase.SendsOn]

instance (k : Noyau) (fid : IndiceFile) : DecidablePred (ReveilleReception k fid) := fun _ =>
  decidable_of_iff _ reveilleReception_iff.symm

instance (k : Noyau) (fid : IndiceFile) : DecidablePred (ReveilleEnvoi k fid) := fun _ =>
  decidable_of_iff _ reveilleEnvoi_iff.symm

def nbReveillesReception (k : Noyau) (fid : IndiceFile) : Nat :=
  (Finset.univ.filter (ReveilleReception k fid)).card

def nbReveillesEnvoi (k : Noyau) (fid : IndiceFile) : Nat :=
  (Finset.univ.filter (ReveilleEnvoi k fid)).card

theorem nbReveillesReception_canaux (k : Noyau) (fid : IndiceFile) :
    Channel.wokenReceivers (canaux k) fid = nbReveillesReception k fid :=
  congrArg Finset.card (Finset.filter_congr fun _ _ => reveilleReception_iff.symm)

theorem nbReveillesEnvoi_canaux (k : Noyau) (fid : IndiceFile) :
    Channel.wokenSenders (canaux k) fid = nbReveillesEnvoi k fid :=
  congrArg Finset.card (Finset.filter_congr fun _ _ => reveilleEnvoi_iff.symm)

/-- The calls of psend and preceive, and those that leave the queues alone. -/
def dEchange : Evenement → Bool
  | .appel (.kill _) | .appel (.preset _) | .appel (.pdelete _) => false
  | _ => true

theorem sansKill_of_dEchange {e : Evenement} (echange : dEchange e = true) : sansKill e = true := by
  unfold sansKill
  split
  · cases echange
  · rfl

/-- While receivers wait, a message is stored in a queue that is not empty only if more
receivers are woken than messages are stored; and dually for a message that is taken. -/
def ReveilsSuffisants (k : Noyau) (e : Evenement) : Prop :=
  ∀ a, k.pidActif = some a → ∀ fid,
    ((∃ message, Emet k e a fid message) → (k.files fid).nbelem ≠ (k.files fid).size →
      (k.files fid).nbelem ≠ 0 → (k.files fid).listeProcBloqueReception ≠ [] →
        (k.files fid).nbelem < nbReveillesReception k fid) ∧
    (Recoit k e a fid → (k.files fid).nbelem ≠ 0 → (k.files fid).nbelem ≠ (k.files fid).size →
      (k.files fid).listeProcBloqueEnvoi ≠ [] →
        (k.files fid).size - (k.files fid).nbelem < nbReveillesEnvoi k fid)

theorem canal_receivers {f : FileMessage} (attendus : (canalDe f).receivers.Nonempty) :
    f.listeProcBloqueReception ≠ [] := by
  rintro vide
  simp [canalDe, vide] at attendus

theorem canal_senders {f : FileMessage} (attendus : (canalDe f).senders.Nonempty) :
    f.listeProcBloqueEnvoi ≠ [] := by
  rintro vide
  simp [canalDe, vide] at attendus

theorem careful_of_suffisants {k : Noyau} {e : Evenement} {s' : Channel.State Indice IndiceFile Int}
    {act : Channel.Action Indice IndiceFile Int} (sain : Sain k) (echange : dEchange e = true)
    (reveils : ReveilsSuffisants k e) (pas : Channel.Step (canaux (enregistrer k e)) act s')
    (etiquette : Etiquette (enregistrer k e) e act) :
    Channel.Careful (canaux (enregistrer k e)) act := by
  have chan : ∀ fid, (canaux (enregistrer k e)).chan fid = canalDe (k.files fid) := fun fid => by
    simp only [canaux, enregistrer_files]
  have phase : (canaux (enregistrer k e)).phase = (canaux k).phase := by
    simp only [canaux, enregistrer_table]
  have woken : ∀ fid, Channel.wokenReceivers (canaux (enregistrer k e)) fid =
      nbReveillesReception k fid := fun fid => by
    rw [← nbReveillesReception_canaux, Channel.wokenReceivers, phase, Channel.wokenReceivers]
  have woken' : ∀ fid, Channel.wokenSenders (canaux (enregistrer k e)) fid =
      nbReveillesEnvoi k fid := fun fid => by
    rw [← nbReveillesEnvoi_canaux, Channel.wokenSenders, phase, Channel.wokenSenders]
  cases act with
  | send a fid message =>
      obtain ⟨actif, emet⟩ := etiquette
      rw [enregistrer_pidActif] at actif
      have nbelem := sain.files.nbelem fid
      have room := pas.room
      rw [chan] at room
      intro plein attendus
      rw [chan] at plein attendus ⊢
      rw [woken]
      have few := (reveils a actif fid).1 ⟨message, emet_enregistrer.mp emet⟩
        (by rw [nbelem]; exact room) (by rw [nbelem]; simpa [canalDe] using plein)
        (canal_receivers attendus)
      rwa [nbelem] at few
  | receive a fid message =>
      obtain ⟨actif, recoit⟩ := etiquette
      rw [enregistrer_pidActif] at actif
      have nbelem := sain.files.nbelem fid
      obtain ⟨reste, tete⟩ := pas.head
      rw [chan] at tete
      intro nonPlein attendus
      rw [chan] at nonPlein attendus ⊢
      rw [woken']
      have few := (reveils a actif fid).2 (recoit_enregistrer.mp recoit)
        (by rw [nbelem, show (k.files fid).file = message :: reste from tete]; simp; omega)
        (by rw [nbelem]; exact nonPlein) (canal_senders attendus)
      rwa [nbelem] at few
  | leave i =>
      obtain ⟨pid, rfl, _⟩ := etiquette
      cases echange
  | reset fid | delete fid =>
      obtain ⟨n, rfl, _⟩ := etiquette
      cases echange
  | _ => trivial

/-- In every run of psend and preceive in which enough processes stay woken, once all the
woken processes of a queue have resumed, receivers wait only on an empty queue and
senders only on a full one. -/
theorem reveils_non_perdus (env : Env) {k : Noyau}
    (atteint : Atteint env (fun k e => dEchange e = true ∧ ReveilsSuffisants k e) k)
    (fid : IndiceFile) (repris : ∀ i, ¬ ReveilleReception k fid i ∧ ¬ ReveilleEnvoi k fid i) :
    ((k.files fid).listeProcBloqueReception ≠ [] → (k.files fid).file = []) ∧
    ((k.files fid).listeProcBloqueEnvoi ≠ [] →
      ((k.files fid).file.length : Int) = (k.files fid).size) := by
  obtain ⟨sain, served⟩ := Atteint.canaux env (P := Channel.Served)
    (fun k e condition => killPropre_of_sansKill (sansKill_of_dEchange condition.1))
    ⟨fun _ => rfl, fun _ attendus => absurd attendus Finset.not_nonempty_empty,
      fun _ attendus => absurd attendus Finset.not_nonempty_empty⟩
    (fun s a s' wf served pas => pas.served wf trivial served)
    (fun k e act s' sain _ condition served pas etiquette =>
      pas.served (sain.enregistrer e).files.regles
        (careful_of_suffisants sain condition.1 condition.2 pas etiquette) served) atteint
  have reception : Channel.wokenReceivers (canaux k) fid = 0 := by
    rw [nbReveillesReception_canaux, nbReveillesReception, Finset.card_eq_zero,
      Finset.filter_eq_empty_iff]
    exact fun i _ => (repris i).1
  have envoi : Channel.wokenSenders (canaux k) fid = 0 := by
    rw [nbReveillesEnvoi_canaux, nbReveillesEnvoi, Finset.card_eq_zero, Finset.filter_eq_empty_iff]
    exact fun i _ => (repris i).2
  obtain ⟨receivers, senders⟩ := served.settled sain.files.regles reception envoi
  refine ⟨fun attendus => receivers ?_, fun attendus => senders ?_⟩
  · simpa [canaux, canalDe, Finset.nonempty_iff_ne_empty] using attendus
  · simpa [canaux, canalDe, Finset.nonempty_iff_ne_empty] using attendus

instance (k : Noyau) (e : Evenement) : Decidable (ReveilsSuffisants k e) := by
  unfold ReveilsSuffisants
  infer_instance

theorem reveils_non_perdus_exemple : ∃ k,
    Atteint Env.exemple (fun k e => dEchange e = true ∧ ReveilsSuffisants k e) k ∧
    (k.files 0).listeProcBloqueReception ≠ [] ∧ (k.files 0).file = [] := by
  obtain ⟨k, atteint, test⟩ := Atteint.of_verifier Env.exemple
    (C := fun k e => decide (dEchange e = true ∧ ReveilsSuffisants k e))
    (l := [demarrer 0, .reprise, demarrer 1, .reprise, .appel (.pcreate 2), .reprise, demarrer 2,
      .reprise, .appel (.preceive 0), .reprise, demarrer 2, .reprise, .appel (.preceive 0), .reprise,
      .appel (.psend 0 7), .reprise, .appel (.waitClock 5), .reprise])
    (T := fun k => decide ((k.files 0).listeProcBloqueReception ≠ [] ∧
      ∀ i, ¬ ReveilleReception k 0 i ∧ ¬ ReveilleEnvoi k 0 i))
    (by decide +kernel)
  have course := atteint.mono Env.exemple fun _ _ => of_decide_eq_true
  obtain ⟨attendus, repris⟩ := of_decide_eq_true test
  exact ⟨k, course, attendus, (reveils_non_perdus Env.exemple course 0 repris).1 attendus⟩

/-- Two messages are sent before the receiver that the first one woke resumes, and the
other receiver stays blocked on a queue that holds the second message. -/
theorem reveil_perdu : ¬ ∀ k, Atteint Env.exemple (fun _ e => dEchange e = true) k →
    ∀ fid, (∀ i, ¬ ReveilleReception k fid i ∧ ¬ ReveilleEnvoi k fid i) →
      (k.files fid).listeProcBloqueReception ≠ [] → (k.files fid).file = [] := by
  intro toujours
  obtain ⟨k, atteint, test⟩ := Atteint.of_verifier Env.exemple (C := fun _ e => dEchange e)
    (l := [demarrer 0, .reprise, demarrer 1, .reprise, .appel (.pcreate 2), .reprise, demarrer 2,
      .reprise, .appel (.preceive 0), .reprise, demarrer 2, .reprise, .appel (.preceive 0), .reprise,
      .appel (.psend 0 7), .reprise, .appel (.psend 0 8), .reprise, .appel (.waitClock 5), .reprise])
    (T := fun k => decide ((∀ i, ¬ ReveilleReception k 0 i ∧ ¬ ReveilleEnvoi k 0 i) ∧
      (k.files 0).listeProcBloqueReception ≠ [] ∧ (k.files 0).file ≠ []))
    (by decide +kernel)
  obtain ⟨repris, attendus, messages⟩ := of_decide_eq_true test
  exact messages (toujours k atteint 0 repris attendus)

end ProjetSysteme.Properties
