/- Properties/Waitpid
   source: kernel/process.c
   digest: The rendezvous of waitpid with the end of a child. -/

import ProjetSysteme.Invariant.ProcessRuns

set_option autoImplicit false
set_option relaxedAutoImplicit false

namespace ProjetSysteme.Properties

open Kernel Invariant Library.Outcome

/-- Every value stored by waitpid is that of the child at that time. -/
def Recuperations : List Fait → Prop
  | [] => True
  | .recuperation _ c v :: reste => v = valeurFin reste c ∧ Recuperations reste
  | _ :: reste => Recuperations reste

theorem valeurFin_vitaux (l : List Fait) (c : Indice) :
    valeurFin (l.filter estVital) c = valeurFin l c := by
  induction l with
  | nil => rfl
  | cons f reste ih => cases f <;> simp [List.filter_cons, estVital, valeurFin, ih]

theorem recuperations_vitaux (l : List Fait) :
    Recuperations (l.filter estVital) ↔ Recuperations l := by
  induction l with
  | nil => exact Iff.rfl
  | cons f reste ih => cases f <;> simp [List.filter_cons, estVital, Recuperations, ih, valeurFin_vitaux]

theorem Filiation.recuperations {e : Evenement} {k k' : Noyau} (filiation : Filiation e k k')
    (valeurs : Valeurs k) (avant : Recuperations (vitaux k)) : Recuperations (vitaux k') := by
  cases filiation with
  | stable vif faits => rwa [faits]
  | naissance mort vivant pere autres faits => rwa [faits]
  | fin mourant vif vivant nonZombie fin faits =>
      rcases faits with faits | ⟨v, faits⟩ <;> rwa [faits]
  | @recolte k₁ _ a c vif pere zombie fin faits =>
      rcases faits with faits | faits
      · rwa [faits]
      · rw [faits]
        refine ⟨?_, avant⟩
        rw [vitaux, valeurFin_vitaux]
        exact valeurs c (by simp [zombie])

/-- The process waits for a child that is still to end. -/
def AttendUnFils (k : Noyau) (i : Indice) : Prop :=
  (∃ c, (k.table i).attendFils = .fils c ∧ (k.table c).pere = some i ∧
    (k.table c).etat ≠ .zombie ∧ (k.table c).etat ≠ .mort) ∨
  ((k.table i).attendFils = .nImporteLequel ∧
    (∃ c, (k.table c).pere = some i ∧ (k.table c).etat ≠ .mort) ∧
    ∀ c, (k.table c).pere = some i → (k.table c).etat ≠ .zombie)

/-- The process is about to resume in waitpid, with the child `c`. -/
def Designe (k : Noyau) (a c : Indice) (retvalp : Bool) : Prop :=
  (k.table a).suite = .waitpidAttente retvalp ∧ (k.table a).attendFils = .fils c ∨
  (k.table a).suite = .waitpidAttenteFils c retvalp

/-- The resumption stores the value of the child `c`, unless `retvalp` is null. -/
def RecupereFin (env : Env) (k : Noyau) (a c : Indice) (retvalp : Bool) : Prop :=
  ∀ k', pas env k .reprise = .ok k' → k'.journal =
    if retvalp then .recuperation a c (valeurFin k.journal c) :: k.journal else k.journal

theorem attend_un_fils {k : Noyau} (sain : Sain k) {i : Indice}
    (bloque : (k.table i).etat = .bloqueSurAttenteDUnFils) : AttendUnFils k i := by
  have demande := sain.posture i
  unfold Posture at demande
  rw [bloque] at demande
  simp only [Demande] at demande
  split at demande
  · exact .inr demande
  · next c _ _ =>
      obtain ⟨attend, pere, vivant, nonZombie⟩ := demande
      exact .inl ⟨c, attend, pere, nonZombie, vivant⟩
  · exact demande.elim

theorem executer_reprise (env : Env) {k : Noyau} {a : Indice} (actif : k.pidActif = some a) :
    executer env k .reprise = reprendre env k a := by
  simp only [executer, actif]

theorem reprise_waitpid (env : Env) {k : Noyau} (sain : Sain k) {a : Indice} {retvalp : Bool}
    (actif : k.pidActif = some a)
    (reprise : (k.table a).suite = .waitpidAttente retvalp ∨
      ∃ c, (k.table a).suite = .waitpidAttenteFils c retvalp) :
    ∃ c, Designe k a c retvalp ∧ (k.table c).pere = some a ∧ (k.table c).etat = .zombie ∧
      RecupereFin env k a c retvalp := by
  have posture := (Posture.of_courant (.inl (sain.actif a actif))).mp (sain.posture a)
  unfold Reprise at posture
  have valeur : ∀ c, (k.table c).etat = .zombie → (k.table c).retval = valeurFin k.journal c :=
    fun c zombie => sain.valeurs c (by simp [zombie])
  rcases reprise with suite | ⟨c, suite⟩
  · rw [suite] at posture
    obtain ⟨c, attend, pere, zombie⟩ := posture
    refine ⟨c, .inl ⟨suite, attend⟩, pere, zombie, fun k' resultat => ?_⟩
    have sat : Sat (executer env k .reprise) (Recupere a c retvalp k) EstFaute := by
      rw [executer_reprise env actif, reprendre, suite]
      exact (waitpidReprise_ok (e := .reprise) sain actif suite).mono
        (fun k' fin => fin.2 c attend) fun _ => id
    rw [← valeur c zombie]
    exact pas_sans_confirme env sat resultat
  · rw [suite] at posture
    refine ⟨c, .inr suite, posture.1, posture.2, fun k' resultat => ?_⟩
    have sat : Sat (executer env k .reprise) (Recupere a c retvalp k) EstFaute := by
      rw [executer_reprise env actif, reprendre, suite]
      exact (waitpidRepriseFils_ok (e := .reprise) sain actif suite).mono
        (fun k' fin => fin.2) fun _ => id
    rw [← valeur c posture.2]
    exact pas_sans_confirme env sat resultat

/-- In every run of the process primitives, who waits in waitpid waits for a child that
is to end, and who resumes in it collects the value of a zombie child. -/
theorem rendez_vous_waitpid (env : Env) {k : Noyau}
    (atteint : Atteint env (fun _ e => deProcessus e = true) k) :
    (∀ i, (k.table i).etat = .bloqueSurAttenteDUnFils → AttendUnFils k i) ∧
    (∀ a retvalp, k.pidActif = some a →
      ((k.table a).suite = .waitpidAttente retvalp ∨
        ∃ c, (k.table a).suite = .waitpidAttenteFils c retvalp) →
      ∃ c, Designe k a c retvalp ∧ (k.table c).pere = some a ∧ (k.table c).etat = .zombie ∧
        RecupereFin env k a c retvalp) ∧
    Recuperations k.journal := by
  obtain ⟨sain, _, recuperations⟩ := Atteint.processus env
    (P := fun k => Recuperations (vitaux k)) (fun _ _ => id)
    (fun k₀ boot => by
      obtain ⟨memoire, _, valeur⟩ := bind_ok boot
      cases valeur
      trivial)
    (fun k e k' sain _ avant _ _ etape _ => by
      obtain ⟨k₁, effet, fin⟩ := etape
      have sain₀ := sain.enregistrer e
      have apres : Recuperations (vitaux k₁) := by
        refine Filiation.recuperations (effet.filiation sain₀) sain₀.valeurs ?_
        rwa [vitaux_enregistrer]
      rcases fin with rfl | ord
      · exact apres
      · rwa [vitaux_congr (by rw [ord.noyau])])
    atteint
  exact ⟨fun i => attend_un_fils sain, fun a retvalp => reprise_waitpid env sain,
    (recuperations_vitaux _).mp recuperations⟩

theorem rendez_vous_waitpid_exemple : ∃ k,
    Atteint Env.exemple (fun _ e => deProcessus e = true) k ∧ k.pidActif = some 1 ∧
    (k.table 1).suite = .waitpidAttente true ∧
    (∃ c, Designe k 1 c true ∧ (k.table c).pere = some 1 ∧ (k.table c).etat = .zombie ∧
      RecupereFin Env.exemple k 1 c true) ∧ Recuperations k.journal := by
  obtain ⟨k, atteint, test⟩ := Atteint.of_verifier Env.exemple (C := fun _ e => deProcessus e)
    (l := [demarrer 0, .reprise, demarrer 3, .reprise, demarrer 2, .reprise, demarrer 2, .reprise,
      .appel (.waitpid (-1) true), .reprise, .appel (.exit 5)])
    (T := fun k => decide (k.pidActif = some 1 ∧ (k.table 1).suite = .waitpidAttente true))
    (by decide +kernel)
  obtain ⟨actif, suite⟩ := of_decide_eq_true test
  obtain ⟨_, reprise, recuperations⟩ := rendez_vous_waitpid Env.exemple atteint
  exact ⟨k, atteint, actif, suite, reprise 1 true actif (.inl suite), recuperations⟩

end ProjetSysteme.Properties
