/- Properties/Chained
   source: kernel/process.c, kernel/horloge.c, shared/queue.h
   digest: The runs of the kernel on the rings of queue.h are its runs on lists. -/

import ProjetSysteme.Invariant.ChainedCalls
import ProjetSysteme.Invariant.Reachable

set_option autoImplicit false
set_option relaxedAutoImplicit false

namespace ProjetSysteme.Properties.Chained

open Kernel Kernel.Chaine Kernel.Maillons Invariant Invariant.Chaine
open Library.Outcome Library.Ring

variable {H : Indice → Prop} {k : Noyau} {kc : NoyauChaine}

/-- The loops `queue_for_each` of the kernel on rings run over the lists of `k`. -/
structure Conforme (k : Noyau) (kc : NoyauChaine) : Prop where
  noyau : kc.noyau = sansListes k
  activables : Maillons.queueForEach kc.liens tours .teteActivables = .ok (k.activables.map .activable)
  endormis : Maillons.queueForEach kc.liens tours .teteEndormis = .ok (k.endormis.map .endormi)
  fils : ∀ i, (k.table i).etat ≠ .mort →
    Maillons.queueForEach kc.liens tours (.teteFils i) = .ok ((k.table i).fils.map .fils)

theorem conforme_of_represente (represente : Represente H k kc) : Conforme k kc := by
  have parcours : ∀ {t : Maillon} {c : Indice → Maillon} {l : List Indice}, tete H t → contenu k t = l.map c →
      Maillons.queueForEach kc.liens tours t = .ok (l.map c) := by
    intro t c l estTete liste
    rw [← liste]
    exact queueForEach_eq (represente.anneaux.ring t estTete) (represente.borne estTete liste)
  exact
    { noyau := represente.noyau
      activables := parcours (t := .teteActivables) trivial rfl
      endormis := parcours (t := .teteEndormis) trivial rfl
      fils := fun i vivant => parcours (t := .teteFils i) (represente.vivants i (.inl vivant)) rfl }

theorem anneaux_boot (vides : ∀ h, contenu k h = []) :
    Rings liensVides (tete fun _ => False) propre (contenu k) := by
  have rien : Rings (L := Maillon) { prev := fun _ => none, next := fun _ => none } (fun _ => False) propre
      (contenu k) :=
    ⟨fun _ => False.elim, fun _ => False.elim, fun _ _ => False.elim, fun _ _ _ _ => ⟨rfl, rfl⟩⟩
  have anneaux := (rien.begin (x := .teteActivables) id fun _ => False.elim).begin (x := .teteEndormis)
    (by simp) (by simp)
  have inchange : ∀ h, Function.update (contenu k) h [] = contenu k := fun h =>
    Function.update_eq_iff.mpr ⟨(vides h).symm, fun _ _ => rfl⟩
  have memeTete : (fun y : Maillon => (False ∨ y = .teteActivables) ∨ y = .teteEndormis) =
      tete fun _ => False := by
    funext y
    cases y <;> simp [tete]
  rwa [inchange, inchange, memeTete] at anneaux

theorem represente_boot (env : Env) {k₀ : Noyau} (boot : initialiserGestionDesProcessus env = .ok k₀) :
    Represente (fun _ => False) k₀ { noyau := k₀, liens := liensVides } := by
  obtain ⟨memoire, _, valeur⟩ := bind_ok boot
  cases valeur
  refine ⟨rfl, anneaux_boot fun h => ?_, ?_⟩
  · cases h <;> rfl
  · intro i nonMort
    exact nonMort.elim (fun etat => etat rfl) fun pid => pid rfl

theorem executer_traite (env : Env) (represente : Represente H k kc) {e : Evenement}
    (traite : concerne k e = true) : ∃ r, Kernel.Chaine.executer env kc e = some r := by
  cases e with
  | tic => exact ⟨_, rfl⟩
  | touche c => cases traite
  | appel a =>
      unfold Kernel.Chaine.executer
      dsimp only
      cases kc.noyau.pidActif with
      | none => cases a <;> exact ⟨_, rfl⟩
      | some actif => cases a <;> first | exact ⟨_, rfl⟩ | cases traite
  | reprise =>
      unfold Kernel.Chaine.executer
      dsimp only
      rw [represente.pidActif]
      cases courant : k.pidActif with
      | none => exact ⟨_, rfl⟩
      | some actif =>
          dsimp only
          unfold concerne at traite
          rw [courant] at traite
          unfold Kernel.Chaine.reprendre
          rw [represente.table]
          dsimp only
          cases suite : (k.table actif).suite with
          | psendAttente | preceiveAttente | preceiveFin | consReadAttente =>
              dsimp only at traite
              rw [suite] at traite
              cases traite
          | _ => exact ⟨_, rfl⟩

theorem permis_represente (represente : Represente H k kc) (e : Evenement) :
    permis kc.noyau e = permis k e := by
  rw [represente.noyau]
  cases e <;> rfl

theorem pas_conforme (env : Env) (represente : Represente H k kc) (stable : Stable k) {e : Evenement} {k' : Noyau}
    (autorise : permis k e = true) (traite : concerne k e = true) (resultat : Kernel.pas env k e = .ok k') :
    ∃ V kc', Kernel.Chaine.pas env kc e = some (.ok kc') ∧ Represente V k' kc' ∧ Stable k' := by
  have valide : Valide k := stable.elim Depart.valide fun ⟨_, cours⟩ => cours.interne.valide
  have vivant : ∀ a, k.pidActif = some a → (k.table a).etat ≠ .mort := by
    intro a actif
    rcases stable with depart | ⟨b, cours⟩
    · cases depart.pidActif.symm.trans actif
    · cases cours.pidActif.symm.trans actif
      exact cours.vivant
  obtain ⟨r, execute⟩ := executer_traite env represente traite
  obtain ⟨V, simule⟩ := pas_simule represente env valide vivant e (Option.map_eq_some_iff.mpr ⟨r, execute, rfl⟩)
  rw [resultat] at simule
  obtain ⟨kc', fin, represente'⟩ := simule
  refine ⟨V, kc', ?_, represente', ((pas_sat env stable autorise).of_ok resultat).1⟩
  rw [Kernel.Chaine.pas, execute, Option.map_some]
  exact congrArg some fin

theorem derouler_conforme (env : Env) {l : List Evenement} {k' : Noyau} (represente : Represente H k kc)
    (stable : Stable k) (course : Kernel.derouler env concerne k l = some k') :
    ∃ V kc', deroulerChaine env kc l = some kc' ∧ Represente V k' kc' := by
  induction l generalizing H k kc with
  | nil =>
      cases course
      exact ⟨H, kc, rfl, represente⟩
  | cons e reste ih =>
      rw [Kernel.derouler] at course
      split at course
      · next autorise =>
          rw [Bool.and_eq_true] at autorise
          split at course
          · next k₁ resultat =>
              obtain ⟨V, kc₁, pas₁, represente₁, stable₁⟩ :=
                pas_conforme env represente stable autorise.1 autorise.2 resultat
              rw [deroulerChaine, permis_represente represente, if_pos autorise.1, pas₁]
              exact ih represente₁ stable₁ course
          · cases course
      · cases course

/-- From boot, every run of calls of process.c and of clock ticks is the same with the rings of queue.h
as with lists: the same results, and loops over the ready processes, the sleepers and the children that
visit the same processes in the same order. -/
theorem deroulement_sur_anneaux (env : Env) {k₀ k' : Noyau} {l : List Evenement}
    (boot : initialiserGestionDesProcessus env = .ok k₀) (course : Kernel.derouler env concerne k₀ l = some k') :
    ∃ kc, deroulerChaine env { noyau := k₀, liens := liensVides } l = some kc ∧ Conforme k' kc := by
  obtain ⟨V, kc, execute, represente⟩ := derouler_conforme env (represente_boot env boot)
    (.inl (initialiser_depart env boot)) course
  exact ⟨kc, execute, conforme_of_represente represente⟩

def pereEtFils : List Evenement :=
  [demarrer 1, .reprise, demarrer 2, .reprise, demarrer 3, .reprise, .appel (.waitClock 2), .reprise,
    .appel (.waitpid (-1) true), .reprise, .tic]

theorem deroulement_sur_anneaux_exemple :
    ∃ k₀ k' kc, derouler Env.exemple concerne k₀ pereEtFils = some k' ∧
      deroulerChaine Env.exemple { noyau := k₀, liens := liensVides } pereEtFils = some kc ∧ Conforme k' kc ∧
      k'.pidActif = some 0 ∧ k'.endormis = [2] ∧ (k'.table 1).fils = [2] := by
  have verifie : verifier Env.exemple concerne pereEtFils (fun k =>
      k.pidActif = some 0 ∧ k.endormis = [2] ∧ (k.table 1).fils = [2]) = true := by decide +kernel
  unfold verifier at verifie
  split at verifie
  · cases verifie
  · next k₀ boot =>
      split at verifie
      · cases verifie
      · next k' course =>
          obtain ⟨kc, execute, conforme⟩ := deroulement_sur_anneaux Env.exemple boot course
          exact ⟨k₀, k', kc, course, execute, conforme, of_decide_eq_true verifie⟩

end ProjetSysteme.Properties.Chained
