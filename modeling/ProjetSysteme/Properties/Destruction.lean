/- Properties/Destruction
   source: kernel/process.c, shared/queue.h
   digest: The child loops of definir_etat_processus, and the zombie that breaks one of them. -/

import ProjetSysteme.Invariant.Reachable

set_option autoImplicit false
set_option relaxedAutoImplicit false

namespace ProjetSysteme.Properties

open Kernel Invariant

/-- The child loop that `definir_etat_processus(pr, nouvelEtat)` runs: the values
of its iterator, and the state it ends in. -/
def boucleDe (k : Noyau) (pr : Indice) (nouvelEtat : EtatProcessus) :
    Except Arret (List Indice × Noyau) :=
  boucleFils (limite - 2) (nouvelEtat = .mort) (quitter k pr) pr (k.table pr).fils.head?

/-- The loop visits every child once, the call ends, and no child remains a zombie. -/
def EnfantsDetruits (k : Noyau) (pr : Indice) (nouvelEtat : EtatProcessus) : Prop :=
  (k.table pr).fils.Nodup ∧
  ∃ k₁ k', boucleDe k pr nouvelEtat = .ok ((k.table pr).fils, k₁) ∧
    definirEtat k pr nouvelEtat = .ok k' ∧
    ∀ j ∈ (k.table pr).fils, (k.table j).etat = .zombie →
      (k'.table j).etat = .mort ∧ (k'.table j).pid = none

private theorem zombies_detruits {k k' : Noyau} {z : Indice} {e : EtatProcessus}
    (valide : Valide k) (vivant : (k.table z).etat ≠ .mort) (sorte : e = .mort ∨ e = .zombie)
    (fin : Termine z e k k') :
    ∀ j ∈ (k.table z).fils, (k.table j).etat = .zombie →
      (k'.table j).etat = .mort ∧ (k'.table j).pid = none := by
  intro j mem zombie
  have pere := (((valide.famille.enfants z vivant).mem j).mp mem).1
  have mort := fin.zombies j pere zombie
  exact ⟨mort, ((fin.coherent valide.coherent vivant sorte).pid_mort j).mpr mort⟩

/-- The child loop of a process that ends does its work exactly if the process
becomes MORT, or if no zombie among its children is followed by another child. -/
theorem enfants_detruits_iff {k : Noyau} (valide : Valide k) (pr : Indice)
    (nouvelEtat : EtatProcessus) (sorte : nouvelEtat = .mort ∨ nouvelEtat = .zombie)
    (vivant : (k.table pr).etat ≠ .mort) (autre : (k.table pr).etat ≠ nouvelEtat) :
    EnfantsDetruits k pr nouvelEtat ↔
      nouvelEtat = .mort ∨ DernierSeul k (k.table pr).fils := by
  have nodup := (valide.famille.enfants pr vivant).nodup
  rcases sorte with rfl | rfl
  · refine ⟨fun _ => .inl rfl, fun _ => ?_⟩
    obtain ⟨k₁, k', boucle, run, fin⟩ := definirEtat_mort valide vivant
    exact ⟨nodup, k₁, k', boucle, run,
      zombies_detruits valide vivant (.inl rfl) fin⟩
  · obtain ⟨bon, mauvais⟩ := definirEtat_zombie valide vivant autre
    constructor
    · rintro ⟨_, _, k', _, run, _⟩
      refine .inr (Decidable.byContradiction fun plusieurs => ?_)
      rw [mauvais plusieurs] at run
      cases run
    · intro seul
      obtain ⟨k₁, k', boucle, run, fin⟩ := bon (seul.resolve_left (by simp))
      exact ⟨nodup, k₁, k', boucle, run,
        zombies_detruits valide vivant (.inr rfl) fin⟩

theorem enfants_detruits_exemple : ∃ k, Valide k ∧ (k.table 1).fils = [2] ∧
    (k.table 2).etat = .zombie ∧ EnfantsDetruits k 1 .zombie := by
  obtain ⟨k, atteint, test⟩ := Atteint.of_verifier Env.exemple (C := fun _ _ => true)
    (l := [demarrer 0, .reprise, demarrer 3, .reprise, demarrer 4, .reprise, .appel (.exit 1),
      .reprise])
    (T := fun k => decide ((k.table 1).fils = [2] ∧ (k.table 2).etat = .zombie ∧
      (k.table 1).etat = .actif))
    (by decide +kernel)
  have valide := (stable_of_atteint Env.exemple atteint).valide
  obtain ⟨fils, zombie, actif⟩ := of_decide_eq_true test
  refine ⟨k, valide, fils, zombie, ?_⟩
  refine (enfants_detruits_iff valide 1 .zombie (.inr rfl) (by simp [actif]) (by simp [actif])).mpr
    (.inr ?_)
  simp [fils, DernierSeul]

/-- A process with two zombie children follows a null link when it ends. -/
theorem enfants_non_detruits : ¬ ∀ k, Valide k → ∀ pr nouvelEtat,
    nouvelEtat = .mort ∨ nouvelEtat = .zombie → (k.table pr).etat ≠ .mort →
    (k.table pr).etat ≠ nouvelEtat → EnfantsDetruits k pr nouvelEtat := by
  intro toujours
  obtain ⟨k, atteint, test⟩ := Atteint.of_verifier Env.exemple (C := fun _ _ => true)
    (l := [demarrer 0, .reprise, demarrer 3, .reprise, demarrer 4, .reprise, .appel (.exit 1),
      .reprise, demarrer 5, .reprise, .appel (.exit 2), .reprise])
    (T := fun k => decide ((k.table 1).fils = [2, 3] ∧ (k.table 2).etat = .zombie ∧
      (k.table 1).etat = .actif))
    (by decide +kernel)
  have valide := (stable_of_atteint Env.exemple atteint).valide
  obtain ⟨fils, zombie, actif⟩ := of_decide_eq_true test
  obtain ⟨_, _, k', _, run, _⟩ := toujours k valide 1 .zombie (.inr rfl) (by simp [actif])
    (by simp [actif])
  have plusieurs : ¬ DernierSeul k (k.table 1).fils := by
    simp [fils, DernierSeul, zombie]
  rw [(definirEtat_zombie valide (by simp [actif]) (by simp [actif])).2 plusieurs] at run
  cases run

end ProjetSysteme.Properties
