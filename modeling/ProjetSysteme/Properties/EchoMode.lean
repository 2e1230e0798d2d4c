/- Properties/EchoMode
   source: kernel/console.c
   digest: The echo mode and the lines that cons_read returns, in two runs that differ in it. -/

import ProjetSysteme.Invariant.Veil

set_option autoImplicit false
set_option relaxedAutoImplicit false

namespace ProjetSysteme.Properties

open Kernel Invariant Library.Outcome

def lectureFaite : Fait → Option (Indice × List Int8)
  | .lecture i ligne => some (i, ligne)
  | _ => none

/-- The reader and the characters of every `cons_read` of the run, latest first. -/
def lecturesRendues (k : Noyau) : List (Indice × List Int8) := k.journal.filterMap lectureFaite

def Bascule (env : Env) (k k' : Noyau) : Prop :=
  ∃ on k₁, permis k (.appel (.consEcho on)) = true ∧ pas env k (.appel (.consEcho on)) = .ok k₁ ∧
    permis k₁ .reprise = true ∧ pas env k₁ .reprise = .ok k'

/-- Two runs from boot that differ only in the calls of `cons_echo`: all other events
are those of both, and satisfy `C`. -/
inductive Paire (env : Env) (C : Noyau → Noyau → Evenement → Prop) : Noyau → Noyau → Prop
  | boot {k : Noyau} (depart : initialiserGestionDesProcessus env = .ok k) : Paire env C k k
  | commun {k₁ k₂ k₁' k₂' : Noyau} {e : Evenement} (avant : Paire env C k₁ k₂) (hors : horsEcho e)
      (autorise₁ : permis k₁ e = true) (autorise₂ : permis k₂ e = true) (condition : C k₁ k₂ e)
      (resultat₁ : pas env k₁ e = .ok k₁') (resultat₂ : pas env k₂ e = .ok k₂') : Paire env C k₁' k₂'
  | premiere {k₁ k₂ k₁' : Noyau} (avant : Paire env C k₁ k₂) (bascule : Bascule env k₁ k₁') : Paire env C k₁' k₂
  | seconde {k₁ k₂ k₂' : Noyau} (avant : Paire env C k₁ k₂) (bascule : Bascule env k₂ k₂') : Paire env C k₁ k₂'

/-- The key is not a control character, or Enter, or one more than the buffer holds, or
both runs have the echo on, or both off. -/
def MemeRange (k₁ k₂ : Noyau) : Evenement → Prop
  | .touche c => 32 ≤ c ∨ c = 13 ∨ nbrMaxBuff ≤ k₁.console.index ∨ (k₁.console.echo = 1 ↔ k₂.console.echo = 1)
  | _ => True

/-- The two states are the same but for the echo mode and the history, and the same
lines have been read. -/
structure Semblables (k₁ k₂ : Noyau) : Prop where
  noyau : k₂ = { k₁ with console := { k₁.console with echo := k₂.console.echo }, journal := k₂.journal }
  lectures : lecturesRendues k₁ = lecturesRendues k₂

section Pas

variable {env : Env} {k₁ k₂ k₁' k₂' : Noyau}

theorem Semblables.symm (semblables : Semblables k₁ k₂) : Semblables k₂ k₁ where
  noyau := by
    rw [semblables.noyau]
  lectures := semblables.lectures.symm

theorem Semblables.pas (semblables : Semblables k₁ k₂) {e : Evenement} (hors : horsEcho e) (meme : MemeRange k₁ k₂ e)
    (resultat₁ : Kernel.pas env k₁ e = .ok k₁') (resultat₂ : Kernel.pas env k₂ e = .ok k₂') : Semblables k₁' k₂' := by
  have voile₁ : k₁ = Voile.noyau ⟨k₁.console.echo, k₁.journal⟩ { k₁ with journal := [] } := rfl
  have voile₂ : k₂ = Voile.noyau ⟨k₂.console.echo, k₂.journal⟩ { k₁ with journal := [] } := semblables.noyau
  have transparent₁ : Voile.Transparent ⟨k₁.console.echo, k₁.journal⟩ { k₁ with journal := [] } e := by
    cases e with
    | touche c => exact .inr (.inr (.inr Iff.rfl))
    | _ => trivial
  have transparent₂ : Voile.Transparent ⟨k₂.console.echo, k₂.journal⟩ { k₁ with journal := [] } e := by
    cases e with
    | touche c => exact meme.imp_right (Or.imp_right (Or.imp_right Iff.symm))
    | _ => trivial
  rw [voile₁, pas_voile hors transparent₁] at resultat₁
  rw [voile₂, pas_voile hors transparent₂] at resultat₂
  obtain ⟨c, run, vu₁⟩ := image_eq_ok resultat₁
  obtain ⟨c', run', vu₂⟩ := image_eq_ok resultat₂
  cases run.symm.trans run'
  subst vu₁ vu₂
  refine ⟨rfl, ?_⟩
  show (c.journal ++ k₁.journal).filterMap lectureFaite = (c.journal ++ k₂.journal).filterMap lectureFaite
  rw [List.filterMap_append, List.filterMap_append]
  exact congrArg (_ ++ ·) semblables.lectures

private theorem suspend_retour {k : Noyau} {a : Indice} {s t : Suite} (suite : (k.table a).suite = s) :
    ((k.suspend a t).suspend a s).table = k.table := by
  funext j
  by_cases soi : j = a
  · subst soi
    rw [Noyau.suspend_table_self, Noyau.suspend_table_self, ← suite]
  · rw [Noyau.suspend_table_ne _ _ soi, Noyau.suspend_table_ne _ _ soi]

theorem memeRange_iff (semblables : Semblables k₁ k₂) (c : Int8) :
    MemeRange k₁ k₂ (.touche c) ↔ ecritureClavier k₁ c = ecritureClavier k₂ c := by
  have index : k₂.console.index = k₁.console.index := by rw [semblables.noyau]
  have autreLettre : c + 64 ≠ c := by
    rw [Ne, Int8.add_eq_left]
    decide
  unfold MemeRange ecritureClavier
  rw [index]
  by_cases entree : c = 13
  · simp [entree]
  · by_cases efface : c = 127
    · subst efface
      simp only [or_true, if_true, iff_true]
      exact .inl (by decide)
    · by_cases place : k₁.console.index < nbrMaxBuff
      · have pasPlein : ¬ nbrMaxBuff ≤ k₁.console.index := Nat.not_le.mpr place
        simp only [entree, efface, or_self, if_false, if_pos place, pasPlein, false_or, Option.some.injEq, Prod.mk.injEq,
          true_and]
        by_cases petit : c < 32
        · have pasGrand : ¬ 32 ≤ c := Int8.not_le.mpr petit
          by_cases echo₁ : k₁.console.echo = 1
          · by_cases echo₂ : k₂.console.echo = 1
            · simp [echo₁, echo₂]
            · simp [echo₁, echo₂, petit, pasGrand, autreLettre]
          · by_cases echo₂ : k₂.console.echo = 1
            · simp [echo₁, echo₂, petit, pasGrand, autreLettre.symm]
            · simp [echo₁, echo₂]
        · simp [petit, Int8.not_lt.mp petit]
      · simp [place, Nat.not_lt.mp place]

theorem Bascule.semblables (bascule : Bascule env k₁ k₁') (semblables : Semblables k₁ k₂) : Semblables k₁' k₂ := by
  obtain ⟨on, k, autorise, appel, -, reprise⟩ := bascule
  cases actif : k₁.pidActif with
  | none => simp [permis, actif, Appel.estStart] at autorise
  | some a =>
      have suite : (k₁.table a).suite = .execution := by
        simp only [permis, actif, Bool.and_eq_true, decide_eq_true_eq] at autorise
        exact autorise.1
      have rendu : k = ({ k₁.noter (.appel a (.consEcho on)) with console := { k₁.console with echo := on } }).renvoie a 0 := by
        simp only [pas, executer, actif, appeler, consEcho] at appel
        exact (Except.ok.inj appel).symm
      have retour : k₁' = (k.noter (.retour a 0)).suspend a .execution := by
        have actif' : k.pidActif = some a := by
          rw [rendu]
          exact actif
        have suite' : (k.table a).suite = .retour 0 := by
          rw [rendu, Noyau.renvoie, Noyau.suspend_table_self]
        simp only [pas, executer, actif', reprendre, suite'] at reprise
        exact (Except.ok.inj reprise).symm
      have table : k₁'.table = k₁.table := by
        rw [retour, rendu]
        exact suspend_retour (k := { k₁.noter (.appel a (.consEcho on)) with console := { k₁.console with echo := on } }) suite
      constructor
      · rw [semblables.noyau, ← table, retour, rendu]
        rfl
      · rw [← semblables.lectures, retour, rendu]
        rfl

theorem Paire.semblables (paire : Paire env MemeRange k₁ k₂) : Semblables k₁ k₂ := by
  induction paire with
  | boot depart => exact ⟨rfl, rfl⟩
  | commun _ hors _ _ meme resultat₁ resultat₂ ih => exact ih.pas hors meme resultat₁ resultat₂
  | premiere _ bascule ih => exact bascule.semblables ih
  | seconde _ bascule ih => exact (bascule.semblables ih.symm).symm

/-- In every pair of runs whose keys are such, every `cons_read` has given the same
characters to the same process, and every call that returns next returns the same value.
The first key that is not such is stored as two different characters. -/
theorem echo_mode_neutral (env : Env) {k₁ k₂ : Noyau} (paire : Paire env MemeRange k₁ k₂) :
    lecturesRendues k₁ = lecturesRendues k₂ ∧ k₁.table = k₂.table ∧ k₁.pidActif = k₂.pidActif ∧
      k₁.console.tampon = k₂.console.tampon ∧ k₁.console.indexFinLigne = k₂.console.indexFinLigne ∧
      ∀ c, MemeRange k₁ k₂ (.touche c) ↔ ecritureClavier k₁ c = ecritureClavier k₂ c := by
  have semblables := paire.semblables
  refine ⟨semblables.lectures, ?_, ?_, ?_, ?_, memeRange_iff semblables⟩
  all_goals rw [semblables.noyau]

end Pas

section Exemple

variable {env : Env} {C : Noyau → Noyau → Evenement → Prop} {k₁ k₂ k₁' k₂' : Noyau}

private theorem derouler_cons {k k' : Noyau} {e : Evenement} {reste : List Evenement}
    (course : Kernel.derouler env (fun _ _ => true) k (e :: reste) = some k') :
    permis k e = true ∧ ∃ k₁, pas env k e = .ok k₁ ∧ Kernel.derouler env (fun _ _ => true) k₁ reste = some k' := by
  rw [Kernel.derouler] at course
  split at course
  · next autorise =>
      split at course
      · next k₁ resultat => exact ⟨(Bool.and_eq_true_iff.mp autorise).1, k₁, resultat, course⟩
      · cases course
  · cases course

private theorem Paire.derouler (paire : Paire env C k₁ k₂) {l : List Evenement}
    (tous : ∀ e ∈ l, horsEcho e ∧ ∀ k k', C k k' e) (course₁ : Kernel.derouler env (fun _ _ => true) k₁ l = some k₁')
    (course₂ : Kernel.derouler env (fun _ _ => true) k₂ l = some k₂') : Paire env C k₁' k₂' := by
  induction l generalizing k₁ k₂ with
  | nil =>
      cases course₁
      cases course₂
      exact paire
  | cons e reste ih =>
      obtain ⟨autorise₁, k, resultat₁, suite₁⟩ := derouler_cons course₁
      obtain ⟨autorise₂, k', resultat₂, suite₂⟩ := derouler_cons course₂
      obtain ⟨hors, condition⟩ := tous e List.mem_cons_self
      refine ih (paire.commun hors autorise₁ autorise₂ (condition _ _) resultat₁ resultat₂) ?_ suite₁ suite₂
      exact fun e' dans => tous e' (List.mem_cons_of_mem e dans)

/-- Both runs start with `avant` and end with `apres`; the second one calls
`cons_echo(0)` in between. -/
def verifierPaire (env : Env) (avant apres : List Evenement) (test : Noyau → Noyau → Bool) : Bool :=
  match initialiserGestionDesProcessus env with
  | .error _ => false
  | .ok k₀ =>
    match Kernel.derouler env (fun _ _ => true) k₀ avant with
    | none => false
    | some k =>
      match Kernel.derouler env (fun _ _ => true) k [.appel (.consEcho 0), .reprise] with
      | none => false
      | some k' =>
        match Kernel.derouler env (fun _ _ => true) k apres, Kernel.derouler env (fun _ _ => true) k' apres with
        | some k₁, some k₂ => test k₁ k₂
        | _, _ => false

private theorem Paire.of_verifierPaire (env : Env) (avant apres : List Evenement) (test : Noyau → Noyau → Bool)
    (tous : ∀ e ∈ avant ++ apres, horsEcho e ∧ ∀ k k', C k k' e) (verifie : verifierPaire env avant apres test = true) :
    ∃ k₁ k₂, Paire env C k₁ k₂ ∧ test k₁ k₂ = true := by
  unfold verifierPaire at verifie
  split at verifie
  · cases verifie
  · next k₀ boot =>
      split at verifie
      · cases verifie
      · next k debut =>
          split at verifie
          · cases verifie
          · next k' echo =>
              split at verifie
              · next k₁ k₂ course₁ course₂ =>
                  obtain ⟨autorise, kₑ, appel, reste⟩ := derouler_cons echo
                  obtain ⟨autorise', k'', reprise, fin⟩ := derouler_cons reste
                  cases fin
                  have ensemble := (Paire.boot boot).derouler (fun e dans => tous e (List.mem_append_left _ dans)) debut debut
                  have separees := ensemble.seconde ⟨0, kₑ, autorise, appel, autorise', reprise⟩
                  exact ⟨k₁, k₂, separees.derouler (fun e dans => tous e (List.mem_append_right _ dans)) course₁ course₂,
                    verifie⟩
              · cases verifie

def lectureDUneTouche (c : Int8) : List Evenement :=
  [.appel (.consRead 8), .reprise, .touche c, .touche 13, .tic, .reprise]

def deuxProcessus : List Evenement := [demarrer 0, .reprise, demarrer 1, .reprise]

theorem echo_mode_neutral_lettre : ∃ k₁ k₂, Paire Env.exemple MemeRange k₁ k₂ ∧ k₁.console.echo = 1 ∧
    k₂.console.echo = 0 ∧ lecturesRendues k₁ = [(1, [97])] ∧ lecturesRendues k₂ = [(1, [97])] := by
  obtain ⟨k₁, k₂, paire, test⟩ := Paire.of_verifierPaire (C := MemeRange) Env.exemple deuxProcessus (lectureDUneTouche 97)
    (fun k₁ k₂ => decide (k₁.console.echo = 1 ∧ k₂.console.echo = 0 ∧ lecturesRendues k₁ = [(1, [97])]))
    (by simp [deuxProcessus, lectureDUneTouche, demarrer, horsEcho, MemeRange]) (by decide +kernel)
  obtain ⟨echo₁, echo₂, lue⟩ := of_decide_eq_true test
  exact ⟨k₁, k₂, paire, echo₁, echo₂, lue, (echo_mode_neutral Env.exemple paire).1.symm.trans lue⟩

/-- The key Ctrl-A is stored as the letter it is displayed with when the echo is on. -/
theorem echo_mode_counterexample : ∃ k₁ k₂, Paire Env.exemple (fun _ _ _ => True) k₁ k₂ ∧
    lecturesRendues k₁ = [(1, [65])] ∧ lecturesRendues k₂ = [(1, [1])] := by
  obtain ⟨k₁, k₂, paire, test⟩ := Paire.of_verifierPaire (C := fun _ _ _ => True) Env.exemple deuxProcessus (lectureDUneTouche 1)
    (fun k₁ k₂ => decide (lecturesRendues k₁ = [(1, [65])] ∧ lecturesRendues k₂ = [(1, [1])]))
    (by simp [deuxProcessus, lectureDUneTouche, demarrer, horsEcho]) (by decide +kernel)
  obtain ⟨majuscule, controle⟩ := of_decide_eq_true test
  exact ⟨k₁, k₂, paire, majuscule, controle⟩

end Exemple

end ProjetSysteme.Properties
