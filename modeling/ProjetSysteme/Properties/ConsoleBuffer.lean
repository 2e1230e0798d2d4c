/- Properties/ConsoleBuffer
   source: kernel/console.c
   digest: What cons_read stores in the buffer of its caller. -/

import ProjetSysteme.Invariant.ConsoleRuns

set_option autoImplicit false
set_option relaxedAutoImplicit false

namespace ProjetSysteme.Properties

open Kernel Invariant

theorem copierLigne_eq (tampon : Nat → Int8) (reste i : Nat) :
    copierLigne tampon reste i = (List.range' i reste).map (fun j => (j, tampon j)) ++ [(i + reste, 0)] := by
  induction reste generalizing i with
  | zero => rfl
  | succ reste ih =>
      have suivant : i + 1 + reste = i + (reste + 1) := by omega
      rw [copierLigne, ih, List.range'_succ, List.map_cons, List.cons_append, suivant]

theorem consReadEcritures_eq (k : Noyau) (length : UInt32) :
    consReadEcritures k length =
      (List.range (min k.console.indexFinLigne length.toNat)).map (fun j => (j, k.console.tampon j)) ++
        [(min k.console.indexFinLigne length.toNat, 0)] := by
  rw [consReadEcritures, copierLigne_eq, Nat.zero_add, List.range_eq_range']

theorem consReadEcritures_dedans (k : Noyau) (length : UInt32) :
    (∀ ecriture ∈ consReadEcritures k length, ecriture.1 < length.toNat) ↔
      k.console.indexFinLigne < length.toNat := by
  rw [consReadEcritures_eq]
  constructor
  · intro dedans
    have dernier := dedans _ (List.mem_append_right _ List.mem_cons_self)
    change min k.console.indexFinLigne length.toNat < length.toNat at dernier
    omega
  · intro place ecriture mem
    rcases List.mem_append.mp mem with caractere | zero
    · obtain ⟨j, borne, rfl⟩ := List.mem_map.mp caractere
      have avant := List.mem_range.mp borne
      change j < length.toNat
      omega
    · rw [List.mem_singleton.mp zero]
      change min k.console.indexFinLigne length.toNat < length.toNat
      omega

/-- The call of `cons_read` of process `a` ends as it is to, from `k` to `k'`. -/
structure LectureSure (k k' : Noyau) (a : Indice) (length : UInt32) : Prop where
  dedans : ∀ ecriture ∈ consReadEcritures k length, ecriture.1 < length.toNat
  retour : ∃ n : Nat, (k'.table a).suite = .retour n ∧ n ≤ length.toNat ∧ n ≤ k.console.indexFinLigne ∧
    consReadEcritures k length = (List.range n).map (fun j => (j, k.console.tampon j)) ++ [(n, 0)]

private theorem reprise_rend (env : Env) {C : Noyau → Evenement → Prop} {k : Noyau} {a : Indice} {length : UInt32}
    (atteint : Atteint env C k) (actif : k.pidActif = some a) (suite : (k.table a).suite = .consReadAttente length) :
    ∃ k', pas env k .reprise = .ok k' ∧
      (k'.table a).suite = .retour (min k.console.indexFinLigne length.toNat : Nat) := by
  have courant := (enCours_of_atteint env atteint actif).courant
  have reveille : ¬ (k.table a).etat = .bloqueSurEntreeSortie :=
    courant.simple_ne EtatProcessus.noConfusion EtatProcessus.noConfusion
  have run : executer env k .reprise = consReadReprise k a length := by
    simp only [executer, actif, reprendre, suite]
  unfold pas
  rw [run, consReadReprise, if_neg reveille]
  refine ⟨_, rfl, ?_⟩
  rw [Noyau.renvoie, Noyau.suspend_table_self]

private theorem lectureSure_iff {k k' : Noyau} {a : Indice} {length : UInt32}
    (rendu : (k'.table a).suite = .retour (min k.console.indexFinLigne length.toNat : Nat)) :
    LectureSure k k' a length ↔ k.console.indexFinLigne < length.toNat := by
  constructor
  · intro sure
    exact (consReadEcritures_dedans k length).mp sure.dedans
  · intro place
    exact ⟨(consReadEcritures_dedans k length).mpr place, _, rendu, Nat.min_le_right .., Nat.min_le_left ..,
      consReadEcritures_eq k length⟩

/-- In every state of every run where a process resumes in cons_read, the call stays in
the buffer if and only if the line is shorter than it. -/
theorem cons_read_buffer_iff (env : Env) {C : Noyau → Evenement → Prop} {k : Noyau} {a : Indice} {length : UInt32}
    (atteint : Atteint env C k) (actif : k.pidActif = some a) (suite : (k.table a).suite = .consReadAttente length) :
    ∃ k', pas env k .reprise = .ok k' ∧ (LectureSure k k' a length ↔ k.console.indexFinLigne < length.toNat) := by
  obtain ⟨k', run, rendu⟩ := reprise_rend env atteint actif suite
  exact ⟨k', run, lectureSure_iff rendu⟩

/-- Process 1 asks for a line of `length` characters; the key `a` and Enter are pressed. -/
def ligneDUnCaractere (length : UInt32) : List Evenement :=
  [demarrer 0, .reprise, demarrer 1, .reprise, .appel (.consRead length), .reprise, .touche 97, .touche 13, .tic]

theorem cons_read_buffer_deux : ∃ k, Atteint Env.exemple (fun _ _ => true) k ∧
    ∃ k', pas Env.exemple k .reprise = .ok k' ∧ LectureSure k k' 1 2 := by
  obtain ⟨k, atteint, test⟩ := Atteint.of_verifier Env.exemple (C := fun _ _ => true) (l := ligneDUnCaractere 2)
    (T := fun k => decide (k.pidActif = some 1 ∧ (k.table 1).suite = .consReadAttente 2 ∧ k.console.indexFinLigne = 1))
    (by decide +kernel)
  obtain ⟨actif, suite, ligne⟩ := of_decide_eq_true test
  obtain ⟨k', run, sure⟩ := cons_read_buffer_iff Env.exemple atteint actif suite
  exact ⟨k, atteint, k', run, sure.mpr (by rw [ligne]; decide)⟩

/-- The terminator is stored after the end of a buffer of one character. -/
theorem cons_read_buffer_counterexample : ∃ k, Atteint Env.exemple (fun _ _ => true) k ∧ k.pidActif = some 1 ∧
    (k.table 1).suite = .consReadAttente 1 ∧ (1, 0) ∈ consReadEcritures k 1 ∧
    ∃ k', pas Env.exemple k .reprise = .ok k' ∧ ¬ LectureSure k k' 1 1 := by
  obtain ⟨k, atteint, test⟩ := Atteint.of_verifier Env.exemple (C := fun _ _ => true) (l := ligneDUnCaractere 1)
    (T := fun k => decide (k.pidActif = some 1 ∧ (k.table 1).suite = .consReadAttente 1 ∧ k.console.indexFinLigne = 1))
    (by decide +kernel)
  obtain ⟨actif, suite, ligne⟩ := of_decide_eq_true test
  obtain ⟨k', run, rendu⟩ := reprise_rend Env.exemple atteint actif suite
  refine ⟨k, atteint, actif, suite, ?_, k', run, fun sure => ?_⟩
  · rw [consReadEcritures_eq, ligne]
    exact List.mem_append_right _ List.mem_cons_self
  · have court := (lectureSure_iff rendu).mp sure
    rw [ligne] at court
    exact absurd court (by decide)

end ProjetSysteme.Properties
