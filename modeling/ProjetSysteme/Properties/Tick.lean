/- Properties/Tick
   source: kernel/horloge.c, kernel/process.c
   digest: A clock interrupt wakes the sleepers whose tick has come, and no other. -/

import ProjetSysteme.Invariant.Reachable

set_option autoImplicit false
set_option relaxedAutoImplicit false

namespace ProjetSysteme.Properties

open Kernel Invariant Library.PriorityList

def echu (k : Noyau) (i : Indice) : Bool :=
  (k.table i).waitIemeInterruptionClock ≤ k.horloge

structure Parcouru (k k' : Noyau) : Prop where
  coherent : Coherent k'
  table : ∀ i, k'.table i =
    if i ∈ k.endormis ∧ echu k i then { k.table i with etat := .activable } else k.table i
  endormis : k'.endormis = k.endormis.filter fun i => ¬ echu k i

theorem filter_erase {l : List Indice} {p : Indice → Bool} {a : Indice} (rejete : p a = false) :
    (l.erase a).filter p = l.filter p := by
  induction l with
  | nil => rfl
  | cons b l ih =>
      by_cases meme : b = a
      · rw [meme, List.erase_cons_head, List.filter_cons_of_neg (by simp [rejete])]
      · rw [List.erase_cons_tail (by simpa using meme), List.filter_cons, List.filter_cons, ih]

section Parcours

variable {k k' : Noyau} {attend : Indice}

theorem Parcouru.aucun (coherent : Coherent k) (aucun : ∀ i ∈ k.endormis, ¬ echu k i) :
    Parcouru k k where
  coherent := coherent
  table i := (if_neg fun ⟨mem, du⟩ => aucun i mem du).symm
  endormis := (List.filter_eq_self.mpr fun i mem => decide_eq_true (aucun i mem)).symm

theorem Parcouru.reveil (coherent : Coherent k) (mem : attend ∈ k.endormis) (du : echu k attend)
    (reste : Parcouru (changeEtat k attend .activable) k') : Parcouru k k' := by
  have file : (changeEtat k attend .activable).endormis = k.endormis.erase attend := by
    simp [changeEtat, Noyau.modifie]
  have memeEcheance : ∀ i, echu (changeEtat k attend .activable) i = echu k i := by
    intro i
    unfold echu
    rw [changeEtat_champs]
    rfl
  refine ⟨reste.coherent, fun i => ?_, ?_⟩
  · have dedans : i ∈ (changeEtat k attend .activable).endormis ↔ i ≠ attend ∧ i ∈ k.endormis := by
      rw [file, coherent.endormis_nodup.mem_erase_iff]
    rw [reste.table, changeEtat_table]
    simp only [dedans, memeEcheance]
    by_cases meme : i = attend
    · rw [meme, if_neg fun tous => tous.1.1 rfl, if_pos rfl, if_pos ⟨mem, du⟩]
    · simp only [meme, ne_eq, not_false_eq_true, true_and, if_false]
  · rw [reste.endormis, file]
    simp only [memeEcheance]
    exact filter_erase (by simp [du])

theorem parcourEndormis_parcouru (coherent : Coherent k) {n : Nat}
    (assez : k.endormis.length ≤ n) : ∃ k', parcourEndormis n k = .ok k' ∧ Parcouru k k' := by
  induction n generalizing k with
  | zero =>
      have vide := List.eq_nil_of_length_eq_zero (Nat.le_zero.mp assez)
      refine ⟨k, by rw [parcourEndormis, vide]; rfl, .aucun coherent fun i mem => ?_⟩
      rw [vide] at mem
      cases mem
  | succ n ih =>
      rw [parcourEndormis]
      split
      · next aucun =>
          exact ⟨k, rfl, .aucun coherent (List.find?_eq_none.mp aucun)⟩
      · next attend trouve =>
          have mem := List.mem_of_find?_eq_some trouve
          have dort := (coherent.endormis_mem attend).mp mem
          have run : definirEtat k attend .activable = .ok (changeEtat k attend .activable) :=
            definirEtat_change coherent.toRangement simple_activable (by simp [dort]) (by simp [dort])
          have coherent' : Coherent (changeEtat k attend .activable) :=
            changeEtat_coherent coherent simple_activable (by simp [dort])
          have plusCourte : (changeEtat k attend .activable).endormis.length ≤ n := by
            have file : (changeEtat k attend .activable).endormis = k.endormis.erase attend := by
              simp [changeEtat, Noyau.modifie]
            rw [file, List.length_erase_of_mem mem]
            omega
          obtain ⟨k', fin, parcouru⟩ := ih coherent' plusCourte
          refine ⟨k', ?_, parcouru.reveil coherent mem (List.find?_some trouve)⟩
          simp only [run, bind, Except.bind, fin]

end Parcours

/-- `tic_PIT` makes ready the sleepers whose tick has come, and the others sleep on in the
same order, before it calls `ordonnancer`. -/
theorem ticPIT_reveils (k : Noyau) (coherent : Coherent k) :
    ∃ k', parcourEndormis k.endormis.length { k with horloge := k.horloge + 1 } = .ok k' ∧
      ticPIT k = ordonnancer k' ∧
      (∀ i ∈ k.endormis, (k.table i).waitIemeInterruptionClock ≤ k.horloge + 1 →
        k'.table i = { k.table i with etat := .activable } ∧ k'.activables.count i = 1) ∧
      Ascending k'.prioDe k'.activables ∧
      (∀ i ∈ k.endormis, ¬ (k.table i).waitIemeInterruptionClock ≤ k.horloge + 1 →
        k'.table i = k.table i ∧ (k'.table i).etat = .bloqueSurSemaphore) ∧
      k'.endormis = k.endormis.filter (fun i =>
        ¬ (k.table i).waitIemeInterruptionClock ≤ k.horloge + 1) ∧
      ∀ i, i ∉ k.endormis → k'.table i = k.table i := by
  have avance : Coherent { k with horloge := k.horloge + 1 } :=
    coherent.transport (k := k) (.of_table rfl rfl rfl rfl)
  obtain ⟨k', fin, parcouru⟩ := parcourEndormis_parcouru avance le_rfl
  refine ⟨k', fin, ?_, fun i mem du => ?_, parcouru.coherent.activables_tries, fun i mem tard => ?_,
    ?_, fun i absent => ?_⟩
  · rw [ticPIT]
    exact congrArg (· >>= ordonnancer) fin
  · have entree := parcouru.table i
    rw [if_pos ⟨mem, decide_eq_true du⟩] at entree
    refine ⟨entree, List.count_eq_one_of_mem parcouru.coherent.activables_nodup ?_⟩
    rw [parcouru.coherent.activables_mem, entree]
  · have entree := parcouru.table i
    rw [if_neg fun ⟨_, du⟩ => tard (of_decide_eq_true du)] at entree
    exact ⟨entree, by rw [entree]; exact (coherent.endormis_mem i).mp mem⟩
  · rw [parcouru.endormis]
    simp only [echu, decide_eq_true_eq]
  · rw [parcouru.table, if_neg fun ⟨mem, _⟩ => absent mem]

theorem ticPIT_reveils_exemple : ∃ k k', Atteint Env.exemple (fun _ _ => true) k ∧
    k.endormis = [3, 1, 2] ∧
    parcourEndormis k.endormis.length { k with horloge := k.horloge + 1 } = .ok k' ∧
    (k'.table 1).etat = .activable ∧ (k'.table 3).etat = .activable ∧ k'.endormis = [2] := by
  obtain ⟨k, atteint, test⟩ := Atteint.of_verifier Env.exemple (C := fun _ _ => true)
    (l := [demarrer 0, .reprise, demarrer 3, .reprise, .appel (.waitClock 1), .reprise,
      demarrer 4, .reprise, .appel (.waitClock 9), .reprise,
      demarrer 2, .reprise, .appel (.waitClock 0), .reprise])
    (T := fun k => decide (k.pidActif = some 0 ∧ k.endormis = [3, 1, 2] ∧ k.horloge = 0 ∧
      (k.table 1).waitIemeInterruptionClock = 1 ∧ (k.table 2).waitIemeInterruptionClock = 9 ∧
      (k.table 3).waitIemeInterruptionClock = 0))
    (by decide +kernel)
  obtain ⟨actif, endormis, horloge, un, deux, trois⟩ := of_decide_eq_true test
  have coherent := (enCours_of_atteint Env.exemple atteint actif).interne.valide.coherent
  obtain ⟨k', fin, -, dus, -, -, reste, -⟩ := ticPIT_reveils k coherent
  refine ⟨k, k', atteint, endormis, fin, ?_, ?_, ?_⟩
  · rw [(dus 1 (by simp [endormis]) (by rw [un, horloge]; decide)).1]
  · rw [(dus 3 (by simp [endormis]) (by rw [trois, horloge]; decide)).1]
  · simp only [reste, endormis, horloge]
    simp [List.filter, un, deux, trois]

end ProjetSysteme.Properties
