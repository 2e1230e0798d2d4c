/- Properties/RoundRobin
   source: kernel/process.c, shared/queue.h
   digest: Successive calls of ordonnancer among processes of one priority. -/

import ProjetSysteme.Invariant.Reachable
import ProjetSysteme.Library.RoundRobin
import Mathlib.Data.Fintype.Card

set_option autoImplicit false
set_option relaxedAutoImplicit false

namespace ProjetSysteme.Properties

open Kernel Invariant Library.PriorityList Library.RoundRobin

/-- `n` successive calls of `ordonnancer`: the states after each of them, and the last one. -/
def ordonnancements : Nat → Noyau → Except Arret (List Noyau × Noyau)
  | 0, k => .ok ([], k)
  | n + 1, k => do
    let k ← ordonnancer k
    let (etapes, fin) ← ordonnancements n k
    .ok (k :: etapes, fin)

/-- The ACTIF and ACTIVABLE processes that have the priority of `a`. -/
def egaux (k : Noyau) (a : Indice) : Finset Indice :=
  Finset.univ.filter fun j => ((k.table j).etat = .actif ∨ (k.table j).etat = .activable) ∧
    (k.table j).prio = (k.table a).prio

def avecOrdre (k : Noyau) (s : Indice × List Indice) : Noyau :=
  { k with
    pidActif := some s.1
    activables := s.2
    table := fun j => { k.table j with
      etat := if j = s.1 then .actif else if s.2.contains j then .activable else (k.table j).etat } }

/-- The order `s` is made of the running process and the ready processes of `k`. -/
structure Ordre (k : Noyau) (a : Indice) (s : Indice × List Indice) : Prop where
  perm : (s.1 :: s.2).Perm (a :: k.activables)
  tries : Ascending k.prioDe s.2

section Tour

variable {k : Noyau} {a : Indice} {s : Indice × List Indice}

theorem avecOrdre_soi (coherent : Coherent k) (actif : k.pidActif = some a)
    (etat : (k.table a).etat = .actif) : avecOrdre k (a, k.activables) = k := by
  refine (Noyau.eq_of_table (k := k) ?_ fun j => ?_)
  · simp only [avecOrdre, ← actif]
  · simp only [avecOrdre, List.contains_iff_mem, coherent.activables_mem]
    split
    · next meme => rw [meme, ← etat]
    · split
      · next activable => rw [← activable]
      · rfl

theorem Ordre.suivant (ordre : Ordre k a s) : Ordre k a (turn k.prioDe s) := by
  obtain ⟨perm, tries⟩ := ordre
  unfold turn
  split
  · exact ⟨perm, tries⟩
  · next pr dernier =>
      split
      · exact ⟨perm, tries⟩
      · refine ⟨?_, place_ascending _ _ (tries.sublist _ (List.dropLast_sublist _))⟩
        refine List.Perm.trans ?_ perm
        have fin : (pr :: s.2.dropLast).Perm s.2 := by
          nth_rewrite 2 [split_last dernier]
          exact (List.perm_append_singleton pr _).symm
        exact ((place_perm k.prioDe s.1 _).cons pr).trans ((List.Perm.swap s.1 pr _).trans (fin.cons s.1))

theorem Ordre.courant (coherent : Coherent k) (actif : k.pidActif = some a)
    (etat : (k.table a).etat = .actif) (ordre : Ordre k a s) (j : Indice) :
    (j = s.1 ∨ j ∈ s.2) ↔ Courant (k.table j).etat := by
  rw [← List.mem_cons, ordre.perm.mem_iff, List.mem_cons, coherent.activables_mem]
  constructor
  · rintro (rfl | activable)
    · exact .inl etat
    · exact .inr activable
  · rintro (estActif | activable)
    · exact .inl (Option.some.inj ((coherent.actif_seul j estActif).symm.trans actif))
    · exact .inr activable

theorem avecOrdre_etat (k : Noyau) (s : Indice × List Indice) (j : Indice) :
    ((avecOrdre k s).table j).etat =
      if j = s.1 then .actif else if j ∈ s.2 then .activable else (k.table j).etat := by
  simp only [avecOrdre, List.contains_iff_mem]

theorem avecOrdre_etat_iff (courants : ∀ j, (j = s.1 ∨ j ∈ s.2) ↔ Courant (k.table j).etat)
    {e : EtatProcessus} (actif : e ≠ .actif) (activable : e ≠ .activable) (j : Indice) :
    ((avecOrdre k s).table j).etat = e ↔ (k.table j).etat = e := by
  rw [avecOrdre_etat]
  split
  · next tete => simp [actif.symm, ((courants j).mp (.inl tete)).simple_ne actif activable]
  · split
    · next mem => simp [activable.symm, ((courants j).mp (.inr mem)).simple_ne actif activable]
    · rfl

theorem avecOrdre_rangement (coherent : Coherent k) (nodup : (s.1 :: s.2).Nodup)
    (tries : Ascending k.prioDe s.2)
    (courants : ∀ j, (j = s.1 ∨ j ∈ s.2) ↔ Courant (k.table j).etat) :
    Rangement (avecOrdre k s) where
  pid_indice := coherent.pid_indice
  pid_mort j := (coherent.pid_mort j).trans (avecOrdre_etat_iff courants (by simp) (by simp) j).symm
  activables_mem j := by
    obtain ⟨absent, -⟩ := List.nodup_cons.mp nodup
    change j ∈ s.2 ↔ _
    rw [avecOrdre_etat]
    split
    · next tete => simp [tete, absent]
    · next autre =>
        split
        · next mem => simp [mem]
        · next hors =>
            have exclu := mt (courants j).mpr (not_or.mpr ⟨autre, hors⟩)
            simp only [hors, false_iff]
            exact fun activable => exclu (.inr activable)
  activables_nodup := (List.nodup_cons.mp nodup).2
  activables_tries := tries
  endormis_mem j :=
    (coherent.endormis_mem j).trans (avecOrdre_etat_iff courants (by simp) (by simp) j).symm
  endormis_nodup := coherent.endormis_nodup

theorem elire_prioDe (k : Noyau) (pr : Indice) : (elire k pr).prioDe = k.prioDe := by
  funext j
  rw [Noyau.prioDe, elire_champs]
  rfl

theorem ceder_avecOrdre {pr : Indice} (dernier : s.2.getLast? = some pr) (nodup : (s.1 :: s.2).Nodup)
    (reveille : s.1 ∉ k.endormis) :
    ceder (elire (avecOrdre k s) pr) (some s.1) =
      avecOrdre k (pr, place k.prioDe s.1 s.2.dropLast) := by
  obtain ⟨absent, nodup'⟩ := List.nodup_cons.mp nodup
  have mem := last_mem dernier
  have autre : s.1 ≠ pr := fun meme => absent (meme ▸ mem)
  have hors : s.1 ∉ s.2.dropLast := fun mem => absent ((List.dropLast_sublist _).subset mem)
  have actif : ((elire (avecOrdre k s) pr).table s.1).etat = .actif := by
    rw [elire_etat, if_neg autre, avecOrdre_etat, if_pos rfl]
  have prio : (elire (avecOrdre k s) pr).prioDe = k.prioDe := elire_prioDe _ pr
  have file : (changeEtat (elire (avecOrdre k s) pr) s.1 .activable).activables =
      place k.prioDe s.1 s.2.dropLast := by
    simp only [changeEtat, Noyau.modifie, if_true, prio]
    exact congrArg (place k.prioDe s.1) (List.erase_of_not_mem hors)
  have dort : (changeEtat (elire (avecOrdre k s) pr) s.1 .activable).endormis = k.endormis := by
    simp only [changeEtat, Noyau.modifie, reduceCtorEq, if_false]
    exact List.erase_of_not_mem reveille
  rw [ceder, if_pos actif]
  refine Noyau.eq_of_table ?_ fun j => ?_
  · rw [changeEtat_noyau, file, dort]
    rfl
  · rw [changeEtat_champs, changeEtat_etat, elire_champs, elire_etat, avecOrdre_etat]
    simp only [avecOrdre, List.contains_iff_mem, mem_place]
    congr 1
    by_cases elu : j = pr
    · rw [if_neg (elu ▸ autre.symm), if_pos elu, if_pos elu]
    · have reste : j ∈ s.2.dropLast ↔ j ∈ s.2 :=
        (mem_dropLast nodup' dernier).trans (and_iff_left elu)
      rw [if_neg elu, if_neg elu]
      by_cases tete : j = s.1
      · rw [if_pos tete, if_pos (.inl tete)]
      · simp only [tete, false_or, if_false, reste]

theorem Ordre.nodup (coherent : Coherent k) (etat : (k.table a).etat = .actif)
    (ordre : Ordre k a s) : (s.1 :: s.2).Nodup := by
  refine ordre.perm.nodup_iff.mpr (List.nodup_cons.mpr ⟨fun mem => ?_, coherent.activables_nodup⟩)
  rw [coherent.activables_mem, etat] at mem
  cases mem

theorem ordonnancer_turn (coherent : Coherent k) (etat : (k.table a).etat = .actif)
    (ordre : Ordre k a s) :
    ordonnancer (avecOrdre k s) = .ok (avecOrdre k (turn k.prioDe s)) := by
  have nodup := ordre.nodup coherent etat
  have courants := ordre.courant coherent (coherent.actif_seul a etat) etat
  have range := avecOrdre_rangement coherent nodup ordre.tries courants
  have eveille : s.1 ∉ k.endormis := by
    intro mem
    have dort := (coherent.endormis_mem s.1).mp mem
    exact ((courants s.1).mp (.inl rfl)).simple_ne (by simp) (by simp) dort
  have prio : ∀ pr, resteActif (avecOrdre k s) pr = true ↔ k.prioDe pr < k.prioDe s.1 := by
    intro pr
    simp [resteActif, avecOrdre, Noyau.prioDe]
  unfold turn
  rcases ordonnancer_cas range with
    ⟨vide, run⟩ | ⟨pr, dernier, ⟨reste, run⟩ | ⟨cede, -, run⟩ | ⟨-, soi, -⟩⟩
  · have vide' : s.2 = [] := vide
    rw [run, vide']
    rfl
  · have dernier' : s.2.getLast? = some pr := dernier
    rw [prio] at reste
    rw [run, dernier']
    simp only [if_pos reste]
  · have dernier' : s.2.getLast? = some pr := dernier
    rw [← Bool.not_eq_true, prio] at cede
    rw [run, dernier']
    simp only [if_neg cede]
    exact congrArg Except.ok (ceder_avecOrdre dernier' nodup eveille)
  · have meme : s.1 = pr := Option.some.inj soi
    exact absurd (meme ▸ last_mem dernier) (List.nodup_cons.mp nodup).1

theorem ordonnancements_turns (coherent : Coherent k) (etat : (k.table a).etat = .actif) (n : Nat)
    (ordre : Ordre k a s) : ∃ etapes,
    ordonnancements n (avecOrdre k s) = .ok (etapes, avecOrdre k ((turn k.prioDe)^[n] s)) ∧
    etapes.map Noyau.pidActif = (elected k.prioDe n s).map some ∧
    ∀ e ∈ etapes, ∃ j, e.pidActif = some j ∧ (e.table j).etat = .actif := by
  induction n generalizing s with
  | zero => exact ⟨[], rfl, rfl, fun e mem => absurd mem List.not_mem_nil⟩
  | succ n ih =>
      obtain ⟨etapes, run, elus, actifs⟩ := ih ordre.suivant
      refine ⟨avecOrdre k (turn k.prioDe s) :: etapes, ?_, ?_, ?_⟩
      · rw [ordonnancements, ordonnancer_turn coherent etat ordre]
        simp only [bind, Except.bind, run]
        rfl
      · rw [List.map_cons, elus]
        rfl
      · rintro e mem
        rcases List.mem_cons.mp mem with rfl | mem
        · exact ⟨_, rfl, by rw [avecOrdre_etat, if_pos rfl]⟩
        · exact actifs e mem

end Tour

theorem mem_egaux {k : Noyau} {a : Indice} (coherent : Coherent k)
    (etat : (k.table a).etat = .actif) (j : Indice) :
    j ∈ egaux k a ↔ j ∈ a :: k.activables.filter fun i => k.prioDe i = k.prioDe a := by
  rw [egaux, Finset.mem_filter, List.mem_cons, List.mem_filter, coherent.activables_mem,
    decide_eq_true_eq]
  constructor
  · rintro ⟨-, actif | activable, prio⟩
    · refine .inl (Option.some.inj ?_)
      rw [← coherent.actif_seul j actif, ← coherent.actif_seul a etat]
    · exact .inr ⟨activable, prio⟩
  · rintro (rfl | ⟨activable, prio⟩)
    · exact ⟨Finset.mem_univ _, .inl etat, rfl⟩
    · exact ⟨Finset.mem_univ _, .inr activable, prio⟩

/-- As many calls of `ordonnancer` as there are processes of the greatest priority make
each of them run once and no other, and restore the state. -/
theorem ordonnancements_egaux (k : Noyau) (coherent : Coherent k) (a : Indice)
    (actif : (k.table a).etat = .actif)
    (prioritaire : ∀ j, (k.table j).etat = .activable → (k.table j).prio ≤ (k.table a).prio) :
    ∃ etapes, ordonnancements (egaux k a).card k = .ok (etapes, k) ∧
      (∀ j ∈ egaux k a, (etapes.map Noyau.pidActif).count (some j) = 1) ∧
      ∀ e ∈ etapes, ∃ j ∈ egaux k a, e.pidActif = some j ∧ (e.table j).etat = .actif := by
  have depart := avecOrdre_soi coherent (coherent.actif_seul a actif) actif
  have ordre : Ordre k a (a, k.activables) := ⟨.refl _, coherent.activables_tries⟩
  have nodup : (a :: k.activables.filter fun i => k.prioDe i = k.prioDe a).Nodup :=
    (ordre.nodup coherent actif).sublist (List.filter_sublist.cons_cons a)
  have nombre : (egaux k a).card =
      (a :: k.activables.filter fun i => k.prioDe i = k.prioDe a).length := by
    rw [← List.toFinset_card_of_nodup nodup]
    congr 1
    ext j
    rw [List.mem_toFinset, mem_egaux coherent actif]
  obtain ⟨elus, retour⟩ := lap coherent.activables_tries
    fun j mem => prioritaire j ((coherent.activables_mem j).mp mem)
  obtain ⟨etapes, run, suite, actifs⟩ := ordonnancements_turns coherent actif (egaux k a).card ordre
  rw [nombre] at run suite
  rw [retour, depart] at run
  rw [elus] at suite
  refine ⟨etapes, nombre ▸ run, fun j mem => ?_, fun e mem => ?_⟩
  · rw [suite, List.count_map_of_injective _ _ (Option.some_injective _), List.count_reverse]
    exact List.count_eq_one_of_mem nodup ((mem_egaux coherent actif j).mp mem)
  · obtain ⟨j, pid, etat⟩ := actifs e mem
    refine ⟨j, (mem_egaux coherent actif j).mpr ?_, pid, etat⟩
    have elu := List.mem_map_of_mem (f := Noyau.pidActif) mem
    rw [suite, pid] at elu
    simpa [or_comm] using elu

theorem ordonnancements_egaux_exemple : ∃ k, Atteint Env.exemple (fun _ _ => true) k ∧
    k.pidActif = some 3 ∧ k.activables = [0, 1, 2] ∧ (egaux k 3).card = 2 ∧
    ∃ etapes, ordonnancements (egaux k 3).card k = .ok (etapes, k) ∧
      (∀ j ∈ egaux k 3, (etapes.map Noyau.pidActif).count (some j) = 1) ∧
      ∀ e ∈ etapes, ∃ j ∈ egaux k 3, e.pidActif = some j ∧ (e.table j).etat = .actif := by
  obtain ⟨k, atteint, test⟩ := Atteint.of_verifier Env.exemple (C := fun _ _ => true)
    (l := [demarrer 0, .reprise, demarrer 2, .reprise, demarrer 3, .reprise, demarrer 3, .reprise])
    (T := fun k => decide (k.pidActif = some 3 ∧ k.activables = [0, 1, 2] ∧ (egaux k 3).card = 2 ∧
      (k.table 3).etat = .actif ∧
      ∀ j, (k.table j).etat = .activable → (k.table j).prio ≤ (k.table 3).prio))
    (by decide +kernel)
  obtain ⟨actif, activables, nombre, etat, prioritaire⟩ := of_decide_eq_true test
  have coherent := (enCours_of_atteint Env.exemple atteint actif).interne.valide.coherent
  exact ⟨k, atteint, actif, activables, nombre,
    ordonnancements_egaux k coherent 3 etat prioritaire⟩

end ProjetSysteme.Properties
