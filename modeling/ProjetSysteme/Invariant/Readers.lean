/- Invariant/Readers
   source: kernel/console.c, shared/queue.h
   digest: The links of the queue of cons_read as a list of processes. -/

import Mathlib.Data.Fintype.Option
import ProjetSysteme.Invariant.Links
import ProjetSysteme.Kernel.Console

set_option autoImplicit false
set_option relaxedAutoImplicit false

namespace ProjetSysteme.Invariant

open Kernel Library.PriorityList Library.Ring

/-- The processes that `queue_top` gives one after the other, as long as `queue_out` takes them off:
the last of the list is served first. -/
def servis : Nat → Links MaillonConsRead → List Indice
  | 0, _ => []
  | n + 1, m =>
    match Maillons.queueTop m .tete with
    | .ok (some (.processus i)) =>
      match Maillons.queueOut m .tete with
      | .ok (m', _) => servis n m' ++ [i]
      | .error _ => [i]
    | _ => []

def lecteurs (k : Noyau) : List Indice := servis (nbProc + 1) k.console.attente

/-- The links are the ring of the processes `l`, and those of the other processes are null. -/
def Chainee (m : Links MaillonConsRead) (l : List Indice) : Prop :=
  Rings m (· = .tete) (fun _ => True) fun _ => l.map .processus

theorem processus_injective : Function.Injective MaillonConsRead.processus :=
  fun _ _ => MaillonConsRead.processus.inj

namespace Chainee

variable {m : Links MaillonConsRead} {l : List Indice} {i p : Indice}

theorem anneau (chainee : Chainee m l) : IsRing m .tete (l.map .processus) := Rings.ring chainee .tete rfl

theorem nodup (chainee : Chainee m l) : l.Nodup :=
  List.Nodup.of_map _ (List.nodup_cons.mp chainee.anneau.nodup).2

theorem length (chainee : Chainee m l) : l.length ≤ nbProc := by
  have court := chainee.nodup.length_le_card
  rwa [Fintype.card_fin] at court

theorem boot : Chainee (Maillons.initListHead { prev := fun _ => none, next := fun _ => none } .tete) [] where
  ring h tete := by
    subst tete
    exact ⟨⟨rfl, rfl⟩, List.nodup_singleton _⟩
  node _ _ _ mem := absurd mem List.not_mem_nil
  apart _ _ tete tete' autre := absurd (tete.trans tete'.symm) autre
  free x _ nonTete _ := by
    cases x with
    | tete => exact absurd rfl nonTete
    | processus i => exact ⟨rfl, rfl⟩

theorem libre (chainee : Chainee m l) (absent : i ∉ l) :
    m.prev (.processus i) = none ∧ m.next (.processus i) = none :=
  Rings.free chainee _ trivial MaillonConsRead.noConfusion fun _ _ mem =>
    absent ((List.mem_map_of_injective processus_injective).mp mem)

theorem couper (chainee : Chainee m l) (absent : i ∉ l) :
    Maillons.initLink m (.processus i) = m := by
  obtain ⟨prev, next⟩ := chainee.libre absent
  have prev' : Function.update m.prev (.processus i) none = m.prev := Function.update_eq_self_iff.mpr prev.symm
  have next' : Function.update m.next (.processus i) none = m.next := Function.update_eq_self_iff.mpr next.symm
  rw [Maillons.initLink, Maillons.ecrirePrev, Maillons.ecrireNext]
  simp only [prev', next']

theorem entrer (chainee : Chainee m l) (prio : MaillonConsRead → Int) (absent : i ∉ l) :
    ∃ m', Maillons.queueAdd m prio (nbProc + 1) (.processus i) .tete = .ok m' ∧
      Chainee m' (place (fun j => prio (.processus j)) i l) := by
  have court : (l.map MaillonConsRead.processus).length < nbProc + 1 := by
    rw [List.length_map]
    exact Nat.lt_succ_of_le chainee.length
  obtain ⟨m', run, anneaux⟩ := queueAdd_anneaux chainee rfl prio MaillonConsRead.noConfusion trivial
    (fun _ _ mem => absent ((List.mem_map_of_injective processus_injective).mp mem)) court
  refine ⟨m', run, Rings.relist anneaux fun h tete => ?_⟩
  subst tete
  rw [Function.update_self]
  exact map_place (fun j => prio (.processus j)) (fun _ => rfl) i l

theorem sortir (chainee : Chainee m l) (dernier : l.getLast? = some p) :
    ∃ m', Maillons.queueOut m .tete = .ok (m', some (.processus p)) ∧ Chainee m' l.dropLast := by
  obtain ⟨m', run, anneaux⟩ := queueOut_anneaux (x := .processus p) chainee rfl
    (by rw [List.getLast?_map, dernier]; rfl)
  refine ⟨m', run, Rings.relist anneaux fun h tete => ?_⟩
  subst tete
  rw [Function.update_self, List.map_dropLast]

theorem sortir_vide (chainee : Chainee m []) : Maillons.queueOut m .tete = .ok (m, none) :=
  queueOut_vide chainee.anneau

theorem servis_eq (chainee : Chainee m l) {n : Nat} (assez : l.length ≤ n) : servis n m = l := by
  induction n generalizing m l with
  | zero => rw [List.eq_nil_of_length_eq_zero (Nat.le_zero.mp assez), servis]
  | succ n ih =>
      have premier := queueTop_eq chainee.anneau
      rw [servis, premier, List.getLast?_map]
      cases dernier : l.getLast? with
      | none => exact (List.getLast?_eq_none_iff.mp dernier).symm
      | some p =>
          obtain ⟨m', run, reste⟩ := chainee.sortir dernier
          have court : l.dropLast.length ≤ n := by
            rw [List.length_dropLast]
            omega
          simp only [Option.map_some, run, ih reste court]
          exact (split_last dernier).symm

end Chainee

instance : Fintype MaillonConsRead := Fintype.ofEquiv (Option Indice)
  { toFun := fun i => i.elim .tete .processus
    invFun := fun
      | .tete => none
      | .processus i => some i
    left_inv := by rintro (_ | i) <;> rfl
    right_inv := by rintro (_ | i) <;> rfl }

theorem card_maillons : Fintype.card MaillonConsRead = nbProc + 1 :=
  (Fintype.ofEquiv_card _).trans ((Fintype.card_option).trans (by rw [Fintype.card_fin]))

theorem entrerConsRead_assez (k : Noyau) (i : Indice) {tours : Nat} (assez : nbProc + 1 ≤ tours) :
    Noyau.avecMemoire (Maillons.queueAdd k.console.attente (prioLecteur k) tours (.processus i) .tete) =
      entrerConsRead k i := by
  rw [← card_maillons] at assez
  rw [queueAdd_assez assez, card_maillons, entrerConsRead]

theorem lecteurs_of_chainee {k : Noyau} {l : List Indice} (chainee : Chainee k.console.attente l) :
    lecteurs k = l :=
  chainee.servis_eq (chainee.length.trans (Nat.le_succ nbProc))

theorem lecteurs_congr {k k' : Noyau} (attente : k'.console.attente = k.console.attente) :
    lecteurs k' = lecteurs k := by
  rw [lecteurs, attente, lecteurs]

end ProjetSysteme.Invariant
