/- Properties/HashLookup
   source: kernel/hash.c
   digest: The search of the hash table ends in any table with an empty slot. -/

import ProjetSysteme.Invariant.Hash

set_option autoImplicit false
set_option relaxedAutoImplicit false

namespace ProjetSysteme.Properties

open Kernel Invariant

/-- The slot that the search for a hash looks at after `n` turns satisfies `P`. -/
def Vu (map : HashT) (hash : Mot) (P : HashSlot → Prop) (n : Nat) : Prop :=
  ∃ s, map.table[position hash map.mask n]? = some s ∧ P s

/-- An SL_EMPTY slot. -/
def estVide (s : HashSlot) : Prop := s.mode = .empty

/-- An SL_DELETED slot. -/
def estLibere (s : HashSlot) : Prop := s.mode = .deleted

/-- An active slot of the key. -/
def estCle (map : HashT) (key hash : Mot) (s : HashSlot) : Prop := s.mode = .active ∧ trouve map key hash s = true

/-- The first turn that satisfies `P`. -/
def Premier (P : Nat → Prop) (n : Nat) : Prop := P n ∧ ∀ i < n, ¬ P i

theorem exists_premier {P : Nat → Prop} {n : Nat} (holds : P n) : ∃ m ≤ n, Premier P m := by
  classical
  have some_ : ∃ n, P n := ⟨n, holds⟩
  exact ⟨Nat.find some_, Nat.find_le holds, Nat.find_spec some_, fun i before => Nat.find_min some_ before⟩

theorem Premier.unique {P : Nat → Prop} {n m : Nat} (one : Premier P n) (two : Premier P m) : n = m := by
  rcases Nat.lt_trichotomy n m with before | same | after
  · exact absurd one.1 (two.2 n before)
  · exact same
  · exact absurd two.1 (one.2 m after)

section Boucle

variable {map : HashT} {key hash : Mot}

/-- What `freeslot` is after `n` turns: the first slot seen whose key was removed. -/
def Retenu (map : HashT) (hash : Mot) (n : Nat) : Option Nat → Prop
  | none => ∀ i < n, ¬ Vu map hash estLibere i
  | some libre => ∃ m < n, Premier (Vu map hash estLibere) m ∧ libre = position hash map.mask m

private theorem retenu_suivant {n : Nat} {s : HashSlot} {freeslot : Option Nat} (retenu : Retenu map hash n freeslot)
    (ici : map.table[position hash map.mask n]? = some s) :
    Retenu map hash (n + 1)
      (if s.mode = .deleted ∧ freeslot = none then some (position hash map.mask n) else freeslot) := by
  cases freeslot with
  | some libre =>
      obtain ⟨m, avant, premier, place⟩ := retenu
      rw [if_neg fun deux => nomatch deux.2]
      exact ⟨m, Nat.lt_succ_of_lt avant, premier, place⟩
  | none =>
      by_cases libere : s.mode = .deleted
      · rw [if_pos ⟨libere, rfl⟩]
        exact ⟨n, Nat.lt_succ_self n, ⟨⟨s, ici, libere⟩, retenu⟩, rfl⟩
      · rw [if_neg fun deux => libere deux.1]
        intro i avant
        rcases Nat.lt_succ_iff_lt_or_eq.mp avant with plus | rfl
        · exact retenu i plus
        · rintro ⟨s', la, mode⟩
          rw [ici] at la
          cases la
          exact libere mode

private theorem tour_passe {n : Nat} {s : HashSlot} (ici : map.table[position hash map.mask n]? = some s)
    (plein : ¬ Vu map hash estVide n) (autre : ¬ Vu map hash (estCle map key hash) n) :
    TourPasse map key hash (Retenu map hash) n :=
  ⟨s, ici, fun vide => plein ⟨s, ici, vide⟩, fun cle => autre ⟨s, ici, cle⟩, fun _ retenu => retenu_suivant retenu ici⟩

private theorem recherche_cle (dedans : ∀ n, ∃ s, map.table[position hash map.mask n]? = some s) {fin : Nat}
    (pleins : ∀ i < fin, ¬ Vu map hash estVide i) (premier : Premier (Vu map hash (estCle map key hash)) fin)
    {tours : Nat} (assez : fin < tours) : hashLookup tours map key hash = .ok (position hash map.mask fin) := by
  have debut : Retenu map hash 0 none := fun i impossible => absurd impossible (Nat.not_lt_zero i)
  have passe : ∀ i < fin, TourPasse map key hash (Retenu map hash) i := by
    intro i avant
    obtain ⟨s, ici⟩ := dedans i
    exact tour_passe ici (pleins i avant) (premier.2 i avant)
  obtain ⟨s, ici, cle⟩ := premier.1
  obtain ⟨reste, freeslot, -, run⟩ := hashLookup_jusque debut passe assez
  exact run.trans (lookupBoucle_cle ici cle ..)

private theorem recherche_vide (dedans : ∀ n, ∃ s, map.table[position hash map.mask n]? = some s) {vide : Nat}
    (premier : Premier (Vu map hash estVide) vide) (absente : ∀ i < vide, ¬ Vu map hash (estCle map key hash) i)
    {tours : Nat} (assez : vide < tours) :
    ∃ freeslot, Retenu map hash vide freeslot ∧
      hashLookup tours map key hash = .ok (freeslot.getD (position hash map.mask vide)) := by
  have debut : Retenu map hash 0 none := fun i impossible => absurd impossible (Nat.not_lt_zero i)
  have passe : ∀ i < vide, TourPasse map key hash (Retenu map hash) i := by
    intro i avant
    obtain ⟨s, ici⟩ := dedans i
    exact tour_passe ici (premier.2 i avant) (absente i avant)
  obtain ⟨s, ici, mode⟩ := premier.1
  obtain ⟨reste, freeslot, retenu, run⟩ := hashLookup_jusque debut passe assez
  exact ⟨freeslot, retenu, run.trans (lookupBoucle_vide ici mode ..)⟩

end Boucle

/-- In a table of 2^k slots, whatever they hold, every slot is on the path of every
hash, so the search meets an empty slot when there is one. -/
theorem probe_covers_table {map : HashT} {k : Nat} (petit : 3 ≤ k) (grand : k ≤ 31)
    (masque : map.mask.toNat = 2 ^ k - 1) (longueur : map.table.length = 2 ^ k) (hash key : Mot)
    (trou : ∃ s ∈ map.table, s.mode = .empty) :
    (∀ r < 2 ^ k, ∃ n < 7 + 2 ^ k, position hash map.mask n = r) ∧
    ∃ vide p, vide < 7 + 2 ^ k ∧ Premier (Vu map hash estVide) vide ∧
      (∀ tours, vide < tours → hashLookup tours map key hash = .ok p) ∧
      ((∃ n < vide, Premier (Vu map hash (estCle map key hash)) n ∧ p = position hash map.mask n) ∨
        (∀ n < vide, ¬ Vu map hash (estCle map key hash) n) ∧
          ((∃ n < vide, Premier (Vu map hash estLibere) n ∧ p = position hash map.mask n) ∨
            (∀ n < vide, ¬ Vu map hash estLibere n) ∧ p = position hash map.mask vide)) := by
  have couvre : ∀ r < 2 ^ k, ∃ n < 7 + 2 ^ k, position hash map.mask n = r :=
    fun r dans => position_atteint hash masque (by omega) dans
  have dedans : ∀ n, ∃ s, map.table[position hash map.mask n]? = some s := by
    intro n
    have borne : position hash map.mask n < map.table.length := longueur ▸ position_lt hash masque n
    exact ⟨_, List.getElem?_eq_getElem borne⟩
  obtain ⟨s, mem, mode⟩ := trou
  obtain ⟨r, place⟩ := List.mem_iff_getElem?.mp mem
  obtain ⟨n, tot, la⟩ := couvre r (longueur ▸ (List.getElem?_eq_some_iff.mp place).1)
  obtain ⟨vide, avant, premier⟩ := exists_premier (P := Vu map hash estVide) ⟨s, la ▸ place, mode⟩
  refine ⟨couvre, ?_⟩
  by_cases presente : ∃ n < vide, Vu map hash (estCle map key hash) n
  · -- the search ends at the first slot of the key
    obtain ⟨n, nAvant, cle⟩ := presente
    obtain ⟨fin, finAvant, premierCle⟩ := exists_premier cle
    have tot' : fin < vide := by omega
    refine ⟨vide, position hash map.mask fin, by omega, premier, ?_, .inl ⟨fin, tot', premierCle, rfl⟩⟩
    intro tours assez
    exact recherche_cle dedans (fun i iAvant => premier.2 i (by omega)) premierCle (by omega)
  · -- the search ends at the first empty slot
    have absente : ∀ n < vide, ¬ Vu map hash (estCle map key hash) n := fun n nAvant cle => presente ⟨n, nAvant, cle⟩
    by_cases libere : ∃ n < vide, Vu map hash estLibere n
    · obtain ⟨n, nAvant, vu⟩ := libere
      obtain ⟨m, mAvant, premierLibre⟩ := exists_premier vu
      have tot' : m < vide := by omega
      refine ⟨vide, position hash map.mask m, by omega, premier, ?_, .inr ⟨absente, .inl ⟨m, tot', premierLibre, rfl⟩⟩⟩
      intro tours assez
      obtain ⟨freeslot, retenu, run⟩ := recherche_vide dedans premier absente assez
      cases freeslot with
      | none => exact absurd premierLibre.1 (retenu m tot')
      | some libre =>
          obtain ⟨m', -, premier', egal⟩ := retenu
          obtain rfl := premier'.unique premierLibre
          rw [run, egal]
          rfl
    · have aucune : ∀ n < vide, ¬ Vu map hash estLibere n := fun n nAvant vu => libere ⟨n, nAvant, vu⟩
      refine ⟨vide, position hash map.mask vide, by omega, premier, ?_, .inr ⟨absente, .inr ⟨aucune, rfl⟩⟩⟩
      intro tours assez
      obtain ⟨freeslot, retenu, run⟩ := recherche_vide dedans premier absente assez
      cases freeslot with
      | none => exact run
      | some libre =>
          obtain ⟨m, mAvant, premier', -⟩ := retenu
          exact absurd premier'.1 (aucune m mAvant)

theorem probe_covers_table_sept :
    ∃ p, ∀ tours, 15 ≤ tours →
      hashLookup tours
        { fill := 7, count := 0, mask := 7, hfunc := id, cmp := fun _ _ => 0
          table := List.replicate 7 (HashSlot.nul .deleted) ++ [HashSlot.nul .empty] } 5 0xffffffff = .ok p := by
  obtain ⟨-, vide, p, borne, -, run, -⟩ := @probe_covers_table
    { fill := 7, count := 0, mask := 7, hfunc := id, cmp := fun _ _ => 0
      table := List.replicate 7 (HashSlot.nul .deleted) ++ [HashSlot.nul .empty] } 3
    (by decide) (by decide) rfl rfl 0xffffffff 5 ⟨HashSlot.nul .empty, by decide, rfl⟩
  exact ⟨p, fun tours assez => run tours (by omega)⟩

end ProjetSysteme.Properties
