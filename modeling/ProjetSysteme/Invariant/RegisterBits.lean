/- Invariant/RegisterBits
   source: shared/doprnt.c
   digest: The strings that name the bits of a register, and what is printed of them. -/

import ProjetSysteme.Invariant.Format

set_option autoImplicit false
set_option relaxedAutoImplicit false

namespace ProjetSysteme.Invariant.Format

open Kernel.Format
open Kernel.Numeral (Octet Entier printnum)

/-- A part of a register: the bit `i`, or the bits `j` to `i`, counted from 1. -/
inductive Partie
  | bit (i : Nat) (nom : List Octet)
  | champ (i j : Nat) (nom : List Octet)

namespace Partie

/-- The characters of the string that describe a part. -/
def code : Partie → List Octet
  | bit i nom => BitVec.ofNat 8 i :: nom
  | champ i j nom => BitVec.ofNat 8 i :: BitVec.ofNat 8 j :: nom

def nom : Partie → List Octet
  | bit _ nom => nom
  | champ _ _ nom => nom

def Dedans : Partie → Prop
  | bit i nom => 1 ≤ i ∧ i ≤ 32 ∧ nom ≠ []
  | champ i j _ => 1 ≤ j ∧ j ≤ i ∧ i ≤ 32

structure Juste (p : Partie) : Prop where
  dedans : p.Dedans
  lettres : ∀ c ∈ p.nom, deNom c = true

/-- What is printed of a part: the name of a bit that is set, the name and the value of a field. -/
def texte (u : Entier) (base : Nat) : Partie → Option (List Octet)
  | bit i nom => if u.getLsbD (i - 1) then some nom else none
  | champ i j nom => some (nom ++ printnum (BitVec.ofNat 32 (u.toNat / 2 ^ (j - 1) % 2 ^ (i - j + 1))) base)

end Partie

/-- The texts, each after its separator; `any` tells whether one has been printed. -/
def separer : Bool → List (List Octet) → List Octet
  | _, [] => []
  | any, t :: textes => (if any then 0x2c else 0x3c) :: t ++ separer true textes

variable {u : Entier} {base : Nat} {parties : List Partie}

theorem controle (i : Nat) (haut : i ≤ 32) : deNom (BitVec.ofNat 8 i) = false ∧ (BitVec.ofNat 8 i).toInt = i ∧
    (BitVec.ofNat 8 i).toNat = i := by
  have tous : ∀ i : Fin 33, deNom (BitVec.ofNat 8 i.val) = false ∧ (BitVec.ofNat 8 i.val).toInt = i.val ∧
      (BitVec.ofNat 8 i.val).toNat = i.val := by
    decide +kernel
  exact tous ⟨i, by omega⟩

theorem masque_champ (i j : Nat) (ordre : j ≤ i) (haut : i ≤ 32) (bas : 1 ≤ j) :
    (u >>> (j - 1)) &&& (((2 : Entier) <<< (i - j)) - 1) = BitVec.ofNat 32 (u.toNat / 2 ^ (j - 1) % 2 ^ (i - j + 1)) := by
  have masque : ((2 : Entier) <<< (i - j)) - 1 = BitVec.ofNat 32 (2 ^ (i - j + 1) - 1) := by
    have tous : ∀ k : Fin 32, ((2 : Entier) <<< k.val) - 1 = BitVec.ofNat 32 (2 ^ (k.val + 1) - 1) := by
      decide +kernel
    exact tous ⟨i - j, by omega⟩
  have borne : 2 ^ (i - j + 1) ≤ 2 ^ 32 := Nat.pow_le_pow_right (by omega) (by omega)
  have petit := Nat.mod_lt (u.toNat / 2 ^ (j - 1)) (Nat.two_pow_pos (i - j + 1))
  apply BitVec.eq_of_toNat_eq
  rw [masque, BitVec.toNat_and, BitVec.toNat_ushiftRight, BitVec.toNat_ofNat, BitVec.toNat_ofNat,
    Nat.shiftRight_eq_div_pow, Nat.mod_eq_of_lt (by omega : 2 ^ (i - j + 1) - 1 < 2 ^ 32),
    Nat.and_two_pow_sub_one_eq_mod, Nat.mod_eq_of_lt (petit.trans_le borne)]

theorem bit_present (i : Nat) (haut : i < 32) : u &&& ((1 : Entier) <<< i) ≠ 0 ↔ u.getLsbD i = true := by
  rw [show (1 : Entier) <<< i = BitVec.twoPow 32 i from (BitVec.twoPow_eq 32 i).symm, BitVec.and_twoPow]
  split
  · next present =>
      rw [present]
      refine iff_of_true (fun nul => ?_) rfl
      have bit := congrArg (fun x : Entier => x.getLsbD i) nul
      simp [haut] at bit
  · next absent => simp [absent]

theorem code_suite (justes : ∀ p ∈ parties, p.Juste) : parties.flatMap Partie.code = [] ∨
    ∃ c suite, parties.flatMap Partie.code = c :: suite ∧ deNom c = false := by
  cases parties with
  | nil => exact .inl rfl
  | cons p parties =>
      have dedans := (justes p (List.mem_cons_self ..)).dedans
      right
      cases p with
      | bit i nom => exact ⟨_, _, rfl, (controle i dedans.2.1).1⟩
      | champ i j nom => exact ⟨_, _, rfl, (controle i dedans.2.2).1⟩

theorem nom_fin {nom : List Octet} (lettres : ∀ c ∈ nom, deNom c = true) (justes : ∀ p ∈ parties, p.Juste) :
    (nom ++ parties.flatMap Partie.code).takeWhile deNom = nom ∧
      (nom ++ parties.flatMap Partie.code).dropWhile deNom = parties.flatMap Partie.code := by
  rw [List.takeWhile_append_of_pos lettres, List.dropWhile_append_of_pos lettres]
  rcases code_suite justes with vide | ⟨c, suite, debut, fin⟩
  · rw [vide]
    simp
  · rw [debut, List.takeWhile_cons_of_neg (by simp [fin]), List.dropWhile_cons_of_neg (by simp [fin])]
    simp

theorem nommerBits_eq (bas : 2 ≤ base) (haut : base ≤ 16) (justes : ∀ p ∈ parties, p.Juste) (any : Bool) {tours : Nat}
    (assez : parties.length ≤ tours) : nommerBits u base tours any (parties.flatMap Partie.code) =
      some (separer any (parties.filterMap (Partie.texte u base)),
        any || !(parties.filterMap (Partie.texte u base)).isEmpty) := by
  induction parties generalizing any tours with
  | nil => cases tours <;> simp [nommerBits, separer]
  | cons p parties ih =>
      obtain ⟨tours, rfl⟩ : ∃ t, tours = t + 1 := ⟨tours - 1, by simp at assez; omega⟩
      have suivantes : ∀ q ∈ parties, q.Juste := fun q mem => justes q (List.mem_cons_of_mem _ mem)
      have reste : parties.length ≤ tours := Nat.le_of_succ_le_succ assez
      obtain ⟨dedans, lettres⟩ := justes p (List.mem_cons_self ..)
      obtain ⟨pris, laisses⟩ := nom_fin lettres suivantes
      cases p with
      | bit i nom =>
          rw [Partie.nom] at pris laisses lettres
          obtain ⟨un, borne, nonVide⟩ := dedans
          obtain ⟨-, signe, valeur⟩ := controle i borne
          obtain ⟨c, nom, rfl⟩ := List.exists_cons_of_ne_nil nonVide
          have lettre := lettres c (List.mem_cons_self ..)
          have nonNul : BitVec.ofNat 8 i ≠ 0 := fun nul => by
            rw [nul] at valeur
            exact absurd valeur (by simp; omega)
          have place : ¬ ((BitVec.ofNat 8 i).toInt < 1 ∨ 32 < (BitVec.ofNat 8 i).toInt) := by omega
          rw [List.flatMap_cons, Partie.code, List.cons_append, nommerBits, if_neg nonNul, List.cons_append]
          dsimp only
          rw [if_neg (by simp [lettre]), if_neg place, ← List.cons_append, pris, laisses, valeur, List.filterMap_cons,
            Partie.texte]
          by_cases present : u.getLsbD (i - 1) = true
          · rw [if_pos ((bit_present (i - 1) (by omega)).mpr present), if_pos present, ih suivantes true reste]
            simp [separer]
          · rw [if_neg fun mis => present ((bit_present (i - 1) (by omega)).mp mis), if_neg present,
              ih suivantes any reste]
      | champ i j nom =>
          rw [Partie.nom] at pris laisses
          obtain ⟨un, ordre, borne⟩ := dedans
          obtain ⟨-, signe, valeur⟩ := controle i borne
          obtain ⟨fin, signe', valeur'⟩ := controle j (ordre.trans borne)
          have nonNul : BitVec.ofNat 8 i ≠ 0 := fun nul => by
            rw [nul] at valeur
            exact absurd valeur (by simp; omega)
          have place : ¬ ((BitVec.ofNat 8 i).toInt < (BitVec.ofNat 8 j).toInt ∨ (BitVec.ofNat 8 j).toInt < 1 ∨
              32 < (BitVec.ofNat 8 j).toInt ∨ 31 < (BitVec.ofNat 8 i).toInt - (BitVec.ofNat 8 j).toInt) := by
            omega
          have base_juste : ¬ (base < 2 ∨ 16 < base) := by omega
          rw [List.flatMap_cons, Partie.code, List.cons_append, nommerBits, if_neg nonNul, List.cons_append]
          dsimp only
          rw [if_pos (by simp [fin]), if_neg place, pris, laisses, valeur, valeur', masque_champ i j ordre borne un,
            List.filterMap_cons, Partie.texte]
          simp only [printnumBase, if_neg base_juste, bind, Option.bind_some, ih suivantes true reste]
          simp [separer]

theorem printBits_eq (bas : 2 ≤ base) (haut : base ≤ 16) (justes : ∀ p ∈ parties, p.Juste) (args : List Argument) :
    printBits (.mot u :: .chaine (some (BitVec.ofNat 8 base :: parties.flatMap Partie.code)) :: args) =
      some (printnum u base ++
        (if u = 0 ∨ parties.filterMap (Partie.texte u base) = [] then []
          else separer false (parties.filterMap (Partie.texte u base)) ++ [0x3e]), args) := by
  have base_lue := (controle base (by omega)).2.2
  have base_juste : ¬ (base < 2 ∨ 16 < base) := by omega
  have assez : parties.length ≤ (parties.flatMap Partie.code).length := by
    clear justes
    induction parties with
    | nil => exact le_rfl
    | cons p parties ih =>
        rw [List.flatMap_cons, List.length_append, List.length_cons]
        have un : 1 ≤ p.code.length := by cases p <;> simp [Partie.code]
        omega
  rw [printBits, base_lue]
  simp only [printnumBase, if_neg base_juste, bind, Option.bind_some, nommerBits_eq bas haut justes false assez]
  by_cases nul : u = 0
  · simp [nul]
  · simp only [nul, if_false, false_or]
    cases parties.filterMap (Partie.texte u base) with
    | nil => simp [separer]
    | cons t textes => simp

end ProjetSysteme.Invariant.Format
