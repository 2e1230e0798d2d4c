/- Properties/AddressBits
   source: kernel/page.c
   digest: An address is its directory index, its table index and its offset. -/

import ProjetSysteme.Invariant.Paging

set_option autoImplicit false
set_option relaxedAutoImplicit false

namespace ProjetSysteme.Properties

open Kernel Invariant

private theorem entier_some {x : Int} (bas : -2 ^ 31 ≤ x) (haut : x < 2 ^ 31) : entier? x = some x :=
  if_pos ⟨bas, haut⟩

/-- While the weights stay under 2^31 no operation of the loop overflows, and it
goes through the same bits as `getNBitsBoucle`. -/
private theorem verifie_boucle (adr : Mot) (n i cpt tours : Nat) (num : Int) (borne : i + n ≤ 32)
    (largeur : cpt + n ≤ 31) (positif : 0 ≤ num) (petit : num < 2 ^ cpt) (assez : n < tours) :
    getNBitsVerifie adr ((i : Int) + n - 1) tours i cpt num = some (getNBitsBoucle adr n i cpt num) := by
  induction n generalizing i cpt tours num with
  | zero =>
      obtain ⟨tours, rfl⟩ := Nat.exists_eq_succ_of_ne_zero (Nat.ne_of_gt assez)
      exact if_pos (by omega)
  | succ n ih =>
      obtain ⟨tours, rfl⟩ := Nat.exists_eq_succ_of_ne_zero (Nat.ne_of_gt (Nat.zero_lt_of_lt assez))
      have poids : ((1 <<< cpt : Nat) : Int) = 2 ^ cpt := by
        rw [Nat.one_shiftLeft]
        exact Int.natCast_pow 2 cpt
      have puissance : (2 : Int) ^ cpt ≤ 2 ^ 30 := by
        have naturels : 2 ^ cpt ≤ 2 ^ 30 := Nat.pow_le_pow_right (by decide) (by omega)
        exact_mod_cast naturels
      have double : (2 : Int) ^ (cpt + 1) = 2 ^ cpt + 2 ^ cpt := by rw [pow_succ, mul_two]
      have somme : ajouterBit adr i cpt num = some (if isBitNTrue i adr then num + ((1 <<< cpt : Nat) : Int) else num) := by
        unfold ajouterBit
        split
        · rw [entier_some (by omega) (by omega)]
          exact entier_some (by omega) (by omega)
        · rfl
      have suite := ih (i + 1) (cpt + 1) tours (if isBitNTrue i adr then num + ((1 <<< cpt : Nat) : Int) else num)
        (by omega) (by omega) (by split <;> omega) (by split <;> omega) (by omega)
      have fin : ((i + 1 : Nat) : Int) + n - 1 = (i : Int) + (n + 1 : Nat) - 1 := by omega
      rw [fin] at suite
      unfold getNBitsVerifie
      rw [if_neg (by omega), somme, entier_some (by omega) (by omega), entier_some (by omega) (by omega)]
      exact suite

theorem get_n_bits_verifie (w : Mot) {fort faible tours : Nat} (ordre : faible ≤ fort) (borne : fort ≤ 31)
    (largeur : fort - faible + 1 ≤ 31) (assez : fort - faible + 1 < tours) :
    getNBitsVerifie w fort tours faible 0 0 = some (getNBits fort faible w) := by
  have boucle := verifie_boucle w (fort - faible + 1) faible 0 tours 0 (by omega) (by omega)
    le_rfl (by decide) assez
  have fin : (faible : Int) + (fort - faible + 1 : Nat) - 1 = fort := by omega
  have nombre : ((fort : Int) - faible + 1).toNat = fort - faible + 1 := by omega
  rw [fin] at boucle
  rw [boucle, getNBits, if_neg (by omega), nombre]

private theorem masque_bit {n : Nat} (borne : n ≤ 31) (i : Nat) : ((1 : Mot) <<< n).getLsbD i = decide (i = n) := by
  rw [BitVec.getLsbD_shiftLeft]
  by_cases avant : i < n
  · simp [avant, Nat.ne_of_lt avant]
  · by_cases meme : i = n
    · subst meme
      simp [Nat.lt_succ_of_le borne]
    · have apres : i - n ≠ 0 := by omega
      simp [avant, meme, apres]

theorem set_bit_n_bit (w : Mot) {n : Nat} (borne : n ≤ 31) (boo : Bool) (i : Nat) :
    (setBitN n boo w).getLsbD i = if i = n then boo else w.getLsbD i := by
  have dans : ¬ ((n : Int) < 0 ∨ (n : Int) > 31) := by omega
  unfold setBitN
  rw [if_neg dans, Int.toNat_natCast]
  cases boo with
  | true =>
      rw [if_pos rfl, BitVec.getLsbD_or, masque_bit borne]
      split
      · next meme => simp [meme]
      · next autre => simp [autre]
  | false =>
      rw [if_neg Bool.false_ne_true, BitVec.getLsbD_and, BitVec.getLsbD_not, masque_bit borne]
      split
      · next meme => simp [meme]
      · next autre =>
          by_cases bit : i < 32
          · simp [bit, autre]
          · simp [bit, BitVec.getLsbD_of_ge w i (Nat.le_of_not_lt bit)]

theorem get_n_bits_champ (w : Mot) (fort faible : Nat) (ordre : faible ≤ fort) (borne : fort ≤ 31) :
    getNBits fort faible w = (w.toNat / 2 ^ faible % 2 ^ (fort - faible + 1) : Nat) := by
  rw [getNBits_eq w ordre borne, Nat.shiftRight_eq_div_pow]

private theorem champs (w : Mot) :
    getNBits 31 22 w = (w.toNat / 2 ^ 22 % 2 ^ 10 : Nat) ∧ getNBits 21 12 w = (w.toNat / 2 ^ 12 % 2 ^ 10 : Nat) ∧
      getNBits 11 0 w = (w.toNat / 2 ^ 0 % 2 ^ 12 : Nat) :=
  ⟨get_n_bits_champ w 31 22 (by decide) (by decide),
    get_n_bits_champ w 21 12 (by decide) (by decide),
    get_n_bits_champ w 11 0 (by decide) (by decide)⟩

/-- A field of at most 31 bits is read without overflow, and the split into two
indexes and an offset loses nothing. -/
theorem bits_split_address :
    (∀ (w : Mot) (faible fort tours : Nat), faible ≤ fort → fort ≤ 31 → fort - faible + 1 ≤ 31 →
      fort - faible + 1 < tours →
        getNBitsVerifie w fort tours faible 0 0 =
          some ((w.toNat / 2 ^ faible % 2 ^ (fort - faible + 1) : Nat) : Int) ∧
        getNBits fort faible w = (w.toNat / 2 ^ faible % 2 ^ (fort - faible + 1) : Nat)) ∧
    (∀ (w : Mot) (n : Nat) (boo : Bool), n ≤ 31 →
      ∀ i, (setBitN n boo w).getLsbD i = if i = n then boo else w.getLsbD i) ∧
    (∀ w : Mot, (w.toNat : Int) = getNBits 31 22 w * 2 ^ 22 + getNBits 21 12 w * 2 ^ 12 + getNBits 11 0 w) ∧
    ∀ v w : Mot, getNBits 31 22 v = getNBits 31 22 w ∧ getNBits 21 12 v = getNBits 21 12 w ↔
      v.toNat / 4096 = w.toNat / 4096 := by
  refine ⟨?_, fun w n boo borne => set_bit_n_bit w borne boo, ?_, ?_⟩
  · intro w faible fort tours ordre borne largeur assez
    have champ := get_n_bits_champ w _ _ ordre borne
    refine ⟨?_, champ⟩
    rw [get_n_bits_verifie w ordre borne largeur assez, champ]
  · intro w
    obtain ⟨repertoire, table, decalage⟩ := champs w
    have borne := w.isLt
    rw [repertoire, table, decalage]
    omega
  · intro v w
    obtain ⟨repertoire, table, -⟩ := champs v
    obtain ⟨repertoire', table', -⟩ := champs w
    have borne := v.isLt
    have borne' := w.isLt
    rw [repertoire, table, repertoire', table', Int.natCast_inj, Int.natCast_inj]
    omega

theorem bits_split_address_pages :
    getNBitsVerifie 0x0abcdfff 31 11 22 0 0 = some 42 ∧ (setBitN 31 true 0).getLsbD 31 = true ∧
      (getNBits 31 22 0x0abcd000 = getNBits 31 22 0x0abcdfff ∧ getNBits 21 12 0x0abcd000 = getNBits 21 12 0x0abcdfff) := by
  obtain ⟨champ, bit, -, page⟩ := bits_split_address
  refine ⟨?_, ?_, (page _ _).mpr (by decide)⟩
  · exact (champ 0x0abcdfff 22 31 11 (by decide) (by decide) (by decide) (by decide)).1
  · exact bit 0 31 true (by decide) 31

end ProjetSysteme.Properties
