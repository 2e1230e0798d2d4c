/- Invariant/Numeral
   source: shared/strtoul.c, shared/strtol.c, shared/doprnt.c
   digest: Numbers read from digits, and the digits of numbers. -/

import Mathlib.Data.BitVec
import Mathlib.Tactic.Ring
import ProjetSysteme.Kernel.Numeral
import ProjetSysteme.Library.Positional

set_option autoImplicit false
set_option relaxedAutoImplicit false

namespace ProjetSysteme.Invariant.Numeral

open Kernel.Numeral Library.Positional

variable {base : Nat} {cs suite : List Octet} {ds : List Nat}

theorem lireChiffres_eq (lus : cs.map (chiffre base) = ds.map some)
    (fin : ∀ c, suite.head? = some c → chiffre base c = none) (v : Entier) :
    lireChiffres base v (cs ++ suite) =
      (v * BitVec.ofNat 32 (base ^ ds.length) + BitVec.ofNat 32 (value base ds), cs.length) := by
  induction cs generalizing ds v with
  | nil =>
      obtain rfl := List.map_eq_nil_iff.mp lus.symm
      cases suite with
      | nil => simp [lireChiffres]
      | cons c suite =>
          rw [List.nil_append, lireChiffres, fin c rfl]
          simp
  | cons c cs ih =>
      cases ds with
      | nil => cases lus
      | cons d ds =>
          obtain ⟨premier, autres⟩ := List.cons.inj lus
          rw [List.cons_append, lireChiffres, premier]
          dsimp only
          rw [ih autres, value_cons, List.length_cons, List.length_cons, Nat.pow_succ]
          refine Prod.ext ?_ rfl
          simp only [BitVec.ofNat_add, BitVec.ofNat_mul]
          ring

theorem chiffre_digs {d : Nat} (petite : base ≤ 16) (avant : d < base) : chiffre base (digs.getD d 0) = some d := by
  have tous : ∀ b : Fin 17, ∀ d : Fin 16, d.val < b.val → chiffre b.val (digs.getD d.val 0) = some d.val := by
    decide +kernel
  exact tous ⟨base, by omega⟩ ⟨d, by omega⟩ avant

theorem remplir_eq (deux : 2 ≤ base) {tours u : Nat} (assez : u < base ^ tours) (un : 0 < tours) (buf : List Octet) :
    remplir base tours u buf = (numeral base u).map (digs.getD · 0) ++ buf := by
  induction tours generalizing u buf with
  | zero => exact absurd un (Nat.lt_irrefl 0)
  | succ tours ih =>
      rw [remplir]
      split
      · next reste =>
          have petit : u / base < base ^ tours := by
            rw [Nat.div_lt_iff_lt_mul (by omega), ← Nat.pow_succ]
            exact assez
          have tour : 0 < tours := by
            refine Nat.pos_of_ne_zero ?_
            rintro rfl
            exact reste (by simpa using petit)
          rw [ih petit tour, numeral_concat deux reste, List.map_append, List.append_assoc]
          rfl
      · next fini =>
          rw [numeral_single (not_not.mp fini)]
          rfl

theorem printnum_eq (deux : 2 ≤ base) (u : Entier) :
    printnum u base = (numeral base u.toNat).map (digs.getD · 0) := by
  rw [printnum, remplir_eq deux _ (by decide), List.append_nil]
  exact u.isLt.trans_le (Nat.pow_le_pow_left deux 32)

theorem chiffres_digs (petite : base ≤ 16) (petits : ∀ d ∈ ds, d < base) :
    (ds.map (digs.getD · 0)).map (chiffre base) = ds.map some := by
  rw [List.map_map]
  exact List.map_congr_left fun d mem => chiffre_digs petite (petits d mem)

section Lecture

variable {esp signe pre : List Octet}

/-- What may follow a number: no digit of its base, and no letter of a prefix. -/
def Termine (base : Nat) (suite : List Octet) : Prop :=
  ∀ c, suite.head? = some c → chiffre base c = none ∧ c ≠ 0x78 ∧ c ≠ 0x58

theorem chiffre_lettre (petite : base ≤ 16) {c : Octet} {n : Nat} (lu : chiffre base c = some n) :
    isspace c = false ∧ c ≠ 0x2d ∧ c ≠ 0x2b ∧ c ≠ 0x78 ∧ c ≠ 0x58 := by
  have tous : ∀ b : Fin 17, ∀ c : Octet, (chiffre b.val c).isSome = true →
      isspace c = false ∧ c ≠ 0x2d ∧ c ≠ 0x2b ∧ c ≠ 0x78 ∧ c ≠ 0x58 := by
    decide +kernel
  exact tous ⟨base, by omega⟩ c (by rw [lu]; rfl)

/-- The characters of a number after its sign: the prefix is that of the base 16. -/
structure Nombre (base : Nat) (pre cs : List Octet) (ds : List Nat) : Prop where
  deux : 2 ≤ base
  petite : base ≤ 16
  prefixe : pre = [] ∨ base = 16 ∧ pre = [0x30, 0x78]
  lus : cs.map (chiffre base) = ds.map some
  un : cs ≠ []

namespace Nombre

theorem premier (nombre : Nombre base pre cs ds) : ∃ c reste, cs = c :: reste ∧ ∃ n, chiffre base c = some n := by
  cases cs with
  | nil => exact absurd rfl nombre.un
  | cons c cs =>
      have lus := nombre.lus
      cases ds with
      | nil => cases lus
      | cons d ds => exact ⟨c, cs, rfl, d, (List.cons.inj lus).1⟩

theorem debut (nombre : Nombre base pre cs ds) (suite : List Octet) :
    ∃ c reste, pre ++ (cs ++ suite) = c :: reste ∧ isspace c = false ∧ c ≠ 0x2d ∧ c ≠ 0x2b := by
  rcases nombre.prefixe with rfl | ⟨-, rfl⟩
  · obtain ⟨c, reste, rfl, n, lu⟩ := nombre.premier
    obtain ⟨blanc, moins, plus, -⟩ := chiffre_lettre nombre.petite lu
    exact ⟨c, reste ++ suite, rfl, blanc, moins, plus⟩
  · exact ⟨0x30, 0x78 :: (cs ++ suite), rfl, by decide, by decide, by decide⟩

theorem lireBase (nombre : Nombre base pre cs ds) (fin : Termine base suite) :
    lireBase base (pre ++ (cs ++ suite)) = (base, pre.length) := by
  have deux := nombre.deux
  have nonNul : ¬ base = 0 := by omega
  unfold Kernel.Numeral.lireBase
  rcases nombre.prefixe with rfl | ⟨rfl, rfl⟩
  · rw [List.nil_append, if_neg, if_neg nonNul]
    · rfl
    rintro ⟨-, -, lettre⟩
    obtain ⟨c, reste, rfl, -⟩ := nombre.premier
    have second : ∀ x, (c :: reste ++ suite)[1]? = some x → x ≠ 0x78 ∧ x ≠ 0x58 := by
      intro x mem
      cases reste with
      | nil =>
          rw [List.singleton_append, List.getElem?_cons_succ, ← List.head?_eq_getElem?] at mem
          exact (fin x mem).2
      | cons y reste =>
          obtain rfl : y = x := Option.some.inj mem
          have lus := nombre.lus
          rcases ds with _ | ⟨a, _ | ⟨b, ds⟩⟩
          · exact absurd (congrArg List.length lus) (by simp)
          · exact absurd (congrArg List.length lus) (by simp)
          · have lu := (List.cons.inj (List.cons.inj lus).2).1
            exact (chiffre_lettre nombre.petite lu).2.2.2
    rcases lettre with minuscule | majuscule
    · exact (second _ minuscule).1 rfl
    · exact (second _ majuscule).2 rfl
  · simp

theorem lireChiffres (nombre : Nombre base pre cs ds) (fin : Termine base suite) :
    lireChiffres base 0 (cs ++ suite) = (BitVec.ofNat 32 (value base ds), cs.length) := by
  rw [lireChiffres_eq nombre.lus fun c mem => (fin c mem).1]
  simp

end Nombre

theorem takeWhile_blancs {c : Octet} {reste : List Octet} (blancs : ∀ c ∈ esp, isspace c = true)
    (lettre : isspace c = false) : (esp ++ c :: reste).takeWhile isspace = esp := by
  rw [List.takeWhile_append_of_pos blancs, List.takeWhile_cons_of_neg (by simp [lettre]), List.append_nil]

theorem strtoul_eq (nombre : Nombre base pre cs ds) (blancs : ∀ c ∈ esp, isspace c = true) (fin : Termine base suite) :
    strtoul (esp ++ (pre ++ (cs ++ suite))) base =
      (BitVec.ofNat 32 (value base ds), esp.length + pre.length + cs.length) := by
  have base_lue := nombre.lireBase fin
  have lus := nombre.lireChiffres fin
  obtain ⟨c, reste, texte, lettre, -, -⟩ := nombre.debut suite
  have espaces : (esp ++ (pre ++ (cs ++ suite))).takeWhile isspace = esp := by
    rw [texte]
    exact takeWhile_blancs blancs lettre
  unfold strtoul
  rw [espaces]
  dsimp only
  rw [List.drop_left, base_lue]
  dsimp only
  rw [List.drop_left, lus]

theorem strtol_eq (nombre : Nombre base pre cs ds) (blancs : ∀ c ∈ esp, isspace c = true)
    (signes : signe = [] ∨ signe = [0x2d]) (fin : Termine base suite) :
    strtol (esp ++ (signe ++ (pre ++ (cs ++ suite)))) base =
      (if signe = [] then BitVec.ofNat 32 (value base ds) else -BitVec.ofNat 32 (value base ds),
        esp.length + signe.length + pre.length + cs.length) := by
  have base_lue := nombre.lireBase fin
  have lus := nombre.lireChiffres fin
  obtain ⟨c, reste, texte, lettre, moins, -⟩ := nombre.debut suite
  rcases signes with rfl | rfl
  · have espaces : (esp ++ (pre ++ (cs ++ suite))).takeWhile isspace = esp := by
      rw [texte]
      exact takeWhile_blancs blancs lettre
    have sansSigne : ¬ (pre ++ (cs ++ suite))[0]? = some 0x2d := by
      rw [texte]
      exact fun same => moins (Option.some.inj same)
    unfold strtol
    rw [List.nil_append, espaces]
    dsimp only
    rw [List.drop_left, if_neg sansSigne, if_neg sansSigne, List.drop_zero, base_lue]
    dsimp only
    rw [List.drop_left, lus]
    simp
  · have espaces : (esp ++ ([0x2d] ++ (pre ++ (cs ++ suite)))).takeWhile isspace = esp :=
      takeWhile_blancs blancs (by decide)
    unfold strtol
    rw [espaces]
    dsimp only
    have moins : ([0x2d] ++ (pre ++ (cs ++ suite)))[0]? = some 0x2d := rfl
    rw [List.drop_left, if_pos moins, if_pos moins, List.singleton_append, List.drop_one, List.tail_cons, base_lue]
    dsimp only
    rw [List.drop_left, lus]
    simp

theorem strtol_plus (deux : 2 ≤ base) (petite : base ≤ 16) (blancs : ∀ c ∈ esp, isspace c = true) :
    strtol (esp ++ 0x2b :: suite) base = (0, esp.length) := by
  have espaces : (esp ++ 0x2b :: suite).takeWhile isspace = esp := takeWhile_blancs blancs (by decide)
  have aucun : chiffre base 0x2b = none := by
    rcases lu : chiffre base 0x2b with _ | n
    · rfl
    · exact absurd rfl (chiffre_lettre petite lu).2.2.1
  have nonNul : ¬ base = 0 := by omega
  unfold strtol
  rw [espaces]
  dsimp only
  rw [List.drop_left, if_neg (by simp), if_neg (by simp), List.drop_zero]
  have base_lue : lireBase base (0x2b :: suite) = (base, 0) := by
    simp [Kernel.Numeral.lireBase, nonNul]
  rw [base_lue]
  dsimp only
  rw [List.drop_zero, lireChiffres, aucun]
  rfl

end Lecture

end ProjetSysteme.Invariant.Numeral
