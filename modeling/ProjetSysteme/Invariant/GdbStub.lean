/- Invariant/GdbStub
   source: kernel/gdb_serial.c
   digest: The hexadecimal digits that the commands of the remote debugger read. -/

import ProjetSysteme.Invariant.GdbFrames
import ProjetSysteme.Invariant.GdbMemory
import ProjetSysteme.Kernel.GdbStub

set_option autoImplicit false
set_option relaxedAutoImplicit false

namespace ProjetSysteme.Invariant.Gdb

open Kernel.GdbSerial Library.Buffer

/-- The byte of two characters, before it is stored. -/
def paire (a b : Octet) : Entier := (hex a <<< 4) ||| hex b

theorem hex_valeur (a : Octet) : hex a = -1 ∨ (hex a).toNat < 16 := by
  revert a
  decide +kernel

theorem paire_negative (a b : Octet) : (paire a b).slt 0 = true ↔ hex a = -1 ∨ hex b = -1 := by
  have petites : ∀ i j : Fin 16, ((BitVec.ofNat 32 i.val <<< 4) ||| BitVec.ofNat 32 j.val : Entier).slt 0 = false := by
    decide +kernel
  have gauche : ∀ y : Entier, (((-1 : Entier) <<< 4) ||| y).slt 0 = true := by
    intro y
    refine BitVec.slt_zero_eq_msb.trans ?_
    rw [BitVec.msb_or, show ((-1 : Entier) <<< 4).msb = true from by decide, Bool.true_or]
  have droite : ∀ x : Entier, ((x <<< 4) ||| (-1 : Entier)).slt 0 = true := by
    intro x
    refine BitVec.slt_zero_eq_msb.trans ?_
    rw [BitVec.msb_or, show (-1 : Entier).msb = true from by decide, Bool.or_true]
  unfold paire
  rcases hex_valeur a with nega | petit
  · simp only [nega, gauche, true_or]
  · rcases hex_valeur b with negb | petit'
    · simp only [negb, droite, or_true]
    · have valeur := petites ⟨_, petit⟩ ⟨_, petit'⟩
      simp only [BitVec.ofNat_toNat, BitVec.setWidth_eq] at valeur
      rw [valeur]
      simp only [Bool.false_eq_true, false_iff, not_or]
      constructor
      · intro same
        rw [same] at petit
        exact absurd petit (by decide)
      · intro same
        rw [same] at petit'
        exact absurd petit' (by decide)

/-- The pairs of digits from the index `i` on, up to the first wrong one, for at most `len` bytes. -/
def paires (entree : Tampon) : Nat → Nat → List Octet
  | _, 0 => []
  | i, len + 1 =>
    if (paire (entree i) (entree (i + 1))).slt 0 then []
    else (paire (entree i) (entree (i + 1))).setWidth 8 :: paires entree (i + 2) len

theorem hex2bin_eq (entree : Tampon) (i o : Nat) (out : Tampon) (len : Nat) :
    hex2bin entree i o out len =
      (store out o (paires entree i len), decide ((paires entree i len).length = len)) := by
  induction len generalizing i o out with
  | zero => simp [hex2bin, paires]
  | succ len ih =>
      rw [hex2bin, paires]
      change (if (paire (entree i) (entree (i + 1))).slt 0 then _ else _) = _
      split
      · simp
      · rw [ih, store_cons]
        simp [paire]

/-- The characters `d` are in the buffer from the index `i` on. -/
def Contient (entree : Tampon) (i : Nat) (d : List Octet) : Prop := ∀ k, k < d.length → d[k]? = some (entree (i + k))

theorem contient_append {entree : Tampon} {i : Nat} {d d' : List Octet} : Contient entree i (d ++ d') ↔
    Contient entree i d ∧ Contient entree (i + d.length) d' := by
  constructor
  · intro contient
    constructor
    · intro k avant
      rw [← contient k (by rw [List.length_append]; omega), List.getElem?_append_left avant]
    · intro k avant
      have lu := contient (d.length + k) (by rw [List.length_append]; omega)
      rwa [List.getElem?_append_right (by omega), Nat.add_sub_cancel_left, ← Nat.add_assoc] at lu
  · rintro ⟨debut, fin⟩ k avant
    rw [List.length_append] at avant
    by_cases dedans : k < d.length
    · rw [List.getElem?_append_left dedans, debut k dedans]
    · rw [List.getElem?_append_right (by omega), fin (k - d.length) (by omega)]
      congr 2
      omega

theorem paire_chiffres (b : Octet) : (paire (hexchar (b >>> 4)) (hexchar (b &&& 0xf))).slt 0 = false ∧
    (paire (hexchar (b >>> 4)) (hexchar (b &&& 0xf))).setWidth 8 = b := by
  unfold paire
  revert b
  decide +kernel

theorem paires_chiffres {entree : Tampon} {i : Nat} {l : List Octet} (lus : Contient entree i (l.flatMap chiffres)) :
    paires entree i l.length = l := by
  induction l generalizing i with
  | nil => rfl
  | cons b l ih =>
      rw [List.flatMap_cons, contient_append] at lus
      obtain ⟨deux, suite⟩ := lus
      have quatre := deux 0 (by simp [chiffres])
      have unite := deux 1 (by simp [chiffres])
      simp only [chiffres, List.getElem?_cons_zero, List.getElem?_cons_succ, Option.some.injEq, Nat.add_zero] at quatre unite
      obtain ⟨positive, octet⟩ := paire_chiffres b
      rw [List.length_cons, paires, ← quatre, ← unite, if_neg (Bool.eq_false_iff.mp positive), octet]
      exact congrArg _ (ih suite)

/-- A letter among the digits, as the debugger sends it. -/
def minuscule (a : Octet) : Octet := if 0x41 ≤ a ∧ a ≤ 0x46 then a + 0x20 else a

theorem hex_minuscule (a : Octet) : hex a = -1 ∨ ∃ i : Fin 16, hex a = BitVec.ofNat 32 i ∧
    minuscule a = hexchar (BitVec.ofNat 8 i) := by
  revert a
  decide +kernel

theorem chiffres_paire {a b : Octet} (juste : ¬ (paire a b).slt 0 = true) :
    chiffres ((paire a b).setWidth 8) = [minuscule a, minuscule b] := by
  have table : ∀ i j : Fin 16, chiffres ((((BitVec.ofNat 32 i <<< 4) ||| BitVec.ofNat 32 j : Entier)).setWidth 8) =
      [hexchar (BitVec.ofNat 8 i), hexchar (BitVec.ofNat 8 j)] := by
    decide +kernel
  rw [paire_negative, not_or] at juste
  obtain ⟨i, quatre, haut⟩ := (hex_minuscule a).resolve_left juste.1
  obtain ⟨j, unite, bas⟩ := (hex_minuscule b).resolve_left juste.2
  rw [paire, quatre, unite, haut, bas]
  exact table i j

theorem chiffres_paires {entree : Tampon} {i len : Nat} (justes : (paires entree i len).length = len) :
    (paires entree i len).flatMap chiffres = (List.range' i (2 * len)).map fun k => minuscule (entree k) := by
  induction len generalizing i with
  | zero => rfl
  | succ len ih =>
      rw [paires] at justes ⊢
      split at justes
      · cases justes
      · next juste =>
          rw [List.length_cons] at justes
          rw [if_neg juste, List.flatMap_cons, chiffres_paire juste, ih (Nat.succ.inj justes), Nat.mul_succ,
            List.range'_succ, List.range'_succ]
          rfl

theorem paires_minuscule (entree : Tampon) (i len : Nat) :
    paires (fun k => minuscule (entree k)) i len = paires entree i len := by
  have memes : ∀ a : Octet, hex (minuscule a) = hex a := by
    decide +kernel
  have paire_minuscule : ∀ a b, paire (minuscule a) (minuscule b) = paire a b := by
    intro a b
    rw [paire, paire, memes, memes]
  induction len generalizing i with
  | zero => rfl
  | succ len ih => rw [paires, paires, paire_minuscule, ih]

/-- The digits of bytes are read as these bytes, whatever the case of the letters. -/
theorem hex2bin_chiffres {entree out : Tampon} {i : Nat} {l : List Octet}
    (lus : Contient (fun k => minuscule (entree k)) i (l.flatMap chiffres)) :
    hex2bin entree i 0 out l.length = (store out 0 l, true) := by
  rw [hex2bin_eq, ← paires_minuscule, paires_chiffres lus]
  simp

section Registres

theorem octetsDe_eq (v : Entier) : (v >>> 24).setWidth 8 ++ (v >>> 16).setWidth 8 ++ (v >>> 8).setWidth 8 ++
    v.setWidth 8 = v := by
  apply BitVec.eq_of_getLsbD_eq
  intro i place
  simp only [BitVec.getLsbD_append, BitVec.getLsbD_setWidth, BitVec.getLsbD_ushiftRight]
  split
  · next bas => simp [bas]
  · split
    · next bas => simp [show 8 + (i - 8) = i by omega, bas]
    · split
      · next bas => simp [show 16 + (i - 8 - 8) = i by omega, bas]
      · simp [show 24 + (i - 8 - 8 - 8) = i by omega, show i - 8 - 8 - 8 < 8 by omega]

variable {regs : Tampon} {i j : Nat} {v : Entier}

theorem lireRegistre_ecrire : lireRegistre (ecrireRegistre regs i v) i = v := by
  have octet : ∀ k, k < 4 → (octetsDe v)[k]? = some (ecrireRegistre regs i v (4 * i + k)) := fun k avant =>
    store_inside avant
  have zero := octet 0 (by omega)
  have un := octet 1 (by omega)
  have deux := octet 2 (by omega)
  have trois := octet 3 (by omega)
  simp only [octetsDe, List.getElem?_cons_zero, List.getElem?_cons_succ, Option.some.injEq] at zero un deux trois
  rw [lireRegistre, ← trois, ← deux, ← un, ← Nat.add_zero (4 * i), ← zero]
  exact octetsDe_eq v

theorem lireRegistre_ailleurs (autre : j ≠ i) : lireRegistre (ecrireRegistre regs i v) j = lireRegistre regs j := by
  have octet : ∀ k, k < 4 → ecrireRegistre regs i v (4 * j + k) = regs (4 * j + k) := by
    intro k avant
    rcases Nat.lt_or_gt_of_ne autre with bas | haut
    · exact store_before (by omega)
    · exact store_after (by simp [octetsDe]; omega)
  rw [lireRegistre, lireRegistre, octet 3 (by omega), octet 2 (by omega), octet 1 (by omega)]
  exact congrArg _ (octet 0 (by omega))

theorem lireRegistre_store {l : List Entier} (place : i < l.length) :
    l[i]? = some (lireRegistre (store regs 0 (l.flatMap octetsDe)) i) := by
  induction l using List.reverseRecOn with
  | nil => cases place
  | append_singleton l v ih =>
      have longueur : (l.flatMap octetsDe).length = 4 * l.length := by
        simp [octetsDe, Nat.mul_comm]
      have range : store regs 0 ((l ++ [v]).flatMap octetsDe) =
          ecrireRegistre (store regs 0 (l.flatMap octetsDe)) l.length v := by
        rw [ecrireRegistre, ← longueur, List.flatMap_append, ← store_append, Nat.zero_add, List.flatMap_singleton]
      rw [range]
      rw [List.length_append, List.length_singleton] at place
      rcases Nat.lt_succ_iff_lt_or_eq.mp place with avant | rfl
      · rw [List.getElem?_append_left avant, lireRegistre_ailleurs avant.ne, ih avant]
      · rw [lireRegistre_ecrire]
        simp

end Registres

section Commandes

variable {cb : Option Callbacks} {base : Entier} {e e' : Etat} {r : Reponse}

theorem commandeP_client (fin : commandeP e = .ok (e', r)) : e'.client = e.client := by
  unfold commandeP at fin
  dsimp only at fin
  repeat' split at fin
  all_goals cases fin
  all_goals rfl

theorem commandem_client (fin : commandem e = .ok (e', r)) : e'.client = e.client := by
  unfold commandem at fin
  dsimp only at fin
  repeat' split at fin
  all_goals cases fin
  all_goals rfl

theorem commandeH_client : (commandeH cb e).1.client = e.client := by
  unfold commandeH
  dsimp only
  repeat' split
  all_goals rfl

theorem commandeT_client : (commandeT cb e).1.client = e.client := by
  unfold commandeT
  dsimp only
  repeat' split
  all_goals rfl

theorem commandeG_client : (commandeG e).1.client = e.client := by
  unfold commandeG
  dsimp only
  split <;> rfl

theorem continuer_client (p : Nat) (traceEnable : Bool) (nsig : Octet) :
    (continuer e p traceEnable nsig).1.client = e.client := rfl

theorem commandeC_client (traceEnable : Bool) : (commandeC e traceEnable).1.client = e.client := by
  unfold commandeC
  dsimp only
  split <;> rfl

theorem report_client : (report cb e).1.client = e.client := by
  unfold report
  dsimp only
  split <;> rfl

theorem fin_eq {x : Etat × Reponse} (fin : (.ok x : ResultatCommande) = .ok (e', r)) : e' = x.1 :=
  (congrArg Prod.fst (Except.ok.inj fin)).symm

theorem commande_client (fin : commande cb base e = .ok (e', r)) (nonM : (e.inbuf 0).toNat ≠ 0x4d)
    (nonX : (e.inbuf 0).toNat ≠ 0x58) : e'.client = e.client := by
  unfold commande at fin
  split at fin
  · exact fin_eq fin ▸ commandeH_client
  · exact fin_eq fin ▸ commandeT_client
  · exact fin_eq fin ▸ rfl
  · exact fin_eq fin ▸ commandeG_client
  · exact commandeP_client fin
  · exact commandem_client fin
  · next estM => exact absurd estM nonM
  · next estX => exact absurd estX nonX
  · exact fin_eq fin ▸ continuer_client ..
  · exact fin_eq fin ▸ continuer_client ..
  · exact fin_eq fin ▸ commandeC_client _
  · exact fin_eq fin ▸ commandeC_client _
  · exact fin_eq fin ▸ report_client
  all_goals exact fin_eq fin ▸ rfl

theorem commande_params (fin : commande none base e = .ok (e', r))
    (autre : (e.inbuf 0).toNat ∉ [0x47, 0x50, 0x63, 0x73, 0x43, 0x53]) : e'.params = e.params := by
  simp only [List.mem_cons, List.not_mem_nil, or_false, not_or] at autre
  obtain ⟨nonG, nonP, nonc, nons, nonC, nonS⟩ := autre
  unfold commande at fin
  split at fin
  · refine fin_eq fin ▸ ?_
    unfold commandeH
    dsimp only
    split <;> rfl
  · refine fin_eq fin ▸ ?_
    unfold commandeT
    dsimp only
    split <;> rfl
  · exact fin_eq fin ▸ rfl
  · next lettre => exact absurd lettre nonG
  · next lettre => exact absurd lettre nonP
  · unfold commandem at fin
    dsimp only at fin
    repeat' split at fin
    all_goals cases fin
    all_goals rfl
  · unfold commandeM at fin
    dsimp only at fin
    repeat' split at fin
    all_goals first | cases fin; done | exact fin_eq fin ▸ rfl
  · unfold commandeX at fin
    dsimp only at fin
    repeat' split at fin
    all_goals exact fin_eq fin ▸ rfl
  · next lettre => exact absurd lettre nonc
  · next lettre => exact absurd lettre nons
  · next lettre => exact absurd lettre nonC
  · next lettre => exact absurd lettre nonS
  · exact fin_eq fin ▸ rfl
  all_goals exact fin_eq fin ▸ rfl

end Commandes

end ProjetSysteme.Invariant.Gdb
