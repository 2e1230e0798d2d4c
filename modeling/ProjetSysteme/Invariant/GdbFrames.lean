/- Invariant/GdbFrames
   source: kernel/gdb_serial.c
   digest: What putfrags sends is an encoding of its fragments. -/

import Mathlib.Data.List.GetD
import Mathlib.Data.List.TakeWhile
import ProjetSysteme.Invariant.GdbPackets
import ProjetSysteme.Library.RunLength

set_option autoImplicit false
set_option relaxedAutoImplicit false

namespace ProjetSysteme.Invariant.Gdb

open Kernel.GdbSerial Library.Buffer Library.RunLength

/-- The two hexadecimal digits of a byte. -/
def chiffres (b : Octet) : List Octet := [hexchar (b >>> 4), hexchar (b &&& 0xf)]

/-- The characters that the bytes `l` of a fragment stand for. -/
def texte (hexify : Bool) (l : List Octet) : List Octet := if hexify then l.flatMap chiffres else l

/-- The length of the run that a count character stands for. -/
def compte (n : Octet) : Nat := n.toNat - 28

structure Compte (hexify : Bool) (n : Octet) : Prop where
  bas : 32 ≤ n.toNat
  haut : n.toNat ≤ 126
  pair : hexify = true → n.toNat % 2 = 0

theorem hexchar_chiffre (b : Octet) : 0x30 ≤ (hexchar (b &&& 0xf)).toNat ∧
    (hexchar (b &&& 0xf)).toNat ≤ 0x66 ∧ hexchar (b &&& 0xf) ≠ 0x3a ∧ 0x30 ≤ (hexchar (b >>> 4)).toNat ∧
    (hexchar (b >>> 4)).toNat ≤ 0x66 ∧ hexchar (b >>> 4) ≠ 0x3a := by
  revert b
  decide +kernel

theorem xmitcsum_hexchar (b : Octet) : xmitcsum (hexchar (b >>> 4)) (hexchar (b % 16)) = b := by
  unfold xmitcsum
  revert b
  decide +kernel

section Series

variable {p : Octet} {reste : List Octet}

theorem serie_split (connus limite : Nat) (un : 1 ≤ connus) (connue : ∀ i, i < connus - 1 → reste[i]? = some p)
    (ordre : connus ≤ limite) : ∃ n, longueurSerie p connus limite reste = n ∧ connus ≤ n ∧ n ≤ limite ∧
      p :: reste = List.replicate n p ++ reste.drop (n - 1) := by
  refine ⟨_, rfl, Nat.le_add_right .., ?_, ?_⟩
  · have prefixe := (List.takeWhile_prefix (l := (reste.drop (connus - 1)).take (limite - connus)) (· = p)).length_le
    rw [List.length_take] at prefixe
    unfold longueurSerie
    omega
  · obtain ⟨k, rfl⟩ : ∃ k, connus = k + 1 := ⟨connus - 1, by omega⟩
    rw [Nat.add_sub_cancel] at connue
    have debut : reste.take k = List.replicate k p := by
      refine List.ext_getElem? fun i => ?_
      rw [List.getElem?_take, List.getElem?_replicate]
      exact ite_congr rfl (connue i) fun _ => rfl
    have egaux : ((reste.drop k).take (limite - (k + 1))).takeWhile (· = p) <+: reste.drop k :=
      (List.takeWhile_prefix _).trans (List.take_prefix _ _)
    have suite : (reste.drop k).take (((reste.drop k).take (limite - (k + 1))).takeWhile (· = p)).length =
        List.replicate (((reste.drop k).take (limite - (k + 1))).takeWhile (· = p)).length p := by
      rw [← List.prefix_iff_eq_take.mp egaux, List.eq_replicate_iff]
      exact ⟨rfl, fun c mem => by simpa using List.mem_takeWhile_imp mem⟩
    rw [longueurSerie, Nat.add_sub_cancel]
    generalize (((reste.drop k).take (limite - (k + 1))).takeWhile (· = p)).length = m at suite
    rw [Nat.add_right_comm, Nat.add_sub_cancel, List.replicate_succ, List.cons_append]
    refine congrArg _ ?_
    rw [List.replicate_add, ← debut, ← suite, List.append_assoc, ← List.drop_drop, List.take_append_drop,
      List.take_append_drop]

end Series

theorem compte_ofNat {m : Nat} (bas : 4 ≤ m) (haut : m ≤ 98) :
    (BitVec.ofNat 8 (29 + m - 1)).toNat = 28 + m ∧ compte (BitVec.ofNat 8 (29 + m - 1)) = m := by
  have valeur : (BitVec.ofNat 8 (29 + m - 1)).toNat = 28 + m := by
    rw [BitVec.toNat_ofNat]
    omega
  exact ⟨valeur, by rw [compte, valeur, Nat.add_sub_cancel_left]⟩

theorem serie_code {hexify : Bool} {c : Octet} {m : Nat} (autre : c ≠ 0x2a) (bas : 4 ≤ m) (haut : m ≤ 98)
    (pair : hexify = true → m % 2 = 0) :
    Coded 0x2a compte (Compte hexify) (List.replicate m c) [c, 0x2a, BitVec.ofNat 8 (29 + m - 1)] := by
  obtain ⟨valeur, serie⟩ := compte_ofNat bas haut
  have valide : Compte hexify (BitVec.ofNat 8 (29 + m - 1)) :=
    ⟨by omega, by omega, fun hexa => by
      have reste := pair hexa
      omega⟩
  have code : Coded 0x2a compte (Compte hexify) (List.replicate (compte (BitVec.ofNat 8 (29 + m - 1))) c ++ [])
      [c, 0x2a, BitVec.ofNat 8 (29 + m - 1)] := .run autre valide (by omega) .nil
  rwa [serie, List.append_nil] at code

theorem texte_replicate {p : Octet} (double : p >>> 4 = p &&& 0xf) (n : Nat) :
    texte true (List.replicate n p) = List.replicate (n * 2) (hexchar (p &&& 0xf)) := by
  induction n with
  | zero => rfl
  | succ n ih =>
      rw [List.replicate_succ, Nat.succ_mul, Nat.add_comm (n * 2), List.replicate_add, ← ih]
      simp [texte, chiffres, double]

theorem envoyerUn_code (hexify : Bool) (p : Octet) (reste : List Octet)
    (lisible : hexify = false → 0x2a ∉ p :: reste) :
    ∃ front, p :: reste = front ++ (envoyerUn hexify p reste).2 ∧ front ≠ [] ∧
      Coded 0x2a compte (Compte hexify) (texte hexify front) (envoyerUn hexify p reste).1 := by
  have nonEtoile : ∀ c : Octet, 0x30 ≤ c.toNat → c ≠ 0x2a := by
    rintro c bas rfl
    exact absurd bas (by decide)
  obtain ⟨bas, -, -, basHaut, -, -⟩ := hexchar_chiffre p
  rw [envoyerUn]
  split
  · next serie =>
      rw [repete, Bool.and_eq_true, decide_eq_true_iff] at serie
      obtain ⟨second, serie⟩ := serie
      cases hexify with
      | true =>
          rw [if_pos rfl, decide_eq_true_iff] at serie
          obtain ⟨n, longueur, deux, limite, split⟩ := serie_split 2 (98 / 2) (by omega)
            (fun i avant => by rwa [Nat.lt_one_iff.mp avant]) (by omega)
          refine ⟨List.replicate n p, ?_, ?_, ?_⟩
          · simpa [longueur] using split
          · simp; omega
          · rw [texte_replicate serie, if_pos rfl, longueur]
            exact serie_code (nonEtoile _ bas) (by omega) (by omega) fun _ => by omega
      | false =>
          rw [if_neg Bool.false_ne_true, Bool.and_eq_true, decide_eq_true_iff, decide_eq_true_iff] at serie
          obtain ⟨troisieme, quatrieme⟩ := serie
          have connue : ∀ i, i < 4 - 1 → reste[i]? = some p := by
            intro i avant
            rcases i with _ | _ | _ | i
            · exact second
            · exact troisieme
            · exact quatrieme
            · omega
          obtain ⟨n, longueur, quatre, limite, split⟩ := serie_split 4 98 (by omega) connue (by omega)
          refine ⟨List.replicate n p, ?_, ?_, ?_⟩
          · simpa [longueur] using split
          · simp; omega
          · rw [if_neg Bool.false_ne_true, longueur]
            have autre : p ≠ 0x2a := fun same => lisible rfl (same ▸ List.mem_cons_self ..)
            exact serie_code autre quatre limite fun hexa => absurd hexa Bool.false_ne_true
  · next seul =>
      refine ⟨[p], by split <;> rfl, by simp, ?_⟩
      cases hexify with
      | true => exact .plain (nonEtoile _ basHaut) (.plain (nonEtoile _ bas) .nil)
      | false => exact .plain (fun same => lisible rfl (same ▸ List.mem_cons_self ..)) .nil

theorem texte_append (hexify : Bool) (l l' : List Octet) :
    texte hexify (l ++ l') = texte hexify l ++ texte hexify l' := by
  unfold texte
  split
  · exact List.flatMap_append
  · rfl

theorem envoyer_code (hexify : Bool) {tours : Nat} {l : List Octet} (lisible : hexify = false → 0x2a ∉ l)
    (assez : l.length ≤ tours) : Coded 0x2a compte (Compte hexify) (texte hexify l) (envoyer hexify tours l) := by
  induction tours generalizing l with
  | zero =>
      obtain rfl := List.eq_nil_of_length_eq_zero (Nat.le_zero.mp assez)
      unfold texte
      split <;> exact .nil
  | succ tours ih =>
      cases l with
      | nil =>
          unfold texte
          split <;> exact .nil
      | cons p reste =>
          obtain ⟨front, split, avance, code⟩ := envoyerUn_code hexify p reste lisible
          rw [envoyer]
          generalize envoyerUn hexify p reste = envoi at split code
          have moins := congrArg List.length split
          have positif := List.length_pos_iff.mpr avance
          rw [List.length_append] at moins
          rw [split, texte_append]
          rw [split] at lisible
          refine code.append (ih (fun clair mem => lisible clair (List.mem_append_right _ mem)) ?_)
          simp only [List.length_cons] at assez moins
          omega

/-- The characters that the fragments stand for. -/
def texteFrags (frags : List Outfrag) : List Octet := frags.flatMap fun f => texte f.hexify f.octets

/-- No fragment that is sent as it is holds the repeat character. -/
def Lisible (frags : List Outfrag) : Prop := ∀ f ∈ frags, f.hexify = false → 0x2a ∉ f.octets

variable {frags : List Outfrag}

theorem corps_code (lisible : Lisible frags) :
    Coded 0x2a compte (Compte false) (texteFrags frags) (corps frags) := by
  induction frags with
  | nil => exact .nil
  | cons f frags ih =>
      obtain ⟨premier, reste⟩ := List.forall_mem_cons.mp lisible
      have code : Coded 0x2a compte (Compte false) (texte f.hexify f.octets)
          (envoyer f.hexify f.octets.length f.octets) := (envoyer_code f.hexify premier le_rfl).mono
        fun n valide => ⟨valide.bas, valide.haut, fun clair => absurd clair Bool.false_ne_true⟩
      exact code.append (ih reste)

theorem trame_eq (frags : List Outfrag) : ∃ quatre unite, trame frags = 0x24 :: corps frags ++ [0x23, quatre, unite] ∧
    xmitcsum quatre unite = somme (corps frags) := ⟨_, _, rfl, xmitcsum_hexchar _⟩

theorem repeter_iff {paquet sortie entree : List Octet} {l : Ligne} : repeter paquet sortie entree = some l ↔
    ∃ refus plus, (∀ c ∈ refus, c &&& 0x7f ≠ 0x2b) ∧ plus &&& 0x7f = 0x2b ∧ entree = refus ++ plus :: l.entree ∧
      l.sortie = sortie ++ (List.replicate (refus.length + 1) paquet).flatten := by
  induction entree generalizing sortie with
  | nil => simp [repeter]
  | cons c entree ih =>
      rw [repeter]
      split
      · next plus =>
          constructor
          · rintro ⟨⟩
            exact ⟨[], c, by simp, plus, rfl, by simp⟩
          · rintro ⟨refus, d, refuse, -, split, envoi⟩
            cases refus with
            | nil =>
                obtain ⟨rfl, rfl⟩ := List.cons.inj split
                cases l
                simpa using envoi.symm
            | cons x refus =>
                obtain ⟨rfl, -⟩ := List.cons.inj split
                exact absurd plus (refuse c (List.mem_cons_self ..))
      · next autre =>
          rw [ih]
          constructor
          · rintro ⟨refus, d, refuse, plus, rfl, envoi⟩
            refine ⟨c :: refus, d, List.forall_mem_cons.mpr ⟨autre, refuse⟩, plus, rfl, ?_⟩
            rw [envoi, List.length_cons, List.replicate_succ (n := refus.length + 1), List.flatten_cons,
              List.append_assoc]
          · rintro ⟨refus, d, refuse, plus, split, envoi⟩
            cases refus with
            | nil =>
                obtain ⟨rfl, -⟩ := List.cons.inj split
                exact absurd plus autre
            | cons x refus =>
                obtain ⟨rfl, rfl⟩ := List.cons.inj split
                refine ⟨refus, d, (List.forall_mem_cons.mp refuse).2, plus, rfl, ?_⟩
                rw [envoi, List.length_cons, List.replicate_succ (n := refus.length + 1), List.flatten_cons,
                  List.append_assoc]

/-- A fragment that is sent as it is, and is too short for a run to be counted with a `#`. -/
structure Court (l : List Octet) : Prop where
  court : l.length < 7
  lettres : ∀ c ∈ l, c ≠ 0 ∧ c ≠ 0x23 ∧ c ≠ 0x2a ∧ c ≠ 0x7d

theorem envoyer_lettres {f : Outfrag} (simple : f.hexify = false → Court f.octets) :
    ∀ c ∈ envoyer f.hexify f.octets.length f.octets, c ≠ 0 ∧ c ≠ 0x23 ∧ c ≠ 0x7d := by
  intro c mem
  have code := envoyer_code f.hexify (l := f.octets)
    (fun clair etoile => ((simple clair).lettres _ etoile).2.2.1 rfl) le_rfl
  have loin : ∀ v : Octet, v.toNat ≠ c.toNat → c ≠ v := fun v autre same => autre (congrArg BitVec.toNat same.symm)
  rcases code.mem mem with lettre | rfl | ⟨compteur, borne⟩
  · cases hexa : f.hexify with
    | false =>
        rw [texte, hexa, if_neg Bool.false_ne_true] at lettre
        obtain ⟨nul, diese, -, accolade⟩ := (simple hexa).lettres c lettre
        exact ⟨nul, diese, accolade⟩
    | true =>
        rw [texte, hexa, if_pos rfl] at lettre
        obtain ⟨b, -, chiffre⟩ := List.mem_flatMap.mp lettre
        obtain ⟨bas, haut, -, bas', haut', -⟩ := hexchar_chiffre b
        have bornes : 0x30 ≤ c.toNat ∧ c.toNat ≤ 0x66 := by
          rcases List.mem_pair.mp chiffre with rfl | rfl
          · exact ⟨bas', haut'⟩
          · exact ⟨bas, haut⟩
        exact ⟨loin 0 (by simp; omega), loin 0x23 (by simp; omega), loin 0x7d (by simp; omega)⟩
  · decide
  · have bas := compteur.bas
    cases hexa : f.hexify with
    | false =>
        have court := (simple hexa).court
        rw [texte, hexa, if_neg Bool.false_ne_true, compte] at borne
        exact ⟨loin 0 (by simp; omega), loin 0x23 (by simp; omega), loin 0x7d (by simp; omega)⟩
    | true =>
        have pair := compteur.pair hexa
        exact ⟨loin 0 (by simp; omega), loin 0x23 (by simp; omega), loin 0x7d (by simp; omega)⟩

def Simples (frags : List Outfrag) : Prop := ∀ f ∈ frags, f.hexify = false → Court f.octets

theorem Simples.lisible (simples : Simples frags) : Lisible frags :=
  fun f mem clair etoile => ((simples f mem clair).lettres _ etoile).2.2.1 rfl

theorem corps_lettres (simples : Simples frags) : ∀ c ∈ corps frags, c ≠ 0 ∧ c ≠ 0x23 ∧ c ≠ 0x7d := by
  intro c mem
  obtain ⟨f, dans, mem⟩ := List.mem_flatMap.mp mem
  exact envoyer_lettres (simples f dans) c mem

end ProjetSysteme.Invariant.Gdb
