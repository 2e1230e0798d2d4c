/- Invariant/GdbMemory
   source: kernel/gdb_serial_support.c
   digest: The copies page by page are copies byte by byte through the translation. -/

import Mathlib.Data.List.GetD
import Mathlib.Tactic.Ring
import ProjetSysteme.Kernel.GdbMemory

set_option autoImplicit false
set_option relaxedAutoImplicit false

namespace ProjetSysteme.Invariant.Gdb

open Kernel.GdbSerial Library.Buffer

variable {c : Client} {v pa sz : Entier} {n m : Nat}

def adressePhysique (c : Client) (v : Entier) : Option Entier := (physAddrLookup c v).map Prod.fst

/-- The physical addresses of the `n` bytes from `v` on, up to the first that has none. -/
def adresses (c : Client) : Nat → Entier → List Entier
  | 0, _ => []
  | n + 1, v =>
    match adressePhysique c v with
    | none => []
    | some a => a :: adresses c n (v + 1)

theorem bloc_add (n : Nat) (petit : n ≤ 32) {v i : Entier} (dedans : v.toNat % 2 ^ n + i.toNat < 2 ^ n) :
    (v + i).toNat / 2 ^ n = v.toNat / 2 ^ n ∧ (v + i).toNat % 2 ^ n = v.toNat % 2 ^ n + i.toNat := by
  have positif : 0 < 2 ^ n := Nat.two_pow_pos n
  have entier : 2 ^ n * 2 ^ (32 - n) = 2 ^ 32 := by
    rw [← Nat.pow_add]
    congr 1
    omega
  have quotient : v.toNat / 2 ^ n < 2 ^ (32 - n) := by
    rw [Nat.div_lt_iff_lt_mul positif, Nat.mul_comm, entier]
    exact v.isLt
  have split := Nat.div_add_mod v.toNat (2 ^ n)
  have borne : 2 ^ n * (v.toNat / 2 ^ n + 1) ≤ 2 ^ 32 := entier ▸ Nat.mul_le_mul_left _ quotient
  have somme : (v + i).toNat = i.toNat + v.toNat % 2 ^ n + 2 ^ n * (v.toNat / 2 ^ n) := by
    rw [BitVec.toNat_add, Nat.mod_eq_of_lt]
    · omega
    · rw [Nat.mul_add] at borne
      omega
  rw [somme, Nat.add_mul_div_left _ _ positif, Nat.add_mul_mod_self_left, Nat.div_eq_of_lt (by omega),
    Nat.mod_eq_of_lt (by omega), Nat.zero_add, Nat.add_comm]
  exact ⟨rfl, rfl⟩

theorem offs_toNat (n : Nat) (petit : n < 32) (v : Entier) :
    (v &&& BitVec.ofNat 32 (2 ^ n - 1)).toNat = v.toNat % 2 ^ n ∧
      (BitVec.ofNat 32 (2 ^ n) - (v &&& BitVec.ofNat 32 (2 ^ n - 1))).toNat = 2 ^ n - v.toNat % 2 ^ n := by
  have borne : 2 ^ n < 2 ^ 32 := Nat.pow_lt_pow_right (by omega) petit
  have offs : (v &&& BitVec.ofNat 32 (2 ^ n - 1)).toNat = v.toNat % 2 ^ n := by
    rw [BitVec.toNat_and, BitVec.toNat_ofNat, Nat.mod_eq_of_lt (by omega), Nat.and_two_pow_sub_one_eq_mod]
  refine ⟨offs, ?_⟩
  have reste := Nat.mod_lt v.toNat (Nat.two_pow_pos n)
  rw [BitVec.toNat_sub, offs, BitVec.toNat_ofNat, Nat.mod_eq_of_lt borne]
  omega

theorem offs_add (n : Nat) (petit : n < 32) {v i : Entier} (dedans : v.toNat % 2 ^ n + i.toNat < 2 ^ n) :
    (v + i) &&& BitVec.ofNat 32 (2 ^ n - 1) = (v &&& BitVec.ofNat 32 (2 ^ n - 1)) + i := by
  have borne : 2 ^ n < 2 ^ 32 := Nat.pow_lt_pow_right (by omega) petit
  apply BitVec.eq_of_toNat_eq
  rw [(offs_toNat n petit (v + i)).1, (bloc_add n petit.le dedans).2, BitVec.toNat_add, (offs_toNat n petit v).1,
    Nat.mod_eq_of_lt (show v.toNat % 2 ^ n + i.toNat < 2 ^ 32 by omega)]

theorem decale_eq (n : Nat) {v w : Entier} (meme : v.toNat / 2 ^ n = w.toNat / 2 ^ n) : v >>> n = w >>> n := by
  apply BitVec.eq_of_toNat_eq
  rw [BitVec.toNat_ushiftRight, BitVec.toNat_ushiftRight, Nat.shiftRight_eq_div_pow, Nat.shiftRight_eq_div_pow,
    meme]

theorem lookup_suite (trouve : physAddrLookup c v = some (pa, sz)) {i : Entier} (dedans : i.toNat < sz.toNat) :
    adressePhysique c (v + i) = some (pa + i) := by
  unfold physAddrLookup at trouve
  dsimp only at trouve
  rw [adressePhysique]
  unfold physAddrLookup
  dsimp only
  split at trouve
  · next sansPagination =>
      cases trouve
      rw [if_pos sansPagination]
      rfl
  · next pagination =>
      rw [if_neg pagination]
      split at trouve
      · cases trouve
      · next presente =>
          split at trouve
          · next petite =>
              split at trouve
              · cases trouve
              · next valide =>
                  cases trouve
                  have bloc : v.toNat % 2 ^ 12 + i.toNat < 2 ^ 12 :=
                    Nat.add_lt_of_lt_sub' ((offs_toNat 12 (by omega) v).2 ▸ dedans)
                  have page := (bloc_add 12 (by omega) bloc).1
                  have repertoire : lin2pdenum (v + i) = lin2pdenum v := by
                    rw [lin2pdenum, lin2pdenum, show (22 : Nat) = 12 + 10 from rfl, BitVec.shiftRight_add,
                      BitVec.shiftRight_add, decale_eq 12 page]
                  have table : lin2ptenum (v + i) = lin2ptenum v := by
                    rw [lin2ptenum, lin2ptenum, decale_eq 12 page]
                  rw [repertoire, table, if_neg presente, if_pos petite, if_neg valide, Option.map_some, BitVec.add_assoc]
                  exact congrArg (fun o => some (_ + o)) (offs_add 12 (by omega) bloc)
          · next grande =>
              cases trouve
              have bloc : v.toNat % 2 ^ 22 + i.toNat < 2 ^ 22 :=
                Nat.add_lt_of_lt_sub' ((offs_toNat 22 (by omega) v).2 ▸ dedans)
              have repertoire : lin2pdenum (v + i) = lin2pdenum v := by
                rw [lin2pdenum, lin2pdenum, decale_eq 22 (bloc_add 22 (by omega) bloc).1]
              rw [repertoire, if_neg presente, if_neg grande, Option.map_some, BitVec.add_assoc]
              exact congrArg (fun o => some (_ + o)) (offs_add 22 (by omega) bloc)

theorem sz_positif (trouve : physAddrLookup c v = some (pa, sz)) : 0 < sz.toNat := by
  unfold physAddrLookup at trouve
  dsimp only at trouve
  split at trouve
  · cases trouve
    decide
  · split at trouve
    · cases trouve
    · split at trouve
      · split at trouve
        · cases trouve
        · cases trouve
          have reste := (offs_toNat 12 (by omega) v).2
          have petit := Nat.mod_lt v.toNat (Nat.two_pow_pos 12)
          exact lt_of_lt_of_eq (by omega) reste.symm
      · cases trouve
        have reste := (offs_toNat 22 (by omega) v).2
        have petit := Nat.mod_lt v.toNat (Nat.two_pow_pos 22)
        exact lt_of_lt_of_eq (by omega) reste.symm

theorem adresses_length : (adresses c n v).length ≤ n := by
  induction n generalizing v with
  | zero => exact le_rfl
  | succ n ih =>
      rw [adresses]
      split
      · exact Nat.zero_le _
      · exact Nat.succ_le_succ ih

theorem adresses_getElem? {i : Nat} (avant : i < (adresses c n v).length) :
    (adresses c n v)[i]? = adressePhysique c (v + BitVec.ofNat 32 i) := by
  induction n generalizing v i with
  | zero => cases avant
  | succ n ih =>
      rw [adresses] at avant ⊢
      split at avant
      · cases avant
      · next a trouve =>
          cases i with
          | zero =>
              rw [List.getElem?_cons_zero]
              simp [trouve]
          | succ i =>
              rw [List.getElem?_cons_succ, ih (Nat.lt_of_succ_lt_succ avant), BitVec.add_assoc]
              congr 2
              apply BitVec.eq_of_toNat_eq
              simp [Nat.add_comm]

theorem adresses_fin (court : (adresses c n v).length < n) :
    adressePhysique c (v + BitVec.ofNat 32 (adresses c n v).length) = none := by
  induction n generalizing v with
  | zero => cases court
  | succ n ih =>
      rw [adresses] at court ⊢
      cases trouve : adressePhysique c v with
      | none => simpa using trouve
      | some a =>
          rw [trouve] at court
          have suite : v + BitVec.ofNat 32 ((adresses c n (v + 1)).length + 1) =
              v + 1 + BitVec.ofNat 32 (adresses c n (v + 1)).length := by
            rw [BitVec.add_assoc]
            refine congrArg (v + ·) (BitVec.eq_of_toNat_eq ?_)
            simp [Nat.add_comm]
          dsimp only
          rw [List.length_cons, suite]
          exact ih (Nat.lt_of_succ_lt_succ court)

theorem adresses_bloc (trouve : physAddrLookup c v = some (pa, sz)) (dedans : m ≤ sz.toNat) (reste : m ≤ n) :
    adresses c n v = (List.range m).map (fun i => pa + BitVec.ofNat 32 i) ++
      adresses c (n - m) (v + BitVec.ofNat 32 m) := by
  induction m with
  | zero => simp
  | succ m ih =>
      have ofNat_succ : (BitVec.ofNat 32 (m + 1) : Entier) = BitVec.ofNat 32 m + 1 := by
        apply BitVec.eq_of_toNat_eq
        simp
      have suite := lookup_suite trouve (i := BitVec.ofNat 32 m) (by
        rw [BitVec.toNat_ofNat, Nat.mod_eq_of_lt (by omega)]
        omega)
      obtain ⟨k, avant, apres⟩ : ∃ k, n - m = k + 1 ∧ n - (m + 1) = k := ⟨n - m - 1, by omega, by omega⟩
      rw [ih (by omega) (by omega), avant, apres, adresses, suite, List.range_succ, List.map_append,
        List.append_assoc, ofNat_succ, BitVec.add_assoc]
      rfl

theorem lireOctets_eq (octets : Entier → Octet) (pa : Entier) (m : Nat) :
    lireOctets octets pa m = ((List.range m).map fun i => pa + BitVec.ofNat 32 i).map octets := by
  rw [lireOctets, List.map_map]
  rfl

theorem copyin_eq (tours : Nat) (src : Entier) (dest : Tampon) (o : Nat) (size : Entier)
    (assez : size.toNat ≤ tours) : copyin c tours src dest o size =
      (store dest o ((adresses c size.toNat src).map c.octets), o + (adresses c size.toNat src).length,
        decide ((adresses c size.toNat src).length = size.toNat)) := by
  induction tours generalizing src dest o size with
  | zero =>
      rw [copyin, Nat.le_zero.mp assez]
      simp [adresses]
  | succ tours ih =>
      rw [copyin]
      split
      · next nul =>
          subst nul
          simp [adresses]
      · next nonNul =>
          have positif : 0 < size.toNat := Nat.pos_of_ne_zero fun nul => nonNul (BitVec.eq_of_toNat_eq nul)
          cases trouve : physAddrLookup c src with
          | none =>
              obtain ⟨k, taille⟩ : ∃ k, size.toNat = k + 1 := ⟨size.toNat - 1, by omega⟩
              simp [taille, adresses, adressePhysique, trouve]
          | some r =>
              obtain ⟨pa, sz⟩ := r
              dsimp only
              generalize bloc : (if size < sz then size else sz) = m
              have borne : 0 < m.toNat ∧ m.toNat ≤ size.toNat ∧ m.toNat ≤ sz.toNat := by
                have szPositif := sz_positif trouve
                rw [← bloc]
                split
                · next petit => exact ⟨positif, le_rfl, (BitVec.lt_def.mp petit).le⟩
                · next grand => exact ⟨szPositif, not_lt.mp fun petit => grand (BitVec.lt_def.mpr petit), le_rfl⟩
              have reste : (size - m).toNat = size.toNat - m.toNat :=
                BitVec.toNat_sub_of_le (BitVec.le_def.mpr borne.2.1)
              have memes := adresses_bloc trouve borne.2.2 borne.2.1
              rw [BitVec.ofNat_toNat, BitVec.setWidth_eq] at memes
              rw [ih _ _ _ _ (by omega), reste, memes, List.map_append, ← lireOctets_eq, ← store_append]
              have longueur : (lireOctets c.octets pa m.toNat).length = m.toNat := by simp [lireOctets]
              rw [longueur, List.length_append, List.length_map, List.length_range, Nat.add_assoc]
              refine Prod.ext rfl (Prod.ext rfl ?_)
              rw [decide_eq_decide]
              omega

theorem gdbCopyin_eq (c : Client) (src : Entier) (dest : Tampon) (size : Entier) :
    gdbCopyin c src dest size =
      (store dest 0 ((adresses c size.toNat src).map c.octets), (adresses c size.toNat src).length,
        decide ((adresses c size.toNat src).length = size.toNat)) := by
  rw [gdbCopyin, copyin_eq _ _ _ _ _ le_rfl, Nat.zero_add]

def ecrire (octets : Entier → Octet) (l : List (Entier × Octet)) : Entier → Octet :=
  l.foldl (fun m x => Function.update m x.1 x.2) octets

theorem ecrire_append (octets : Entier → Octet) (l l' : List (Entier × Octet)) :
    ecrire octets (l ++ l') = ecrire (ecrire octets l) l' := List.foldl_append

theorem ecrire_ailleurs {octets : Entier → Octet} {l : List (Entier × Octet)} {a : Entier}
    (absent : a ∉ l.map Prod.fst) : ecrire octets l a = octets a := by
  induction l generalizing octets with
  | nil => rfl
  | cons x l ih =>
      rw [List.map_cons, List.mem_cons, not_or] at absent
      exact (ih absent.2).trans (Function.update_of_ne absent.1 ..)

theorem ecrireOctets_eq (octets : Entier → Octet) (pa : Entier) (l : List Octet) :
    ecrireOctets octets pa l =
      ecrire octets (((List.range l.length).map fun i => pa + BitVec.ofNat 32 i).zip l) := by
  induction l generalizing octets pa with
  | nil => rfl
  | cons x l ih =>
      have suivantes : (List.range l.length).map ((fun i => pa + BitVec.ofNat 32 i) ∘ Nat.succ) =
          (List.range l.length).map fun i => pa + 1 + BitVec.ofNat 32 i := by
        refine List.map_congr_left fun i _ => ?_
        rw [BitVec.add_assoc]
        refine congrArg (pa + ·) (BitVec.eq_of_toNat_eq ?_)
        simp [Nat.add_comm]
      rw [ecrireOctets, ih, List.length_cons, List.range_succ_eq_map, List.map_cons, List.map_map, suivantes]
      simp [ecrire]

/-- Whatever is written to the `n` bytes from `v` on, their pages stay where they are. -/
def Stable (c : Client) (n : Nat) (v : Entier) : Prop :=
  ∀ octets : Entier → Octet, (∀ a, a ∉ adresses c n v → octets a = c.octets a) →
    ∀ i, i < n → physAddrLookup { c with octets := octets } (v + BitVec.ofNat 32 i) =
      physAddrLookup c (v + BitVec.ofNat 32 i)

def octetsLong (a : Entier) : List Entier := [a, a + 1, a + 2, a + 3]

/-- The physical addresses of the bytes of the entries that give the translation of `v`: the entry of the
directory, and that of the table when the directory has one. -/
def entrees (c : Client) (v : Entier) : List Entier :=
  let pd := (c.cr3 &&& 0xfffff000) + 4 * lin2pdenum v
  let pde := lireLong c.octets pd
  if c.cr0 &&& 0x80000000 = 0 then []
  else if pde &&& 1 ≠ 0 ∧ pde &&& 0x80 = 0 then
    octetsLong pd ++ octetsLong ((pde &&& 0xfffff000) + 4 * lin2ptenum v)
  else octetsLong pd

/-- None of the `n` bytes from `v` on is a byte of the entries that translate them. -/
def HorsTables (c : Client) (n : Nat) (v : Entier) : Prop :=
  ∀ i, i < n → ∀ a ∈ entrees c (v + BitVec.ofNat 32 i), a ∉ adresses c n v

theorem lireLong_congr {octets octets' : Entier → Octet} {a : Entier}
    (memes : ∀ x ∈ octetsLong a, octets x = octets' x) : lireLong octets a = lireLong octets' a := by
  rw [lireLong, lireLong, memes a (by simp [octetsLong]), memes (a + 1) (by simp [octetsLong]),
    memes (a + 2) (by simp [octetsLong]), memes (a + 3) (by simp [octetsLong])]

theorem lookup_congr {octets : Entier → Octet} (memes : ∀ a ∈ entrees c v, octets a = c.octets a) :
    physAddrLookup { c with octets := octets } v = physAddrLookup c v := by
  unfold entrees at memes
  unfold physAddrLookup
  dsimp only at memes ⊢
  by_cases sans : c.cr0 &&& 0x80000000 = 0
  · rw [if_pos sans, if_pos sans]
  · rw [if_neg sans] at memes
    have repertoire : lireLong octets ((c.cr3 &&& 0xfffff000) + 4 * lin2pdenum v) =
        lireLong c.octets ((c.cr3 &&& 0xfffff000) + 4 * lin2pdenum v) := by
      refine lireLong_congr fun a lue => memes a ?_
      split
      · exact List.mem_append_left _ lue
      · exact lue
    rw [if_neg sans, if_neg sans, repertoire]
    split
    · rfl
    · next presente =>
        split
        · next petite =>
            rw [if_pos ⟨presente, petite⟩] at memes
            rw [lireLong_congr fun a lue => memes a (List.mem_append_right _ lue)]
        · rfl

theorem HorsTables.stable (hors : HorsTables c n v) : Stable c n v := by
  intro octets garde i avant
  exact lookup_congr fun a lue => garde a (hors i avant a lue)

theorem copyout_eq (stable : Stable c n v) (tours k : Nat) (octets : Entier → Octet) (src : List Octet)
    (place : k + src.length = n) (assez : src.length ≤ tours)
    (visees : adresses c src.length (v + BitVec.ofNat 32 k) ⊆ adresses c n v)
    (garde : ∀ a, a ∉ adresses c n v → octets a = c.octets a) :
    copyout { c with octets := octets } tours src (v + BitVec.ofNat 32 k) =
      ({ c with octets := ecrire octets ((adresses c src.length (v + BitVec.ofNat 32 k)).zip src) },
        decide ((adresses c src.length (v + BitVec.ofNat 32 k)).length = src.length)) := by
  induction tours generalizing k octets src with
  | zero =>
      obtain rfl := List.eq_nil_of_length_eq_zero (Nat.le_zero.mp assez)
      rfl
  | succ tours ih =>
      rw [copyout]
      split
      · next vide =>
          obtain rfl := List.eq_nil_of_length_eq_zero vide
          rfl
      · next nonVide =>
          rw [stable octets garde k (by omega)]
          cases trouve : physAddrLookup c (v + BitVec.ofNat 32 k) with
          | none =>
              obtain ⟨j, taille⟩ : ∃ j, src.length = j + 1 := ⟨src.length - 1, by omega⟩
              simp [taille, adresses, adressePhysique, trouve, ecrire]
          | some r =>
              obtain ⟨pa, sz⟩ := r
              dsimp only
              generalize bloc : (if src.length < sz.toNat then src.length else sz.toNat) = m
              have borne : 0 < m ∧ m ≤ src.length ∧ m ≤ sz.toNat := by
                have szPositif := sz_positif trouve
                rw [← bloc]
                split <;> omega
              have memes := adresses_bloc trouve borne.2.2 borne.2.1
              have suite : v + BitVec.ofNat 32 k + BitVec.ofNat 32 m = v + BitVec.ofNat 32 (k + m) := by
                rw [BitVec.add_assoc]
                refine congrArg (v + ·) (BitVec.eq_of_toNat_eq ?_)
                simp
              have prises : (src.take m).length = m := by rw [List.length_take]; omega
              have gauche : ((List.range m).map fun i => pa + BitVec.ofNat 32 i).length = (src.take m).length := by
                rw [List.length_map, List.length_range, prises]
              have ecrit := ecrireOctets_eq octets pa (src.take m)
              rw [prises] at ecrit
              rw [memes] at visees ⊢
              rw [suite] at visees ⊢
              obtain ⟨premieres, dernieres⟩ := List.append_subset.mp visees
              have longueur : (src.drop m).length = src.length - m := List.length_drop
              have garde' : ∀ a, a ∉ adresses c n v → ecrireOctets octets pa (src.take m) a = c.octets a := by
                intro a absent
                rw [ecrit, ecrire_ailleurs, garde a absent]
                intro mem
                rw [List.map_fst_zip gauche.le] at mem
                exact absent (premieres mem)
              have appel := ih (k + m) (ecrireOctets octets pa (src.take m)) (src.drop m) (by omega) (by omega)
                (longueur ▸ dernieres) garde'
              rw [longueur] at appel
              rw [appel, ecrit, ← ecrire_append, ← List.zip_append gauche, List.take_append_drop]
              refine Prod.ext rfl ?_
              rw [decide_eq_decide, List.length_append, List.length_map, List.length_range]
              omega

theorem gdbCopyout_eq {src : List Octet} (stable : Stable c src.length v) :
    gdbCopyout c src v = ({ c with octets := ecrire c.octets ((adresses c src.length v).zip src) },
      decide ((adresses c src.length v).length = src.length)) := by
  have appel := copyout_eq stable src.length 0 c.octets src (Nat.zero_add _) le_rfl
    (by simp) fun _ _ => rfl
  simpa [gdbCopyout] using appel

theorem ecrire_relu {octets : Entier → Octet} {l : List (Entier × Octet)} (distinctes : (l.map Prod.fst).Nodup)
    {x : Entier × Octet} (mem : x ∈ l) : ecrire octets l x.1 = x.2 := by
  induction l generalizing octets with
  | nil => cases mem
  | cons y l ih =>
      rw [List.map_cons, List.nodup_cons] at distinctes
      rcases List.mem_cons.mp mem with rfl | reste
      · exact (@ecrire_ailleurs (Function.update octets x.1 x.2) _ _ distinctes.1).trans
          (Function.update_self ..)
      · exact ih distinctes.2 reste

theorem ecrire_zip {octets : Entier → Octet} {l : List Entier} {src : List Octet} (longueur : l.length = src.length)
    (distinctes : l.Nodup) : l.map (ecrire octets (l.zip src)) = src := by
  refine List.ext_getElem (by rw [List.length_map, longueur]) fun i avant avant' => ?_
  rw [List.getElem_map]
  have mem : (l[i], src[i]) ∈ l.zip src := by
    rw [List.mem_iff_getElem]
    exact ⟨i, by simp; omega, by simp⟩
  exact ecrire_relu (by rwa [List.map_fst_zip longueur.le]) mem

theorem adresses_stable (stable : Stable c n v) {octets : Entier → Octet}
    (garde : ∀ a, a ∉ adresses c n v → octets a = c.octets a) :
    adresses { c with octets := octets } n v = adresses c n v := by
  suffices general : ∀ k j, j + k = n →
      adresses { c with octets := octets } k (v + BitVec.ofNat 32 j) = adresses c k (v + BitVec.ofNat 32 j) by
    simpa using general n 0 (Nat.zero_add n)
  intro k
  induction k with
  | zero => exact fun _ _ => rfl
  | succ k ih =>
      intro j place
      have meme := stable octets garde j (by omega)
      have suite : v + BitVec.ofNat 32 j + 1 = v + BitVec.ofNat 32 (j + 1) := by
        rw [BitVec.add_assoc]
        refine congrArg (v + ·) (BitVec.eq_of_toNat_eq ?_)
        simp
      rw [adresses, adresses, adressePhysique, adressePhysique, meme, suite, ih (j + 1) (by omega)]

/-- What a copy of `src` to distinct physical bytes leaves. -/
structure Copie (c c' : Client) (src : List Octet) (v : Entier) : Prop where
  registres : c' = { c with octets := c'.octets }
  complet : (adresses c src.length v).length = src.length
  garde : ∀ a, a ∉ adresses c src.length v → c'.octets a = c.octets a
  traduites : adresses c' src.length v = adresses c src.length v
  relus : (adresses c src.length v).map c'.octets = src

theorem copie_of_gdbCopyout {c' : Client} {src : List Octet} (stable : Stable c src.length v)
    (distinctes : (adresses c src.length v).Nodup) (ecrit : gdbCopyout c src v = (c', true)) : Copie c c' src v := by
  rw [gdbCopyout_eq stable] at ecrit
  obtain ⟨rfl, complet⟩ := Prod.mk.inj ecrit
  have longueur := of_decide_eq_true complet
  have garde : ∀ a, a ∉ adresses c src.length v →
      ecrire c.octets ((adresses c src.length v).zip src) a = c.octets a := by
    intro a absent
    rw [ecrire_ailleurs]
    rwa [List.map_fst_zip longueur.le]
  exact ⟨rfl, longueur, garde, adresses_stable stable garde, ecrire_zip longueur distinctes⟩

end ProjetSysteme.Invariant.Gdb
