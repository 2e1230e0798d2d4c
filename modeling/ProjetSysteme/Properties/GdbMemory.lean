/- Properties/GdbMemory
   source: kernel/gdb_serial_support.c
   digest: What the remote debugger reads and writes through the page tables. -/

import ProjetSysteme.Invariant.GdbMemory

set_option autoImplicit false
set_option relaxedAutoImplicit false

namespace ProjetSysteme.Properties.GdbMemory

open Kernel.GdbSerial Invariant.Gdb Library.Buffer

/-- `gdb_copyin` copies the bytes at the physical addresses of the range, up to the first virtual address
that has none, and returns 0 exactly when there is none such. -/
theorem gdbCopyin_octet_par_octet (c : Client) (src : Entier) (dest : Tampon) (size : Entier) :
    ∃ n dest', gdbCopyin c src dest size = (dest', n, decide (n = size.toNat)) ∧ n ≤ size.toNat ∧
      (∀ i, i < n → (adressePhysique c (src + BitVec.ofNat 32 i)).map c.octets = some (dest' i)) ∧
      (n < size.toNat → adressePhysique c (src + BitVec.ofNat 32 n) = none) ∧
      ∀ i, n ≤ i → dest' i = dest i := by
  refine ⟨_, _, gdbCopyin_eq c src dest size, adresses_length, fun i avant => ?_, fun court => ?_, fun i apres => ?_⟩
  · rw [← adresses_getElem? avant, ← List.getElem?_map]
    exact store_start (by rwa [List.length_map])
  · exact adresses_fin court
  · exact store_after (by rwa [List.length_map, Nat.zero_add])

/-- A successful `gdb_copyout` to distinct physical bytes that are not those of the entries that translate the
range: the range then reads as what was written, no other physical byte has changed, and an address whose entries
were not written, such as those of the range, has the translation it had. -/
theorem gdbCopyout_relu {c : Client} {src : List Octet} {v : Entier} (court : src.length < 2 ^ 32)
    (hors : HorsTables c src.length v) (distinctes : (adresses c src.length v).Nodup) {c' : Client}
    (ecrit : gdbCopyout c src v = (c', true)) (dest : Tampon) :
    gdbCopyin c' v dest (BitVec.ofNat 32 src.length) = (store dest 0 src, src.length, true) ∧
      c'.cr0 = c.cr0 ∧ c'.cr3 = c.cr3 ∧ (∀ a, a ∉ adresses c src.length v → c'.octets a = c.octets a) ∧
      (∀ i, i < src.length → physAddrLookup c' (v + BitVec.ofNat 32 i) = physAddrLookup c (v + BitVec.ofNat 32 i)) ∧
      ∀ w, (∀ a ∈ entrees c w, a ∉ adresses c src.length v) → physAddrLookup c' w = physAddrLookup c w := by
  have copie := copie_of_gdbCopyout hors.stable distinctes ecrit
  have memes : ∀ w, (∀ a ∈ entrees c w, a ∉ adresses c src.length v) → physAddrLookup c' w = physAddrLookup c w := by
    intro w intactes
    rw [copie.registres]
    exact lookup_congr fun a lue => copie.garde a (intactes a lue)
  have cr0 : c'.cr0 = c.cr0 := by rw [copie.registres]
  have cr3 : c'.cr3 = c.cr3 := by rw [copie.registres]
  refine ⟨?_, cr0, cr3, copie.garde, fun i avant => memes _ (hors i avant), memes⟩
  have taille : (BitVec.ofNat 32 src.length).toNat = src.length := by
    rw [BitVec.toNat_ofNat, Nat.mod_eq_of_lt court]
  rw [gdbCopyin_eq, taille, copie.traduites, copie.relus, copie.complet]
  simp

/-- The page 1 is at 0x4000 and the page 2 at 0x7000, by the directory at 0x1000 and the table at 0x2000. -/
def pagine : Client where
  octets a :=
    if a = 0x1000 ∨ a = 0x2004 ∨ a = 0x2008 then 0x03 else if a = 0x1001 then 0x20 else if a = 0x2005 then 0x40
    else if a = 0x2009 then 0x70 else 0
  cr0 := 0x80000000
  cr3 := 0x1000

theorem adresses_pagine : adresses pagine 2 0x1fff = [0x4fff, 0x7000] := by
  decide +kernel

theorem pagine_hors : HorsTables pagine 2 0x1fff := by
  have premieres : entrees pagine 0x1fff = octetsLong 0x1000 ++ octetsLong 0x2004 := by
    decide +kernel
  have secondes : entrees pagine 0x2000 = octetsLong 0x1000 ++ octetsLong 0x2008 := by
    decide +kernel
  intro i avant
  rw [adresses_pagine]
  rcases Nat.le_one_iff_eq_zero_or_eq_one.mp (Nat.le_of_lt_succ avant) with rfl | rfl
  · rw [show (0x1fff : Entier) + BitVec.ofNat 32 0 = 0x1fff from by decide, premieres]
    simp [octetsLong]
  · rw [show (0x1fff : Entier) + BitVec.ofNat 32 1 = 0x2000 from by decide, secondes]
    simp [octetsLong]

theorem gdbCopyout_relu_exemple : ∃ c', gdbCopyout pagine [0x12, 0x34] 0x1fff = (c', true) ∧
    gdbCopyin c' 0x1fff (fun _ => 0) 2 = (store (fun _ => 0) 0 [0x12, 0x34], 2, true) ∧
    c'.octets 0x4fff = 0x12 ∧ c'.octets 0x7000 = 0x34 ∧ c'.octets 0x5000 = 0 ∧
    physAddrLookup c' 0x2000 = some (0x7000, 0x1000) := by
  have complet : (gdbCopyout pagine [0x12, 0x34] 0x1fff).2 = true := by
    decide +kernel
  have distinctes : (adresses pagine 2 0x1fff).Nodup := by
    rw [adresses_pagine]
    decide
  obtain ⟨relu, -, -, garde, traduit, -⟩ := @gdbCopyout_relu pagine [0x12, 0x34] 0x1fff (by decide) pagine_hors
    distinctes _ (Prod.ext rfl complet) fun _ => 0
  refine ⟨_, Prod.ext rfl complet, relu, by decide +kernel, by decide +kernel, (garde 0x5000 ?_).trans (by decide),
    (traduit 1 (by decide)).trans (by decide +kernel)⟩
  change 0x5000 ∉ adresses pagine 2 0x1fff
  rw [adresses_pagine]
  decide

end ProjetSysteme.Properties.GdbMemory
