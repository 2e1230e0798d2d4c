/- Kernel/GdbMemory
   source: kernel/gdb_serial_support.c
   digest: The memory of the debugged program, through its page tables. -/

import ProjetSysteme.Kernel.GdbSerial
import ProjetSysteme.Library.Buffer

set_option autoImplicit false
set_option relaxedAutoImplicit false

namespace ProjetSysteme.Kernel.GdbSerial

open Library.Buffer (store)

/-- The physical memory, and the paging registers of the debugged program. -/
structure Client where
  octets : Entier → Octet
  cr0 : Entier
  cr3 : Entier

def lireLong (octets : Entier → Octet) (a : Entier) : Entier :=
  octets (a + 3) ++ octets (a + 2) ++ octets (a + 1) ++ octets a

def lin2pdenum (a : Entier) : Entier := (a >>> 22) &&& 0x3ff

def lin2ptenum (a : Entier) : Entier := (a >>> 12) &&& 0x3ff

/-- The physical address and the size of the rest of the page; none is the size 0. -/
def physAddrLookup (c : Client) (vaddr : Entier) : Option (Entier × Entier) :=
  let pd := c.cr3 &&& 0xfffff000
  let pde := lireLong c.octets (pd + 4 * lin2pdenum vaddr)
  if c.cr0 &&& 0x80000000 = 0 then some (vaddr, 0xffffffff)
  else if pde &&& 1 = 0 then none
  else if pde &&& 0x80 = 0 then
    let pt := pde &&& 0xfffff000
    let pte := lireLong c.octets (pt + 4 * lin2ptenum vaddr)
    let offs := vaddr &&& 0xfff
    if pte &&& 1 = 0 then none else some ((pte &&& 0xfffff000) + offs, 0xfff + 1 - offs)
  else
    let offs := vaddr &&& 0x3fffff
    some ((pde &&& ~~~0x3fffff) + offs, 0x400000 - offs)

def lireOctets (octets : Entier → Octet) (pa : Entier) (sz : Nat) : List Octet :=
  (List.range sz).map fun i => octets (pa + BitVec.ofNat 32 i)

/-- `memcpy` of `l` to the physical address `pa`, in the order of the addresses. -/
def ecrireOctets (octets : Entier → Octet) (pa : Entier) : List Octet → Entier → Octet
  | [] => octets
  | x :: l => ecrireOctets (Function.update octets pa x) (pa + 1) l

/-- `gdb_copyin`; its results are the buffer, the number of bytes copied, and whether it returns 0. At
least one byte is copied each turn, so the size bounds the turns. -/
def copyin (c : Client) : Nat → Entier → Tampon → Nat → Entier → Tampon × Nat × Bool
  | 0, _, dest, o, _ => (dest, o, true)
  | tours + 1, src, dest, o, size =>
    if size = 0 then (dest, o, true)
    else
      match physAddrLookup c src with
      | none => (dest, o, false)
      | some (pa, sz) =>
        let sz := if size < sz then size else sz
        copyin c tours (src + sz) (store dest o (lireOctets c.octets pa sz.toNat)) (o + sz.toNat) (size - sz)

def gdbCopyin (c : Client) (src : Entier) (dest : Tampon) (size : Entier) : Tampon × Nat × Bool :=
  copyin c size.toNat src dest 0 size

/-- `gdb_copyout` of the bytes of `src`, which are as many as the size. -/
def copyout (c : Client) : Nat → List Octet → Entier → Client × Bool
  | 0, _, _ => (c, true)
  | tours + 1, src, dest =>
    if src.length = 0 then (c, true)
    else
      match physAddrLookup c dest with
      | none => (c, false)
      | some (pa, sz) =>
        let n := if src.length < sz.toNat then src.length else sz.toNat
        copyout { c with octets := ecrireOctets c.octets pa (src.take n) } tours (src.drop n)
          (dest + BitVec.ofNat 32 n)

def gdbCopyout (c : Client) (src : List Octet) (dest : Entier) : Client × Bool := copyout c src.length src dest

end ProjetSysteme.Kernel.GdbSerial
