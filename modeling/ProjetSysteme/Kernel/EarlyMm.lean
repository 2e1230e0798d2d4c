/- Kernel/EarlyMm
   source: kernel/boot/early_mm.c, kernel/boot/crt0.S, kernel/build/kernel.lds
   digest: The page tables of the kernel at boot. -/

import ProjetSysteme.Kernel.Memory

set_option autoImplicit false
set_option relaxedAutoImplicit false

namespace ProjetSysteme.Kernel.EarlyMm

structure Symboles where
  start : Mot
  textStart : Mot
  textEnd : Mot
  multibootStart : Mot
  multibootEnd : Mot
  bootstrapStackStart : Mot
  bootstrapStackEnd : Mot
  rodataStart : Mot
  rodataEnd : Mot
  dataStart : Mot
  dataEnd : Mot
  bssStart : Mot
  bssEnd : Mot
  fin : Mot
  memEnd : Mot
  pgdir : Mot
  pgtab : Mot

def assertAligned (symbol : Mot) : Bool := symbol &&& 0xFFFFF000 = symbol

/-- The difference is one of `long int`. -/
def assertConsistent (start fin : Mot) : Bool := ¬ fin.toInt - start.toInt < 4096

/-- `early_mm_check` returns; the assertions on `.bss` are those on `.data`. -/
def earlyMmCheck (s : Symboles) : Bool :=
  assertAligned s.start &&
  assertAligned s.textStart && assertAligned s.textEnd && assertConsistent s.textStart s.textEnd &&
  assertAligned s.multibootStart && assertAligned s.multibootEnd &&
    assertConsistent s.multibootStart s.multibootEnd &&
  assertAligned s.bootstrapStackStart && assertAligned s.bootstrapStackEnd &&
    assertConsistent s.bootstrapStackStart s.bootstrapStackEnd &&
  assertAligned s.rodataStart && assertAligned s.rodataEnd && assertConsistent s.rodataStart s.rodataEnd &&
  assertAligned s.dataStart && assertAligned s.dataEnd && assertConsistent s.dataStart s.dataEnd &&
  assertAligned s.dataStart && assertAligned s.dataEnd && assertConsistent s.dataStart s.dataEnd &&
  assertConsistent s.start s.fin

def pageTableRo : Mot := 1
def pageTableRw : Mot := 3

def effacer (mots : Mot → Mot) (pgtab : Mot) : Mot → Mot := fun a =>
  if (a - pgtab).toNat < 4096 * 64 then 0 else mots a

/-- `early_mm_map_region` from the address reached. After 2^20 turns the addresses come back, so a loop that
has not ended by then has no end. -/
def earlyMmMapRegion (mots : Mot → Mot) (pdir : Mot) : Nat → Mot → Mot → Mot → Option (Mot → Mot)
  | 0, _, _, _ => none
  | tours + 1, address, fin, flags =>
    if address < fin then
      let pdIndex := (address >>> 22).toNat
      let ptIndex := ((address >>> 12) &&& 0x3FF).toNat
      let ptable := mots (caseTable pdir pdIndex) &&& 0xFFFFF000
      earlyMmMapRegion (ecrire mots (caseTable ptable ptIndex) ((address &&& 0xFFFFF000) ||| flags)) pdir tours
        (address + 4096) fin flags
    else some mots

structure Region where
  debut : Mot
  fin : Mot
  flags : Mot

def regions (s : Symboles) : List Region :=
  [⟨4096, s.start, pageTableRw⟩,
    ⟨s.start, s.textStart, pageTableRw⟩,
    ⟨s.textStart, s.textEnd, pageTableRo⟩,
    ⟨s.multibootStart, s.multibootEnd, pageTableRo⟩,
    ⟨s.rodataStart, s.rodataEnd, pageTableRo⟩,
    ⟨s.bootstrapStackStart, s.bootstrapStackEnd, pageTableRw⟩,
    ⟨s.dataStart, s.dataEnd, pageTableRw⟩,
    ⟨s.bssStart, s.bssEnd, pageTableRw⟩,
    ⟨s.fin, s.memEnd, pageTableRw⟩]

/-- As many turns as there are pages, 2^20, and the last test. -/
def toursMax : Nat := 0x100001

def mapRegions (pdir : Mot) : List Region → (Mot → Mot) → Option (Mot → Mot)
  | [], mots => some mots
  | r :: reste, mots =>
    (earlyMmMapRegion mots pdir toursMax r.debut r.fin r.flags).bind (mapRegions pdir reste)

def earlyMmMapKernel (s : Symboles) (mots : Mot → Mot) : Option (Mot → Mot) :=
  let mots := effacer mots s.pgtab
  let mots := remplir mots s.pgdir (earlyMmFillPgdir s.pgtab 64)
  let mots := ecrire mots s.pgtab 0
  mapRegions s.pgdir (regions s) mots

end ProjetSysteme.Kernel.EarlyMm
