/- Kernel/Print
   source: kernel/print.c
   digest: The text screen: 25 lines of 80 cells of video memory, and its cursor. -/

import Mathlib.Data.List.Range
import Mathlib.Tactic.Common

set_option autoImplicit false
set_option relaxedAutoImplicit false

namespace ProjetSysteme.Kernel

/-- The video memory by cell from `0xB8000`, the globals of the file, and what was done:
the bytes sent to the ports, the line and the column of each cell written, and the
number of calls of `defilement`. -/
structure Ecran where
  memoire : Nat → UInt16
  couleurEcritureEcrant : UInt16
  ligneCurseur : Nat
  colonneCurseur : Nat
  ports : List (UInt8 × UInt16)
  ecritures : List (Nat × Nat)
  defilements : Nat

def nbLignes : Nat := 25

def nbColonnes : Nat := 80

def ptrMem (l c : Nat) : Nat := l * nbColonnes + c

/-- `c|couleur_ecriture_ecrant`: the character is signed and extended first. -/
def caseEcran (couleur : UInt16) (c : Int8) : UInt16 := c.toInt16.toUInt16 ||| couleur

def ecritCar (e : Ecran) (lig col : Nat) (c : Int8) : Ecran :=
  { e with
    memoire := fun w => if w = ptrMem lig col then caseEcran e.couleurEcritureEcrant c else e.memoire w
    ecritures := e.ecritures ++ [(lig, col)] }

def outb (e : Ecran) (valeur : UInt8) (port : UInt16) : Ecran := { e with ports := e.ports ++ [(valeur, port)] }

def placeCurseur (e : Ecran) (lig col : Nat) : Ecran :=
  let m := UInt16.ofNat (lig * nbColonnes + col)
  let e := outb e 0xF 0x3D4
  let e := outb e m.toUInt8 0x3D5
  let e := outb e 0xE 0x3D4
  let e := outb e (m >>> 8).toUInt8 0x3D5
  { e with ligneCurseur := lig, colonneCurseur := col }

/-- The line and the column of the cells from the word `debut` on. -/
def casesDepuis (debut nombre : Nat) : List (Nat × Nat) :=
  (List.range' debut nombre).map fun w => (w / nbColonnes, w % nbColonnes)

def memmove (e : Ecran) (dest src nombre : Nat) : Ecran :=
  { e with
    memoire := fun w => if dest ≤ w ∧ w < dest + nombre then e.memoire (src + (w - dest)) else e.memoire w
    ecritures := e.ecritures ++ casesDepuis dest nombre }

def memset (e : Ecran) (dest nombre : Nat) : Ecran :=
  { e with
    memoire := fun w => if dest ≤ w ∧ w < dest + nombre then 0 else e.memoire w
    ecritures := e.ecritures ++ casesDepuis dest nombre }

def defilement (e : Ecran) : Ecran :=
  let e := { e with defilements := e.defilements + 1 }
  let e := if e.ligneCurseur > 0 then { e with ligneCurseur := e.ligneCurseur - 1 } else e
  let e := memmove e 0 nbColonnes (nbColonnes * nbLignes)
  memset e (24 * nbColonnes) nbColonnes

structure Trace where
  ecran : Ecran
  lig : Nat
  col : Nat

def ecrireCaractere (t : Trace) (c : Int8) : Trace :=
  if c = 13 then { t with ecran := ecritCar t.ecran t.lig 0 32, col := 0 }
  else if c = 10 then { t with lig := t.lig + 1, col := 0 }
  else if c = 9 then { t with col := t.col + 8 }
  else if c = 8 then
    let col := if t.col ≠ 0 then t.col - 1 else t.col
    { t with ecran := ecritCar t.ecran t.lig col 32, col := col }
  else { t with ecran := ecritCar t.ecran t.lig t.col c, col := t.col + 1 }

def replier (t : Trace) : Trace := if t.col ≥ nbColonnes then { t with lig := t.lig + 1, col := 0 } else t

def tourPutbytes (t : Trace) (c : Int8) : Trace :=
  let t := replier (ecrireCaractere t c)
  if t.lig = nbLignes then { t with ecran := defilement t.ecran, lig := t.lig - 1 } else t

/-- `console_putbytes` on the `taille` bytes of its string. -/
def consolePutbytes (e : Ecran) (chaine : List Int8) : Ecran :=
  let t := chaine.foldl tourPutbytes { ecran := e, lig := e.ligneCurseur, col := e.colonneCurseur }
  placeCurseur t.ecran t.lig t.col

end ProjetSysteme.Kernel
