/- Kernel/Numeral
   source: shared/strtoul.c, shared/strtol.c, shared/ctype.h, shared/doprnt.c
   digest: Numbers read from characters, and printed as characters. -/

import Mathlib.Logic.Function.Basic

set_option autoImplicit false
set_option relaxedAutoImplicit false

namespace ProjetSysteme.Kernel.Numeral

abbrev Octet := BitVec 8
abbrev Entier := BitVec 32

def isspace (c : Octet) : Bool :=
  c = 0x20 || c = 0x0c || c = 0x0a || c = 0x0d || c = 0x09 || c = 0x0b

/-- The digit that `c` stands for in the base; the three branches of the loops of `strtoul`. -/
def chiffre (base : Nat) (c : Octet) : Option Nat :=
  if 0x30 ≤ c ∧ c ≤ 0x39 ∧ c.toNat - 0x30 < base then some (c.toNat - 0x30)
  else if 0x61 ≤ c ∧ c ≤ 0x7a ∧ c.toNat - 0x61 + 10 < base then some (c.toNat - 0x61 + 10)
  else if 0x41 ≤ c ∧ c ≤ 0x5a ∧ c.toNat - 0x41 + 10 < base then some (c.toNat - 0x41 + 10)
  else none

def lireChiffres (base : Nat) (v : Entier) : List Octet → Entier × Nat
  | [] => (v, 0)
  | c :: p =>
    match chiffre base c with
    | none => (v, 0)
    | some n =>
      let (v, lus) := lireChiffres base (v * BitVec.ofNat 32 base + BitVec.ofNat 32 n) p
      (v, lus + 1)

def lireBase (base : Nat) (p : List Octet) : Nat × Nat :=
  if (base = 16 ∨ base = 0) ∧ p[0]? = some 0x30 ∧ (p[1]? = some 0x78 ∨ p[1]? = some 0x58) then (16, 2)
  else if base = 0 then (if p[0]? = some 0x30 then 8 else 10, 0)
  else (base, 0)

/-- `strtoul` on the bytes from `p` on: the value, and the distance from `p` to `*out_p`. -/
def strtoul (p : List Octet) (base : Nat) : Entier × Nat :=
  let espaces := (p.takeWhile isspace).length
  let p := p.drop espaces
  let (base, prefixe) := lireBase base p
  let (v, lus) := lireChiffres base 0 (p.drop prefixe)
  (v, espaces + prefixe + lus)

/-- A `+` sets `is_neg` but is not skipped. -/
def strtol (p : List Octet) (base : Nat) : Entier × Nat :=
  let espaces := (p.takeWhile isspace).length
  let p := p.drop espaces
  let isNeg := p[0]? = some 0x2d
  let signe := if isNeg then 1 else 0
  let p := p.drop signe
  let (base, prefixe) := lireBase base p
  let (v, lus) := lireChiffres base 0 (p.drop prefixe)
  (if isNeg then -v else v, espaces + signe + prefixe + lus)

def digs : List Octet :=
  [0x30, 0x31, 0x32, 0x33, 0x34, 0x35, 0x36, 0x37, 0x38, 0x39, 0x61, 0x62, 0x63, 0x64, 0x65, 0x66]

def maxbuf : Nat := 4 * 8

/-- The loop of `printnum`, which fills `buf` from its end; `tours` bounds its turns. -/
def remplir (base : Nat) : Nat → Nat → List Octet → List Octet
  | 0, _, buf => buf
  | tours + 1, u, buf =>
    let buf := digs.getD (u % base) 0 :: buf
    let u := u / base
    if u ≠ 0 then remplir base tours u buf else buf

/-- The characters that `printnum` gives to `putc`; with a base from 2 on, `buf` has room for them. -/
def printnum (u : Entier) (base : Nat) : List Octet := remplir base maxbuf u.toNat []

end ProjetSysteme.Kernel.Numeral
