/- Kernel/Division
   source: shared/div64.c, kernel/math.c
   digest: The two divisions of 64-bit numbers, one by the division of the processor, one by shifts. -/

import Mathlib.Data.BitVec
import ProjetSysteme.Library.Loop

set_option autoImplicit false
set_option relaxedAutoImplicit false

namespace ProjetSysteme.Kernel.Division

open Library.Loop

abbrev Entier := BitVec 32

abbrev LongLong := BitVec 64

/-- `log2`, the instruction `bsr`, of a number that is not zero. -/
def hardBsr (n : Entier) : Nat := n.toNat.log2

/-- `shrdl`: `dst` is filled with the low bits of `src`, by a count taken modulo 32. -/
def shrd (src dst : Entier) (n : Nat) : Entier := dst >>> (n % 32) ||| src <<< (32 - n % 32)

def rshift64_32 (x1 x0 : Entier) (n : Nat) : Entier := if n.testBit 5 then x1 else shrd x1 x0 n

def rshift64 (x1 x0 : Entier) (n : Nat) : Entier × Entier :=
  let haut := x1 >>> (n % 32)
  if n.testBit 5 then (0, haut) else (haut, shrd x1 x0 n)

/-- `div64_32`, the instruction `divl`: the remainder and the quotient; it faults when the divisor is
zero and when the quotient takes more than 32 bits. -/
def div64_32 (x1 x0 y : Entier) : Option (Entier × Entier) :=
  let x := x1.toNat * 2 ^ 32 + x0.toNat
  if y = 0 ∨ 2 ^ 32 ≤ x / y.toNat then none
  else some (BitVec.ofNat 32 (x % y.toNat), BitVec.ofNat 32 (x / y.toNat))

def motHaut (x : LongLong) : Entier := x.extractLsb' 32 32

def motBas (x : LongLong) : Entier := x.extractLsb' 0 32

/-- The first block of `do_div64`: the digit that the division of the leading words gives. -/
def estimer (x y : LongLong) : Option Entier :=
  let l := hardBsr (motHaut y) + 1
  let y0 := rshift64_32 (motHaut y) (motBas y) l
  let (x1, x0) := rshift64 (motHaut x) (motBas x) l
  (div64_32 x1 x0 (y0 + 1)).map Prod.snd

/-- A turn of the loop of the second block, on `x0` and `r`. -/
def tourCorriger (y : LongLong) : Entier × LongLong → Option ((Entier × LongLong) ⊕ (LongLong × LongLong))
  | (x0, r) => if y ≤ r then some (.inl (x0 + 1, r - y)) else some (.inr (x0.setWidth 64, r))

def doDiv64 (x y : LongLong) : Option (LongLong × LongLong) :=
  let y1 := motHaut y
  let y0 := motBas y
  let x1 := motHaut x
  let x0 := motBas x
  if y1 ≠ 0 then do
    let x0 ← estimer x y
    let r := x - y * x0.setWidth 64
    loop (tourCorriger y) (r.toNat + 1) (x0, r)
  else if x1 < y0 then do
    let (x1, x0) ← div64_32 x1 x0 y0
    some (x0.setWidth 64, x1.setWidth 64)
  else if y0 ≠ 0 then do
    let (x2, x1) ← div64_32 0 x1 y0
    let (x2, x0) ← div64_32 x2 x0 y0
    some ((x1.setWidth 64) <<< 32 + x0.setWidth 64, x2.setWidth 64)
  else some (0, x)

/-- A turn of the first loop of `div64`, on `div` and `mul`. -/
def tourDoubler (x : LongLong) : LongLong × LongLong → Option ((LongLong × LongLong) ⊕ (LongLong × LongLong))
  | (div, mul) =>
    if div >>> 32 &&& 0x80000000 ≠ 0 then some (.inr (div, mul))
    else
      let newd := div + div
      if x < newd then some (.inr (div, mul)) else some (.inl (newd, mul + mul))

structure Variables where
  mul : LongLong
  div : LongLong
  q : LongLong
  x : LongLong

def tourRetrancher (v : Variables) : Option (Variables ⊕ (LongLong × LongLong)) :=
  let mul := v.mul / 2
  let div := v.div / 2
  if mul = 0 then some (.inr (v.q, v.x))
  else if v.x < div then some (.inl { v with mul, div })
  else some (.inl { mul, div, q := v.q + mul, x := v.x - div })

def div64 (x div : LongLong) : Option (LongLong × LongLong) :=
  if x < div ∨ div = 0 then some (0, x)
  else do
    let (div, mul) ← loop (tourDoubler x) (2 ^ 64 - div.toNat + 1) (div, 1)
    loop tourRetrancher (mul.toNat + 1) { mul, div, q := mul, x := x - div }

end ProjetSysteme.Kernel.Division
