/- Kernel/Random
   source: kernel/math.c
   digest: The pseudo-random numbers, and the product of 64-bit numbers they use. -/

import Mathlib.Data.BitVec

set_option autoImplicit false
set_option relaxedAutoImplicit false

namespace ProjetSysteme.Kernel.Random

abbrev Entier := BitVec 32

abbrev LongLong := BitVec 64

/-- `x & 0xffff` after `n` shifts of 16 bits, in an `unsigned long`. -/
def morceau (x : LongLong) (n : Nat) : Entier := (x >>> (16 * n) &&& 0xffff).setWidth 32

/-- `mul64`; the products of two pieces are products of `unsigned long`. -/
def mul64 (x y : LongLong) : LongLong :=
  let a := morceau x 0
  let b := morceau x 1
  let c := morceau x 2
  let d := morceau x 3
  let e := morceau y 0
  let f := morceau y 1
  let g := morceau y 2
  let h := morceau y 3
  let res := (d * e).setWidth 64
  let res := res + (c * f).setWidth 64
  let res := res + (b * g).setWidth 64
  let res := res + (a * h).setWidth 64
  let res := res <<< 16
  let res := res + (c * e).setWidth 64
  let res := res + (b * f).setWidth 64
  let res := res + (a * g).setWidth 64
  let res := res <<< 16
  let res := res + (b * e).setWidth 64
  let res := res + (a * f).setWidth 64
  let res := res <<< 16
  res + (a * e).setWidth 64

def multiplier : LongLong := 0x5DEECE66D
def addend : LongLong := 0xB
def mask : LongLong := (1 <<< 48) - 1

/-- `randBits` from the value of `_seed`, with the new one. -/
def randBits (bits : Nat) (seed : LongLong) : Entier × LongLong :=
  let nextseed := mul64 seed multiplier + addend &&& mask
  let rbits : Entier := (nextseed >>> 16).setWidth 32
  (rbits >>> (32 - bits), nextseed)

def randShort (seed : LongLong) : BitVec 16 × LongLong :=
  let (r, seed) := randBits 15 seed
  (r.setWidth 16, seed)

def rand (seed : LongLong) : Entier × LongLong := randBits 32 seed

/-- The value of `_seed` after `n` calls of `randBits`, from `setSeed(s)`; `appels` gives the number of bits
of each call. -/
def graines (s : LongLong) (appels : Nat → Nat) : Nat → LongLong
  | 0 => s
  | n + 1 => (randBits (appels n) (graines s appels n)).2

end ProjetSysteme.Kernel.Random
