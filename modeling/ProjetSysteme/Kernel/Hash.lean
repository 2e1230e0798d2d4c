/- Kernel/Hash
   source: kernel/hash.c, kernel/hash.h
   digest: The hash table. -/

import Mathlib.Algebra.Group.Nat.Defs
import ProjetSysteme.Kernel.Memory

set_option autoImplicit false
set_option relaxedAutoImplicit false

namespace ProjetSysteme.Kernel

def kHashMinsize : Int := 8

def kHashSlot : Int := 16

def long (x : Int) : Int := x.bmod (2 ^ 32)

inductive SlotMode
  | empty | active | deleted
  deriving DecidableEq, Repr

structure HashSlot where
  key : Mot
  value : Mot
  hash : Mot
  mode : SlotMode
  deriving DecidableEq, Repr

/-- A slot of a new table, or one whose key was removed but for its mode. -/
def HashSlot.nul (mode : SlotMode) : HashSlot := { key := 0, value := 0, hash := 0, mode := mode }

structure HashT where
  fill : Int
  count : Int
  mask : Mot
  table : List HashSlot
  hfunc : Mot → Mot
  cmp : Mot → Mot → Int

/-- The requests made to `mem_alloc`, the last one first, and whether a block was given. -/
abbrev Tas := List (Mot × Bool)

/-- `mem_alloc`.  The heap of the kernel ends at 0x4000000. -/
structure Allocateur where
  accorde : Tas → Mot → Bool
  borne : ∀ tas longueur, accorde tas longueur = true → longueur.toNat ≤ 0x4000000

def memAlloc (a : Allocateur) (tas : Tas) (longueur : Mot) : Bool × Tas :=
  (a.accorde tas longueur, (longueur, a.accorde tas longueur) :: tas)

/-- The table as it is, with -1, when the allocation fails. -/
def hashInitialize (a : Allocateur) (tas : Tas) (map : HashT) (size : Int) : Int × HashT × Tas :=
  match memAlloc a tas (BitVec.ofInt 32 (size * kHashSlot)) with
  | (false, tas) => (-1, map, tas)
  | (true, tas) =>
    (0, { map with
      fill := 0
      count := 0
      mask := BitVec.ofInt 32 (size - 1)
      table := List.replicate size.toNat (HashSlot.nul .empty) }, tas)

def trouve (map : HashT) (key hash : Mot) (slot : HashSlot) : Bool :=
  slot.key = key || (slot.hash = hash && map.cmp slot.key key ≠ 0)

def HashT.lire (map : HashT) (slot : Nat) : Except Faute HashSlot :=
  match map.table[slot]? with
  | some s => .ok s
  | none => .error .horsTable

/-- The `while (1)` of `hash_lookup`: the index in the table of the slot that is returned.
It is given `tours` turns. -/
def lookupBoucle (map : HashT) (key hash : Mot) :
    Nat → Mot → Mot → Nat → Option Nat → Except Faute Nat
  | 0, _, _, _, _ => .error .boucle
  | tours + 1, index, perturb, slot, freeslot => do
    let s ← map.lire slot
    if s.mode = .empty then
      match freeslot with
      | none => return slot
      | some libre => return libre
    else if s.mode = .active ∧ trouve map key hash s then return slot
    else
      let freeslot := if s.mode = .deleted ∧ freeslot = none then some slot else freeslot
      let index := 5 * index + perturb + 1
      lookupBoucle map key hash tours index (perturb >>> 5) (index &&& map.mask).toNat freeslot

def hashLookup (tours : Nat) (map : HashT) (key hash : Mot) : Except Faute Nat :=
  let index := hash &&& map.mask
  lookupBoucle map key hash tours index hash index.toNat none

/-- The loop of `hash_copy` from the slot `i` on, with `reste` slots to go. -/
def copyBoucle (tours : Nat) (oldtable : List HashSlot) : Nat → Nat → HashT → Except Faute HashT
  | 0, _, map => .ok map
  | reste + 1, i, map =>
    match oldtable[i]? with
    | none => .error .horsTable
    | some old =>
      if old.mode ≠ .active then copyBoucle tours oldtable reste (i + 1) map
      else do
        let new ← hashLookup tours map old.key (map.hfunc old.key)
        copyBoucle tours oldtable reste (i + 1) { map with
          table := map.table.set new { old with mode := .active }
          fill := map.fill + 1
          count := map.count + 1 }

def hashCopy (tours : Nat) (map : HashT) (oldtable : List HashSlot) (oldsize : Int) : Except Faute HashT :=
  copyBoucle tours oldtable oldsize.toNat 0 map

/-- The end of `hash_update`: the table takes the size `newSize`. -/
def redimensionner (a : Allocateur) (tours : Nat) (tas : Tas) (map : HashT) (oldSize newSize : Int) :
    Except Faute (Int × HashT × Tas) :=
  match hashInitialize a tas map newSize with
  | (0, neuve, tas) => do
    let copiee ← hashCopy tours neuve map.table oldSize
    return (0, copiee, tas)
  | (_, neuve, tas) => .ok (-1, neuve, tas)

def hashUpdate (a : Allocateur) (tours : Nat) (tas : Tas) (map : HashT) : Except Faute (Int × HashT × Tas) :=
  let oldSize := long (map.mask.toNat + 1)
  if long (3 * map.fill) ≥ long (2 * oldSize) then
    let newSize := long (oldSize * 2)
    if newSize < oldSize then .ok (-1, map, tas)
    else redimensionner a tours tas map oldSize newSize
  else if oldSize > kHashMinsize ∧ long (4 * map.count) ≤ oldSize then
    redimensionner a tours tas map oldSize (oldSize / 2)
  else .ok (0, map, tas)

/-- `hash_init` on a table that has not been initialised. -/
def hashInit (a : Allocateur) (tas : Tas) (map : HashT) (hfunc : Mot → Mot) (cmp : Mot → Mot → Int) :
    Int × HashT × Tas :=
  match hashInitialize a tas map kHashMinsize with
  | (0, neuve, tas) => (0, { neuve with hfunc := hfunc, cmp := cmp }, tas)
  | (_, neuve, tas) => (-1, neuve, tas)

/-- `map` is `none` for a null pointer, here and below. -/
def hashIsset (tours : Nat) (map : Option HashT) (key : Mot) : Except Faute Int :=
  match map with
  | none => .ok 0
  | some map => do
    let slot ← hashLookup tours map key (map.hfunc key)
    let s ← map.lire slot
    return if s.mode = .active then 1 else 0

def hashGet (tours : Nat) (map : Option HashT) (key defaultValue : Mot) : Except Faute Mot :=
  match map with
  | none => .ok defaultValue
  | some map => do
    let slot ← hashLookup tours map key (map.hfunc key)
    let s ← map.lire slot
    return if s.mode = .active then s.value else defaultValue

def hashSet (a : Allocateur) (tours : Nat) (tas : Tas) (map : Option HashT) (key value : Mot) :
    Except Faute (Int × Option HashT × Tas) :=
  match map with
  | none => .ok (-1, none, tas)
  | some map => do
    let hash := map.hfunc key
    let slot ← hashLookup tours map key hash
    let s ← map.lire slot
    if s.mode = .active then
      return (0, some { map with table := map.table.set slot { s with value := value } }, tas)
    else
      let (r, map, tas) ← hashUpdate a tours tas { map with
        count := map.count + 1
        fill := if s.mode = .empty then map.fill + 1 else map.fill
        table := map.table.set slot { key := key, value := value, hash := hash, mode := .active } }
      return (r, some map, tas)

def hashDel (a : Allocateur) (tours : Nat) (tas : Tas) (map : Option HashT) (key : Mot) :
    Except Faute (Int × Option HashT × Tas) :=
  match map with
  | none => .ok (-1, none, tas)
  | some map => do
    let slot ← hashLookup tours map key (map.hfunc key)
    let s ← map.lire slot
    if s.mode ≠ .active then return (0, some map, tas)
    else
      let (r, map, tas) ← hashUpdate a tours tas { map with
        table := map.table.set slot (HashSlot.nul .deleted)
        count := map.count - 1 }
      return (r, some map, tas)

/-! Keys that are compared as pointers, and keys that point to strings. -/

def hashDirectCmp (key1 key2 : Mot) : Int := if key1 = key2 then 1 else 0

def hashDirectHfunc (key : Mot) : Mot := key

abbrev Chaines := Mot → List Int8

def hashStringCmp (chaines : Chaines) (key1 key2 : Mot) : Int :=
  if chaines key1 = chaines key2 then 1 else 0

def hashStringHfunc (chaines : Chaines) (key : Mot) : Mot :=
  (chaines key).foldl (fun hash c => ((hash <<< 5) + hash) ^^^ c.toBitVec.signExtend 32) 5381

def hashInitDirect (a : Allocateur) (tas : Tas) (map : HashT) : Int × HashT × Tas :=
  hashInit a tas map hashDirectHfunc hashDirectCmp

def hashInitString (a : Allocateur) (tas : Tas) (map : HashT) (chaines : Chaines) : Int × HashT × Tas :=
  hashInit a tas map (hashStringHfunc chaines) (hashStringCmp chaines)

end ProjetSysteme.Kernel
