/- Kernel/GdbSerial
   source: kernel/gdb_serial.c
   digest: The packets of the remote debugger on the serial line. -/

import Mathlib.Logic.Function.Basic
import ProjetSysteme.Library.Loop

set_option autoImplicit false
set_option relaxedAutoImplicit false

namespace ProjetSysteme.Kernel.GdbSerial

abbrev Octet := BitVec 8

abbrev Entier := BitVec 32

abbrev Tampon := Nat → Octet

structure Ligne where
  entree : List Octet
  sortie : List Octet
  deriving DecidableEq

/-- `gdb_serial_recv`, which has no result while nothing comes. -/
def gdbSerialRecv (l : Ligne) : Option (Octet × Ligne) :=
  match l.entree with
  | [] => none
  | c :: entree => some (c, { l with entree := entree })

def gdbSerialSend (ch : Octet) (l : Ligne) : Ligne := { l with sortie := l.sortie ++ [ch] }

def bufmax : Nat := 400

def hexchars : List Octet :=
  [0x30, 0x31, 0x32, 0x33, 0x34, 0x35, 0x36, 0x37, 0x38, 0x39, 0x61, 0x62, 0x63, 0x64, 0x65, 0x66]

def hexchar (i : Octet) : Octet := hexchars.getD i.toNat 0

def hex (ch : Octet) : Entier :=
  if 0x30 ≤ ch ∧ ch ≤ 0x39 then ch.setWidth 32 - 0x30
  else if 0x61 ≤ ch ∧ ch ≤ 0x66 then ch.setWidth 32 - 0x61 + 10
  else if 0x41 ≤ ch ∧ ch ≤ 0x46 then ch.setWidth 32 - 0x41 + 10
  else -1

/-- `hex2bin` from the character `i` of `entree` to the byte `o` of `out`; false is the result -1. -/
def hex2bin (entree : Tampon) : Nat → Nat → Tampon → Nat → Tampon × Bool
  | _, _, out, 0 => (out, true)
  | i, o, out, len + 1 =>
    let ch := (hex (entree i) <<< 4) ||| hex (entree (i + 1))
    if ch.slt 0 then (out, false)
    else hex2bin entree (i + 2) (o + 1) (Function.update out o (ch.setWidth 8)) len

def attendreDebut : List Octet → Option (List Octet)
  | [] => none
  | c :: entree => if c &&& 0x7f = 0x24 then some entree else attendreDebut entree

/-- The variables of `getpacket` after its inner loop, with the characters left. -/
structure Lecture where
  buffer : Tampon
  count : Nat
  checksum : Octet
  ch : Octet
  entree : List Octet

/-- The loop of `getpacket` up to a `#` that no 0x7d precedes, or to the end of the buffer. -/
def lireDonnees (buffer : Tampon) (count : Nat) (checksum ch : Octet) : List Octet → Option Lecture
  | [] => if count < bufmax then none else some ⟨buffer, count, checksum, ch, []⟩
  | c :: entree =>
    if count < bufmax then
      if c = 0x23 ∧ (count = 0 ∨ buffer (count - 1) ≠ 0x7d) then some ⟨buffer, count, checksum, c, entree⟩
      else lireDonnees (Function.update buffer count c) (count + 1) (checksum + c) c entree
    else some ⟨buffer, count, checksum, ch, c :: entree⟩

/-- The index of the first zero from `i` on, searched over `tours` bytes. -/
def strlenDepuis (s : Tampon) : Nat → Nat → Nat
  | 0, i => i
  | tours + 1, i => if s i = 0 then i else strlenDepuis s tours (i + 1)

def strlen (s : Tampon) : Nat := strlenDepuis s bufmax 0

structure Reception where
  buffer : Tampon
  ligne : Ligne

def retirerSequence (r : Reception) : Reception :=
  if r.buffer 2 = 0x3a then
    let ligne := gdbSerialSend (r.buffer 1) (gdbSerialSend (r.buffer 0) r.ligne)
    let count := strlen r.buffer
    { buffer := (List.range' 3 (count + 1 - 3)).foldl (fun b i => Function.update b (i - 3) (b i)) r.buffer
      ligne := ligne }
  else r

/-- One turn of `getpacket`; the right is a packet, after which the loop ends. -/
def tourGetpacket (r : Reception) : Option (Reception ⊕ Reception) := do
  let entree ← attendreDebut r.ligne.entree
  let lu ← lireDonnees r.buffer 0 0 0x24 entree
  let buffer := Function.update lu.buffer lu.count 0
  let ligne := { r.ligne with entree := lu.entree }
  if lu.ch = 0x23 then do
    let (quatre, ligne) ← gdbSerialRecv ligne
    let (unite, ligne) ← gdbSerialRecv ligne
    let xmitcsum : Octet := (hex quatre <<< 4).setWidth 8
    let xmitcsum := xmitcsum + (hex unite).setWidth 8
    if lu.checksum ≠ xmitcsum then some (.inl ⟨buffer, gdbSerialSend 0x2d ligne⟩)
    else some (.inr (retirerSequence ⟨buffer, gdbSerialSend 0x2b ligne⟩))
  else
    let xmitcsum : Octet := -1
    if lu.checksum ≠ xmitcsum then some (.inl ⟨buffer, ligne⟩) else some (.inr ⟨buffer, ligne⟩)

/-- Each turn receives a character, so the characters to come bound the turns. -/
def getpacket (r : Reception) : Option Reception :=
  Library.Loop.loop tourGetpacket (r.ligne.entree.length + 1) r

/-- `data` is the memory from the pointer on. -/
structure Outfrag where
  data : List Octet
  len : Nat
  hexify : Bool
  deriving DecidableEq

def Outfrag.octets (f : Outfrag) : List Octet :=
  if f.len ≠ 0 then f.data.take f.len else f.data.takeWhile (· ≠ 0)

/-- A run of more than three equal output characters starts with `p`. -/
def repete (hexify : Bool) (p : Octet) (reste : List Octet) : Bool :=
  reste[0]? = some p &&
    if hexify then p >>> 4 = p &&& 0xf else reste[1]? = some p && reste[2]? = some p

/-- The length of the run of `p`, of which the first `connus` are known and which `limite` bounds. -/
def longueurSerie (p : Octet) (connus limite : Nat) (reste : List Octet) : Nat :=
  connus + (((reste.drop (connus - 1)).take (limite - connus)).takeWhile (· = p)).length

def envoyerUn (hexify : Bool) (p : Octet) (reste : List Octet) : List Octet × List Octet :=
  if repete hexify p reste then
    if hexify then
      let n := longueurSerie p 2 (98 / 2) reste
      ([hexchar (p &&& 0xf), 0x2a, BitVec.ofNat 8 (29 + n * 2 - 1)], reste.drop (n - 1))
    else
      let n := longueurSerie p 4 98 reste
      ([p, 0x2a, BitVec.ofNat 8 (29 + n - 1)], reste.drop (n - 1))
  else if hexify then ([hexchar (p >>> 4), hexchar (p &&& 0xf)], reste)
  else ([p], reste)

def envoyer (hexify : Bool) : Nat → List Octet → List Octet
  | tours + 1, p :: reste =>
    let (envoi, suite) := envoyerUn hexify p reste
    envoi ++ envoyer hexify tours suite
  | _, _ => []

def corps (frags : List Outfrag) : List Octet :=
  frags.flatMap fun f => envoyer f.hexify f.octets.length f.octets

def somme (l : List Octet) : Octet := l.foldl (· + ·) 0

def trame (frags : List Outfrag) : List Octet :=
  let checksum := somme (corps frags)
  0x24 :: corps frags ++ [0x23, hexchar (checksum >>> 4), hexchar (checksum % 16)]

def repeter (paquet sortie : List Octet) : List Octet → Option Ligne
  | [] => none
  | c :: entree =>
    let sortie := sortie ++ paquet
    if c &&& 0x7f = 0x2b then some ⟨entree, sortie⟩ else repeter paquet sortie entree

def putfrags (frags : List Outfrag) (l : Ligne) : Option Ligne := repeter (trame frags) l.sortie l.entree

end ProjetSysteme.Kernel.GdbSerial
