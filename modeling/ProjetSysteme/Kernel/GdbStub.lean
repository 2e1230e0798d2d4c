/- Kernel/GdbStub
   source: kernel/gdb_serial.c, kernel/gdb_serial_support.c, kernel/debugger.c
   digest: The commands of the remote debugger, and a session. -/

import ProjetSysteme.Kernel.GdbMemory
import ProjetSysteme.Kernel.Numeral

set_option autoImplicit false
set_option relaxedAutoImplicit false

namespace ProjetSysteme.Kernel.GdbSerial

open Library.Buffer (store)
open Numeral (strtol strtoul)

inductive Action
  | more | cont | run | kill | detach
  deriving DecidableEq, Repr

/-- `struct gdb_params`; `regs` are the 64 bytes of the `struct gdb_state`. -/
structure Params where
  threadId : Entier
  signo : Octet
  regs : Tampon
  regsChanged : Bool

structure Callbacks where
  threadAlive : Option (Params → Entier → Params × Octet)
  threadSwitch : Option (Params → Entier → Params × Octet)

structure Etat where
  params : Params
  client : Client
  inbuf : Tampon
  connected : Bool
  gdbSerialDebug : Bool
  retval : Action

inductive Reponse
  | paquet (frags : List Outfrag)
  | aucune
  deriving DecidableEq

/-- The object outside of which a command writes. -/
inductive Debordement
  | inbuf | outbuf | regs
  deriving DecidableEq, Repr

abbrev ResultatCommande := Except Debordement (Etat × Reponse)

def litteral (s : List Octet) : Outfrag := { data := s ++ [0], len := 0, hexify := false }

def ok : Reponse := .paquet [litteral [0x4f, 0x4b]]

def unknown : Reponse := .paquet [litteral []]

def errpacket (errchar : Octet) : Reponse := .paquet [litteral [0x45], { data := [errchar], len := 1, hexify := true }]

def depuis (inbuf : Tampon) (p : Nat) : List Octet := (List.range' p (bufmax + 1 - p)).map inbuf

/-- `strtoul` in base 16 from an index of `inbuf`: the value, and the index after the number. -/
def lireHexa (inbuf : Tampon) (p : Nat) : Entier × Nat :=
  let (v, lus) := strtoul (depuis inbuf p) 16
  (v, p + lus)

def commandeH (cb : Option Callbacks) (e : Etat) : Etat × Reponse :=
  let (th, lus) := strtol (depuis e.inbuf 2) 16
  if lus = 0 then (e, errpacket 4)
  else
    match cb.bind Callbacks.threadSwitch with
    | none => (e, unknown)
    | some threadSwitch =>
      if th ≠ -1 ∧ th ≠ 0 ∧ th ≠ e.params.threadId then
        let (params, errchar) := threadSwitch e.params th
        if errchar ≠ 0 then ({ e with params := params }, errpacket errchar)
        else ({ e with params := { params with threadId := th, regsChanged := false } }, ok)
      else (e, ok)

def commandeT (cb : Option Callbacks) (e : Etat) : Etat × Reponse :=
  let (th, lus) := strtol (depuis e.inbuf 1) 16
  if lus = 0 then (e, errpacket 1)
  else
    match cb.bind Callbacks.threadAlive with
    | none => (e, unknown)
    | some threadAlive =>
      let (params, errchar) := threadAlive e.params th
      if errchar ≠ 0 then ({ e with params := params }, errpacket errchar) else ({ e with params := params }, ok)

def commandeg (e : Etat) : Etat × Reponse :=
  (e, .paquet [{ data := (List.range 64).map e.params.regs, len := 64, hexify := true }])

def commandeG (e : Etat) : Etat × Reponse :=
  let (regs, juste) := hex2bin e.inbuf 1 0 e.params.regs 64
  if ¬ juste then ({ e with params := { e.params with regs := regs } }, errpacket 4)
  else ({ e with params := { e.params with regs := regs, regsChanged := true } }, ok)

/-- set individual CPU register; the address of the register is computed modulo the size of the addresses -/
def commandeP (e : Etat) : ResultatCommande :=
  let (reg, eqp) := lireHexa e.inbuf 1
  if eqp = 1 ∨ e.inbuf eqp ≠ 0x3d then .ok (e, errpacket 4)
  else if reg = 0x29 then .ok (e, ok)
  else if 64 < (reg + 1) * 4 then .ok (e, errpacket 4)
  else if 64 < (reg * 4).toNat then
    -- the register lies before `p->regs`, and is written unless the first two digits are wrong
    if ((hex (e.inbuf (eqp + 1)) <<< 4) ||| hex (e.inbuf (eqp + 2))).slt 0 then .ok (e, errpacket 4)
    else .error .regs
  else
    let (regs, juste) := hex2bin e.inbuf (eqp + 1) (reg * 4).toNat e.params.regs 4
    if ¬ juste then .ok ({ e with params := { e.params with regs := regs } }, errpacket 4)
    else .ok ({ e with params := { e.params with regs := regs, regsChanged := true } }, ok)

/-- The address and the length at the start of the commands `m`, `M` and `X`, and the index after them;
none when they are wrong. -/
def lireZone (inbuf : Tampon) : Option (Entier × Entier × Nat) :=
  let (addr, ptr) := lireHexa inbuf 1
  if ptr = 1 ∨ inbuf ptr ≠ 0x2c then none
  else
    let ptr := ptr + 1
    let (len, ptr2) := lireHexa inbuf ptr
    if ptr2 = ptr then none else some (addr, len, ptr2)

/-- Read LLLL bytes at address AA..AA; with the length 0 the reply is the string in `inbuf`. -/
def commandem (e : Etat) : ResultatCommande :=
  match lireZone e.inbuf with
  | none => .ok (e, errpacket 2)
  | some (addr, len, _) =>
    if BitVec.ofNat 32 bufmax < len * 2 then .ok (e, errpacket 2)
    else
      let (inbuf, copies, complet) := gdbCopyin e.client addr e.inbuf len
      if bufmax + 1 < copies then .error .inbuf
      else if ¬ complet then .ok ({ e with inbuf := inbuf }, errpacket 3)
      else .ok ({ e with inbuf := inbuf },
        .paquet [{ data := (List.range (bufmax + 1)).map inbuf, len := len.toNat, hexify := true }])

def ecrireClient (e : Etat) (octets : List Octet) (addr : Entier) : Etat × Reponse :=
  let (client, complet) := gdbCopyout e.client octets addr
  ({ e with client := client }, if ¬ complet then errpacket 3 else ok)

/-- Write LLLL bytes at AA.AA; `base` is the address of `inbuf`, where the pointers are compared. -/
def commandeM (base : Entier) (e : Etat) : ResultatCommande :=
  match lireZone e.inbuf with
  | none => .ok (e, errpacket 2)
  | some (addr, len, ptr2) =>
    if e.inbuf ptr2 ≠ 0x3a then .ok (e, errpacket 2)
    else
      let ptr2 := ptr2 + 1
      if base + BitVec.ofNat 32 bufmax < base + BitVec.ofNat 32 ptr2 + len * 2 then .ok (e, errpacket 2)
      else if bufmax < ptr2 + len.toNat * 2 then
        -- the sum has wrapped: `outbuf` is larger than the stack, or its size, rounded up to 16, wraps to 0
        -- and nothing is stored when the first two digits are wrong
        if 0xfffffff0 < len.toNat ∧ ((hex (e.inbuf ptr2) <<< 4) ||| hex (e.inbuf (ptr2 + 1))).slt 0 then
          .ok (e, errpacket 2)
        else .error .outbuf
      else
        let (outbuf, juste) := hex2bin e.inbuf ptr2 0 (fun _ => 0) len.toNat
        if ¬ juste then .ok (e, errpacket 2)
        else .ok (ecrireClient e ((List.range len.toNat).map outbuf) addr)

/-- The loop of the command `X`, whose turns the bytes left bound: the buffer, the index after the bytes
written, and whether the last escape has its byte. -/
def dequoter (fin : Nat) : Nat → Tampon → Nat → Nat → Tampon × Nat × Bool
  | 0, inbuf, _, out => (inbuf, out, true)
  | tours + 1, inbuf, lu, out =>
    if lu < fin then
      if inbuf lu = 0x7d then
        if fin - lu < 2 then (inbuf, out, false)
        else dequoter fin tours (Function.update inbuf out (inbuf (lu + 1) ^^^ 0x20)) (lu + 2) (out + 1)
      else dequoter fin tours (Function.update inbuf out (inbuf lu)) (lu + 1) (out + 1)
    else (inbuf, out, true)

/-- The data of `X` are mostly binary; when the end of them wraps, the loop has no turn. -/
def commandeX (base : Entier) (e : Etat) : ResultatCommande :=
  match lireZone e.inbuf with
  | none => .ok (e, errpacket 2)
  | some (addr, len, ptr2) =>
    if e.inbuf ptr2 ≠ 0x3a then .ok (e, errpacket 2)
    else
      let ptr2 := ptr2 + 1
      let fin := base + BitVec.ofNat 32 ptr2 + len
      if base + BitVec.ofNat 32 bufmax < fin then .ok (e, errpacket 2)
      else
        let fin := if base + BitVec.ofNat 32 ptr2 < fin then ptr2 + len.toNat else ptr2
        let (inbuf, out, juste) := dequoter fin (fin - ptr2) e.inbuf ptr2 0
        let e := { e with inbuf := inbuf }
        if ¬ juste then .ok (e, errpacket 2) else .ok (ecrireClient e ((List.range out).map inbuf) addr)

def lireRegistre (regs : Tampon) (i : Nat) : Entier :=
  regs (4 * i + 3) ++ regs (4 * i + 2) ++ regs (4 * i + 1) ++ regs (4 * i)

def octetsDe (v : Entier) : List Octet :=
  [v.setWidth 8, (v >>> 8).setWidth 8, (v >>> 16).setWidth 8, (v >>> 24).setWidth 8]

def ecrireRegistre (regs : Tampon) (i : Nat) (v : Entier) : Tampon := store regs (4 * i) (octetsDe v)

def iEip : Nat := 8
def iEflags : Nat := 9

def gdbSetTraceFlag (traceEnable : Bool) (regs : Tampon) : Tampon :=
  let eflags := lireRegistre regs iEflags
  ecrireRegistre regs iEflags (if traceEnable then eflags ||| 0x100 else eflags &&& ~~~0x100)

/-- Continue or step from the address at the index `p`, or from the current one, with the signal `nsig`. -/
def continuer (e : Etat) (p : Nat) (traceEnable : Bool) (nsig : Octet) : Etat × Reponse :=
  let (newEip, ptr) := lireHexa e.inbuf p
  let params :=
    if p < ptr ∧ newEip ≠ lireRegistre e.params.regs iEip then
      { e.params with regs := ecrireRegistre e.params.regs iEip newEip, regsChanged := true }
    else e.params
  ({ e with
      params := { params with regs := gdbSetTraceFlag traceEnable params.regs, signo := nsig }
      retval := .cont }, .aucune)

def nsigMax : Entier := 32

def commandeC (e : Etat) (traceEnable : Bool) : Etat × Reponse :=
  let nsig := (hex (e.inbuf 1) <<< 4) ||| hex (e.inbuf 2)
  if nsig.sle 0 ∨ nsigMax.sle nsig then (e, errpacket 5) else continuer e 3 traceEnable (nsig.setWidth 8)

def tid : Nat → Entier → List Octet
  | 0, _ => []
  | tours + 1, x => hexchar (x.setWidth 8 &&& 0xf) :: if x >>> 4 ≠ 0 then tid tours (x >>> 4) else []

def report (cb : Option Callbacks) (e : Etat) : Etat × Reponse :=
  if (cb.bind Callbacks.threadSwitch).isSome ∧ e.params.threadId ≠ 0 ∧ e.params.threadId ≠ -1 then
    let texte : List Octet := [0x74, 0x68, 0x72, 0x65, 0x61, 0x64, 0x3a] ++ (tid 8 e.params.threadId).reverse ++ [0x3b, 0]
    ({ e with inbuf := store e.inbuf 0 texte },
      .paquet [litteral [0x54], { data := [e.params.signo], len := 1, hexify := true },
        { data := texte, len := 0, hexify := false }])
  else (e, .paquet [litteral [0x53], { data := [e.params.signo], len := 1, hexify := true }])

def commande (cb : Option Callbacks) (base : Entier) (e : Etat) : ResultatCommande :=
  match (e.inbuf 0).toNat with
  | 0x48 => .ok (commandeH cb e)
  | 0x54 => .ok (commandeT cb e)
  | 0x67 => .ok (commandeg e)
  | 0x47 => .ok (commandeG e)
  | 0x50 => commandeP e
  | 0x6d => commandem e
  | 0x4d => commandeM base e
  | 0x58 => commandeX base e
  | 0x63 => .ok (continuer e 1 false 0)
  | 0x73 => .ok (continuer e 1 true 0)
  | 0x43 => .ok (commandeC e false)
  | 0x53 => .ok (commandeC e true)
  | 0x3f => .ok (report cb e)
  | 0x44 => .ok ({ e with connected := false, retval := .detach }, ok)
  | 0x52 => .ok ({ e with connected := false, retval := .run }, .aucune)
  | 0x6b => .ok ({ e with connected := false, retval := .kill }, .aucune)
  | 0x64 => .ok ({ e with gdbSerialDebug := !e.gdbSerialDebug }, ok)
  | 0x21 => .ok (e, ok)
  | _ => .ok (e, unknown)

def repondre (l : Ligne) : Reponse → Option Ligne
  | .paquet frags => putfrags frags l
  | .aucune => some l

/-- One turn of the loop of `gdb_serial_converse`; the right ends it. -/
def tourConverse (cb : Option Callbacks) (base : Entier) (s : Etat × Ligne) :
    Option ((Etat × Ligne) ⊕ Except Debordement (Etat × Ligne)) := do
  let recu ← getpacket ⟨s.1.inbuf, s.2⟩
  match commande cb base { s.1 with inbuf := recu.buffer, connected := true } with
  | .error d => some (.inr (.error d))
  | .ok (e, reponse) => do
    let l ← repondre recu.ligne reponse
    if e.retval = .more then some (.inl (e, l)) else some (.inr (.ok (e, l)))

/-- `gdb_serial_converse`, which starts with the report of the signal. -/
def gdbSerialConverse (cb : Option Callbacks) (base : Entier) (e : Etat) (l : Ligne) :
    Option (Except Debordement (Etat × Ligne)) := do
  let e := { e with params := { e.params with regsChanged := false }, retval := .more }
  let (e, reponse) := report cb e
  let l ← repondre l reponse
  Library.Loop.loop (tourConverse cb base) (l.entree.length + 1) (e, l)

/-- The registers of a `struct x86_tss` that the debugger copies, in the order of `struct gdb_state`, and its
page directory. -/
structure Tss where
  registres : List Entier
  place : registres.length = 16
  cr3 : Entier

def signoDe (trapno : Nat) : Octet :=
  match trapno with
  | 0 | 4 | 5 | 7 | 8 | 9 | 15 => 8
  | 1 | 3 => 5
  | 10 | 11 | 12 | 13 | 14 => 11
  | _ => 4

/-- What `debugger` leaves: the registers of the task, the memory, `do_debug`, and whether it reboots. -/
structure FinDebugger where
  registres : List Entier
  client : Client
  doDebug : Bool
  reboot : Bool
  ligne : Ligne

/-- `debugger`; `state` and `inbuf` are the memory of the stack before the call. -/
def debugger (base : Entier) (state inbuf : Tampon) (doDebug connected gdbSerialDebug : Bool) (trapno : Nat)
    (cr0 : Entier) (octets : Entier → Octet) (t : Tss) (l : Ligne) : Option (Except Debordement FinDebugger) := do
  let regs := store state 0 (t.registres.flatMap octetsDe)
  let params : Params := { threadId := -1, signo := signoDe trapno, regs := regs, regsChanged := false }
  let client : Client := { octets := octets, cr0 := cr0, cr3 := t.cr3 }
  let e : Etat :=
    { params := params, client := client, inbuf := inbuf, connected := connected, gdbSerialDebug := gdbSerialDebug
      retval := .more }
  match ← gdbSerialConverse none base e l with
  | .error d => some (.error d)
  | .ok (e, l) => some (.ok
      { registres := (List.range 16).map (lireRegistre e.params.regs)
        client := e.client
        doDebug := if e.retval = .detach then false else doDebug
        reboot := e.retval = .kill
        ligne := l })

end ProjetSysteme.Kernel.GdbSerial
