/- Kernel/Syscalls
   source: shared/syscalls.S, kernel/traitants.S, kernel/init_interruptions.c
   digest: The system-call stubs, the handler of interrupt 49 and the instructions they are made of. -/

import ProjetSysteme.Library.Stack

set_option autoImplicit false
set_option relaxedAutoImplicit false

namespace ProjetSysteme.Kernel

open Library.Stack

inductive Registre
  | eax | ebx | ecx | edx | esi | edi | ebp
  deriving DecidableEq, Repr

inductive Segment
  | cs | ds | es | fs | gs | ss
  deriving DecidableEq, Repr

inductive Routine
  | kStart | exit | kill | waitpid | getprio | chprio | getpid | consRead | consWrite | consEcho
  deriving DecidableEq, Repr

def Routine.arite : Routine → Nat
  | .kStart => 4
  | .waitpid | .chprio | .consRead | .consWrite => 2
  | .exit | .kill | .getprio | .consEcho => 1
  | .getpid => 0

inductive Symbole
  | finIt49 | consEcho | consWrite | consRead | getpid | chprio | getprio | waitpid | kill | exit
  | halt | start
  deriving DecidableEq, Repr

/-- The instructions of the two files, with the operands they have there. -/
inductive Instruction
  | pushl (r : Registre)
  | popl (r : Registre)
  /-- `movl n(%esp), r` -/
  | movl (n : BitVec 32) (r : Registre)
  /-- `mov $v, %eax` -/
  | movEax (v : BitVec 32)
  /-- `mov $v, %ax` -/
  | movAx (v : BitVec 16)
  /-- `mov %ax, s` -/
  | movSegment (s : Segment)
  /-- `cmp $v, %eax` -/
  | cmp (v : BitVec 32)
  | je (l : Symbole)
  | jmp (l : Symbole)
  | call (f : Routine)
  /-- `int $49` -/
  | int49
  | iret
  | ret
  | sti
  | hlt
  | cli
  deriving DecidableEq, Repr

/-- A word of the stack: data, the address of code of the two files, or flags. -/
inductive Valeur
  | mot (v : BitVec 32)
  | code (c : List Instruction)
  | drapeaux (zf interruptions : Bool)
  deriving DecidableEq

inductive Niveau
  | noyau | utilisateur
  deriving DecidableEq, Repr

/-- The processor and the stack.  Of the flags only those are kept that an instruction
above reads; `appels` lists the calls made so far with their arguments. -/
structure Machine where
  registres : Registre → BitVec 32
  segments : Segment → BitVec 16
  zf : Bool
  interruptions : Bool
  niveau : Niveau
  pile : Descending Valeur
  appels : List (Routine × List (BitVec 32))

/-- What a C function leaves in the registers that its caller does not expect to find unchanged. -/
structure Retour where
  eax : BitVec 32
  ecx : BitVec 32
  edx : BitVec 32

inductive Etat
  /-- about to run the instructions of the list -/
  | en (c : List Instruction) (m : Machine)
  /-- back from the stub, at the address that was on the stack -/
  | rendu (adresse : Valeur) (m : Machine)
  /-- in a C function that does not return -/
  | parti (f : Routine) (m : Machine)
  /-- general protection exception, raised by `int` at a level above that of its gate -/
  | protection (m : Machine)
  /-- an instruction that read another value than it needs -/
  | faute

namespace Machine

def charger (m : Machine) (r : Registre) (v : BitVec 32) : Machine :=
  { m with registres := fun q => if q = r then v else m.registres q }

@[simp] theorem charger_meme (m : Machine) (r : Registre) (v : BitVec 32) :
    (m.charger r v).registres r = v := if_pos rfl

theorem charger_autre (m : Machine) {r q : Registre} (v : BitVec 32) (autre : q ≠ r) :
    (m.charger r v).registres q = m.registres q := if_neg autre

def empiler (m : Machine) (v : Valeur) : Machine := { m with pile := m.pile.push v }

def depiler (m : Machine) : Machine := { m with pile := m.pile.pop }

def lireMots (m : Machine) (n : Nat) : Option (List (BitVec 32)) :=
  (List.range n).mapM fun k =>
    match m.pile.cell k with
    | .mot v => some v
    | _ => none

end Machine

/-- A stub of `syscalls.S`: the registers it saves, the words of the stack it loads, and its number. -/
def souche (sauves : List Registre) (charges : List (BitVec 32 × Registre)) (numero : BitVec 32) :
    List Instruction :=
  sauves.map .pushl ++ (charges.map (fun c => .movl c.1 c.2) ++ .movEax numero :: .int49 ::
    (sauves.reverse.map .popl ++ [.ret]))

inductive AppelSysteme
  | start | halt | exit | kill | waitpid | getprio | chprio | getpid | consRead | consWrite | consEcho
  deriving DecidableEq, Repr

open Registre in
def AppelSysteme.souche : AppelSysteme → List Instruction
  | .start => Kernel.souche [ebx, ecx, edx, esi] [(0x20, ebx), (0x1C, ecx), (0x18, edx), (0x14, esi)] 1
  | .halt => Kernel.souche [] [] 2
  | .exit => Kernel.souche [ebx] [(0x20, ebx)] 3
  | .kill => Kernel.souche [ebx] [(0x20, ebx)] 4
  | .waitpid => Kernel.souche [ebx, ecx] [(0x20, ebx), (0x1C, ecx)] 5
  | .getprio => Kernel.souche [ebx] [(0x20, ebx)] 6
  | .chprio => Kernel.souche [ebx, ecx] [(0x20, ebx), (0x1C, ecx)] 7
  | .getpid => Kernel.souche [] [] 8
  | .consRead => Kernel.souche [ebx, ecx] [(0x20, ebx), (0x1C, ecx)] 9
  | .consWrite => Kernel.souche [ebx, ecx] [(0x20, ebx), (0x1C, ecx)] 0xa
  | .consEcho => Kernel.souche [ebx] [(0x20, ebx), (0x1C, ecx)] 0xb

/-- Loading the data segment registers with the selector `v`, by way of `ax`. -/
def chargerSegments (v : BitVec 16) : List Instruction :=
  [.movAx v, .movSegment .ds, .movSegment .es, .movSegment .fs, .movSegment .gs]

def finIt49 : List Instruction := chargerSegments 0x4b ++ [.iret]

def recherche : List Instruction :=
  [(0xb, .consEcho), (0xa, .consWrite), (9, .consRead), (8, .getpid), (7, .chprio), (6, .getprio),
    (5, .waitpid), (4, .kill), (3, .exit), (2, .halt), (1, .start)].flatMap fun p =>
      [.cmp p.1, .je p.2]

def traitantIT49 : List Instruction := chargerSegments 0x18 ++ (recherche ++ finIt49)

/-- The handler of one call: it pushes its arguments, calls the C function and restores them. -/
def traitant (empiles : List Registre) (f : Routine) : List Instruction :=
  empiles.map .pushl ++ .call f :: (empiles.reverse.map .popl ++ [.jmp .finIt49])

open Registre in
def texte : Symbole → List Instruction
  | .finIt49 => finIt49
  | .consEcho => traitant [ebx] .consEcho
  | .consWrite => traitant [ebx, ecx] .consWrite
  | .consRead => traitant [ebx, ecx] .consRead
  | .getpid => traitant [] .getpid
  | .chprio => traitant [ebx, ecx] .chprio
  | .getprio => traitant [ebx] .getprio
  | .waitpid => traitant [ebx, ecx] .waitpid
  | .kill => traitant [ebx] .kill
  | .exit => traitant [ebx] .exit
  | .halt => [.sti, .hlt, .cli, .jmp .finIt49]
  | .start => traitant [ebx, ecx, edx, esi] .kStart

/-- The C functions, as far as the handler sees them: `none` when the call does not return. -/
abbrev Routines := Routine → List (BitVec 32) → Option Retour

variable (routines : Routines)

def appelerRoutine (f : Routine) (suite : List Instruction) (m : Machine) : Etat :=
  match m.lireMots f.arite with
  | none => .faute
  | some args =>
    let m := { m with appels := m.appels ++ [(f, args)] }
    match routines f args with
    | none => .parti f (m.empiler (.code suite))
    | some r =>
      .en suite ((((m.empiler (.code suite)).depiler.charger .eax r.eax).charger .ecx r.ecx).charger
        .edx r.edx)

/-- `int $49`, with `suite` behind it.  The gate that `init_traitant_IT` writes has 0x8E00
in its access bytes: an interrupt gate of level 0. -/
def interrompre (suite : List Instruction) (m : Machine) : Etat :=
  match m.niveau with
  | .utilisateur => .protection m
  | .noyau =>
    .en traitantIT49 { ((m.empiler (.drapeaux m.zf m.interruptions)).empiler
      (.mot ((m.segments .cs).setWidth 32))).empiler (.code suite) with interruptions := false }

def revenir (m : Machine) : Etat :=
  match m.pile.cell 0, m.pile.cell 1, m.pile.cell 2 with
  | .code c, .mot cs, .drapeaux zf interruptions =>
    .en c { m.depiler.depiler.depiler with
      segments := fun s => if s = .cs then cs.setWidth 16 else m.segments s
      zf := zf
      interruptions := interruptions }
  | _, _, _ => .faute

def executerInstruction (i : Instruction) (c : List Instruction) (m : Machine) : Etat :=
  match i with
  | .pushl r => .en c (m.empiler (.mot (m.registres r)))
  | .popl r =>
    match m.pile.cell 0 with
    | .mot v => .en c (m.depiler.charger r v)
    | _ => .faute
  | .movl n r =>
    match m.pile.cells (m.pile.top + n) with
    | .mot v => .en c (m.charger r v)
    | _ => .faute
  | .movEax v => .en c (m.charger .eax v)
  | .movAx v => .en c (m.charger .eax ((m.registres .eax &&& 0xFFFF0000) ||| v.setWidth 32))
  | .movSegment s =>
    .en c { m with segments := fun t =>
      if t = s then (m.registres .eax).setWidth 16 else m.segments t }
  | .cmp v => .en c { m with zf := m.registres .eax == v }
  | .je l => if m.zf then .en (texte l) m else .en c m
  | .jmp l => .en (texte l) m
  | .call f => appelerRoutine routines f c m
  | .int49 => interrompre c m
  | .iret => revenir m
  | .ret => .rendu (m.pile.cell 0) m.depiler
  | .sti => .en c { m with interruptions := true }
  | .hlt => .en c m
  | .cli => .en c { m with interruptions := false }

def suivant : Etat → Etat
  | .en (i :: c) m => executerInstruction routines i c m
  | .en [] _ => .faute
  | fin => fin

end ProjetSysteme.Kernel
