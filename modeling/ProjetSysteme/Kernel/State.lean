/- Kernel/State
   source: kernel/process.h, kernel/file.h, kernel/console.h
   digest: The process table, the queues of the kernel and the suspended calls of its processes. -/

import Mathlib.Algebra.GroupWithZero.Nat
import ProjetSysteme.Kernel.Queue

set_option autoImplicit false
set_option relaxedAutoImplicit false

namespace ProjetSysteme.Kernel

abbrev nbProc : Nat := 15
abbrev nbQueue : Nat := 5
def tailleMaxFile : Int := 512
def nbrMaxBuff : Nat := 512

abbrev Indice := Fin nbProc

abbrev IndiceFile := Fin nbQueue

instance : NeZero nbProc := ⟨by decide⟩
instance : NeZero nbQueue := ⟨by decide⟩

inductive EtatProcessus
  | actif
  | activable
  | bloqueSurSemaphore
  | bloqueSurEntreeSortie
  | bloqueSurAttenteDUnFils
  | bloqueSurReception
  | bloqueSurEnvoi
  | endormi
  | mort
  | zombie
  deriving DecidableEq, Repr

/-- Values of `attend_fils`: -1, -2, or the pid of a child. -/
inductive AttendFils
  | aucun
  | nImporteLequel
  | fils (i : Indice)
  deriving DecidableEq, Repr

/-- A pid as a C integer: `none` is -1. -/
def pidInt : Option Indice → Int
  | none => -1
  | some i => (i.val : Int)

def AttendFils.ofPid : Option Indice → AttendFils
  | none => .aucun
  | some i => .fils i

/-- The calls a process can make.  `finCode` is the return of the function that
`vie_processus` runs; the flags of `waitpid` and `pcount` tell whether the
result pointer is non-null. -/
inductive Appel
  | start (nom : String) (ssize : UInt32) (prio : Int) (args : Mot)
  | exit (retval : Int)
  | finCode (retval : Int)
  | kill (pid : Int)
  | waitpid (pid : Int) (retvalp : Bool)
  | chprio (pid newprio : Int)
  | getprio (pid : Int)
  | waitClock (clock : UInt32)
  | pcreate (count : Int)
  | psend (fid message : Int)
  | preceive (fid : Int)
  | preset (fid : Int)
  | pdelete (fid : Int)
  | pcount (fid : Int) (count : Bool)
  | consRead (length : UInt32)
  | consEcho (on : Int)
  deriving DecidableEq, Repr

/-- What a process runs next, as its saved registers and its stack hold it: its
own code, or the rest of the kernel call that called `ordonnancer`. -/
inductive Suite
  /-- its own code -/
  | execution
  /-- the entry of `vie_processus` -/
  | debut
  /-- the return of the kernel call with a value -/
  | retour (v : Int)
  /-- the end of a failed `confirme`, after its `wait_clock` -/
  | finConfirme
  /-- the code of `exit` after `terminaison_processus` -/
  | exitFin
  /-- the code after a `terminaison_processus` that has no caller to go back to -/
  | termine
  /-- `waitpid` with a negative pid, after `ordonnancer` -/
  | waitpidAttente (retvalp : Bool)
  /-- `waitpid` of the given child, after `ordonnancer` -/
  | waitpidAttenteFils (fils : Indice) (retvalp : Bool)
  /-- `preceive` in its loop, after `ordonnancer` -/
  | preceiveAttente (fid : IndiceFile)
  /-- `preceive` after it took a message and woke a sender -/
  | preceiveFin
  /-- `psend` in its loop, after `ordonnancer` -/
  | psendAttente (fid : IndiceFile) (message : Int)
  /-- `cons_read` after `ordonnancer` -/
  | consReadAttente (length : UInt32)
  deriving DecidableEq, Repr

/-- `processus`, with the children in list order in place of the ring `fils`,
and `suite` in place of `registres` and `pile`. -/
structure Processus where
  pid : Option Indice
  valresetfile : Int
  etat : EtatProcessus
  suite : Suite
  prio : Int
  pere : Option Indice
  fils : List Indice
  args : Mot
  retval : Int
  code : Mot
  attendFils : AttendFils
  pageDirectory : Mot
  waitIemeInterruptionClock : UInt32

/-- `process_bloque`: a process waiting on a message queue. -/
structure ProcessBloque where
  pid : Indice
  prio : Int
  deriving DecidableEq, Repr

/-- `file_message`; `statut` is true when the queue exists. -/
structure FileMessage where
  statut : Bool
  size : Int
  nbelem : Int
  nbprocEnvoi : Int
  nbprocRecep : Int
  file : List Int
  listeProcBloqueReception : List ProcessBloque
  listeProcBloqueEnvoi : List ProcessBloque

/-- The links of the queue of `cons_read`: its head, and `maillon_comme_attente_cons_read` of each process. -/
inductive MaillonConsRead
  | tete
  | processus (i : Indice)
  deriving DecidableEq, Repr

structure Console where
  echo : Int
  index : Nat
  indexFinLigne : Nat
  tampon : Nat → Int8
  /-- `file_ordonnee_des_processus_en_attente_de_cons_read`, on its links: a process can be in it while
  `start` clears the links of its slot -/
  attente : Library.Ring.Links MaillonConsRead

/-- The history of a run, latest fact first.  No function reads it: it records
the calls, and the values that cross the interface of the kernel. -/
inductive Fait
  | appel (i : Indice) (a : Appel)
  | retour (i : Indice) (v : Int)
  | demarrage (pere : Option Indice) (i : Indice)
  | fin (i : Indice) (v : Int)
  | terminaison (i : Indice)
  | recuperation (i fils : Indice) (v : Int)
  | creation (fid : IndiceFile)
  | destruction (fid : IndiceFile)
  | rejet (fid : IndiceFile) (messages : List Int)
  | envoi (i : Indice) (fid : IndiceFile) (v : Int)
  | reception (i : Indice) (fid : IndiceFile) (v : Int)
  | comptage (i : Indice) (fid : IndiceFile) (v : Int)
  | lecture (i : Indice) (ligne : List Int8)
  deriving DecidableEq, Repr

/-- The state of the kernel.  Lists stand for the other rings of `queue.h`, from the
element after the head to the element before it. -/
structure Noyau where
  table : Indice → Processus
  /-- `file_ordonnee_des_processus_activables` -/
  activables : List Indice
  /-- `file_processus_endomis_sur_wait_clock` -/
  endormis : List Indice
  pidActif : Option Indice
  /-- `nombre_d_interruptions_horloge_depuis_le_demarrage_du_noyau` -/
  horloge : UInt32
  /-- `tab_file_message` -/
  files : IndiceFile → FileMessage
  nbFiles : Int
  console : Console
  memoire : Memoire
  journal : List Fait

/-- A run of kernel code stops with a fault, or leaves its path at a `confirme`
that fails in the state `k`. -/
inductive Arret
  | faute (f : Faute)
  | confirme (k : Noyau)

abbrev Resultat := Except Arret Noyau

namespace Noyau

def modifie (k : Noyau) (i : Indice) (f : Processus → Processus) : Noyau :=
  { k with table := fun j => if j = i then f (k.table j) else k.table j }

def modifieFile (k : Noyau) (fid : IndiceFile) (f : FileMessage → FileMessage) : Noyau :=
  { k with files := fun g => if g = fid then f (k.files g) else k.files g }

def noter (k : Noyau) (f : Fait) : Noyau := { k with journal := f :: k.journal }

def prioDe (k : Noyau) (i : Indice) : Int := (k.table i).prio

def suspend (k : Noyau) (i : Indice) (s : Suite) : Noyau :=
  k.modifie i fun p => { p with suite := s }

/-- The kernel call of process `i` is about to return `v`. -/
def renvoie (k : Noyau) (i : Indice) (v : Int) : Noyau := k.suspend i (.retour v)

theorem modifie_table (k : Noyau) (i j : Indice) (f : Processus → Processus) :
    (k.modifie i f).table j = if j = i then f (k.table j) else k.table j := rfl

@[simp] theorem modifie_table_self (k : Noyau) (i : Indice) (f : Processus → Processus) :
    (k.modifie i f).table i = f (k.table i) := by simp [modifie_table]

theorem modifie_table_ne (k : Noyau) {i j : Indice} (f : Processus → Processus) (autre : j ≠ i) :
    (k.modifie i f).table j = k.table j := by simp [modifie_table, autre]

@[simp] theorem suspend_table_self (k : Noyau) (i : Indice) (s : Suite) :
    (k.suspend i s).table i = { k.table i with suite := s } := k.modifie_table_self i _

theorem suspend_table_ne (k : Noyau) {i j : Indice} (s : Suite) (autre : j ≠ i) :
    (k.suspend i s).table j = k.table j := k.modifie_table_ne _ autre

theorem suspend_table (k : Noyau) (i j : Indice) (s : Suite) : (k.suspend i s).table j =
    { k.table j with suite := if j = i then s else (k.table j).suite } := by
  rw [suspend, modifie_table]
  split <;> rfl

theorem renvoie_etat (k : Noyau) (i j : Indice) (v : Int) :
    ((k.renvoie i v).table j).etat = (k.table j).etat := by
  rw [renvoie, suspend_table]

@[simp] theorem suspend_files (k : Noyau) (i : Indice) (s : Suite) :
    (k.suspend i s).files = k.files := rfl

theorem eq_of_table {k k' : Noyau} (reste : k' = { k with table := k'.table })
    (table : ∀ j, k'.table j = k.table j) : k' = k := by
  rw [reste, show k'.table = k.table from funext table]

@[simp] theorem modifieFile_table (k : Noyau) (fid : IndiceFile) (f : FileMessage → FileMessage) :
    (k.modifieFile fid f).table = k.table := rfl

theorem modifieFile_modifieFile (k : Noyau) (fid : IndiceFile) (f g : FileMessage → FileMessage) :
    (k.modifieFile fid f).modifieFile fid g = k.modifieFile fid fun x => g (f x) := by
  unfold modifieFile
  congr 1
  funext h
  simp only
  split <;> rfl

theorem modifieFile_noter (k : Noyau) (fid : IndiceFile) (f : FileMessage → FileMessage)
    (x : Fait) : (k.noter x).modifieFile fid f = (k.modifieFile fid f).noter x := rfl

@[simp] theorem modifieFile_files_self (k : Noyau) (fid : IndiceFile)
    (f : FileMessage → FileMessage) : (k.modifieFile fid f).files fid = f (k.files fid) := by
  simp [modifieFile]

theorem modifieFile_files_ne (k : Noyau) {fid g : IndiceFile} (f : FileMessage → FileMessage)
    (autre : g ≠ fid) : (k.modifieFile fid f).files g = k.files g := by
  simp [modifieFile, autre]

@[simp] theorem noter_files (k : Noyau) (f : Fait) : (k.noter f).files = k.files := rfl

@[simp] theorem noter_table (k : Noyau) (f : Fait) : (k.noter f).table = k.table := rfl

end Noyau

/-- `table_des_processus + pid` for a pid given as a C integer within the table. -/
def indice? (pid : Int) : Option Indice :=
  if h : 0 ≤ pid ∧ pid < nbProc then some ⟨pid.toNat, by omega⟩ else none

def Noyau.avecMemoire {α : Type} (r : Except Faute α) : Except Arret α :=
  match r with
  | .ok a => .ok a
  | .error f => .error (.faute f)

end ProjetSysteme.Kernel
