/- Kernel/Console
   source: kernel/console.c
   digest: The keyboard line editor and the processes reading lines. -/

import ProjetSysteme.Kernel.Primitives

set_option autoImplicit false
set_option relaxedAutoImplicit false

namespace ProjetSysteme.Kernel

/-- The field `prio` of the process around a link of the queue of `cons_read`. -/
def prioLecteur (k : Noyau) : MaillonConsRead → Int
  | .tete => 0
  | .processus i => k.prioDe i

/-- `queue_out` on the queue of `cons_read`. -/
def sortirConsRead (k : Noyau) : Except Arret (Option Indice × Noyau) := do
  let (attente, premier) ← Noyau.avecMemoire (Maillons.queueOut k.console.attente .tete)
  let k := { k with console := { k.console with attente := attente } }
  match premier with
  | none => .ok (none, k)
  | some (.processus p) => .ok (some p, k)
  | some .tete => .error (.faute .teteDeListe)

/-- `queue_add` on the queue of `cons_read`: a search of more than `nbProc + 1` turns never ends. -/
def entrerConsRead (k : Noyau) (i : Indice) : Except Arret (Library.Ring.Links MaillonConsRead) :=
  Noyau.avecMemoire (Maillons.queueAdd k.console.attente (prioLecteur k) (nbProc + 1) (.processus i) .tete)

def reveillerLecteur (k : Noyau) (premier : Option Indice) : Resultat :=
  match premier with
  | none => .ok k
  | some p => definirEtat k p .activable

/-- `keyboard_data` on the first character of its argument; the display is left out. -/
def keyboardData (k : Noyau) (c : Int8) : Resultat :=
  if c = 13 then do
    let (premier, k) ← sortirConsRead k
    let k ← reveillerLecteur k premier
    .ok { k with console := { k.console with indexFinLigne := k.console.index, index := 0 } }
  else if c = 127 then
    if k.console.index ≠ 0 then
      .ok { k with console := { k.console with index := k.console.index - 1 } }
    else .ok k
  else if k.console.index < nbrMaxBuff then
    -- with echo on, a control character is turned into the letter it is displayed with
    let c := if k.console.echo = 1 ∧ c < 32 then c + 64 else c
    let i := k.console.index
    .ok { k with
      console := { k.console with
        tampon := fun j => if j = i then c else k.console.tampon j
        index := i + 1 } }
  else .ok k

/-- The store of `keyboardData` into `tampon`: the index and the character. -/
def ecritureClavier (k : Noyau) (c : Int8) : Option (Nat × Int8) :=
  if c = 13 ∨ c = 127 then none
  else if k.console.index < nbrMaxBuff then
    some (k.console.index, if k.console.echo = 1 ∧ c < 32 then c + 64 else c)
  else none

def consRead (k : Noyau) (actif : Indice) (length : UInt32) : Resultat :=
  if length > 0 then do
    let k := { k with console := { k.console with indexFinLigne := 0 } }
    let attente ← entrerConsRead k actif
    let k := { k with console := { k.console with attente := attente } }
    let k ← definirEtat (k.suspend actif (.consReadAttente length)) actif .bloqueSurEntreeSortie
    ordonnancer k
  else .ok (k.renvoie actif 0xFFFFFFFF)

def consReadReprise (k : Noyau) (actif : Indice) (length : UInt32) : Resultat :=
  if (k.table actif).etat = .bloqueSurEntreeSortie then .error (.confirme k)
  else
    let n := min k.console.indexFinLigne length.toNat
    let k := { k with console := { k.console with indexFinLigne := n } }
    .ok ((k.noter (.lecture actif ((List.range n).map k.console.tampon))).renvoie actif n)

/-- The copy loop of `cons_read` from the index `i` and the store of the terminator:
the positions of `string` that are written, in order, with what is written. -/
def copierLigne (tampon : Nat → Int8) : Nat → Nat → List (Nat × Int8)
  | 0, i => [(i, 0)]
  | reste + 1, i => (i, tampon i) :: copierLigne tampon reste (i + 1)

/-- What `consReadReprise` stores in the buffer of the caller. -/
def consReadEcritures (k : Noyau) (length : UInt32) : List (Nat × Int8) :=
  copierLigne k.console.tampon (min k.console.indexFinLigne length.toNat) 0

def consEcho (k : Noyau) (actif : Indice) (on : Int) : Resultat :=
  .ok (({ k with console := { k.console with echo := on } }).renvoie actif 0)

end ProjetSysteme.Kernel
