/- Kernel/Chained
   source: kernel/process.c, kernel/horloge.c, shared/queue.h
   digest: State changes, the scheduler and the clock interrupt on the rings in memory. -/

import ProjetSysteme.Kernel.Clock
import ProjetSysteme.Kernel.Queue

set_option autoImplicit false
set_option relaxedAutoImplicit false

namespace ProjetSysteme.Kernel.Chaine

open Library.Ring (Links)
open Maillons (suivre queueOut queueTop)

/-- The links of the kernel: the heads of the two queues of processes, the head `fils` of each
process and its links `maillon_comme_activable`, `maillon_comme_attente_horloge` and
`maillon_comme_fils`. -/
inductive Maillon
  | teteActivables
  | teteEndormis
  | teteFils (i : Indice)
  | activable (i : Indice)
  | endormi (i : Indice)
  | fils (i : Indice)
  deriving DecidableEq

/-- The kernel with its rings in memory; the lists of `noyau` are not used. -/
structure NoyauChaine where
  noyau : Noyau
  liens : Links Maillon

inductive ArretChaine
  | faute (f : Faute)
  | confirme (k : NoyauChaine)

abbrev ResultatChaine := Except ArretChaine NoyauChaine

/-- Bound for the loops on a ring of at most `nbProc` elements. -/
def tours : Nat := nbProc + 1

def lire {α : Type} (r : Except Faute α) : Except ArretChaine α :=
  match r with
  | .ok a => .ok a
  | .error f => .error (.faute f)

def prioDe (k : Noyau) : Maillon → Int
  | .activable i | .endormi i | .fils i => (k.table i).prio
  | _ => 0

namespace NoyauChaine

def modifie (k : NoyauChaine) (i : Indice) (f : Processus → Processus) : NoyauChaine :=
  { k with noyau := k.noyau.modifie i f }

def chainer (k : NoyauChaine) (r : Except Faute (Links Maillon)) : ResultatChaine := do
  let liens ← lire r
  .ok { k with liens := liens }

end NoyauChaine

/-- `queue_entry` of the link that follows `m` in the list of children of `p`; none is the head. -/
def filsApres (k : NoyauChaine) (p : Indice) (m : Maillon) : Except ArretChaine (Option Indice) := do
  let m ← lire (suivre (k.liens.next m))
  if m = .teteFils p then .ok none
  else
    match m with
    | .fils f => .ok (some f)
    | _ => .error (.faute .teteDeListe)

def quitterActivables (k : NoyauChaine) (pr : Indice) (nouvelEtat : EtatProcessus) : ResultatChaine :=
  if (k.noyau.table pr).etat = .activable ∧ nouvelEtat ≠ .actif then
    k.chainer (Maillons.queueDel k.liens (.activable pr))
  else .ok k

def quitterEndormis (k : NoyauChaine) (pr : Indice) : ResultatChaine :=
  if (k.noyau.table pr).etat = .bloqueSurSemaphore then k.chainer (Maillons.queueDel k.liens (.endormi pr))
  else .ok k

def entrerActivables (k : NoyauChaine) (pr : Indice) : ResultatChaine :=
  k.chainer (Maillons.queueAdd k.liens (prioDe k.noyau) tours (.activable pr) .teteActivables)

def entrerEndormis (k : NoyauChaine) (pr : Indice) : ResultatChaine :=
  k.chainer (Maillons.queueAdd k.liens (prioDe k.noyau) tours (.endormi pr) .teteEndormis)

def prendreLaMain (k : NoyauChaine) (pr : Indice) : ResultatChaine :=
  if (k.noyau.table pr).etat = .activable then
    .ok { k with noyau := { k.noyau with pidActif := (k.noyau.table pr).pid } }
  else .error (.confirme k)

def retirerDuPere (k : NoyauChaine) (pr : Indice) : ResultatChaine :=
  match (k.noyau.table pr).pere with
  | none => .ok k
  | some pere =>
    if (k.noyau.table pere).etat = .mort then .ok k
    else k.chainer (Maillons.queueDel k.liens (.fils pr))

mutual

def definirEtatProcessus : Nat → NoyauChaine → Indice → EtatProcessus → ResultatChaine
  | 0, _, _, _ => .error (.faute .recursion)
  | n + 1, k, pr, nouvelEtat =>
    if (k.noyau.table pr).pid = none then .error (.confirme k)
    else if (k.noyau.table pr).etat = nouvelEtat then .ok k
    else do
      let k ← quitterActivables k pr nouvelEtat
      let k ← quitterEndormis k pr
      let k ← casEtat n k pr nouvelEtat
      .ok (k.modifie pr fun p => { p with etat := nouvelEtat })

def casEtat : Nat → NoyauChaine → Indice → EtatProcessus → ResultatChaine
  | 0, _, _, _ => .error (.faute .recursion)
  | n + 1, k, pr, nouvelEtat =>
    match nouvelEtat with
    | .activable => entrerActivables k pr
    | .actif => prendreLaMain k pr
    | .mort => do
      let premier ← filsApres k pr (.teteFils pr)
      let k ← boucleFils n true k pr premier
      retirerDuPere (k.modifie pr fun p => { p with pid := none }) pr
    | .zombie => do
      let premier ← filsApres k pr (.teteFils pr)
      boucleFils n false k pr premier
    | .bloqueSurSemaphore => entrerEndormis k pr
    | _ => .ok k

/-- `queue_for_each` on the children of `pr`, from a value of the iterator on. -/
def boucleFils : Nat → Bool → NoyauChaine → Indice → Option Indice → ResultatChaine
  | 0, _, _, _, _ => .error (.faute .recursion)
  | _ + 1, _, k, _, none => .ok k
  | n + 1, detache, k, pr, some fils => corpsFils n detache k pr fils

/-- The label inside the loop: `fils_suiv` is read before the child is destroyed. -/
def corpsFils : Nat → Bool → NoyauChaine → Indice → Indice → ResultatChaine
  | 0, _, _, _, _ => .error (.faute .recursion)
  | n + 1, detache, k, pr, fils => do
    let k := if detache then k.modifie fils fun p => { p with pere := none } else k
    if (k.noyau.table fils).etat = .zombie then do
      let filsSuiv ← filsApres k pr (.fils fils)
      let k ← definirEtatProcessus n k fils .mort
      match filsSuiv with
      | none => .ok k
      | some _ => corpsFils n detache k pr fils
    else do
      let suivant ← filsApres k pr (.fils fils)
      boucleFils n detache k pr suivant

end

def definirEtat (k : NoyauChaine) (pr : Indice) (nouvelEtat : EtatProcessus) : ResultatChaine :=
  definirEtatProcessus limite k pr nouvelEtat

def cederLaMain (k : NoyauChaine) (actif : Option Indice) : ResultatChaine :=
  match actif with
  | none => .ok k
  | some a => if (k.noyau.table a).etat = .actif then definirEtat k a .activable else .ok k

def processusActivable : Maillon → Except ArretChaine Indice
  | .activable i => .ok i
  | _ => .error (.faute .teteDeListe)

def ordonnancer (k : NoyauChaine) : ResultatChaine := do
  match ← lire (queueTop k.liens .teteActivables) with
  | none => .ok k
  | some premier => do
    let pr ← processusActivable premier
    if resteActif k.noyau pr then .ok k
    else do
      let actif := k.noyau.pidActif
      let (liens, _) ← lire (queueOut k.liens .teteActivables)
      let k ← definirEtat { k with liens := liens } pr .actif
      if (k.noyau.table pr).pid ≠ k.noyau.pidActif then .error (.confirme k)
      else do
        let k ← cederLaMain k actif
        if some pr = actif then .error (.confirme k) else .ok k

/-- The test of `tic_PIT` on an element of the sleep queue. -/
def estDu (k : Noyau) : Maillon → Bool
  | .endormi i => (k.table i).waitIemeInterruptionClock ≤ k.horloge
  | _ => false

def parcourEndormis : Nat → NoyauChaine → ResultatChaine
  | n, k => do
    let elements ← lire (Maillons.queueForEach k.liens tours .teteEndormis)
    match elements.find? (estDu k.noyau) with
    | some (.endormi attend) =>
      match n with
      | 0 => .error (.faute .boucle)
      | n + 1 => do
        let k ← definirEtat k attend .activable
        parcourEndormis n k
    | _ => .ok k

/-- The scan makes at most one wake-up for each element of the queue. -/
def ticPIT (k : NoyauChaine) : ResultatChaine := do
  let k := { k with noyau := { k.noyau with horloge := k.noyau.horloge + 1 } }
  let elements ← lire (Maillons.queueForEach k.liens tours .teteEndormis)
  let k ← parcourEndormis elements.length k
  ordonnancer k

end ProjetSysteme.Kernel.Chaine
