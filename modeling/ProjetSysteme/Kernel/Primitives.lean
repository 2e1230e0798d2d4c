/- Kernel/Primitives
   source: kernel/process.c
   digest: start, kill, waitpid, exit, getprio and chprio, cut at their calls of ordonnancer. -/

import ProjetSysteme.Kernel.Clock

set_option autoImplicit false
set_option relaxedAutoImplicit false

namespace ProjetSysteme.Kernel

open Library.PriorityList (place)

variable (env : Env)

def Noyau.renvoieActif (k : Noyau) (v : Int) : Noyau :=
  match k.pidActif with
  | none => k
  | some actif => k.renvoie actif v

/-- The part of `start` that stores the new process in the slot `pid`, up to the
change of its state. -/
def installerProcessus (k : Noyau) (pid : Indice) (prio : Int) (args code : Mot)
    (pageDirectory : Mot) (memoire : Memoire) : Noyau :=
  let k := { k with
    memoire := memoire
    console := { k.console with attente := Maillons.initLink k.console.attente (.processus pid) } }
  let k := k.modifie pid fun _ => nouveauProcessus pid prio k.pidActif args code pageDirectory
  match k.pidActif with
  | none => k
  | some actif => k.modifie actif fun p => { p with fils := place k.prioDe pid p.fils }

def start (k : Noyau) (nom : String) (ssize : UInt32) (prio : Int) (args : Mot) : Resultat :=
  match pidLibre k with
  | none => .ok (k.renvoieActif (-1))
  | some pid =>
    let nbPage := (ssize / 4096).toNat + 1
    match env.programmes nom with
    | none => waitClock k (currentClock k + 40) (.retour (-1))
    | some code =>
      if code = 0 then .error (.faute .panique)
      else do
        let (pageDirectory, memoire) ← Noyau.avecMemoire
          (creerMemoireProcessus env k.memoire (pidInt (some pid)) nbPage)
        let k := installerProcessus k pid prio args code pageDirectory memoire
        let k := (k.noter (.demarrage k.pidActif pid)).renvoieActif (pid.val : Int)
        let k ← definirEtat k pid .activable
        ordonnancer k

def kill (k : Noyau) (actif : Indice) (pid : Int) : Resultat :=
  match indice? pid with
  | none => .ok (k.renvoie actif (-1))
  | some pr =>
    if pr = 0 ∨ (k.table pr).pid = none ∨ (k.table pr).etat = .zombie then
      .ok (k.renvoie actif (-1))
    else terminaisonProcessus env (k.renvoie actif 0) pr

/-- The scan of the children in `waitpid` with a negative pid. -/
def chercherZombie (k : Noyau) : List Indice → Except Arret (Option Indice)
  | [] => .ok none
  | fils :: reste =>
    if (k.table fils).etat = .zombie then .ok (some fils)
    else if (k.table fils).etat = .mort then .error (.confirme k)
    else chercherZombie k reste

/-- The common end of the two branches of `waitpid`: the value of `fils` is
stored through `retvalp`, and `fils` is destroyed. -/
def waitpidFin (k : Noyau) (actif fils : Indice) (retvalp : Bool) : Resultat :=
  if (k.table fils).etat ≠ .zombie then .error (.confirme k)
  else do
    let k := if retvalp then k.noter (.recuperation actif fils (k.table fils).retval) else k
    let k ← definirEtat (k.renvoie actif (fils.val : Int)) fils .mort
    ordonnancer k

def waitpid (k : Noyau) (actif : Indice) (pid : Int) (retvalp : Bool) : Resultat :=
  if (k.table actif).fils = [] ∨ (actif.val : Int) = pid then .ok (k.renvoie actif (-1))
  else if pid < 0 then do
    let pidFils ← chercherZombie k (k.table actif).fils
    match pidFils with
    | some fils => waitpidFin k actif fils retvalp
    | none => do
      let k := k.modifie actif fun p => { p with attendFils := .nImporteLequel }
      let k ← definirEtat (k.suspend actif (.waitpidAttente retvalp)) actif .bloqueSurAttenteDUnFils
      ordonnancer k
  else
    match indice? pid with
    | none => .ok (k.renvoie actif (-1))
    | some fils =>
      if (k.table fils).pere ≠ some actif then .ok (k.renvoie actif (-1))
      else if (k.table fils).etat = .mort then .error (.confirme k)
      else if (k.table fils).etat ≠ .zombie then do
        let k := k.modifie actif fun p => { p with attendFils := .ofPid (k.table fils).pid }
        let k ← definirEtat (k.suspend actif (.waitpidAttenteFils fils retvalp)) actif
          .bloqueSurAttenteDUnFils
        ordonnancer k
      else waitpidFin k actif fils retvalp

def waitpidReprise (k : Noyau) (actif : Indice) (retvalp : Bool) : Resultat :=
  if (k.table actif).etat = .bloqueSurAttenteDUnFils then .error (.confirme k)
  else
    let pidFils := (k.table actif).attendFils
    let k := k.modifie actif fun p => { p with attendFils := .aucun }
    match pidFils with
    | .fils fils => waitpidFin k actif fils retvalp
    | _ => .error (.confirme k)

/-- `waitpid` of the child `fils` after its `ordonnancer`. -/
def waitpidRepriseFils (k : Noyau) (actif fils : Indice) (retvalp : Bool) : Resultat :=
  if (k.table actif).etat = .bloqueSurAttenteDUnFils then .error (.confirme k)
  else
    let k := k.modifie actif fun p => { p with attendFils := .aucun }
    waitpidFin k actif fils retvalp

def getprio (k : Noyau) (pid : Int) : Int :=
  match indice? pid with
  | none => -1
  | some i => if (k.table i).pid = none then -1 else (k.table i).prio

def exit (k : Noyau) (actif : Indice) (retval : Int) : Resultat :=
  let k := (k.modifie actif fun p => { p with retval := retval }).noter (.fin actif retval)
  terminaisonProcessus env (k.suspend actif .exitFin) actif

/-- The end of `vie_processus`, when the function of the process returns. -/
def vieProcessusFin (k : Noyau) (actif : Indice) (retval : Int) : Resultat :=
  let k := (k.modifie actif fun p => { p with retval := retval }).noter (.fin actif retval)
  terminaisonProcessus env (k.suspend actif .termine) actif

def replacerActivable (k : Noyau) (pr : Indice) : Resultat :=
  if (k.table pr).etat = .activable then do
    let f ← queueDel pr k.activables
    let f ← queueAdd k.prioDe pr f
    .ok { k with activables := f }
  else .ok k

/-- The last test of `chprio`: the first ready process against the caller. -/
def cederAuPlusPrioritaire (k : Noyau) (actif : Indice) : Resultat :=
  match k.activables.getLast? with
  | none => .ok k
  | some premier =>
    if (k.table premier).prio > (k.table actif).prio then ordonnancer k else .ok k

def chprio (k : Noyau) (actif : Indice) (pid newprio : Int) : Resultat :=
  match indice? pid with
  | none => .ok (k.renvoie actif (-1))
  | some pr =>
    if newprio ≤ 0 ∨ (k.table pr).etat = .mort ∨ (k.table pr).etat = .zombie then
      .ok (k.renvoie actif (-1))
    else if (k.table pr).prio = newprio then .ok (k.renvoie actif newprio)
    else do
      let oldprio := (k.table pr).prio
      let k ← replacerActivable (k.modifie pr fun p => { p with prio := newprio }) pr
      cederAuPlusPrioritaire (k.renvoie actif oldprio) actif

end ProjetSysteme.Kernel
