/- Kernel/ChainedCalls
   source: kernel/process.c, kernel/horloge.c, shared/queue.h
   digest: The calls of process.c and of the clock on the rings in memory, and their runs. -/

import ProjetSysteme.Kernel.Chained
import ProjetSysteme.Kernel.Step

set_option autoImplicit false
set_option relaxedAutoImplicit false

namespace ProjetSysteme.Kernel.Chaine

open Library.Ring (Links)
open Maillons (queueEmpty queueTop initLink initListHead)

namespace NoyauChaine

def change (k : NoyauChaine) (f : Noyau → Noyau) : NoyauChaine := { k with noyau := f k.noyau }

def suspend (k : NoyauChaine) (i : Indice) (s : Suite) : NoyauChaine :=
  k.modifie i fun p => { p with suite := s }

def renvoie (k : NoyauChaine) (i : Indice) (v : Int) : NoyauChaine := k.suspend i (.retour v)

def renvoieActif (k : NoyauChaine) (v : Int) : NoyauChaine :=
  match k.noyau.pidActif with
  | none => k
  | some actif => k.renvoie actif v

def noter (k : NoyauChaine) (f : Fait) : NoyauChaine := k.change fun n => n.noter f

end NoyauChaine

variable (env : Env)

def waitClock (k : NoyauChaine) (clock : UInt32) (s : Suite) : ResultatChaine :=
  match k.noyau.pidActif with
  | none => .error (.faute .recursion)
  | some actif =>
    if actif = 0 then .error (.faute .recursion)
    else do
      let k := (k.modifie actif fun p => { p with waitIemeInterruptionClock := clock }).suspend actif s
      let k ← definirEtat k actif .bloqueSurSemaphore
      ordonnancer k

def echecConfirme (k : NoyauChaine) : ResultatChaine :=
  waitClock k (currentClock k.noyau + 40) .finConfirme

def reveillerPere (k : NoyauChaine) (pere pr : Indice) : ResultatChaine :=
  if (k.noyau.table pere).etat = .bloqueSurAttenteDUnFils ∧
      ((k.noyau.table pere).attendFils = .nImporteLequel ∨
        (k.noyau.table pere).attendFils = .ofPid (k.noyau.table pr).pid) then
    let k := if (k.noyau.table pere).attendFils = .nImporteLequel then
        k.modifie pere fun p => { p with attendFils := .ofPid (k.noyau.table pr).pid }
      else k
    definirEtat k pere .activable
  else .ok k

def finirProcessus (k : NoyauChaine) (pr : Indice) : ResultatChaine :=
  match (k.noyau.table pr).pere with
  | none => definirEtat k pr .mort
  | some pere => do
    let k ← reveillerPere k pere pr
    definirEtat k pr .zombie

def libererMemoire (k : NoyauChaine) (pr : Indice) : ResultatChaine := do
  let memoire ← lire (desallouePagesProcess env k.noyau.memoire (pidInt (k.noyau.table pr).pid))
  .ok (k.change fun n => { n with memoire := freePage memoire (k.noyau.table pr).pageDirectory })

def terminaisonProcessus (k : NoyauChaine) (pr : Indice) : ResultatChaine :=
  if (k.noyau.table pr).pid = none ∨ (k.noyau.table pr).pid = some 0 then .error (.confirme k)
  else do
    let k ← finirProcessus k pr
    let k ← libererMemoire env k pr
    ordonnancer (k.noter (.terminaison pr))

/-- The compound literal of `start` clears the links of the slot, as `INIT_LINK` and
`INIT_LIST_HEAD` do afterwards. -/
def initialiserMaillons (m : Links Maillon) (pid : Indice) : Links Maillon :=
  initListHead (initLink (initLink (initLink m (.activable pid)) (.fils pid)) (.endormi pid)) (.teteFils pid)

def installerProcessus (k : NoyauChaine) (pid : Indice) (prio : Int) (args code : Mot)
    (pageDirectory : Mot) (memoire : Memoire) : ResultatChaine :=
  let k := k.change fun n => { n with
    memoire := memoire
    console := { n.console with attente := Maillons.initLink n.console.attente (.processus pid) } }
  let k := k.modifie pid fun _ => nouveauProcessus pid prio k.noyau.pidActif args code pageDirectory
  let k := { k with liens := initialiserMaillons k.liens pid }
  match k.noyau.pidActif with
  | none => .ok k
  | some actif => k.chainer (Maillons.queueAdd k.liens (prioDe k.noyau) tours (.fils pid) (.teteFils actif))

def start (k : NoyauChaine) (nom : String) (ssize : UInt32) (prio : Int) (args : Mot) : ResultatChaine :=
  match pidLibre k.noyau with
  | none => .ok (k.renvoieActif (-1))
  | some pid =>
    let nbPage := (ssize / 4096).toNat + 1
    match env.programmes nom with
    | none => waitClock k (currentClock k.noyau + 40) (.retour (-1))
    | some code =>
      if code = 0 then .error (.faute .panique)
      else do
        let (pageDirectory, memoire) ← lire
          (creerMemoireProcessus env k.noyau.memoire (pidInt (some pid)) nbPage)
        let k ← installerProcessus k pid prio args code pageDirectory memoire
        let k := (k.noter (.demarrage k.noyau.pidActif pid)).renvoieActif (pid.val : Int)
        let k ← definirEtat k pid .activable
        ordonnancer k

def kill (k : NoyauChaine) (actif : Indice) (pid : Int) : ResultatChaine :=
  match indice? pid with
  | none => .ok (k.renvoie actif (-1))
  | some pr =>
    if pr = 0 ∨ (k.noyau.table pr).pid = none ∨ (k.noyau.table pr).etat = .zombie then
      .ok (k.renvoie actif (-1))
    else terminaisonProcessus env (k.renvoie actif 0) pr

/-- The loop `queue_for_each` of `waitpid` on the elements it runs over. -/
def chercherZombie (k : NoyauChaine) : List Maillon → Except ArretChaine (Option Indice)
  | [] => .ok none
  | .fils fils :: reste =>
    if (k.noyau.table fils).etat = .zombie then .ok (some fils)
    else if (k.noyau.table fils).etat = .mort then .error (.confirme k)
    else chercherZombie k reste
  | _ :: _ => .error (.faute .teteDeListe)

def waitpidFin (k : NoyauChaine) (actif fils : Indice) (retvalp : Bool) : ResultatChaine :=
  if (k.noyau.table fils).etat ≠ .zombie then .error (.confirme k)
  else do
    let k := if retvalp then k.noter (.recuperation actif fils (k.noyau.table fils).retval) else k
    let k ← definirEtat (k.renvoie actif (fils.val : Int)) fils .mort
    ordonnancer k

def waitpid (k : NoyauChaine) (actif : Indice) (pid : Int) (retvalp : Bool) : ResultatChaine :=
  if queueEmpty k.liens (.teteFils actif) ∨ (actif.val : Int) = pid then .ok (k.renvoie actif (-1))
  else if pid < 0 then do
    let elements ← lire (Maillons.queueForEach k.liens tours (.teteFils actif))
    let pidFils ← chercherZombie k elements
    match pidFils with
    | some fils => waitpidFin k actif fils retvalp
    | none => do
      let k := k.modifie actif fun p => { p with attendFils := .nImporteLequel }
      let k ← definirEtat (k.suspend actif (.waitpidAttente retvalp)) actif .bloqueSurAttenteDUnFils
      ordonnancer k
  else
    match indice? pid with
    | none => .ok (k.renvoie actif (-1))
    | some fils =>
      if (k.noyau.table fils).pere ≠ some actif then .ok (k.renvoie actif (-1))
      else if (k.noyau.table fils).etat = .mort then .error (.confirme k)
      else if (k.noyau.table fils).etat ≠ .zombie then do
        let k := k.modifie actif fun p => { p with attendFils := .ofPid (k.noyau.table fils).pid }
        let k ← definirEtat (k.suspend actif (.waitpidAttenteFils fils retvalp)) actif
          .bloqueSurAttenteDUnFils
        ordonnancer k
      else waitpidFin k actif fils retvalp

def waitpidReprise (k : NoyauChaine) (actif : Indice) (retvalp : Bool) : ResultatChaine :=
  if (k.noyau.table actif).etat = .bloqueSurAttenteDUnFils then .error (.confirme k)
  else
    let pidFils := (k.noyau.table actif).attendFils
    let k := k.modifie actif fun p => { p with attendFils := .aucun }
    match pidFils with
    | .fils fils => waitpidFin k actif fils retvalp
    | _ => .error (.confirme k)

def waitpidRepriseFils (k : NoyauChaine) (actif fils : Indice) (retvalp : Bool) : ResultatChaine :=
  if (k.noyau.table actif).etat = .bloqueSurAttenteDUnFils then .error (.confirme k)
  else
    let k := k.modifie actif fun p => { p with attendFils := .aucun }
    waitpidFin k actif fils retvalp

/-- The value `retval` is stored before the process ends, in `exit` and in `vie_processus`. -/
def finir (k : NoyauChaine) (actif : Indice) (retval : Int) (s : Suite) : ResultatChaine :=
  let k := (k.modifie actif fun p => { p with retval := retval }).noter (.fin actif retval)
  terminaisonProcessus env (k.suspend actif s) actif

def replacerActivable (k : NoyauChaine) (pr : Indice) : ResultatChaine :=
  if (k.noyau.table pr).etat = .activable then do
    let k ← k.chainer (Maillons.queueDel k.liens (.activable pr))
    k.chainer (Maillons.queueAdd k.liens (prioDe k.noyau) tours (.activable pr) .teteActivables)
  else .ok k

def cederAuPlusPrioritaire (k : NoyauChaine) (actif : Indice) : ResultatChaine := do
  match ← lire (queueTop k.liens .teteActivables) with
  | none => .ok k
  | some premier => do
    let pr ← processusActivable premier
    if (k.noyau.table pr).prio > (k.noyau.table actif).prio then ordonnancer k else .ok k

def chprio (k : NoyauChaine) (actif : Indice) (pid newprio : Int) : ResultatChaine :=
  match indice? pid with
  | none => .ok (k.renvoie actif (-1))
  | some pr =>
    if newprio ≤ 0 ∨ (k.noyau.table pr).etat = .mort ∨ (k.noyau.table pr).etat = .zombie then
      .ok (k.renvoie actif (-1))
    else if (k.noyau.table pr).prio = newprio then .ok (k.renvoie actif newprio)
    else do
      let oldprio := (k.noyau.table pr).prio
      let k ← replacerActivable (k.modifie pr fun p => { p with prio := newprio }) pr
      cederAuPlusPrioritaire (k.renvoie actif oldprio) actif

def appeler (k : NoyauChaine) (actif : Indice) : Appel → Option ResultatChaine
  | .start nom ssize prio args => some (start env k nom ssize prio args)
  | .exit retval => some (finir env k actif retval .exitFin)
  | .finCode retval => some (finir env k actif retval .termine)
  | .kill pid => some (kill env k actif pid)
  | .waitpid pid retvalp => some (waitpid k actif pid retvalp)
  | .chprio pid newprio => some (chprio k actif pid newprio)
  | .getprio pid => some (.ok (k.renvoie actif (getprio k.noyau pid)))
  | .waitClock clock => some (waitClock k clock (.retour 0))
  | _ => none

def reprendre (k : NoyauChaine) (actif : Indice) : Option ResultatChaine :=
  match (k.noyau.table actif).suite with
  | .execution => some (.ok k)
  | .debut => some (.ok (k.suspend actif .execution))
  | .retour v => some (.ok ((k.noter (.retour actif v)).suspend actif .execution))
  | .finConfirme => some (terminaisonProcessus env (k.suspend actif .termine) actif)
  | .exitFin => some (.error (.confirme k))
  | .termine => some (.error (.faute .apresTerminaison))
  | .waitpidAttente retvalp => some (waitpidReprise k actif retvalp)
  | .waitpidAttenteFils fils retvalp => some (waitpidRepriseFils k actif fils retvalp)
  | _ => none

/-- One event; none when it is a call of the message queues or of the console, or a key. -/
def executer (k : NoyauChaine) : Evenement → Option ResultatChaine
  | .tic => some (ticPIT k)
  | .touche _ => none
  | .appel a =>
    match k.noyau.pidActif with
    | some actif => appeler env (k.noter (.appel actif a)) actif a
    | none =>
      match a with
      | .start nom ssize prio args => some (start env k nom ssize prio args)
      | _ => some (.error (.faute .horsTable))
  | .reprise =>
    match k.noyau.pidActif with
    | some actif => reprendre env k actif
    | none => some (.error (.faute .horsTable))

def pas (k : NoyauChaine) (e : Evenement) : Option ResultatChaine :=
  (executer env k e).map fun r =>
    match r with
    | .error (.confirme k') => echecConfirme k'
    | r => r

def appelDeProcess : Appel → Bool
  | .start .. | .exit _ | .finCode _ | .kill _ | .waitpid .. | .chprio .. | .getprio _ | .waitClock _ => true
  | _ => false

def suiteDeProcess : Suite → Bool
  | .preceiveAttente _ | .preceiveFin | .psendAttente .. | .consReadAttente _ => false
  | _ => true

/-- The event is a tick, a call of process.c or of the clock, or the rest of such a call. -/
def concerne (k : Noyau) : Evenement → Bool
  | .tic => true
  | .touche _ => false
  | .appel a => appelDeProcess a
  | .reprise =>
    match k.pidActif with
    | none => true
    | some actif => suiteDeProcess (k.table actif).suite

def deroulerChaine : NoyauChaine → List Evenement → Option NoyauChaine
  | k, [] => some k
  | k, e :: reste =>
    if permis k.noyau e then
      match pas env k e with
      | some (.ok k') => deroulerChaine k' reste
      | _ => none
    else none

/-- The memory of the links after `initialiser_gestion_des_processus`. -/
def liensVides : Links Maillon :=
  initListHead (initListHead { prev := fun _ => none, next := fun _ => none } .teteActivables) .teteEndormis

end ProjetSysteme.Kernel.Chaine
