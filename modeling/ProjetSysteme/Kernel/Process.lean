/- Kernel/Process
   source: kernel/process.c, shared/queue.h
   digest: State changes, the scheduler and the life cycle of processes. -/

import ProjetSysteme.Kernel.State

set_option autoImplicit false
set_option relaxedAutoImplicit false

namespace ProjetSysteme.Kernel

open Library.PriorityList (place)

/-- `queue_add`: the links of an element are null exactly when it is not chained. -/
def queueAdd (cle : Indice → Int) (i : Indice) (f : List Indice) : Except Arret (List Indice) :=
  if i ∈ f then .error (.faute .assertionMaillon) else .ok (place cle i f)

def queueDel (i : Indice) (f : List Indice) : Except Arret (List Indice) :=
  if i ∈ f then .ok (f.erase i) else .error (.faute .assertionMaillon)

/-- The child after `f` in the list of `p`, `none` being the head.  The links of
a child that was removed from the list are null. -/
def suivantFils (k : Noyau) (p f : Indice) : Except Arret (Option Indice) :=
  match (k.table p).fils.dropWhile (fun c => c ≠ f) with
  | [] => .error (.faute .maillonNul)
  | [_] => .ok none
  | _ :: g :: _ => .ok (some g)

def quitterActivables (k : Noyau) (pr : Indice) (nouvelEtat : EtatProcessus) : Resultat :=
  if (k.table pr).etat = .activable ∧ nouvelEtat ≠ .actif then do
    let f ← queueDel pr k.activables
    .ok { k with activables := f }
  else .ok k

def quitterEndormis (k : Noyau) (pr : Indice) : Resultat :=
  if (k.table pr).etat = .bloqueSurSemaphore then do
    let f ← queueDel pr k.endormis
    .ok { k with endormis := f }
  else .ok k

def entrerActivables (k : Noyau) (pr : Indice) : Resultat := do
  let f ← queueAdd k.prioDe pr k.activables
  .ok { k with activables := f }

/-- Case BLOQUE_SUR_SEMAPHORE of `definir_etat_processus`. -/
def entrerEndormis (k : Noyau) (pr : Indice) : Resultat := do
  let f ← queueAdd k.prioDe pr k.endormis
  .ok { k with endormis := f }

def prendreLaMain (k : Noyau) (pr : Indice) : Resultat :=
  if (k.table pr).etat = .activable then .ok { k with pidActif := (k.table pr).pid }
  else .error (.confirme k)

def retirerDuPere (k : Noyau) (pr : Indice) : Resultat :=
  match (k.table pr).pere with
  | none => .ok k
  | some pere =>
    if (k.table pere).etat = .mort then .ok k
    else do
      let f ← queueDel pr (k.table pere).fils
      .ok (k.modifie pere fun p => { p with fils := f })

/- The child loops of the cases MORT and ZOMBIE differ in one store, made when
`detache` holds.  `boucleFils` enters the body for a new value of the iterator
and lists these values, `corpsFils` is the label inside the body. -/
mutual

/-- The recursion is bounded by the first argument, see `limite`. -/
def definirEtatProcessus : Nat → Noyau → Indice → EtatProcessus → Resultat
  | 0, _, _, _ => .error (.faute .recursion)
  | n + 1, k, pr, nouvelEtat =>
    if (k.table pr).pid = none then .error (.confirme k)
    else if (k.table pr).etat = nouvelEtat then .ok k
    else do
      let k ← quitterActivables k pr nouvelEtat
      let k ← quitterEndormis k pr
      let k ← casEtat n k pr nouvelEtat
      .ok (k.modifie pr fun p => { p with etat := nouvelEtat })

def casEtat : Nat → Noyau → Indice → EtatProcessus → Resultat
  | 0, _, _, _ => .error (.faute .recursion)
  | n + 1, k, pr, nouvelEtat =>
    match nouvelEtat with
    | .activable => entrerActivables k pr
    | .actif => prendreLaMain k pr
    | .mort => do
      let (_, k) ← boucleFils n true k pr (k.table pr).fils.head?
      retirerDuPere (k.modifie pr fun p => { p with pid := none }) pr
    | .zombie => do
      let (_, k) ← boucleFils n false k pr (k.table pr).fils.head?
      .ok k
    | .bloqueSurSemaphore => entrerEndormis k pr
    | _ => .ok k

def boucleFils : Nat → Bool → Noyau → Indice → Option Indice →
    Except Arret (List Indice × Noyau)
  | 0, _, _, _, _ => .error (.faute .recursion)
  | _ + 1, _, k, _, none => .ok ([], k)
  | n + 1, detache, k, pr, some fils => do
    let (vus, k) ← corpsFils n detache k pr fils
    .ok (fils :: vus, k)

def corpsFils : Nat → Bool → Noyau → Indice → Indice →
    Except Arret (List Indice × Noyau)
  | 0, _, _, _, _ => .error (.faute .recursion)
  | n + 1, detache, k, pr, fils => do
    let k := if detache then k.modifie fils fun p => { p with pere := none } else k
    if (k.table fils).etat = .zombie then do
      let filsSuiv ← suivantFils k pr fils
      let k ← definirEtatProcessus n k fils .mort
      match filsSuiv with
      | none => .ok ([], k)
      | some _ => corpsFils n detache k pr fils
    else do
      let suivant ← suivantFils k pr fils
      boucleFils n detache k pr suivant

end

/-- Bound for the recursion of `definirEtatProcessus` on a table of `nbProc` entries. -/
def limite : Nat := 1000

def definirEtat (k : Noyau) (pr : Indice) (nouvelEtat : EtatProcessus) : Resultat :=
  definirEtatProcessus limite k pr nouvelEtat

/-- The test of `ordonnancer` on the running process against the first ready one. -/
def resteActif (k : Noyau) (pr : Indice) : Bool :=
  match k.pidActif with
  | some actif => (k.table actif).etat = .actif ∧ (k.table pr).prio < (k.table actif).prio
  | none => false

/-- The process that loses the processor goes back to the ready queue if it was running. -/
def cederLaMain (k : Noyau) (actif : Option Indice) : Resultat :=
  match actif with
  | none => .ok k
  | some a => if (k.table a).etat = .actif then definirEtat k a .activable else .ok k

/-- Up to `ctx_sw`; the code that runs next is the `suite` of the process `pidActif`. -/
def ordonnancer (k : Noyau) : Resultat :=
  match k.activables.getLast? with
  | none => .ok k
  | some pr =>
    if resteActif k pr then .ok k
    else do
      let actif := k.pidActif
      let k ← definirEtat { k with activables := k.activables.dropLast } pr .actif
      if (k.table pr).pid ≠ k.pidActif then .error (.confirme k)
      else do
        let k ← cederLaMain k actif
        if some pr = actif then .error (.confirme k) else .ok k

variable (env : Env)

/-- The father blocked in `waitpid` for `pr` becomes ready. -/
def reveillerPere (k : Noyau) (pere pr : Indice) : Resultat :=
  if (k.table pere).etat = .bloqueSurAttenteDUnFils ∧
      ((k.table pere).attendFils = .nImporteLequel ∨
        (k.table pere).attendFils = .ofPid (k.table pr).pid) then
    let k := if (k.table pere).attendFils = .nImporteLequel then
        k.modifie pere fun p => { p with attendFils := .ofPid (k.table pr).pid }
      else k
    definirEtat k pere .activable
  else .ok k

def finirProcessus (k : Noyau) (pr : Indice) : Resultat :=
  match (k.table pr).pere with
  | none => definirEtat k pr .mort
  | some pere => do
    let k ← reveillerPere k pere pr
    definirEtat k pr .zombie

def libererMemoire (k : Noyau) (pr : Indice) : Resultat := do
  let memoire ← Noyau.avecMemoire
    (desallouePagesProcess env k.memoire (pidInt (k.table pr).pid))
  .ok { k with memoire := freePage memoire (k.table pr).pageDirectory }

def terminaisonProcessus (k : Noyau) (pr : Indice) : Resultat :=
  if (k.table pr).pid = none ∨ (k.table pr).pid = some 0 then .error (.confirme k)
  else do
    let k ← finirProcessus k pr
    let k ← libererMemoire env k pr
    ordonnancer (k.noter (.terminaison pr))

/-- The loop of `start` that maps the remaining `n` pages, from page `i`. -/
def mapperPages (pid : Int) (pageDirectory : Mot) :
    Nat → Nat → Memoire → Except Faute Memoire
  | 0, _, m => .ok m
  | n + 1, i, m =>
    match getAdr env m pid i with
    | .error f => .error f
    | .ok .tete => .error .teteDeListe
    | .ok .aucun => mapperPages pid pageDirectory n (i + 1) m
    | .ok (.vers adr) =>
      match putAddressReel env m adr.adressePhy adr.adresseVirt adr.perm pageDirectory with
      | .error f => .error f
      | .ok (_, m) => mapperPages pid pageDirectory n (i + 1) m

/-- The memory operations of `start`: the directory and the pages of the new process. -/
def creerMemoireProcessus (m : Memoire) (pid : Int) (nbPage : Nat) :
    Except Faute (Mot × Memoire) :=
  match createPageDirectory env m with
  | (none, _) => .error .panique
  | (some pageDirectory, m) => do
    let m ← allouePagesProcess env m pid nbPage .read
    let n ← getNbPages env m pid
    if n ≠ nbPage then .error .panique
    else do
      let m ← mapperPages env pid pageDirectory nbPage 0 m
      .ok (pageDirectory, m)

def pidLibre (k : Noyau) : Option Indice :=
  (List.finRange nbProc).find? fun i => (k.table i).pid = none

/-- The compound literal `start` stores in the slot, with the fields it sets afterwards. -/
def nouveauProcessus (pid : Indice) (prio : Int) (pere : Option Indice) (args code : Mot)
    (pageDirectory : Mot) : Processus :=
  { pid := some pid, valresetfile := 0, etat := .endormi, suite := .debut, prio, pere
    fils := [], args, retval := 0, code, attendFils := .aucun, pageDirectory
    waitIemeInterruptionClock := 0 }

end ProjetSysteme.Kernel
