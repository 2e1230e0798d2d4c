/- Kernel/File
   source: kernel/file.c
   digest: Message queues, with psend and preceive cut at their calls of ordonnancer. -/

import ProjetSysteme.Kernel.Primitives

set_option autoImplicit false
set_option relaxedAutoImplicit false

namespace ProjetSysteme.Kernel

open Library.PriorityList (place)

/-- `tab_file_message + fid` for a C integer within the table. -/
def indiceFile? (fid : Int) : Option IndiceFile :=
  if h : 0 ≤ fid ∧ fid < nbQueue then some ⟨fid.toNat, by omega⟩ else none

/-- The guard `fid < 0 || fid >= NBQUEUE || statut == 0` of psend and preceive. -/
def fileOuverte? (k : Noyau) (fid : Int) : Option IndiceFile :=
  match indiceFile? fid with
  | none => none
  | some f => if (k.files f).statut then some f else none

def finAppelFile (k : Noyau) (actif : Indice) (v : Int) : Noyau :=
  (k.modifie actif fun p => { p with valresetfile := 0 }).renvoie actif v

def nouvelleFile (count : Int) (ancienne : FileMessage) : FileMessage :=
  { statut := true, size := count, nbelem := 0, nbprocEnvoi := 0, nbprocRecep := 0
    file := ancienne.file, listeProcBloqueReception := [], listeProcBloqueEnvoi := [] }

/-- With no free entry the search reads the word after the table. -/
def pcreate (k : Noyau) (actif : Indice) (count : Int) : Resultat :=
  if k.nbFiles ≥ nbQueue ∨ count ≤ 0 ∨ count > tailleMaxFile then .ok (k.renvoie actif (-1))
  else
    match (List.finRange nbQueue).find? fun f => ¬ (k.files f).statut with
    | none => .error (.faute .horsTable)
    | some f =>
      let k := k.modifieFile f (nouvelleFile count)
      .ok (({ k with nbFiles := k.nbFiles + 1 }.noter (.creation f)).renvoie actif (f.val : Int))

/-- The search loop of `pcreate` from the index `i`: `statut` is read before the
index is compared with NBQUEUE. -/
def chercherLibre (k : Noyau) : Nat → Int → Except Faute Int
  | 0, _ => .error .boucle
  | tours + 1, i =>
    match indiceFile? i with
    | none => .error .horsTable
    | some f =>
      if (k.files f).statut ∧ i ≠ nbQueue then chercherLibre k tours (i + 1) else .ok i

def noeud (k : Noyau) (actif : Indice) : ProcessBloque :=
  { pid := actif, prio := getprio k (actif.val : Int) }

/-- `preceive` after it took a message: room in a full queue wakes one sender,
and `preceive` gives up the processor before it returns. -/
def reveillerEmetteur (k : Noyau) (actif : Indice) (fid : IndiceFile) : Resultat :=
  if (k.files fid).nbelem = (k.files fid).size - 1 then
    match (k.files fid).listeProcBloqueEnvoi.getLast? with
    | none => .ok (finAppelFile k actif 0)
    | some q => do
      let k := k.modifieFile fid fun f =>
        { f with listeProcBloqueEnvoi := f.listeProcBloqueEnvoi.dropLast }
      let k ← definirEtat (k.suspend actif .preceiveFin) q.pid .activable
      let k := k.modifieFile fid fun f => { f with nbprocEnvoi := f.nbprocEnvoi - 1 }
      ordonnancer k
  else .ok (finAppelFile k actif 0)

/-- The body of the loop of `preceive`, and what follows it. -/
def preceiveBoucle (k : Noyau) (actif : Indice) (fid : IndiceFile) : Resultat :=
  if (k.files fid).nbelem = 0 ∧ (k.table actif).valresetfile = 0 then do
    let k := k.modifieFile fid fun f =>
      { f with
        listeProcBloqueReception := place ProcessBloque.prio (noeud k actif) f.listeProcBloqueReception }
    let k ← definirEtat (k.suspend actif (.preceiveAttente fid)) actif .bloqueSurReception
    let k := k.modifieFile fid fun f => { f with nbprocRecep := f.nbprocRecep + 1 }
    ordonnancer k
  else if (k.table actif).valresetfile = 0 then
    match (k.files fid).file with
    | [] => .error (.faute .maillonNul)
    | message :: reste =>
      let k := (k.modifieFile fid fun f => { f with file := reste, nbelem := f.nbelem - 1 }).noter
        (.reception actif fid message)
      reveillerEmetteur k actif fid
  else .ok (finAppelFile k actif (-1))

def preceive (k : Noyau) (actif : Indice) (fid : Int) : Resultat :=
  match fileOuverte? k fid with
  | none => .ok (k.renvoie actif (-1))
  | some f => preceiveBoucle k actif f

/-- `psend` after the store: the arrival of the first message wakes one receiver. -/
def reveillerRecepteur (k : Noyau) (fid : IndiceFile) : Resultat :=
  if (k.files fid).nbelem = 1 then
    match (k.files fid).listeProcBloqueReception.getLast? with
    | none => .ok k
    | some q => do
      let k := k.modifieFile fid fun f =>
        { f with listeProcBloqueReception := f.listeProcBloqueReception.dropLast }
      let k ← definirEtat k q.pid .activable
      .ok (k.modifieFile fid fun f => { f with nbprocRecep := f.nbprocRecep - 1 })
  else .ok k

/-- The loop of `psend` from its test, and what follows it. -/
def psendBoucle (k : Noyau) (actif : Indice) (fid : IndiceFile) (message : Int) : Resultat :=
  if (k.files fid).nbelem = (k.files fid).size ∧ (k.table actif).valresetfile = 0 then do
    let k := k.modifieFile fid fun f =>
      { f with
        listeProcBloqueEnvoi := place ProcessBloque.prio (noeud k actif) f.listeProcBloqueEnvoi }
    let k ← definirEtat (k.suspend actif (.psendAttente fid message)) actif .bloqueSurEnvoi
    let k := k.modifieFile fid fun f => { f with nbprocEnvoi := f.nbprocEnvoi + 1 }
    ordonnancer k
  else if (k.table actif).valresetfile = 0 then do
    let k := (k.modifieFile fid fun f =>
      { f with file := f.file ++ [message], nbelem := f.nbelem + 1 }).noter (.envoi actif fid message)
    let k ← reveillerRecepteur k fid
    .ok (finAppelFile k actif 0)
  else .ok (finAppelFile k actif (-1))

def psend (k : Noyau) (actif : Indice) (fid message : Int) : Resultat :=
  match fileOuverte? k fid with
  | none => .ok (k.renvoie actif (-1))
  | some f => psendBoucle k actif f message

/-- `psend` after its `ordonnancer`: on a full queue it returns before `setvalreset`. -/
def psendReprise (k : Noyau) (actif : Indice) (fid : IndiceFile) (message : Int) : Resultat :=
  if (k.files fid).nbelem = (k.files fid).size then .ok (k.renvoie actif (-1))
  else psendBoucle k actif fid message

/-- The two loops of `preset`: each blocked list is emptied from its last node
on.  A node whose process is not in the etat `bloque` is never removed. -/
def libererBloques (bloque : EtatProcessus) (retirer : Noyau → Noyau) :
    List ProcessBloque → Noyau → Resultat
  | [], k => .ok k
  | proc :: reste, k =>
    if (k.table proc.pid).etat = bloque then do
      let k ← definirEtat k proc.pid .activable
      let k := k.modifie proc.pid fun p => { p with valresetfile := 1 }
      libererBloques bloque retirer reste (retirer k)
    else .error (.faute .boucle)

def retirerReception (fid : IndiceFile) (k : Noyau) : Noyau :=
  k.modifieFile fid fun f =>
    { f with listeProcBloqueReception := f.listeProcBloqueReception.dropLast }

def retirerEnvoi (fid : IndiceFile) (k : Noyau) : Noyau :=
  k.modifieFile fid fun f => { f with listeProcBloqueEnvoi := f.listeProcBloqueEnvoi.dropLast }

def reinitialiser (k : Noyau) (fid : IndiceFile) : Resultat := do
  let k := (k.modifieFile fid fun f => { f with file := [], nbelem := 0 }).noter
    (.rejet fid (k.files fid).file)
  let k ← libererBloques .bloqueSurReception (retirerReception fid)
    (k.files fid).listeProcBloqueReception.reverse k
  let k ← libererBloques .bloqueSurEnvoi (retirerEnvoi fid)
    (k.files fid).listeProcBloqueEnvoi.reverse k
  .ok (k.modifieFile fid fun f => { f with nbprocEnvoi := 0, nbprocRecep := 0 })

/-- The guard of preset, `fid > NBQUEUE`, lets `fid = NBQUEUE` read the word
after the table; when that word is not zero the calls work on foreign memory. -/
def gardePreset (env : Env) (k : Noyau) (fid : Int) : Except Arret (Option IndiceFile) :=
  if fid = nbQueue then
    if env.statutApresTable then .error (.faute .horsTable) else .ok none
  else .ok (fileOuverte? k fid)

def preset (env : Env) (k : Noyau) (actif : Indice) (fid : Int) : Resultat := do
  match ← gardePreset env k fid with
  | none => .ok (k.renvoie actif (-1))
  | some f => do
    let k ← reinitialiser k f
    .ok (k.renvoie actif 0)

def pdelete (env : Env) (k : Noyau) (actif : Indice) (fid : Int) : Resultat := do
  match ← gardePreset env k fid with
  | none => .ok (k.renvoie actif (-1))
  | some f => do
    let k ← reinitialiser k f
    let k := k.modifieFile f fun g => { g with size := 0, statut := false }
    .ok (({ k with nbFiles := k.nbFiles - 1 }.noter (.destruction f)).renvoie actif 0)

def pcount (k : Noyau) (actif : Indice) (fid : Int) (count : Bool) : Resultat :=
  if fid < 0 ∨ fid > nbQueue then .ok (k.renvoie actif (-1))
  else if count then
    match indiceFile? fid with
    | none => .error (.faute .horsTable)
    | some f =>
      let g := k.files f
      .ok ((k.noter (.comptage actif f (-g.nbprocRecep + g.nbelem + g.nbprocEnvoi))).renvoie actif 0)
  else .ok (k.renvoie actif 0)

end ProjetSysteme.Kernel
