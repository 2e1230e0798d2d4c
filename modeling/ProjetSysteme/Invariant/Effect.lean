/- Invariant/Effect
   digest: What one event can do, from a state in which every waiting structure is exact. -/

import ProjetSysteme.Invariant.Abstraction
import ProjetSysteme.Invariant.Posture
import ProjetSysteme.Invariant.Readers
import ProjetSysteme.Invariant.Reachable

set_option autoImplicit false
set_option relaxedAutoImplicit false

namespace ProjetSysteme.Invariant

open Kernel Library.PriorityList Library.Outcome

/-- The message queues agree with the processes blocked in psend and preceive. -/
structure FilesSaines (k : Noyau) : Prop where
  regles : (canaux k).Wf
  recepteurs_nodup : ∀ fid, ((k.files fid).listeProcBloqueReception.map ProcessBloque.pid).Nodup
  emetteurs_nodup : ∀ fid, ((k.files fid).listeProcBloqueEnvoi.map ProcessBloque.pid).Nodup
  nbprocRecep : ∀ fid, (k.files fid).nbprocRecep = (k.files fid).listeProcBloqueReception.length
  nbprocEnvoi : ∀ fid, (k.files fid).nbprocEnvoi = (k.files fid).listeProcBloqueEnvoi.length
  nbelem : ∀ fid, (k.files fid).nbelem = (k.files fid).file.length

theorem FilesSaines.recepteurs {k : Noyau} (files : FilesSaines k) (fid : IndiceFile) :
    ∀ n ∈ (k.files fid).listeProcBloqueReception,
      (k.table n.pid).etat = .bloqueSurReception ∧
        (k.table n.pid).suite = .preceiveAttente fid := fun n mem =>
  phaseDe_blockedReceive.mp (files.regles.receivers fid n.pid
    (List.mem_toFinset.mpr (List.mem_map_of_mem mem)))

theorem FilesSaines.emetteurs {k : Noyau} (files : FilesSaines k) (fid : IndiceFile) :
    ∀ n ∈ (k.files fid).listeProcBloqueEnvoi, (k.table n.pid).etat = .bloqueSurEnvoi ∧
      ∃ message, (k.table n.pid).suite = .psendAttente fid message := by
  intro n mem
  obtain ⟨message, phase⟩ := files.regles.senders fid n.pid
    (List.mem_toFinset.mpr (List.mem_map_of_mem mem))
  rw [show (canaux k).phase n.pid = phaseDe (k.table n.pid) from rfl, phaseDe_blockedSend] at phase
  exact ⟨phase.1, message, phase.2⟩

structure ConsoleSaine (k : Noyau) : Prop where
  chainee : Chainee k.console.attente (lecteurs k)
  bloques : ∀ i ∈ lecteurs k, (k.table i).etat = .bloqueSurEntreeSortie

/-- Every waiting structure is exact, and every process is where its state says. -/
structure Sain (k : Noyau) : Prop where
  stable : Stable k
  actif : ∀ a, k.pidActif = some a → (k.table a).etat = .actif
  posture : ∀ i, Posture k i
  valeurs : Valeurs k
  drapeau : ∀ i, (k.table i).valresetfile = 0 ∨ (k.table i).valresetfile = 1
  files : FilesSaines k
  console : ConsoleSaine k

section Passifs

variable {k : Noyau} {a i : Indice} {fid : IndiceFile} {n : ProcessBloque}

theorem Sain.passif (sain : Sain k) (actif : k.pidActif = some a) {e : EtatProcessus}
    (etat : (k.table i).etat = e) (autre : e ≠ .actif) : i ≠ a := by
  intro meme
  rw [meme, sain.actif a actif] at etat
  exact autre etat.symm

theorem Sain.recepteur_passif (sain : Sain k) (actif : k.pidActif = some a)
    (mem : n ∈ (k.files fid).listeProcBloqueReception) : n.pid ≠ a :=
  sain.passif actif (sain.files.recepteurs fid n mem).1 (by decide)

theorem Sain.emetteur_passif (sain : Sain k) (actif : k.pidActif = some a)
    (mem : n ∈ (k.files fid).listeProcBloqueEnvoi) : n.pid ≠ a :=
  sain.passif actif (sain.files.emetteurs fid n mem).1 (by decide)

theorem Sain.lecteur_passif (sain : Sain k) (actif : k.pidActif = some a) (mem : i ∈ lecteurs k) : i ≠ a :=
  sain.passif actif (sain.console.bloques i mem) (by decide)

end Passifs

/-- Process `i` is on no list of a message queue and not on the queue of cons_read. -/
def HorsListes (k : Noyau) (i : Indice) : Prop :=
  (∀ fid, (∀ n ∈ (k.files fid).listeProcBloqueReception, n.pid ≠ i) ∧
    ∀ n ∈ (k.files fid).listeProcBloqueEnvoi, n.pid ≠ i) ∧
  i ∉ lecteurs k

/-- A call of kill does not reach a process that is on such a list. -/
def KillPropre (k : Noyau) : Evenement → Prop
  | .appel (.kill pid) => ∀ i ∈ indice? pid, HorsListes k i
  | _ => True

/-- A psend of `message` to the queue `fid` is at its test. -/
def Emet (k : Noyau) (e : Evenement) (a : Indice) (fid : IndiceFile) (message : Int) : Prop :=
  (∃ n, e = .appel (.psend n message) ∧ fileOuverte? k n = some fid) ∨
  (e = .reprise ∧ (k.table a).suite = .psendAttente fid message)

/-- A preceive on the queue `fid` is at its test. -/
def Recoit (k : Noyau) (e : Evenement) (a : Indice) (fid : IndiceFile) : Prop :=
  (∃ n, e = .appel (.preceive n) ∧ fileOuverte? k n = some fid) ∨
  (e = .reprise ∧ (k.table a).suite = .preceiveAttente fid)

def envoiDe (k : Noyau) (e : Evenement) (a : Indice) : Option (IndiceFile × Int) :=
  match e with
  | .appel (.psend n message) => (fileOuverte? k n).map (·, message)
  | .reprise =>
    match (k.table a).suite with
    | .psendAttente fid message => some (fid, message)
    | _ => none
  | _ => none

theorem emet_iff {k : Noyau} {e : Evenement} {a : Indice} {fid : IndiceFile} {message : Int} :
    Emet k e a fid message ↔ envoiDe k e a = some (fid, message) := by
  unfold Emet envoiDe
  split
  · simp only [Evenement.appel.injEq, Appel.psend.injEq, Option.map_eq_some_iff, Prod.mk.injEq]
    grind
  · split <;> simp_all
  · next autre _ =>
      constructor
      · rintro (⟨n, rfl, _⟩ | ⟨rfl, _⟩)
        · exact absurd rfl (autre n message)
        · contradiction
      · rintro ⟨⟩

def receptionDe (k : Noyau) (e : Evenement) (a : Indice) : Option IndiceFile :=
  match e with
  | .appel (.preceive n) => fileOuverte? k n
  | .reprise =>
    match (k.table a).suite with
    | .preceiveAttente fid => some fid
    | _ => none
  | _ => none

theorem recoit_iff {k : Noyau} {e : Evenement} {a : Indice} {fid : IndiceFile} :
    Recoit k e a fid ↔ receptionDe k e a = some fid := by
  unfold Recoit receptionDe
  split
  · simp
  · split <;> simp_all
  · next autre _ =>
      constructor
      · rintro (⟨n, rfl, _⟩ | ⟨rfl, _⟩)
        · exact absurd rfl (autre n)
        · contradiction
      · rintro ⟨⟩

instance (k : Noyau) (e : Evenement) (a : Indice) (fid : IndiceFile) :
    Decidable (∃ message, Emet k e a fid message) :=
  decidable_of_iff ((envoiDe k e a).map Prod.fst = some fid) (by simp [emet_iff])

instance (k : Noyau) (e : Evenement) (a : Indice) (fid : IndiceFile) :
    Decidable (Recoit k e a fid) := decidable_of_iff _ recoit_iff.symm

structure Neutre (k k' : Noyau) : Prop where
  table : k'.table = k.table
  activables : k'.activables = k.activables
  endormis : k'.endormis = k.endormis
  pidActif : k'.pidActif = k.pidActif
  horloge : k'.horloge = k.horloge
  files : k'.files = k.files
  attente : k'.console.attente = k.console.attente
  journal : k'.journal = k.journal ∨ ∃ f, k'.journal = f :: k.journal ∧
    match f with
    | .retour .. | .comptage .. | .lecture .. => True
    | _ => False

inductive Terminaison (k : Noyau) (pr : Indice) : Noyau → Prop
  | mort {k' : Noyau} {m : Memoire} (pere : (k.table pr).pere = none)
      (fin : Termine pr .mort k k') :
      Terminaison k pr (({ k' with memoire := m } : Noyau).noter (.terminaison pr))
  | zombie {k₁ k' : Noyau} {m : Memoire} {p : Indice} (pere : (k.table pr).pere = some p)
      (reveille : PereReveille k p pr k₁) (seul : DernierSeul k (k.table pr).fils)
      (fin : Termine pr .zombie k₁ k') :
      Terminaison k pr (({ k' with memoire := m } : Noyau).noter (.terminaison pr))

inductive Reveils : Noyau → Noyau → Prop
  | fin (k : Noyau) : Reveils k k
  | suivant {k k₁ k' : Noyau} {i : Indice} (endormi : (k.table i).etat = .bloqueSurSemaphore)
      (change : Change k i .activable k₁) (reste : Reveils k₁ k') : Reveils k k'

structure Vide (fid : IndiceFile) (k k' : Noyau) : Prop where
  noyau : k' = { k with
    table := k'.table, activables := k'.activables, endormis := k'.endormis, files := k'.files
    journal := .rejet fid (k.files fid).file :: k.journal }
  files : k'.files = (k.modifieFile fid fileVidee).files
  reveille : ∀ i, (∃ n ∈ (k.files fid).listeProcBloqueReception ++ (k.files fid).listeProcBloqueEnvoi,
    n.pid = i) → k'.table i = { k.table i with etat := .activable, valresetfile := 1 }
  autres : ∀ i, (∀ n ∈ (k.files fid).listeProcBloqueReception ++ (k.files fid).listeProcBloqueEnvoi,
    n.pid ≠ i) → k'.table i = k.table i

/-- Effect of an event that leaves the message queues alone, up to the last call of
`ordonnancer`; `k` is the state after the call was recorded. -/
inductive EffetProcessus (e : Evenement) (k : Noyau) : Noyau → Prop
  | neutre {k' : Noyau} (avant : ∀ a, k.pidActif = some a → HorsFile (k.table a).suite)
      (neutre : Neutre k k') : EffetProcessus e k k'
  | rendre {k' : Noyau} {a : Indice} {s : Suite} (actif : k.pidActif = some a)
      (avant : HorsFile (k.table a).suite) (apres : VeilleSuite s) (neutre : Neutre k k') :
      EffetProcessus e k (k'.suspend a s)
  | dormir {k' : Noyau} {a : Indice} {s : Suite} (clock : UInt32) (actif : k.pidActif = some a)
      (nonZero : a ≠ 0) (avant : HorsFile (k.table a).suite)
      (apres : (∃ v, s = .retour v) ∨ s = .finConfirme)
      (change : Change ((k.modifie a fun p => { p with waitIemeInterruptionClock := clock }).suspend
        a s) a .bloqueSurSemaphore k') : EffetProcessus e k k'
  | demarrer {k' : Noyau} {pid : Indice} (prio : Int) (args code pageDirectory : Mot) (m : Memoire)
      (avant : ∀ a, k.pidActif = some a → HorsFile (k.table a).suite)
      (libre : pidLibre k = some pid)
      (change : Change (((installerProcessus k pid prio args code pageDirectory m).noter
        (.demarrage k.pidActif pid)).renvoieActif (pid.val : Int)) pid .activable k') : EffetProcessus e k k'
  | tuer {k' : Noyau} {a pr : Indice} {pid : Int} (actif : k.pidActif = some a)
      (avant : HorsFile (k.table a).suite) (appel : e = .appel (.kill pid))
      (cible : indice? pid = some pr) (nonZero : pr ≠ 0) (vivant : (k.table pr).etat ≠ .mort)
      (nonZombie : (k.table pr).etat ≠ .zombie)
      (fin : Terminaison (k.renvoie a 0) pr k') : EffetProcessus e k k'
  | sortir {k' : Noyau} {a : Indice} {s : Suite} (v : Int) (actif : k.pidActif = some a)
      (nonZero : a ≠ 0) (avant : HorsFile (k.table a).suite)
      (apres : e = .appel (.exit v) ∧ s = .exitFin ∨ e = .appel (.finCode v) ∧ s = .termine)
      (fin : Terminaison (((k.modifie a fun p => { p with retval := v }).noter (.fin a v)).suspend
        a s) a k') : EffetProcessus e k k'
  | achever {k' : Noyau} {a : Indice} (actif : k.pidActif = some a) (nonZero : a ≠ 0)
      (reprise : e = .reprise) (suite : (k.table a).suite = .finConfirme)
      (fin : Terminaison (k.suspend a .termine) a k') : EffetProcessus e k k'
  | attendre {k' : Noyau} {a : Indice} (retvalp : Bool) (actif : k.pidActif = some a)
      (nonZero : a ≠ 0) (avant : HorsFile (k.table a).suite) (fils : (k.table a).fils ≠ [])
      (aucun : ∀ c ∈ (k.table a).fils, (k.table c).etat ≠ .zombie)
      (change : Change ((k.modifie a fun p => { p with attendFils := .nImporteLequel }).suspend a
        (.waitpidAttente retvalp)) a .bloqueSurAttenteDUnFils k') : EffetProcessus e k k'
  | attendreFils {k' : Noyau} {a c : Indice} (retvalp : Bool) (actif : k.pidActif = some a)
      (nonZero : a ≠ 0) (avant : HorsFile (k.table a).suite) (pere : (k.table c).pere = some a)
      (vivant : (k.table c).etat ≠ .mort) (nonZombie : (k.table c).etat ≠ .zombie)
      (change : Change ((k.modifie a fun p => { p with attendFils := .fils c }).suspend a
        (.waitpidAttenteFils c retvalp)) a .bloqueSurAttenteDUnFils k') : EffetProcessus e k k'
  | recuperer {k₁ k' : Noyau} {a c : Indice} (retvalp : Bool) (actif : k.pidActif = some a)
      (avant : HorsFile (k.table a).suite) (pere : (k.table c).pere = some a)
      (zombie : (k.table c).etat = .zombie)
      (attend : k₁ = k ∨ k₁ = k.modifie a fun p => { p with attendFils := .aucun })
      (fin : Termine c .mort ((if retvalp then k₁.noter (.recuperation a c (k.table c).retval)
        else k₁).renvoie a (c.val : Int)) k') : EffetProcessus e k k'
  | reclasser {k' : Noyau} {a pr : Indice} (prio oldprio : Int) (actif : k.pidActif = some a)
      (avant : HorsFile (k.table a).suite) (vivant : (k.table pr).etat ≠ .mort)
      (reclasse : Reclasse k pr prio k') : EffetProcessus e k (k'.renvoie a oldprio)
  | tic {k' : Noyau} (horloge : UInt32) (appel : e = .tic)
      (avant : ∀ a, k.pidActif = some a → HorsFile (k.table a).suite)
      (reveils : Reveils { k with horloge := horloge } k') : EffetProcessus e k k'
  | entrerConsole {k₁ k' : Noyau} {a : Indice} (length : UInt32) (actif : k.pidActif = some a)
      (nonZero : a ≠ 0) (appel : e = .appel (.consRead length)) (avant : HorsFile (k.table a).suite)
      (entree : ∃ console l, k₁ = { k with console := console } ∧ Chainee console.attente l ∧
        l.Perm (a :: lecteurs k))
      (change : Change (k₁.suspend a (.consReadAttente length)) a .bloqueSurEntreeSortie k') :
      EffetProcessus e k k'
  | sortirConsole {k₁ k₂ k' : Noyau} {p : Indice}
      (avant : ∀ a, k.pidActif = some a → HorsFile (k.table a).suite)
      (sortie : ∃ console l, k₁ = { k with console := console } ∧ Chainee console.attente l ∧
        lecteurs k = l ++ [p])
      (change : Change k₁ p .activable k₂) (neutre : Neutre k₂ k') : EffetProcessus e k k'
  | finReception {a : Indice} (actif : k.pidActif = some a) (suite : (k.table a).suite = .preceiveFin) :
      EffetProcessus e k (finAppelFile k a 0)

/-- Effect of an event on the message queues, up to the last call of `ordonnancer`. -/
inductive EffetFile (e : Evenement) (k : Noyau) : Noyau → Prop
  | creer {a : Indice} {fid : IndiceFile} (count : Int) (nbFiles : Int) (actif : k.pidActif = some a)
      (avant : HorsFile (k.table a).suite) (appel : e = .appel (.pcreate count)) (positif : 0 < count)
      (libre : (k.files fid).statut = false) :
      EffetFile e k ((({ k.modifieFile fid (nouvelleFile count) with nbFiles := nbFiles } : Noyau).noter
        (.creation fid)).renvoie a (fid.val : Int))
  | bloquerReception {k' : Noyau} {a : Indice} {fid : IndiceFile} (actif : k.pidActif = some a)
      (nonZero : a ≠ 0) (appel : Recoit k e a fid) (vide : (k.files fid).nbelem = 0)
      (drapeau : (k.table a).valresetfile = 0)
      (change : Change ((k.modifieFile fid fun f =>
        { f with
          listeProcBloqueReception :=
            place ProcessBloque.prio (noeud k a) f.listeProcBloqueReception }).suspend a
        (.preceiveAttente fid)) a .bloqueSurReception k') :
      EffetFile e k (k'.modifieFile fid fun f => { f with nbprocRecep := f.nbprocRecep + 1 })
  | bloquerEnvoi {k' : Noyau} {a : Indice} {fid : IndiceFile} {message : Int}
      (actif : k.pidActif = some a) (nonZero : a ≠ 0) (appel : Emet k e a fid message)
      (neuf : HorsFile (k.table a).suite) (plein : (k.files fid).nbelem = (k.files fid).size)
      (drapeau : (k.table a).valresetfile = 0)
      (change : Change ((k.modifieFile fid fun f =>
        { f with
          listeProcBloqueEnvoi :=
            place ProcessBloque.prio (noeud k a) f.listeProcBloqueEnvoi }).suspend a
        (.psendAttente fid message)) a .bloqueSurEnvoi k') :
      EffetFile e k (k'.modifieFile fid fun f => { f with nbprocEnvoi := f.nbprocEnvoi + 1 })
  | prendre {a : Indice} {fid : IndiceFile} {message : Int} {reste : List Int}
      (actif : k.pidActif = some a) (appel : Recoit k e a fid)
      (drapeau : (k.table a).valresetfile = 0) (tete : (k.files fid).file = message :: reste)
      (sans : (k.files fid).nbelem = (k.files fid).size →
        (k.files fid).listeProcBloqueEnvoi = []) :
      EffetFile e k (finAppelFile ((k.modifieFile fid fun f =>
        { f with file := reste, nbelem := f.nbelem - 1 }).noter (.reception a fid message)) a 0)
  | prendreReveil {k' : Noyau} {a : Indice} {fid : IndiceFile} {message : Int} {reste : List Int}
      {q : ProcessBloque} (actif : k.pidActif = some a) (nonZero : a ≠ 0) (appel : Recoit k e a fid)
      (drapeau : (k.table a).valresetfile = 0) (tete : (k.files fid).file = message :: reste)
      (plein : (k.files fid).nbelem = (k.files fid).size)
      (dernier : (k.files fid).listeProcBloqueEnvoi.getLast? = some q)
      (change : Change (((k.modifieFile fid fun f =>
        { f with
          file := reste, nbelem := f.nbelem - 1
          listeProcBloqueEnvoi := f.listeProcBloqueEnvoi.dropLast }).noter
        (.reception a fid message)).suspend a .preceiveFin) q.pid .activable k') :
      EffetFile e k (k'.modifieFile fid fun f => { f with nbprocEnvoi := f.nbprocEnvoi - 1 })
  | deposer {a : Indice} {fid : IndiceFile} {message : Int} (actif : k.pidActif = some a)
      (appel : Emet k e a fid message) (place : (k.files fid).nbelem ≠ (k.files fid).size)
      (drapeau : (k.table a).valresetfile = 0)
      (sans : (k.files fid).nbelem = 0 → (k.files fid).listeProcBloqueReception = []) :
      EffetFile e k (finAppelFile ((k.modifieFile fid fun f =>
        { f with file := f.file ++ [message], nbelem := f.nbelem + 1 }).noter
          (.envoi a fid message)) a 0)
  | deposerReveil {k' : Noyau} {a : Indice} {fid : IndiceFile} {message : Int} {q : ProcessBloque}
      (actif : k.pidActif = some a) (appel : Emet k e a fid message)
      (place : (k.files fid).nbelem ≠ (k.files fid).size)
      (drapeau : (k.table a).valresetfile = 0) (vide : (k.files fid).nbelem = 0)
      (dernier : (k.files fid).listeProcBloqueReception.getLast? = some q)
      (change : Change ((k.modifieFile fid fun f =>
        { f with
          file := f.file ++ [message], nbelem := f.nbelem + 1
          listeProcBloqueReception := f.listeProcBloqueReception.dropLast }).noter
        (.envoi a fid message)) q.pid .activable k') :
      EffetFile e k (finAppelFile (k'.modifieFile fid fun f =>
        { f with nbprocRecep := f.nbprocRecep - 1 }) a 0)
  | refuser {a : Indice} {fid : IndiceFile} (actif : k.pidActif = some a)
      (appel : Recoit k e a fid ∨ ∃ message, Emet k e a fid message ∧
        (e = .reprise → (k.files fid).nbelem ≠ (k.files fid).size))
      (drapeau : (k.table a).valresetfile ≠ 0) : EffetFile e k (finAppelFile k a (-1))
  | abandonner {a : Indice} {fid : IndiceFile} {message : Int} (actif : k.pidActif = some a)
      (reprise : e = .reprise) (suite : (k.table a).suite = .psendAttente fid message)
      (plein : (k.files fid).nbelem = (k.files fid).size) : EffetFile e k (k.renvoie a (-1))
  | vider {k' : Noyau} {a : Indice} {fid : IndiceFile} (n : Int) (actif : k.pidActif = some a)
      (avant : HorsFile (k.table a).suite) (appel : e = .appel (.preset n))
      (ouverte : fileOuverte? k n = some fid) (vide : Vide fid k k') : EffetFile e k (k'.renvoie a 0)
  | supprimer {k' : Noyau} {a : Indice} {fid : IndiceFile} (n nbFiles : Int)
      (actif : k.pidActif = some a) (avant : HorsFile (k.table a).suite)
      (appel : e = .appel (.pdelete n)) (ouverte : fileOuverte? k n = some fid)
      (vide : Vide fid k k') :
      EffetFile e k ((({ k'.modifieFile fid (fun f => { f with size := 0, statut := false }) with
        nbFiles := nbFiles } : Noyau).noter (.destruction fid)).renvoie a 0)

inductive Effet (e : Evenement) (k k' : Noyau) : Prop
  | processus (effet : EffetProcessus e k k') : Effet e k k'
  | file (effet : EffetFile e k k') : Effet e k k'

def enregistrer (k : Noyau) (e : Evenement) : Noyau :=
  match e, k.pidActif with
  | .appel a, some actif => k.noter (.appel actif a)
  | _, _ => k

def Suivant (e : Evenement) (k k' : Noyau) : Prop :=
  ∃ k₁, Effet e k k₁ ∧ (k' = k₁ ∨ Ordonnance k₁ k')

/-- Effect of the event on the message queues, from the state in which it was recorded. -/
def SuivantFile (e : Evenement) (k k' : Noyau) : Prop :=
  ∃ k₁, EffetFile e k k₁ ∧ (k' = k₁ ∨ Ordonnance k₁ k')

def Etape (e : Evenement) (k k' : Noyau) : Prop := Suivant e (enregistrer k e) k'

end ProjetSysteme.Invariant
