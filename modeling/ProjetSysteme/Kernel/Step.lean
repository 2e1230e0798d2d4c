/- Kernel/Step
   source: kernel/start.c, kernel/traitants.S
   digest: Runs of the kernel: calls, resumptions, clock ticks and key presses. -/

import ProjetSysteme.Kernel.File
import ProjetSysteme.Kernel.Console
import Mathlib.Logic.Relation

set_option autoImplicit false
set_option relaxedAutoImplicit false

namespace ProjetSysteme.Kernel

/-- What happens next: an interrupt, a call of the running process, or the rest
of the call in which the running process was switched out. -/
inductive Evenement
  | tic
  | touche (c : Int8)
  | appel (a : Appel)
  | reprise
  deriving DecidableEq, Repr

variable (env : Env)

/-- A call by the running process, up to its first `ordonnancer` or to its return. -/
def appeler (k : Noyau) (actif : Indice) : Appel → Resultat
  | .start nom ssize prio args => start env k nom ssize prio args
  | .exit retval => exit env k actif retval
  | .finCode retval => vieProcessusFin env k actif retval
  | .kill pid => kill env k actif pid
  | .waitpid pid retvalp => waitpid k actif pid retvalp
  | .chprio pid newprio => chprio k actif pid newprio
  | .getprio pid => .ok (k.renvoie actif (getprio k pid))
  | .waitClock clock => waitClock k clock (.retour 0)
  | .pcreate count => pcreate k actif count
  | .psend fid message => psend k actif fid message
  | .preceive fid => preceive k actif fid
  | .preset fid => preset env k actif fid
  | .pdelete fid => pdelete env k actif fid
  | .pcount fid count => pcount k actif fid count
  | .consRead length => consRead k actif length
  | .consEcho on => consEcho k actif on

def reprendre (k : Noyau) (actif : Indice) : Resultat :=
  match (k.table actif).suite with
  | .execution => .ok k
  | .debut => .ok (k.suspend actif .execution)
  | .retour v => .ok ((k.noter (.retour actif v)).suspend actif .execution)
  | .finConfirme => terminaisonProcessus env (k.suspend actif .termine) actif
  | .exitFin => .error (.confirme k)
  | .termine => .error (.faute .apresTerminaison)
  | .waitpidAttente retvalp => waitpidReprise k actif retvalp
  | .waitpidAttenteFils fils retvalp => waitpidRepriseFils k actif fils retvalp
  | .preceiveAttente fid => preceiveBoucle k actif fid
  | .preceiveFin => .ok (finAppelFile k actif 0)
  | .psendAttente fid message => psendReprise k actif fid message
  | .consReadAttente length => consReadReprise k actif length

/-- At boot `pid_actif` is -1 and `kernel_start` only calls `start`. -/
def executer (k : Noyau) : Evenement → Resultat
  | .tic => ticPIT k
  | .touche c => keyboardData k c
  | .appel a =>
    match k.pidActif with
    | some actif => appeler env (k.noter (.appel actif a)) actif a
    | none =>
      match a with
      | .start nom ssize prio args => start env k nom ssize prio args
      | _ => .error (.faute .horsTable)
  | .reprise =>
    match k.pidActif with
    | some actif => reprendre env k actif
    | none => .error (.faute .horsTable)

/-- One event, with the failure path of `confirme`. -/
def pas (k : Noyau) (e : Evenement) : Resultat :=
  match executer env k e with
  | .error (.confirme k') => echecConfirme k'
  | r => r

def Appel.estStart : Appel → Bool
  | .start .. => true
  | _ => false

/-- Interrupts and calls occur while the running process runs its own code.  The
boot context and the idle process, which is process 0, only call `start`. -/
def permis (k : Noyau) : Evenement → Bool
  | .tic | .touche _ =>
    match k.pidActif with
    | none => true
    | some actif => (k.table actif).suite = .execution
  | .appel a =>
    match k.pidActif with
    | none => a.estStart
    | some actif => (k.table actif).suite = .execution && (actif ≠ 0 || a.estStart)
  | .reprise =>
    match k.pidActif with
    | none => false
    | some actif => (k.table actif).suite ≠ .execution

/-- The memory of the kernel at boot: objects without initialiser are zero. -/
def noyauVide : Noyau :=
  { table := fun _ =>
      { pid := none, valresetfile := 0, etat := .mort, suite := .termine, prio := 0, pere := none
        fils := [], args := 0, retval := 0, code := 0, attendFils := .aucun, pageDirectory := 0
        waitIemeInterruptionClock := 0 }
    activables := []
    endormis := []
    pidActif := none
    horloge := 0
    files := fun _ =>
      { statut := false, size := 0, nbelem := 0, nbprocEnvoi := 0, nbprocRecep := 0, file := []
        listeProcBloqueReception := [], listeProcBloqueEnvoi := [] }
    nbFiles := 0
    console :=
      { echo := 1, index := 0, indexFinLigne := 0, tampon := fun _ => 0
        attente := Maillons.initListHead { prev := fun _ => none, next := fun _ => none } .tete }
    memoire :=
      { mots := fun _ => 0, pagesVides := [], pagesAllouees := [], nbMalloc := 0, nbMemalign := 0
        liberees := [] }
    journal := [] }

def initialiserGestionDesProcessus : Except Faute Noyau := do
  let memoire ← createListPagesVides env noyauVide.memoire
  .ok { noyauVide with memoire := memoire }

def Transition (C : Noyau → Evenement → Prop) (k k' : Noyau) : Prop :=
  ∃ e, permis k e = true ∧ C k e ∧ pas env k e = .ok k'

/-- The states reached from boot by runs whose steps all satisfy `C`. -/
def Atteint (C : Noyau → Evenement → Prop) (k : Noyau) : Prop :=
  ∃ k₀, initialiserGestionDesProcessus env = .ok k₀ ∧
    Relation.ReflTransGen (Transition env C) k₀ k

/-- Induction on a run: what holds at boot and is kept by each step of a run
holds in every state reached. -/
theorem Atteint.induction {C : Noyau → Evenement → Prop} {P : Noyau → Prop}
    (boot : ∀ k₀, initialiserGestionDesProcessus env = .ok k₀ → P k₀)
    (etape : ∀ k e k', Atteint env C k → P k → permis k e = true → C k e →
      pas env k e = .ok k' → P k')
    {k : Noyau} (atteint : Atteint env C k) : P k := by
  obtain ⟨k₀, depart, course⟩ := atteint
  induction course with
  | refl => exact boot k₀ depart
  | tail debut pas ih =>
      obtain ⟨e, autorise, condition, resultat⟩ := pas
      exact etape _ e _ ⟨k₀, depart, debut⟩ ih autorise condition resultat

theorem Atteint.mono {C C' : Noyau → Evenement → Prop} (implique : ∀ k e, C k e → C' k e)
    {k : Noyau} (atteint : Atteint env C k) : Atteint env C' k := by
  obtain ⟨k₀, depart, course⟩ := atteint
  refine ⟨k₀, depart, Relation.ReflTransGen.mono ?_ _ _ course⟩
  rintro a b ⟨e, autorise, condition, resultat⟩
  exact ⟨e, autorise, implique a e condition, resultat⟩

/-- A run given by its events, each of which must satisfy `C`, for concrete runs. -/
def derouler (C : Noyau → Evenement → Bool) : Noyau → List Evenement → Option Noyau
  | k, [] => some k
  | k, e :: reste =>
    if permis k e && C k e then
      match pas env k e with
      | .ok k' => derouler C k' reste
      | .error _ => none
    else none

/-- The run of the events `l` from boot ends in a state that passes the test. -/
def verifier (C : Noyau → Evenement → Bool) (l : List Evenement) (test : Noyau → Bool) : Bool :=
  match initialiserGestionDesProcessus env with
  | .error _ => false
  | .ok k₀ =>
    match derouler env C k₀ l with
    | none => false
    | some k => test k

theorem derouler_course {C : Noyau → Evenement → Bool} {k k' : Noyau} {l : List Evenement}
    (course : derouler env C k l = some k') :
    Relation.ReflTransGen (Transition env fun k e => C k e = true) k k' := by
  induction l generalizing k with
  | nil =>
      cases course
      exact .refl
  | cons e reste ih =>
      rw [derouler] at course
      split at course
      · next autorise =>
          rw [Bool.and_eq_true] at autorise
          split at course
          · next k₁ resultat =>
              exact .head ⟨e, autorise.1, autorise.2, resultat⟩ (ih course)
          · cases course
      · cases course

theorem Atteint.of_verifier {C : Noyau → Evenement → Bool} {l : List Evenement}
    {T : Noyau → Bool} (verifie : verifier env C l T = true) :
    ∃ k, Atteint env (fun k e => C k e = true) k ∧ T k = true := by
  unfold verifier at verifie
  split at verifie
  · cases verifie
  · next k₀ boot =>
      split at verifie
      · cases verifie
      · next k course => exact ⟨k, ⟨k₀, boot, derouler_course env course⟩, verifie⟩

def verifierPas (k : Noyau) (e : Evenement) (test : Noyau → Bool) : Bool :=
  match pas env k e with
  | .error _ => false
  | .ok k' => test k'

theorem pas_of_verifierPas {k : Noyau} {e : Evenement} {T : Noyau → Bool}
    (verifie : verifierPas env k e T = true) : ∃ k', pas env k e = .ok k' ∧ T k' = true := by
  unfold verifierPas at verifie
  split at verifie
  · cases verifie
  · next k' resultat => exact ⟨k', resultat, verifie⟩

/-- An environment in which every allocation succeeds and every name is a program. -/
def Env.exemple : Env where
  programmes _ := some 1
  memalign n := some (BitVec.ofNat 32 (4096 * (n + 256)))
  malloc _ := true
  indetermine _ := 0
  pidTete := -2
  pgdir _ := 0
  statutApresTable := false

def demarrer (prio : Int) : Evenement := .appel (.start "prog" 0 prio 0)

end ProjetSysteme.Kernel
