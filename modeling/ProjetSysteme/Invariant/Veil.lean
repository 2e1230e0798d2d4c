/- Invariant/Veil
   digest: The kernel runs the same way under another echo mode and another past. -/

import ProjetSysteme.Kernel.Step
import ProjetSysteme.Library.Outcome

set_option autoImplicit false
set_option relaxedAutoImplicit false

namespace ProjetSysteme.Invariant

open Kernel Library.Outcome

structure Voile where
  echo : Int
  passe : List Fait

namespace Voile

def noyau (v : Voile) (k : Noyau) : Noyau :=
  { k with console := { k.console with echo := v.echo }, journal := k.journal ++ v.passe }

def arret (v : Voile) : Arret → Arret
  | .faute f => .faute f
  | .confirme k => .confirme (v.noyau k)

abbrev issue {α : Type} (v : Voile) (valeur : α → α) (r : Except Arret α) : Except Arret α :=
  image v.arret valeur r

variable (v : Voile) (k : Noyau)

@[simp] theorem noyau_table : (v.noyau k).table = k.table := rfl
@[simp] theorem noyau_activables : (v.noyau k).activables = k.activables := rfl
@[simp] theorem noyau_endormis : (v.noyau k).endormis = k.endormis := rfl
@[simp] theorem noyau_pidActif : (v.noyau k).pidActif = k.pidActif := rfl
@[simp] theorem noyau_files : (v.noyau k).files = k.files := rfl
@[simp] theorem noyau_attente : (v.noyau k).console.attente = k.console.attente := rfl

end Voile

section Etats

variable {v : Voile} {k : Noyau}

theorem lire_voile {α : Type} {r : Except Arret α} (sans : ∀ k, r ≠ .error (.confirme k)) : r = v.issue id r := by
  cases r with
  | ok a => rfl
  | error e =>
      cases e with
      | faute f => rfl
      | confirme k => exact absurd rfl (sans k)

theorem queueDel_voile (i : Indice) (f : List Indice) : queueDel i f = v.issue id (queueDel i f) := by
  refine lire_voile fun k => ?_
  unfold queueDel
  split
  · nofun
  · nofun

theorem queueAdd_voile (cle : Indice → Int) (i : Indice) (f : List Indice) :
    queueAdd cle i f = v.issue id (queueAdd cle i f) := by
  refine lire_voile fun k => ?_
  unfold queueAdd
  split
  · nofun
  · nofun

theorem suivantFils_voile (p f : Indice) : suivantFils (v.noyau k) p f = v.issue id (suivantFils k p f) := by
  refine lire_voile fun k' => ?_
  unfold suivantFils
  split
  · nofun
  · nofun
  · nofun

theorem quitterActivables_voile (pr : Indice) (e : EtatProcessus) :
    quitterActivables (v.noyau k) pr e = v.issue v.noyau (quitterActivables k pr e) := by
  refine image_ite (fun _ => ?_) fun _ => rfl
  exact image_bind (queueDel_voile ..) fun _ => rfl

theorem quitterEndormis_voile (pr : Indice) :
    quitterEndormis (v.noyau k) pr = v.issue v.noyau (quitterEndormis k pr) := by
  refine image_ite (fun _ => ?_) fun _ => rfl
  exact image_bind (queueDel_voile ..) fun _ => rfl

theorem entrerActivables_voile (pr : Indice) :
    entrerActivables (v.noyau k) pr = v.issue v.noyau (entrerActivables k pr) :=
  image_bind (queueAdd_voile ..) fun _ => rfl

theorem entrerEndormis_voile (pr : Indice) :
    entrerEndormis (v.noyau k) pr = v.issue v.noyau (entrerEndormis k pr) :=
  image_bind (queueAdd_voile ..) fun _ => rfl

theorem prendreLaMain_voile (pr : Indice) :
    prendreLaMain (v.noyau k) pr = v.issue v.noyau (prendreLaMain k pr) :=
  image_ite (fun _ => rfl) fun _ => rfl

theorem retirerDuPere_voile (pr : Indice) :
    retirerDuPere (v.noyau k) pr = v.issue v.noyau (retirerDuPere k pr) := by
  unfold retirerDuPere
  simp only [Voile.noyau_table]
  cases (k.table pr).pere with
  | none => rfl
  | some pere =>
      refine image_ite (fun _ => rfl) fun _ => ?_
      exact image_bind (queueDel_voile ..) fun _ => rfl

def Voile.visite (v : Voile) (r : List Indice × Noyau) : List Indice × Noyau := (r.1, v.noyau r.2)

private structure RecursionVoile (v : Voile) (n : Nat) : Prop where
  definir : ∀ k pr e, definirEtatProcessus n (v.noyau k) pr e = v.issue v.noyau (definirEtatProcessus n k pr e)
  cas : ∀ k pr e, casEtat n (v.noyau k) pr e = v.issue v.noyau (casEtat n k pr e)
  boucle : ∀ d k pr f, boucleFils n d (v.noyau k) pr f = v.issue v.visite (boucleFils n d k pr f)
  corps : ∀ d k pr f, corpsFils n d (v.noyau k) pr f = v.issue v.visite (corpsFils n d k pr f)

private theorem recursion_voile (v : Voile) (n : Nat) : RecursionVoile v n := by
  induction n with
  | zero => exact ⟨fun _ _ _ => rfl, fun _ _ _ => rfl, fun _ _ _ _ => rfl, fun _ _ _ _ => rfl⟩
  | succ n ih =>
      refine ⟨fun k pr e => ?_, fun k pr e => ?_, fun d k pr f => ?_, fun d k pr fils => ?_⟩
      · refine image_ite (fun _ => rfl) fun _ => image_ite (fun _ => rfl) fun _ => ?_
        refine image_bind (quitterActivables_voile pr e) fun k => ?_
        refine image_bind (quitterEndormis_voile pr) fun k => ?_
        exact image_bind (ih.cas k pr e) fun k => rfl
      · cases e with
        | activable => exact entrerActivables_voile pr
        | actif => exact prendreLaMain_voile pr
        | mort =>
            refine image_bind (ih.boucle true k pr _) fun r => ?_
            exact retirerDuPere_voile (k := r.2.modifie pr fun p => { p with pid := none }) pr
        | zombie => exact image_bind (ih.boucle false k pr _) fun r => rfl
        | bloqueSurSemaphore => exact entrerEndormis_voile pr
        | _ => rfl
      · cases f with
        | none => rfl
        | some fils => exact image_bind (ih.corps d k pr fils) fun r => rfl
      · have detache : (if d then (v.noyau k).modifie fils fun p => { p with pere := none } else v.noyau k) =
            v.noyau (if d then k.modifie fils fun p => { p with pere := none } else k) := by
          cases d <;> rfl
        rw [corpsFils, corpsFils, detache]
        refine image_ite (fun _ => ?_) fun _ => ?_
        · refine image_bind (suivantFils_voile pr fils) fun filsSuiv => ?_
          refine image_bind (ih.definir _ fils .mort) fun k₂ => ?_
          cases filsSuiv with
          | none => rfl
          | some _ => exact ih.corps d k₂ pr fils
        · refine image_bind (suivantFils_voile pr fils) fun suivant => ?_
          exact ih.boucle d _ pr suivant

theorem definirEtat_voile (pr : Indice) (e : EtatProcessus) :
    definirEtat (v.noyau k) pr e = v.issue v.noyau (definirEtat k pr e) :=
  (recursion_voile v limite).definir k pr e

theorem cederLaMain_voile (actif : Option Indice) :
    cederLaMain (v.noyau k) actif = v.issue v.noyau (cederLaMain k actif) := by
  cases actif with
  | none => rfl
  | some a => exact image_ite (fun _ => definirEtat_voile a .activable) fun _ => rfl

theorem ordonnancer_voile : ordonnancer (v.noyau k) = v.issue v.noyau (ordonnancer k) := by
  unfold ordonnancer
  simp only [Voile.noyau_activables]
  cases k.activables.getLast? with
  | none => rfl
  | some pr =>
      refine image_ite (fun _ => rfl) fun _ => ?_
      refine image_bind (definirEtat_voile (k := { k with activables := k.activables.dropLast }) pr .actif) fun k₁ => ?_
      refine image_ite (fun _ => rfl) fun _ => ?_
      refine image_bind (cederLaMain_voile k.pidActif) fun k₂ => ?_
      exact image_ite (fun _ => rfl) fun _ => rfl

end Etats

section Vie

variable {v : Voile} {k : Noyau} {env : Env}

theorem avecMemoire_voile {α : Type} (r : Except Faute α) : Noyau.avecMemoire r = v.issue id (Noyau.avecMemoire r) := by
  refine lire_voile fun k => ?_
  cases r with
  | ok a => nofun
  | error f => nofun

theorem reveillerPere_voile (pere pr : Indice) :
    reveillerPere (v.noyau k) pere pr = v.issue v.noyau (reveillerPere k pere pr) := by
  refine image_ite (fun _ => ?_) fun _ => rfl
  have cible : (if ((v.noyau k).table pere).attendFils = .nImporteLequel then
      (v.noyau k).modifie pere fun p => { p with attendFils := .ofPid (k.table pr).pid } else v.noyau k) =
      v.noyau (if (k.table pere).attendFils = .nImporteLequel then
        k.modifie pere fun p => { p with attendFils := .ofPid (k.table pr).pid } else k) := by
    rw [Voile.noyau_table, apply_ite v.noyau]
    rfl
  exact (congrArg (definirEtat · pere .activable) cible).trans (definirEtat_voile pere .activable)

theorem finirProcessus_voile (pr : Indice) :
    finirProcessus (v.noyau k) pr = v.issue v.noyau (finirProcessus k pr) := by
  unfold finirProcessus
  simp only [Voile.noyau_table]
  cases (k.table pr).pere with
  | none => exact definirEtat_voile pr .mort
  | some pere => exact image_bind (reveillerPere_voile pere pr) fun k => definirEtat_voile pr .zombie

theorem libererMemoire_voile (pr : Indice) :
    libererMemoire env (v.noyau k) pr = v.issue v.noyau (libererMemoire env k pr) :=
  image_bind (avecMemoire_voile _) fun _ => rfl

theorem terminaisonProcessus_voile (pr : Indice) :
    terminaisonProcessus env (v.noyau k) pr = v.issue v.noyau (terminaisonProcessus env k pr) := by
  refine image_ite (fun _ => rfl) fun _ => ?_
  refine image_bind (finirProcessus_voile pr) fun k => ?_
  refine image_bind (libererMemoire_voile pr) fun k => ?_
  exact ordonnancer_voile (k := k.noter (.terminaison pr))

theorem etat_ordonnancer_voile (i : Indice) (e : EtatProcessus) :
    (definirEtat (v.noyau k) i e >>= ordonnancer) = v.issue v.noyau (definirEtat k i e >>= ordonnancer) :=
  image_bind (definirEtat_voile i e) fun _ => ordonnancer_voile

private theorem endormis_voile :
    ((v.noyau k).endormis.find? fun i => ((v.noyau k).table i).waitIemeInterruptionClock ≤ (v.noyau k).horloge) =
      k.endormis.find? fun i => (k.table i).waitIemeInterruptionClock ≤ k.horloge := rfl

theorem parcourEndormis_voile (n : Nat) :
    parcourEndormis n (v.noyau k) = v.issue v.noyau (parcourEndormis n k) := by
  induction n generalizing k with
  | zero =>
      unfold parcourEndormis
      rw [endormis_voile]
      cases k.endormis.find? fun i => (k.table i).waitIemeInterruptionClock ≤ k.horloge with
      | none => rfl
      | some attend => rfl
  | succ n ih =>
      unfold parcourEndormis
      rw [endormis_voile]
      cases k.endormis.find? fun i => (k.table i).waitIemeInterruptionClock ≤ k.horloge with
      | none => rfl
      | some attend => exact image_bind (definirEtat_voile attend .activable) fun k => ih

theorem ticPIT_voile : ticPIT (v.noyau k) = v.issue v.noyau (ticPIT k) :=
  image_bind (parcourEndormis_voile (k := { k with horloge := k.horloge + 1 }) _) fun _ => ordonnancer_voile

theorem waitClock_voile (clock : UInt32) (s : Suite) :
    waitClock (v.noyau k) clock s = v.issue v.noyau (waitClock k clock s) := by
  unfold waitClock
  simp only [Voile.noyau_pidActif]
  cases k.pidActif with
  | none => rfl
  | some actif =>
      refine image_ite (fun _ => rfl) fun _ => ?_
      exact etat_ordonnancer_voile
        (k := (k.modifie actif fun p => { p with waitIemeInterruptionClock := clock }).suspend actif s) actif _

theorem echecConfirme_voile : echecConfirme (v.noyau k) = v.issue v.noyau (echecConfirme k) :=
  waitClock_voile _ _

end Vie

section Appels

variable {v : Voile} {k : Noyau} {env : Env}

theorem renvoieActif_voile (x : Int) : (v.noyau k).renvoieActif x = v.noyau (k.renvoieActif x) := by
  unfold Noyau.renvoieActif
  simp only [Voile.noyau_pidActif]
  cases k.pidActif with
  | none => rfl
  | some actif => rfl

theorem installerProcessus_voile (pid : Indice) (prio : Int) (args code pageDirectory : Mot) (memoire : Memoire) :
    installerProcessus (v.noyau k) pid prio args code pageDirectory memoire =
      v.noyau (installerProcessus k pid prio args code pageDirectory memoire) := by
  unfold installerProcessus Noyau.modifie
  simp only [Voile.noyau_pidActif]
  cases k.pidActif with
  | none => rfl
  | some actif => rfl

theorem demarrage_voile (pid : Indice) :
    (definirEtat (((v.noyau k).noter (.demarrage k.pidActif pid)).renvoieActif pid.val) pid .activable >>= ordonnancer) =
      v.issue v.noyau
        (definirEtat ((k.noter (.demarrage k.pidActif pid)).renvoieActif pid.val) pid .activable >>= ordonnancer) := by
  have rendu := renvoieActif_voile (v := v) (k := k.noter (.demarrage k.pidActif pid)) pid.val
  exact (congrArg (fun k => definirEtat k pid .activable >>= ordonnancer) rendu).trans (etat_ordonnancer_voile pid _)

theorem start_voile (nom : String) (ssize : UInt32) (prio : Int) (args : Mot) :
    start env (v.noyau k) nom ssize prio args = v.issue v.noyau (start env k nom ssize prio args) := by
  unfold start
  rw [show pidLibre (v.noyau k) = pidLibre k from rfl]
  cases pidLibre k with
  | none => exact congrArg Except.ok (renvoieActif_voile _)
  | some pid =>
      dsimp only
      cases env.programmes nom with
      | none => exact waitClock_voile _ _
      | some code =>
          refine image_ite (fun _ => rfl) fun _ => ?_
          refine image_bind (avecMemoire_voile _) fun r => ?_
          have installe := installerProcessus_voile (v := v) (k := k) pid prio args code r.1 r.2
          exact (congrArg (fun k => definirEtat ((k.noter (.demarrage k.pidActif pid)).renvoieActif pid.val) pid .activable
            >>= ordonnancer) installe).trans (demarrage_voile pid)

theorem kill_voile (actif : Indice) (pid : Int) :
    kill env (v.noyau k) actif pid = v.issue v.noyau (kill env k actif pid) := by
  unfold kill
  cases indice? pid with
  | none => rfl
  | some pr =>
      refine image_ite (fun _ => rfl) fun _ => ?_
      exact terminaisonProcessus_voile (k := k.renvoie actif 0) pr

theorem chercherZombie_voile (l : List Indice) :
    chercherZombie (v.noyau k) l = v.issue id (chercherZombie k l) := by
  induction l with
  | nil => rfl
  | cons fils reste ih => exact image_ite (fun _ => rfl) fun _ => image_ite (fun _ => rfl) fun _ => ih

theorem waitpidFin_voile (actif fils : Indice) (retvalp : Bool) :
    waitpidFin (v.noyau k) actif fils retvalp = v.issue v.noyau (waitpidFin k actif fils retvalp) := by
  refine image_ite (fun _ => rfl) fun _ => ?_
  cases retvalp with
  | true =>
      exact etat_ordonnancer_voile
        (k := (k.noter (.recuperation actif fils (k.table fils).retval)).renvoie actif fils.val) fils .mort
  | false => exact etat_ordonnancer_voile (k := k.renvoie actif fils.val) fils .mort

theorem waitpid_voile (actif : Indice) (pid : Int) (retvalp : Bool) :
    waitpid (v.noyau k) actif pid retvalp = v.issue v.noyau (waitpid k actif pid retvalp) := by
  refine image_ite (fun _ => rfl) fun _ => image_ite (fun _ => ?_) fun _ => ?_
  · refine image_bind (chercherZombie_voile _) fun pidFils => ?_
    cases pidFils with
    | some fils => exact waitpidFin_voile actif fils retvalp
    | none =>
        exact etat_ordonnancer_voile (k := (k.modifie actif fun p => { p with attendFils := .nImporteLequel }).suspend actif
          (.waitpidAttente retvalp)) actif .bloqueSurAttenteDUnFils
  · cases indice? pid with
    | none => rfl
    | some fils =>
        refine image_ite (fun _ => rfl) fun _ => image_ite (fun _ => rfl) fun _ => image_ite (fun _ => ?_) fun _ => ?_
        · exact etat_ordonnancer_voile
            (k := (k.modifie actif fun p => { p with attendFils := .ofPid (k.table fils).pid }).suspend actif
              (.waitpidAttenteFils fils retvalp)) actif .bloqueSurAttenteDUnFils
        · exact waitpidFin_voile actif fils retvalp

theorem waitpidReprise_voile (actif : Indice) (retvalp : Bool) :
    waitpidReprise (v.noyau k) actif retvalp = v.issue v.noyau (waitpidReprise k actif retvalp) := by
  refine image_ite (fun _ => rfl) fun _ => ?_
  simp only [Voile.noyau_table]
  cases (k.table actif).attendFils with
  | fils fils => exact waitpidFin_voile (k := k.modifie actif fun p => { p with attendFils := .aucun }) actif fils retvalp
  | aucun => rfl
  | nImporteLequel => rfl

theorem waitpidRepriseFils_voile (actif fils : Indice) (retvalp : Bool) :
    waitpidRepriseFils (v.noyau k) actif fils retvalp = v.issue v.noyau (waitpidRepriseFils k actif fils retvalp) := by
  refine image_ite (fun _ => rfl) fun _ => ?_
  exact waitpidFin_voile (k := k.modifie actif fun p => { p with attendFils := .aucun }) actif fils retvalp

theorem replacerActivable_voile (pr : Indice) :
    replacerActivable (v.noyau k) pr = v.issue v.noyau (replacerActivable k pr) := by
  refine image_ite (fun _ => ?_) fun _ => rfl
  refine image_bind (queueDel_voile ..) fun f => ?_
  exact image_bind (queueAdd_voile ..) fun _ => rfl

theorem cederAuPlusPrioritaire_voile (actif : Indice) :
    cederAuPlusPrioritaire (v.noyau k) actif = v.issue v.noyau (cederAuPlusPrioritaire k actif) := by
  unfold cederAuPlusPrioritaire
  simp only [Voile.noyau_activables]
  cases k.activables.getLast? with
  | none => rfl
  | some premier => exact image_ite (fun _ => ordonnancer_voile) fun _ => rfl

theorem chprio_voile (actif : Indice) (pid newprio : Int) :
    chprio (v.noyau k) actif pid newprio = v.issue v.noyau (chprio k actif pid newprio) := by
  unfold chprio
  cases indice? pid with
  | none => rfl
  | some pr =>
      refine image_ite (fun _ => rfl) fun _ => image_ite (fun _ => rfl) fun _ => ?_
      refine image_bind (replacerActivable_voile (k := k.modifie pr fun p => { p with prio := newprio }) pr) fun k₁ => ?_
      exact cederAuPlusPrioritaire_voile (k := k₁.renvoie actif (k.table pr).prio) actif

end Appels

section Files

variable {v : Voile} {k : Noyau} {env : Env}

private theorem libre_voile : ((List.finRange nbQueue).find? fun f => ¬ ((v.noyau k).files f).statut) =
    (List.finRange nbQueue).find? fun f => ¬ (k.files f).statut := rfl

theorem pcreate_voile (actif : Indice) (count : Int) :
    pcreate (v.noyau k) actif count = v.issue v.noyau (pcreate k actif count) := by
  refine image_ite (fun _ => rfl) fun _ => ?_
  rw [libre_voile]
  cases (List.finRange nbQueue).find? fun f => ¬ (k.files f).statut with
  | none => rfl
  | some f => rfl

theorem reveillerEmetteur_voile (actif : Indice) (fid : IndiceFile) :
    reveillerEmetteur (v.noyau k) actif fid = v.issue v.noyau (reveillerEmetteur k actif fid) := by
  refine image_ite (fun _ => ?_) fun _ => rfl
  simp only [Voile.noyau_files]
  cases (k.files fid).listeProcBloqueEnvoi.getLast? with
  | none => rfl
  | some q =>
      refine image_bind (definirEtat_voile (k := (k.modifieFile fid fun f =>
        { f with listeProcBloqueEnvoi := f.listeProcBloqueEnvoi.dropLast }).suspend actif .preceiveFin) q.pid _) fun k => ?_
      exact ordonnancer_voile (k := k.modifieFile fid fun f => { f with nbprocEnvoi := f.nbprocEnvoi - 1 })

theorem preceiveBoucle_voile (actif : Indice) (fid : IndiceFile) :
    preceiveBoucle (v.noyau k) actif fid = v.issue v.noyau (preceiveBoucle k actif fid) := by
  refine image_ite (fun _ => ?_) fun _ => image_ite (fun _ => ?_) fun _ => rfl
  · refine image_bind (definirEtat_voile (k := (k.modifieFile fid fun f =>
      { f with
        listeProcBloqueReception := Library.PriorityList.place ProcessBloque.prio (noeud k actif) f.listeProcBloqueReception }).suspend
          actif (.preceiveAttente fid)) actif _) fun k => ?_
    exact ordonnancer_voile (k := k.modifieFile fid fun f => { f with nbprocRecep := f.nbprocRecep + 1 })
  · simp only [Voile.noyau_files]
    cases (k.files fid).file with
    | nil => rfl
    | cons message reste =>
        exact reveillerEmetteur_voile (k := (k.modifieFile fid fun f => { f with file := reste, nbelem := f.nbelem - 1 }).noter
          (.reception actif fid message)) actif fid

theorem fileOuverte_voile (fid : Int) : fileOuverte? (v.noyau k) fid = fileOuverte? k fid := rfl

theorem preceive_voile (actif : Indice) (fid : Int) :
    preceive (v.noyau k) actif fid = v.issue v.noyau (preceive k actif fid) := by
  unfold preceive
  rw [fileOuverte_voile]
  cases fileOuverte? k fid with
  | none => rfl
  | some f => exact preceiveBoucle_voile actif f

theorem reveillerRecepteur_voile (fid : IndiceFile) :
    reveillerRecepteur (v.noyau k) fid = v.issue v.noyau (reveillerRecepteur k fid) := by
  refine image_ite (fun _ => ?_) fun _ => rfl
  simp only [Voile.noyau_files]
  cases (k.files fid).listeProcBloqueReception.getLast? with
  | none => rfl
  | some q =>
      exact image_bind (definirEtat_voile (k := k.modifieFile fid fun f =>
        { f with listeProcBloqueReception := f.listeProcBloqueReception.dropLast }) q.pid _) fun k => rfl

theorem psendBoucle_voile (actif : Indice) (fid : IndiceFile) (message : Int) :
    psendBoucle (v.noyau k) actif fid message = v.issue v.noyau (psendBoucle k actif fid message) := by
  refine image_ite (fun _ => ?_) fun _ => image_ite (fun _ => ?_) fun _ => rfl
  · refine image_bind (definirEtat_voile (k := (k.modifieFile fid fun f =>
      { f with
        listeProcBloqueEnvoi := Library.PriorityList.place ProcessBloque.prio (noeud k actif) f.listeProcBloqueEnvoi }).suspend
          actif (.psendAttente fid message)) actif _) fun k => ?_
    exact ordonnancer_voile (k := k.modifieFile fid fun f => { f with nbprocEnvoi := f.nbprocEnvoi + 1 })
  · exact image_bind (reveillerRecepteur_voile (k := (k.modifieFile fid fun f =>
      { f with file := f.file ++ [message], nbelem := f.nbelem + 1 }).noter (.envoi actif fid message)) fid) fun k => rfl

theorem psend_voile (actif : Indice) (fid message : Int) :
    psend (v.noyau k) actif fid message = v.issue v.noyau (psend k actif fid message) := by
  unfold psend
  rw [fileOuverte_voile]
  cases fileOuverte? k fid with
  | none => rfl
  | some f => exact psendBoucle_voile actif f message

theorem psendReprise_voile (actif : Indice) (fid : IndiceFile) (message : Int) :
    psendReprise (v.noyau k) actif fid message = v.issue v.noyau (psendReprise k actif fid message) :=
  image_ite (fun _ => rfl) fun _ => psendBoucle_voile actif fid message

theorem libererBloques_voile (bloque : EtatProcessus) (retirer : Noyau → Noyau)
    (retire : ∀ k, retirer (v.noyau k) = v.noyau (retirer k)) (l : List ProcessBloque) :
    libererBloques bloque retirer l (v.noyau k) = v.issue v.noyau (libererBloques bloque retirer l k) := by
  induction l generalizing k with
  | nil => rfl
  | cons proc reste ih =>
      refine image_ite (fun _ => ?_) fun _ => rfl
      refine image_bind (definirEtat_voile proc.pid .activable) fun k => ?_
      exact (congrArg (libererBloques bloque retirer reste) (retire (k.modifie proc.pid fun p => { p with valresetfile := 1 }))).trans ih

theorem reinitialiser_voile (fid : IndiceFile) :
    reinitialiser (v.noyau k) fid = v.issue v.noyau (reinitialiser k fid) := by
  refine image_bind (libererBloques_voile
    (k := (k.modifieFile fid fun f => { f with file := [], nbelem := 0 }).noter (.rejet fid (k.files fid).file)) _
      (retirerReception fid) (fun _ => rfl) _) fun k => ?_
  exact image_bind (libererBloques_voile _ (retirerEnvoi fid) (fun _ => rfl) _) fun _ => rfl

theorem gardePreset_voile (fid : Int) :
    gardePreset env (v.noyau k) fid = v.issue id (gardePreset env k fid) := by
  refine image_ite (fun _ => ?_) fun _ => rfl
  cases env.statutApresTable with
  | true => rfl
  | false => rfl

theorem preset_voile (actif : Indice) (fid : Int) :
    preset env (v.noyau k) actif fid = v.issue v.noyau (preset env k actif fid) := by
  refine image_bind (gardePreset_voile fid) fun f => ?_
  cases f with
  | none => rfl
  | some f => exact image_bind (reinitialiser_voile f) fun _ => rfl

theorem pdelete_voile (actif : Indice) (fid : Int) :
    pdelete env (v.noyau k) actif fid = v.issue v.noyau (pdelete env k actif fid) := by
  refine image_bind (gardePreset_voile fid) fun f => ?_
  cases f with
  | none => rfl
  | some f => exact image_bind (reinitialiser_voile f) fun _ => rfl

theorem pcount_voile (actif : Indice) (fid : Int) (count : Bool) :
    pcount (v.noyau k) actif fid count = v.issue v.noyau (pcount k actif fid count) := by
  refine image_ite (fun _ => rfl) fun _ => image_ite (fun _ => ?_) fun _ => rfl
  cases indiceFile? fid with
  | none => rfl
  | some f => rfl

end Files

section Consoles

variable {v : Voile} {k : Noyau} {env : Env}

theorem sortirConsRead_voile :
    sortirConsRead (v.noyau k) = v.issue (fun r => (r.1, v.noyau r.2)) (sortirConsRead k) := by
  unfold sortirConsRead
  refine image_bind (avecMemoire_voile _) fun r => ?_
  match r with
  | (_, none) => rfl
  | (_, some (.processus p)) => rfl
  | (_, some .tete) => rfl

theorem reveillerLecteur_voile (premier : Option Indice) :
    reveillerLecteur (v.noyau k) premier = v.issue v.noyau (reveillerLecteur k premier) := by
  cases premier with
  | none => rfl
  | some p => exact definirEtat_voile p .activable

theorem entrerConsRead_voile (i : Indice) : entrerConsRead (v.noyau k) i = v.issue id (entrerConsRead k i) :=
  avecMemoire_voile _

theorem consRead_voile (actif : Indice) (length : UInt32) :
    consRead (v.noyau k) actif length = v.issue v.noyau (consRead k actif length) := by
  refine image_ite (fun _ => ?_) fun _ => rfl
  refine image_bind (entrerConsRead_voile actif) fun attente => ?_
  exact etat_ordonnancer_voile (k := { k with console := { k.console with indexFinLigne := 0, attente := attente } }.suspend actif
    (.consReadAttente length)) actif .bloqueSurEntreeSortie

theorem consReadReprise_voile (actif : Indice) (length : UInt32) :
    consReadReprise (v.noyau k) actif length = v.issue v.noyau (consReadReprise k actif length) :=
  image_ite (fun _ => rfl) fun _ => rfl

def Voile.Neutre (v : Voile) (k : Noyau) (c : Int8) : Prop :=
  32 ≤ c ∨ c = 13 ∨ nbrMaxBuff ≤ k.console.index ∨ (v.echo = 1 ↔ k.console.echo = 1)

theorem keyboardData_voile {c : Int8} (neutre : v.Neutre k c) :
    keyboardData (v.noyau k) c = v.issue v.noyau (keyboardData k c) := by
  unfold keyboardData
  refine image_ite (fun _ => ?_) fun autre => image_ite (fun _ => ?_) fun _ => image_ite (fun place => ?_) fun _ => rfl
  · refine image_bind sortirConsRead_voile fun r => ?_
    exact image_bind (reveillerLecteur_voile r.1) fun _ => rfl
  · exact image_ite (fun _ => rfl) fun _ => rfl
  · have range : (if v.echo = 1 ∧ c < 32 then c + 64 else c) = if k.console.echo = 1 ∧ c < 32 then c + 64 else c := by
      rcases neutre with grand | entree | plein | meme
      · have pasPetit : ¬ c < 32 := Int8.not_lt.mpr grand
        simp only [pasPetit, and_false]
      · exact absurd entree autre
      · exact absurd place (Nat.not_lt.mpr plein)
      · simp only [meme]
    exact congrArg (fun d => Except.ok { v.noyau k with
      console := { (v.noyau k).console with
        tampon := fun j => if j = k.console.index then d else k.console.tampon j
        index := k.console.index + 1 } }) range

end Consoles

section Pas

variable {v : Voile} {k : Noyau} {env : Env}

theorem appeler_voile (actif : Indice) {a : Appel} (hors : ∀ on, a ≠ .consEcho on) :
    appeler env (v.noyau k) actif a = v.issue v.noyau (appeler env k actif a) := by
  cases a with
  | start nom ssize prio args => exact start_voile nom ssize prio args
  | exit retval =>
      exact terminaisonProcessus_voile (k := ((k.modifie actif fun p => { p with retval := retval }).noter
        (.fin actif retval)).suspend actif .exitFin) actif
  | finCode retval =>
      exact terminaisonProcessus_voile (k := ((k.modifie actif fun p => { p with retval := retval }).noter
        (.fin actif retval)).suspend actif .termine) actif
  | kill pid => exact kill_voile actif pid
  | waitpid pid retvalp => exact waitpid_voile actif pid retvalp
  | chprio pid newprio => exact chprio_voile actif pid newprio
  | getprio pid => rfl
  | waitClock clock => exact waitClock_voile clock _
  | pcreate count => exact pcreate_voile actif count
  | psend fid message => exact psend_voile actif fid message
  | preceive fid => exact preceive_voile actif fid
  | preset fid => exact preset_voile actif fid
  | pdelete fid => exact pdelete_voile actif fid
  | pcount fid count => exact pcount_voile actif fid count
  | consRead length => exact consRead_voile actif length
  | consEcho on => exact absurd rfl (hors on)

theorem reprendre_voile (actif : Indice) :
    reprendre env (v.noyau k) actif = v.issue v.noyau (reprendre env k actif) := by
  unfold reprendre
  simp only [Voile.noyau_table]
  cases (k.table actif).suite with
  | execution => rfl
  | debut => rfl
  | retour x => rfl
  | finConfirme => exact terminaisonProcessus_voile (k := k.suspend actif .termine) actif
  | exitFin => rfl
  | termine => rfl
  | waitpidAttente retvalp => exact waitpidReprise_voile actif retvalp
  | waitpidAttenteFils fils retvalp => exact waitpidRepriseFils_voile actif fils retvalp
  | preceiveAttente fid => exact preceiveBoucle_voile actif fid
  | preceiveFin => rfl
  | psendAttente fid message => exact psendReprise_voile actif fid message
  | consReadAttente length => exact consReadReprise_voile actif length

def horsEcho : Evenement → Prop
  | .appel (.consEcho _) => False
  | _ => True

/-- What a step needs to be the same under the veil. -/
def Voile.Transparent (v : Voile) (k : Noyau) : Evenement → Prop
  | .touche c => v.Neutre k c
  | _ => True

theorem executer_voile {e : Evenement} (hors : horsEcho e) (transparent : v.Transparent k e) :
    executer env (v.noyau k) e = v.issue v.noyau (executer env k e) := by
  unfold executer
  cases e with
  | tic => exact ticPIT_voile
  | touche c => exact keyboardData_voile transparent
  | appel a =>
      simp only [Voile.noyau_pidActif]
      cases k.pidActif with
      | none =>
          cases a with
          | start nom ssize prio args => exact start_voile nom ssize prio args
          | _ => rfl
      | some actif =>
          refine appeler_voile (k := k.noter (.appel actif a)) actif ?_
          rintro on rfl
          exact hors
  | reprise =>
      simp only [Voile.noyau_pidActif]
      cases k.pidActif with
      | none => rfl
      | some actif => exact reprendre_voile actif

theorem pas_voile {e : Evenement} (hors : horsEcho e) (transparent : v.Transparent k e) :
    pas env (v.noyau k) e = v.issue v.noyau (pas env k e) := by
  unfold pas
  rw [executer_voile hors transparent]
  cases executer env k e with
  | ok k' => rfl
  | error s =>
      cases s with
      | faute f => rfl
      | confirme k' => exact echecConfirme_voile

end Pas

end ProjetSysteme.Invariant
