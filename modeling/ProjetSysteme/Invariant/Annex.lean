/- Invariant/Annex
   digest: The data that only a few primitives touch: memory, directories, keyboard buffer and suspended calls. -/

import ProjetSysteme.Kernel.Step
import ProjetSysteme.Library.Outcome

set_option autoImplicit false
set_option relaxedAutoImplicit false

namespace ProjetSysteme.Invariant

open Kernel Library.Outcome

/-- The keyboard buffer with its two lengths, and the processes that wait for a line. -/
def saisieDe (c : Console) : Nat × Nat × (Nat → Int8) × Library.Ring.Links MaillonConsRead :=
  (c.index, c.indexFinLigne, c.tampon, c.attente)

def HorsConsole : Suite → Prop
  | .consReadAttente _ => False
  | _ => True

def estMarque : Fait → Bool
  | .lecture .. | .demarrage .. | .terminaison _ => true
  | _ => false

def marques (k : Noyau) : List Fait := k.journal.filter estMarque

theorem marques_noter {k : Noyau} {f : Fait} (marque : estMarque f = true) :
    marques (k.noter f) = f :: marques k := by
  simp [marques, Noyau.noter, marque]

/-- The two states agree on the memory, on the keyboard, and on the suspended call of
every process but `sauf`, which has not entered cons_read. -/
structure MemeAnnexe (sauf : Option Indice) (k k' : Noyau) : Prop where
  memoire : k'.memoire = k.memoire
  saisie : saisieDe k'.console = saisieDe k.console
  marques : marques k' = marques k
  pageDirectory : ∀ j, (k'.table j).pageDirectory = (k.table j).pageDirectory
  suite : ∀ j, (k'.table j).suite = (k.table j).suite ∨
    sauf = some j ∧ HorsConsole (k'.table j).suite

namespace MemeAnnexe

variable {sauf : Option Indice} {k k' k'' : Noyau}

theorem refl (sauf : Option Indice) (k : Noyau) : MemeAnnexe sauf k k :=
  ⟨rfl, rfl, rfl, fun _ => rfl, fun _ => .inl rfl⟩

theorem trans (un : MemeAnnexe sauf k k') (deux : MemeAnnexe sauf k' k'') : MemeAnnexe sauf k k'' where
  memoire := deux.memoire.trans un.memoire
  saisie := deux.saisie.trans un.saisie
  marques := deux.marques.trans un.marques
  pageDirectory j := (deux.pageDirectory j).trans (un.pageDirectory j)
  suite j := by
    rcases deux.suite j with meme | change
    · rw [meme]
      exact un.suite j
    · exact .inr change

theorem affaiblir (meme : MemeAnnexe none k k') : MemeAnnexe sauf k k' :=
  ⟨meme.memoire, meme.saisie, meme.marques, meme.pageDirectory,
    fun j => (meme.suite j).imp id fun change => by cases change.1⟩

theorem modifie (k : Noyau) (i : Indice) {f : Processus → Processus}
    (pageDirectory : ∀ p, (f p).pageDirectory = p.pageDirectory)
    (suite : ∀ p, (f p).suite = p.suite) : MemeAnnexe sauf k (k.modifie i f) := by
  refine ⟨rfl, rfl, rfl, fun j => ?_, fun j => .inl ?_⟩
  · rw [Noyau.modifie_table]
    split
    · exact pageDirectory _
    · rfl
  · rw [Noyau.modifie_table]
    split
    · exact suite _
    · rfl

theorem suspend (k : Noyau) (i : Indice) {s : Suite} (hors : HorsConsole s) :
    MemeAnnexe (some i) k (k.suspend i s) := by
  refine ⟨rfl, rfl, rfl, fun j => ?_, fun j => ?_⟩
  · rw [Noyau.suspend_table]
  · rw [Noyau.suspend_table]
    by_cases meme : j = i
    · rw [if_pos meme]
      exact .inr ⟨congrArg some meme.symm, hors⟩
    · rw [if_neg meme]
      exact .inl rfl

theorem renvoie (k : Noyau) (i : Indice) (v : Int) : MemeAnnexe (some i) k (k.renvoie i v) :=
  .suspend k i trivial

theorem noter (k : Noyau) {f : Fait} (autre : estMarque f = false) :
    MemeAnnexe sauf k (k.noter f) :=
  ⟨rfl, rfl, by simp [Invariant.marques, Noyau.noter, autre], fun _ => rfl, fun _ => .inl rfl⟩

theorem of_table (memoire : k'.memoire = k.memoire) (saisie : saisieDe k'.console = saisieDe k.console)
    (journal : k'.journal = k.journal) (table : k'.table = k.table) : MemeAnnexe sauf k k' :=
  ⟨memoire, saisie, by rw [Invariant.marques, journal, Invariant.marques], fun _ => by rw [table], fun _ => .inl (by rw [table])⟩

end MemeAnnexe

/-- The computation, when it ends in a state, leaves the data of `MemeAnnexe` as in `k`. -/
def Garde (sauf : Option Indice) (k : Noyau) (r : Resultat) : Prop :=
  Sat r (MemeAnnexe sauf k) fun _ => True

section Garde

variable {sauf : Option Indice} {k k' : Noyau}

theorem Garde.error (s : Arret) : Garde sauf k (.error s) := trivial

theorem Garde.ok (meme : MemeAnnexe sauf k k') : Garde sauf k (.ok k') := meme

theorem Garde.refl (k : Noyau) : Garde sauf k (.ok k) := MemeAnnexe.refl sauf k

theorem Garde.apres {r : Resultat} (meme : MemeAnnexe sauf k k') (garde : Garde sauf k' r) :
    Garde sauf k r :=
  Sat.mono garde (fun _ => meme.trans) fun _ => id

theorem Garde.bind {r : Resultat} {f : Noyau → Resultat} (garde : Garde sauf k r)
    (suite : ∀ k', Garde sauf k' (f k')) : Garde sauf k (r >>= f) :=
  Sat.bind garde fun k' meme => Garde.apres meme (suite k')

theorem Garde.lire {α : Type} {r : Except Arret α} {f : α → Resultat}
    (suite : ∀ a, Garde sauf k (f a)) : Garde sauf k (r >>= f) := by
  cases r with
  | ok a => exact suite a
  | error s => trivial

theorem Garde.affaiblir {r : Resultat} (garde : Garde none k r) : Garde sauf k r :=
  Sat.mono garde (fun _ => .affaiblir) fun _ => id

end Garde

section Etats

variable (k : Noyau) (pr : Indice)

theorem quitterActivables_garde (e : EtatProcessus) : Garde none k (quitterActivables k pr e) := by
  unfold quitterActivables
  split
  · exact .lire fun f => .of_table rfl rfl rfl rfl
  · exact .refl k

theorem quitterEndormis_garde : Garde none k (quitterEndormis k pr) := by
  unfold quitterEndormis
  split
  · exact .lire fun f => .of_table rfl rfl rfl rfl
  · exact .refl k

theorem retirerDuPere_garde : Garde none k (retirerDuPere k pr) := by
  unfold retirerDuPere
  split
  · exact .refl k
  · split
    · exact .refl k
    · exact .lire fun f => .modifie k _ (fun _ => rfl) fun _ => rfl

private structure RecursionGarde (n : Nat) : Prop where
  definir : ∀ k pr e, Garde none k (definirEtatProcessus n k pr e)
  cas : ∀ k pr e, Garde none k (casEtat n k pr e)
  boucle : ∀ d k pr f, Sat (boucleFils n d k pr f) (fun r => MemeAnnexe none k r.2) fun _ => True
  corps : ∀ d k pr f, Sat (corpsFils n d k pr f) (fun r => MemeAnnexe none k r.2) fun _ => True

private theorem recursion_garde (n : Nat) : RecursionGarde n := by
  induction n with
  | zero => exact ⟨fun _ _ _ => trivial, fun _ _ _ => trivial, fun _ _ _ _ => trivial,
      fun _ _ _ _ => trivial⟩
  | succ n ih =>
      refine ⟨fun k pr e => ?_, fun k pr e => ?_, fun d k pr f => ?_, fun d k pr fils => ?_⟩
      · rw [definirEtatProcessus]
        split
        · exact .error _
        · split
          · exact .refl k
          · refine (quitterActivables_garde k pr e).bind fun k => ?_
            refine (quitterEndormis_garde k pr).bind fun k => (ih.cas k pr e).bind fun k => ?_
            exact .modifie k pr (fun _ => rfl) fun _ => rfl
      · cases e with
        | activable => exact .lire fun f => .of_table rfl rfl rfl rfl
        | actif =>
            rw [casEtat, prendreLaMain]
            split
            · exact MemeAnnexe.of_table rfl rfl rfl rfl
            · exact .error _
        | mort =>
            refine Sat.bind (ih.boucle true k pr _) fun r meme => ?_
            refine Garde.apres (meme.trans ?_) (retirerDuPere_garde _ pr)
            exact .modifie _ pr (fun _ => rfl) fun _ => rfl
        | zombie => exact Sat.bind (ih.boucle false k pr _) fun r meme => meme
        | bloqueSurSemaphore => exact .lire fun f => .of_table rfl rfl rfl rfl
        | _ => exact Garde.refl k
      · cases f with
        | none => exact MemeAnnexe.refl none k
        | some fils => exact Sat.bind (ih.corps d k pr fils) fun r meme => meme
      · rw [corpsFils]
        set k₁ := if d then k.modifie fils fun p => { p with pere := none } else k with defk₁
        have detache : MemeAnnexe none k k₁ := by
          rw [defk₁]
          split
          · exact .modifie k fils (fun _ => rfl) fun _ => rfl
          · exact .refl none k
        split
        · cases suivantFils k₁ pr fils with
          | error s => trivial
          | ok filsSuiv =>
              cases filsSuiv with
              | none =>
                  change Sat (definirEtatProcessus n k₁ fils .mort >>= fun k₂ => .ok ([], k₂)) _ _
                  exact Sat.bind (ih.definir k₁ fils .mort) fun k₂ meme => detache.trans meme
              | some g =>
                  change Sat (definirEtatProcessus n k₁ fils .mort >>= fun k₂ => corpsFils n d k₂ pr fils) _ _
                  refine Sat.bind (ih.definir k₁ fils .mort) fun k₂ meme => ?_
                  exact (ih.corps d k₂ pr fils).mono (fun r => (detache.trans meme).trans) fun _ => id
        · cases suivantFils k₁ pr fils with
          | error s => trivial
          | ok suivant => exact (ih.boucle d k₁ pr suivant).mono (fun r => detache.trans) fun _ => id

theorem definirEtat_garde (e : EtatProcessus) : Garde none k (definirEtat k pr e) :=
  (recursion_garde limite).definir k pr e

theorem ordonnancer_garde : Garde none k (ordonnancer k) := by
  unfold ordonnancer
  split
  · exact .refl k
  · next pr _ =>
      split
      · exact .refl k
      · refine (Garde.apres ?_ (definirEtat_garde _ pr .actif)).bind fun k₁ => ?_
        · exact .of_table rfl rfl rfl rfl
        · split
          · exact .error _
          · refine Garde.bind ?_ fun k₂ => ?_
            · unfold cederLaMain
              split
              · exact .refl _
              · split
                · exact definirEtat_garde _ _ _
                · exact .refl _
            · split
              · exact .error _
              · exact .refl _

theorem reveillerPere_garde (pere : Indice) : Garde none k (reveillerPere k pere pr) := by
  unfold reveillerPere
  split
  · refine .apres ?_ (definirEtat_garde _ pere .activable)
    split
    · exact .modifie k pere (fun _ => rfl) fun _ => rfl
    · exact .refl none k
  · exact .refl k

theorem finirProcessus_garde : Garde none k (finirProcessus k pr) := by
  unfold finirProcessus
  split
  · exact definirEtat_garde k pr .mort
  · exact (reveillerPere_garde k pr _).bind fun k => definirEtat_garde k pr .zombie

theorem parcourEndormis_garde (n : Nat) : Garde none k (parcourEndormis n k) := by
  induction n generalizing k with
  | zero =>
      unfold parcourEndormis
      split
      · exact .refl k
      · exact .error _
  | succ n ih =>
      unfold parcourEndormis
      split
      · exact .refl k
      · exact (definirEtat_garde k _ .activable).bind fun k => ih k

theorem ticPIT_garde : Garde none k (ticPIT k) := by
  unfold ticPIT
  refine @Garde.apres _ k { k with horloge := k.horloge + 1 } _ (.of_table rfl rfl rfl rfl) ?_
  exact (parcourEndormis_garde _ _).bind fun k => ordonnancer_garde k

theorem libererBloques_garde (bloque : EtatProcessus) (retirer : Noyau → Noyau)
    (meme : ∀ k, MemeAnnexe none k (retirer k)) (l : List ProcessBloque) :
    Garde none k (libererBloques bloque retirer l k) := by
  induction l generalizing k with
  | nil => exact .refl k
  | cons q reste ih =>
      rw [libererBloques]
      split
      · refine (definirEtat_garde k q.pid .activable).bind fun k => .apres ?_ (ih _)
        refine MemeAnnexe.trans ?_ (meme _)
        exact .modifie k q.pid (fun _ => rfl) fun _ => rfl
      · exact .error _

theorem reinitialiser_garde (fid : IndiceFile) : Garde none k (reinitialiser k fid) := by
  have files : ∀ k (f : FileMessage → FileMessage), MemeAnnexe none k (k.modifieFile fid f) :=
    fun _ _ => .of_table rfl rfl rfl rfl
  unfold reinitialiser
  dsimp only
  refine .apres ?_ ((libererBloques_garde _ _ _ (fun k => files k _) _).bind fun k => ?_)
  · exact (files k _).trans (.noter _ rfl)
  · exact (libererBloques_garde k _ _ (fun k => files k _) _).bind fun k => files k _

end Etats

section Appels

variable (k : Noyau) (actif : Indice)

theorem etat_ordonnancer_garde (i : Indice) (e : EtatProcessus) :
    Garde none k (definirEtat k i e >>= ordonnancer) :=
  (definirEtat_garde k i e).bind ordonnancer_garde

theorem waitClock_garde (clock : UInt32) {s : Suite} (hors : HorsConsole s) :
    Garde k.pidActif k (waitClock k clock s) := by
  unfold waitClock
  split
  · exact .error _
  · next a pidActif =>
      rw [pidActif]
      split
      · exact .error _
      · refine Garde.apres ?_ (etat_ordonnancer_garde _ a .bloqueSurSemaphore).affaiblir
        refine MemeAnnexe.trans ?_ (.suspend _ a hors)
        exact .modifie k a (fun _ => rfl) fun _ => rfl

theorem waitpidFin_garde (fils : Indice) (retvalp : Bool) :
    Garde (some actif) k (waitpidFin k actif fils retvalp) := by
  unfold waitpidFin
  split
  · exact .error _
  · refine Garde.apres ?_ (etat_ordonnancer_garde _ fils .mort).affaiblir
    refine MemeAnnexe.trans ?_ (.renvoie _ actif _)
    split
    · exact .noter k rfl
    · exact .refl _ k

theorem attendre_garde (attend : AttendFils) {s : Suite} (hors : HorsConsole s) : Garde (some actif) k
    (definirEtat ((k.modifie actif fun p => { p with attendFils := attend }).suspend actif s) actif
      .bloqueSurAttenteDUnFils >>= ordonnancer) := by
  refine Garde.apres ?_ (etat_ordonnancer_garde _ actif _).affaiblir
  refine MemeAnnexe.trans ?_ (.suspend _ actif hors)
  exact .modifie k actif (fun _ => rfl) fun _ => rfl

theorem waitpid_garde (pid : Int) (retvalp : Bool) :
    Garde (some actif) k (waitpid k actif pid retvalp) := by
  unfold waitpid
  split
  · exact .ok (.renvoie k actif _)
  · split
    · refine .lire fun pidFils => ?_
      cases pidFils with
      | some fils => exact waitpidFin_garde k actif fils retvalp
      | none => exact attendre_garde k actif _ trivial
    · split
      · exact .ok (.renvoie k actif _)
      · split
        · exact .ok (.renvoie k actif _)
        · split
          · exact .error _
          · split
            · exact attendre_garde k actif _ trivial
            · exact waitpidFin_garde k actif _ retvalp

theorem waitpidReprise_garde (retvalp : Bool) :
    Garde (some actif) k (waitpidReprise k actif retvalp) := by
  unfold waitpidReprise
  split
  · exact .error _
  · dsimp only
    split
    · refine .apres ?_ (waitpidFin_garde _ actif _ retvalp)
      exact .modifie k actif (fun _ => rfl) fun _ => rfl
    · exact .error _

theorem waitpidRepriseFils_garde (fils : Indice) (retvalp : Bool) :
    Garde (some actif) k (waitpidRepriseFils k actif fils retvalp) := by
  unfold waitpidRepriseFils
  split
  · exact .error _
  · refine .apres ?_ (waitpidFin_garde _ actif _ retvalp)
    exact .modifie k actif (fun _ => rfl) fun _ => rfl

theorem replacerActivable_garde (pr : Indice) : Garde none k (replacerActivable k pr) := by
  unfold replacerActivable
  split
  · refine .lire fun f => ?_
    cases queueAdd k.prioDe pr f with
    | ok f => exact MemeAnnexe.of_table rfl rfl rfl rfl
    | error s => trivial
  · exact .refl k

theorem chprio_garde (pid newprio : Int) : Garde (some actif) k (chprio k actif pid newprio) := by
  unfold chprio
  split
  · exact .ok (.renvoie k actif _)
  · next pr _ =>
      split
      · exact .ok (.renvoie k actif _)
      · split
        · exact .ok (.renvoie k actif _)
        · have place : Garde (some actif) k
              (replacerActivable (k.modifie pr fun p => { p with prio := newprio }) pr) := by
            refine .apres ?_ (replacerActivable_garde _ pr).affaiblir
            exact .modifie k pr (fun _ => rfl) fun _ => rfl
          refine place.bind fun k₁ => .apres (.renvoie k₁ actif (k.table pr).prio) ?_
          unfold cederAuPlusPrioritaire
          split
          · exact .refl _
          · split
            · exact (ordonnancer_garde _).affaiblir
            · exact .refl _

theorem finAppelFile_annexe (v : Int) : MemeAnnexe (some actif) k (finAppelFile k actif v) := by
  refine MemeAnnexe.trans ?_ (.renvoie _ actif v)
  exact .modifie k actif (fun _ => rfl) fun _ => rfl

theorem modifieFile_annexe {sauf : Option Indice} (fid : IndiceFile)
    (f : FileMessage → FileMessage) : MemeAnnexe sauf k (k.modifieFile fid f) :=
  .of_table rfl rfl rfl rfl

theorem noterFile_annexe {sauf : Option Indice} (fid : IndiceFile)
    (f : FileMessage → FileMessage) {x : Fait} (autre : estMarque x = false) :
    MemeAnnexe sauf k ((k.modifieFile fid f).noter x) :=
  (modifieFile_annexe k fid f).trans (.noter _ autre)

theorem compterFile_annexe {sauf : Option Indice} (fid : IndiceFile)
    (f : FileMessage → FileMessage) (n : Int) {x : Fait} (autre : estMarque x = false) :
    MemeAnnexe sauf k (({ k.modifieFile fid f with nbFiles := n } : Noyau).noter x) := by
  refine MemeAnnexe.trans ?_ (.noter _ autre)
  exact .of_table rfl rfl rfl rfl

theorem bloquerFile_garde (fid : IndiceFile) (f g : FileMessage → FileMessage) {s : Suite}
    (hors : HorsConsole s) (e : EtatProcessus) : Garde (some actif) k
      (definirEtat ((k.modifieFile fid f).suspend actif s) actif e >>= fun k =>
        ordonnancer (k.modifieFile fid g)) := by
  refine .apres ((modifieFile_annexe k fid f).trans (.suspend _ actif hors)) ?_
  refine (definirEtat_garde _ actif e).affaiblir.bind fun k => ?_
  exact .apres (modifieFile_annexe k fid g) (ordonnancer_garde _).affaiblir

theorem reveillerEmetteur_garde (fid : IndiceFile) :
    Garde (some actif) k (reveillerEmetteur k actif fid) := by
  unfold reveillerEmetteur
  split
  · split
    · exact .ok (finAppelFile_annexe _ actif 0)
    · next q _ =>
        dsimp only
        refine .apres ?_ ((definirEtat_garde _ q.pid .activable).affaiblir.bind fun k => ?_)
        · exact (modifieFile_annexe k fid _).trans (.suspend _ actif trivial)
        · exact .apres (modifieFile_annexe k fid _) (ordonnancer_garde _).affaiblir
  · exact .ok (finAppelFile_annexe _ actif 0)

theorem reveillerRecepteur_garde (fid : IndiceFile) : Garde none k (reveillerRecepteur k fid) := by
  unfold reveillerRecepteur
  split
  · split
    · exact .refl _
    · next q _ =>
        dsimp only
        refine .apres ?_ ((definirEtat_garde _ q.pid .activable).bind fun k => ?_)
        · exact modifieFile_annexe k fid _
        · exact .ok (modifieFile_annexe k fid _)
  · exact .refl _

theorem preceiveBoucle_garde (fid : IndiceFile) :
    Garde (some actif) k (preceiveBoucle k actif fid) := by
  unfold preceiveBoucle
  split
  · exact bloquerFile_garde k actif fid _ _ (s := .preceiveAttente fid) trivial _
  · split
    · split
      · exact .error _
      · exact .apres (noterFile_annexe k fid _ rfl) (reveillerEmetteur_garde _ actif fid)
    · exact .ok (finAppelFile_annexe k actif _)

theorem psendBoucle_garde (fid : IndiceFile) (message : Int) :
    Garde (some actif) k (psendBoucle k actif fid message) := by
  unfold psendBoucle
  split
  · exact bloquerFile_garde k actif fid _ _ (s := .psendAttente fid message) trivial _
  · split
    · dsimp only
      refine .apres ?_ ((reveillerRecepteur_garde _ fid).affaiblir.bind fun k => ?_)
      · exact noterFile_annexe k fid _ rfl
      · exact .ok (finAppelFile_annexe k actif 0)
    · exact .ok (finAppelFile_annexe k actif _)

theorem psendReprise_garde (fid : IndiceFile) (message : Int) :
    Garde (some actif) k (psendReprise k actif fid message) := by
  unfold psendReprise
  split
  · exact .ok (.renvoie k actif _)
  · exact psendBoucle_garde k actif fid message

theorem pcreate_garde (count : Int) : Garde (some actif) k (pcreate k actif count) := by
  unfold pcreate
  split
  · exact .ok (.renvoie k actif _)
  · split
    · exact .error _
    · refine .ok (MemeAnnexe.trans ?_ (.renvoie _ actif _))
      exact compterFile_annexe k _ _ _ rfl

theorem preset_garde (env : Env) (fid : Int) : Garde (some actif) k (preset env k actif fid) := by
  refine .lire fun r => ?_
  cases r with
  | none => exact .ok (.renvoie k actif _)
  | some f => exact (reinitialiser_garde k f).affaiblir.bind fun k => .ok (.renvoie k actif _)

theorem pdelete_garde (env : Env) (fid : Int) : Garde (some actif) k (pdelete env k actif fid) := by
  refine .lire fun r => ?_
  cases r with
  | none => exact .ok (.renvoie k actif _)
  | some f =>
      refine (reinitialiser_garde k f).affaiblir.bind fun k => .ok ?_
      exact MemeAnnexe.trans (compterFile_annexe k f _ _ rfl) (.renvoie _ actif _)

theorem pcount_garde (fid : Int) (count : Bool) : Garde (some actif) k (pcount k actif fid count) := by
  unfold pcount
  split
  · exact .ok (.renvoie k actif _)
  · split
    · split
      · exact .error _
      · exact .ok (MemeAnnexe.trans (.noter k rfl) (.renvoie _ actif _))
    · exact .ok (.renvoie k actif _)

theorem consEcho_garde (on : Int) : Garde (some actif) k (consEcho k actif on) := by
  refine .ok (MemeAnnexe.trans ?_ (.renvoie _ actif _))
  exact .of_table rfl rfl rfl rfl

theorem renvoieActif_annexe (v : Int) : MemeAnnexe k.pidActif k (k.renvoieActif v) := by
  unfold Noyau.renvoieActif
  split
  · exact .refl _ k
  · next a pidActif =>
      rw [pidActif]
      exact .renvoie k a v

end Appels

end ProjetSysteme.Invariant
