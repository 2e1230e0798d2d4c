/- Invariant/AnnexRuns
   digest: The events that touch the memory, the page directories or the keyboard buffer. -/

import ProjetSysteme.Invariant.Annex
import ProjetSysteme.Invariant.History

set_option autoImplicit false
set_option relaxedAutoImplicit false

namespace ProjetSysteme.Invariant

open Kernel Library.Outcome

variable (env : Env)

/-- Effect of an event on the data of `MemeAnnexe`; `k` is the state after the call was
recorded. -/
inductive EffetAnnexe (e : Evenement) (k : Noyau) : Noyau → Prop
  | meme {k' : Noyau} (meme : MemeAnnexe k.pidActif k k') : EffetAnnexe e k k'
  | demarrer {k' : Noyau} {pid : Indice} {nbPage : Nat} {prio : Int}
      {args code pageDirectory : Mot} {m : Memoire} (libre : pidLibre k = some pid)
      (cree : creerMemoireProcessus env k.memoire (pid.val : Int) nbPage = .ok (pageDirectory, m))
      (meme : MemeAnnexe k.pidActif ((installerProcessus k pid prio args code pageDirectory m).noter
        (.demarrage k.pidActif pid)) k') : EffetAnnexe e k k'
  | finir {k₀ k₁ k' : Noyau} {z : Indice} {m : Memoire} (mourant : Mourant k z e)
      (avant : MemeAnnexe k.pidActif k k₀) (vue : MemeVue k k₀)
      (nonVeille : (k.table z).pid ≠ some 0) (fini : finirProcessus k₀ z = .ok k₁)
      (rendues : desallouePagesProcess env k.memoire (pidInt (k₁.table z).pid) = .ok m)
      (meme : MemeAnnexe k.pidActif (({ k with
        memoire := freePage m (k.table z).pageDirectory } : Noyau).noter (.terminaison z)) k') :
      EffetAnnexe e k k'
  | entrer {k' : Noyau} {a : Indice} {length : UInt32}
      {attente : Library.Ring.Links MaillonConsRead} (actif : k.pidActif = some a) (appel : e = .appel (.consRead length)) (positif : length > 0)
      (entree : entrerConsRead k a = .ok attente)
      (meme : MemeAnnexe none (({ k with
        console := { k.console with indexFinLigne := 0, attente := attente } } : Noyau).suspend a
          (.consReadAttente length)) k') : EffetAnnexe e k k'
  | valider {k₁ k' : Noyau} {premier : Option Indice} (touche : e = .touche 13)
      (sortie : sortirConsRead k = .ok (premier, k₁))
      (meme : MemeAnnexe none { k₁ with
        console := { k₁.console with indexFinLigne := k.console.index, index := 0 } } k') : EffetAnnexe e k k'
  | frapper {k' : Noyau} {c : Int8} (touche : e = .touche c) (autre : c ≠ 13)
      (frappe : keyboardData k c = .ok k') : EffetAnnexe e k k'
  | lire {k' : Noyau} {a : Indice} {length : UInt32} (actif : k.pidActif = some a)
      (reprise : e = .reprise) (suite : (k.table a).suite = .consReadAttente length)
      (lu : consReadReprise k a length = .ok k') : EffetAnnexe e k k'

section Appels

variable {env} {e : Evenement} {k : Noyau} {a : Indice}

theorem Garde.effet {r : Resultat} (garde : Garde k.pidActif k r) :
    Sat r (EffetAnnexe env e k) fun _ => True :=
  Sat.mono garde (fun _ => .meme) fun _ => id

theorem Garde.effet_actif {r : Resultat} (actif : k.pidActif = some a) (garde : Garde (some a) k r) :
    Sat r (EffetAnnexe env e k) fun _ => True :=
  Garde.effet (by rwa [actif])

theorem start_annexe (nom : String) (ssize : UInt32) (prio : Int) (args : Mot) :
    Sat (start env k nom ssize prio args) (EffetAnnexe env e k) fun _ => True := by
  unfold start
  split
  · exact .meme (renvoieActif_annexe k _)
  · next pid libre =>
      split
      · exact Garde.effet (waitClock_garde k _ trivial)
      · next code _ =>
          split
          · trivial
          · cases cree : creerMemoireProcessus env k.memoire (pidInt (some pid))
                ((ssize / 4096).toNat + 1) with
            | error f =>
                simp only [cree, Noyau.avecMemoire, bind, Except.bind]
                trivial
            | ok r =>
                obtain ⟨pageDirectory, m⟩ := r
                simp only [cree, Noyau.avecMemoire, installerProcessus_pidActif]
                set k₁ := (installerProcessus k pid prio args code pageDirectory m).noter
                  (.demarrage k.pidActif pid) with defk₁
                have actif₁ : k₁.pidActif = k.pidActif := by
                  rw [defk₁, installerProcessus_noyau]
                  rfl
                refine Sat.mono (Q := MemeAnnexe k.pidActif k₁) ?_ (fun k' => .demarrer libre cree)
                  fun _ => id
                have suite : Garde k₁.pidActif k₁
                    (definirEtat (k₁.renvoieActif (pid.val : Int)) pid .activable >>= ordonnancer) :=
                  .apres (renvoieActif_annexe k₁ _) (etat_ordonnancer_garde _ pid .activable).affaiblir
                rw [actif₁] at suite
                exact suite

theorem terminaison_annexe {k₀ : Noyau} {z : Indice} (mourant : Mourant k z e)
    (avant : MemeAnnexe k.pidActif k k₀) (vue : MemeVue k k₀) :
    Sat (terminaisonProcessus env k₀ z) (EffetAnnexe env e k) fun _ => True := by
  unfold terminaisonProcessus
  split
  · trivial
  · next garde =>
      simp only [not_or] at garde
      cases fini : finirProcessus k₀ z with
      | error s => trivial
      | ok k₁ =>
          have fin : MemeAnnexe none k₀ k₁ := (finirProcessus_garde k₀ z).of_ok fini
          have memoire : k₁.memoire = k.memoire := fin.memoire.trans avant.memoire
          cases rendues : desallouePagesProcess env k₁.memoire (pidInt (k₁.table z).pid) with
          | error f =>
              simp only [libererMemoire, rendues, Noyau.avecMemoire, bind, Except.bind]
              trivial
          | ok m =>
              have run : libererMemoire env k₁ z =
                  .ok { k₁ with memoire := freePage m (k₁.table z).pageDirectory } := by
                simp only [libererMemoire, rendues, Noyau.avecMemoire, bind, Except.bind]
              change Sat (libererMemoire env k₁ z >>= fun k => ordonnancer (k.noter (.terminaison z))) _ _
              rw [run]
              refine Sat.mono (ordonnancer_garde _) (fun k' meme => ?_) fun _ => id
              rw [memoire] at rendues
              refine .finir mourant avant vue (by rw [← vue.pid]; exact garde.2) fini rendues ?_
              refine MemeAnnexe.trans ⟨?_, ?_, ?_, fun j => ?_, ?_⟩ meme.affaiblir
              · rw [← avant.pageDirectory z, ← fin.pageDirectory z]
                rfl
              · exact fin.saisie.trans avant.saisie
              · rw [marques_noter rfl, marques_noter rfl]
                exact congrArg _ (fin.marques.trans avant.marques)
              · exact (fin.pageDirectory j).trans (avant.pageDirectory j)
              · exact (avant.trans fin.affaiblir).suite

theorem consRead_annexe (actif : k.pidActif = some a) (length : UInt32)
    (appel : e = .appel (.consRead length)) :
    Sat (consRead k a length) (EffetAnnexe env e k) fun _ => True := by
  unfold consRead
  split
  · next positif =>
      have meme : entrerConsRead { k with console := { k.console with indexFinLigne := 0 } } a =
          entrerConsRead k a := rfl
      simp only [meme]
      cases entree : entrerConsRead k a with
      | error s => trivial
      | ok attente =>
          exact Sat.mono (etat_ordonnancer_garde _ a .bloqueSurEntreeSortie)
            (fun k' => .entrer actif appel positif entree) fun _ => id
  · exact Garde.effet_actif actif (.ok (.renvoie k a _))

theorem sortirConsRead_annexe {premier : Option Indice} {k₁ : Noyau}
    (sortie : sortirConsRead k = .ok (premier, k₁)) :
    ∃ liens, k₁ = { k with console := { k.console with attente := liens } } := by
  suffices sat : Sat (sortirConsRead k) (fun r => ∃ liens, r.2 =
      { k with console := { k.console with attente := liens } }) fun _ => True from sat.of_ok sortie
  unfold sortirConsRead
  refine Sat.bind (Q := fun _ => True) (by unfold Noyau.avecMemoire; split <;> trivial) fun ⟨liens, r⟩ _ => ?_
  match r with
  | none => exact ⟨liens, rfl⟩
  | some (.processus p) => exact ⟨liens, rfl⟩
  | some .tete => trivial

theorem keyboardData_entree : Sat (keyboardData k 13) (fun k' => ∃ premier k₁,
    sortirConsRead k = .ok (premier, k₁) ∧ MemeAnnexe none { k₁ with
      console := { k₁.console with indexFinLigne := k.console.index, index := 0 } } k') fun _ => True := by
  unfold keyboardData
  rw [if_pos rfl]
  cases run : sortirConsRead k with
  | error s => trivial
  | ok r =>
      obtain ⟨liens, noyau⟩ := sortirConsRead_annexe run
      have index : r.2.console.index = k.console.index := by rw [noyau]
      have reveil : Garde none r.2 (reveillerLecteur r.2 r.1) := by
        unfold reveillerLecteur
        split
        · exact .refl _
        · exact definirEtat_garde _ _ _
      change Sat (reveillerLecteur r.2 r.1 >>= _) _ _
      refine Sat.bind reveil fun k₁ meme => ⟨r.1, r.2, rfl, ?_⟩
      refine ⟨meme.memoire, ?_, meme.marques, meme.pageDirectory, meme.suite⟩
      have saisie := meme.saisie
      simp only [saisieDe, Prod.mk.injEq] at saisie ⊢
      exact ⟨trivial, saisie.1.trans index, saisie.2.2⟩

theorem keyboardData_annexe (c : Int8) (touche : e = .touche c) :
    Sat (keyboardData k c) (EffetAnnexe env e k) fun _ => True := by
  by_cases entree : c = 13
  · subst entree
    refine keyboardData_entree.mono (fun k' fin => ?_) fun _ => id
    obtain ⟨premier, k₁, sortie, meme⟩ := fin
    exact .valider touche sortie meme
  · cases frappe : keyboardData k c with
    | error s => trivial
    | ok k' => exact .frapper touche entree frappe

theorem fin_annexe (actif : k.pidActif = some a) (mourant : Mourant k a e) (retval : Int) {s : Suite}
    (hors : HorsConsole s) : Sat (terminaisonProcessus env (((k.modifie a fun p =>
      { p with retval := retval }).noter (.fin a retval)).suspend a s) a) (EffetAnnexe env e k)
      fun _ => True := by
  refine terminaison_annexe mourant ?_ ?_
  · rw [actif]
    refine MemeAnnexe.trans ?_ (.suspend _ a hors)
    refine MemeAnnexe.trans ?_ (.noter _ rfl)
    exact .modifie k a (fun _ => rfl) fun _ => rfl
  · exact (sortie_prepare k a retval s).vue

theorem appeler_annexe (actif : k.pidActif = some a) (appel : Appel) :
    Sat (appeler env k a appel) (EffetAnnexe env (.appel appel) k) fun _ => True := by
  cases appel with
  | start nom ssize prio args => exact start_annexe nom ssize prio args
  | exit retval => exact fin_annexe (e := .appel (.exit retval)) actif actif retval trivial
  | finCode retval => exact fin_annexe (e := .appel (.finCode retval)) actif actif retval trivial
  | kill pid =>
      change Sat (kill env k a pid) _ _
      unfold kill
      split
      · exact Garde.effet_actif actif (.ok (.renvoie k a _))
      · next pr cible =>
          split
          · exact Garde.effet_actif actif (.ok (.renvoie k a _))
          · refine terminaison_annexe cible ?_ (.renvoie k a 0)
            rw [actif]
            exact .renvoie k a 0
  | waitpid pid retvalp => exact Garde.effet_actif actif (waitpid_garde k a pid retvalp)
  | chprio pid newprio => exact Garde.effet_actif actif (chprio_garde k a pid newprio)
  | getprio pid => exact Garde.effet_actif actif (.ok (.renvoie k a _))
  | waitClock clock => exact Garde.effet (waitClock_garde k clock trivial)
  | pcreate count => exact Garde.effet_actif actif (pcreate_garde k a count)
  | psend fid message =>
      refine Garde.effet_actif actif ?_
      change Garde (some a) k (psend k a fid message)
      unfold psend
      split
      · exact .ok (.renvoie k a _)
      · exact psendBoucle_garde k a _ message
  | preceive fid =>
      refine Garde.effet_actif actif ?_
      change Garde (some a) k (preceive k a fid)
      unfold preceive
      split
      · exact .ok (.renvoie k a _)
      · exact preceiveBoucle_garde k a _
  | preset fid => exact Garde.effet_actif actif (preset_garde k a env fid)
  | pdelete fid => exact Garde.effet_actif actif (pdelete_garde k a env fid)
  | pcount fid count => exact Garde.effet_actif actif (pcount_garde k a fid count)
  | consRead length => exact consRead_annexe actif length rfl
  | consEcho on => exact Garde.effet_actif actif (consEcho_garde k a on)

theorem reprendre_annexe (actif : k.pidActif = some a) :
    Sat (reprendre env k a) (EffetAnnexe env .reprise k) fun _ => True := by
  unfold reprendre
  split
  · exact .meme (.refl _ k)
  · exact Garde.effet_actif actif (.ok (.suspend k a trivial))
  · refine Garde.effet_actif actif (.ok (MemeAnnexe.trans ?_ (.suspend _ a trivial)))
    exact .noter k rfl
  · next suite =>
      refine terminaison_annexe ⟨actif, suite⟩ ?_ (.suspend k a _)
      rw [actif]
      exact .suspend k a trivial
  · trivial
  · trivial
  · exact Garde.effet_actif actif (waitpidReprise_garde k a _)
  · exact Garde.effet_actif actif (waitpidRepriseFils_garde k a _ _)
  · exact Garde.effet_actif actif (preceiveBoucle_garde k a _)
  · exact Garde.effet_actif actif (.ok (finAppelFile_annexe k a 0))
  · exact Garde.effet_actif actif (psendReprise_garde k a _ _)
  · next length suite =>
      cases lu : consReadReprise k a length with
      | error s => trivial
      | ok k' => exact .lire actif rfl suite lu

end Appels

theorem pas_annexe {k k' : Noyau} {e : Evenement} (sain : Sain k) (autorise : permis k e = true)
    (resultat : pas env k e = .ok k') : EffetAnnexe env e (enregistrer k e) k' := by
  have execution : Sat (executer env k e) (EffetAnnexe env e (enregistrer k e)) fun _ => True := by
    cases e with
    | tic => exact Garde.effet (ticPIT_garde k).affaiblir
    | touche c => exact keyboardData_annexe c rfl
    | appel appel =>
        cases actif : k.pidActif with
        | none =>
            simp only [executer, enregistrer, actif]
            cases appel with
            | start nom ssize prio args => exact start_annexe nom ssize prio args
            | _ => trivial
        | some a =>
            simp only [executer, enregistrer, actif]
            exact appeler_annexe (k := k.noter (.appel a appel)) actif appel
    | reprise =>
        cases actif : k.pidActif with
        | none =>
            simp only [executer, actif]
            trivial
        | some a =>
            simp only [executer, enregistrer, actif]
            exact reprendre_annexe actif
  unfold pas at resultat
  split at resultat
  · next k₁ echec =>
      rcases (executer_ok env sain autorise).of_error echec with ⟨f, faute⟩ | ⟨meme, _⟩
      · cases faute
      · cases meme
        exact (Garde.effet (waitClock_garde (enregistrer k e) _ (s := .finConfirme) trivial)).of_ok resultat
  · exact execution.of_ok resultat

end ProjetSysteme.Invariant
