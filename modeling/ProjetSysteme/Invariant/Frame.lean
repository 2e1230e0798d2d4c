/- Invariant/Frame
   digest: What an event that leaves the message queues alone keeps of the channels. -/

import ProjetSysteme.Invariant.Conservation
import ProjetSysteme.Invariant.Simulation

set_option autoImplicit false
set_option relaxedAutoImplicit false

namespace ProjetSysteme.Invariant

open Kernel Library Library.Channel.State

/-- The entry keeps its place in psend or preceive; outside of them `valresetfile`
may be cleared. -/
def Ecart (p p' : Processus) : Prop :=
  phaseDe p' = phaseDe p ∧
    (p'.valresetfile = p.valresetfile ∨ phaseDe p = .idle ∧ p'.valresetfile = 0)

theorem Ecart.refl (p : Processus) : Ecart p p := ⟨rfl, .inl rfl⟩

theorem Ecart.trans {p p' p'' : Processus} (un : Ecart p p') (deux : Ecart p' p'') :
    Ecart p p'' := by
  refine ⟨deux.1.trans un.1, ?_⟩
  rcases deux.2 with meme | ⟨idle, zero⟩
  · rw [meme]
    exact un.2
  · exact .inr ⟨un.1.symm.trans idle, zero⟩

theorem Ecart.of_idle {p p' : Processus} (avant : phaseDe p = .idle) (apres : phaseDe p' = .idle)
    (drapeau : p'.valresetfile = p.valresetfile ∨ p'.valresetfile = 0) : Ecart p p' :=
  ⟨apres.trans avant.symm, drapeau.imp_right fun zero => ⟨avant, zero⟩⟩

theorem phase_horsFile {p : Processus} (hors : HorsFile p.suite) : phaseDe p = .idle :=
  phaseDe_idle (.inr (.inr hors))

theorem Posture.horsFile {k : Noyau} {i : Indice} (posture : Posture k i)
    (bloque : (k.table i).etat = .bloqueSurSemaphore ∨ (k.table i).etat = .bloqueSurEntreeSortie ∨
      (k.table i).etat = .bloqueSurAttenteDUnFils) : HorsFile (k.table i).suite := by
  unfold Posture at posture
  rcases bloque with etat | etat | etat <;> rw [etat] at posture
  · rcases posture with ⟨v, suite⟩ | suite <;> rw [suite] <;> trivial
  · obtain ⟨n, suite⟩ := posture
    rw [suite]
    trivial
  · simp only [Demande] at posture
    split at posture
    · next suite => rw [suite]; trivial
    · next suite => rw [suite]; trivial
    · exact posture.elim

def AttenteHorsFile (k : Noyau) : Prop :=
  ∀ i, (k.table i).etat = .bloqueSurAttenteDUnFils → HorsFile (k.table i).suite

theorem Sain.attenteHorsFile {k k' : Noyau} (sain : Sain k) {a : Indice} (actif : k.pidActif = some a)
    (prepare : Prepare k a k') : AttenteHorsFile k' := by
  intro i bloque
  by_cases meme : i = a
  · subst meme
    rw [prepare.vue.etat, sain.actif i actif] at bloque
    cases bloque
  · rw [prepare.autres i meme] at bloque ⊢
    exact (sain.posture i).horsFile (.inr (.inr bloque))

/-- The message queues are untouched, and so is the part in them of every process
outside `sauf`. -/
structure Epargne (sauf : Indice → Prop) (k k' : Noyau) : Prop where
  files : k'.files = k.files
  journal : k'.journal.filterMap evenementDe = k.journal.filterMap evenementDe
  table : ∀ j, ¬ sauf j → Ecart (k.table j) (k'.table j)

namespace Epargne

variable {sauf : Indice → Prop} {k k' k'' : Noyau}

theorem refl (sauf : Indice → Prop) (k : Noyau) : Epargne sauf k k := ⟨rfl, rfl, fun _ _ => .refl _⟩

theorem trans (un : Epargne sauf k k') (deux : Epargne sauf k' k'') : Epargne sauf k k'' where
  files := deux.files.trans un.files
  journal := deux.journal.trans un.journal
  table j dehors := (un.table j dehors).trans (deux.table j dehors)

theorem of_table (files : k'.files = k.files) (journal : k'.journal = k.journal)
    (table : ∀ j, ¬ sauf j → Ecart (k.table j) (k'.table j)) : Epargne sauf k k' :=
  ⟨files, by rw [journal], table⟩

theorem noter (k : Noyau) {f : Fait} (autre : evenementDe f = none) : Epargne sauf k (k.noter f) :=
  ⟨rfl, by simp [Noyau.noter, autre], fun _ _ => .refl _⟩

theorem modifie (k : Noyau) (i : Indice) {f : Processus → Processus}
    (ecart : Ecart (k.table i) (f (k.table i))) : Epargne sauf k (k.modifie i f) := by
  refine .of_table rfl rfl fun j _ => ?_
  rw [Noyau.modifie_table]
  split
  · next meme => exact meme ▸ ecart
  · exact .refl _

theorem suspend (k : Noyau) {i : Indice} (avant : HorsFile (k.table i).suite) {s : Suite}
    (apres : HorsFile s) : Epargne sauf k (k.suspend i s) :=
  .modifie k i (.of_idle (phase_horsFile avant) (phase_horsFile apres) (.inl rfl))

theorem renvoieActif (k : Noyau) (avant : ∀ a, k.pidActif = some a → HorsFile (k.table a).suite)
    (v : Int) : Epargne sauf k (k.renvoieActif v) := by
  unfold Noyau.renvoieActif
  split
  · exact .refl sauf k
  · next a actif => exact .suspend k (avant a actif) trivial

theorem of_neutre (neutre : Neutre k k') : Epargne sauf k k' := by
  refine ⟨neutre.files, ?_, fun j _ => by rw [neutre.table]; exact .refl _⟩
  rcases neutre.journal with meme | ⟨f, plus, sorte⟩
  · rw [meme]
  · have autre : evenementDe f = none := by
      cases f <;> first | rfl | exact sorte.elim
    rw [plus, List.filterMap_cons_none autre]

theorem of_change {pr : Indice} {e : EtatProcessus} (change : Change k pr e k')
    (hors : HorsFile (k.table pr).suite) : Epargne sauf k k' := by
  refine .of_table change.files (by rw [change.noyau]) fun j _ => ?_
  by_cases meme : j = pr
  · subst meme
    rw [change.champs]
    exact .of_idle (phase_horsFile hors) (phase_horsFile hors) (.inl rfl)
  · have etat : (k'.table j).etat = (k.table j).etat := by rw [change.etat, if_neg meme]
    exact ⟨phaseDe_congr etat (by rw [change.champs]), .inl (by rw [change.champs])⟩

theorem of_ordonnance (ord : Ordonnance k k') : Epargne sauf k k' := by
  refine .of_table (by rw [ord.noyau]) (by rw [ord.noyau]) fun j _ => ⟨?_, .inl (by rw [ord.champs])⟩
  have suite : (k'.table j).suite = (k.table j).suite := by rw [ord.champs]
  rcases ord.etat j with meme | ⟨avant, apres⟩
  · exact phaseDe_congr meme suite
  · unfold phaseDe
    rw [suite]
    rcases avant with avant | avant <;> rcases apres with apres | apres <;> rw [avant, apres] <;> rfl

theorem of_reclasse {pr : Indice} {prio : Int} (reclasse : Reclasse k pr prio k') :
    Epargne sauf k k' := by
  refine .of_table (by rw [reclasse.noyau]) (by rw [reclasse.noyau]) fun j _ => ?_
  rw [reclasse.champs]
  exact ⟨phaseDe_congr rfl rfl, .inl rfl⟩

theorem of_pereReveille {pere pr : Indice} (attente : AttenteHorsFile k)
    (reveille : PereReveille k pere pr k') : Epargne sauf k k' := by
  refine .of_table (by rw [reveille.noyau]) (by rw [reveille.noyau]) fun j _ => ?_
  by_cases meme : j = pere
  · subst meme
    have suite : (k'.table j).suite = (k.table j).suite := by rw [reveille.champs]
    have drapeau : (k'.table j).valresetfile = (k.table j).valresetfile := by rw [reveille.champs]
    rcases reveille.reveil with ⟨etat, _⟩ | ⟨bloque, _⟩
    · exact ⟨phaseDe_congr etat suite, .inl drapeau⟩
    · have hors := attente j bloque
      exact .of_idle (phase_horsFile hors) (phase_horsFile (by rwa [suite])) (.inl drapeau)
  · rw [reveille.autres j meme]
    exact .refl _

theorem of_termine {z : Indice} {e : EtatProcessus} (fin : Termine z e k k')
    (sorte : e = .mort ∨ e = .zombie) (vise : sauf z ∨ phaseDe (k.table z) = .idle) :
    Epargne sauf k k' := by
  refine .of_table (by rw [fin.noyau]) (by rw [fin.noyau]) fun j dehors => ?_
  have suite : (k'.table j).suite = (k.table j).suite := by rw [fin.donnees j]
  have drapeau : (k'.table j).valresetfile = (k.table j).valresetfile := by rw [fin.donnees j]
  by_cases meme : j = z
  · subst meme
    refine .of_idle (vise.resolve_left dehors) (phaseDe_idle ?_) (.inl drapeau)
    rw [fin.etat_soi]
    exact sorte.imp_right .inl
  · rcases fin.etat meme with etat | ⟨zombie, mort⟩
    · exact ⟨phaseDe_congr etat suite, .inl drapeau⟩
    · exact .of_idle (phaseDe_idle (.inr (.inl zombie))) (phaseDe_idle (.inl mort)) (.inl drapeau)

theorem of_terminaison (attente : AttenteHorsFile k) {pr : Indice} (fin : Terminaison k pr k')
    (vise : sauf pr ∨ phaseDe (k.table pr) = .idle) : Epargne sauf k k' := by
  cases fin with
  | @mort k₁ m pere fin =>
      exact (of_termine fin (.inl rfl) vise).trans ⟨rfl, rfl, fun _ _ => .refl _⟩
  | @zombie k₁ k₂ m p pere reveille seul fin =>
      have reveil : Epargne (fun _ => False) k k₁ := .of_pereReveille attente reveille
      have vise₁ : sauf pr ∨ phaseDe (k₁.table pr) = .idle :=
        vise.imp_right (reveil.table pr id).1.trans
      refine Epargne.trans ⟨reveil.files, reveil.journal, fun j _ => reveil.table j id⟩ ?_
      exact (of_termine fin (.inr rfl) vise₁).trans ⟨rfl, rfl, fun _ _ => .refl _⟩

theorem of_installer (k : Noyau) {pid : Indice} (prio : Int) (args code pageDirectory : Mot)
    (m : Memoire) (mort : (k.table pid).etat = .mort) (autre : k.pidActif ≠ some pid) :
    Epargne sauf k (installerProcessus k pid prio args code pageDirectory m) := by
  refine .of_table ?_ ?_ fun j _ => ?_
  · rw [installerProcessus_noyau]
  · rw [installerProcessus_noyau]
  · by_cases meme : j = pid
    · subst meme
      rw [installerProcessus_table_self k prio args code pageDirectory m autre]
      exact .of_idle (phaseDe_idle (.inl mort)) (phase_horsFile trivial) (.inr rfl)
    · rw [installerProcessus_table_ne k prio args code pageDirectory m meme]
      exact ⟨phaseDe_congr rfl rfl, .inl rfl⟩

theorem of_reveils (reveils : Reveils k k')
    (endormis : ∀ i, (k.table i).etat = .bloqueSurSemaphore → HorsFile (k.table i).suite) :
    Epargne sauf k k' := by
  induction reveils with
  | fin k => exact .refl sauf k
  | @suivant k k₁ k' i endormi change reste ih =>
      refine (of_change change (endormis i endormi)).trans (ih fun j etat => ?_)
      rw [change.champs]
      refine endormis j ?_
      rw [change.etat] at etat
      split at etat
      · cases etat
      · exact etat

theorem of_prepare {a : Indice} (prepare : Prepare k a k')
    (journal : k'.journal.filterMap evenementDe = k.journal.filterMap evenementDe)
    (ecart : Ecart (k.table a) (k'.table a)) : Epargne sauf k k' := by
  refine ⟨by rw [prepare.noyau], journal, fun j _ => ?_⟩
  by_cases meme : j = a
  · exact meme ▸ ecart
  · rw [prepare.autres j meme]
    exact .refl _

/-- The caller saves its next step and leaves `ACTIF`, after an update of data that the
channels do not show. -/
theorem of_bloque {a : Indice} {s : Suite} {e : EtatProcessus} {f : Processus → Processus}
    (change : Change ((k.modifie a f).suspend a s) a e k')
    (garde : ∀ p, (f p).etat = p.etat ∧ (f p).suite = p.suite ∧ (f p).valresetfile = p.valresetfile)
    (avant : HorsFile (k.table a).suite) (apres : HorsFile s) : Epargne sauf k k' := by
  obtain ⟨etat, suite, drapeau⟩ := garde (k.table a)
  have prepare : Epargne sauf k (k.modifie a f) :=
    .modifie k a ⟨phaseDe_congr etat suite, .inl drapeau⟩
  have suspendu : Epargne sauf (k.modifie a f) ((k.modifie a f).suspend a s) := by
    refine .suspend _ ?_ apres
    rw [Noyau.modifie_table_self, suite]
    exact avant
  refine (prepare.trans suspendu).trans (.of_change change ?_)
  rw [Noyau.suspend_table_self]
  exact apres

end Epargne

def Vise (e : Evenement) (i : Indice) : Prop :=
  ∃ pid, e = .appel (.kill pid) ∧ indice? pid = some i

/-- The process that kill names ends, and nothing else changes for the queues. -/
structure Retire (e : Evenement) (i : Indice) (k k' : Noyau) : Prop where
  vise : Vise e i
  epargne : Epargne (· = i) k k'
  idle : phaseDe (k'.table i) = .idle
  drapeau : ∀ j, (k'.table j).valresetfile = (k.table j).valresetfile

section Cases

variable {sauf : Indice → Prop} {e : Evenement} {k k' : Noyau} (sain : Sain k)

include sain

theorem Epargne.demarrer {pid : Indice} {prio : Int} {args code pageDirectory : Mot} {m : Memoire}
    (avant : ∀ a, k.pidActif = some a → HorsFile (k.table a).suite) (libre : pidLibre k = some pid)
    (change : Change (((installerProcessus k pid prio args code pageDirectory m).noter
      (.demarrage k.pidActif pid)).renvoieActif (pid.val : Int)) pid .activable k') :
    Epargne sauf k k' := by
  obtain ⟨mort, autre⟩ := sain.libre libre
  set k₁ := (installerProcessus k pid prio args code pageDirectory m).noter
    (.demarrage k.pidActif pid) with defk₁
  have installe : Epargne sauf k k₁ :=
    (Epargne.of_installer k prio args code pageDirectory m mort autre).trans (.noter _ rfl)
  have actif₁ : k₁.pidActif = k.pidActif :=
    installerProcessus_pidActif k pid prio args code pageDirectory m
  have avant₁ : ∀ a, k₁.pidActif = some a → HorsFile (k₁.table a).suite := by
    intro a actif
    rw [actif₁] at actif
    have autreA : a ≠ pid := fun meme => autre (meme ▸ actif)
    rw [defk₁, Noyau.noter_table,
      installerProcessus_table_ne k prio args code pageDirectory m autreA]
    exact avant a actif
  refine (installe.trans (.renvoieActif k₁ avant₁ _)).trans (.of_change change ?_)
  rw [defk₁, demarrage_soi _ _ _ _ _ _ _ autre]
  trivial

theorem Retire.tuer {a pr : Indice} {pid : Int} (actif : k.pidActif = some a)
    (avant : HorsFile (k.table a).suite) (appel : e = .appel (.kill pid)) (cible : indice? pid = some pr)
    (fin : Terminaison (k.renvoie a 0) pr k') : Retire e pr k k' where
  vise := ⟨pid, appel, cible⟩
  epargne := by
    have retour : Epargne (· = pr) k (k.renvoie a 0) := .suspend k avant trivial
    have attente : AttenteHorsFile (k.renvoie a 0) := sain.attenteHorsFile actif (.suspend k a _)
    exact retour.trans (.of_terminaison attente fin (.inl rfl))
  idle := phaseDe_idle (fin.soi.imp_right .inl)
  drapeau j := by
    rw [(fin.donnees j).2, Noyau.renvoie, Noyau.suspend, Noyau.modifie_table]
    split <;> rfl

theorem Epargne.sortir {a : Indice} {s : Suite} {v : Int} (actif : k.pidActif = some a)
    (avant : HorsFile (k.table a).suite) (hors : HorsFile s)
    (fin : Terminaison (((k.modifie a fun p => { p with retval := v }).noter (.fin a v)).suspend
      a s) a k') : Epargne sauf k k' := by
  have sortie := sortie_prepare k a v s
  have soi := sortie_soi k a v s
  set k₂ := ((k.modifie a fun p => { p with retval := v }).noter (.fin a v)).suspend a s
  have idle : phaseDe (k₂.table a) = .idle := phase_horsFile (by rwa [soi])
  have prepare : Epargne sauf k k₂ :=
    .of_prepare sortie rfl (.of_idle (phase_horsFile avant) idle (.inl (by rw [soi])))
  have attente : AttenteHorsFile k₂ := sain.attenteHorsFile actif sortie
  exact prepare.trans (.of_terminaison attente fin (.inr idle))

theorem Epargne.achever {a : Indice} (actif : k.pidActif = some a)
    (suite : (k.table a).suite = .finConfirme) (fin : Terminaison (k.suspend a .termine) a k') :
    Epargne sauf k k' := by
  have idle : phaseDe ((k.suspend a .termine).table a) = .idle := by
    refine phase_horsFile ?_
    rw [Noyau.suspend_table_self]
    trivial
  have prepare : Epargne sauf k (k.suspend a .termine) :=
    .suspend k (by rw [suite]; trivial) trivial
  have attente : AttenteHorsFile (k.suspend a .termine) := sain.attenteHorsFile actif (.suspend k a _)
  exact prepare.trans (.of_terminaison attente fin (.inr idle))

omit sain in
theorem Epargne.recuperer {k₁ : Noyau} {a c : Indice} {retvalp : Bool}
    (avant : HorsFile (k.table a).suite) (zombie : (k.table c).etat = .zombie)
    (attend : k₁ = k ∨ k₁ = k.modifie a fun p => { p with attendFils := .aucun })
    (fin : Termine c .mort (avantRecolte k₁ a c retvalp (k.table c).retval) k') :
    Epargne sauf k k' := by
  have recolte := recolte_prepare attend c retvalp (k.table c).retval
  have prepare : Epargne sauf k (avantRecolte k₁ a c retvalp (k.table c).retval) := by
    refine .of_prepare recolte ?_ ?_
    · rw [recolte_journal attend]
      split <;> rfl
    · rw [recolte_soi attend]
      exact .of_idle (phase_horsFile avant) (phase_horsFile trivial) (.inl rfl)
  refine prepare.trans (.of_termine fin (.inl rfl) (.inr ?_))
  exact phaseDe_idle (.inr (.inl ((recolte.vue.etat c).trans zombie)))

omit sain in
theorem Epargne.console (console : Console) : Epargne sauf k { k with console := console } :=
  ⟨rfl, rfl, fun _ _ => .refl _⟩

theorem EffetProcessus.epargne (effet : EffetProcessus e k k') :
    Epargne (fun _ => False) k k' ∨ ∃ i, Retire e i k k' := by
  cases effet with
  | tuer actif avant appel cible nonZero vivant nonZombie fin =>
      exact .inr ⟨_, .tuer sain actif avant appel cible fin⟩
  | neutre avant neutre => exact .inl (.of_neutre neutre)
  | @rendre k₁ a s actif avant apres neutre =>
      left
      refine (Epargne.of_neutre neutre).trans (.suspend _ (by rwa [neutre.table]) ?_)
      cases s <;> trivial
  | dormir clock actif nonZero avant apres change =>
      left
      refine .of_bloque change (fun _ => ⟨rfl, rfl, rfl⟩) avant ?_
      rcases apres with ⟨v, rfl⟩ | rfl <;> trivial
  | demarrer prio args code pageDirectory m avant libre change =>
      exact .inl (.demarrer sain avant libre change)
  | sortir v actif nonZero avant apres fin =>
      refine .inl (.sortir sain actif avant ?_ fin)
      rcases apres with ⟨_, rfl⟩ | ⟨_, rfl⟩ <;> trivial
  | achever actif nonZero reprise suite fin => exact .inl (.achever sain actif suite fin)
  | attendre retvalp actif nonZero avant fils aucun change =>
      left
      exact .of_bloque change (fun _ => ⟨rfl, rfl, rfl⟩) avant trivial
  | attendreFils retvalp actif nonZero avant pere vivant nonZombie change =>
      left
      exact .of_bloque change (fun _ => ⟨rfl, rfl, rfl⟩) avant trivial
  | recuperer retvalp actif avant pere zombie attend fin =>
      exact .inl (.recuperer avant zombie attend fin)
  | @reclasser k₁ a pr prio oldprio actif avant vivant reclasse =>
      left
      have suite : (k₁.table a).suite = (k.table a).suite := by rw [reclasse.champs]
      exact (Epargne.of_reclasse reclasse).trans (.suspend k₁ (by rwa [suite]) trivial)
  | tic horloge appel avant reveils =>
      left
      have avance : Epargne (fun _ => False) k { k with horloge := horloge } :=
        ⟨rfl, rfl, fun _ _ => .refl _⟩
      exact avance.trans (.of_reveils reveils fun i etat => (sain.posture i).horsFile (.inl etat))
  | @entrerConsole k₁ k₂ a length actif nonZero appel avant entree change =>
      left
      obtain ⟨console, _, rfl, _⟩ := entree
      have suspendu : Epargne (fun _ => False) { k with console := console }
          (({ k with console := console } : Noyau).suspend a (.consReadAttente length)) :=
        .suspend { k with console := console } avant trivial
      refine ((Epargne.console console).trans suspendu).trans (.of_change change ?_)
      rw [Noyau.suspend_table_self]
      trivial
  | @sortirConsole k₁ k₂ k₃ p avant sortie change neutre =>
      left
      obtain ⟨console, _, rfl, _, queue⟩ := sortie
      have lecteur := sain.console.bloques p (by simp [queue])
      refine ((Epargne.console console).trans (.of_change change ?_)).trans (.of_neutre neutre)
      exact (sain.posture p).horsFile (.inr (.inl lecteur))
  | @finReception a actif suite =>
      left
      have hors : HorsFile (k.table a).suite := by
        rw [suite]
        trivial
      have baisse : Epargne (fun _ => False) k (k.modifie a fun p => { p with valresetfile := 0 }) :=
        .modifie k a (.of_idle (phase_horsFile hors) (phase_horsFile hors) (.inr rfl))
      refine baisse.trans (.suspend _ ?_ trivial)
      rw [Noyau.modifie_table_self]
      exact hors

end Cases

theorem canaux_ordonnance {k k' : Noyau} (ord : Ordonnance k k') : canaux k' = canaux k := by
  have epargne : Epargne (fun _ => False) k k' := .of_ordonnance ord
  refine Channel.State.ext ?_ (funext fun j => (epargne.table j id).1) (funext fun j => ?_)
    epargne.journal
  · simp only [canaux, epargne.files]
  · have drapeau : (k'.table j).valresetfile = (k.table j).valresetfile := by rw [ord.champs]
    simp only [canaux, drapeauDe, drapeau]

theorem Epargne.tick {k k' : Noyau} (epargne : Epargne (fun _ => False) k k') :
    Channel.Step (canaux k) .tick (canaux k') := by
  have forme : canaux k' = { canaux k with flag := (canaux k').flag } :=
    Channel.State.ext (by simp only [canaux, epargne.files])
      (funext fun j => (epargne.table j id).1) rfl epargne.journal
  rw [forme]
  refine .tick _ fun j => ?_
  rcases (epargne.table j id).2 with meme | ⟨idle, zero⟩
  · exact .inl (by simp only [canaux, drapeauDe, meme])
  · exact .inr ⟨idle, by simp [canaux, drapeauDe, zero]⟩

theorem Epargne.leave {k k' : Noyau} {i : Indice} (epargne : Epargne (· = i) k k')
    (idle : phaseDe (k'.table i) = .idle)
    (drapeau : ∀ j, (k'.table j).valresetfile = (k.table j).valresetfile) (hors : HorsListes k i) :
    Channel.Step (canaux k) (.leave i) (canaux k') := by
  have forme : canaux k' = (canaux k).setPhase i .idle := by
    refine Channel.State.ext (by simp only [canaux, epargne.files, setPhase])
      (funext fun j => ?_) (funext fun j => ?_) epargne.journal
    · rw [setPhase_phase]
      split
      · next meme => exact meme ▸ idle
      · next autre => exact (epargne.table j autre).1
    · simp only [setPhase_flag, canaux, drapeauDe, drapeau]
  rw [forme]
  refine .leave fun fid => ⟨fun mem => ?_, fun mem => ?_⟩
  · obtain ⟨n, mem, meme⟩ := List.mem_map.mp (List.mem_toFinset.mp mem)
    exact (hors.1 fid).1 n mem meme
  · obtain ⟨n, mem, meme⟩ := List.mem_map.mp (List.mem_toFinset.mp mem)
    exact (hors.1 fid).2 n mem meme

theorem EffetProcessus.simule {e : Evenement} {k k' : Noyau} (sain : Sain k)
    (propre : KillPropre k e) (effet : EffetProcessus e k k') :
    ∃ act, Channel.Step (canaux k) act (canaux k') ∧ Etiquette k e act := by
  rcases effet.epargne sain with epargne | ⟨i, retire⟩
  · exact ⟨.tick, epargne.tick, trivial⟩
  · obtain ⟨pid, rfl, cible⟩ := retire.vise
    exact ⟨.leave i, retire.epargne.leave retire.idle retire.drapeau (propre i cible),
      pid, rfl, cible⟩

end ProjetSysteme.Invariant
