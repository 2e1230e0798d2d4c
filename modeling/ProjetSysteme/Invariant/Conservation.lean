/- Invariant/Conservation
   digest: What an event keeps of the process table and of the queue of cons_read. -/

import ProjetSysteme.Invariant.Event
import ProjetSysteme.Invariant.Waiting

set_option autoImplicit false
set_option relaxedAutoImplicit false

namespace ProjetSysteme.Invariant

open Kernel Library.PriorityList

def Passager (e : EtatProcessus) : Prop := e ≠ .actif ∧ e ≠ .bloqueSurEntreeSortie

/-- The entry keeps its return value, its running or reading state, and is not brought to life. -/
structure Suit (p p' : Processus) : Prop where
  vivant : p'.etat ≠ .mort → p.etat ≠ .mort
  etat : p'.etat = p.etat ∨ (Passager p.etat ∧ Passager p'.etat)
  retval : p'.retval = p.retval
  drapeau : p'.valresetfile = p.valresetfile ∨ p'.valresetfile = 0 ∨ p'.valresetfile = 1

theorem Suit.refl (p : Processus) : Suit p p := ⟨id, .inl rfl, rfl, .inl rfl⟩

theorem Suit.trans {p p' p'' : Processus} (un : Suit p p') (deux : Suit p' p'') : Suit p p'' where
  vivant := un.vivant ∘ deux.vivant
  etat := by
    rcases un.etat with meme | ⟨avant, _⟩ <;> rcases deux.etat with meme' | ⟨milieu, apres⟩
    · exact .inl (meme'.trans meme)
    · exact .inr ⟨meme ▸ milieu, apres⟩
    · exact .inr ⟨avant, by rw [meme']; assumption⟩
    · exact .inr ⟨avant, apres⟩
  retval := deux.retval.trans un.retval
  drapeau := by
    rcases deux.drapeau with meme | pose
    · rw [meme]
      exact un.drapeau
    · exact .inr pose

structure Conserve (sauf : Indice → Prop) (k k' : Noyau) : Prop where
  pidActif : k'.pidActif = k.pidActif
  attente : k'.console.attente = k.console.attente
  valeur : ∀ j, ¬ sauf j → valeurFin k'.journal j = valeurFin k.journal j
  table : ∀ j, ¬ sauf j → Suit (k.table j) (k'.table j)

namespace Conserve

variable {sauf : Indice → Prop} {k k' k'' : Noyau}

theorem refl (sauf : Indice → Prop) (k : Noyau) : Conserve sauf k k :=
  ⟨rfl, rfl, fun _ _ => rfl, fun _ _ => .refl _⟩

theorem trans (un : Conserve sauf k k') (deux : Conserve sauf k' k'') : Conserve sauf k k'' where
  pidActif := deux.pidActif.trans un.pidActif
  attente := deux.attente.trans un.attente
  valeur j dehors := (deux.valeur j dehors).trans (un.valeur j dehors)
  table j dehors := (un.table j dehors).trans (deux.table j dehors)

theorem of_table (noyau : k' = { k with
      table := k'.table, activables := k'.activables, endormis := k'.endormis
      files := k'.files, nbFiles := k'.nbFiles, memoire := k'.memoire })
    (table : ∀ j, ¬ sauf j → Suit (k.table j) (k'.table j)) : Conserve sauf k k' :=
  ⟨by rw [noyau], by rw [noyau], fun j _ => by rw [noyau], table⟩

theorem noter (k : Noyau) {f : Fait} (autre : ∀ l j, valeurFin (f :: l) j = valeurFin l j) :
    Conserve sauf k (k.noter f) :=
  ⟨rfl, rfl, fun j _ => autre k.journal j, fun _ _ => .refl _⟩

theorem modifie (k : Noyau) (i : Indice) {f : Processus → Processus}
    (suit : Suit (k.table i) (f (k.table i))) : Conserve sauf k (k.modifie i f) := by
  refine .of_table rfl fun j _ => ?_
  rw [Noyau.modifie_table]
  split
  · next meme => exact meme ▸ suit
  · exact .refl _

theorem suspend (k : Noyau) (i : Indice) (s : Suite) : Conserve sauf k (k.suspend i s) :=
  .modifie k i ⟨id, .inl rfl, rfl, .inl rfl⟩

theorem renvoieActif (k : Noyau) (v : Int) : Conserve sauf k (k.renvoieActif v) := by
  unfold Noyau.renvoieActif
  split
  · exact .refl sauf k
  · exact .suspend k _ _

theorem modifieFile (k : Noyau) (fid : IndiceFile) (f : FileMessage → FileMessage) :
    Conserve sauf k (k.modifieFile fid f) := .of_table rfl fun _ _ => .refl _

theorem noterFile (k : Noyau) (fid : IndiceFile) (f : FileMessage → FileMessage) {x : Fait}
    (autre : ∀ l j, valeurFin (x :: l) j = valeurFin l j) :
    Conserve sauf k ((k.modifieFile fid f).noter x) :=
  ⟨rfl, rfl, fun j _ => autre k.journal j, fun _ _ => .refl _⟩

theorem of_neutre (neutre : Neutre k k') : Conserve sauf k k' := by
  refine ⟨neutre.pidActif, neutre.attente, fun j _ => ?_, fun j _ => by rw [neutre.table]; exact .refl _⟩
  rcases neutre.journal with meme | ⟨f, plus, sorte⟩
  · rw [meme]
  · rw [plus]
    cases f <;> first | rfl | exact sorte.elim

theorem of_change {pr : Indice} {e : EtatProcessus} (change : Change k pr e k')
    (vise : sauf pr ∨ Passager (k.table pr).etat ∧ Passager e) : Conserve sauf k k' := by
  refine .of_table (by rw [change.noyau]) fun j dehors => ?_
  by_cases meme : j = pr
  · subst meme
    rw [change.champs, change.etat, if_pos rfl]
    exact ⟨fun _ => change.1, .inr (vise.resolve_left dehors), rfl, .inl rfl⟩
  · rw [change.table_ne meme]
    exact .refl _

theorem of_reclasse {pr : Indice} {prio : Int} (reclasse : Reclasse k pr prio k') :
    Conserve sauf k k' := by
  refine .of_table (by rw [reclasse.noyau]) fun j _ => ?_
  rw [reclasse.champs]
  exact ⟨id, .inl rfl, rfl, .inl rfl⟩

theorem of_pereReveille {pere pr : Indice} (reveille : PereReveille k pere pr k') :
    Conserve sauf k k' := by
  refine .of_table (by rw [reveille.noyau]) fun j _ => ?_
  by_cases meme : j = pere
  · subst meme
    rw [reveille.champs]
    rcases reveille.reveil with ⟨etat, _⟩ | ⟨bloque, activable, _⟩
    · exact ⟨fun vivant => etat ▸ vivant, .inl etat, rfl, .inl rfl⟩
    · refine ⟨fun _ => by simp [bloque], .inr ⟨?_, ?_⟩, rfl, .inl rfl⟩
      · simp [Passager, bloque]
      · simp [Passager, activable]
  · rw [reveille.autres j meme]
    exact .refl _

theorem of_termine {z : Indice} {e : EtatProcessus} (fin : Termine z e k k')
    (vise : sauf z ∨ (k.table z).etat = .zombie ∧ e = .mort) : Conserve sauf k k' := by
  refine .of_table (by rw [fin.noyau]) fun j dehors => ?_
  have retval : (k'.table j).retval = (k.table j).retval := by rw [fin.donnees j]
  have drapeau : (k'.table j).valresetfile = (k.table j).valresetfile := by rw [fin.donnees j]
  by_cases meme : j = z
  · subst meme
    obtain ⟨zombie, mort⟩ := vise.resolve_left dehors
    refine ⟨fun _ => by simp [zombie], .inr ⟨?_, ?_⟩, retval, .inl drapeau⟩
    · simp [Passager, zombie]
    · simp [Passager, fin.etat_soi, mort]
  · rcases fin.etat meme with etat | ⟨zombie, mort⟩
    · exact ⟨fun vivant => etat ▸ vivant, .inl etat, retval, .inl drapeau⟩
    · refine ⟨fun _ => by simp [zombie], .inr ⟨?_, ?_⟩, retval, .inl drapeau⟩
      · simp [Passager, zombie]
      · simp [Passager, mort]

theorem of_terminaison {pr : Indice} (fin : Terminaison k pr k') : Conserve (· = pr) k k' := by
  cases fin with
  | @mort k₁ m pere fin =>
      have ended : Conserve (· = pr) k k₁ := .of_termine fin (.inl rfl)
      exact ended.trans ⟨rfl, rfl, fun _ _ => rfl, fun _ _ => .refl _⟩
  | @zombie k₁ k₂ m p pere reveille seul fin =>
      have reveil : Conserve (· = pr) k k₁ := .of_pereReveille reveille
      have ended : Conserve (· = pr) k₁ k₂ := .of_termine fin (.inl rfl)
      exact (reveil.trans ended).trans ⟨rfl, rfl, fun _ _ => rfl, fun _ _ => .refl _⟩

theorem of_installer {k : Noyau} {pid : Indice} (prio : Int) (args code pageDirectory : Mot)
    (m : Memoire) (console : ConsoleSaine k) (libre : pid ∉ lecteurs k) :
    Conserve (· = pid) k (installerProcessus k pid prio args code pageDirectory m) := by
  have noyau := installerProcessus_noyau k pid prio args code pageDirectory m
  refine ⟨installerProcessus_pidActif .., ?_, fun j _ => by rw [noyau], fun j autre => ?_⟩
  · rw [noyau]
    exact console.chainee.couper libre
  · rw [installerProcessus_table_ne k prio args code pageDirectory m autre]
    exact ⟨id, .inl rfl, rfl, .inl rfl⟩

theorem of_reveils (reveils : Reveils k k') : Conserve sauf k k' := by
  induction reveils with
  | fin k => exact .refl sauf k
  | suivant endormi change reste ih =>
      refine (of_change change (.inr ⟨?_, ?_⟩)).trans ih
      · simp [Passager, endormi]
      · simp [Passager]

theorem of_prepare {a : Indice} (prepare : Prepare k a k')
    (valeur : ∀ j, ¬ sauf j → valeurFin k'.journal j = valeurFin k.journal j)
    (suit : ¬ sauf a → Suit (k.table a) (k'.table a)) : Conserve sauf k k' := by
  refine ⟨by rw [prepare.noyau], by rw [prepare.noyau], valeur, fun j dehors => ?_⟩
  by_cases meme : j = a
  · subst meme
    exact suit dehors
  · rw [prepare.autres j meme]
    exact .refl _

theorem of_vide {fid : IndiceFile} (vide : Vide fid k k') (files : FilesSaines k) :
    Conserve sauf k k' := by
  refine ⟨by rw [vide.noyau], by rw [vide.noyau], fun j _ => by rw [vide.noyau]; rfl, fun j _ => ?_⟩
  rcases vide.table files j with meme | ⟨bloque, eveil⟩
  · rw [meme]
    exact .refl _
  · rw [eveil]
    refine ⟨fun _ => ?_, .inr ⟨?_, by simp [Passager]⟩, rfl, .inr (.inr rfl)⟩
    · rcases bloque with etat | etat <;> simp [etat]
    · rcases bloque with etat | etat <;> simp [Passager, etat]

end Conserve

theorem Terminaison.soi {k k' : Noyau} {pr : Indice} (fin : Terminaison k pr k') :
    (k'.table pr).etat = .mort ∨ (k'.table pr).etat = .zombie := by
  cases fin with
  | mort pere fin => exact .inl fin.etat_soi
  | zombie pere reveille seul fin => exact .inr fin.etat_soi

theorem Terminaison.listes {k k' : Noyau} {pr : Indice} (fin : Terminaison k pr k') :
    k'.files = k.files ∧ k'.console = k.console := by
  cases fin with
  | mort pere fin =>
      rw [fin.noyau]
      exact ⟨rfl, rfl⟩
  | zombie pere reveille seul fin =>
      rw [fin.noyau, reveille.noyau]
      exact ⟨rfl, rfl⟩

theorem Terminaison.donnees {k k' : Noyau} {pr : Indice} (fin : Terminaison k pr k') (j : Indice) :
    (k'.table j).retval = (k.table j).retval ∧
      (k'.table j).valresetfile = (k.table j).valresetfile := by
  cases fin with
  | @mort k₁ m pere fin =>
      rw [Noyau.noter_table]
      change (k₁.table j).retval = _ ∧ (k₁.table j).valresetfile = _
      rw [fin.donnees j]
      exact ⟨rfl, rfl⟩
  | @zombie k₁ k₂ m p pere reveille seul fin =>
      rw [Noyau.noter_table]
      change (k₂.table j).retval = _ ∧ (k₂.table j).valresetfile = _
      rw [fin.donnees j]
      by_cases meme : j = p
      · rw [meme, reveille.champs]
        exact ⟨rfl, rfl⟩
      · rw [reveille.autres j meme]
        exact ⟨rfl, rfl⟩

theorem Terminaison.valeur {k k' : Noyau} {pr : Indice} (fin : Terminaison k pr k') (j : Indice) :
    valeurFin k'.journal j = valeurFin k.journal j := by
  cases fin with
  | @mort k₁ m pere fin =>
      rw [fin.noyau]
      rfl
  | @zombie k₁ k₂ m p pere reveille seul fin =>
      rw [fin.noyau, reveille.noyau]
      rfl

structure Tient (k : Noyau) : Prop where
  actif : ∀ a, k.pidActif = some a → (k.table a).etat = .actif
  valeurs : Valeurs k
  drapeau : ∀ i, (k.table i).valresetfile = 0 ∨ (k.table i).valresetfile = 1

theorem Sain.tient {k : Noyau} (sain : Sain k) : Tient k := ⟨sain.actif, sain.valeurs, sain.drapeau⟩

theorem ConsoleSaine.hors {k : Noyau} (console : ConsoleSaine k) {i : Indice}
    (etat : (k.table i).etat ≠ .bloqueSurEntreeSortie) : i ∉ lecteurs k :=
  fun mem => etat (console.bloques i mem)

structure Tenu (k k' : Noyau) (i : Indice) : Prop where
  actif : k.pidActif = some i → (k'.table i).etat ≠ .activable
  valeur : (k'.table i).etat ≠ .mort → (k'.table i).retval = valeurFin k'.journal i
  drapeau : (k'.table i).valresetfile = 0 ∨ (k'.table i).valresetfile = 1

structure Bilan (e : Evenement) (k k' : Noyau) : Prop where
  pidActif : k'.pidActif = k.pidActif
  tenu : ∀ i, Tenu k k' i
  console : ConsoleSaine k'
  entree : ∀ i ∈ lecteurs k', i ∈ lecteurs k ∨ ∃ length, e = .appel (.consRead length)

section Assembly

variable {sauf : Indice → Prop} {e : Evenement} {k k₁ k' : Noyau} {i a : Indice}

theorem Conserve.tenu (conserve : Conserve sauf k k') (tient : Tient k) (dehors : ¬ sauf i) :
    Tenu k k' i := by
  have suit := conserve.table i dehors
  refine ⟨fun actif => ?_, fun vivant => ?_, ?_⟩
  · rcases suit.etat with meme | ⟨avant, _⟩
    · rw [meme, tient.actif i actif]
      exact EtatProcessus.noConfusion
    · exact absurd (tient.actif i actif) avant.1
  · rw [suit.retval, conserve.valeur i dehors]
    exact tient.valeurs i (suit.vivant vivant)
  · rcases suit.drapeau with meme | pose
    · rw [meme]
      exact tient.drapeau i
    · exact pose

theorem Conserve.console (conserve : Conserve sauf k k') (console : ConsoleSaine k)
    (dehors : ∀ i ∈ lecteurs k, ¬ sauf i) : ConsoleSaine k' where
  chainee := by
    rw [lecteurs_congr conserve.attente, conserve.attente]
    exact console.chainee
  bloques i mem := by
    rw [lecteurs_congr conserve.attente] at mem
    have etat := console.bloques i mem
    rcases (conserve.table i (dehors i mem)).etat with meme | ⟨avant, _⟩
    · rw [meme, etat]
    · exact absurd etat avant.2

theorem Conserve.reste (conserve : Conserve sauf k k') :
    ∀ i ∈ lecteurs k', i ∈ lecteurs k ∨ ∃ length, e = .appel (.consRead length) :=
  fun _ mem => .inl (lecteurs_congr conserve.attente ▸ mem)

theorem Conserve.bilan (conserve : Conserve (fun _ => False) k k') (sain : Sain k) : Bilan e k k' :=
  ⟨conserve.pidActif, fun _ => conserve.tenu sain.tient id, conserve.console sain.console fun _ _ => id,
    conserve.reste⟩

theorem Conserve.bilan_sauf (conserve : Conserve (· = i) k k') (sain : Sain k) (tenu : Tenu k k' i)
    (etat : (k.table i).etat ≠ .bloqueSurEntreeSortie) : Bilan e k k' := by
  refine ⟨conserve.pidActif, fun j => ?_, conserve.console sain.console fun j mem same => ?_,
    conserve.reste⟩
  · by_cases meme : j = i
    · exact meme ▸ tenu
    · exact conserve.tenu sain.tient meme
  · exact sain.console.hors etat (same ▸ mem)

theorem Change.tenu {e : EtatProcessus} (change : Change k₁ i e k')
    (avant : Conserve (fun _ => False) k k₁) (tient : Tient k)
    (autre : k.pidActif = some i → e ≠ .activable) : Tenu k k' i := by
  have tenu : Tenu k k₁ i := avant.tenu tient id
  refine ⟨fun actif => ?_, fun _ => ?_, ?_⟩
  · rw [change.etat, if_pos rfl]
    exact autre actif
  · rw [change.noyau]
    change (k'.table i).retval = valeurFin k₁.journal i
    rw [change.champs]
    exact tenu.valeur change.1
  · rw [change.champs]
    exact tenu.drapeau

theorem Change.bilan_bloque {etat : EtatProcessus} (change : Change k₁ a etat k') (sain : Sain k)
    (actif : k.pidActif = some a) (avant : Conserve (fun _ => False) k k₁) (autre : etat ≠ .activable) :
    Bilan e k k' := by
  have prepare : Conserve (· = a) k k₁ := ⟨avant.pidActif, avant.attente, fun j _ => avant.valeur j id,
    fun j _ => avant.table j id⟩
  refine (prepare.trans (.of_change change (.inl rfl))).bilan_sauf sain
    (change.tenu avant sain.tient fun _ => autre) ?_
  rw [sain.actif a actif]
  exact EtatProcessus.noConfusion

theorem Terminaison.tenu {pr : Indice} (fin : Terminaison k₁ pr k')
    (valeur : (k₁.table pr).retval = valeurFin k₁.journal pr)
    (drapeau : (k₁.table pr).valresetfile = 0 ∨ (k₁.table pr).valresetfile = 1) : Tenu k k' pr := by
  obtain ⟨retval, flag⟩ := fin.donnees pr
  refine ⟨fun _ => ?_, fun _ => ?_, by rwa [flag]⟩
  · rcases fin.soi with etat | etat <;> simp [etat]
  · rw [retval, valeur, fin.valeur]

end Assembly

section Cases

variable {e : Evenement} {k k' : Noyau} (sain : Sain k)

include sain

theorem Bilan.demarrer {pid : Indice} {prio : Int} {args code pageDirectory : Mot} {m : Memoire}
    (libre : pidLibre k = some pid)
    (change : Change (((installerProcessus k pid prio args code pageDirectory m).noter
      (.demarrage k.pidActif pid)).renvoieActif (pid.val : Int)) pid .activable k') : Bilan e k k' := by
  obtain ⟨mort, autre⟩ := sain.libre libre
  set k₁ := (installerProcessus k pid prio args code pageDirectory m).noter
    (.demarrage k.pidActif pid) with defk₁
  have installe : Conserve (· = pid) k k₁ := by
    refine (Conserve.of_installer prio args code pageDirectory m sain.console
      (sain.console.hors (by simp [mort]))).trans ⟨rfl, rfl, fun j autreJ => ?_, fun _ _ => .refl _⟩
    exact if_neg (Ne.symm autreJ)
  have soi : k'.table pid =
      { nouveauProcessus pid prio k.pidActif args code pageDirectory with etat := .activable } := by
    have etat : (k'.table pid).etat = .activable := by rw [change.etat, if_pos rfl]
    rw [change.champs, etat, defk₁, demarrage_soi _ _ _ _ _ _ _ autre]
  have journal : k'.journal =
      .demarrage k.pidActif pid :: (installerProcessus k pid prio args code pageDirectory m).journal := by
    rw [change.noyau]
    unfold Noyau.renvoieActif
    split <;> rfl
  refine ((installe.trans (.renvoieActif k₁ _)).trans (.of_change change (.inl rfl))).bilan_sauf sain
    ⟨fun actif => absurd actif autre, fun _ => ?_, ?_⟩ (by simp [mort])
  · rw [soi, journal]
    simp [nouveauProcessus, valeurFin]
  · rw [soi]
    exact .inl rfl

theorem Bilan.entrerConsole {k₁ : Noyau} {a : Indice} {length : UInt32} (actif : k.pidActif = some a)
    (appel : e = .appel (.consRead length))
    (entree : ∃ console l, k₁ = { k with console := console } ∧ Chainee console.attente l ∧
      l.Perm (a :: lecteurs k))
    (change : Change (k₁.suspend a (.consReadAttente length)) a .bloqueSurEntreeSortie k') :
    Bilan e k k' := by
  obtain ⟨console, l, rfl, chainee, perm⟩ := entree
  have actifA := sain.actif a actif
  have tient : Tient { k with console := console } := ⟨sain.actif, sain.valeurs, sain.drapeau⟩
  have prepare : Conserve (fun _ => False) { k with console := console }
      (({ k with console := console } : Noyau).suspend a (.consReadAttente length)) :=
    .suspend _ a _
  have conserve : Conserve (· = a) { k with console := console } k' :=
    .trans (.suspend _ a _) (.of_change change (.inl rfl))
  have hors := sain.console.hors (i := a) (by simp [actifA])
  have chainee' : Chainee k'.console.attente l := conserve.attente ▸ chainee
  have liste := lecteurs_of_chainee chainee'
  refine ⟨conserve.pidActif, fun j => ?_, ⟨liste.symm ▸ chainee', fun j mem => ?_⟩,
    fun _ _ => .inr ⟨length, appel⟩⟩
  · by_cases meme : j = a
    · rw [meme]
      have tenu := change.tenu prepare tient (by simp)
      exact ⟨tenu.actif, tenu.valeur, tenu.drapeau⟩
    · have tenu := conserve.tenu tient meme
      exact ⟨tenu.actif, tenu.valeur, tenu.drapeau⟩
  · rw [liste, perm.mem_iff, List.mem_cons] at mem
    rcases mem with rfl | mem
    · rw [change.etat, if_pos rfl]
    · have autre : j ≠ a := fun meme => hors (meme ▸ mem)
      rw [change.etat, if_neg autre, Noyau.suspend_table_ne _ _ autre]
      exact sain.console.bloques j mem

theorem Bilan.sortirConsole {k₁ k₂ : Noyau} {p : Indice}
    (sortie : ∃ console l, k₁ = { k with console := console } ∧ Chainee console.attente l ∧
      lecteurs k = l ++ [p])
    (change : Change k₁ p .activable k₂) (neutre : Neutre k₂ k') : Bilan e k k' := by
  obtain ⟨console, l, rfl, chainee, queue⟩ := sortie
  have lecteur := sain.console.bloques p (by simp [queue])
  have tient : Tient { k with console := console } := ⟨sain.actif, sain.valeurs, sain.drapeau⟩
  have nodup := sain.console.chainee.nodup
  rw [queue, List.nodup_append] at nodup
  have conserve : Conserve (· = p) { k with console := console } k' :=
    .trans (.of_change change (.inl rfl)) (.of_neutre neutre)
  have tenuP : Tenu { k with console := console } k₂ p :=
    change.tenu (.refl _ _) tient fun actif => by
      rw [sain.actif p actif] at lecteur
      cases lecteur
  have tenu : ∀ j, Tenu { k with console := console } k' j := by
    intro j
    by_cases meme : j = p
    · subst meme
      have suit : Conserve (fun _ => False) k₂ k' := .of_neutre neutre
      refine ⟨fun actif => ?_, fun vivant => ?_, ?_⟩
      · rw [neutre.table]
        exact tenuP.actif actif
      · rw [suit.valeur j id, neutre.table]
        exact tenuP.valeur (neutre.table ▸ vivant)
      · rw [neutre.table]
        exact tenuP.drapeau
    · exact conserve.tenu tient meme
  have liste : lecteurs { k with console := console } = l := lecteurs_of_chainee chainee
  refine ⟨conserve.pidActif, fun j => ⟨(tenu j).actif, (tenu j).valeur, (tenu j).drapeau⟩, ?_,
    fun j mem => .inl ?_⟩
  · refine conserve.console ⟨liste.symm ▸ chainee, fun j mem => ?_⟩ fun j mem meme => ?_
    · rw [liste] at mem
      exact sain.console.bloques j (queue ▸ List.mem_append_left _ mem)
    · rw [liste] at mem
      exact nodup.2.2 j mem p (by simp) meme
  · rw [lecteurs_congr conserve.attente, liste] at mem
    rw [queue]
    exact List.mem_append_left _ mem

end Cases

theorem EffetProcessus.bilan {e : Evenement} {k k' : Noyau} (sain : Sain k) (propre : KillPropre k e)
    (effet : EffetProcessus e k k') : Bilan e k k' := by
  cases effet with
  | neutre avant neutre => exact (Conserve.of_neutre neutre).bilan sain
  | @rendre k₁ a s actif avant apres neutre =>
      exact ((Conserve.of_neutre neutre).trans (.suspend k₁ a s)).bilan sain
  | @dormir _ a s clock actif nonZero avant apres change =>
      refine change.bilan_bloque sain actif (.trans (.modifie k a ?_) (.suspend _ a s)) (by simp)
      exact ⟨id, .inl rfl, rfl, .inl rfl⟩
  | demarrer prio args code pageDirectory m avant libre change => exact .demarrer sain libre change
  | @tuer _ a pr pid actif avant appel cible nonZero vivant nonZombie fin =>
      have hors : pr ∉ lecteurs k := by
        subst appel
        exact (propre pr cible).2
      have retour : Conserve (· = pr) k (k.renvoie a 0) := .suspend k a _
      have prepare : Conserve (fun _ => False) k (k.renvoie a 0) := .suspend k a _
      have tenu : Tenu k (k.renvoie a 0) pr := prepare.tenu sain.tient id
      have vue : MemeVue k (k.renvoie a 0) := .renvoie k a 0
      have conserve := retour.trans (.of_terminaison fin)
      refine ⟨conserve.pidActif, fun j => ?_,
        conserve.console sain.console fun j mem same => hors (same ▸ mem), conserve.reste⟩
      by_cases meme : j = pr
      · subst meme
        exact fin.tenu (tenu.valeur (by rwa [vue.etat])) tenu.drapeau
      · exact conserve.tenu sain.tient meme
  | @sortir _ a s v actif nonZero avant apres fin =>
      have actifA := sain.actif a actif
      have prepare : Conserve (· = a) k (((k.modifie a fun p =>
          { p with retval := v }).noter (.fin a v)).suspend a s) :=
        .of_prepare (sortie_prepare k a v s) (fun j autre => if_neg (Ne.symm autre))
          fun dehors => absurd rfl dehors
      refine (prepare.trans (.of_terminaison fin)).bilan_sauf sain (fin.tenu ?_ ?_) (by simp [actifA])
      · rw [sortie_soi]
        exact (if_pos rfl).symm
      · rw [sortie_soi]
        exact sain.drapeau a
  | @achever _ a actif nonZero reprise suite fin =>
      have actifA := sain.actif a actif
      have suspendu : Conserve (fun _ => False) k (k.suspend a .termine) := .suspend k a _
      have tenu : Tenu k (k.suspend a .termine) a := suspendu.tenu sain.tient id
      have prepare : Conserve (· = a) k (k.suspend a .termine) := .suspend k a _
      refine (prepare.trans (.of_terminaison fin)).bilan_sauf sain
        (fin.tenu (tenu.valeur ?_) tenu.drapeau) (by simp [actifA])
      simp [actifA]
  | @attendre _ a retvalp actif nonZero avant fils aucun change =>
      refine change.bilan_bloque sain actif (.trans (.modifie k a ?_) (.suspend _ a _)) (by simp)
      exact ⟨id, .inl rfl, rfl, .inl rfl⟩
  | @attendreFils _ a c retvalp actif nonZero avant pere vivant nonZombie change =>
      refine change.bilan_bloque sain actif (.trans (.modifie k a ?_) (.suspend _ a _)) (by simp)
      exact ⟨id, .inl rfl, rfl, .inl rfl⟩
  | @recuperer k₁ _ a c retvalp actif avant pere zombie attend fin =>
      have recolte := recolte_prepare attend c retvalp (k.table c).retval
      have prepare : Conserve (fun _ => False) k (avantRecolte k₁ a c retvalp (k.table c).retval) := by
        refine .of_prepare recolte (fun j _ => ?_) fun _ => ?_
        · rw [recolte_journal attend]
          split <;> rfl
        · rw [recolte_soi attend]
          exact ⟨id, .inl rfl, rfl, .inl rfl⟩
      refine (prepare.trans (.of_termine fin (.inr ⟨?_, rfl⟩))).bilan sain
      exact (recolte.vue.etat c).trans zombie
  | @reclasser k₁ a pr prio oldprio actif avant vivant reclasse =>
      exact ((Conserve.of_reclasse reclasse).trans (.suspend k₁ a _)).bilan sain
  | tic horloge appel avant reveils =>
      have avance : Conserve (fun _ => False) k { k with horloge := horloge } :=
        ⟨rfl, rfl, fun _ _ => rfl, fun _ _ => .refl _⟩
      exact (avance.trans (.of_reveils reveils)).bilan sain
  | entrerConsole length actif nonZero appel avant entree change =>
      exact .entrerConsole sain actif appel entree change
  | sortirConsole avant sortie change neutre => exact .sortirConsole sain sortie change neutre
  | @finReception a actif suite =>
      refine Conserve.bilan (.trans (.modifie k a ?_) (.suspend _ a _)) sain
      exact ⟨id, .inl rfl, rfl, .inr (.inl rfl)⟩

theorem Conserve.finAppelFile {sauf : Indice → Prop} (k : Noyau) (a : Indice) (v : Int) :
    Conserve sauf k (finAppelFile k a v) :=
  .trans (.modifie k a ⟨id, .inl rfl, rfl, .inr (.inl rfl)⟩) (.suspend _ a _)

theorem Conserve.of_eveil {sauf : Indice → Prop} {k k' : Noyau} {i : Indice}
    (change : Change k i .activable k')
    (bloque : (k.table i).etat = .bloqueSurReception ∨ (k.table i).etat = .bloqueSurEnvoi) :
    Conserve sauf k k' := by
  refine .of_change change (.inr ⟨?_, by simp [Passager]⟩)
  rcases bloque with etat | etat <;> simp [Passager, etat]

theorem EffetFile.bilan {e : Evenement} {k k' : Noyau} (sain : Sain k) (effet : EffetFile e k k') :
    Bilan e k k' := by
  cases effet with
  | @creer a fid count nbFiles actif avant appel positif libre =>
      have creee : Conserve (fun _ => False) k (({ k.modifieFile fid (nouvelleFile count) with
          nbFiles := nbFiles } : Noyau).noter (.creation fid)) :=
        ⟨rfl, rfl, fun _ _ => rfl, fun _ _ => .refl _⟩
      exact (creee.trans (.suspend _ a _)).bilan sain
  | @bloquerReception k₁ a fid actif nonZero appel vide drapeau change =>
      have bloque : Bilan e k k₁ :=
        change.bilan_bloque sain actif (.trans (.modifieFile k fid _) (.suspend _ a _)) (by simp)
      exact ⟨bloque.pidActif, fun i => ⟨(bloque.tenu i).actif, (bloque.tenu i).valeur,
        (bloque.tenu i).drapeau⟩, ⟨bloque.console.chainee, bloque.console.bloques⟩, bloque.entree⟩
  | @bloquerEnvoi k₁ a fid message actif nonZero appel neuf plein drapeau change =>
      have bloque : Bilan e k k₁ :=
        change.bilan_bloque sain actif (.trans (.modifieFile k fid _) (.suspend _ a _)) (by simp)
      exact ⟨bloque.pidActif, fun i => ⟨(bloque.tenu i).actif, (bloque.tenu i).valeur,
        (bloque.tenu i).drapeau⟩, ⟨bloque.console.chainee, bloque.console.bloques⟩, bloque.entree⟩
  | @prendre a fid message reste actif appel drapeau tete sans =>
      exact Conserve.bilan (.trans (.noterFile k fid _ fun _ _ => rfl) (.finAppelFile _ a 0)) sain
  | @prendreReveil k₁ a fid message reste q actif nonZero appel drapeau tete plein dernier change =>
      have etat := (sain.files.emetteurs fid q (last_mem dernier)).1
      have autre : q.pid ≠ a := sain.emetteur_passif actif (last_mem dernier)
      have pris : Conserve (fun _ => False) k (((k.modifieFile fid fun f =>
          { f with
            file := reste, nbelem := f.nbelem - 1
            listeProcBloqueEnvoi := f.listeProcBloqueEnvoi.dropLast }).noter
          (.reception a fid message)).suspend a .preceiveFin) :=
        .trans (.noterFile k fid _ fun _ _ => rfl) (.suspend _ a _)
      have eveil := pris.trans (.of_eveil change (.inr (by
        rw [Noyau.suspend_table_ne _ _ autre, Noyau.noter_table, Noyau.modifieFile_table, etat])))
      exact (eveil.trans (.modifieFile k₁ fid _)).bilan sain
  | @deposer a fid message actif appel place drapeau sans =>
      exact Conserve.bilan (.trans (.noterFile k fid _ fun _ _ => rfl) (.finAppelFile _ a 0)) sain
  | @deposerReveil k₁ a fid message q actif appel place drapeau vide dernier change =>
      have etat := (sain.files.recepteurs fid q (last_mem dernier)).1
      have depose : Conserve (fun _ => False) k ((k.modifieFile fid fun f =>
          { f with
            file := f.file ++ [message], nbelem := f.nbelem + 1
            listeProcBloqueReception := f.listeProcBloqueReception.dropLast }).noter
          (.envoi a fid message)) := .noterFile k fid _ fun _ _ => rfl
      have eveil := depose.trans (.of_eveil change (.inl etat))
      exact ((eveil.trans (.modifieFile k₁ fid _)).trans (.finAppelFile _ a 0)).bilan sain
  | @refuser a fid actif appel drapeau => exact (Conserve.finAppelFile k a (-1)).bilan sain
  | @abandonner a fid message actif reprise suite plein =>
      exact (Conserve.suspend k a _).bilan sain
  | @vider k₁ a fid n actif avant appel ouverte vide =>
      exact ((Conserve.of_vide vide sain.files).trans (.suspend k₁ a _)).bilan sain
  | @supprimer k₁ a fid n nbFiles actif avant appel ouverte vide =>
      have supprimee : Conserve (fun _ => False) k₁ (({ k₁.modifieFile fid (fun f =>
          { f with size := 0, statut := false }) with nbFiles := nbFiles } : Noyau).noter
          (.destruction fid)) := ⟨rfl, rfl, fun _ _ => rfl, fun _ _ => .refl _⟩
      exact (((Conserve.of_vide vide sain.files).trans supprimee).trans (.suspend _ a _)).bilan sain

end ProjetSysteme.Invariant
