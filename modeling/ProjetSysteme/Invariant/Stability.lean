/- Invariant/Stability
   digest: What every kernel primitive keeps: coherent tables, a forest, a process 0 that can run. -/

import ProjetSysteme.Invariant.Scheduling
import ProjetSysteme.Invariant.Termination

set_option autoImplicit false
set_option relaxedAutoImplicit false

namespace ProjetSysteme.Invariant

open Kernel Library.PriorityList Library.Outcome

/-- The idle process only calls `start`, so these are the only points it can be at. -/
def VeilleSuite (s : Suite) : Prop :=
  match s with
  | .execution | .debut | .retour _ => True
  | _ => False

/-- What holds inside the primitives: the tables are valid and process 0 can run. -/
structure Interne (k : Noyau) : Prop where
  valide : Valide k
  veille : Courant (k.table 0).etat
  suite : VeilleSuite (k.table 0).suite

structure EnCours (k : Noyau) (a : Indice) : Prop where
  interne : Interne k
  pidActif : k.pidActif = some a
  courant : Courant (k.table a).etat

structure Depart (k : Noyau) : Prop where
  valide : Valide k
  pidActif : k.pidActif = none
  mort : ∀ i, (k.table i).etat = .mort

def Stable (k : Noyau) : Prop := Depart k ∨ ∃ a, EnCours k a

def Permis : Arret → Prop
  | .faute f => f ≠ .assertionMaillon
  | .confirme k => Interne k ∨ k.pidActif = none

theorem EnCours.vivant {k : Noyau} {a : Indice} (cours : EnCours k a) :
    (k.table a).etat ≠ .mort := cours.courant.simple_ne (by simp) (by simp)

theorem Interne.transport {k k' : Noyau} (vue : MemeVue k k')
    (suite : VeilleSuite (k'.table 0).suite) (interne : Interne k) : Interne k' where
  valide := interne.valide.transport vue
  veille := by rw [vue.etat]; exact interne.veille
  suite := suite

theorem EnCours.transport {k k' : Noyau} {a : Indice} (vue : MemeVue k k')
    (suite : VeilleSuite (k'.table 0).suite) (cours : EnCours k a) : EnCours k' a where
  interne := cours.interne.transport vue suite
  pidActif := vue.pidActif.trans cours.pidActif
  courant := by rw [vue.etat]; exact cours.courant

theorem Interne.modifie {k : Noyau} (interne : Interne k) (i : Indice) {f : Processus → Processus}
    (garde : ∀ p, (f p).pid = p.pid ∧ (f p).etat = p.etat ∧ (f p).prio = p.prio ∧
      (f p).pere = p.pere ∧ (f p).fils = p.fils)
    (suite : ∀ p, i = 0 → VeilleSuite p.suite → VeilleSuite (f p).suite) :
    Interne (k.modifie i f) := by
  refine interne.transport (.modifie k i garde) ?_
  rw [Noyau.modifie_table]
  split
  · next zero => exact suite _ zero.symm interne.suite
  · exact interne.suite

theorem Interne.suspend {k : Noyau} (interne : Interne k) (i : Indice) {s : Suite}
    (suite : i = 0 → VeilleSuite s) : Interne (k.suspend i s) :=
  interne.modifie i (fun _ => ⟨rfl, rfl, rfl, rfl, rfl⟩) fun _ zero _ => suite zero

theorem EnCours.modifie {k : Noyau} {a : Indice} (cours : EnCours k a) (i : Indice)
    {f : Processus → Processus}
    (garde : ∀ p, (f p).pid = p.pid ∧ (f p).etat = p.etat ∧ (f p).prio = p.prio ∧
      (f p).pere = p.pere ∧ (f p).fils = p.fils)
    (suite : ∀ p, i = 0 → VeilleSuite p.suite → VeilleSuite (f p).suite) :
    EnCours (k.modifie i f) a where
  interne := cours.interne.modifie i garde suite
  pidActif := cours.pidActif
  courant := by rw [(MemeVue.modifie k i garde).etat]; exact cours.courant

theorem EnCours.suspend {k : Noyau} {a : Indice} (cours : EnCours k a) (i : Indice) {s : Suite}
    (suite : i = 0 → VeilleSuite s) : EnCours (k.suspend i s) a :=
  cours.modifie i (fun _ => ⟨rfl, rfl, rfl, rfl, rfl⟩) fun _ zero _ => suite zero

theorem EnCours.noter {k : Noyau} {a : Indice} (cours : EnCours k a) (f : Fait) :
    EnCours (k.noter f) a :=
  cours.transport (.noter k f) cours.interne.suite

theorem Interne.of_table {k k' : Noyau} (interne : Interne k) (table : k'.table = k.table)
    (activables : k'.activables = k.activables) (endormis : k'.endormis = k.endormis)
    (pidActif : k'.pidActif = k.pidActif) : Interne k' :=
  interne.transport (.of_table table activables endormis pidActif) (table ▸ interne.suite)

theorem EnCours.of_table {k k' : Noyau} {a : Indice} (cours : EnCours k a)
    (table : k'.table = k.table) (activables : k'.activables = k.activables)
    (endormis : k'.endormis = k.endormis) (pidActif : k'.pidActif = k.pidActif) : EnCours k' a :=
  cours.transport (.of_table table activables endormis pidActif) (table ▸ cours.interne.suite)

def Ordonne (k : Noyau) : Prop := (∃ a, EnCours k a) ∧ Prioritaire k

theorem ordonnancer_stable {k : Noyau} (interne : Interne k) : Sat (ordonnancer k) Ordonne Permis := by
  refine (ordonnancer_sat interne.valide.coherent).mono (fun k' ord => ?_) ?_
  · have interne' : Interne k' := by
      refine ⟨ord.valide interne.valide, (ord.courant_iff 0).mpr interne.veille, ?_⟩
      rw [ord.champs]
      exact interne.suite
    refine ⟨?_, ord.prioritaire⟩
    by_cases vide : k.activables = []
    · rw [ord.vide vide] at interne' ⊢
      have actif : (k.table 0).etat = .actif := by
        refine interne.veille.resolve_right fun activable => ?_
        have := (interne.valide.coherent.activables_mem 0).mpr activable
        rw [vide] at this
        cases this
      exact ⟨0, interne, interne.valide.coherent.actif_seul 0 actif, interne.veille⟩
    · obtain ⟨a, pidActif, actif⟩ := ord.elu vide
      exact ⟨a, interne', pidActif, .inl actif⟩
  · rintro e ⟨k', rfl, auto⟩
    refine .inl ⟨⟨auto.coherent, ?_⟩, ?_, ?_⟩
    · exact interne.valide.famille.congr (fun j => by rw [auto.table]) (fun j => by rw [auto.table])
        fun j => by rw [auto.table]
    · rw [auto.table]
      exact interne.veille
    · rw [auto.table]
      exact interne.suite

def Change (k : Noyau) (pr : Indice) (e : EtatProcessus) (k' : Noyau) : Prop :=
  (k.table pr).etat ≠ .mort ∧
    ((k.table pr).etat = e ∧ k' = k ∨ (k.table pr).etat ≠ e ∧ k' = changeEtat k pr e)

theorem definirEtat_simple {k : Noyau} (range : Rangement k) (pr : Indice) {e : EtatProcessus}
    (simple : Simple e) :
    Sat (definirEtat k pr e) (Change k pr e)
      fun stop => stop = .confirme k ∧ (k.table pr).etat = .mort := by
  by_cases mort : (k.table pr).etat = .mort
  · rw [definirEtat_mort_confirme range mort]
    exact ⟨rfl, mort⟩
  · by_cases meme : (k.table pr).etat = e
    · rw [definirEtat_meme range mort meme]
      exact ⟨mort, .inl ⟨meme, rfl⟩⟩
    · rw [definirEtat_change range simple mort meme]
      exact ⟨mort, .inr ⟨meme, rfl⟩⟩

namespace Change

variable {k k' : Noyau} {pr : Indice} {e : EtatProcessus}

theorem etat (change : Change k pr e k') (j : Indice) :
    (k'.table j).etat = if j = pr then e else (k.table j).etat := by
  obtain ⟨_, ⟨meme, rfl⟩ | ⟨_, rfl⟩⟩ := change
  · split
    · next estPr => rw [estPr, meme]
    · rfl
  · exact changeEtat_etat k pr j e

theorem champs (change : Change k pr e k') (j : Indice) :
    k'.table j = { k.table j with etat := (k'.table j).etat } := by
  obtain ⟨_, ⟨meme, rfl⟩ | ⟨_, rfl⟩⟩ := change
  · rfl
  · exact changeEtat_champs k pr j e

theorem pidActif (change : Change k pr e k') : k'.pidActif = k.pidActif := by
  obtain ⟨_, ⟨meme, rfl⟩ | ⟨_, rfl⟩⟩ := change <;> rfl

theorem valide (change : Change k pr e k') (simple : Simple e) (valide : Valide k) : Valide k' := by
  obtain ⟨vivant, ⟨meme, rfl⟩ | ⟨_, rfl⟩⟩ := change
  · exact valide
  · exact changeEtat_valide valide simple vivant

theorem interne (change : Change k pr e k') (simple : Simple e) (interne : Interne k)
    (veille : pr = 0 → Courant e) : Interne k' where
  valide := change.valide simple interne.valide
  veille := by
    rw [change.etat]
    split
    · next zero => exact veille zero.symm
    · exact interne.veille
  suite := by
    rw [change.champs]
    exact interne.suite

end Change

theorem simple_activable : Simple .activable := ⟨by simp, by simp, by simp⟩

theorem courant_activable : Courant .activable := .inr rfl

theorem reveil_sat {k : Noyau} (interne : Interne k) (pr : Indice) :
    Sat (definirEtat k pr .activable) (fun k' => Change k pr .activable k' ∧ Interne k') Permis := by
  refine (definirEtat_simple interne.valide.coherent.toRangement pr simple_activable).mono
    (fun k' change => ⟨change, change.interne simple_activable interne fun _ => courant_activable⟩) ?_
  rintro e ⟨rfl, _⟩
  exact .inl interne

theorem Change.enCours {k k' : Noyau} {pr a : Indice} (change : Change k pr .activable k')
    (cours : EnCours k a) : EnCours k' a where
  interne := change.interne simple_activable cours.interne fun _ => courant_activable
  pidActif := change.pidActif.trans cours.pidActif
  courant := by
    rw [change.etat]
    split
    · exact courant_activable
    · exact cours.courant

theorem blocage_sat {k : Noyau} (interne : Interne k) {pr : Indice} (nonZero : pr ≠ 0)
    {e : EtatProcessus} (simple : Simple e) :
    Sat (definirEtat k pr e) (fun k' => Change k pr e k' ∧ Interne k') Permis := by
  refine (definirEtat_simple interne.valide.coherent.toRangement pr simple).mono
    (fun k' change => ⟨change, change.interne simple interne fun zero => absurd zero nonZero⟩) ?_
  rintro e ⟨rfl, _⟩
  exact .inl interne

end ProjetSysteme.Invariant
