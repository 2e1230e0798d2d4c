/- Invariant/ConsoleRuns
   source: kernel/console.c
   digest: What each event does to the keyboard buffer, to the processes in cons_read and to the lines they got. -/

import ProjetSysteme.Invariant.PageRuns
import ProjetSysteme.Invariant.ChannelRuns

set_option autoImplicit false
set_option relaxedAutoImplicit false

namespace ProjetSysteme.Invariant

open Kernel Library.Outcome

def EnLecture (k : Noyau) (j : Indice) (length : UInt32) : Prop :=
  (k.table j).suite = .consReadAttente length ∧ Survit k j



def ligneLue : Fait → Option (List Int8)
  | .lecture _ ligne => some ligne
  | _ => none

def lectures (k : Noyau) : List (List Int8) := (k.journal.filterMap ligneLue).reverse

theorem lectures_marques (k : Noyau) : lectures k = ((marques k).filterMap ligneLue).reverse := by
  rw [lectures, marques, List.filterMap_filter]
  congr 1
  refine List.filterMap_congr fun f _ => ?_
  cases f <;> rfl

theorem lectures_of_marques {k k' : Noyau} (marques : marques k' = marques k) : lectures k' = lectures k := by
  rw [lectures_marques, marques, lectures_marques]

theorem HorsConsole.non_lecture {k : Noyau} {j : Indice} {length : UInt32}
    (hors : HorsConsole (k.table j).suite) : ¬ EnLecture k j length := by
  rintro ⟨suite, -⟩
  rw [suite] at hors
  exact hors

def ActifHors (k : Noyau) : Prop := ∀ a, k.pidActif = some a → HorsConsole (k.table a).suite

/-- What an event does to the keyboard buffer, to the readers and to the lines read. -/
inductive Clavier (e : Evenement) (k : Noyau) : Noyau → Prop
  | calme {k' : Noyau} (sansTouche : ∀ c, e ≠ .touche c) (saisie : saisieDe k'.console = saisieDe k.console) (lues : lectures k' = lectures k)
      (lecture : ∀ j n, EnLecture k' j n ↔ EnLecture k j n) : Clavier e k k'
  | entrer {k' : Noyau} {a : Indice} {length : UInt32} (appel : e = .appel (.consRead length))
      (positif : length > 0) (hors : ∀ n, ¬ EnLecture k a n)
      (fin : k'.console.indexFinLigne = 0) (index : k'.console.index = k.console.index)
      (tampon : k'.console.tampon = k.console.tampon)
      (attente : ∀ j, j ∈ lecteurs k' ↔ j = a ∨ j ∈ lecteurs k) (lues : lectures k' = lectures k)
      (lecture : ∀ j n, j ≠ a → (EnLecture k' j n ↔ EnLecture k j n)) : Clavier e k k'
  | valider {k' : Noyau} (touche : e = .touche 13)
      (fin : k'.console.indexFinLigne = k.console.index) (index : k'.console.index = 0)
      (tampon : k'.console.tampon = k.console.tampon) (attente : lecteurs k' = (lecteurs k).dropLast)
      (lues : lectures k' = lectures k) (lecture : ∀ j n, EnLecture k' j n ↔ EnLecture k j n) :
      Clavier e k k'
  | frapper {k' : Noyau} {c : Int8} (touche : e = .touche c) (autre : c ≠ 13)
      (frappe : keyboardData k c = .ok k') (lues : lectures k' = lectures k)
      (lecture : ∀ j n, EnLecture k' j n ↔ EnLecture k j n) : Clavier e k k'
  | lire {k' : Noyau} {a : Indice} {length : UInt32} (reprise : e = .reprise)
      (lecteur : EnLecture k a length) (servi : a ∉ lecteurs k)
      (fin : k'.console.indexFinLigne = min k.console.indexFinLigne length.toNat)
      (index : k'.console.index = k.console.index) (tampon : k'.console.tampon = k.console.tampon)
      (attente : lecteurs k' = lecteurs k)
      (lues : lectures k' = lectures k ++
        [(List.range (min k.console.indexFinLigne length.toNat)).map k.console.tampon])
      (lecture : ∀ j n, EnLecture k' j n ↔ EnLecture k j n ∧ j ≠ a) : Clavier e k k'

section Pas

variable {env : Env} {e : Evenement} {k k' : Noyau}

theorem MemeAnnexe.lecture {k₁ : Noyau} (meme : MemeAnnexe k.pidActif k₁ k') (libre : ActifHors k)
    {j : Indice} (suite : (k₁.table j).suite = (k.table j).suite) (survit : Survit k' j ↔ Survit k j)
    (n : UInt32) : EnLecture k' j n ↔ EnLecture k j n := by
  rcases meme.suite j with egale | ⟨actif, hors⟩
  · rw [EnLecture, EnLecture, egale, suite, survit]
  · exact iff_of_false hors.non_lecture (libre j actif).non_lecture

theorem Mourant.actif {z : Indice} (mourant : Mourant k z e) (sans : sansKill e = true) :
    k.pidActif = some z := by
  unfold Mourant at mourant
  split at mourant
  · exact mourant
  · exact mourant
  · cases sans
  · exact mourant.1
  · exact mourant.elim

theorem clavier_demarrer (sain : Sain k) (population : Population e k k') (libre : ActifHors k)
    (sansTouche : ∀ c, e ≠ .touche c) {pid : Indice} {prio : Int} {args code pageDirectory : Mot}
    {m : Memoire} (disponible : pidLibre k = some pid)
    (meme : MemeAnnexe k.pidActif ((installerProcessus k pid prio args code pageDirectory m).noter
      (.demarrage k.pidActif pid)) k') : Clavier e k k' := by
  obtain ⟨mort, autre⟩ := sain.libre disponible
  set k₁ := installerProcessus k pid prio args code pageDirectory m with defk₁
  have journal : k₁.journal = k.journal := by
    rw [defk₁, installerProcessus_noyau]
  have faits : bornes k' = .demarrage k.pidActif pid :: bornes k := by
    rw [meme.bornes, bornes, Noyau.noter, journal]
    rfl
  have lues : lectures k' = lectures k := by
    rw [lectures_of_marques meme.marques, lectures, Noyau.noter, journal]
    rfl
  have saisie : saisieDe k₁.console = saisieDe k.console := by
    have dehors := sain.console.hors (i := pid) (by rw [mort]; exact EtatProcessus.noConfusion)
    rw [defk₁, installerProcessus_noyau, saisieDe, saisieDe]
    simp only [sain.console.chainee.couper dehors]
  obtain ⟨_, _, survit⟩ := population.of_demarrage faits
  refine .calme sansTouche (meme.saisie.trans saisie) lues fun j n => ?_
  by_cases neuf : j = pid
  · subst neuf
    have debut : (k₁.table j).suite = .debut := by
      rw [defk₁, installerProcessus_table_self k prio args code pageDirectory m autre]
      rfl
    have hors : HorsConsole (k'.table j).suite := by
      rcases meme.suite j with egale | ⟨actif, _⟩
      · rw [egale]
        change HorsConsole (k₁.table j).suite
        rw [debut]
        trivial
      · exact absurd actif autre
    exact iff_of_false hors.non_lecture fun lecture => lecture.2.1 mort
  · refine meme.lecture libre ?_ (survit j neuf) n
    rw [Noyau.noter_table, defk₁, installerProcessus_table_ne k prio args code pageDirectory m neuf]

theorem clavier_finir (sans : sansKill e = true) (population : Population e k k')
    (libre : ActifHors k) (sansTouche : ∀ c, e ≠ .touche c) {z : Indice} {m : Memoire}
    (meme : MemeAnnexe k.pidActif (({ k with memoire := m } : Noyau).noter (.terminaison z)) k') :
    Clavier e k k' := by
  obtain ⟨mourant, _, fini, survit⟩ := population.of_terminaison (meme.bornes.trans rfl)
  have lues : lectures k' = lectures k := (lectures_of_marques meme.marques).trans rfl
  refine .calme sansTouche meme.saisie lues fun j n => ?_
  by_cases parti : j = z
  · subst parti
    exact iff_of_false (fun lecture => fini lecture.2)
      (libre j (mourant.actif sans)).non_lecture
  · exact meme.lecture libre rfl (survit j parti) n

theorem clavier_entrer (sain : Sain k) (population : Population e k k') (libre : ActifHors k)
    {a : Indice} {length : UInt32} {attente : Library.Ring.Links MaillonConsRead} (actif : k.pidActif = some a)
    (appel : e = .appel (.consRead length)) (positif : length > 0)
    (entree : entrerConsRead k a = .ok attente)
    (meme : MemeAnnexe none (({ k with
      console := { k.console with indexFinLigne := 0, attente := attente } } : Noyau).suspend a
        (.consReadAttente length)) k') : Clavier e k k' := by
  have survit := population.survit_of_bornes (meme.bornes.trans rfl)
  obtain ⟨liens, l, entree', chainee, perm⟩ := entrerConsRead_ok sain actif k rfl
  cases entree.symm.trans entree'
  have saisie := meme.saisie
  simp only [saisieDe, Prod.mk.injEq] at saisie
  obtain ⟨index, fin, tampon, liens⟩ := saisie
  refine .entrer appel positif (fun n => (libre a actif).non_lecture) fin index tampon (fun j => ?_)
    (lectures_of_marques meme.marques) fun j n autre => ?_
  · rw [lecteurs_of_chainee (liens.symm ▸ chainee : Chainee k'.console.attente l), perm.mem_iff, List.mem_cons]
  · have suite : (k'.table j).suite = (k.table j).suite := by
      rw [(meme.suite j).resolve_right (fun change => by cases change.1), Noyau.suspend_table,
        if_neg autre]
    rw [EnLecture, EnLecture, suite, survit j]

theorem EffetAnnexe.clavier (sain : Sain k) (sans : sansKill e = true) (population : Population e k k')
    (libre : ActifHors k) (sansTouche : ∀ c, e ≠ .touche c) (effet : EffetAnnexe env e k k') :
    Clavier e k k' := by
  cases effet with
  | meme meme =>
      refine .calme sansTouche meme.saisie (lectures_of_marques meme.marques) fun j n => ?_
      exact meme.lecture libre rfl (population.survit_of_bornes meme.bornes j) n
  | demarrer disponible cree meme =>
      exact clavier_demarrer sain population libre sansTouche disponible meme
  | finir mourant avant vue nonVeille fini rendues meme =>
      exact clavier_finir sans population libre sansTouche meme
  | entrer actif appel positif entree meme =>
      exact clavier_entrer sain population libre actif appel positif entree meme
  | valider touche sortie meme => exact absurd touche (sansTouche 13)
  | frapper touche autre frappe => exact absurd touche (sansTouche _)
  | lire actif reprise suite lu =>
      have hors := libre _ actif
      rw [suite] at hors
      exact hors.elim

theorem touche_clavier (sain : Sain k) {c : Int8} (population : Population (.touche c) k k')
    (frappe : keyboardData k c = .ok k') : Clavier (.touche c) k k' := by
  by_cases entree : c = 13
  · subst entree
    obtain ⟨premier, k₁, sortie, meme⟩ := keyboardData_entree.of_ok frappe
    obtain ⟨_, noyau⟩ := sortirConsRead_annexe sortie
    have bornes : bornes k' = bornes k := by
      rw [meme.bornes, noyau]
      rfl
    have survit := population.survit_of_bornes bornes
    have saisie := meme.saisie
    simp only [saisieDe, Prod.mk.injEq] at saisie
    obtain ⟨index, fin, tampon, liens⟩ := saisie
    have servi : lecteurs k' = (lecteurs k).dropLast := by
      rw [lecteurs_congr (k := k₁) liens]
      rcases sortirConsRead_ok sain with ⟨vide, run⟩ | ⟨p, liens, l, queue, chainee, run⟩
      · cases sortie.symm.trans run
        rw [vide, List.dropLast_nil]
      · cases sortie.symm.trans run
        rw [lecteurs_of_chainee chainee, queue, List.dropLast_concat]
    refine .valider rfl fin index (tampon.trans (by rw [noyau])) servi ?_ fun j n => ?_
    · rw [lectures_of_marques meme.marques, noyau]
      rfl
    · have suite := (meme.suite j).resolve_right fun change => by cases change.1
      rw [EnLecture, EnLecture, suite, survit j, noyau]
  · have noyau := (keyboardData_possession entree).of_ok frappe
    have faits : bornes k' = bornes k := by
      rw [noyau]
      rfl
    have survit := population.survit_of_bornes faits
    refine .frapper rfl entree frappe (by rw [noyau]; rfl) fun j n => ?_
    rw [EnLecture, EnLecture, survit j, noyau]

theorem pas_touche (sain : Sain k) {c : Int8} (autorise : permis k (.touche c) = true)
    (resultat : pas env k (.touche c) = .ok k') : keyboardData k c = .ok k' := by
  have horsFile : ∀ a, k.pidActif = some a → HorsFile (k.table a).suite := by
    intro a actif
    have suite : (k.table a).suite = .execution := by simpa [permis, actif] using autorise
    rw [suite]
    trivial
  unfold pas at resultat
  split at resultat
  · next k₁ echec =>
      obtain ⟨f, faute⟩ := (keyboardData_ok (e := .touche c) sain horsFile c).of_error echec
      cases faute
  · exact resultat

theorem consReadReprise_lit {a : Indice} {length : UInt32} (etat : (k.table a).etat = .actif) :
    consReadReprise k a length = .ok (((({ k with console := { k.console with
      indexFinLigne := min k.console.indexFinLigne length.toNat } } : Noyau).noter
        (.lecture a ((List.range (min k.console.indexFinLigne length.toNat)).map k.console.tampon))).renvoie a
          (min k.console.indexFinLigne length.toNat : Nat))) := by
  rw [consReadReprise, if_neg (by rw [etat]; exact EtatProcessus.noConfusion)]

theorem reprise_lit {a : Indice} {length : UInt32} (actif : k.pidActif = some a)
    (suite : (k.table a).suite = .consReadAttente length) (etat : (k.table a).etat = .actif) :
    pas env k .reprise = consReadReprise k a length := by
  have run : executer env k .reprise = consReadReprise k a length := by
    simp only [executer, actif, reprendre, suite]
  rw [pas, run, consReadReprise_lit etat]

theorem Sain.actif_servi (sain : Sain k) {a : Indice} (actif : k.pidActif = some a) :
    Survit k a ∧ a ∉ lecteurs k := by
  have etat := sain.actif a actif
  refine ⟨by rw [Survit, etat]; decide, sain.console.hors ?_⟩
  rw [etat]
  exact EtatProcessus.noConfusion

theorem lire_clavier (sain : Sain k) {a : Indice} {length : UInt32} (actif : k.pidActif = some a)
    (suite : (k.table a).suite = .consReadAttente length) (resultat : pas env k e = .ok k')
    (reprise : e = .reprise) : Clavier e k k' := by
  have etat := sain.actif a actif
  obtain ⟨survit, servi⟩ := sain.actif_servi actif
  rw [reprise, reprise_lit actif suite etat, consReadReprise_lit etat] at resultat
  cases resultat
  refine .lire reprise ⟨suite, survit⟩ servi rfl rfl rfl rfl ?_ fun j n => ?_
  · rw [lectures, lectures, ← List.reverse_cons]
    rfl
  · rw [EnLecture, EnLecture, Survit, Noyau.renvoie_etat, Noyau.renvoie, Noyau.suspend_table]
    by_cases meme : j = a
    · simp [meme]
    · rw [if_neg meme]
      exact (and_iff_left meme).symm

theorem pas_clavier (sain : Sain k) (autorise : permis k e = true) (sans : sansKill e = true)
    (resultat : pas env k e = .ok k') : Clavier e (enregistrer k e) k' := by
  have etape := (sain.pas env autorise (killPropre_of_sansKill sans) resultat).1
  have population := etape.population sain
  by_cases frappe : ∃ c, e = .touche c
  · obtain ⟨c, rfl⟩ := frappe
    exact touche_clavier sain population (pas_touche sain autorise resultat)
  simp only [not_exists] at frappe
  by_cases libre : ActifHors k
  · have libre' : ActifHors (enregistrer k e) := by
      rcases enregistrer_cas k e with meme | ⟨a, x, _, _, note⟩
      · rwa [meme]
      · rwa [note]
    exact (pas_annexe env sain autorise resultat).clavier (sain.enregistrer e) sans population libre' frappe
  · simp only [ActifHors, not_forall] at libre
    obtain ⟨a, actif, dedans⟩ := libre
    obtain ⟨length, suite⟩ : ∃ length, (k.table a).suite = .consReadAttente length := by
      cases suite : (k.table a).suite with
      | consReadAttente length => exact ⟨length, rfl⟩
      | _ =>
          rw [suite] at dedans
          exact absurd trivial dedans
    have reprise : e = .reprise := by
      cases e with
      | reprise => rfl
      | _ => simp [permis, actif, suite] at autorise
    subst reprise
    exact lire_clavier sain actif suite resultat rfl

end Pas

end ProjetSysteme.Invariant
