/- Invariant/Preservation
   digest: Every primitive keeps the invariant of Stability. -/

import ProjetSysteme.Invariant.Installation

set_option autoImplicit false
set_option relaxedAutoImplicit false

namespace ProjetSysteme.Invariant

open Kernel Library.PriorityList Library.Outcome

/-- A primitive keeps the invariant, and keeps the order of priorities if `libre` holds. -/
def Issue (k : Noyau) (libre : Prop) (k' : Noyau) : Prop :=
  Stable k' ∧ (Prioritaire k → libre → Prioritaire k')

theorem Ordonne.issue {k k' : Noyau} {l : Prop} (ordonne : Ordonne k') : Issue k l k' :=
  ⟨.inr ordonne.1, fun _ _ => ordonne.2⟩

theorem EnCours.issue {k k' : Noyau} {a : Indice} {libre : Prop} (cours : EnCours k' a)
    (vue : MemeVue k k') : Issue k libre k' :=
  ⟨.inr ⟨a, cours⟩, fun prioritaire _ => prioritaire.transport vue⟩

section Memoire

variable (env : Env)

def SansMaillon {α : Type} (r : Except Faute α) : Prop :=
  Sat r (fun _ => True) (· ≠ .assertionMaillon)

private theorem rendrePages_sans (l : List Adresse) (m : Memoire) :
    SansMaillon (rendrePages env l m) := by
  induction l generalizing m with
  | nil => trivial
  | cons ad reste ih =>
      rw [rendrePages]
      split
      · exact ih _
      · exact Faute.noConfusion

private theorem desallouePagesProcess_sans (m : Memoire) (pid : Int) :
    SansMaillon (desallouePagesProcess env m pid) := by
  unfold desallouePagesProcess
  split
  · trivial
  · exact Faute.noConfusion
  · exact (rendrePages_sans env _ m).bind fun _ _ => trivial

private theorem allouerBoucle_sans (bloc : Nat) (pid : Int) (perm : Permission) (n i : Nat)
    (m : Memoire) : SansMaillon (allouerBoucle env bloc pid perm n i m) := by
  induction n generalizing i m with
  | zero => trivial
  | succ n ih =>
      rw [allouerBoucle]
      split
      · exact desallouePagesProcess_sans env m pid
      · split
        · exact ih _ _
        · exact Faute.noConfusion

private theorem getNbPages_sans (m : Memoire) (pid : Int) : SansMaillon (getNbPages env m pid) := by
  unfold getNbPages
  split
  · trivial
  · exact Faute.noConfusion
  · trivial

private theorem mapperPages_sans (pid : Int) (pageDirectory : Mot) (n i : Nat) (m : Memoire) :
    SansMaillon (mapperPages env pid pageDirectory n i m) := by
  induction n generalizing i m with
  | zero => trivial
  | succ n ih =>
      rw [mapperPages]
      split
      · next f erreur =>
          rintro rfl
          unfold getAdr at erreur
          split at erreur <;> try split at erreur
          all_goals cases erreur
      · exact Faute.noConfusion
      · exact ih _ _
      · split
        · next f erreur =>
            rintro rfl
            unfold putAddressReel at erreur
            simp only at erreur
            split_ifs at erreur
            cases erreur
        · exact ih _ _

private theorem creerMemoireProcessus_sans (m : Memoire) (pid : Int) (nbPage : Nat) :
    SansMaillon (creerMemoireProcessus env m pid nbPage) := by
  unfold creerMemoireProcessus
  split
  · exact Faute.noConfusion
  · refine Sat.bind (Q := fun _ => True) ?_ fun m _ => ?_
    · unfold allouePagesProcess
      split
      · exact allouerBoucle_sans env _ _ _ _ _ _
      · trivial
    · refine (getNbPages_sans env m pid).bind fun n _ => ?_
      split
      · exact Faute.noConfusion
      · exact (mapperPages_sans env _ _ _ _ _).bind fun _ _ => trivial

theorem avecMemoire_sat {α : Type} {r : Except Faute α} (sans : SansMaillon r) :
    Sat (Noyau.avecMemoire r) (fun _ => True) Permis := by
  cases r with
  | ok a => trivial
  | error f => exact sans

theorem libererMemoire_sat (k : Noyau) (pr : Indice) :
    Sat (libererMemoire env k pr) (fun k' => ∃ m, k' = { k with memoire := m }) Permis :=
  (avecMemoire_sat (desallouePagesProcess_sans env k.memoire _)).bind fun _ _ => ⟨_, rfl⟩

theorem creerMemoireProcessus_sat (m : Memoire) (pid : Int) (nbPage : Nat) :
    Sat (Noyau.avecMemoire (creerMemoireProcessus env m pid nbPage)) (fun _ => True) Permis :=
  avecMemoire_sat (creerMemoireProcessus_sans env m pid nbPage)

end Memoire

theorem Termine.interne {k k' : Noyau} {z : Indice} {e : EtatProcessus} (fin : Termine z e k k')
    (interne : Interne k) (nonZero : z ≠ 0) (vivant : (k.table z).etat ≠ .mort)
    (sorte : e = .mort ∨ e = .zombie) : Interne k' where
  valide := fin.valide interne.valide vivant sorte
  veille := by
    rcases fin.etat (Ne.symm nonZero) with meme | ⟨zombie, _⟩
    · rw [meme]
      exact interne.veille
    · exact absurd zombie (interne.veille.simple_ne (by simp) (by simp))
  suite := by
    rw [fin.donnees 0]
    exact interne.suite

theorem definirEtat_mort_sat {k : Noyau} (interne : Interne k) {z : Indice} (nonZero : z ≠ 0)
    (vivant : (k.table z).etat ≠ .mort) :
    Sat (definirEtat k z .mort) (fun k' => Termine z .mort k k' ∧ Interne k') Permis := by
  obtain ⟨_, k', _, run, fin⟩ := definirEtat_mort interne.valide vivant
  rw [run]
  exact ⟨fin, fin.interne interne nonZero vivant (.inl rfl)⟩

theorem definirEtat_zombie_sat {k : Noyau} (interne : Interne k) {z : Indice} (nonZero : z ≠ 0)
    (vivant : (k.table z).etat ≠ .mort) (nonZombie : (k.table z).etat ≠ .zombie) :
    Sat (definirEtat k z .zombie) (fun k' => Termine z .zombie k k' ∧ Interne k') Permis := by
  obtain ⟨bon, mauvais⟩ := definirEtat_zombie interne.valide vivant nonZombie
  by_cases seul : DernierSeul k (k.table z).fils
  · obtain ⟨_, k', _, run, fin⟩ := bon seul
    rw [run]
    exact ⟨fin, fin.interne interne nonZero vivant (.inr rfl)⟩
  · rw [mauvais seul]
    exact Faute.noConfusion

theorem Valide.pere_ne {k : Noyau} (valide : Valide k) {j p : Indice}
    (vivant : (k.table j).etat ≠ .mort) (pere : (k.table j).pere = some p) : p ≠ j :=
  (valide.pereRetire vivant p pere).1

structure PereReveille (k : Noyau) (pere pr : Indice) (k' : Noyau) : Prop where
  noyau : k' = { k with table := k'.table, activables := k'.activables, endormis := k'.endormis }
  autres : ∀ j, j ≠ pere → k'.table j = k.table j
  champs : k'.table pere = { k.table pere with
    etat := (k'.table pere).etat, attendFils := (k'.table pere).attendFils }
  reveil : (k'.table pere).etat = (k.table pere).etat ∧
      (k'.table pere).attendFils = (k.table pere).attendFils ∧
      ¬ ((k.table pere).etat = .bloqueSurAttenteDUnFils ∧
        ((k.table pere).attendFils = .nImporteLequel ∨
          (k.table pere).attendFils = .ofPid (k.table pr).pid)) ∨
    (k.table pere).etat = .bloqueSurAttenteDUnFils ∧ (k'.table pere).etat = .activable ∧
      ((k.table pere).attendFils = .nImporteLequel ∨
        (k.table pere).attendFils = .ofPid (k.table pr).pid) ∧
      (k'.table pere).attendFils = .ofPid (k.table pr).pid

theorem reveillerPere_ok {k : Noyau} (valide : Valide k) (pere pr : Indice) :
    ∃ k', reveillerPere k pere pr = .ok k' ∧ PereReveille k pere pr k' ∧ Valide k' := by
  unfold reveillerPere
  split
  · next attend =>
      set k₁ := if (k.table pere).attendFils = .nImporteLequel then
          k.modifie pere fun p => { p with attendFils := .ofPid (k.table pr).pid }
        else k with defk₁
      have vue : MemeVue k k₁ := by
        rw [defk₁]
        split
        · exact .modifie k pere fun _ => ⟨rfl, rfl, rfl, rfl, rfl⟩
        · exact .refl k
      have valide₁ := valide.transport vue
      have etat₁ : (k₁.table pere).etat = .bloqueSurAttenteDUnFils := by rw [vue.etat, attend.1]
      have run : definirEtat k₁ pere .activable = .ok (changeEtat k₁ pere .activable) :=
        definirEtat_change valide₁.coherent.toRangement simple_activable (by simp [etat₁])
          (by simp [etat₁])
      refine ⟨_, run, ⟨?_, fun j autre => ?_, ?_, .inr ⟨attend.1, ?_, attend.2, ?_⟩⟩,
        changeEtat_valide valide₁ simple_activable (by simp [etat₁])⟩
      · rw [changeEtat_noyau, defk₁]
        split <;> rfl
      · rw [changeEtat_table, if_neg autre, defk₁]
        split
        · exact Noyau.modifie_table_ne _ _ autre
        · rfl
      · rw [changeEtat_table, if_pos rfl, defk₁]
        split
        · rw [Noyau.modifie_table_self]
        · rfl
      · rw [changeEtat_etat, if_pos rfl]
      · rw [changeEtat_champs, defk₁]
        split
        · rw [Noyau.modifie_table_self]
        · next autre => exact attend.2.resolve_left autre
  · next sans =>
      exact ⟨k, rfl, ⟨rfl, fun _ _ => rfl, rfl, .inl ⟨rfl, rfl, sans⟩⟩, valide⟩

theorem PereReveille.interne {k k' : Noyau} {pere pr : Indice}
    (reveille : PereReveille k pere pr k') (valide' : Valide k') (interne : Interne k) :
    Interne k' := by
  by_cases zero : (0 : Indice) = pere
  · rcases reveille.reveil with ⟨meme, _⟩ | ⟨bloque, _⟩
    · refine ⟨valide', ?_, ?_⟩
      · rw [zero, meme, ← zero]
        exact interne.veille
      · rw [zero, reveille.champs, ← zero]
        exact interne.suite
    · exact absurd (zero ▸ bloque) (interne.veille.simple_ne (by simp) (by simp))
  · refine ⟨valide', ?_, ?_⟩
    · rw [reveille.autres 0 zero]
      exact interne.veille
    · rw [reveille.autres 0 zero]
      exact interne.suite

theorem finirProcessus_sat {k : Noyau} (interne : Interne k) {pr : Indice} (nonZero : pr ≠ 0)
    (vivant : (k.table pr).etat ≠ .mort) (nonZombie : (k.table pr).etat ≠ .zombie) :
    Sat (finirProcessus k pr) Interne Permis := by
  unfold finirProcessus
  split
  · exact (definirEtat_mort_sat interne nonZero vivant).mono (fun _ fin => fin.2) fun _ => id
  · next pere estPere =>
      obtain ⟨k', run, reveille, valide'⟩ := reveillerPere_ok interne.valide pere pr
      have table := reveille.autres pr (interne.valide.pere_ne vivant estPere).symm
      rw [run]
      refine (definirEtat_zombie_sat (reveille.interne valide' interne) nonZero ?_ ?_).mono
        (fun _ fin => fin.2) fun _ => id
      · rwa [table]
      · rwa [table]

theorem terminaison_sat (env : Env) {k : Noyau} (interne : Interne k) {pr : Indice}
    (nonZero : pr ≠ 0) (nonZombie : (k.table pr).etat ≠ .zombie) :
    Sat (terminaisonProcessus env k pr) Ordonne Permis := by
  unfold terminaisonProcessus
  split
  · exact .inl interne
  · next occupe =>
      rw [not_or] at occupe
      have vivant : (k.table pr).etat ≠ .mort := fun mort =>
        occupe.1 ((interne.valide.coherent.pid_mort pr).mpr mort)
      refine (finirProcessus_sat interne nonZero vivant nonZombie).bind fun k' interne' => ?_
      refine (libererMemoire_sat env k' pr).bind ?_
      rintro _ ⟨m, rfl⟩
      exact ordonnancer_stable (interne'.of_table rfl rfl rfl rfl)

theorem waitClock_sat {k : Noyau} (permis : Permis (.confirme k)) (clock : UInt32) (s : Suite) :
    Sat (waitClock k clock s) Ordonne Permis := by
  unfold waitClock
  split
  · exact Faute.noConfusion
  · next actif estActif =>
      split
      · exact Faute.noConfusion
      · next nonZero =>
          have interne : Interne k := permis.resolve_right (by simp [estActif])
          have avant : Interne ((k.modifie actif fun p =>
              { p with waitIemeInterruptionClock := clock }).suspend actif s) := by
            refine Interne.suspend (Interne.modifie interne actif ?_ ?_) actif ?_
            · exact fun _ => ⟨rfl, rfl, rfl, rfl, rfl⟩
            · exact fun _ zero _ => absurd zero nonZero
            · exact fun zero => absurd zero nonZero
          exact (blocage_sat avant nonZero ⟨by simp, by simp, by simp⟩).bind
            fun k' change => ordonnancer_stable change.2

theorem echecConfirme_sat {k : Noyau} (permis : Permis (.confirme k)) :
    Sat (echecConfirme k) Ordonne Permis := waitClock_sat permis _ _

theorem Stable.permis {k : Noyau} (stable : Stable k) : Permis (.confirme k) := by
  rcases stable with depart | ⟨a, cours⟩
  · exact .inr depart.pidActif
  · exact .inl cours.interne

theorem Stable.valide {k : Noyau} (stable : Stable k) : Valide k := by
  rcases stable with depart | ⟨a, cours⟩
  · exact depart.valide
  · exact cours.interne.valide

theorem renvoieActif_suite (k : Noyau) (v : Int) (j : Indice) :
    VeilleSuite (k.table j).suite → VeilleSuite ((k.renvoieActif v).table j).suite := by
  intro suite
  unfold Noyau.renvoieActif
  split
  · exact suite
  · rw [Noyau.renvoie, Noyau.suspend, Noyau.modifie_table]
    split
    · trivial
    · exact suite

theorem pidLibre_mort {k : Noyau} (coherent : Coherent k) {pid : Indice}
    (libre : pidLibre k = some pid) : (k.table pid).etat = .mort :=
  (coherent.pid_mort pid).mp (by simpa using List.find?_some libre)

theorem pidLibre_depart {k : Noyau} (depart : Depart k) : pidLibre k = some 0 := by
  have libre := (depart.valide.coherent.pid_mort 0).mpr (depart.mort 0)
  simp [pidLibre, List.finRange_succ, libre]

theorem start_installe {k : Noyau} (stable : Stable k) {pid : Indice}
    (libre : pidLibre k = some pid) (prio : Int) (args code pageDirectory : Mot) (memoire : Memoire)
    (f : Fait) :
    ∃ k', definirEtat (((installerProcessus k pid prio args code pageDirectory memoire).noter
        f).renvoieActif (pid.val : Int)) pid .activable = .ok k' ∧
      Change (((installerProcessus k pid prio args code pageDirectory memoire).noter
        f).renvoieActif (pid.val : Int)) pid .activable k' ∧ Interne k' := by
  have valide := stable.valide
  have mort := pidLibre_mort valide.coherent libre
  have vivant : ∀ a, k.pidActif = some a → (k.table a).etat ≠ .mort := by
    intro a actif
    rcases stable with depart | ⟨a', cours⟩
    · rw [depart.pidActif] at actif
      cases actif
    · rw [cours.pidActif] at actif
      exact Option.some.inj actif ▸ cours.vivant
  have nonActif : k.pidActif ≠ some pid := fun actif => vivant pid actif mort
  set k₁ := installerProcessus k pid prio args code pageDirectory memoire with defk₁
  set k₂ := (k₁.noter f).renvoieActif (pid.val : Int) with defk₂
  have vue : MemeVue k₁ k₂ := (MemeVue.noter k₁ f).trans (.renvoieActif _ _)
  have valide₁ : Valide k₁ :=
    installerProcessus_valide valide mort prio args code pageDirectory memoire vivant
  have soi : k₁.table pid = nouveauProcessus pid prio k.pidActif args code pageDirectory :=
    installerProcessus_table_self k prio args code pageDirectory memoire nonActif
  have valide₂ := valide₁.transport vue
  have etat₂ : (k₂.table pid).etat = .endormi := by rw [vue.etat, soi]; rfl
  have suite₁ : VeilleSuite (k₁.table 0).suite ∧ (0 = pid ∨ Courant (k₁.table 0).etat) := by
    by_cases zero : (0 : Indice) = pid
    · rw [zero, soi]
      exact ⟨trivial, .inl rfl⟩
    · rw [defk₁, installerProcessus_table_ne k prio args code pageDirectory memoire zero]
      rcases stable with depart | ⟨a, cours⟩
      · rw [pidLibre_depart depart] at libre
        exact absurd (Option.some.inj libre) zero
      · exact ⟨cours.interne.suite, .inr cours.interne.veille⟩
  refine ⟨_, definirEtat_change valide₂.coherent.toRangement simple_activable (by simp [etat₂])
    (by simp [etat₂]), ⟨by simp [etat₂], .inr ⟨by simp [etat₂], rfl⟩⟩, ⟨changeEtat_valide valide₂ simple_activable (by simp [etat₂]), ?_, ?_⟩⟩
  · rw [changeEtat_etat]
    split
    · exact courant_activable
    · next zero =>
        rw [vue.etat]
        exact suite₁.2.resolve_left zero
  · rw [changeEtat_champs]
    exact renvoieActif_suite _ _ _ suite₁.1

theorem start_sat (env : Env) {k : Noyau} (stable : Stable k) (nom : String) (ssize : UInt32)
    (prio : Int) (args : Mot) :
    Sat (start env k nom ssize prio args) (Issue k True) Permis := by
  unfold start
  split
  · refine ⟨?_, fun prioritaire _ => prioritaire.transport (.renvoieActif k _)⟩
    rcases stable with depart | ⟨a, cours⟩
    · rw [Noyau.renvoieActif, depart.pidActif]
      exact .inl depart
    · refine .inr ⟨a, cours.transport (.renvoieActif k _) ?_⟩
      exact renvoieActif_suite k _ 0 cours.interne.suite
  · next pid libre =>
      split
      · exact (waitClock_sat stable.permis _ _).mono (fun _ => Ordonne.issue) fun _ => id
      · split
        · exact Faute.noConfusion
        · refine (creerMemoireProcessus_sat env k.memoire _ _).bind ?_
          rintro ⟨pageDirectory, memoire⟩ _
          obtain ⟨k', run, _, interne⟩ := start_installe stable libre prio args _ pageDirectory
            memoire (.demarrage _ pid)
          simp only
          rw [run]
          exact (ordonnancer_stable interne).mono (fun _ => Ordonne.issue) fun _ => id

theorem EnCours.renvoie {k : Noyau} {a : Indice} (cours : EnCours k a) (i : Indice) (v : Int) :
    EnCours (k.renvoie i v) a :=
  cours.suspend i fun _ => trivial

theorem kill_sat (env : Env) {k : Noyau} {a : Indice} (cours : EnCours k a) (pid : Int) :
    Sat (kill env k a pid) (Issue k True) Permis := by
  unfold kill
  split
  · exact (cours.renvoie a _).issue (.renvoie k a _)
  · next pr _ =>
      split
      · exact (cours.renvoie a _).issue (.renvoie k a _)
      · next garde =>
          simp only [not_or] at garde
          refine (terminaison_sat env (cours.renvoie a 0).interne garde.1 ?_).mono
            (fun _ => Ordonne.issue) fun _ => id
          rw [(MemeVue.renvoie k a 0).etat]
          exact garde.2.2

theorem chercherZombie_sat {k : Noyau} (interne : Interne k) (l : List Indice) :
    Sat (chercherZombie k l) (fun _ => True) Permis := by
  induction l with
  | nil => trivial
  | cons fils reste ih =>
      rw [chercherZombie]
      split
      · trivial
      · split
        · exact .inl interne
        · exact ih

theorem waitpidFin_sat {k : Noyau} {a : Indice} (cours : EnCours k a) (fils : Indice)
    (retvalp : Bool) : Sat (waitpidFin k a fils retvalp) Ordonne Permis := by
  unfold waitpidFin
  split
  · exact .inl cours.interne
  · next zombie =>
      rw [ne_eq, not_not] at zombie
      set k₁ := if retvalp then k.noter (.recuperation a fils (k.table fils).retval) else k
        with defk₁
      have cours₁ : EnCours k₁ a := by
        rw [defk₁]
        split
        · exact cours.noter _
        · exact cours
      have zombie₁ : (k₁.table fils).etat = .zombie := by
        rw [defk₁]
        split <;> exact zombie
      have cours₂ := cours₁.renvoie a (fils.val : Int)
      have zombie₂ : ((k₁.renvoie a (fils.val : Int)).table fils).etat = .zombie := by
        rw [(MemeVue.renvoie k₁ a _).etat, zombie₁]
      have nonZero : fils ≠ 0 := by
        rintro rfl
        exact cours.interne.veille.simple_ne (by simp) (by simp) zombie
      exact (definirEtat_mort_sat cours₂.interne nonZero (by simp [zombie₂])).bind
        fun k' fin => ordonnancer_stable fin.2

theorem waitpid_sat {k : Noyau} {a : Indice} (cours : EnCours k a) (nonZero : a ≠ 0) (pid : Int)
    (retvalp : Bool) : Sat (waitpid k a pid retvalp) (Issue k True) Permis := by
  -- blocking, with `attend_fils` set to the request
  have attendre : ∀ (attend : AttendFils) (s : Suite),
      Sat (definirEtat ((k.modifie a fun p => { p with attendFils := attend }).suspend a s) a
        .bloqueSurAttenteDUnFils >>= ordonnancer) (Issue k True) Permis := by
    intro attend s
    have avant : Interne ((k.modifie a fun p => { p with attendFils := attend }).suspend a s) := by
      refine Interne.suspend (Interne.modifie cours.interne a ?_ ?_) a ?_
      · exact fun _ => ⟨rfl, rfl, rfl, rfl, rfl⟩
      · exact fun _ zero _ => absurd zero nonZero
      · exact fun zero => absurd zero nonZero
    refine (blocage_sat avant nonZero ⟨by simp, by simp, by simp⟩).bind fun k' change => ?_
    exact (ordonnancer_stable change.2).mono (fun _ => Ordonne.issue) fun _ => id
  have finir : ∀ fils, Sat (waitpidFin k a fils retvalp) (Issue k True) Permis := fun fils =>
    (waitpidFin_sat cours fils retvalp).mono (fun _ => Ordonne.issue) fun _ => id
  unfold waitpid
  split
  · exact (cours.renvoie a _).issue (.renvoie k a _)
  · split
    · refine (chercherZombie_sat cours.interne _).bind fun pidFils _ => ?_
      cases pidFils with
      | some fils => exact finir fils
      | none => exact attendre _ _
    · split
      · exact (cours.renvoie a _).issue (.renvoie k a _)
      · split
        · exact (cours.renvoie a _).issue (.renvoie k a _)
        · split
          · exact .inl cours.interne
          · split
            · exact attendre _ _
            · exact finir _

theorem waitpidRepriseFils_sat {k : Noyau} {a : Indice} (cours : EnCours k a) (fils : Indice)
    (retvalp : Bool) : Sat (waitpidRepriseFils k a fils retvalp) Ordonne Permis := by
  unfold waitpidRepriseFils
  split
  · exact .inl cours.interne
  · refine waitpidFin_sat (cours.modifie a ?_ ?_) fils retvalp
    · exact fun _ => ⟨rfl, rfl, rfl, rfl, rfl⟩
    · exact fun _ _ suite => suite

theorem waitpidReprise_sat {k : Noyau} {a : Indice} (cours : EnCours k a) (retvalp : Bool) :
    Sat (waitpidReprise k a retvalp) Ordonne Permis := by
  have cours' : EnCours (k.modifie a fun p => { p with attendFils := .aucun }) a := by
    refine cours.modifie a ?_ ?_
    · exact fun _ => ⟨rfl, rfl, rfl, rfl, rfl⟩
    · exact fun _ _ suite => suite
  unfold waitpidReprise
  split
  · exact .inl cours.interne
  · simp only
    split
    · exact waitpidFin_sat cours' _ retvalp
    · exact .inl cours'.interne

theorem finActif_sat (env : Env) {k : Noyau} {a : Indice} (cours : EnCours k a) (nonZero : a ≠ 0)
    (s : Suite) : Sat (terminaisonProcessus env (k.suspend a s) a) Ordonne Permis := by
  have cours' := cours.suspend a (s := s) fun zero => absurd zero nonZero
  exact terminaison_sat env cours'.interne nonZero (cours'.courant.simple_ne (by simp) (by simp))

theorem exit_sat (env : Env) {k : Noyau} {a : Indice} (cours : EnCours k a) (nonZero : a ≠ 0)
    (retval : Int) (s : Suite) :
    Sat (terminaisonProcessus env (((k.modifie a fun p => { p with retval := retval }).noter
      (.fin a retval)).suspend a s) a) Ordonne Permis := by
  refine finActif_sat env (EnCours.noter (cours.modifie a ?_ ?_) _) nonZero s
  · exact fun _ => ⟨rfl, rfl, rfl, rfl, rfl⟩
  · exact fun _ _ suite => suite

structure Reclasse (k : Noyau) (pr : Indice) (prio : Int) (k' : Noyau) : Prop where
  noyau : k' = { k with table := k'.table, activables := k'.activables }
  autres : ∀ j, j ≠ pr → k'.table j = k.table j
  soi : k'.table pr = { k.table pr with prio := prio }

theorem Reclasse.champs {k k' : Noyau} {pr : Indice} {prio : Int} (reclasse : Reclasse k pr prio k')
    (j : Indice) : k'.table j = { k.table j with prio := (k'.table j).prio } := by
  by_cases meme : j = pr
  · rw [meme, reclasse.soi]
  · rw [reclasse.autres j meme]

theorem Reclasse.prio_ne {k k' : Noyau} {pr j : Indice} {prio : Int} (reclasse : Reclasse k pr prio k')
    (autre : j ≠ pr) : k.prioDe j = k'.prioDe j := by
  rw [Noyau.prioDe, Noyau.prioDe, reclasse.autres j autre]

theorem Reclasse.valide {k k' : Noyau} {pr : Indice} {prio : Int} (reclasse : Reclasse k pr prio k')
    (valide : Valide k) (mem : ∀ i, i ∈ k'.activables ↔ (k.table i).etat = .activable)
    (nodup : k'.activables.Nodup) (tries : Ascending k'.prioDe k'.activables) : Valide k' := by
  have coherent := valide.coherent
  refine ⟨⟨⟨fun i => ?_, fun i => ?_, fun i => ?_, nodup, tries, fun i => ?_, ?_⟩, fun i => ?_⟩, ?_⟩
  · rw [reclasse.champs]
    exact coherent.pid_indice i
  · rw [reclasse.champs]
    exact coherent.pid_mort i
  · rw [reclasse.champs]
    exact mem i
  · rw [reclasse.champs, reclasse.noyau]
    exact coherent.endormis_mem i
  · rw [reclasse.noyau]
    exact coherent.endormis_nodup
  · rw [reclasse.champs, reclasse.noyau]
    exact coherent.actif_seul i
  · refine valide.famille.congr (fun j => ?_) (fun j => ?_) fun j => ?_ <;> rw [reclasse.champs]

theorem replacerActivable_ok {k : Noyau} (valide : Valide k) (pr : Indice) (prio : Int) :
    ∃ k', replacerActivable (k.modifie pr fun p => { p with prio := prio }) pr = .ok k' ∧
      Reclasse k pr prio k' ∧ Valide k' := by
  set k₁ := k.modifie pr fun p => { p with prio := prio } with defk₁
  have soi : k₁.table pr = { k.table pr with prio := prio } := Noyau.modifie_table_self ..
  have ne : ∀ j, j ≠ pr → k₁.table j = k.table j := fun j => Noyau.modifie_table_ne _ _
  have etat : (k₁.table pr).etat = (k.table pr).etat := by rw [soi]
  have reclasse : ∀ l, Reclasse k pr prio { k₁ with activables := l } := fun l => ⟨rfl, ne, soi⟩
  have coherent := valide.coherent
  unfold replacerActivable
  rw [etat]
  split
  · next activable =>
      have mem := (coherent.activables_mem pr).mpr activable
      have absent : pr ∉ k.activables.erase pr := coherent.activables_nodup.not_mem_erase
      have del : queueDel pr k₁.activables = .ok (k.activables.erase pr) := by
        rw [queueDel, if_pos (show pr ∈ k₁.activables from mem)]
        rfl
      have add : queueAdd k₁.prioDe pr (k.activables.erase pr) =
          .ok (place k₁.prioDe pr (k.activables.erase pr)) := by
        rw [queueAdd, if_neg absent]
      refine ⟨{ k₁ with activables := place k₁.prioDe pr (k.activables.erase pr) }, ?_, reclasse _,
        (reclasse _).valide valide (fun i => ?_) ?_ ?_⟩
      · simp only [del, add, bind, Except.bind]
      · rw [mem_place, coherent.activables_nodup.mem_erase_iff, coherent.activables_mem]
        constructor
        · rintro (rfl | ⟨_, etatI⟩)
          · exact activable
          · exact etatI
        · intro etatI
          by_cases meme : i = pr
          · exact .inl meme
          · exact .inr ⟨meme, etatI⟩
      · exact place_nodup _ absent (coherent.activables_nodup.erase pr)
      · refine place_ascending _ _ ((coherent.activables_tries.sublist _
          (l := k.activables.erase pr) List.erase_sublist).congr _ fun i memI =>
            (reclasse _).prio_ne ?_)
        rintro rfl
        exact absent memI
  · next nonActivable =>
      refine ⟨k₁, rfl, reclasse k.activables, (reclasse k.activables).valide valide
        coherent.activables_mem coherent.activables_nodup
        (coherent.activables_tries.congr _ fun i mem => (reclasse _).prio_ne ?_)⟩
      rintro rfl
      exact nonActivable ((coherent.activables_mem i).mp mem)

theorem Reclasse.enCours {k k' : Noyau} {pr a : Indice} {prio : Int}
    (reclasse : Reclasse k pr prio k') (valide' : Valide k') (cours : EnCours k a) :
    EnCours k' a := by
  refine ⟨⟨valide', ?_, ?_⟩, ?_, ?_⟩
  · rw [reclasse.champs]
    exact cours.interne.veille
  · rw [reclasse.champs]
    exact cours.interne.suite
  · rw [reclasse.noyau]
    exact cours.pidActif
  · rw [reclasse.champs]
    exact cours.courant

theorem cederAuPlusPrioritaire_sat {k : Noyau} {a : Indice} (cours : EnCours k a) :
    Sat (cederAuPlusPrioritaire k a) Ordonne Permis := by
  have coherent := cours.interne.valide.coherent
  unfold cederAuPlusPrioritaire
  split
  · next vide =>
      refine ⟨⟨a, cours⟩, fun _ j _ enFile => ?_⟩
      have := (coherent.activables_mem j).mpr enFile
      rw [List.getLast?_eq_none_iff.mp vide] at this
      cases this
  · next premier dernier =>
      split
      · exact ordonnancer_stable cours.interne
      · next reste =>
          refine ⟨⟨a, cours⟩, fun a' j actif enFile => ?_⟩
          rw [cours.pidActif] at actif
          rw [← Option.some.inj actif]
          exact (le_last k.prioDe coherent.activables_tries dernier
            ((coherent.activables_mem j).mpr enFile)).trans (not_lt.mp reste)

theorem chprio_sat {k : Noyau} {a : Indice} (cours : EnCours k a) (pid newprio : Int) :
    Sat (chprio k a pid newprio) (Issue k True) Permis := by
  unfold chprio
  split
  · exact (cours.renvoie a _).issue (.renvoie k a _)
  · next pr _ =>
      split
      · exact (cours.renvoie a _).issue (.renvoie k a _)
      · split
        · exact (cours.renvoie a _).issue (.renvoie k a _)
        · obtain ⟨k', run, reclasse, valide'⟩ :=
            replacerActivable_ok cours.interne.valide pr newprio
          simp only
          rw [run]
          exact (cederAuPlusPrioritaire_sat ((reclasse.enCours valide' cours).renvoie a _)).mono
            (fun _ => Ordonne.issue) fun _ => id

end ProjetSysteme.Invariant
