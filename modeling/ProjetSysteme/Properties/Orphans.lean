/- Properties/Orphans
   source: kernel/process.c
   digest: The children of a process that has ended, and the branch that leaves them their father. -/

import ProjetSysteme.Invariant.ProcessRuns

set_option autoImplicit false
set_option relaxedAutoImplicit false

namespace ProjetSysteme.Properties

open Kernel Invariant

/-- The father of `c` by the history: the process that started it, if that has not
terminated since. -/
def pereVivant : List Fait → Indice → Option Indice
  | [], _ => none
  | .demarrage pere j :: reste, c => if j = c then pere else pereVivant reste c
  | .terminaison j :: reste, c => if pereVivant reste c = some j then none else pereVivant reste c
  | _ :: reste, c => pereVivant reste c

theorem pereVivant_vitaux (l : List Fait) (c : Indice) :
    pereVivant (l.filter estVital) c = pereVivant l c := by
  induction l with
  | nil => rfl
  | cons f reste ih => cases f <;> simp [List.filter_cons, estVital, pereVivant, ih]

/-- A process that ends while it has a father has no children but zombies. -/
def FinSansFils (k : Noyau) (e : Evenement) : Prop :=
  ∀ z, Mourant k z e → Survit k z → (k.table z).pere ≠ none →
    ∀ c, (k.table c).pere = some z → (k.table c).etat ≠ .mort → (k.table c).etat = .zombie

instance (k : Noyau) (e : Evenement) : Decidable (FinSansFils k e) := by
  unfold FinSansFils
  infer_instance

theorem FinSansFils.enregistrer {k : Noyau} {e : Evenement} (condition : FinSansFils k e) :
    FinSansFils (enregistrer k e) e := by
  have mourant : ∀ z, Mourant (Invariant.enregistrer k e) z e → Mourant k z e := fun z => by
    cases e with
    | appel a => cases a <;> simp [Mourant, enregistrer_pidActif]
    | tic | touche c | reprise => simp [Mourant, Invariant.enregistrer]
  simp only [FinSansFils, Survit, enregistrer_table] at condition ⊢
  exact fun z fin => condition z (mourant z fin)

/-- No process has a father that has ended, and every zombie has a father. -/
structure PeresVivants (k : Noyau) (faits : List Fait) : Prop where
  histoire : ∀ c, Survit k c → (k.table c).pere = pereVivant faits c
  survit : ∀ c p, Survit k c → (k.table c).pere = some p → Survit k p
  zombie : ∀ z, (k.table z).etat = .zombie → ∃ p, (k.table z).pere = some p ∧ Survit k p

namespace PeresVivants

variable {k k' : Noyau} {l l' : List Fait}

theorem vif (peres : PeresVivants k l) (vif : Vif k k') : PeresVivants k' l := by
  have survit := vif.survit
  refine ⟨fun c vivant => ?_, fun c p vivant pere => ?_, fun z zombie => ?_⟩
  · rw [vif.pere]
    exact peres.histoire c ((survit c).mp vivant)
  · rw [vif.pere] at pere
    exact (survit p).mpr (peres.survit c p ((survit c).mp vivant) pere)
  · obtain ⟨p, pere, vivant⟩ := peres.zombie z ((vif.zombie z).mp zombie)
    exact ⟨p, by rw [vif.pere, pere], (survit p).mpr vivant⟩

theorem naissance (peres : PeresVivants k l) {pid : Indice} (mort : (k.table pid).etat = .mort)
    (vivant : Survit k' pid) (pere : (k'.table pid).pere = k.pidActif)
    (actif : ∀ a, k.pidActif = some a → Survit k a)
    (autres : ∀ j, j ≠ pid → (k'.table j).pere = (k.table j).pere ∧
      (k'.table j).etat = (k.table j).etat) :
    PeresVivants k' (.demarrage k.pidActif pid :: l) := by
  have survit : ∀ i, i ≠ pid → (Survit k' i ↔ Survit k i) := fun i autre => by
    rw [Survit, (autres i autre).2, Survit]
  have garde : ∀ p, Survit k p → Survit k' p := fun p vivantP => by
    refine (survit p fun meme => ?_).mpr vivantP
    exact vivantP.1 (meme ▸ mort)
  refine ⟨fun c vivantC => ?_, fun c p vivantC pereC => ?_, fun z zombie => ?_⟩
  · by_cases nouveau : c = pid
    · simp [pereVivant, nouveau, pere]
    · rw [(autres c nouveau).1]
      simp [pereVivant, Ne.symm nouveau, peres.histoire c ((survit c nouveau).mp vivantC)]
  · by_cases nouveau : c = pid
    · rw [nouveau, pere] at pereC
      exact garde p (actif p pereC)
    · rw [(autres c nouveau).1] at pereC
      exact garde p (peres.survit c p ((survit c nouveau).mp vivantC) pereC)
  · by_cases nouveau : z = pid
    · exact absurd (nouveau ▸ zombie) vivant.2
    · rw [(autres z nouveau).2] at zombie
      obtain ⟨p, pereZ, vivantP⟩ := peres.zombie z zombie
      exact ⟨p, by rw [(autres z nouveau).1, pereZ], garde p vivantP⟩

/-- The end of `z`, after which no survivor has `z` as father and `z` has a surviving
father if it is a zombie. -/
theorem termine (peres : PeresVivants k l) {z : Indice} {e : EtatProcessus} (fin : Termine z e k k')
    (finie : e = .mort ∨ e = .zombie) (sansZombie : ∀ c, (k'.table c).etat = .zombie →
      (k.table c).pere ≠ some z)
    (sansFils : ∀ c, Survit k' c → (k'.table c).pere ≠ some z)
    (pereZ : e = .zombie → ∃ p, (k.table z).pere = some p ∧ Survit k p ∧ p ≠ z)
    (histoire : ∀ c, Survit k c →
      pereVivant l' c = if (k.table c).pere = some z then none else (k.table c).pere) :
    PeresVivants k' l' := by
  have survit : ∀ i, i ≠ z → (Survit k' i ↔ Survit k i) := by
    intro i autre
    rcases fin.etat autre with meme | ⟨zombie, mort⟩
    · rw [Survit, meme, Survit]
    · simp [Survit, zombie, mort]
  have fini : ¬ Survit k' z := by
    rw [Survit, fin.etat_soi]
    rcases finie with rfl | rfl <;> simp
  have dehors : ∀ c, Survit k' c → c ≠ z := fun c vivant meme => fini (meme ▸ vivant)
  -- a father that survives and is not `z` is kept
  have garde : ∀ c p, p ≠ z → Survit k p → (k.table c).pere = some p →
      (k'.table c).pere = some p ∧ Survit k' p := by
    intro c p autre vivant pere
    exact ⟨(fin.fils_garde autre vivant.2 pere).1, (survit p autre).mpr vivant⟩
  refine ⟨fun c vivant => ?_, fun c p vivant pere => ?_, fun c zombie => ?_⟩
  · have vivant₀ := (survit c (dehors c vivant)).mp vivant
    rw [histoire c vivant₀]
    cases pere : (k.table c).pere with
    | none =>
        rcases fin.pere c with meme | ⟨perdu, _⟩
        · simp [meme, pere]
        · simp [perdu]
    | some p =>
        by_cases estZ : p = z
        · subst estZ
          simp only [if_true]
          rcases fin.pere c with meme | ⟨perdu, _⟩
          · exact absurd (meme.trans pere) (sansFils c vivant)
          · exact perdu
        · rw [if_neg (by simp [estZ])]
          exact (garde c p estZ (peres.survit c p vivant₀ pere) pere).1
  · have pere₀ := fin.pere_some pere
    have vivant₀ := (survit c (dehors c vivant)).mp vivant
    have autre : p ≠ z := fun meme => sansFils c vivant (meme ▸ pere)
    exact (garde c p autre (peres.survit c p vivant₀ pere₀) pere₀).2
  · by_cases estZ : c = z
    · subst estZ
      obtain ⟨p, pere, vivant, autre⟩ := pereZ (fin.etat_soi.symm.trans zombie)
      have suite := garde c p autre vivant pere
      exact ⟨p, suite.1, suite.2⟩
    · have zombie₀ : (k.table c).etat = .zombie := by
        rcases fin.etat estZ with meme | ⟨_, mort⟩
        · rw [← meme, zombie]
        · rw [mort] at zombie
          cases zombie
      obtain ⟨p, pere, vivant⟩ := peres.zombie c zombie₀
      have autre : p ≠ z := fun meme => sansZombie c zombie (meme ▸ pere)
      have suite := garde c p autre vivant pere
      exact ⟨p, suite.1, suite.2⟩

theorem histoire_terminaison (peres : PeresVivants k l) {z : Indice} {suite : List Fait}
    (meme : ∀ c, pereVivant suite c = pereVivant l c) (c : Indice) (vivant : Survit k c) :
    pereVivant (.terminaison z :: suite) c =
      if (k.table c).pere = some z then none else (k.table c).pere := by
  rw [pereVivant, meme, peres.histoire c vivant]

end PeresVivants

theorem non_fils_de_fini {k k' : Noyau} {z c : Indice} {e : EtatProcessus} (fin : Termine z e k k')
    (autre : (k.table z).pere ≠ some z) (zombie : (k'.table c).etat = .zombie) :
    (k.table c).pere ≠ some z := by
  intro pere
  have autreC : c ≠ z := fun meme => autre (meme ▸ pere)
  have zombie₀ : (k.table c).etat = .zombie := by
    rcases fin.etat autreC with meme | ⟨_, mort⟩
    · rw [← meme, zombie]
    · rw [mort] at zombie
      cases zombie
  rw [fin.zombies c pere zombie₀] at zombie
  cases zombie

theorem Terminaison.peresVivants {k k' : Noyau} {l l' : List Fait} {z : Indice}
    (fin : Terminaison k z k') (peres : PeresVivants k l) (autre : (k.table z).pere ≠ some z)
    (vivant : Survit k z)
    (sansFils : (k.table z).pere ≠ none →
      ∀ c, (k.table c).pere = some z → (k.table c).etat ≠ .mort → (k.table c).etat = .zombie)
    (histoire : ∀ c, Survit k c →
      pereVivant l' c = if (k.table c).pere = some z then none else (k.table c).pere) :
    PeresVivants k' l' := by
  cases fin with
  | @mort k₁ m pere fin =>
      have reste : PeresVivants k₁ l' := by
        refine peres.termine fin (.inl rfl) (fun c => non_fils_de_fini fin autre)
          (fun c vivantC pereC => ?_) (by simp) histoire
        have pere₀ := fin.pere_some pereC
        have vivant₀ : (k.table c).etat ≠ .mort := fin.vivant vivant.1 vivantC.1
        rw [fin.complet z c ⟨vivant.1, fin.etat_soi⟩ vivant₀ pere₀] at pereC
        cases pereC
      exact ⟨reste.histoire, reste.survit, reste.zombie⟩
  | @zombie k₁ k₂ m p pere reveille seul fin =>
      have vif : Vif k k₁ := .of_pereReveille reveille
      have autreP : p ≠ z := fun meme => autre (meme ▸ pere)
      have peres₁ := peres.vif vif
      have survit₁ := vif.survit
      have pere₁ : (k₁.table z).pere = some p := by rw [vif.pere, pere]
      have reste : PeresVivants k₂ l' := by
        refine peres₁.termine fin (.inr rfl)
          (fun c => non_fils_de_fini fin (by rwa [vif.pere]))
          (fun c vivantC pereC => ?_) (fun _ => ?_) fun c vivantC => ?_
        · have pere₀ := fin.pere_some pereC
          have vivant₀ : (k₁.table c).etat ≠ .mort :=
            fin.vivant ((survit₁ z).mpr vivant).1 vivantC.1
          rw [vif.pere] at pere₀
          have zombie := sansFils (by simp [pere]) c pere₀ (mt (vif.mort c).mpr vivant₀)
          exact vivantC.1 (fin.zombies c (by rw [vif.pere, pere₀]) ((vif.zombie c).mpr zombie))
        · exact ⟨p, pere₁, (survit₁ p).mpr (peres.survit z p vivant pere), autreP⟩
        · rw [vif.pere]
          exact histoire c ((survit₁ c).mp vivantC)
      exact ⟨reste.histoire, reste.survit, reste.zombie⟩

theorem Filiation.peresVivants {e : Evenement} {k k' : Noyau} (filiation : Filiation e k k')
    (sain : Sain k) (condition : FinSansFils k e) (peres : PeresVivants k (vitaux k)) :
    PeresVivants k' (vitaux k') := by
  cases filiation with
  | stable vif faits =>
      rw [faits]
      exact peres.vif vif
  | naissance mort vivant pere autres faits =>
      rw [faits]
      refine peres.naissance mort vivant pere (fun a actif => ?_) autres
      simp [Survit, sain.actif a actif]
  | @fin k₁ _ z mourant vif vivant nonZombie fin faits =>
      have survit : Survit k₁ z := ⟨mt (vif.mort z).mp vivant, mt (vif.zombie z).mp nonZombie⟩
      have autre : (k₁.table z).pere ≠ some z := by
        rw [vif.pere]
        exact fun pere => sain.valide.pere_ne vivant pere rfl
      refine Terminaison.peresVivants fin (peres.vif vif) autre survit (fun pere c pereC vivantC => ?_)
        fun c vivantC => ?_
      · rw [vif.pere] at pere pereC
        exact (vif.zombie c).mpr
          (condition z mourant ⟨vivant, nonZombie⟩ pere c pereC (mt (vif.mort c).mpr vivantC))
      · rcases faits with faits | ⟨v, faits⟩
        · rw [faits]
          exact (peres.vif vif).histoire_terminaison (fun _ => rfl) c vivantC
        · rw [faits]
          exact (peres.vif vif).histoire_terminaison (fun _ => rfl) c vivantC
  | @recolte k₁ _ a c vif pere zombie fin faits =>
      have peres₁ := peres.vif vif
      have zombie₁ := (vif.zombie c).mpr zombie
      have autre : (k₁.table c).pere ≠ some c := by
        rw [vif.pere]
        exact fun soi => sain.valide.pere_ne (by simp [zombie]) soi rfl
      refine peres₁.termine fin (.inl rfl) (fun d => non_fils_de_fini fin autre)
        (fun d vivantD pereD => ?_) (by simp) fun d vivantD => ?_
      · have vivant₀ := fin.vivant (by simp [zombie₁]) vivantD.1
        rw [fin.complet c d ⟨by simp [zombie₁], fin.etat_soi⟩ vivant₀ (fin.pere_some pereD)] at pereD
        cases pereD
      · have sansPere : (k₁.table d).pere ≠ some c := fun pereD =>
          (peres₁.survit d c vivantD pereD).2 zombie₁
        rw [if_neg sansPere, peres₁.histoire d vivantD]
        rcases faits with faits | faits
        · rw [faits]
        · rw [faits]
          rfl

theorem filiation_finit {e : Evenement} {k k' : Noyau} (filiation : Filiation e k k')
    {z : Indice} (vivant : Survit k z) (fini : ¬ Survit k' z) :
    (k'.table z).etat = .mort ↔ (k.table z).pere = none := by
  cases filiation with
  | stable vif faits =>
      exact absurd ((vif.survit z).mpr vivant) fini
  | @naissance _ pid mort nouveau pere autres faits =>
      refine absurd ?_ fini
      by_cases meme : z = pid
      · exact meme ▸ nouveau
      · rwa [Survit, (autres z meme).2]
  | @fin k₁ _ y mourant vif vivantY nonZombie fin faits =>
      have vivant₁ : (k₁.table z).etat ≠ .zombie := mt (vif.zombie z).mp vivant.2
      cases fin with
      | @mort k₂ m pere fin =>
          change ¬ Survit k₂ z at fini
          change (k₂.table z).etat = .mort ↔ _
          by_cases meme : z = y
          · subst meme
            simp [fin.etat_soi, ← vif.pere, pere]
          · refine absurd ?_ fini
            rwa [Survit, fin.etat_vivant meme vivant₁, Ne, vif.mort, Ne, vif.zombie]
      | @zombie k₂ k₃ m p pere reveille seul fin =>
          change ¬ Survit k₃ z at fini
          change (k₃.table z).etat = .mort ↔ _
          have vif₂ := vif.trans (.of_pereReveille reveille)
          have vivant₂ : (k₂.table z).etat ≠ .zombie := mt (vif₂.zombie z).mp vivant.2
          by_cases meme : z = y
          · subst meme
            simp [fin.etat_soi, ← vif.pere, pere]
          · refine absurd ?_ fini
            rwa [Survit, fin.etat_vivant meme vivant₂, Ne, vif₂.mort, Ne, vif₂.zombie]
  | @recolte k₁ _ a c vif pere zombie fin faits =>
      have vivant₁ : (k₁.table z).etat ≠ .zombie := mt (vif.zombie z).mp vivant.2
      have autre : z ≠ c := by
        rintro rfl
        exact vivant.2 zombie
      refine absurd ?_ fini
      rwa [Survit, fin.etat_vivant autre vivant₁, Ne, vif.mort, Ne, vif.zombie]

theorem etape_finit {e : Evenement} {k k' : Noyau} (etape : Etape e k k') (sain : Sain k)
    {z : Indice} (vivant : Survit k z) (fini : ¬ Survit k' z) :
    (k'.table z).etat = .mort ↔ (k.table z).pere = none := by
  obtain ⟨k₁, effet, fin⟩ := etape
  have filiation := effet.filiation (sain.enregistrer e)
  rw [Survit, ← enregistrer_table k e, ← Survit] at vivant
  rw [← enregistrer_table k e]
  rcases fin with rfl | ord
  · exact filiation_finit filiation vivant fini
  · have mort := ord.etat_iff (s := .mort) (by simp) (by simp) z
    have zombie := ord.etat_iff (s := .zombie) (by simp) (by simp) z
    rw [Survit, Ne, mort, Ne, zombie, ← Ne, ← Ne, ← Survit] at fini
    rw [mort]
    exact filiation_finit filiation vivant fini

/-- The event `e` ends the process `z`. -/
def Finit (env : Env) (k : Noyau) (e : Evenement) (k' : Noyau) (z : Indice) : Prop :=
  permis k e = true ∧ deProcessus e = true ∧ pas env k e = .ok k' ∧ Survit k z ∧ ¬ Survit k' z

/-- The slot `z` is destroyed, and free for `start`. -/
def EstDetruit (k : Noyau) (z : Indice) : Prop :=
  (k.table z).etat = .mort ∧ (k.table z).pid = none

theorem detruit_iff (env : Env) {k k' : Noyau} {e : Evenement} {z : Indice} (sain : Sain k)
    (finit : Finit env k e k' z) : EstDetruit k' z ↔ (k.table z).pere = none := by
  obtain ⟨autorise, _, resultat, vivant, fini⟩ := finit
  have etape := (pas_ok env sain autorise).of_ok resultat
  have coherent := ((pas_sat env sain.stable autorise).of_ok resultat).1.valide.coherent
  rw [EstDetruit, coherent.pid_mort, and_self]
  exact etape_finit etape sain vivant fini

/-- In every run in which a process that ends while it has a father leaves no children
but zombies, no process keeps a father that has ended, and a process that ends after its
father is destroyed at once.  In every run, a process that ends is destroyed at once
exactly when it keeps no father. -/
theorem peres_vivants (env : Env) :
    (∀ k, Atteint env (fun k e => deProcessus e = true ∧ FinSansFils k e) k →
      PeresVivants k k.journal ∧
      ∀ e k' z, Finit env k e k' z → pereVivant k.journal z = none → EstDetruit k' z) ∧
    ∀ k, Atteint env (fun _ e => deProcessus e = true) k →
      ∀ e k' z, Finit env k e k' z → (EstDetruit k' z ↔ (k.table z).pere = none) := by
  refine ⟨fun k atteint => ?_, fun k atteint e k' z finit => ?_⟩
  · obtain ⟨sain, _, peres⟩ := Atteint.processus env
      (P := fun k => PeresVivants k (vitaux k)) (fun _ _ => And.left)
      (fun k₀ boot => by
        have depart := initialiser_depart env boot
        refine ⟨fun c vivant => ?_, fun c p vivant => ?_, fun z zombie => ?_⟩
        · exact absurd (depart.mort c) vivant.1
        · exact absurd (depart.mort c) vivant.1
        · rw [depart.mort] at zombie
          cases zombie)
      (fun k e k' sain _ peres _ condition etape _ => by
        obtain ⟨k₁, effet, fin⟩ := etape
        have sain₀ := sain.enregistrer e
        have apres : PeresVivants k₁ (vitaux k₁) := by
          refine Filiation.peresVivants (effet.filiation sain₀) sain₀ condition.2.enregistrer ?_
          rw [vitaux_enregistrer]
          have meme := enregistrer_table k e
          exact peres.vif ⟨fun _ => by rw [meme], fun _ => by rw [meme], fun _ => by rw [meme]⟩
        rcases fin with rfl | ord
        · exact apres
        · rw [vitaux_congr (k := k₁) (by rw [ord.noyau])]
          exact apres.vif (.of_ordonnance ord))
      atteint
    have histoire : ∀ c, Survit k c → (k.table c).pere = pereVivant k.journal c := fun c vivant =>
      (peres.histoire c vivant).trans (pereVivant_vitaux k.journal c)
    refine ⟨⟨histoire, peres.survit, peres.zombie⟩, fun e k' z finit orphelin => ?_⟩
    refine (detruit_iff env sain finit).mpr ?_
    rw [histoire z finit.2.2.2.1, orphelin]
  · exact detruit_iff env (Atteint.processus env (P := fun _ => True) (fun _ _ => id)
      (fun _ _ => trivial) (fun _ _ _ _ _ _ _ _ _ _ => trivial) atteint).1 finit

/-- The calls start, exit, kill and waitpid. -/
def deFamille : Evenement → Bool
  | .reprise | .appel (.start ..) | .appel (.exit _) | .appel (.finCode _) | .appel (.kill _)
  | .appel (.waitpid ..) => true
  | _ => false

/-- A child ends before its father; and a process ends after its father, which has been
collected by waitpid. -/
theorem peres_vivants_exemple :
    (∃ k, Atteint Env.exemple (fun k e => deProcessus e = true ∧ FinSansFils k e) k ∧
      (k.table 2).etat = .zombie ∧ PeresVivants k k.journal) ∧
    ∃ k k', Atteint Env.exemple (fun _ e => deProcessus e = true) k ∧
      Finit Env.exemple k (.appel (.exit 4)) k' 3 ∧ pereVivant k.journal 3 = none ∧
      EstDetruit k' 3 := by
  constructor
  · obtain ⟨k, atteint, test⟩ := Atteint.of_verifier Env.exemple
      (C := fun k e => decide (deProcessus e = true ∧ FinSansFils k e))
      (l := [demarrer 0, .reprise, demarrer 2, .reprise, demarrer 3, .reprise, .appel (.exit 4)])
      (T := fun k => decide ((k.table 2).etat = .zombie))
      (by decide +kernel)
    have course := atteint.mono Env.exemple fun _ _ => of_decide_eq_true
    exact ⟨k, course, of_decide_eq_true test, ((peres_vivants Env.exemple).1 k course).1⟩
  · obtain ⟨k, atteint, test⟩ := Atteint.of_verifier Env.exemple (C := fun _ e => deProcessus e)
      (l := [demarrer 0, .reprise, demarrer 3, .reprise, demarrer 2, .reprise,
        .appel (.waitpid 2 true), .reprise, demarrer 1, .reprise, .appel (.exit 3), .reprise,
        .reprise, .appel (.waitClock 5), .reprise])
      (T := fun k => verifierPas Env.exemple k (.appel (.exit 4)) fun k' =>
        decide (permis k (.appel (.exit 4)) = true ∧ Survit k 3 ∧ ¬ Survit k' 3 ∧
            pereVivant k.journal 3 = none ∧ (k.table 3).pere = none))
      (by decide +kernel)
    obtain ⟨k', resultat, test⟩ := pas_of_verifierPas Env.exemple test
    obtain ⟨autorise, vivant, fini, orphelin, sansPere⟩ := of_decide_eq_true test
    have finit : Finit Env.exemple k (.appel (.exit 4)) k' 3 :=
      ⟨autorise, rfl, resultat, vivant, fini⟩
    exact ⟨k, k', atteint, finit, orphelin,
      ((peres_vivants Env.exemple).2 k atteint _ k' 3 finit).mpr sansPere⟩

/-- A father ends before its child. -/
theorem peres_termines : ¬ ∀ k, Atteint Env.exemple (fun _ e => deFamille e = true) k →
    ∀ c p, Survit k c → (k.table c).pere = some p → Survit k p := by
  intro toujours
  obtain ⟨k, atteint, test⟩ := Atteint.of_verifier Env.exemple (C := fun _ e => deFamille e)
    (l := [demarrer 0, .reprise, demarrer 2, .reprise, demarrer 1, .reprise, .appel (.exit 3)])
    (T := fun k => decide (Survit k 2 ∧ (k.table 2).pere = some 1 ∧ ¬ Survit k 1))
    (by decide +kernel)
  obtain ⟨vivant, pere, fini⟩ := of_decide_eq_true test
  exact fini (toujours k atteint 2 1 vivant pere)

end ProjetSysteme.Properties
