/- Properties/Zombies
   source: kernel/process.c
   digest: The validity tests of kill, getprio and chprio on the pid they are given. -/

import ProjetSysteme.Invariant.ProcessRuns
import ProjetSysteme.Properties.Chprio

set_option autoImplicit false
set_option relaxedAutoImplicit false

namespace ProjetSysteme.Properties

open Kernel Invariant

/-- `pid` designates a process that is neither ZOMBIE nor destroyed. -/
def Existe (k : Noyau) (pid : Int) : Prop := ∃ i, indice? pid = some i ∧ Survit k i

/-- The call returns a negative value to process `a` and does nothing else. -/
def Refuse (k : Noyau) (a : Indice) (r : Resultat) : Prop := ∃ v < 0, r = .ok (k.renvoie a v)

/-- The priority in the slot of `pid` is negative if the slot holds a zombie, and is not
if it holds a process that exists. -/
def PrioriteParlante (k : Noyau) (pid : Int) : Prop :=
  ∀ i, indice? pid = some i →
    ((k.table i).etat = .zombie → (k.table i).prio < 0) ∧ (Survit k i → 0 ≤ (k.table i).prio)

section Appels

variable {k : Noyau} {a : Indice} {pid : Int}

theorem renvoie_injective {v w : Int} (meme : k.renvoie a v = k.renvoie a w) : v = w := by
  have suites := congrArg (fun k : Noyau => (k.table a).suite) meme
  simpa [Noyau.renvoie] using suites

theorem kill_refuse_iff (env : Env) (sain : Sain k) (actif : k.pidActif = some a) (nonZero : pid ≠ 0) :
    Refuse k a (kill env k a pid) ↔ ¬ Existe k pid := by
  constructor
  · rintro ⟨v, -, run⟩ ⟨i, designe, nonMort, nonZombie⟩
    have autre : i ≠ 0 := by
      rintro rfl
      unfold indice? at designe
      split at designe
      · next borne =>
          have := congrArg Fin.val (Option.some.inj designe)
          simp at this
          omega
      · cases designe
    have occupe : (k.table i).pid ≠ none := fun libre =>
      nonMort ((sain.valide.coherent.pid_mort i).mp libre)
    have vue := MemeVue.renvoie k a 0
    rw [kill, designe] at run
    simp only [autre, occupe, nonZombie, or_self, if_false] at run
    have sat := terminaison_ok env (sain.valide.transport vue) actif
      (by rw [vue.etat, sain.actif a actif]) autre (by rwa [vue.etat]) (by rwa [vue.etat])
    obtain ⟨k₁, fin, ord⟩ := sat.of_ok run
    have mort := ord.etat_iff (s := .mort) (by simp) (by simp) i
    have zombie := ord.etat_iff (s := .zombie) (by simp) (by simp) i
    rw [Noyau.renvoie_etat] at mort zombie
    exact fin.soi.elim (nonMort ∘ mort.mpr) (nonZombie ∘ zombie.mpr)
  · intro absent
    refine ⟨-1, by decide, ?_⟩
    unfold kill
    split
    · rfl
    · next i designe =>
        refine if_pos (or_iff_not_imp_left.mpr fun _ => or_iff_not_imp_right.mpr fun nonZombie => ?_)
        by_contra occupe
        exact absent ⟨i, designe, fun mort => occupe ((sain.valide.coherent.pid_mort i).mpr mort),
          nonZombie⟩

theorem chprio_refuse_iff {newprio : Int} (cours : EnCours k a) (positif : 0 < newprio) :
    Refuse k a (chprio k a pid newprio) ↔ ¬ Existe k pid := by
  constructor
  · rintro ⟨v, negatif, run⟩ ⟨i, designe, nonMort, nonZombie⟩
    obtain ⟨k', run', change⟩ := chprio_reprioritise cours designe positif nonMort nonZombie
    obtain rfl : k.renvoie a v = k' := Except.ok.inj (run.symm.trans run')
    have retour : v = (k.table i).prio := by
      simpa [Noyau.renvoie] using change.retour
    have prio : (k.table i).prio = newprio := by
      rw [← change.soi, Noyau.prioDe, (MemeVue.renvoie k a v).prio]
    omega
  · intro absent
    refine ⟨-1, by decide, ?_⟩
    unfold chprio
    split
    · rfl
    · next i designe =>
        refine if_pos (or_iff_not_imp_left.mpr fun _ => ?_)
        by_contra survit
        exact absent ⟨i, designe, not_or.mp survit⟩

theorem getprio_refuse_iff :
    Refuse k a (.ok (k.renvoie a (getprio k pid))) ↔ getprio k pid < 0 := by
  constructor
  · rintro ⟨v, negatif, run⟩
    rwa [renvoie_injective (Except.ok.inj run)]
  · exact fun negatif => ⟨_, negatif, rfl⟩

theorem getprio_existe_iff (coherent : Coherent k) :
    (getprio k pid < 0 ↔ ¬ Existe k pid) ↔ PrioriteParlante k pid := by
  unfold getprio PrioriteParlante Existe
  cases designe : indice? pid with
  | none => simp
  | some i =>
      have libre := coherent.pid_mort i
      by_cases mort : (k.table i).etat = .mort
      · simp [libre.mpr mort, mort, Survit]
      · have occupe : (k.table i).pid ≠ none := mt libre.mp mort
        by_cases zombie : (k.table i).etat = .zombie
        · simp [occupe, Survit, zombie]
        · simp [occupe, Survit, zombie, mort]

end Appels

/-- In every state of every run of the process primitives, the three calls refuse exactly
the pids that designate no process, if and only if the priority in the slot of the pid
tells a zombie from a process that exists. -/
theorem refus_existe_iff (env : Env) {k : Noyau}
    (atteint : Atteint env (fun _ e => deProcessus e = true) k) {a : Indice}
    (actif : k.pidActif = some a) (pid : Int) {newprio : Int} (positif : 0 < newprio) :
    ((pid ≠ 0 → (Refuse k a (appeler env k a (.kill pid)) ↔ ¬ Existe k pid)) ∧
      (Refuse k a (appeler env k a (.getprio pid)) ↔ ¬ Existe k pid) ∧
      (Refuse k a (appeler env k a (.chprio pid newprio)) ↔ ¬ Existe k pid)) ↔
    PrioriteParlante k pid := by
  obtain ⟨sain, -⟩ := Atteint.processus env (P := fun _ => True) (fun _ _ => id)
    (fun _ _ => trivial) (fun _ _ _ _ _ _ _ _ _ _ => trivial) atteint
  rw [← getprio_existe_iff sain.valide.coherent]
  have kill : pid ≠ 0 → (Refuse k a (appeler env k a (.kill pid)) ↔ ¬ Existe k pid) :=
    kill_refuse_iff env sain actif
  have chprio : Refuse k a (appeler env k a (.chprio pid newprio)) ↔ ¬ Existe k pid :=
    chprio_refuse_iff (enCours_of_atteint env atteint actif) positif
  have getprio : Refuse k a (appeler env k a (.getprio pid)) ↔ getprio k pid < 0 :=
    getprio_refuse_iff
  constructor
  · rintro ⟨-, exact', -⟩
    exact getprio.symm.trans exact'
  · exact fun exact' => ⟨kill, getprio.trans exact', chprio⟩

def filsZombie : List Evenement :=
  [demarrer 0, .reprise, demarrer 2, .reprise, demarrer 1, .reprise, .appel (.kill 2), .reprise]

theorem refus_existe_exemple : ∃ k, Atteint Env.exemple (fun _ e => deProcessus e = true) k ∧
    (k.table 2).etat = .zombie ∧ ¬ Existe k 3 ∧
    (Refuse k 1 (appeler Env.exemple k 1 (.kill 3)) ∧ Refuse k 1 (appeler Env.exemple k 1 (.getprio 3))) ∧
    ¬ Refuse k 1 (appeler Env.exemple k 1 (.chprio 1 5)) := by
  obtain ⟨k, atteint, test⟩ := Atteint.of_verifier Env.exemple (C := fun _ e => deProcessus e)
    (l := filsZombie)
    (T := fun k => decide (k.pidActif = some 1 ∧ (k.table 2).etat = .zombie ∧
      (k.table 3).etat = .mort ∧ (k.table 1).etat = .actif ∧ (k.table 1).prio = 2))
    (by decide +kernel)
  obtain ⟨actif, zombie, libre, vivant, prio⟩ := of_decide_eq_true test
  have absent : ¬ Existe k 3 := by
    rintro ⟨i, designe, nonMort, -⟩
    obtain rfl : 3 = i := Option.some.inj designe
    exact nonMort libre
  have existe : Existe k 1 := ⟨1, rfl, by simp [vivant], by simp [vivant]⟩
  have trois : PrioriteParlante k 3 := by
    intro i designe
    obtain rfl : 3 = i := Option.some.inj designe
    exact ⟨by simp [libre], fun survit => absurd libre survit.1⟩
  have un : PrioriteParlante k 1 := by
    intro i designe
    obtain rfl : 1 = i := Option.some.inj designe
    exact ⟨by simp [vivant], by simp [prio]⟩
  obtain ⟨kill, getprio, -⟩ := (refus_existe_iff Env.exemple atteint actif 3
    (by decide : (0 : Int) < 5)).mpr trois
  obtain ⟨-, -, chprio⟩ := (refus_existe_iff Env.exemple atteint actif 1
    (by decide : (0 : Int) < 5)).mpr un
  exact ⟨k, atteint, zombie, absent, ⟨(kill (by decide)).mpr absent, getprio.mpr absent⟩,
    fun refuse => chprio.mp refuse existe⟩

/-- `getprio` gives the priority of a zombie. -/
theorem getprio_zombie : ¬ ∀ k, Atteint Env.exemple (fun _ e => deProcessus e = true) k →
    ∀ a pid newprio, k.pidActif = some a → 0 < newprio →
      (pid ≠ 0 → (Refuse k a (appeler Env.exemple k a (.kill pid)) ↔ ¬ Existe k pid)) ∧
      (Refuse k a (appeler Env.exemple k a (.getprio pid)) ↔ ¬ Existe k pid) ∧
      (Refuse k a (appeler Env.exemple k a (.chprio pid newprio)) ↔ ¬ Existe k pid) := by
  intro toujours
  obtain ⟨k, atteint, test⟩ := Atteint.of_verifier Env.exemple (C := fun _ e => deProcessus e)
    (l := filsZombie)
    (T := fun k => decide (k.pidActif = some 1 ∧ (k.table 2).etat = .zombie ∧
      getprio k 2 = 1))
    (by decide +kernel)
  obtain ⟨actif, zombie, un⟩ := of_decide_eq_true test
  obtain ⟨-, exact', -⟩ := toujours k atteint 1 2 5 actif (by decide)
  have absent : ¬ Existe k 2 := by
    rintro ⟨i, designe, -, nonZombie⟩
    obtain rfl : 2 = i := Option.some.inj designe
    exact nonZombie zombie
  have negatif := getprio_refuse_iff.mp (exact'.mpr absent)
  rw [un] at negatif
  exact absurd negatif (by decide)

end ProjetSysteme.Properties
