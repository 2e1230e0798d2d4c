/- Properties/Sleep
   source: kernel/horloge.c, kernel/process.h
   digest: Sleeps relative to the tick counter, up to its wrap-around. -/

import ProjetSysteme.Invariant.ChannelRuns
import ProjetSysteme.Invariant.Outcomes
import ProjetSysteme.Invariant.Sleepers
import ProjetSysteme.Properties.Tick

set_option autoImplicit false
set_option relaxedAutoImplicit false

namespace ProjetSysteme.Properties

open Kernel Invariant

/-- A run from `k` with `n` clock interrupts, whose kills reach neither process `a` nor a
process blocked in psend, preceive or cons_read. -/
inductive CourseTics (env : Env) (a : Indice) (k : Noyau) : Nat → Noyau → Prop
  | debut : CourseTics env a k 0 k
  | autre {n : Nat} {k₁ k₂ : Noyau} {e : Evenement} (avant : CourseTics env a k n k₁)
      (nonTic : e ≠ .tic) (autorise : permis k₁ e = true) (propre : KillPropre k₁ e)
      (epargne : ¬ Vise e a) (resultat : pas env k₁ e = .ok k₂) : CourseTics env a k n k₂
  | tic {n : Nat} {k₁ k₂ : Noyau} (avant : CourseTics env a k n k₁)
      (autorise : permis k₁ .tic = true) (resultat : pas env k₁ .tic = .ok k₂) :
      CourseTics env a k (n + 1) k₂

/-- Whoever calls `wait_clock(current_clock() + d)` when the counter is at `c` stays blocked
through the next `d - 1` ticks and is made ready by the `d`-th, before it calls `ordonnancer`. -/
def SommeilExact (c d : UInt32) : Prop :=
  ∀ env k a, Atteint env KillPropre k → k.horloge = c → k.pidActif = some a →
    permis k (.appel (.waitClock (currentClock k + d))) = true →
    ∃ k₁, pas env k (.appel (.waitClock (currentClock k + d))) = .ok k₁ ∧
      (∀ n k₂, CourseTics env a k₁ n k₂ → n < d.toNat →
        (k₂.table a).etat = .bloqueSurSemaphore) ∧
      ∀ n k₂, CourseTics env a k₁ n k₂ → n + 1 = d.toNat → permis k₂ .tic = true →
        ∃ k₃ k₄, parcourEndormis k₂.endormis.length { k₂ with horloge := k₂.horloge + 1 } = .ok k₃ ∧
          (k₃.table a).etat = .activable ∧ ordonnancer k₃ = .ok k₄ ∧ pas env k₂ .tic = .ok k₄

section Pas

variable {k : Noyau} {a : Indice}

theorem waitClock_dort (env : Env) (sain : Sain k) (actif : k.pidActif = some a) {clock : UInt32}
    (autorise : permis k (.appel (.waitClock clock)) = true) :
    ∃ k', pas env k (.appel (.waitClock clock)) = .ok k' ∧ Dort k' a clock ∧
      k'.horloge = k.horloge ∧ ∀ i, i ≠ a → (k'.table i).suite = (k.table i).suite ∧
        ((k'.table i).etat = .mort ↔ (k.table i).etat = .mort) := by
  have nonZero : a ≠ 0 := nonZero_of_permis actif rfl autorise
  set k₀ := ((k.noter (.appel a (.waitClock clock))).modifie a fun p =>
    { p with waitIemeInterruptionClock := clock }).suspend a (.retour 0) with defk₀
  have vue : MemeVue k k₀ := (MemeVue.noter k _).trans (.prepare _ a _ fun _ => ⟨rfl, rfl, rfl, rfl, rfl⟩)
  have soi : (k₀.table a).waitIemeInterruptionClock = clock := by
    rw [defk₀, Noyau.suspend_table_self, Noyau.modifie_table_self]
  obtain ⟨k₁, k', run, run', change, ord⟩ := bloquer_ok (sain.valide.transport vue)
    (vue.pidActif.trans actif) (e := .bloqueSurSemaphore) ⟨by simp, by simp, by simp⟩ (by simp)
    (by rw [vue.etat]; exact sain.vivant actif) id .refl
  refine ⟨k', ?_, ⟨?_, ?_⟩, ?_, fun i autre => ⟨?_, ?_⟩⟩
  · have appel : executer env k (.appel (.waitClock clock)) = .ok k' := by
      have actif₁ : (k.noter (.appel a (.waitClock clock))).pidActif = some a := actif
      simp only [executer, actif, appeler, waitClock, actif₁, if_neg nonZero]
      rw [← run']
      exact congrArg (· >>= ordonnancer) run
    simp only [pas, appel]
  · rw [ord.etat_iff (by simp) (by simp), id, change.etat, if_pos rfl]
  · rw [ord.champs, id, change.champs, soi]
  · rw [ord.noyau, id, change.noyau]
    rfl
  · rw [ord.champs, id, change.table_ne autre, defk₀, Noyau.suspend_table_ne _ _ autre,
      Noyau.modifie_table_ne _ _ autre, Noyau.noter_table]
  · rw [ord.etat_iff (by simp) (by simp), id, change.table_ne autre, vue.etat]

theorem tic_avance (env : Env) (sain : Sain k) :
    ∃ k₃ k', parcourEndormis k.endormis.length { k with horloge := k.horloge + 1 } = .ok k₃ ∧
      Parcouru { k with horloge := k.horloge + 1 } k₃ ∧ ordonnancer k₃ = .ok k' ∧
      Ordonnance k₃ k' ∧ k'.horloge = k.horloge + 1 ∧ pas env k .tic = .ok k' := by
  have valide : Valide { k with horloge := k.horloge + 1 } := sain.valide.of_table rfl rfl rfl rfl
  obtain ⟨k₃, fin, parcouru⟩ := parcourEndormis_parcouru valide.coherent le_rfl
  obtain ⟨reveils, -⟩ := (parcourEndormis_ok valide _).of_ok fin
  obtain ⟨k', run, ord⟩ := ordonnancer_ok parcouru.coherent fun b actif => by
    rw [reveils.pidActif] at actif
    rw [reveils.actif (sain.actif b actif)]
    exact EtatProcessus.noConfusion
  refine ⟨k₃, k', fin, parcouru, run, ord, ?_, ?_⟩
  · rw [ord.noyau]
    exact reveils.horloge
  · have tic : executer env k .tic = .ok k' := by
      rw [executer, ticPIT, ← run]
      exact congrArg (· >>= ordonnancer) fin
    simp only [pas, tic]

theorem CourseTics.dort {env : Env} {w : UInt32} {d n : Nat} {k' : Noyau} (sain : Sain k)
    (dort : Dort k a w) (avant : ∀ m, 0 < m → m < d → ¬ w ≤ k.horloge + UInt32.ofNat m)
    (course : CourseTics env a k n k') (court : n < d) :
    Sain k' ∧ Dort k' a w ∧ k'.horloge = k.horloge + UInt32.ofNat n := by
  induction course with
  | debut => exact ⟨sain, dort, (UInt32.add_zero _).symm⟩
  | autre avant nonTic autorise propre epargne resultat ih =>
      obtain ⟨sain₁, dort₁, horloge₁⟩ := ih court
      obtain ⟨etape, sain₂⟩ := sain₁.pas env autorise propre resultat
      have repos := etape.repos sain₁ nonTic
      exact ⟨sain₂, repos.dort a w epargne dort₁, repos.horloge.trans horloge₁⟩
  | @tic n k₁ k₂ course autorise resultat ih =>
      obtain ⟨sain₁, dort₁, horloge₁⟩ := ih (Nat.lt_of_succ_lt court)
      obtain ⟨k₃, k₄, -, parcouru, -, ord, horloge, tic⟩ := tic_avance env sain₁
      cases tic.symm.trans resultat
      have avance : k₁.horloge + 1 = k.horloge + UInt32.ofNat (n + 1) := by
        rw [horloge₁, UInt32.ofNat_add, ← UInt32.add_assoc]
        rfl
      have tard : ¬ echu { k₁ with horloge := k₁.horloge + 1 } a := by
        rw [echu, decide_eq_true_eq, dort₁.echeance, avance]
        exact avant _ (Nat.succ_pos n) court
      have entree := parcouru.table a
      rw [if_neg fun du => tard du.2] at entree
      refine ⟨(sain₁.pas env autorise trivial resultat).2, ⟨?_, ?_⟩, horloge.trans avance⟩
      · rw [ord.etat_iff (by simp) (by simp), entree]
        exact dort₁.etat
      · rw [ord.champs, entree]
        exact dort₁.echeance

theorem tic_reveille (env : Env) (sain : Sain k) {w : UInt32} (dort : Dort k a w)
    (du : w ≤ k.horloge + 1) :
    ∃ k₃ k', parcourEndormis k.endormis.length { k with horloge := k.horloge + 1 } = .ok k₃ ∧
      (k₃.table a).etat = .activable ∧ ordonnancer k₃ = .ok k' ∧ pas env k .tic = .ok k' ∧
      (k'.table a).etat ≠ .bloqueSurSemaphore := by
  obtain ⟨k₃, k', fin, parcouru, run, ord, -, tic⟩ := tic_avance env sain
  have eveil : (k₃.table a).etat = .activable := by
    have mem : a ∈ k.endormis := (sain.valide.coherent.endormis_mem a).mpr dort.etat
    have venu : echu { k with horloge := k.horloge + 1 } a := by
      rw [echu, decide_eq_true_eq, dort.echeance]
      exact du
    rw [parcouru.table, if_pos ⟨mem, venu⟩]
  refine ⟨k₃, k', fin, eveil, run, tic, ?_⟩
  rw [Ne, ord.etat_iff (by simp) (by simp), eveil]
  exact EtatProcessus.noConfusion

end Pas

section Counter

variable {c d : UInt32}

theorem echeance_iff {n : Nat} (bon : c.toNat + d.toNat < UInt32.size ∨ c.toNat + 1 = UInt32.size)
    (positif : 0 < n) (court : n ≤ d.toNat) : c + d ≤ c + UInt32.ofNat n ↔ n = d.toNat := by
  have borneC := c.toNat_lt_size
  have borneD := d.toNat_lt_size
  rw [UInt32.le_iff_toNat_le, UInt32.toNat_add, UInt32.toNat_add, UInt32.toNat_ofNat']
  unfold UInt32.size at *
  omega

theorem echeance_passee (retour : ¬ (c.toNat + d.toNat < UInt32.size ∨ c.toNat + 1 = UInt32.size)) :
    c + d ≤ c + 1 := by
  have borneC := c.toNat_lt_size
  have borneD := d.toNat_lt_size
  rw [UInt32.le_iff_toNat_le, UInt32.toNat_add, UInt32.toNat_add, UInt32.toNat_one]
  unfold UInt32.size at *
  omega

theorem sommeil_exact
    (bon : c.toNat + d.toNat < UInt32.size ∨ c.toNat + 1 = UInt32.size) : SommeilExact c d := by
  intro env k a atteint horloge actif autorise
  have sain := sain_of_atteint env (fun _ _ _ => id) atteint
  obtain ⟨k₁, resultat, dort, horloge₁, -⟩ := waitClock_dort env sain actif autorise
  have sain₁ := (sain.pas env autorise trivial resultat).2
  rw [currentClock, horloge] at dort
  have tard : ∀ m, 0 < m → m < d.toNat → ¬ c + d ≤ k₁.horloge + UInt32.ofNat m := by
    intro m positif court
    rw [horloge₁, horloge, echeance_iff bon positif court.le]
    exact court.ne
  refine ⟨k₁, resultat, fun n k₂ course court => (course.dort sain₁ dort tard court).2.1.etat,
    fun n k₂ course fin autorise' => ?_⟩
  obtain ⟨sain₂, dort₂, horloge₂⟩ := course.dort sain₁ dort tard (by omega)
  have du : c + d ≤ k₂.horloge + 1 := by
    have avance : k₂.horloge + 1 = c + UInt32.ofNat (n + 1) := by
      rw [horloge₂, horloge₁, horloge, UInt32.ofNat_add, ← UInt32.add_assoc]
      rfl
    rw [avance, echeance_iff bon (Nat.succ_pos n) fin.le]
    exact fin
  obtain ⟨k₃, k₄, parcours, eveil, run, tic, -⟩ := tic_reveille env sain₂ dort₂ du
  exact ⟨k₃, k₄, parcours, eveil, run, tic⟩

end Counter

structure Seul (k : Noyau) : Prop where
  actif : k.pidActif = some 1
  etat : (k.table 1).etat = .actif
  suite : (k.table 1).suite = .execution
  activables : k.activables = [0]
  endormis : k.endormis = []
  prio : (k.table 0).prio < (k.table 1).prio
  veille : (k.table 0).suite = .retour 1
  autres : ∀ i, i ≠ 0 → i ≠ 1 → (k.table i).etat = .mort

instance (k : Noyau) : Decidable (Seul k) :=
  decidable_of_iff (k.pidActif = some 1 ∧ (k.table 1).etat = .actif ∧
      (k.table 1).suite = .execution ∧ k.activables = [0] ∧ k.endormis = [] ∧
      (k.table 0).prio < (k.table 1).prio ∧ (k.table 0).suite = .retour 1 ∧
      ∀ i, i ≠ 0 → i ≠ 1 → (k.table i).etat = .mort)
    ⟨fun h => ⟨h.1, h.2.1, h.2.2.1, h.2.2.2.1, h.2.2.2.2.1, h.2.2.2.2.2.1, h.2.2.2.2.2.2.1,
      h.2.2.2.2.2.2.2⟩, fun h => ⟨h.1, h.2, h.3, h.4, h.5, h.6, h.7, h.8⟩⟩

theorem Seul.tic (env : Env) {k : Noyau} (seul : Seul k) :
    pas env k .tic = .ok { k with horloge := k.horloge + 1 } := by
  set k₁ : Noyau := { k with horloge := k.horloge + 1 } with defk₁
  have parcours : parcourEndormis k.endormis.length k₁ = .ok k₁ := by
    rw [seul.endormis, List.length_nil, parcourEndormis, show k₁.endormis = [] from seul.endormis]
    rfl
  have reste : resteActif k₁ 0 = true := by
    simp [resteActif, defk₁, seul.actif, seul.etat, seul.prio]
  have ordonne : ordonnancer k₁ = .ok k₁ := by
    rw [ordonnancer, show k₁.activables = [0] from seul.activables]
    exact if_pos reste
  have tic : executer env k .tic = .ok k₁ := by
    rw [executer, ticPIT, ← ordonne]
    exact congrArg (· >>= ordonnancer) parcours
  simp only [pas, tic]

theorem compteur_atteint (n : Nat) :
    ∃ k, Atteint Env.exemple KillPropre k ∧ k.horloge = UInt32.ofNat n ∧ Seul k := by
  induction n with
  | zero =>
      obtain ⟨k, atteint, test⟩ := Atteint.of_verifier Env.exemple (C := fun _ e => sansKill e)
        (l := [demarrer 0, .reprise, demarrer 1, .reprise])
        (T := fun k => decide (k.horloge = 0 ∧ Seul k)) (by decide +kernel)
      obtain ⟨horloge, seul⟩ := of_decide_eq_true test
      exact ⟨k, atteint.mono Env.exemple fun _ _ => killPropre_of_sansKill, horloge, seul⟩
  | succ n ih =>
      obtain ⟨k, ⟨k₀, boot, course⟩, horloge, seul⟩ := ih
      have autorise : permis k .tic = true := by simp [permis, seul.actif, seul.suite]
      refine ⟨{ k with horloge := k.horloge + 1 },
        ⟨k₀, boot, course.tail ⟨.tic, autorise, trivial, seul.tic Env.exemple⟩⟩, ?_,
        ⟨seul.actif, seul.etat, seul.suite, seul.activables, seul.endormis, seul.prio, seul.veille,
          seul.autres⟩⟩
      rw [UInt32.ofNat_add, ← horloge]
      rfl

theorem sommeil_ecourte {c d : UInt32}
    (retour : ¬ (c.toNat + d.toNat < UInt32.size ∨ c.toNat + 1 = UInt32.size)) :
    ¬ SommeilExact c d := by
  intro loi
  obtain ⟨k, atteint, horloge, seul⟩ := compteur_atteint c.toNat
  rw [UInt32.ofNat_toNat] at horloge
  have sain := sain_of_atteint Env.exemple (fun _ _ _ => id) atteint
  have autorise : permis k (.appel (.waitClock (currentClock k + d))) = true := by
    simp only [permis, seul.actif, seul.suite]
    rfl
  obtain ⟨k₁, resultat, bloque, -⟩ := loi Env.exemple k 1 atteint horloge seul.actif autorise
  obtain ⟨k₁', resultat', dort, horloge₁, autres⟩ := waitClock_dort Env.exemple sain seul.actif autorise
  cases resultat'.symm.trans resultat
  have sain₁ := (sain.pas Env.exemple autorise trivial resultat).2
  have veille : (k₁.table 0).suite = .retour 1 := (autres 0 (by decide)).1.trans seul.veille
  -- only the idle process is left to run
  have actif₁ : k₁.pidActif = some 0 := by
    rcases sain₁.stable with depart | ⟨b, cours⟩
    · have mort := depart.mort 1
      rw [dort.etat] at mort
      cases mort
    · rw [cours.pidActif, Option.some.injEq]
      by_contra autre
      have eveille : b ≠ 1 := by
        rintro rfl
        exact cours.courant.simple_ne (by simp) (by simp) dort.etat
      exact cours.vivant ((autres b eveille).2.mpr (seul.autres b autre eveille))
  set k₂ := (k₁.noter (.retour 0 1)).suspend 0 .execution with defk₂
  have autorise₁ : permis k₁ .reprise = true := by simp [permis, actif₁, veille]
  have reprise : pas Env.exemple k₁ .reprise = .ok k₂ := by
    simp only [pas, executer, actif₁, reprendre, veille]
    rfl
  obtain ⟨etape, sain₂⟩ := sain₁.pas Env.exemple autorise₁ trivial reprise
  have repos := etape.repos sain₁ Evenement.noConfusion
  have visee : ¬ Vise .reprise 1 := by
    rintro ⟨pid, ⟨⟩, -⟩
  have autorise₂ : permis k₂ .tic = true := by
    have actif₂ : k₂.pidActif = some 0 := actif₁
    have suite₂ : (k₂.table 0).suite = .execution := by rw [defk₂, Noyau.suspend_table_self]
    simp [permis, actif₂, suite₂]
  have du : currentClock k + d ≤ k₂.horloge + 1 := by
    rw [repos.horloge, horloge₁, currentClock, horloge]
    exact echeance_passee retour
  obtain ⟨k₃, k₄, -, -, -, tic, eveil⟩ :=
    tic_reveille Env.exemple sain₂ (repos.dort 1 _ visee dort) du
  refine eveil (bloque 1 k₄ (.tic (.autre .debut Evenement.noConfusion autorise₁ trivial visee reprise)
    autorise₂ tic) ?_)
  have borneC := c.toNat_lt_size
  omega

/-- A sleep of `d` ticks from the counter value `c` lasts `d` ticks exactly when the deadline
does not pass the wrap-around, or the very next tick does. -/
theorem sommeil_iff (c d : UInt32) : SommeilExact c d ↔
    c.toNat + d.toNat < UInt32.size ∨ c.toNat + 1 = UInt32.size := by
  constructor
  · intro loi
    by_contra retour
    exact sommeil_ecourte retour loi
  · exact sommeil_exact

/-- Two ticks before the wrap-around, a sleep of three ticks ends at the first. -/
theorem sommeil_retour : ¬ ∀ c d : UInt32, 1 ≤ d → d < 0x80000000 → SommeilExact c d := by
  intro toujours
  refine sommeil_ecourte (c := 0xfffffffe) (d := 3) ?_ (toujours 0xfffffffe 3 ?_ ?_) <;> decide

end ProjetSysteme.Properties
