/- Invariant/Scheduling
   digest: Effect of ordonnancer: the election of the ready process of greatest priority. -/

import ProjetSysteme.Invariant.Change
import ProjetSysteme.Library.Outcome

set_option autoImplicit false
set_option relaxedAutoImplicit false

namespace ProjetSysteme.Invariant

open Kernel Library.PriorityList Library.Outcome

def Courant (e : EtatProcessus) : Prop := e = .actif ∨ e = .activable

theorem Courant.simple_ne {e s : EtatProcessus} (courant : Courant e) (actif : s ≠ .actif)
    (activable : s ≠ .activable) : e ≠ s := by
  rintro rfl
  exact courant.elim actif activable

def Prioritaire (k : Noyau) : Prop :=
  ∀ a j, k.pidActif = some a → (k.table j).etat = .activable → (k.table j).prio ≤ (k.table a).prio

theorem Prioritaire.transport {k k' : Noyau} (vue : MemeVue k k') (prioritaire : Prioritaire k) :
    Prioritaire k' := by
  intro a j actif activable
  rw [vue.pidActif] at actif
  rw [vue.etat] at activable
  rw [vue.prio, vue.prio]
  exact prioritaire a j actif activable

structure Ordonnance (k k' : Noyau) : Prop where
  noyau : k' = { k with
    table := k'.table, activables := k'.activables, pidActif := k'.pidActif }
  champs : ∀ j, k'.table j = { k.table j with etat := (k'.table j).etat }
  etat : ∀ j, (k'.table j).etat = (k.table j).etat ∨
    (Courant (k.table j).etat ∧ Courant (k'.table j).etat)
  coherent : Coherent k'
  prioritaire : Prioritaire k'
  vide : k.activables = [] → k' = k
  elu : k.activables ≠ [] → ∃ a, k'.pidActif = some a ∧ (k'.table a).etat = .actif

namespace Ordonnance

variable {k k' : Noyau}

theorem prio (ord : Ordonnance k k') (j : Indice) : (k'.table j).prio = (k.table j).prio := by
  rw [ord.champs]

theorem pere (ord : Ordonnance k k') (j : Indice) : (k'.table j).pere = (k.table j).pere := by
  rw [ord.champs]

theorem fils (ord : Ordonnance k k') (j : Indice) : (k'.table j).fils = (k.table j).fils := by
  rw [ord.champs]

theorem etat_iff (ord : Ordonnance k k') {s : EtatProcessus} (actif : s ≠ .actif)
    (activable : s ≠ .activable) (j : Indice) : (k'.table j).etat = s ↔ (k.table j).etat = s := by
  rcases ord.etat j with meme | ⟨avant, apres⟩
  · rw [meme]
  · exact ⟨fun h => absurd h (apres.simple_ne actif activable),
      fun h => absurd h (avant.simple_ne actif activable)⟩

theorem courant_iff (ord : Ordonnance k k') (j : Indice) :
    Courant (k'.table j).etat ↔ Courant (k.table j).etat := by
  rcases ord.etat j with meme | ⟨avant, apres⟩
  · rw [meme]
  · simp [avant, apres]

theorem famille (ord : Ordonnance k k') (famille : Famille k) : Famille k' :=
  famille.congr (ord.etat_iff (by simp) (by simp)) ord.pere ord.fils

theorem valide (ord : Ordonnance k k') (valide : Valide k) : Valide k' :=
  ⟨ord.coherent, ord.famille valide.famille⟩

end Ordonnance

/-- The state after the election of `pr`, before the running process gives way. -/
def elire (k : Noyau) (pr : Indice) : Noyau :=
  { k with activables := k.activables.dropLast, pidActif := some pr }.modifie pr
    fun p => { p with etat := .actif }

theorem elire_etat (k : Noyau) (pr j : Indice) :
    ((elire k pr).table j).etat = if j = pr then .actif else (k.table j).etat := by
  rw [elire, Noyau.modifie_table]
  split <;> rfl

theorem elire_champs (k : Noyau) (pr j : Indice) :
    (elire k pr).table j = { k.table j with etat := ((elire k pr).table j).etat } := by
  rw [elire, Noyau.modifie_table]
  split <;> rfl

theorem elire_rangement {k : Noyau} (range : Rangement k) {pr : Indice}
    (dernier : k.activables.getLast? = some pr) : Rangement (elire k pr) := by
  have activable := (range.activables_mem pr).mp (last_mem dernier)
  have prio : ∀ i, (elire k pr).prioDe i = k.prioDe i := fun i => by
    rw [Noyau.prioDe, elire_champs]
    rfl
  refine ⟨fun i => ?_, fun i => ?_, fun i => ?_, ?_, ?_, fun i => ?_, range.endormis_nodup⟩
  · rw [elire_champs]
    exact range.pid_indice i
  · rw [elire_etat, elire_champs, range.pid_mort]
    split
    · next meme => simp [meme, activable]
    · rfl
  · rw [elire_etat]
    refine (mem_dropLast range.activables_nodup dernier).trans ?_
    rw [range.activables_mem]
    split
    · next meme => simp [meme]
    · next autre => simp [autre]
  · exact range.activables_nodup.sublist (List.dropLast_sublist _)
  · exact (range.activables_tries.sublist _ (List.dropLast_sublist _)).congr _
      fun i _ => (prio i).symm
  · rw [elire_etat]
    refine (range.endormis_mem i).trans ?_
    split
    · next meme => simp [meme, activable]
    · rfl

theorem definirEtat_actif {k : Noyau} (range : Rangement k) {pr : Indice}
    (dernier : k.activables.getLast? = some pr) :
    definirEtat { k with activables := k.activables.dropLast } pr .actif = .ok (elire k pr) := by
  have activable := (range.activables_mem pr).mp (last_mem dernier)
  have pid := range.pid_vivant (i := pr) (by simp [activable])
  simp [definirEtat, limite, definirEtatProcessus, casEtat, quitterActivables, quitterEndormis,
    prendreLaMain, pid, activable, bind, Except.bind, elire]

def ceder (k : Noyau) (actif : Option Indice) : Noyau :=
  match actif with
  | none => k
  | some a => if (k.table a).etat = .actif then changeEtat k a .activable else k

theorem cederLaMain_ok {k : Noyau} (range : Rangement k) (actif : Option Indice) :
    cederLaMain k actif = .ok (ceder k actif) := by
  cases actif with
  | none => rfl
  | some a =>
      rw [cederLaMain, ceder]
      split
      · next etat =>
          refine definirEtat_change range ⟨?_, ?_, ?_⟩ ?_ ?_ <;> simp [etat]
      · rfl

theorem ordonnancer_cas {k : Noyau} (range : Rangement k) :
    (k.activables = [] ∧ ordonnancer k = .ok k) ∨
    ∃ pr, k.activables.getLast? = some pr ∧
      ((resteActif k pr = true ∧ ordonnancer k = .ok k) ∨
        (resteActif k pr = false ∧ k.pidActif ≠ some pr ∧
          ordonnancer k = .ok (ceder (elire k pr) k.pidActif)) ∨
        (resteActif k pr = false ∧ k.pidActif = some pr ∧
          ordonnancer k = .error (.confirme (changeEtat (elire k pr) pr .activable)))) := by
  cases dernier : k.activables.getLast? with
  | none =>
      refine .inl ⟨List.getLast?_eq_none_iff.mp dernier, ?_⟩
      rw [ordonnancer, dernier]
  | some pr =>
      refine .inr ⟨pr, rfl, ?_⟩
      have range' := elire_rangement range dernier
      have pid : ((elire k pr).table pr).pid = (elire k pr).pidActif := by
        have activable := (range.activables_mem pr).mp (last_mem dernier)
        rw [elire_champs]
        exact range.pid_vivant (by simp [activable])
      rw [ordonnancer, dernier]
      simp only
      cases reste : resteActif k pr with
      | true => exact .inl ⟨rfl, by simp⟩
      | false =>
          refine .inr ?_
          simp only [Bool.false_eq_true, if_false, definirEtat_actif range dernier, bind,
            Except.bind, pid, ne_eq, not_true_eq_false, cederLaMain_ok range']
          by_cases soi : k.pidActif = some pr
          · refine .inr ⟨trivial, soi, ?_⟩
            rw [if_pos soi.symm, soi, ceder]
            simp [elire_etat]
          · exact .inl ⟨trivial, soi, by rw [if_neg (Ne.symm soi)]⟩

private theorem resteActif_prio {k : Noyau} {pr a : Indice} (cede : resteActif k pr = false)
    (actif : k.pidActif = some a) (etat : (k.table a).etat = .actif) :
    (k.table a).prio ≤ (k.table pr).prio := by
  simp only [resteActif, actif, etat, true_and, decide_eq_false_iff_not, not_lt] at cede
  exact cede

private theorem ceder_etat {k : Noyau} {pr j : Indice} (autre : k.pidActif ≠ some pr) :
    ((ceder (elire k pr) k.pidActif).table j).etat =
      if j = pr then .actif
      else if k.pidActif = some j ∧ (k.table j).etat = .actif then .activable
      else (k.table j).etat := by
  unfold ceder
  split
  · next aucun => rw [elire_etat]; simp [aucun]
  · next a actif =>
      have ne : a ≠ pr := fun meme => autre (by rw [actif, meme])
      rw [elire_etat, if_neg ne]
      by_cases estA : j = a
      · subst estA
        split_ifs <;> simp_all [changeEtat_etat, elire_etat]
      · split <;> simp [changeEtat_etat, elire_etat, estA, actif, Ne.symm estA]

private theorem ceder_champs (k : Noyau) (pr j : Indice) :
    (ceder (elire k pr) k.pidActif).table j =
      { k.table j with etat := ((ceder (elire k pr) k.pidActif).table j).etat } := by
  unfold ceder
  split
  · exact elire_champs k pr j
  · split
    · rw [changeEtat_champs, elire_champs]
    · exact elire_champs k pr j

private theorem ceder_pidActif (k : Noyau) (pr : Indice) :
    (ceder (elire k pr) k.pidActif).pidActif = some pr := by
  unfold ceder
  split
  · rfl
  · split <;> rfl

private theorem ceder_ordonnance {k : Noyau} (coherent : Coherent k) {pr : Indice}
    (dernier : k.activables.getLast? = some pr) (cede : resteActif k pr = false)
    (autre : k.pidActif ≠ some pr) : Ordonnance k (ceder (elire k pr) k.pidActif) := by
  have range' := elire_rangement coherent.toRangement dernier
  have activable := (coherent.activables_mem pr).mp (last_mem dernier)
  have pid := ceder_pidActif k pr
  have prio : ∀ i, ((ceder (elire k pr) k.pidActif).table i).prio = (k.table i).prio := fun i => by
    rw [ceder_champs]
  refine ⟨?_, ceder_champs k pr, fun j => ?_, ⟨?_, fun i actif => ?_⟩, fun a j actif enFile => ?_,
    fun vide => ?_, fun _ => ⟨pr, pid, by rw [ceder_etat autre, if_pos rfl]⟩⟩
  · unfold ceder
    split
    · rfl
    · split
      · next etat =>
          rw [changeEtat_noyau, changeEtat_endormis range' (by simp [etat]) (by simp)]
          rfl
      · rfl
  · rw [ceder_etat autre]
    split_ifs with estPr courant
    · exact .inr ⟨.inr (estPr ▸ activable), .inl rfl⟩
    · exact .inr ⟨.inl courant.2, .inr rfl⟩
    · exact .inl rfl
  · unfold ceder
    split
    · exact range'
    · split
      · next etat =>
          refine changeEtat_rangement range' ⟨?_, ?_, ?_⟩ ?_ <;> simp [etat]
      · exact range'
  · rw [ceder_etat autre] at actif
    rw [pid]
    split_ifs at actif with estPr courant
    · rw [estPr]
    · exact absurd ⟨coherent.actif_seul i actif, actif⟩ courant
  · rw [pid] at actif
    rw [prio, prio, ← Option.some.inj actif]
    rw [ceder_etat autre] at enFile
    split_ifs at enFile with estPr courant
    · exact resteActif_prio cede courant.1 courant.2
    · exact le_last k.prioDe coherent.activables_tries dernier
        ((coherent.activables_mem j).mpr enFile)
  · rw [vide] at dernier
    cases dernier

private theorem reste_ordonnance {k : Noyau} (coherent : Coherent k) {pr : Indice}
    (dernier : k.activables.getLast? = some pr) (reste : resteActif k pr = true) :
    Ordonnance k k := by
  unfold resteActif at reste
  split at reste
  · next a actif =>
      simp only [decide_eq_true_eq] at reste
      refine ⟨rfl, fun _ => rfl, fun _ => .inl rfl, coherent, fun a' j actif' enFile => ?_,
        fun _ => rfl, fun _ => ⟨a, actif, reste.1⟩⟩
      rw [actif] at actif'
      rw [← Option.some.inj actif']
      exact (le_last k.prioDe coherent.activables_tries dernier
        ((coherent.activables_mem j).mpr enFile)).trans reste.2.le
  · cases reste

private theorem vide_ordonnance {k : Noyau} (coherent : Coherent k) (vide : k.activables = []) :
    Ordonnance k k := by
  refine ⟨rfl, fun _ => rfl, fun _ => .inl rfl, coherent, fun a j _ enFile => ?_, fun _ => rfl,
    fun nonVide => absurd vide nonVide⟩
  have := (coherent.activables_mem j).mpr enFile
  rw [vide] at this
  cases this

/-- The state in which `ordonnancer` finds the running process in the ready queue. -/
structure AutoElu (k k' : Noyau) : Prop where
  noyau : k' = { k with table := k'.table, activables := k'.activables }
  table : k'.table = k.table
  coherent : Coherent k'
  soi : ∃ pr, k.pidActif = some pr ∧ (k.table pr).etat = .activable

private theorem autoElu {k : Noyau} (coherent : Coherent k) {pr : Indice}
    (dernier : k.activables.getLast? = some pr) (soi : k.pidActif = some pr) :
    AutoElu k (changeEtat (elire k pr) pr .activable) := by
  have range' := elire_rangement coherent.toRangement dernier
  have activable := (coherent.activables_mem pr).mp (last_mem dernier)
  have etat : ((elire k pr).table pr).etat = .actif := by rw [elire_etat, if_pos rfl]
  have table : (changeEtat (elire k pr) pr .activable).table = k.table := by
    funext j
    rw [changeEtat_champs, changeEtat_etat, elire_champs, elire_etat]
    split
    · next meme => rw [meme, ← activable]
    · rfl
  refine ⟨?_, table, ⟨?_, fun i actif => ?_⟩, pr, soi, activable⟩
  · rw [changeEtat_noyau, changeEtat_endormis range' (by simp [etat]) (by simp)]
    simp only [elire, Noyau.modifie, soi]
  · refine changeEtat_rangement range' ⟨?_, ?_, ?_⟩ ?_ <;> simp [etat]
  · rw [table] at actif
    exact soi.symm.trans (coherent.actif_seul i actif)

/-- `ordonnancer` elects the ready process of greatest priority, unless the
running process is itself in the ready queue. -/
theorem ordonnancer_sat {k : Noyau} (coherent : Coherent k) :
    Sat (ordonnancer k) (Ordonnance k) fun e => ∃ k', e = .confirme k' ∧ AutoElu k k' := by
  rcases ordonnancer_cas coherent.toRangement with
    ⟨vide, run⟩ | ⟨pr, dernier, ⟨reste, run⟩ | ⟨cede, autre, run⟩ | ⟨_, soi, run⟩⟩
  · rw [run]
    exact vide_ordonnance coherent vide
  · rw [run]
    exact reste_ordonnance coherent dernier reste
  · rw [run]
    exact ceder_ordonnance coherent dernier cede autre
  · rw [run]
    exact ⟨_, rfl, autoElu coherent dernier soi⟩

end ProjetSysteme.Invariant
