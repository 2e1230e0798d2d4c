/- Properties/Chprio
   source: kernel/process.c, kernel/file.c, kernel/console.c
   digest: The waiting lists after a change of priority. -/

import ProjetSysteme.Invariant.Inversion

set_option autoImplicit false
set_option relaxedAutoImplicit false

namespace ProjetSysteme.Properties

open Kernel Invariant Library.PriorityList Library.Outcome

inductive FileAttente
  | activables
  | consRead
  | reception (fid : IndiceFile)
  | envoi (fid : IndiceFile)

def enAttente (k : Noyau) : FileAttente → List Indice
  | .activables => k.activables
  | .consRead => lecteurs k
  | .reception fid => (k.files fid).listeProcBloqueReception.map ProcessBloque.pid
  | .envoi fid => (k.files fid).listeProcBloqueEnvoi.map ProcessBloque.pid

structure Reprioritise (k : Noyau) (a pr : Indice) (newprio : Int) (k' : Noyau) : Prop where
  valide : Valide k'
  retour : (k'.table a).suite = .retour (k.table pr).prio
  soi : k'.prioDe pr = newprio
  autres : ∀ j, j ≠ pr → k'.prioDe j = k.prioDe j
  listes : ∀ f, f ≠ .activables → enAttente k' f = enAttente k f

theorem enAttente_ordonnance {k k' : Noyau} (ord : Ordonnance k k') {f : FileAttente}
    (autre : f ≠ .activables) : enAttente k' f = enAttente k f := by
  rw [ord.noyau]
  cases f with
  | activables => exact absurd rfl autre
  | _ => rfl

theorem cederAuPlusPrioritaire_ok {k : Noyau} {a : Indice} (cours : EnCours k a) :
    ∃ k', cederAuPlusPrioritaire k a = .ok k' ∧ (k' = k ∨ Ordonnance k k') := by
  have coherent := cours.interne.valide.coherent
  unfold cederAuPlusPrioritaire
  split
  · exact ⟨k, rfl, .inl rfl⟩
  · next premier dernier =>
      split
      · next prio =>
          rcases ordonnancer_cas coherent.toRangement with
            ⟨_, run⟩ | ⟨pr, dernier', ⟨_, run⟩ | ⟨_, _, run⟩ | ⟨_, soi, _⟩⟩
          · exact ⟨_, run, .inr ((ordonnancer_sat coherent).of_ok run)⟩
          · exact ⟨_, run, .inr ((ordonnancer_sat coherent).of_ok run)⟩
          · exact ⟨_, run, .inr ((ordonnancer_sat coherent).of_ok run)⟩
          · -- the process in front has a greater priority than the caller
            exfalso
            rw [cours.pidActif] at soi
            rw [dernier, Option.some.inj soi.symm] at dernier'
            rw [Option.some.inj dernier'] at prio
            exact lt_irrefl _ prio
      · exact ⟨k, rfl, .inl rfl⟩

theorem chprio_reprioritise {k : Noyau} {a pr : Indice} {pid newprio : Int} (cours : EnCours k a)
    (designe : indice? pid = some pr) (positif : 0 < newprio) (nonMort : (k.table pr).etat ≠ .mort)
    (nonZombie : (k.table pr).etat ≠ .zombie) :
    ∃ k', chprio k a pid newprio = .ok k' ∧ Reprioritise k a pr newprio k' := by
  have garde : ¬ (newprio ≤ 0 ∨ (k.table pr).etat = .mort ∨ (k.table pr).etat = .zombie) := by
    rintro (negatif | mort | zombie)
    · exact absurd positif (not_lt.mpr negatif)
    · exact nonMort mort
    · exact nonZombie zombie
  unfold chprio
  rw [designe]
  simp only [if_neg garde]
  split
  · next meme =>
      refine ⟨_, rfl, cours.interne.valide.transport (.renvoie k a _), ?_, ?_, fun j _ => ?_, ?_⟩
      · rw [meme, Noyau.renvoie, Noyau.suspend_table_self]
      · rw [Noyau.prioDe, (MemeVue.renvoie k a _).prio, meme]
      · rw [Noyau.prioDe, (MemeVue.renvoie k a _).prio, Noyau.prioDe]
      · intro f _
        cases f <;> rfl
  · obtain ⟨k₁, run, reclasse, valide₁⟩ := replacerActivable_ok cours.interne.valide pr newprio
    set k₂ := k₁.renvoie a (k.table pr).prio with defk₂
    have vue : MemeVue k₁ k₂ := .renvoie k₁ a _
    have deux : Reprioritise k a pr newprio k₂ := by
      refine ⟨valide₁.transport vue, ?_, ?_, fun j autre => ?_, fun f autre => ?_⟩
      · rw [defk₂, Noyau.renvoie, Noyau.suspend_table_self]
      · rw [Noyau.prioDe, vue.prio, reclasse.soi]
      · rw [Noyau.prioDe, vue.prio, reclasse.autres j autre, Noyau.prioDe]
      · rw [defk₂, reclasse.noyau]
        cases f with
        | activables => exact absurd rfl autre
        | _ => rfl
    obtain ⟨k', run', suite⟩ :=
      cederAuPlusPrioritaire_ok ((reclasse.enCours valide₁ cours).renvoie a (k.table pr).prio)
    refine ⟨k', by simp only [run]; exact run', ?_⟩
    rcases suite with rfl | ord
    · exact deux
    · refine ⟨ord.valide deux.valide, ?_, ?_, fun j autre => ?_, fun f autre => ?_⟩
      · rw [ord.champs]
        exact deux.retour
      · rw [Noyau.prioDe, ord.prio]
        exact deux.soi
      · rw [Noyau.prioDe, ord.prio]
        exact deux.autres j autre
      · rw [enAttente_ordonnance ord autre, deux.listes f autre]

end ProjetSysteme.Properties
