/- Invariant/ProcessRuns
   digest: Runs in which no process uses the message queues or the console. -/

import ProjetSysteme.Invariant.History

set_option autoImplicit false
set_option relaxedAutoImplicit false

namespace ProjetSysteme.Invariant

open Kernel

/-- The primitives that create, end, wait for, order and delay processes, and the tick. -/
def deProcessus : Evenement → Bool
  | .tic | .reprise => true
  | .touche _ => false
  | .appel (.start ..) | .appel (.exit _) | .appel (.finCode _) | .appel (.kill _)
  | .appel (.waitpid ..) | .appel (.chprio ..) | .appel (.getprio _) | .appel (.waitClock _) => true
  | .appel _ => false

structure SansBlocage (k : Noyau) : Prop where
  receptions : ∀ fid, (k.files fid).listeProcBloqueReception = []
  envois : ∀ fid, (k.files fid).listeProcBloqueEnvoi = []
  lecteurs : lecteurs k = []
  phases : ∀ i, phaseDe (k.table i) = .idle

namespace SansBlocage

variable {k k' : Noyau} {e : Evenement} {a : Indice} {fid : IndiceFile}

theorem killPropre (sans : SansBlocage k) (e : Evenement) : KillPropre k e := by
  unfold KillPropre
  split
  · intro i _
    refine ⟨fun fid => ⟨?_, ?_⟩, ?_⟩
    · simp [sans.receptions fid]
    · simp [sans.envois fid]
    · simp [sans.lecteurs]
  · trivial

theorem non_recoit (sans : SansBlocage k) (sain : Sain k) (actif : k.pidActif = some a)
    (processus : deProcessus e = true) : ¬ Recoit k e a fid := by
  rintro (⟨n, rfl, _⟩ | ⟨_, suite⟩)
  · cases processus
  · have woken : phaseDe (k.table a) = .wokenReceive fid :=
      phaseDe_wokenReceive.mpr ⟨suite, by simp [sain.actif a actif]⟩
    rw [sans.phases] at woken
    cases woken

theorem non_emet (sans : SansBlocage k) (sain : Sain k) (actif : k.pidActif = some a)
    (processus : deProcessus e = true) {message : Int} : ¬ Emet k e a fid message := by
  rintro (⟨n, rfl, _⟩ | ⟨_, suite⟩)
  · cases processus
  · have woken : phaseDe (k.table a) = .wokenSend fid message :=
      phaseDe_wokenSend.mpr ⟨suite, by simp [sain.actif a actif]⟩
    rw [sans.phases] at woken
    cases woken

theorem non_file (sans : SansBlocage k) (sain : Sain k) (processus : deProcessus e = true) :
    ¬ EffetFile e k k' := by
  intro effet
  cases effet with
  | creer count nbFiles actif avant appel =>
      rw [appel] at processus
      cases processus
  | bloquerReception actif nonZero appel => exact sans.non_recoit sain actif processus appel
  | bloquerEnvoi actif nonZero appel => exact sans.non_emet sain actif processus appel
  | prendre actif appel => exact sans.non_recoit sain actif processus appel
  | prendreReveil actif nonZero appel => exact sans.non_recoit sain actif processus appel
  | deposer actif appel => exact sans.non_emet sain actif processus appel
  | deposerReveil actif appel => exact sans.non_emet sain actif processus appel
  | refuser actif appel =>
      rcases appel with appel | ⟨message, appel, _⟩
      · exact sans.non_recoit sain actif processus appel
      · exact sans.non_emet sain actif processus appel
  | abandonner actif reprise suite =>
      exact sans.non_emet sain actif processus (.inr ⟨reprise, suite⟩)
  | vider n actif avant appel =>
      rw [appel] at processus
      cases processus
  | supprimer n nbFiles actif avant appel =>
      rw [appel] at processus
      cases processus

theorem effet (sans : SansBlocage k) (sain : Sain k) (processus : deProcessus e = true)
    (effet : Effet e k k') : SansBlocage k' := by
  have entree := (effet.bilan sain (sans.killPropre e)).entree
  have personne : Invariant.lecteurs k' = [] := by
    refine List.eq_nil_iff_forall_not_mem.mpr fun i mem => ?_
    rcases entree i mem with ancien | ⟨length, rfl⟩
    · rw [sans.lecteurs] at ancien
      cases ancien
    · cases processus
  cases effet with
  | processus effet =>
      rcases effet.epargne sain with epargne | ⟨i, retire⟩
      · have files := epargne.files
        refine ⟨?_, ?_, personne, fun j => ?_⟩
        · rw [files]
          exact sans.receptions
        · rw [files]
          exact sans.envois
        · rw [(epargne.table j id).1]
          exact sans.phases j
      · have files := retire.epargne.files
        refine ⟨?_, ?_, personne, fun j => ?_⟩
        · rw [files]
          exact sans.receptions
        · rw [files]
          exact sans.envois
        · by_cases meme : j = i
          · exact meme ▸ retire.idle
          · rw [(retire.epargne.table j meme).1]
            exact sans.phases j
  | file effet => exact absurd effet (sans.non_file sain processus)

theorem enregistrer (sans : SansBlocage k) (e : Evenement) : SansBlocage (enregistrer k e) := by
  refine ⟨?_, ?_, ?_, ?_⟩
  · rw [enregistrer_files]
    exact sans.receptions
  · rw [enregistrer_files]
    exact sans.envois
  · rw [lecteurs_congr (congrArg Console.attente (enregistrer_console k e))]
    exact sans.lecteurs
  · rw [enregistrer_table]
    exact sans.phases

theorem ordonnance (sans : SansBlocage k) (ord : Ordonnance k k') : SansBlocage k' := by
  have epargne : Epargne (fun _ => False) k k' := .of_ordonnance ord
  have files := epargne.files
  refine ⟨?_, ?_, ?_, fun j => ?_⟩
  · rw [files]
    exact sans.receptions
  · rw [files]
    exact sans.envois
  · rw [lecteurs_congr (k := k) (by rw [ord.noyau])]
    exact sans.lecteurs
  · rw [(epargne.table j id).1]
    exact sans.phases j

theorem etape (sans : SansBlocage k) (sain : Sain k) (processus : deProcessus e = true)
    (etape : Etape e k k') : SansBlocage k' := by
  obtain ⟨k₁, effet, fin⟩ := etape
  have apres := (sans.enregistrer e).effet (sain.enregistrer e) processus effet
  rcases fin with rfl | ord
  · exact apres
  · exact apres.ordonnance ord

end SansBlocage

variable (env : Env)

/-- Induction on a run of the process primitives: `Sain` holds at each step, and each
step is an `Etape`. -/
theorem Atteint.processus {C : Noyau → Evenement → Prop} {P : Noyau → Prop}
    (seuls : ∀ k e, C k e → deProcessus e = true)
    (boot : ∀ k₀, initialiserGestionDesProcessus env = .ok k₀ → P k₀)
    (etape : ∀ k e k', Sain k → SansBlocage k → P k → permis k e = true → C k e → Etape e k k' →
      Sain k' → P k')
    {k : Noyau} (atteint : Atteint env C k) : Sain k ∧ SansBlocage k ∧ P k := by
  refine Atteint.induction env (P := fun k => Sain k ∧ SansBlocage k ∧ P k) (fun k₀ depart => ?_) ?_
    atteint
  · refine ⟨sain_of_boot env depart, ?_, boot k₀ depart⟩
    obtain ⟨memoire, _, valeur⟩ := Library.Outcome.bind_ok depart
    cases valeur
    exact ⟨fun _ => rfl, fun _ => rfl, rfl, fun _ => rfl⟩
  · rintro k e k' _ ⟨sain, sans, avant⟩ autorise condition resultat
    obtain ⟨pas, sain'⟩ := sain.pas env autorise (sans.killPropre e) resultat
    exact ⟨sain', sans.etape sain (seuls k e condition) pas,
      etape k e k' sain sans avant autorise condition pas sain'⟩

end ProjetSysteme.Invariant
