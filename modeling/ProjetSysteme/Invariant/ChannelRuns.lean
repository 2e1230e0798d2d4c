/- Invariant/ChannelRuns
   digest: The runs of the kernel as runs of the channels that its message queues stand for. -/

import ProjetSysteme.Invariant.Health

set_option autoImplicit false
set_option relaxedAutoImplicit false

namespace ProjetSysteme.Invariant

open Kernel Library Library.Outcome

/-- No process is killed. -/
def sansKill : Evenement → Bool
  | .appel (.kill _) => false
  | _ => true

theorem killPropre_of_sansKill {k : Noyau} {e : Evenement} (sans : sansKill e = true) :
    KillPropre k e := by
  unfold KillPropre
  split
  · cases sans
  · trivial

theorem canaux_boot (env : Env) {k₀ : Noyau} (boot : initialiserGestionDesProcessus env = .ok k₀) :
    canaux k₀ = canaux noyauVide := by
  obtain ⟨memoire, _, valeur⟩ := bind_ok boot
  cases valeur
  rfl

/-- Induction on a run at the level of the channels: what holds at boot, and is kept by
the record of a call and by the effect of each event. -/
theorem Atteint.canaux (env : Env) {C : Noyau → Evenement → Prop}
    {P : Channel.State Indice IndiceFile Int → Prop}
    (propre : ∀ k e, C k e → KillPropre k e) (boot : P (canaux noyauVide))
    (appel : ∀ s a s', s.Wf → P s → Channel.Step s (.call a) s' → P s')
    (effet : ∀ k e act s', Sain k → permis k e = true → C k e → P (canaux (enregistrer k e)) →
      Channel.Step (canaux (enregistrer k e)) act s' → Etiquette (enregistrer k e) e act → P s')
    {k : Noyau} (atteint : Atteint env C k) : Sain k ∧ P (canaux k) := by
  refine Atteint.induction env (P := fun k => Sain k ∧ P (Invariant.canaux k)) (fun k₀ depart => ?_) ?_
    atteint
  · rw [canaux_boot env depart]
    exact ⟨sain_of_boot env depart, boot⟩
  · rintro k e k' _ ⟨sain, avant⟩ autorise condition resultat
    obtain ⟨etape, sain'⟩ := sain.pas env autorise (propre k e condition) resultat
    obtain ⟨note, act, pas, etiquette⟩ := etape.simule sain autorise (propre k e condition)
    refine ⟨sain', effet k e act _ sain autorise condition ?_ pas etiquette⟩
    rcases note with meme | ⟨a, note⟩
    · rwa [meme]
    · exact appel _ a _ sain.files.regles avant note

end ProjetSysteme.Invariant
