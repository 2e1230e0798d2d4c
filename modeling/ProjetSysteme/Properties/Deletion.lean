/- Properties/Deletion
   source: kernel/file.c
   digest: The calls in progress on a message queue that is deleted. -/

import ProjetSysteme.Invariant.ChannelRuns
import ProjetSysteme.Invariant.Outcomes

set_option autoImplicit false
set_option relaxedAutoImplicit false

namespace ProjetSysteme.Properties

open Kernel Invariant Library

/-- The queue `fid` was deleted since process `i` made its last call. -/
def perime (fid : IndiceFile) (i : Indice) : List Fait → Bool
  | [] => false
  | .destruction g :: reste => g = fid || perime fid i reste
  | .appel j _ :: reste => if j = i then false else perime fid i reste
  | _ :: reste => perime fid i reste

/-- Every message was sent and received by a call that its queue outlived. -/
def SansPerime : List Fait → Prop
  | [] => True
  | .envoi i fid _ :: reste | .reception i fid _ :: reste =>
    perime fid i reste = false ∧ SansPerime reste
  | _ :: reste => SansPerime reste

theorem perime_canaux (fid : IndiceFile) (i : Indice) (l : List Fait) :
    Channel.stale fid i (l.filterMap evenementDe) = perime fid i l := by
  induction l with
  | nil => rfl
  | cons f reste ih => cases f <;> simp [List.filterMap_cons, evenementDe, Channel.stale, perime, ih]

theorem sansPerime_canaux (l : List Fait) :
    Channel.Clean (l.filterMap evenementDe) ↔ SansPerime l := by
  induction l with
  | nil => exact Iff.rfl
  | cons f reste ih =>
      cases f <;> simp [List.filterMap_cons, evenementDe, Channel.Clean, SansPerime, ih, perime_canaux]

/-- A call whose queue was deleted since it started resumes with its flag set, or, for a
psend, on a queue with `nbelem = size`. -/
def RepriseAvertie (k : Noyau) : Evenement → Prop
  | .reprise => ∀ a, k.pidActif = some a →
    match (k.table a).suite with
    | .preceiveAttente fid => perime fid a k.journal = true → (k.table a).valresetfile ≠ 0
    | .psendAttente fid _ => perime fid a k.journal = true →
      (k.table a).valresetfile ≠ 0 ∨ (k.files fid).nbelem = (k.files fid).size
    | _ => True
  | _ => True

theorem stale_appel {k : Noyau} {x : Appel} {a : Indice} (fid : IndiceFile)
    (actif : k.pidActif = some a) :
    Channel.stale fid a (canaux (enregistrer k (.appel x))).history = false := by
  simp [enregistrer, actif, canaux, Noyau.noter, evenementDe, Channel.stale]

theorem recoit_actuel {k : Noyau} {e : Evenement} {a : Indice} {fid : IndiceFile}
    (avertie : RepriseAvertie k e) (actif : k.pidActif = some a)
    (recoit : Recoit (enregistrer k e) e a fid)
    (baisse : (canaux (enregistrer k e)).flag a = false) :
    Channel.stale fid a (canaux (enregistrer k e)).history = false := by
  rcases recoit with ⟨n, rfl, _⟩ | ⟨rfl, suite⟩
  · exact stale_appel fid actif
  · change (k.table a).suite = _ at suite
    change decide ((k.table a).valresetfile ≠ 0) = false at baisse
    change Channel.stale fid a (k.journal.filterMap evenementDe) = false
    have leve := avertie a actif
    rw [suite] at leve
    rw [perime_canaux, Bool.eq_false_iff]
    exact fun perime => of_decide_eq_false baisse (leve perime)

theorem emet_actuel {k : Noyau} {e : Evenement} {a : Indice} {fid : IndiceFile} {message : Int}
    (sain : Sain k) (avertie : RepriseAvertie k e) (actif : k.pidActif = some a)
    (emet : Emet (enregistrer k e) e a fid message)
    (baisse : (canaux (enregistrer k e)).flag a = false)
    (place : (((canaux (enregistrer k e)).chan fid).stored.length : Int) ≠
      ((canaux (enregistrer k e)).chan fid).size) :
    Channel.stale fid a (canaux (enregistrer k e)).history = false := by
  rcases emet with ⟨n, rfl, _⟩ | ⟨rfl, suite⟩
  · exact stale_appel fid actif
  · change (k.table a).suite = _ at suite
    change decide ((k.table a).valresetfile ≠ 0) = false at baisse
    change ((k.files fid).file.length : Int) ≠ (k.files fid).size at place
    change Channel.stale fid a (k.journal.filterMap evenementDe) = false
    have leve := avertie a actif
    rw [suite] at leve
    rw [perime_canaux, Bool.eq_false_iff]
    intro perime
    rcases leve perime with drapeau | plein
    · exact of_decide_eq_false baisse drapeau
    · exact place ((sain.files.nbelem fid).symm.trans plein)

theorem cautious_of_avertie {k : Noyau} {e : Evenement} {s' : Channel.State Indice IndiceFile Int}
    {act : Channel.Action Indice IndiceFile Int} (sain : Sain k) (avertie : RepriseAvertie k e)
    (pas : Channel.Step (canaux (enregistrer k e)) act s')
    (etiquette : Etiquette (enregistrer k e) e act) :
    Channel.Cautious (canaux (enregistrer k e)) act := by
  have baisse := pas.clear
  cases act with
  | blockReceive a fid | receive a fid message =>
      obtain ⟨actif, recoit⟩ := etiquette
      rw [enregistrer_pidActif] at actif
      exact recoit_actuel avertie actif recoit baisse
  | blockSend a fid message => exact pas.fresh.stale
  | send a fid message =>
      obtain ⟨actif, emet⟩ := etiquette
      rw [enregistrer_pidActif] at actif
      exact emet_actuel sain avertie actif emet baisse pas.room
  | _ => trivial

theorem reprise_avertie (env : Env) {k k' : Noyau} {a : Indice} {fid : IndiceFile}
    (actif : k.pidActif = some a) (avertie : RepriseAvertie k .reprise) (appel : EnAppel k fid a)
    (perime : perime fid a k.journal = true) (resultat : pas env k .reprise = .ok k') :
    (k'.table a).suite = .retour (-1) := by
  have averti := avertie a actif
  rcases appel with suite | ⟨message, suite⟩
  · simp only [suite] at averti
    exact pas_preceive_averti env actif suite (averti perime) resultat
  · simp only [suite] at averti
    exact pas_psend_averti env actif suite (averti perime) resultat

theorem current_boot : Channel.Current (canaux noyauVide) where
  receiver _ _ phase := by cases phase
  sender _ _ _ phase := by cases phase
  woken _ _ phase := by rcases phase with phase | ⟨_, phase⟩ <;> cases phase
  clean := trivial

/-- In every run without kill in which the calls overtaken by a deletion resume as
`RepriseAvertie` says, these calls fail, no process is blocked on a deleted queue, and no
message passes between a call and a later queue of the same number. -/
theorem suppression_libere (env : Env) {k : Noyau}
    (atteint : Atteint env (fun k e => sansKill e = true ∧ RepriseAvertie k e) k) :
    (∀ i, (k.table i).etat = .bloqueSurReception ∨ (k.table i).etat = .bloqueSurEnvoi →
      ∃ fid, EnAppel k fid i ∧ (k.files fid).statut = true ∧ perime fid i k.journal = false) ∧
    SansPerime k.journal ∧
    ∀ a k' fid, k.pidActif = some a → EnAppel k fid a → perime fid a k.journal = true →
      RepriseAvertie k .reprise → pas env k .reprise = .ok k' →
        (k'.table a).suite = .retour (-1) := by
  obtain ⟨sain, current⟩ := Atteint.canaux env (P := Channel.Current)
    (fun _ _ condition => killPropre_of_sansKill condition.1) current_boot
    (fun s a s' wf current pas => pas.current wf trivial current)
    (fun k e act s' sain _ condition current pas etiquette =>
      pas.current (sain.enregistrer e).files.regles
        (cautious_of_avertie sain condition.2 pas etiquette) current) atteint
  refine ⟨fun i bloque => ?_, (sansPerime_canaux _).mp current.clean,
    fun a k' fid actif appel perime avertie => reprise_avertie env actif avertie appel perime⟩
  have posture := sain.posture i
  unfold Posture at posture
  rcases bloque with etat | etat
  · rw [etat] at posture
    obtain ⟨fid, suite⟩ := posture
    obtain ⟨_, ouverte, actuel⟩ := current.receiver i fid (phaseDe_blockedReceive.mpr ⟨etat, suite⟩)
    exact ⟨fid, .inl suite, ouverte, (perime_canaux ..).symm.trans actuel⟩
  · rw [etat] at posture
    obtain ⟨fid, message, suite⟩ := posture
    obtain ⟨_, ouverte, actuel⟩ :=
      current.sender i fid message (phaseDe_blockedSend.mpr ⟨etat, suite⟩)
    exact ⟨fid, .inr ⟨message, suite⟩, ouverte, (perime_canaux ..).symm.trans actuel⟩

instance (k : Noyau) (e : Evenement) : Decidable (RepriseAvertie k e) := by
  induction e using Evenement.casesOn with
  | reprise =>
      have (a : Indice) : Decidable (match (k.table a).suite with
          | .preceiveAttente fid => perime fid a k.journal = true → (k.table a).valresetfile ≠ 0
          | .psendAttente fid _ => perime fid a k.journal = true →
            (k.table a).valresetfile ≠ 0 ∨ (k.files fid).nbelem = (k.files fid).size
          | _ => True) := by
        induction (k.table a).suite using Suite.casesOn <;> infer_instance
      unfold RepriseAvertie
      infer_instance
  | _ => exact isTrue trivial

theorem suppression_libere_exemple : ∃ k k',
    Atteint Env.exemple (fun k e => sansKill e = true ∧ RepriseAvertie k e) k ∧
    EnAppel k 0 2 ∧ perime 0 2 k.journal = true ∧ pas Env.exemple k .reprise = .ok k' ∧
    (k'.table 2).suite = .retour (-1) ∧ SansPerime k.journal := by
  obtain ⟨k, atteint, test⟩ := Atteint.of_verifier Env.exemple
    (C := fun k e => decide (sansKill e = true ∧ RepriseAvertie k e))
    (l := [demarrer 0, .reprise, demarrer 1, .reprise, .appel (.pcreate 1), .reprise, demarrer 2,
      .reprise, .appel (.preceive 0), .reprise, .appel (.pdelete 0), .reprise,
      .appel (.waitClock 5)])
    (T := fun k => verifierPas Env.exemple k .reprise fun _ =>
      decide (k.pidActif = some 2 ∧ EnAppel k 0 2 ∧ perime 0 2 k.journal = true ∧
          RepriseAvertie k .reprise))
    (by decide +kernel)
  have course := atteint.mono Env.exemple fun _ _ => of_decide_eq_true
  obtain ⟨_, sansPerime, reprise⟩ := suppression_libere Env.exemple course
  obtain ⟨k', resultat, test⟩ := pas_of_verifierPas Env.exemple test
  obtain ⟨actif, appel, perime, avertie⟩ := of_decide_eq_true test
  exact ⟨k, k', course, appel, perime, resultat,
    reprise 2 k' 0 actif appel perime avertie resultat, sansPerime⟩

/-- A receiver that was woken before the deletion of its queue blocks on it again. -/
theorem suppression_bloque : ¬ ∀ k, Atteint Env.exemple (fun _ e => sansKill e = true) k →
    ∀ i, (k.table i).etat = .bloqueSurReception →
      ∃ fid, EnAppel k fid i ∧ (k.files fid).statut = true := by
  intro toujours
  obtain ⟨k, atteint, test⟩ := Atteint.of_verifier Env.exemple (C := fun _ e => sansKill e)
    (l := [demarrer 0, .reprise, demarrer 1, .reprise, .appel (.pcreate 1), .reprise, demarrer 2,
      .reprise, .appel (.preceive 0), .reprise, .appel (.psend 0 7), .reprise,
      .appel (.pdelete 0), .reprise, .appel (.waitClock 5), .reprise])
    (T := fun k => decide ((k.table 2).etat = .bloqueSurReception ∧
      ∀ fid, (k.files fid).statut = false))
    (by decide +kernel)
  obtain ⟨bloque, fermees⟩ := of_decide_eq_true test
  obtain ⟨fid, _, ouverte⟩ := toujours k atteint 2 bloque
  rw [fermees fid] at ouverte
  cases ouverte

end ProjetSysteme.Properties
