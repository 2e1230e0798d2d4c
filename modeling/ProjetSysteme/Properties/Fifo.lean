/- Properties/Fifo
   source: kernel/file.c
   digest: The message queues as bounded channels that deliver in the order of sending. -/

import ProjetSysteme.Invariant.ChannelRuns
import ProjetSysteme.Invariant.Outcomes

set_option autoImplicit false
set_option relaxedAutoImplicit false

namespace ProjetSysteme.Properties

open Kernel Invariant Library Library.Outcome

/-- The messages of the calls of psend on `fid` that returned 0 since its pcreate. -/
def envoisDepuis (fid : IndiceFile) : List Fait → List Int
  | [] => []
  | .creation g :: reste => if g = fid then [] else envoisDepuis fid reste
  | .envoi _ g v :: reste => if g = fid then envoisDepuis fid reste ++ [v] else envoisDepuis fid reste
  | _ :: reste => envoisDepuis fid reste

/-- The messages taken out of `fid` since its pcreate; the flag tells those that a
preceive delivered from those that preset or pdelete discarded. -/
def prisDepuis (fid : IndiceFile) : List Fait → List (Bool × Int)
  | [] => []
  | .creation g :: reste => if g = fid then [] else prisDepuis fid reste
  | .reception _ g v :: reste =>
    if g = fid then prisDepuis fid reste ++ [(true, v)] else prisDepuis fid reste
  | .rejet g vs :: reste =>
    if g = fid then prisDepuis fid reste ++ vs.map (false, ·) else prisDepuis fid reste
  | _ :: reste => prisDepuis fid reste

def echanges (l : List Fait) : Nat :=
  l.countP fun f => match f with
    | .envoi .. | .reception .. => true
    | _ => false

theorem envoisDepuis_canaux (fid : IndiceFile) (l : List Fait) :
    Channel.sentSince fid (l.filterMap evenementDe) = envoisDepuis fid l := by
  induction l with
  | nil => rfl
  | cons f reste ih => cases f <;> simp [List.filterMap_cons, evenementDe, Channel.sentSince,
      envoisDepuis, ih]

theorem prisDepuis_canaux (fid : IndiceFile) (l : List Fait) :
    Channel.takenSince fid (l.filterMap evenementDe) = prisDepuis fid l := by
  induction l with
  | nil => rfl
  | cons f reste ih => cases f <;> simp [List.filterMap_cons, evenementDe, Channel.takenSince,
      prisDepuis, ih]

theorem echanges_canaux (l : List Fait) :
    (l.filterMap evenementDe).countP Channel.Event.exchanged = echanges l := by
  rw [List.countP_filterMap, echanges]
  refine List.countP_congr fun f _ => ?_
  cases f <;> simp [evenementDe, Channel.Event.exchanged]

/-- What a step does to the messages: a call of psend or preceive on an open queue has
one of its outcomes, one on another queue fails and changes nothing, and no other step
exchanges a message. -/
structure PasDeFile (k : Noyau) (e : Evenement) (a : Indice) (k' : Noyau) : Prop where
  psend : ∀ fid message, Emet k e a fid message → IssueEnvoi e a fid message (enregistrer k e) k'
  preceive : ∀ fid, Recoit k e a fid → IssueReception a fid (enregistrer k e) k'
  fermee : ∀ n, fileOuverte? k n = none →
    (∃ message, e = .appel (.psend n message)) ∨ e = .appel (.preceive n) →
      k' = (enregistrer k e).renvoie a (-1)
  autre : (∀ fid message, ¬ Emet k e a fid message) → (∀ fid, ¬ Recoit k e a fid) →
    echanges k'.journal = echanges k.journal

theorem pas_fermee (env : Env) {k k' : Noyau} {e : Evenement} {a : Indice} {n : Int}
    (actif : k.pidActif = some a) (fermee : fileOuverte? k n = none)
    (appel : (∃ message, e = .appel (.psend n message)) ∨ e = .appel (.preceive n))
    (resultat : pas env k e = .ok k') : k' = (enregistrer k e).renvoie a (-1) := by
  have ferme : ∀ x, fileOuverte? (k.noter (.appel a x)) n = none := fun _ => fermee
  rcases appel with ⟨message, rfl⟩ | rfl
  · simp only [pas, executer, actif, appeler, Kernel.psend, ferme] at resultat
    cases resultat
    rw [enregistrer_appel actif]
  · simp only [pas, executer, actif, appeler, Kernel.preceive, ferme] at resultat
    cases resultat
    rw [enregistrer_appel actif]

theorem etape_echanges {k k' : Noyau} {e : Evenement} {a : Indice} (etape : Etape e k k')
    (sain : Sain k) (autorise : permis k e = true) (propre : KillPropre k e)
    (actif : k.pidActif = some a) (nonEmet : ∀ fid message, ¬ Emet k e a fid message)
    (nonRecoit : ∀ fid, ¬ Recoit k e a fid) : echanges k'.journal = echanges k.journal := by
  obtain ⟨note, act, pas, etiquette⟩ := etape.simule sain autorise propre
  have soi : ∀ {b : Indice}, (enregistrer k e).pidActif = some b → b = a := fun autre => by
    rw [enregistrer_pidActif] at autre
    exact Option.some.inj (autre.symm.trans actif)
  have envoi : ∀ b fid message, act ≠ .send b fid message := by
    rintro b fid message rfl
    exact nonEmet fid message (emet_enregistrer.mp (soi etiquette.1 ▸ etiquette.2))
  have reception : ∀ b fid message, act ≠ .receive b fid message := by
    rintro b fid message rfl
    exact nonRecoit fid (recoit_enregistrer.mp (soi etiquette.1 ▸ etiquette.2))
  have effet := pas.exchanged envoi reception
  have appel : (canaux (enregistrer k e)).history.countP Channel.Event.exchanged =
      (canaux k).history.countP Channel.Event.exchanged := by
    rcases note with meme | ⟨b, note⟩
    · rw [meme]
    · exact note.exchanged (by simp) (by simp)
  exact (echanges_canaux _).symm.trans ((effet.trans appel).trans (echanges_canaux _))

/-- In every run without kill, what was sent to a queue since its pcreate is what was
taken out of it, in order, followed by what it holds; it holds `nbelem` messages and at
most `size`; and each step exchanges messages as `PasDeFile` says. -/
theorem file_fifo (env : Env) {k : Noyau} (atteint : Atteint env (fun _ e => sansKill e = true) k) :
    (∀ fid, envoisDepuis fid k.journal =
      (prisDepuis fid k.journal).map Prod.snd ++ (k.files fid).file) ∧
    (∀ fid, (k.files fid).nbelem = (k.files fid).file.length ∧
      (k.files fid).nbelem ≤ (k.files fid).size) ∧
    ∀ e k' a, k.pidActif = some a → permis k e = true → sansKill e = true →
      pas env k e = .ok k' → PasDeFile k e a k' := by
  obtain ⟨sain, fifo⟩ := Atteint.canaux env (P := Channel.Fifo)
    (fun _ _ => killPropre_of_sansKill) (fun _ => rfl)
    (fun s a s' wf fifo pas => pas.fifo wf fifo)
    (fun k e act s' sain _ _ fifo pas _ => pas.fifo (sain.enregistrer e).files.regles fifo) atteint
  refine ⟨fun fid => ?_, fun fid => ?_, fun e k' a actif autorise sans resultat => ?_⟩
  · rw [← envoisDepuis_canaux, ← prisDepuis_canaux]
    exact fifo fid
  · have nbelem := sain.files.nbelem fid
    have borne : ((k.files fid).file.length : Int) ≤ (k.files fid).size := sain.files.regles.bound fid
    exact ⟨nbelem, by omega⟩
  · have propre : KillPropre k e := killPropre_of_sansKill sans
    have etape := (sain.pas env autorise propre resultat).1
    exact ⟨fun fid message emet => pas_psend env sain autorise actif emet resultat,
      fun fid recoit => pas_preceive env sain autorise actif recoit resultat,
      fun n fermee appel => pas_fermee env actif fermee appel resultat,
      etape_echanges etape sain autorise propre actif⟩

/-- A receiver blocks, two messages are sent, it takes the first and preset discards the
other. -/
theorem file_fifo_exemple : ∃ k, Atteint Env.exemple (fun _ e => sansKill e = true) k ∧
    envoisDepuis 0 k.journal = [7, 8] ∧ prisDepuis 0 k.journal = [(true, 7), (false, 8)] ∧
    [7, 8] = [(true, 7), (false, 8)].map Prod.snd ++ (k.files 0).file := by
  obtain ⟨k, atteint, test⟩ := Atteint.of_verifier Env.exemple (C := fun _ e => sansKill e)
    (l := [demarrer 0, .reprise, demarrer 1, .reprise, .appel (.pcreate 2), .reprise, demarrer 2,
      .reprise, .appel (.preceive 0), .reprise, .appel (.psend 0 7), .reprise, .appel (.psend 0 8),
      .reprise, .appel (.waitClock 5), .reprise, .reprise, .appel (.preset 0)])
    (T := fun k => decide (envoisDepuis 0 k.journal = [7, 8] ∧
      prisDepuis 0 k.journal = [(true, 7), (false, 8)]))
    (by decide +kernel)
  obtain ⟨envois, pris⟩ := of_decide_eq_true test
  have loi := (file_fifo Env.exemple atteint).1 0
  rw [envois, pris] at loi
  exact ⟨k, atteint, envois, pris, loi⟩

end ProjetSysteme.Properties
