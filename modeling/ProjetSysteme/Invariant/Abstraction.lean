/- Invariant/Abstraction
   digest: The message queues of a kernel state, as channels on which processes block. -/

import ProjetSysteme.Kernel.Step
import ProjetSysteme.Library.ChannelLaws

set_option autoImplicit false
set_option relaxedAutoImplicit false

namespace ProjetSysteme.Invariant

open Kernel Library

def phaseDe (p : Processus) : Channel.Phase IndiceFile Int :=
  if p.etat = .mort ∨ p.etat = .zombie then .idle
  else
    match p.suite with
    | .preceiveAttente fid =>
      if p.etat = .bloqueSurReception then .blockedReceive fid else .wokenReceive fid
    | .psendAttente fid message =>
      if p.etat = .bloqueSurEnvoi then .blockedSend fid message else .wokenSend fid message
    | _ => .idle

def drapeauDe (p : Processus) : Bool := p.valresetfile ≠ 0

def canalDe (f : FileMessage) : Channel.Chan Indice Int where
  isOpen := f.statut
  size := f.size
  stored := f.file
  receivers := (f.listeProcBloqueReception.map ProcessBloque.pid).toFinset
  senders := (f.listeProcBloqueEnvoi.map ProcessBloque.pid).toFinset

def evenementDe : Fait → Option (Channel.Event Indice IndiceFile Int)
  | .appel i _ => some (.called i)
  | .creation fid => some (.created fid)
  | .destruction fid => some (.deleted fid)
  | .rejet fid messages => some (.discarded fid messages)
  | .envoi i fid v => some (.sent i fid v)
  | .reception i fid v => some (.received i fid v)
  | _ => none

def canaux (k : Noyau) : Channel.State Indice IndiceFile Int where
  chan fid := canalDe (k.files fid)
  phase i := phaseDe (k.table i)
  flag i := drapeauDe (k.table i)
  history := k.journal.filterMap evenementDe

def HorsFile : Suite → Prop
  | .preceiveAttente _ | .psendAttente .. => False
  | _ => True

theorem phaseDe_blockedReceive {p : Processus} {fid : IndiceFile} :
    phaseDe p = .blockedReceive fid ↔
      p.etat = .bloqueSurReception ∧ p.suite = .preceiveAttente fid := by
  unfold phaseDe
  grind [HorsFile]

theorem phaseDe_blockedSend {p : Processus} {fid : IndiceFile} {message : Int} :
    phaseDe p = .blockedSend fid message ↔
      p.etat = .bloqueSurEnvoi ∧ p.suite = .psendAttente fid message := by
  unfold phaseDe
  grind [HorsFile]

theorem phaseDe_idle {p : Processus} (libre : p.etat = .mort ∨ p.etat = .zombie ∨ HorsFile p.suite) :
    phaseDe p = .idle := by
  unfold phaseDe
  grind [HorsFile]

theorem phaseDe_wokenReceive {p : Processus} {fid : IndiceFile} :
    phaseDe p = .wokenReceive fid ↔ p.suite = .preceiveAttente fid ∧
      p.etat ≠ .mort ∧ p.etat ≠ .zombie ∧ p.etat ≠ .bloqueSurReception := by
  unfold phaseDe
  grind [HorsFile]

theorem phaseDe_wokenSend {p : Processus} {fid : IndiceFile} {message : Int} :
    phaseDe p = .wokenSend fid message ↔ p.suite = .psendAttente fid message ∧
      p.etat ≠ .mort ∧ p.etat ≠ .zombie ∧ p.etat ≠ .bloqueSurEnvoi := by
  unfold phaseDe
  grind [HorsFile]

theorem phaseDe_congr {p p' : Processus} (etat : p'.etat = p.etat) (suite : p'.suite = p.suite) :
    phaseDe p' = phaseDe p := by
  unfold phaseDe
  rw [etat, suite]

end ProjetSysteme.Invariant
