/- Properties/Preset
   source: kernel/file.c, kernel/process.c
   digest: When the loops of preset end, and which processes they wake. -/

import ProjetSysteme.Invariant.Release

set_option autoImplicit false
set_option relaxedAutoImplicit false

namespace ProjetSysteme.Properties

open Kernel Invariant

def BloqueSur (k : Noyau) (fid : IndiceFile) (i : Indice) : Prop :=
  match (k.table i).suite with
  | .preceiveAttente f => f = fid ∧ (k.table i).etat = .bloqueSurReception
  | .psendAttente f _ => f = fid ∧ (k.table i).etat = .bloqueSurEnvoi
  | _ => False

instance (k : Noyau) (fid : IndiceFile) (i : Indice) : Decidable (BloqueSur k fid i) := by
  unfold BloqueSur
  induction (k.table i).suite using Suite.casesOn <;> infer_instance

theorem BloqueSur.nonActivable {k : Noyau} {fid : IndiceFile} {i : Indice}
    (bloque : BloqueSur k fid i) : (k.table i).etat ≠ .activable := by
  unfold BloqueSur at bloque
  split at bloque
  · simp [bloque.2]
  · simp [bloque.2]
  · exact bloque.elim

/-- The two lists of `fid` have one node for each process blocked on it, in the list of
its call, and no other node. -/
structure NoeudsExacts (k : Noyau) (fid : IndiceFile) : Prop where
  recepteurs : ∀ n ∈ (k.files fid).listeProcBloqueReception,
    (k.table n.pid).etat = .bloqueSurReception ∧ BloqueSur k fid n.pid
  recepteurs_nodup : ((k.files fid).listeProcBloqueReception.map ProcessBloque.pid).Nodup
  emetteurs : ∀ n ∈ (k.files fid).listeProcBloqueEnvoi,
    (k.table n.pid).etat = .bloqueSurEnvoi ∧ BloqueSur k fid n.pid
  emetteurs_nodup : ((k.files fid).listeProcBloqueEnvoi.map ProcessBloque.pid).Nodup
  bloques : ∀ i, BloqueSur k fid i →
    ∃ n ∈ (k.files fid).listeProcBloqueReception ++ (k.files fid).listeProcBloqueEnvoi, n.pid = i

instance (k : Noyau) (fid : IndiceFile) : Decidable (NoeudsExacts k fid) :=
  decidable_of_iff
    ((∀ n ∈ (k.files fid).listeProcBloqueReception,
        (k.table n.pid).etat = .bloqueSurReception ∧ BloqueSur k fid n.pid) ∧
      ((k.files fid).listeProcBloqueReception.map ProcessBloque.pid).Nodup ∧
      (∀ n ∈ (k.files fid).listeProcBloqueEnvoi,
        (k.table n.pid).etat = .bloqueSurEnvoi ∧ BloqueSur k fid n.pid) ∧
      ((k.files fid).listeProcBloqueEnvoi.map ProcessBloque.pid).Nodup ∧
      ∀ i, BloqueSur k fid i → ∃ n ∈ (k.files fid).listeProcBloqueReception ++
        (k.files fid).listeProcBloqueEnvoi, n.pid = i)
    ⟨fun ⟨r, rn, e, en, b⟩ => ⟨r, rn, e, en, b⟩, fun ⟨r, rn, e, en, b⟩ => ⟨r, rn, e, en, b⟩⟩

theorem NoeudsExacts.noeuds {k : Noyau} {fid : IndiceFile} (exacts : NoeudsExacts k fid) :
    NoeudsBloques k fid :=
  ⟨fun n mem => (exacts.recepteurs n mem).1, exacts.recepteurs_nodup,
    fun n mem => (exacts.emetteurs n mem).1, exacts.emetteurs_nodup⟩

theorem NoeudsExacts.bloque {k : Noyau} {fid : IndiceFile} (exacts : NoeudsExacts k fid)
    {n : ProcessBloque}
    (mem : n ∈ (k.files fid).listeProcBloqueReception ++ (k.files fid).listeProcBloqueEnvoi) :
    BloqueSur k fid n.pid := by
  rcases List.mem_append.mp mem with mem | mem
  · exact (exacts.recepteurs n mem).2
  · exact (exacts.emetteurs n mem).2

end ProjetSysteme.Properties
