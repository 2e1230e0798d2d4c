/- Properties/QueueIds
   source: kernel/file.c
   digest: The queue numbers that the primitives of the message queues accept. -/

import ProjetSysteme.Invariant.Release

set_option autoImplicit false
set_option relaxedAutoImplicit false

namespace ProjetSysteme.Properties

open Kernel Invariant

/-- The number is that of no queue of the table, or of a queue whose `statut` is 0. -/
def Invalide (k : Noyau) (fid : Int) : Prop :=
  fid < 0 ∨ nbQueue ≤ fid ∨ ∃ f : IndiceFile, (f.val : Int) = fid ∧ (k.files f).statut = false

/-- The call returns a negative value to process `a` and does nothing else, whatever the
word after the table of queues is. -/
def RefuseSansLire (env : Env) (k : Noyau) (a : Indice) (x : Appel) : Prop :=
  ∃ v < 0, ∀ b, appeler { env with statutApresTable := b } k a x = .ok (k.renvoie a v)

def Reussit (env : Env) (k : Noyau) (a : Indice) (x : Appel) : Prop :=
  ∃ k', appeler env k a x = .ok k' ∧ (k'.table a).suite = .retour 0

/-- The five primitives agree that `fid` is valid or that it is not. -/
structure Accord (env : Env) (k : Noyau) (a : Indice) (fid : Int) : Prop where
  envoi : Invalide k fid → ∀ message, RefuseSansLire env k a (.psend fid message)
  reception : Invalide k fid → RefuseSansLire env k a (.preceive fid)
  reinitialisation : Invalide k fid → RefuseSansLire env k a (.preset fid)
  suppression : Invalide k fid → RefuseSansLire env k a (.pdelete fid)
  comptage : Invalide k fid → ∀ count, RefuseSansLire env k a (.pcount fid count)
  valide : ∀ f : IndiceFile, (f.val : Int) = fid → (k.files f).statut = true →
    (∀ count, Reussit env k a (.pcount fid count)) ∧
      (NoeudsBloques k f → Reussit env k a (.preset fid) ∧ Reussit env k a (.pdelete fid))

section Numeros

variable {env : Env} {k : Noyau} {a : Indice} {fid : Int}

theorem indiceFile_val (f : IndiceFile) : indiceFile? (f.val : Int) = some f := by
  have borne := f.isLt
  unfold indiceFile?
  rw [dif_pos ⟨by omega, by omega⟩]
  simp

theorem indiceFile_eq {f : IndiceFile} (indice : indiceFile? fid = some f) : (f.val : Int) = fid := by
  unfold indiceFile? at indice
  split at indice
  · next borne =>
      rw [← Option.some.inj indice]
      exact Int.toNat_of_nonneg borne.1
  · cases indice

theorem fileOuverte_of_statut {f : IndiceFile} (ouverte : (k.files f).statut = true) :
    fileOuverte? k (f.val : Int) = some f := by
  rw [fileOuverte?, indiceFile_val]
  exact if_pos ouverte

theorem Invalide.ferme (invalide : Invalide k fid) : fileOuverte? k fid = none := by
  unfold fileOuverte?
  split
  · rfl
  · next f indice =>
      have val := indiceFile_eq indice
      have borne := f.isLt
      rcases invalide with negatif | grand | ⟨g, meme, statut⟩
      · omega
      · exact absurd grand (by omega)
      · obtain rfl : g = f := Fin.ext (by omega)
        simp [statut]

theorem RefuseSansLire.of_refus {x : Appel}
    (refus : ∀ b, appeler { env with statutApresTable := b } k a x = .ok (k.renvoie a (-1))) :
    RefuseSansLire env k a x := ⟨-1, by decide, refus⟩

theorem pcount_valide (f : IndiceFile) (count : Bool) :
    Reussit env k a (.pcount (f.val : Int) count) := by
  have borne := f.isLt
  have garde : ¬ ((f.val : Int) < 0 ∨ (f.val : Int) > nbQueue) := by omega
  unfold Reussit
  simp only [appeler, pcount, if_neg garde, indiceFile_val]
  cases count <;> exact ⟨_, rfl, by simp [Noyau.renvoie]⟩

theorem Accord.refus (dehors : fid < 0 ∨ nbQueue < fid) : Accord env k a fid := by
  have ferme : fileOuverte? k fid = none := by
    refine Invalide.ferme ?_
    rcases dehors with negatif | grand
    · exact .inl negatif
    · exact .inr (.inl grand.le)
  have garde : ∀ b, gardePreset { env with statutApresTable := b } k fid = .ok none := by
    intro b
    rw [gardePreset, if_neg (by omega), ferme]
  refine ⟨fun _ message => .of_refus fun b => ?_, fun _ => .of_refus fun b => ?_,
    fun _ => .of_refus fun b => ?_, fun _ => .of_refus fun b => ?_,
    fun _ count => .of_refus fun b => ?_, fun f meme => ?_⟩
  · simp only [appeler, psend, ferme]
  · simp only [appeler, preceive, ferme]
  · simp only [appeler, preset, garde, bind, Except.bind]
  · simp only [appeler, pdelete, garde, bind, Except.bind]
  · exact if_pos dehors
  · have borne := f.isLt
    omega

theorem Accord.ouverte (cours : EnCours k a) {f : IndiceFile} (statut : (k.files f).statut = true) :
    Accord env k a (f.val : Int) := by
  have garde := gardePreset_ouverte env (fileOuverte_of_statut statut)
  have valide : ¬ Invalide k (f.val : Int) := by
    intro invalide
    cases (fileOuverte_of_statut statut).symm.trans invalide.ferme
  refine ⟨fun invalide => absurd invalide valide, fun invalide => absurd invalide valide,
    fun invalide => absurd invalide valide, fun invalide => absurd invalide valide,
    fun invalide => absurd invalide valide, fun g meme _ => ⟨fun count => pcount_valide f count, ?_⟩⟩
  obtain rfl : g = f := Fin.ext (by omega)
  intro noeuds
  obtain ⟨k₁, run, -⟩ := reinitialiser_ok cours noeuds
  constructor
  · refine ⟨k₁.renvoie a 0, ?_, by simp [Noyau.renvoie]⟩
    simp only [appeler, preset, garde, run, bind, Except.bind]
  · let k₂ := k₁.modifieFile g fun f => { f with size := 0, statut := false }
    refine ⟨({ k₂ with nbFiles := k₂.nbFiles - 1 }.noter (.destruction g)).renvoie a 0, ?_,
      by simp [Noyau.renvoie]⟩
    simp only [appeler, pdelete, garde, run, bind, Except.bind]
    rfl

end Numeros

end ProjetSysteme.Properties
