/- Properties/LineEditor
   source: kernel/console.c
   digest: The buffer of the keyboard is a line editor and never overflows. -/

import ProjetSysteme.Properties.Console

set_option autoImplicit false
set_option relaxedAutoImplicit false

namespace ProjetSysteme.Properties

open Kernel Invariant

/-- The reference editor: the line after one more key. -/
def editer (ligne : List Int8) (c : Int8) : List Int8 :=
  if c = 13 then []
  else if c = 127 then ligne.dropLast
  else if ligne.length < nbrMaxBuff then ligne ++ [c]
  else ligne

/-- The line since the last Enter, from all the keys pressed. -/
def ligneEditee (touches : List Int8) : List Int8 := touches.foldl editer []

/-- Calls of `keyboard_data` with echo off, and between them anything that leaves the
buffer as it is. -/
inductive Frappes : Noyau → List Int8 → Prop
  | debut {k : Noyau} (vide : k.console.index = 0) : Frappes k []
  | touche {k k' : Noyau} {touches : List Int8} {c : Int8} (avant : Frappes k touches) (muet : k.console.echo ≠ 1)
      (frappe : keyboardData k c = .ok k') : Frappes k' (touches ++ [c])
  | autre {k k' : Noyau} {touches : List Int8} (avant : Frappes k touches)
      (index : k'.console.index = k.console.index) (tampon : k'.console.tampon = k.console.tampon) :
      Frappes k' touches

section Frappe

variable {k k' : Noyau} {c : Int8}

theorem keyboardData_entre (frappe : keyboardData k 13 = .ok k') :
    k'.console.index = 0 ∧ k'.console.indexFinLigne = k.console.index ∧ k'.console.tampon = k.console.tampon := by
  obtain ⟨premier, k₁, sortie, meme⟩ := keyboardData_entree.of_ok frappe
  obtain ⟨liens, rfl⟩ := sortirConsRead_annexe sortie
  have saisie := meme.saisie
  simp only [saisieDe, Prod.mk.injEq] at saisie
  obtain ⟨index, fin, tampon, -⟩ := saisie
  exact ⟨index, fin, tampon⟩

theorem keyboardData_efface (frappe : keyboardData k 127 = .ok k') :
    k'.console.index = k.console.index - 1 ∧ k'.console.tampon = k.console.tampon := by
  unfold keyboardData at frappe
  rw [if_neg (by decide), if_pos rfl] at frappe
  split at frappe
  · cases frappe
    exact ⟨rfl, rfl⟩
  · next nul =>
      cases frappe
      rw [not_not.mp nul]
      exact ⟨rfl, rfl⟩

theorem keyboardData_range (autre : c ≠ 13) (pasEfface : c ≠ 127) (place : k.console.index < nbrMaxBuff)
    (frappe : keyboardData k c = .ok k') :
    k'.console.index = k.console.index + 1 ∧ k'.console.tampon =
      fun j => if j = k.console.index then caractereRange k c else k.console.tampon j := by
  unfold keyboardData at frappe
  rw [if_neg autre, if_neg pasEfface, if_pos place] at frappe
  cases frappe
  exact ⟨rfl, rfl⟩

theorem keyboardData_plein (autre : c ≠ 13) (pasEfface : c ≠ 127) (plein : ¬ k.console.index < nbrMaxBuff)
    (frappe : keyboardData k c = .ok k') : k' = k := by
  unfold keyboardData at frappe
  rw [if_neg autre, if_neg pasEfface, if_neg plein] at frappe
  cases frappe
  rfl

private theorem range_dropLast (n : Nat) : (List.range n).dropLast = List.range (n - 1) := by
  cases n with
  | zero => rfl
  | succ n => rw [List.range_succ, List.dropLast_concat, Nat.add_sub_cancel]

theorem ligneEnCours_length (k : Noyau) : (ligneEnCours k).length = k.console.index := by
  rw [ligneEnCours, List.length_map, List.length_range]

theorem ligneEnCours_frappe (muet : k.console.echo ≠ 1) (frappe : keyboardData k c = .ok k') :
    ligneEnCours k' = editer (ligneEnCours k) c := by
  by_cases entre : c = 13
  · subst entre
    rw [ligneEnCours, (keyboardData_entre frappe).1]
    rfl
  · by_cases efface : c = 127
    · subst efface
      obtain ⟨index, tampon⟩ := keyboardData_efface frappe
      have retire : editer (ligneEnCours k) 127 = (ligneEnCours k).dropLast := rfl
      rw [retire, ligneEnCours, ligneEnCours, index, tampon, ← List.map_dropLast, range_dropLast]
    · have ajoute : editer (ligneEnCours k) c =
          if k.console.index < nbrMaxBuff then ligneEnCours k ++ [c] else ligneEnCours k := by
        rw [editer, if_neg entre, if_neg efface, ligneEnCours_length]
      rw [ajoute]
      by_cases place : k.console.index < nbrMaxBuff
      · obtain ⟨index, tampon⟩ := keyboardData_range entre efface place frappe
        have lettre : caractereRange k c = c := if_neg fun echo => muet echo.1
        rw [if_pos place, ligneEnCours, ligneEnCours, index, tampon, List.range_succ, List.map_append, lettre]
        congr 1
        · refine List.map_congr_left fun j avant => if_neg ?_
          exact Nat.ne_of_lt (List.mem_range.mp avant)
        · exact congrArg (fun x => [x]) (if_pos rfl)
      · rw [if_neg place, keyboardData_plein entre efface place frappe]

end Frappe

theorem editer_length {ligne : List Int8} (court : ligne.length ≤ nbrMaxBuff) (c : Int8) :
    (editer ligne c).length ≤ nbrMaxBuff := by
  unfold editer
  split
  · exact Nat.zero_le _
  · split
    · rw [List.length_dropLast]
      omega
    · split
      · next place =>
          rw [List.length_append]
          exact place
      · exact court

theorem Frappes.ligne {k : Noyau} {touches : List Int8} (frappes : Frappes k touches) :
    ligneEnCours k = ligneEditee touches ∧ k.console.index ≤ nbrMaxBuff := by
  induction frappes with
  | debut vide =>
      rw [ligneEnCours, vide]
      exact ⟨rfl, Nat.zero_le _⟩
  | @touche k k' touches c avant muet frappe ih =>
      obtain ⟨ligne, borne⟩ := ih
      have suite := ligneEnCours_frappe muet frappe
      refine ⟨?_, ?_⟩
      · rw [suite, ligne, ligneEditee, ligneEditee, List.foldl_append]
        rfl
      · rw [← ligneEnCours_length, suite]
        exact editer_length ((ligneEnCours_length k).trans_le borne) c
  | autre avant index tampon ih =>
      rw [ligneEnCours, index, tampon]
      exact ih

def toucheDe : Evenement → List Int8
  | .touche c => [c]
  | _ => []

/-- Runs of the kernel without kill whose keys are pressed with echo off, with the keys. -/
inductive CourseMuette (env : Env) : Noyau → List Int8 → Prop
  | boot {k : Noyau} (depart : initialiserGestionDesProcessus env = .ok k) : CourseMuette env k []
  | pas {k k' : Noyau} {touches : List Int8} {e : Evenement} (avant : CourseMuette env k touches)
      (autorise : permis k e = true) (sans : sansKill e = true) (muet : ∀ c, e = .touche c → k.console.echo ≠ 1)
      (resultat : Kernel.pas env k e = .ok k') : CourseMuette env k' (touches ++ toucheDe e)

private theorem toucheDe_nil {e : Evenement} (sansTouche : ∀ c, e ≠ .touche c) : toucheDe e = [] := by
  cases e with
  | touche c => exact absurd rfl (sansTouche c)
  | _ => rfl

private theorem Frappes.pas {env : Env} {k k' : Noyau} {e : Evenement} {touches : List Int8} (frappes : Frappes k touches)
    (sain : Sain k) (autorise : permis k e = true) (sans : sansKill e = true)
    (muet : ∀ c, e = .touche c → k.console.echo ≠ 1) (resultat : Kernel.pas env k e = .ok k') :
    Frappes k' (touches ++ toucheDe e) := by
  by_cases touche : ∃ c, e = .touche c
  · obtain ⟨c, rfl⟩ := touche
    exact frappes.touche (muet c rfl) (pas_touche sain autorise resultat)
  · have sansTouche : ∀ c, e ≠ .touche c := fun c egal => touche ⟨c, egal⟩
    have console : (enregistrer k e).console = k.console := by
      rcases enregistrer_cas k e with meme | ⟨a, x, -, -, note⟩
      · rw [meme]
      · rw [note]
        rfl
    have clavier := pas_clavier sain autorise sans resultat
    rw [toucheDe_nil sansTouche, List.append_nil]
    cases clavier with
    | calme _ saisie _ _ =>
        simp only [saisieDe, Prod.mk.injEq, console] at saisie
        exact frappes.autre saisie.1 saisie.2.2.1
    | entrer _ _ _ _ index tampon _ _ _ => exact frappes.autre (console ▸ index) (console ▸ tampon)
    | valider egal _ _ _ _ _ _ => exact absurd egal (sansTouche 13)
    | frapper egal _ _ _ _ => exact absurd egal (sansTouche _)
    | lire _ _ _ _ index tampon _ _ _ => exact frappes.autre (console ▸ index) (console ▸ tampon)

/-- The keys of a run of the kernel are calls of `keyboard_data` with nothing else done
to the buffer between them. -/
theorem CourseMuette.frappes {env : Env} {k : Noyau} {touches : List Int8} (course : CourseMuette env k touches) :
    Sain k ∧ Frappes k touches := by
  induction course with
  | boot depart =>
      refine ⟨sain_of_boot env depart, .debut ?_⟩
      obtain ⟨memoire, -, valeur⟩ := Library.Outcome.bind_ok depart
      cases valeur
      rfl
  | pas avant autorise sans muet resultat ih =>
      obtain ⟨sain, frappes⟩ := ih
      exact ⟨(sain.pas env autorise (killPropre_of_sansKill sans) resultat).2,
        frappes.pas sain autorise sans muet resultat⟩

end ProjetSysteme.Properties
