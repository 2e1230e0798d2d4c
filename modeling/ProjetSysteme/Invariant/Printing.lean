/- Invariant/Printing
   source: shared/doprnt.c, shared/sprintf.c
   digest: What whole formats print, and what reaches the memory. -/

import ProjetSysteme.Invariant.Format
import ProjetSysteme.Library.Buffer

set_option autoImplicit false
set_option relaxedAutoImplicit false

namespace ProjetSysteme.Invariant.Format

open Kernel.Format Library.Loop Library.Buffer
open Kernel.Numeral (Octet Entier)

section Doprnt

variable {radix : Nat} {fmt fmt' texte sortie : List Octet} {args args' : List Argument}

/-- A format that is read to its end, the last directive having its conversion: what it prints, and the
arguments it leaves. -/
inductive Complet (radix : Nat) : List Octet → List Argument → List Octet → List Argument → Prop
  | fin {args : List Argument} : Complet radix [] args [] args
  | lettre {c : Octet} {fmt texte : List Octet} {args args' : List Argument} : c ≠ 0x25 →
      Complet radix fmt args texte args' → Complet radix (c :: fmt) args (c :: texte) args'
  | directive {c : Octet} {d : Directive} {fmt suite champ texte : List Octet}
      {args args₁ args₂ args' : List Argument} : lireDirective fmt args = some (d, c :: suite, args₁) →
      convertir radix d c args₁ = some (champ, args₂) → Complet radix suite args₂ texte args' →
      Complet radix (0x25 :: fmt) args (champ ++ texte) args'

theorem tourDoprnt_court (s s' : List Octet × List Argument × List Octet)
    (tour : tourDoprnt radix s = some (.inl s')) : s'.1.length < s.1.length := by
  obtain ⟨fmt, args, sortie⟩ := s
  cases fmt with
  | nil => cases tour
  | cons c fmt =>
      rw [tourDoprnt] at tour
      split at tour
      · cases tour
        exact Nat.lt_succ_self _
      · obtain ⟨⟨d, reste, args₁⟩, directive, tour⟩ := Option.bind_eq_some_iff.mp tour
        have court := (lireDirective_suite [] directive).1.length_le
        dsimp only at tour
        split at tour
        · cases tour
          exact Nat.succ_pos _
        · next c' suite =>
            obtain ⟨⟨champ, args₂⟩, -, tour⟩ := Option.bind_eq_some_iff.mp tour
            cases tour
            rw [List.length_cons] at court
            exact court.trans (Nat.lt_succ_self _).le

theorem doprnt_iff : doprnt radix fmt args = some texte ↔
    Ends (tourDoprnt radix) (fmt.takeWhile (· ≠ 0), args, []) texte :=
  loop_iff (fun s => s.1.length) tourDoprnt_court (Nat.lt_succ_self _)

theorem ends_sortie : Ends (tourDoprnt radix) (fmt, args, sortie) texte ↔
    ∃ t, texte = sortie ++ t ∧ Ends (tourDoprnt radix) (fmt, args, []) t := by
  have decale : ∀ (avant : List Octet) (s : List Octet × List Argument × List Octet),
      tourDoprnt radix (s.1, s.2.1, avant ++ s.2.2) = (tourDoprnt radix s).map
        (Sum.map (fun s' => (s'.1, s'.2.1, avant ++ s'.2.2)) (avant ++ ·)) := by
    rintro avant ⟨fmt, args, sortie⟩
    cases fmt with
    | nil => rfl
    | cons c fmt =>
        rw [tourDoprnt, tourDoprnt]
        split
        · simp
        · cases lireDirective fmt args with
          | none => rfl
          | some x =>
              obtain ⟨d, reste, args₁⟩ := x
              cases reste with
              | nil => rfl
              | cons c suite =>
                  dsimp only [bind, Option.bind]
                  cases convertir radix d c args₁ with
                  | none => rfl
                  | some y => simp
  have carries := ends_map (f := fun s => (s.1, s.2.1, sortie ++ s.2.2)) (s := (fmt, args, [])) (t := texte)
    (decale sortie)
  rwa [List.append_nil] at carries

theorem Complet.ends {t : List Octet} (complet : Complet radix fmt args t args') : ∀ sortie,
    Ends (tourDoprnt radix) (fmt ++ fmt', args, sortie) texte ↔
      Ends (tourDoprnt radix) (fmt', args', sortie ++ t) texte := by
  induction complet with
  | fin => simp
  | @lettre c fmt texte args args' autre _ ih =>
      intro sortie
      have tour : tourDoprnt radix (c :: (fmt ++ fmt'), args, sortie) = some (.inl (fmt ++ fmt', args, sortie ++ [c])) :=
        if_pos autre
      rw [List.cons_append, ends_next tour, ih]
      simp
  | @directive c d fmt suite champ texte args args₁ args₂ args' lue convertie _ ih =>
      intro sortie
      have etend := (lireDirective_suite fmt' lue).2 (List.cons_ne_nil c suite)
      have tour : tourDoprnt radix (0x25 :: (fmt ++ fmt'), args, sortie) =
          some (.inl (suite ++ fmt', args₂, sortie ++ champ)) := by
        rw [tourDoprnt, if_neg (by decide), etend]
        dsimp only [bind, Option.bind]
        rw [List.cons_append]
        dsimp only
        rw [convertie]
      rw [List.cons_append, ends_next tour, ih]
      simp

theorem Complet.doprnt (complet : Complet radix fmt args texte args') (suite : List Octet) (libre : 0 ∉ fmt) :
    doprnt radix (fmt ++ suite) args = (doprnt radix suite args').map (texte ++ ·) := by
  have entier : (fmt ++ suite).takeWhile (· ≠ 0) = fmt ++ suite.takeWhile (· ≠ 0) :=
    List.takeWhile_append_of_pos fun c mem => decide_eq_true fun nul => libre (nul ▸ mem)
  refine Option.ext fun t => ?_
  rw [doprnt_iff, entier, complet.ends, ends_sortie, List.nil_append, Option.map_eq_some_iff]
  simp only [doprnt_iff]
  exact exists_congr fun t' => and_comm.trans (and_congr_right fun _ => eq_comm)

theorem doprnt_vide (suite : List Octet) : doprnt radix (0 :: suite) args = some [] := rfl

theorem doprnt_directive {c : Octet} {d : Directive} (libre : 0 ∉ fmt)
    (lue : lireDirective fmt args = some (d, [c], args')) :
    doprnt radix (0x25 :: (fmt ++ [0])) args = (convertir radix d c args').map Prod.fst := by
  have sansNul : 0 ∉ 0x25 :: fmt := by
    rw [List.mem_cons, not_or]
    exact ⟨by decide, libre⟩
  cases convertie : convertir radix d c args' with
  | some x =>
      obtain ⟨champ, args₂⟩ := x
      have imprime := (Complet.directive lue convertie .fin).doprnt [0] sansNul
      rw [doprnt_vide] at imprime
      simpa using imprime
  | none =>
      rw [Option.map_none, Option.eq_none_iff_forall_ne_some]
      intro texte imprime
      have entier : (0x25 :: (fmt ++ [0])).takeWhile (· ≠ 0) = 0x25 :: fmt := by
        rw [← List.cons_append, List.takeWhile_append_of_pos]
        · simp
        · exact fun x mem => decide_eq_true fun nul => sansNul (nul ▸ mem)
      rw [doprnt_iff, entier] at imprime
      have tour : tourDoprnt radix (0x25 :: fmt, args, []) = none := by
        rw [tourDoprnt, if_neg (by decide), lue]
        dsimp only [bind, Option.bind]
        rw [convertie]
      cases imprime with
      | last fin => cases tour.symm.trans fin
      | turn suite => cases tour.symm.trans suite

end Doprnt

section Memoire

variable {s : Nat → Octet} {size : Nat} {texte : List Octet}

def stockes (size : Nat) (texte : List Octet) : Nat :=
  if size = sprintfUnlimited then texte.length else min texte.length size

theorem stockes_concat (c : Octet) : stockes size (texte ++ [c]) =
    if size ≠ sprintfUnlimited ∧ stockes size texte = size then stockes size texte else texte.length + 1 := by
  unfold stockes
  rw [List.length_append, List.length_singleton]
  by_cases illimite : size = sprintfUnlimited
  · simp [illimite]
  · rw [if_neg illimite, if_neg illimite]
    by_cases plein : min texte.length size = size
    · rw [if_pos ⟨illimite, plein⟩]
      omega
    · rw [if_neg fun both => plein both.2]
      omega

theorem stockes_le : stockes size texte ≤ texte.length := by
  unfold stockes
  split
  · exact le_rfl
  · exact Nat.min_le_left ..

theorem stockes_eq (place : ¬ (size ≠ sprintfUnlimited ∧ stockes size texte = size)) :
    stockes size texte = texte.length := by
  unfold stockes at place ⊢
  split
  · rfl
  · next limite =>
      rw [if_neg limite] at place
      have court : min texte.length size ≠ size := fun plein => place ⟨limite, plein⟩
      omega

theorem savechar_foldl (texte : List Octet) : texte.foldl savechar { s := s, len := 0, max := size } =
    { s := store s 0 (texte.take (stockes size texte)), len := stockes size texte, max := size } := by
  induction texte using List.reverseRecOn with
  | nil => simp [stockes]
  | append_singleton texte c ih =>
      rw [List.foldl_append, ih, List.foldl_cons, List.foldl_nil, savechar, stockes_concat]
      dsimp only
      split
      · rw [List.take_append_of_le_length stockes_le]
      · next place =>
          rw [stockes_eq place, List.take_length, List.take_of_length_le (by simp), store_concat, Nat.zero_add]

theorem vsnprintf_eq (s : Nat → Octet) (size : Nat) (fmt : List Octet) (args : List Argument) :
    vsnprintf s size fmt args = (doprnt 0 fmt args).map fun texte =>
      (Function.update (store s 0 (texte.take (stockes size texte))) (stockes size texte) 0, stockes size texte) := by
  unfold vsnprintf
  cases doprnt 0 fmt args with
  | none => rfl
  | some texte =>
      simp only [bind, Option.bind_some, savechar_foldl]
      rfl

end Memoire

end ProjetSysteme.Invariant.Format
