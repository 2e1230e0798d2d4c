/- Invariant/PrintfScreen
   source: shared/printf.c, kernel/print.c
   digest: The buffer of printf, and the calls of console_putbytes one after the other. -/

import Mathlib.Data.List.Induction
import Mathlib.Logic.Function.Basic
import ProjetSysteme.Kernel.Format
import ProjetSysteme.Kernel.Print

set_option autoImplicit false
set_option relaxedAutoImplicit false

namespace ProjetSysteme.Invariant.Format

open Kernel Kernel.Format
open Kernel.Numeral (Octet)

section Tampon

/-- The state of `printf` after the characters `texte`: those in the buffer come after those sent. -/
structure Tamponne (texte : List Octet) (state : PrintfState) : Prop where
  place : state.index ≤ printfBufmax
  texte : state.envois.flatten ++ (List.range state.index).map state.buf = texte
  envois : ∀ l ∈ state.envois, l.length ≤ printfBufmax

theorem flush_tamponne {texte : List Octet} {state : PrintfState} (avant : Tamponne texte state) :
    Tamponne texte (flush state) ∧ (flush state).index = 0 := by
  refine ⟨⟨Nat.zero_le _, ?_, ?_⟩, rfl⟩
  · simpa [flush] using avant.texte
  · intro l mem
    rcases List.mem_append.mp mem with ancien | nouveau
    · exact avant.envois l ancien
    · rw [List.mem_singleton.mp nouveau, List.length_map, List.length_range]
      exact avant.place

theorem printfChar_tamponne {texte : List Octet} {state : PrintfState} (c : Octet) (avant : Tamponne texte state) :
    Tamponne (texte ++ [c]) (printfChar state c) := by
  unfold printfChar
  split
  · obtain ⟨vide, zero⟩ := flush_tamponne avant
    have sorti := vide.texte
    rw [zero, List.range_zero, List.map_nil, List.append_nil] at sorti
    refine ⟨Nat.zero_le _, ?_, ?_⟩
    · dsimp only
      rw [zero, List.flatten_append, sorti]
      simp
    · intro l mem
      rcases List.mem_append.mp mem with ancien | seul
      · exact vide.envois l ancien
      · rw [List.mem_singleton.mp seul, List.length_singleton]
        decide
  · next place =>
      rw [not_or, not_or] at place
      refine ⟨not_le.mp place.2.2, ?_, avant.envois⟩
      have memes : (List.range state.index).map (Function.update state.buf state.index c) =
          (List.range state.index).map state.buf :=
        List.map_congr_left fun i mem => Function.update_of_ne (List.mem_range.mp mem).ne ..
      dsimp only
      rw [List.range_succ, List.map_append, memes, ← List.append_assoc, avant.texte]
      simp

theorem printf_tamponne (buf : Nat → Octet) (texte : List Octet) :
    Tamponne texte (texte.foldl printfChar { buf := buf, index := 0, envois := [] }) := by
  induction texte using List.reverseRecOn with
  | nil => exact ⟨Nat.zero_le _, rfl, by simp⟩
  | append_singleton texte c ih =>
      rw [List.foldl_append]
      exact printfChar_tamponne c ih

theorem vprintf_envois {buf : Nat → Octet} {fmt : List Octet} {args : List Argument} {envois : List (List Octet)}
    (envoye : vprintf buf fmt args = some envois) :
    doprnt 0 fmt args = some envois.flatten ∧ ∀ l ∈ envois, l.length ≤ printfBufmax := by
  obtain ⟨texte, imprime, fin⟩ := Option.bind_eq_some_iff.mp envoye
  have avant := printf_tamponne buf texte
  cases fin
  split
  · obtain ⟨vide, zero⟩ := flush_tamponne avant
    have sorti := vide.texte
    rw [zero, List.range_zero, List.map_nil, List.append_nil] at sorti
    exact ⟨imprime.trans (congrArg some sorti.symm), vide.envois⟩
  · next epuise =>
      have sorti := avant.texte
      rw [not_not.mp epuise, List.range_zero, List.map_nil, List.append_nil] at sorti
      exact ⟨imprime.trans (congrArg some sorti.symm), avant.envois⟩

end Tampon

section Ecran

/-- What is seen of the screen, and where the next character goes. -/
def vue (e : Ecran) : (Nat → UInt16) × UInt16 × Nat × Nat :=
  (e.memoire, e.couleurEcritureEcrant, e.ligneCurseur, e.colonneCurseur)

/-- Two states of the loop of `console_putbytes` that write the same from there on. -/
structure MemeTrace (t t' : Trace) : Prop where
  memoire : t.ecran.memoire = t'.ecran.memoire
  couleur : t.ecran.couleurEcritureEcrant = t'.ecran.couleurEcritureEcrant
  lig : t.lig = t'.lig
  col : t.col = t'.col

theorem defilement_memoire (e : Ecran) : (defilement e).couleurEcritureEcrant = e.couleurEcritureEcrant ∧
    ∀ e' : Ecran, e.memoire = e'.memoire → (defilement e).memoire = (defilement e').memoire := by
  unfold defilement
  dsimp only
  constructor
  · split <;> rfl
  · intro e' meme
    split <;> split <;> simp only [memmove, memset, meme]

theorem ecritCar_meme {e e' : Ecran} (memoire : e.memoire = e'.memoire)
    (couleur : e.couleurEcritureEcrant = e'.couleurEcritureEcrant) (lig col : Nat) (c : Int8) :
    (ecritCar e lig col c).memoire = (ecritCar e' lig col c).memoire ∧
      (ecritCar e lig col c).couleurEcritureEcrant = (ecritCar e' lig col c).couleurEcritureEcrant := by
  rw [ecritCar, ecritCar, memoire, couleur]
  exact ⟨rfl, rfl⟩

theorem ecrireCaractere_meme {t t' : Trace} (meme : MemeTrace t t') (c : Int8) :
    MemeTrace (ecrireCaractere t c) (ecrireCaractere t' c) := by
  obtain ⟨memoire, couleur, lig, col⟩ := meme
  have ecrit := fun l k => ecritCar_meme memoire couleur l k
  unfold ecrireCaractere
  rw [lig, col]
  split
  · exact ⟨(ecrit _ _ _).1, (ecrit _ _ _).2, rfl, rfl⟩
  · split
    · exact ⟨memoire, couleur, rfl, rfl⟩
    · split
      · exact ⟨memoire, couleur, rfl, rfl⟩
      · split
        · exact ⟨(ecrit _ _ _).1, (ecrit _ _ _).2, rfl, rfl⟩
        · exact ⟨(ecrit _ _ _).1, (ecrit _ _ _).2, rfl, rfl⟩

theorem tourPutbytes_meme {t t' : Trace} (meme : MemeTrace t t') (c : Int8) :
    MemeTrace (tourPutbytes t c) (tourPutbytes t' c) := by
  have plie : ∀ {u u' : Trace}, MemeTrace u u' → MemeTrace (replier u) (replier u') := by
    rintro u u' ⟨memoire, couleur, lig, col⟩
    unfold replier
    rw [lig, col]
    split
    · exact ⟨memoire, couleur, rfl, rfl⟩
    · exact ⟨memoire, couleur, lig, col⟩
  obtain ⟨memoire, couleur, lig, col⟩ := plie (ecrireCaractere_meme meme c)
  unfold tourPutbytes
  dsimp only
  rw [lig]
  split
  · refine ⟨(defilement_memoire _).2 _ memoire, ?_, rfl, col⟩
    rw [(defilement_memoire _).1, (defilement_memoire _).1, couleur]
  · exact ⟨memoire, couleur, lig, col⟩

theorem foldl_meme {t t' : Trace} (meme : MemeTrace t t') (chaine : List Int8) :
    MemeTrace (chaine.foldl tourPutbytes t) (chaine.foldl tourPutbytes t') := by
  induction chaine generalizing t t' with
  | nil => exact meme
  | cons c chaine ih => exact ih (tourPutbytes_meme meme c)

theorem vue_of_meme {t t' : Trace} (meme : MemeTrace t t') :
    vue (placeCurseur t.ecran t.lig t.col) = vue (placeCurseur t'.ecran t'.lig t'.col) := by
  obtain ⟨memoire, couleur, lig, col⟩ := meme
  simp only [vue, placeCurseur, outb, memoire, couleur, lig, col]

theorem consolePutbytes_vue {e e' : Ecran} (meme : vue e = vue e') (l : List Int8) :
    vue (consolePutbytes e l) = vue (consolePutbytes e' l) := by
  simp only [vue, Prod.mk.injEq] at meme
  obtain ⟨memoire, couleur, lig, col⟩ := meme
  exact vue_of_meme (foldl_meme ⟨memoire, couleur, lig, col⟩ l)

theorem consolePutbytes_append (e : Ecran) (a b : List Int8) :
    vue (consolePutbytes (consolePutbytes e a) b) = vue (consolePutbytes e (a ++ b)) := by
  have encore : MemeTrace
      { ecran := consolePutbytes e a
        lig := (consolePutbytes e a).ligneCurseur
        col := (consolePutbytes e a).colonneCurseur }
      (a.foldl tourPutbytes { ecran := e, lig := e.ligneCurseur, col := e.colonneCurseur }) := ⟨rfl, rfl, rfl, rfl⟩
  have fin := vue_of_meme (foldl_meme encore b)
  rw [← List.foldl_append] at fin
  exact fin

end Ecran

end ProjetSysteme.Invariant.Format
