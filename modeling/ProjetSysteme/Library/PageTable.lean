/- Library/PageTable
   digest: Translation through a directory of tables, with rights granted at both levels. -/

import Mathlib.Logic.Function.Basic
import Mathlib.Data.List.Induction
import Mathlib.Tactic.Common

set_option autoImplicit false
set_option relaxedAutoImplicit false

namespace ProjetSysteme.Library.PageTable

universe u v w

/-- A table: the frame of each page it maps, and whether it grants writing. -/
abbrev Table (P : Type v) (F : Type w) := P → Option (F × Bool)

/-- A directory: the table of each of its entries in use, and whether the entry grants writing. -/
abbrev Directory (D : Type u) (P : Type v) (F : Type w) := D → Option (Bool × Table P F)

variable {D : Type u} {P : Type v} {F : Type w}

def translate (dir : Directory D P F) (page : D × P) : Option (F × Bool) :=
  match dir page.1 with
  | none => none
  | some (granted, table) => (table page.2).map fun entry => (entry.1, granted && entry.2)

/-- The table that a mapping of directory entry `d` is stored in, with the rights of its entry. -/
def opened (dir : Directory D P F) (d : D) : Bool × Table P F := (dir d).getD (false, fun _ => none)

/-- An entry of a table that grants writing lies under a directory entry that does. -/
def Covers (dir : Directory D P F) : Prop :=
  ∀ d granted table p frame, dir d = some (granted, table) → table p = some (frame, true) →
    granted = true

theorem translate_opened (dir : Directory D P F) (page : D × P) : translate dir page =
    ((opened dir page.1).2 page.2).map fun entry => (entry.1, (opened dir page.1).1 && entry.2) := by
  unfold translate opened
  cases dir page.1 <;> rfl

theorem Covers.opened {dir : Directory D P F} (covers : Covers dir) {d : D} {p : P} {frame : F}
    (entry : (opened dir d).2 p = some (frame, true)) : (opened dir d).1 = true := by
  unfold PageTable.opened at entry ⊢
  cases inUse : dir d with
  | none => simp [inUse] at entry
  | some r =>
      obtain ⟨granted, table⟩ := r
      rw [inUse] at entry
      exact covers d granted table p frame inUse entry

variable [DecidableEq D] [DecidableEq P]

/-- Map one page: the directory entry is opened if it was not in use, and grants writing
from then on if this mapping does. -/
def put (dir : Directory D P F) (page : D × P) (frame : F) (write : Bool) : Directory D P F :=
  Function.update dir page.1
    (some ((opened dir page.1).1 || write,
      Function.update (opened dir page.1).2 page.2 (some (frame, write))))

theorem Covers.put {dir : Directory D P F} (covers : Covers dir) (page : D × P) (frame : F)
    (write : Bool) : Covers (put dir page frame write) := by
  intro d granted table p f inUse entry
  unfold PageTable.put at inUse
  by_cases same : d = page.1
  · subst same
    rw [Function.update_self] at inUse
    cases inUse
    by_cases samePage : p = page.2
    · subst samePage
      rw [Function.update_self] at entry
      cases entry
      exact Bool.or_true _
    · rw [Function.update_of_ne samePage] at entry
      rw [covers.opened entry, Bool.true_or]
  · rw [Function.update_of_ne same] at inUse
    exact covers d granted table p f inUse entry

/-- Mapping a page changes the translation of that page only, although it may open a
table and grant writing in the directory entry of other pages. -/
theorem translate_put {dir : Directory D P F} (covers : Covers dir) (page page' : D × P) (frame : F)
    (write : Bool) : translate (put dir page frame write) page' =
      if page' = page then some (frame, write) else translate dir page' := by
  obtain ⟨d, p⟩ := page
  obtain ⟨d', p'⟩ := page'
  rw [translate, put]
  by_cases same : d' = d
  · subst same
    simp only [Function.update_self]
    by_cases samePage : p' = p
    · subst samePage
      simp only [Function.update_self, Option.map_some, if_true]
      cases write <;> simp
    · rw [Function.update_of_ne samePage, if_neg (fun eq => samePage (Prod.ext_iff.mp eq).2),
        translate_opened]
      -- an entry that grants writing was covered before
      refine Option.map_congr fun entry mem => ?_
      obtain ⟨f, granted⟩ := entry
      cases granted with
      | false => simp
      | true => simp [covers.opened mem]
  · rw [if_neg (fun eq => same (Prod.ext_iff.mp eq).1)]
    simp only [Function.update_of_ne same]
    rfl

structure Mapping (D : Type u) (P : Type v) (F : Type w) where
  page : D × P
  frame : F
  write : Bool

def puts (dir : Directory D P F) (l : List (Mapping D P F)) : Directory D P F :=
  l.foldl (fun dir m => put dir m.page m.frame m.write) dir

theorem Covers.puts {dir : Directory D P F} (covers : Covers dir) (l : List (Mapping D P F)) :
    Covers (puts dir l) := by
  induction l generalizing dir with
  | nil => exact covers
  | cons m l ih => exact ih (covers.put m.page m.frame m.write)

theorem translate_puts {dir : Directory D P F} (covers : Covers dir) (l : List (Mapping D P F))
    (page : D × P) : translate (puts dir l) page =
      match l.reverse.find? (fun m => m.page = page) with
      | some m => some (m.frame, m.write)
      | none => translate dir page := by
  induction l using List.reverseRecOn with
  | nil => rfl
  | append_singleton l m ih =>
      rw [puts, List.foldl_append, List.foldl_cons, List.foldl_nil, ← puts,
        translate_put (covers.puts l), List.reverse_append, List.reverse_singleton,
        List.singleton_append, List.find?_cons]
      by_cases same : page = m.page
      · simp [same]
      · rw [if_neg same, ih, decide_eq_false (Ne.symm same)]

end ProjetSysteme.Library.PageTable
