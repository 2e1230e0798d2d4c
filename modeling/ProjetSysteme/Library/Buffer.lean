/- Library/Buffer
   digest: Lists stored in a memory indexed by the naturals, and the text up to a terminator. -/

import Mathlib.Data.List.Induction
import Mathlib.Data.List.TakeWhile
import Mathlib.Data.Nat.Notation
import Mathlib.Logic.Function.Basic

set_option autoImplicit false
set_option relaxedAutoImplicit false

namespace ProjetSysteme.Library.Buffer

universe u

variable {α : Type u}

/-- The memory `b` in which `d` is stored from the index `o` on. -/
def store (b : ℕ → α) (o : ℕ) (d : List α) : ℕ → α := fun i => if o ≤ i then d[i - o]?.getD (b i) else b i

section Store

variable {b : ℕ → α} {o i : ℕ} {d d' : List α} {x : α}

theorem store_before (before : i < o) : store b o d i = b i := if_neg (by omega)

theorem store_after (after : o + d.length ≤ i) : store b o d i = b i := by
  rw [store, List.getElem?_eq_none (by omega), Option.getD_none, ite_self]

theorem store_inside (inside : i < d.length) : d[i]? = some (store b o d (o + i)) := by
  rw [store, if_pos (by omega), Nat.add_sub_cancel_left, List.getElem?_eq_getElem inside, Option.getD_some]

theorem store_start (inside : i < d.length) : d[i]? = some (store b 0 d i) := by
  simpa using store_inside (b := b) (o := 0) inside

@[simp]
theorem store_nil (b : ℕ → α) (o : ℕ) : store b o [] = b := by
  funext i
  simp [store]

theorem store_concat : store b o (d ++ [x]) = Function.update (store b o d) (o + d.length) x := by
  funext i
  rcases Nat.lt_trichotomy i (o + d.length) with before | rfl | after
  · rw [Function.update_of_ne (by omega), store, store]
    split
    · rw [List.getElem?_append_left (by omega)]
    · rfl
  · simp [store]
  · rw [Function.update_of_ne (by omega), store_after (by simp; omega), store_after (by omega)]

theorem store_append : store (store b o d) (o + d.length) d' = store b o (d ++ d') := by
  induction d' using List.reverseRecOn with
  | nil => rw [store_nil, List.append_nil]
  | append_singleton d' x ih =>
      rw [store_concat, ih, ← List.append_assoc, store_concat, List.length_append, Nat.add_assoc]

theorem store_cons : store (Function.update b o x) (o + 1) d = store b o (x :: d) := by
  rw [← List.singleton_append, ← store_append, ← List.nil_append [x], store_concat]
  simp

theorem store_range : (List.range d.length).map (store b 0 d) = d := by
  refine List.ext_getElem (by simp) fun i inside inside' => ?_
  rw [List.getElem_map, List.getElem_range]
  have read := store_start (b := b) inside'
  rw [List.getElem?_eq_getElem inside'] at read
  exact (Option.some.inj read).symm

theorem store_take {n : ℕ} (fits : d.length ≤ n) : ((List.range n).map (store b 0 d)).take d.length = d := by
  rw [← List.map_take, List.take_range, Nat.min_eq_left fits, store_range]

end Store

section Text

variable [DecidableEq α] {nul : α} {n : ℕ} {s : ℕ → α} {l : List α}

/-- The text that `nul` ends in `s`, among its first `n` elements. -/
def text (nul : α) (n : ℕ) (s : ℕ → α) : List α := ((List.range n).map s).takeWhile (· ≠ nul)

theorem nul_not_mem_text : nul ∉ text nul n s := fun inside => by
  simpa using List.mem_takeWhile_imp inside

theorem text_length_le : (text nul n s).length ≤ n := by
  refine (List.takeWhile_prefix _).length_le.trans ?_
  rw [List.length_map, List.length_range]

theorem text_getElem? {i : ℕ} (inside : i < (text nul n s).length) : (text nul n s)[i]? = some (s i) := by
  have front : text nul n s <+: (List.range n).map s := List.takeWhile_prefix _
  rw [List.getElem?_eq_getElem inside, front.getElem inside]
  simp

theorem text_takeWhile (here : ∀ i, i < l.length → l[i]? = some (s i))
    (ended : l.length = n ∨ l.length < n ∧ s l.length = nul) : text nul n s = l.takeWhile (· ≠ nul) := by
  have start : ((List.range n).map s).take l.length = l := by
    refine List.ext_getElem? fun i => ?_
    rw [List.getElem?_take]
    split
    · next before =>
        rw [here i before, List.getElem?_map, List.getElem?_range (by omega)]
        rfl
    · next after => exact (List.getElem?_eq_none (by omega)).symm
  have rest : (((List.range n).map s).drop l.length).takeWhile (· ≠ nul) = [] := by
    rcases ended with full | ⟨short, ends⟩
    · rw [List.drop_eq_nil_of_le (by simp [full]), List.takeWhile_nil]
    · rw [List.drop_eq_getElem_cons (by simpa using short), List.takeWhile_cons_of_neg (by simpa using ends)]
  rw [text, ← List.take_append_drop l.length ((List.range n).map s), start, List.takeWhile_append]
  split
  · next full =>
      rw [rest, List.append_nil]
      exact ((List.takeWhile_prefix _).eq_of_length full).symm
  · rfl

theorem text_eq (here : ∀ i, i < l.length → l[i]? = some (s i)) (absent : nul ∉ l)
    (ended : l.length = n ∨ l.length < n ∧ s l.length = nul) : text nul n s = l := by
  rw [text_takeWhile here ended, List.takeWhile_eq_self_iff]
  intro x inside
  rw [decide_eq_true_iff]
  exact fun same => absent (same ▸ inside)

theorem text_ended : (text nul n s).length = n ∨
    (text nul n s).length < n ∧ s (text nul n s).length = nul := by
  refine (Nat.eq_or_lt_of_le text_length_le).imp_right fun short => ⟨short, ?_⟩
  have split : text nul n s ++ ((List.range n).map s).dropWhile (· ≠ nul) = (List.range n).map s :=
    List.takeWhile_append_dropWhile
  have after := congrArg (fun l => l[(text nul n s).length]?) split
  rw [List.getElem?_append_right (Nat.le_refl _), Nat.sub_self, List.getElem?_map, List.getElem?_range short,
    ← List.head?_eq_getElem?] at after
  have stops := List.head?_dropWhile_not (· ≠ nul) ((List.range n).map s)
  rw [after] at stops
  simpa using stops

theorem text_congr {s' : ℕ → α} (same : ∀ i, i < n → s i = s' i) : text nul n s = text nul n s' := by
  unfold text
  congr 1
  exact List.map_congr_left fun i inside => same i (List.mem_range.mp inside)

end Text

end ProjetSysteme.Library.Buffer
