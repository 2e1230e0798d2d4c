/- Library/RoundRobin
   digest: One runs, the others wait in order of their keys, and equal keys take turns. -/

import Mathlib.Logic.Function.Iterate
import ProjetSysteme.Library.PriorityList

set_option autoImplicit false
set_option relaxedAutoImplicit false

namespace ProjetSysteme.Library.RoundRobin

open PriorityList

universe u v

variable {α : Type u} {κ : Type v} [LinearOrder κ] (key : α → κ)

/-- The element served first runs and the running one waits, unless this lowers the key. -/
def turn (s : α × List α) : α × List α :=
  match s.2.getLast? with
  | none => s
  | some b => if key b < key s.1 then s else (b, place key s.1 s.2.dropLast)

def elected : ℕ → α × List α → List α
  | 0, _ => []
  | n + 1, s => (turn key s).1 :: elected n (turn key s)

/-- The elements `ring` have one key, the first of them runs, and the `rest` has smaller keys. -/
structure Spins (rest ring : List α) (s : α × List α) : Prop where
  state : ∃ a back, ring = a :: back ∧ s = (a, rest ++ back)
  below : ∀ a ∈ rest, ∀ b ∈ ring, key a < key b
  equal : ∀ a ∈ ring, ∀ b ∈ ring, key a = key b

variable {key}

theorem place_append {rest back : List α} {a : α} (below : ∀ b ∈ rest, key b < key a)
    (above : ∀ b ∈ back, key a ≤ key b) : place key a (rest ++ back) = rest ++ a :: back := by
  induction rest with
  | nil =>
      cases back with
      | nil => rfl
      | cons b back => exact List.orderedInsert_cons_of_le _ back (above b (List.mem_cons_self ..))
  | cons b rest ih =>
      have first : ¬ key a ≤ key b := not_le.mpr (below b (List.mem_cons_self ..))
      rw [List.cons_append, place, List.orderedInsert_cons, if_neg first, List.cons_append]
      exact congrArg (b :: ·) (ih fun c mem => below c (List.mem_cons_of_mem b mem))

theorem Spins.rotate {rest front : List α} {b : α} {s : α × List α}
    (spins : Spins key rest (front ++ [b]) s) :
    (turn key s).1 = b ∧ Spins key rest (b :: front) (turn key s) := by
  obtain ⟨⟨a, back, split, rfl⟩, below, equal⟩ := spins
  have same : ∀ c, c ∈ b :: front ↔ c ∈ front ++ [b] := fun c => by
    simp [or_comm]
  have below' : ∀ c ∈ rest, ∀ d ∈ b :: front, key c < key d := fun c memC d memD =>
    below c memC d ((same d).mp memD)
  have equal' : ∀ c ∈ b :: front, ∀ d ∈ b :: front, key c = key d := fun c memC d memD =>
    equal c ((same c).mp memC) d ((same d).mp memD)
  cases front with
  | nil =>
      obtain ⟨rfl, rfl⟩ : b = a ∧ [] = back := by simpa using split
      rw [List.append_nil]
      have kept : turn key (b, rest) = (b, rest) := by
        unfold turn
        split
        · rfl
        · next c last => exact if_pos (below c (last_mem last) b (by simp))
      rw [kept]
      exact ⟨rfl, ⟨⟨b, [], rfl, by rw [List.append_nil]⟩, below', equal'⟩⟩
  | cons c front =>
      obtain ⟨rfl, rfl⟩ : c = a ∧ front ++ [b] = back := by simpa using split
      have level : key b = key c := equal b (by simp) c (by simp)
      have moved : turn key (c, rest ++ (front ++ [b])) = (b, rest ++ c :: front) := by
        unfold turn
        simp only [← List.append_assoc, List.getLast?_concat, List.dropLast_concat, level, lt_irrefl,
          if_false]
        rw [place_append (fun d mem => below d mem c (by simp)) fun d mem =>
          (equal c (by simp) d (by simp [mem])).le]
      rw [moved]
      exact ⟨rfl, ⟨⟨b, c :: front, rfl, rfl⟩, below', equal'⟩⟩

theorem Spins.turns {rest front back : List α} {s : α × List α}
    (spins : Spins key rest (front ++ back.reverse) s) :
    elected key back.length s = back ∧
      Spins key rest (back.reverse ++ front) ((turn key)^[back.length] s) := by
  induction back generalizing front s with
  | nil =>
      rw [List.reverse_nil, List.append_nil] at spins
      exact ⟨rfl, spins⟩
  | cons b back ih =>
      rw [List.reverse_cons, ← List.append_assoc] at spins
      obtain ⟨runs, spins'⟩ := spins.rotate
      rw [← List.cons_append] at spins'
      obtain ⟨elected', final⟩ := ih spins'
      constructor
      · rw [List.length_cons, elected, runs, elected']
      · rw [List.length_cons, Function.iterate_succ_apply, List.reverse_cons, List.append_assoc]
        exact final

theorem split_level {l : List α} {k : κ} (ascending : Ascending key l)
    (bound : ∀ a ∈ l, key a ≤ k) :
    l = l.filter (fun a => key a ≠ k) ++ l.filter (fun a => key a = k) := by
  induction l with
  | nil => rfl
  | cons a l ih =>
      obtain ⟨first, ascending'⟩ := List.pairwise_cons.mp ascending
      have bound' := fun b mem => bound b (List.mem_cons_of_mem a mem)
      by_cases level : key a = k
      · have all : ∀ b ∈ a :: l, key b = k := by
          intro b mem
          refine le_antisymm (bound b mem) ?_
          rcases List.mem_cons.mp mem with rfl | mem
          · exact level.ge
          · exact level.ge.trans (first b mem)
        rw [List.filter_eq_nil_iff.mpr fun b mem => by simp [all b mem],
          List.filter_eq_self.mpr fun b mem => by simp [all b mem], List.nil_append]
      · rw [List.filter_cons_of_pos (by simpa using level), List.filter_cons_of_neg (by simpa using level),
          List.cons_append, ← ih ascending' bound']

/-- After as many turns as there are elements of the greatest key, each of them has run
once, no other has, and everything is as it was. -/
theorem lap {a : α} {l : List α} (ascending : Ascending key l)
    (bound : ∀ b ∈ l, key b ≤ key a) :
    let level := a :: l.filter fun b => key b = key a
    elected key level.length (a, l) = level.reverse ∧ (turn key)^[level.length] (a, l) = (a, l) := by
  intro level
  have all : ∀ b ∈ level, key b = key a := by
    intro b mem
    rcases List.mem_cons.mp mem with rfl | mem
    · rfl
    · simpa using (List.mem_filter.mp mem).2
  have spins : Spins key (l.filter fun b => key b ≠ key a) ([] ++ level.reverse.reverse) (a, l) := by
    rw [List.reverse_reverse]
    refine ⟨⟨a, _, rfl, Prod.ext rfl (split_level ascending bound)⟩, fun b memB c memC => ?_,
      fun b memB c memC => (all b memB).trans (all c memC).symm⟩
    obtain ⟨mem, ne⟩ := List.mem_filter.mp memB
    rw [all c memC]
    exact lt_of_le_of_ne (bound b mem) (by simpa using ne)
  obtain ⟨elected', ⟨⟨b, back, ring, final⟩, -, -⟩⟩ := spins.turns
  rw [List.length_reverse] at elected' final
  rw [List.reverse_reverse, List.append_nil] at ring
  obtain ⟨rfl, rfl⟩ := List.cons.inj ring
  exact ⟨elected', final.trans (Prod.ext rfl (split_level ascending bound).symm)⟩

end ProjetSysteme.Library.RoundRobin
