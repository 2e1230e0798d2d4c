/- Library/PriorityList
   digest: Lists kept in ascending order of a key, insertion before equals, service from the end. -/

import Mathlib.Data.List.MinMax
import Mathlib.Data.List.Sort
import Mathlib.Tactic.Common

set_option autoImplicit false
set_option relaxedAutoImplicit false

namespace ProjetSysteme.Library.PriorityList

universe u v

variable {α : Type u} {κ : Type v} [LinearOrder κ] (key : α → κ)

def Ascending (l : List α) : Prop := l.Pairwise (fun a b => key a ≤ key b)

/-- Insert before the first element whose key is not smaller.  Service takes the
last element, so equal keys leave in order of arrival. -/
def place (a : α) (l : List α) : List α := l.orderedInsert (fun x y => key x ≤ key y) a

@[simp] theorem mem_place {a b : α} {l : List α} : b ∈ place key a l ↔ b = a ∨ b ∈ l :=
  List.mem_orderedInsert _

theorem place_perm (a : α) (l : List α) : (place key a l).Perm (a :: l) :=
  List.perm_orderedInsert _ a l

theorem place_nodup {a : α} {l : List α} (fresh : a ∉ l) (nodup : l.Nodup) :
    (place key a l).Nodup :=
  (place_perm key a l).nodup_iff.mpr (List.nodup_cons.mpr ⟨fresh, nodup⟩)

theorem place_ascending (a : α) {l : List α} (ascending : Ascending key l) :
    Ascending key (place key a l) := by
  let _ : Std.Total (fun x y : α => key x ≤ key y) := ⟨fun x y => le_total (key x) (key y)⟩
  let _ : IsTrans α (fun x y => key x ≤ key y) := ⟨fun _ _ _ => le_trans⟩
  exact List.Pairwise.orderedInsert a l ascending

/-- Insertion keeps a relation that holds from the elements of smaller key to the new one, and
from the new one to the others. -/
theorem place_pairwise {R : α → α → Prop} {a : α} {l : List α} (ascending : Ascending key l)
    (pairwise : l.Pairwise R) (before : ∀ b ∈ l, key b < key a → R b a)
    (after : ∀ b ∈ l, key a ≤ key b → R a b) : (place key a l).Pairwise R := by
  induction l with
  | nil => exact List.pairwise_singleton R a
  | cons b l ih =>
      obtain ⟨least, ascending'⟩ := List.pairwise_cons.mp ascending
      obtain ⟨head, pairwise'⟩ := List.pairwise_cons.mp pairwise
      rw [place, List.orderedInsert_cons]
      split
      · next le =>
          refine List.pairwise_cons.mpr ⟨fun c mem => after c mem ?_, pairwise⟩
          rcases List.mem_cons.mp mem with rfl | rest
          · exact le
          · exact le.trans (least c rest)
      · next lt =>
          refine List.pairwise_cons.mpr ⟨fun c mem => ?_, ih ascending' pairwise'
            (fun c mem => before c (List.mem_cons_of_mem b mem))
            fun c mem => after c (List.mem_cons_of_mem b mem)⟩
          rcases (mem_place key).mp mem with rfl | rest
          · exact before b (List.mem_cons_self ..) (not_le.mp lt)
          · exact head c rest

theorem map_place {β : Type*} {key' : β → κ} {f : α → β} (same : ∀ a, key' (f a) = key a) (a : α)
    (l : List α) : (place key a l).map f = place key' (f a) (l.map f) := by
  induction l with
  | nil => rfl
  | cons b l ih =>
      simp only [place, List.orderedInsert_cons, List.map_cons, same] at ih ⊢
      split
      · rfl
      · rw [List.map_cons, ih]

theorem place_length (a : α) (l : List α) : (place key a l).length = l.length + 1 :=
  (place_perm key a l).length_eq

theorem filter_place_of_neg {p : α → Bool} {a : α} {l : List α} (rejected : ¬ p a = true) :
    (place key a l).filter p = l.filter p := by
  induction l with
  | nil => simp [place, rejected]
  | cons b l ih =>
      rw [place, List.orderedInsert_cons]
      split
      · rw [List.filter_cons_of_neg rejected]
      · rw [List.filter_cons, List.filter_cons]
        rw [place] at ih
        rw [ih]

theorem Ascending.congr {key' : α → κ} {l : List α} (same : ∀ a ∈ l, key a = key' a)
    (ascending : Ascending key l) : Ascending key' l := by
  refine List.Pairwise.imp_of_mem ?_ ascending
  intro a b ha hb le
  rw [← same a ha, ← same b hb]
  exact le

theorem Ascending.sublist {l l' : List α} (sub : l.Sublist l') (ascending : Ascending key l') :
    Ascending key l :=
  List.Pairwise.sublist sub ascending

/-- `a` stands in `l` between the keys not above and not below `k`. -/
def Fits (a : α) (k : κ) (l : List α) : Prop :=
  ∀ front back, l = front ++ a :: back →
    (∀ b ∈ front, b ≠ a → key b ≤ k) ∧ ∀ b ∈ back, b ≠ a → k ≤ key b

theorem Fits.tail {a b : α} {k : κ} {l : List α} (fits : Fits key a k (b :: l)) :
    Fits key a k l := by
  intro front back split
  obtain ⟨below, above⟩ := fits (b :: front) back (by rw [split, List.cons_append])
  exact ⟨fun c mem => below c (List.mem_cons_of_mem b mem), above⟩

theorem split_last {l : List α} {a : α} (last : l.getLast? = some a) :
    l = l.dropLast ++ [a] := by
  have nonempty : l ≠ [] := by
    intro empty
    simp [empty] at last
  rw [List.getLast?_eq_some_getLast nonempty] at last
  rw [← Option.some.inj last]
  exact (List.dropLast_append_getLast nonempty).symm

theorem last_mem {l : List α} {a : α} (last : l.getLast? = some a) : a ∈ l := by
  rw [split_last last]
  exact List.mem_append_right _ (List.mem_singleton_self a)

theorem le_last {l : List α} {a b : α} (ascending : Ascending key l)
    (last : l.getLast? = some a) (mem : b ∈ l) : key b ≤ key a := by
  rw [split_last last] at mem ascending
  rcases List.mem_append.mp mem with front | back
  · exact (List.pairwise_append.mp ascending).2.2 b front a (List.mem_singleton_self a)
  · rw [List.mem_singleton.mp back]

theorem mem_dropLast {l : List α} {a b : α} (nodup : l.Nodup) (last : l.getLast? = some a) :
    b ∈ l.dropLast ↔ b ∈ l ∧ b ≠ a := by
  have split := split_last last
  have parts : (l.dropLast ++ [a]).Nodup := split ▸ nodup
  have apart := (List.nodup_append.mp parts).2.2
  constructor
  · intro front
    exact ⟨(List.dropLast_sublist l).subset front,
      fun same => apart b front a (List.mem_singleton_self a) same⟩
  · rintro ⟨mem, ne⟩
    rw [split] at mem
    rcases List.mem_append.mp mem with front | back
    · exact front
    · exact absurd (List.mem_singleton.mp back) ne

section Arrival

variable [DecidableEq α]

theorem place_erase_self {a : α} {l : List α} (fresh : a ∉ l) : (place key a l).erase a = l := by
  rw [place]
  induction l with
  | nil => simp
  | cons b l ih =>
      have ne : a ≠ b := fun same => fresh (by simp [same])
      have rest : a ∉ l := fun mem => fresh (List.mem_cons_of_mem b mem)
      rw [List.orderedInsert_cons]
      split
      · exact List.erase_cons_head ..
      · rw [List.erase_cons_tail (by simpa using Ne.symm ne), ih rest]

theorem place_erase {a x : α} {l : List α} (ascending : Ascending key l) (other : x ≠ a) :
    (place key a l).erase x = place key a (l.erase x) := by
  induction l with
  | nil => simp [place, Ne.symm other]
  | cons b l ih =>
      obtain ⟨least, ascending'⟩ := List.pairwise_cons.mp ascending
      have rest := ih ascending'
      simp only [place] at rest
      simp only [place, List.orderedInsert_cons]
      by_cases same : b = x
      · subst same
        rw [List.erase_cons_head]
        split
        · next le =>
            rw [List.erase_cons_tail (by simpa using Ne.symm other), List.erase_cons_head]
            cases l with
            | nil => rfl
            | cons c l =>
                rw [List.orderedInsert_cons, if_pos (le.trans (least c (List.mem_cons_self ..)))]
        · exact List.erase_cons_head ..
      · rw [List.erase_cons_tail (by simpa using same), List.orderedInsert_cons]
        split
        · rw [List.erase_cons_tail (by simpa using Ne.symm other), List.erase_cons_tail (by simpa using same)]
        · rw [List.erase_cons_tail (by simpa using same), rest]

def arrange (p : List α) : List α := p.foldl (fun l a => place key a l) []

omit [DecidableEq α] in
@[simp] theorem arrange_concat (p : List α) (a : α) :
    arrange key (p ++ [a]) = place key a (arrange key p) := by
  simp [arrange]

omit [DecidableEq α] in
theorem arrange_perm (p : List α) : (arrange key p).Perm p := by
  induction p using List.reverseRecOn with
  | nil => exact List.Perm.nil
  | append_singleton p a ih =>
      rw [arrange_concat]
      exact (place_perm key a _).trans ((ih.cons a).trans (List.perm_append_singleton a p).symm)

omit [DecidableEq α] in
theorem arrange_ascending (p : List α) : Ascending key (arrange key p) := by
  induction p using List.reverseRecOn with
  | nil => exact List.Pairwise.nil
  | append_singleton p a ih =>
      rw [arrange_concat]
      exact place_ascending key a ih

theorem arrange_erase {p : List α} (x : α) (nodup : p.Nodup) :
    (arrange key p).erase x = arrange key (p.erase x) := by
  induction p using List.reverseRecOn with
  | nil => rfl
  | append_singleton p a ih =>
      obtain ⟨nodup', -, apart⟩ := List.nodup_append.mp nodup
      have fresh : a ∉ p := fun mem => apart a mem a (List.mem_singleton_self a) rfl
      rw [arrange_concat]
      by_cases same : x = a
      · subst same
        rw [place_erase_self key fun mem => fresh ((arrange_perm key p).mem_iff.mp mem),
          List.erase_append_right _ fresh]
        simp
      · rw [place_erase key (arrange_ascending key p) same, ih nodup']
        by_cases mem : x ∈ p
        · rw [List.erase_append_left _ mem, arrange_concat]
        · rw [List.erase_of_not_mem mem, List.erase_of_not_mem (by simp [mem, same]), arrange_concat]

omit [DecidableEq α] in
theorem place_getLast? {a : α} {l : List α} (ascending : Ascending key l) :
    (place key a l).getLast? =
      l.getLast?.elim (some a) fun b => if key b < key a then some a else some b := by
  induction l with
  | nil => rfl
  | cons b l ih =>
      rw [place, List.orderedInsert_cons]
      split
      · next le =>
          obtain ⟨c, last⟩ : ∃ c, (b :: l).getLast? = some c :=
            ⟨_, List.getLast?_eq_some_getLast (List.cons_ne_nil b l)⟩
          have above : key a ≤ key c := le.trans (by
            rcases List.mem_cons.mp (last_mem last) with same | mem
            · rw [same]
            · exact (List.pairwise_cons.mp ascending).1 c mem)
          rw [List.getLast?_cons_cons, last, Option.elim_some, if_neg (not_lt.mpr above)]
      · next lt =>
          have rest := ih (List.pairwise_cons.mp ascending).2
          rw [place] at rest
          rw [List.getLast?_cons, rest]
          cases l with
          | nil =>
              rw [not_le] at lt
              simp [lt]
          | cons c l =>
              obtain ⟨d, last⟩ : ∃ d, (c :: l).getLast? = some d :=
                ⟨_, List.getLast?_eq_some_getLast (List.cons_ne_nil c l)⟩
              rw [List.getLast?_cons_cons, last]
              simp only [Option.elim_some]
              split <;> rfl

omit [DecidableEq α] in
theorem place_head? (a : α) (l : List α) :
    (place key a l).head? =
      l.head?.elim (some a) fun b => if key b < key a then some b else some a := by
  cases l with
  | nil => rfl
  | cons b l =>
      rw [place, List.orderedInsert_cons]
      by_cases le : key a ≤ key b
      · rw [if_pos le]
        simp [not_lt.mpr le]
      · rw [if_neg le]
        simp [not_le.mp le]

omit [DecidableEq α] in
theorem arrange_head? (p : List α) : (arrange key p).head? = p.reverse.argmin key := by
  induction p using List.reverseRecOn with
  | nil => rfl
  | append_singleton p a ih =>
      rw [arrange_concat, place_head?, ih, List.reverse_append, List.reverse_singleton,
        List.singleton_append, List.argmin_cons]
      cases p.reverse.argmin key <;> rfl

omit [DecidableEq α] in
theorem arrange_getLast? (p : List α) : (arrange key p).getLast? = p.argmax key := by
  induction p using List.reverseRecOn with
  | nil => rfl
  | append_singleton p a ih =>
      rw [arrange_concat, place_getLast? key (arrange_ascending key p), ih, List.argmax_concat]
      cases p.argmax key <;> rfl

end Arrival

end ProjetSysteme.Library.PriorityList
