/- Library/Blocks
   digest: Blocks allocated and freed one by one, and the singly linked chains they form. -/

import Mathlib.Data.List.Nodup
import Mathlib.Logic.Function.Basic
import Mathlib.Tactic.Common

set_option autoImplicit false
set_option relaxedAutoImplicit false

namespace ProjetSysteme.Library.Blocks

universe u v w

/-- An address, with the rank of the allocation that gave it. A program compares
addresses only; the rank decides whether an access is to the block it was given. -/
structure Pointer (A : Type u) where
  address : A
  rank : Nat
  deriving DecidableEq

/-- The live blocks, the number of allocations and the ranks freed, oldest first. -/
structure Heap (A : Type u) (V : Type v) where
  live : A → Option (Nat × V)
  allocated : Nat
  freed : List Nat

variable {A : Type u} {V : Type v}

namespace Heap

def empty : Heap A V := { live := fun _ => none, allocated := 0, freed := [] }

def Fresh (h : Heap A V) (a : A) : Prop := h.live a = none

def pointer (h : Heap A V) (a : A) : Pointer A := { address := a, rank := h.allocated }

/-- The content of the block of `p`; none when that block is no longer live. -/
def load (h : Heap A V) (p : Pointer A) : Option V :=
  (h.live p.address).bind fun block => if block.1 = p.rank then some block.2 else none

theorem load_eq_some {h : Heap A V} {p : Pointer A} {v : V} :
    h.load p = some v ↔ h.live p.address = some (p.rank, v) := by
  unfold load
  constructor
  · intro at_
    obtain ⟨⟨rank, content⟩, live, read⟩ := Option.bind_eq_some_iff.mp at_
    split at read
    next same =>
      cases read
      exact live.trans (congrArg some (Prod.ext same rfl))
    next => cases read
  · intro live
    rw [live]
    exact if_pos rfl

theorem load_injective {h : Heap A V} {p q : Pointer A} {v v' : V} (first : h.load p = some v)
    (second : h.load q = some v') (same : p.address = q.address) : p = q := by
  have left := load_eq_some.mp first
  rw [same, load_eq_some.mp second] at left
  obtain ⟨address, rank⟩ := p
  obtain ⟨address', rank'⟩ := q
  cases left
  cases same
  rfl

variable [DecidableEq A]

def alloc (h : Heap A V) (a : A) (v : V) : Heap A V :=
  { h with live := Function.update h.live a (some (h.allocated, v)), allocated := h.allocated + 1 }

def store (h : Heap A V) (p : Pointer A) (v : V) : Heap A V :=
  { h with live := Function.update h.live p.address (some (p.rank, v)) }

def free (h : Heap A V) (p : Pointer A) : Heap A V :=
  { h with live := Function.update h.live p.address none, freed := h.freed ++ [p.rank] }

theorem load_alloc_self (h : Heap A V) (a : A) (v : V) : (h.alloc a v).load (h.pointer a) = some v :=
  load_eq_some.mpr (Function.update_self ..)

theorem load_alloc {h : Heap A V} {a : A} {p : Pointer A} {v : V} (w : V) (fresh : h.Fresh a)
    (at_ : h.load p = some v) : (h.alloc a w).load p = some v := by
  have live := load_eq_some.mp at_
  have apart : p.address ≠ a := by
    intro same
    rw [same, fresh] at live
    cases live
  exact load_eq_some.mpr ((Function.update_of_ne apart ..).trans live)

theorem load_store_self (h : Heap A V) (p : Pointer A) (v : V) : (h.store p v).load p = some v :=
  load_eq_some.mpr (Function.update_self ..)

private theorem load_update {h h' : Heap A V} {p q : Pointer A} {v v' : V} {block : Option (Nat × V)}
    (changed : h'.live = Function.update h.live q.address block) (target : h.load q = some v')
    (at_ : h.load p = some v) (other : p ≠ q) : h'.load p = some v := by
  have apart : p.address ≠ q.address := fun same => other (load_injective at_ target same)
  refine load_eq_some.mpr ?_
  rw [changed, Function.update_of_ne apart]
  exact load_eq_some.mp at_

theorem load_store {h : Heap A V} {p q : Pointer A} {v v' : V} (w : V) (target : h.load q = some v')
    (at_ : h.load p = some v) (other : p ≠ q) : (h.store q w).load p = some v :=
  load_update rfl target at_ other

theorem load_free {h : Heap A V} {p q : Pointer A} {v v' : V} (target : h.load q = some v')
    (at_ : h.load p = some v) (other : p ≠ q) : (h.free q).load p = some v :=
  load_update rfl target at_ other

theorem store_same {h : Heap A V} {p : Pointer A} {v : V} (at_ : h.load p = some v) : h.store p v = h := by
  have live := load_eq_some.mp at_
  have same : Function.update h.live p.address (some (p.rank, v)) = h.live :=
    Function.update_eq_self_iff.mpr live.symm
  unfold store
  rw [same]

theorem store_alloc (h : Heap A V) (a : A) (v w : V) :
    (h.alloc a v).store (h.pointer a) w = h.alloc a w := by
  simp only [store, alloc, pointer, Function.update_idem]

end Heap

structure Cell (A : Type u) (W : Type w) where
  value : W
  next : Option (Pointer A)

variable {W : Type w}

/-- The blocks reached from a link, each with its value, up to the null link. -/
inductive Chain (h : Heap A (Cell A W)) : Option (Pointer A) → List (Pointer A × W) → Prop
  | nil : Chain h none []
  | cons {p : Pointer A} {value : W} {next : Option (Pointer A)} {rest : List (Pointer A × W)} :
      h.load p = some ⟨value, next⟩ → Chain h next rest → Chain h (some p) ((p, value) :: rest)

namespace Chain

variable {h h' : Heap A (Cell A W)} {start : Option (Pointer A)} {nodes : List (Pointer A × W)}

theorem unique {other : List (Pointer A × W)} (chain : Chain h start nodes) (chain' : Chain h start other) :
    nodes = other := by
  induction chain generalizing other with
  | nil =>
      cases chain'
      rfl
  | cons load _ ih =>
      cases chain' with
      | cons load' rest =>
          rw [load] at load'
          cases load'
          exact congrArg (_ :: ·) (ih rest)

theorem start_eq_none (chain : Chain h start nodes) : start = none ↔ nodes = [] := by
  cases chain with
  | nil => exact iff_of_true rfl rfl
  | cons load rest => exact iff_of_false (Option.some_ne_none _) (List.cons_ne_nil _ _)

theorem live (chain : Chain h start nodes) : ∀ node ∈ nodes, ∃ cell, h.load node.1 = some cell := by
  induction chain with
  | nil => exact fun node at_ => absurd at_ List.not_mem_nil
  | cons load _ ih =>
      intro node at_
      rcases List.mem_cons.mp at_ with first | later
      · subst first
        exact ⟨_, load⟩
      · exact ih node later

theorem frame (chain : Chain h start nodes)
    (same : ∀ node ∈ nodes, ∀ cell, h.load node.1 = some cell → h'.load node.1 = some cell) :
    Chain h' start nodes := by
  induction chain with
  | nil => exact .nil
  | cons load _ ih =>
      refine .cons (same _ List.mem_cons_self _ load) (ih ?_)
      exact fun node at_ => same node (List.mem_cons_of_mem _ at_)

theorem load_last {before : List (Pointer A × W)} {p : Pointer A} {value : W}
    (chain : Chain h start (before ++ [(p, value)])) : h.load p = some ⟨value, none⟩ := by
  induction before generalizing start with
  | nil =>
      cases chain with
      | cons load rest =>
          cases rest
          exact load
  | cons node before ih =>
      cases chain with
      | cons load rest => exact ih rest

theorem snoc {before : List (Pointer A × W)} {p q : Pointer A} {value value' : W}
    (chain : Chain h start (before ++ [(p, value)]))
    (same : ∀ node ∈ before, ∀ cell, h.load node.1 = some cell → h'.load node.1 = some cell)
    (link : h'.load p = some ⟨value, some q⟩) (last : h'.load q = some ⟨value', none⟩) :
    Chain h' start (before ++ [(p, value), (q, value')]) := by
  induction before generalizing start with
  | nil =>
      cases chain
      exact .cons link (.cons last .nil)
  | cons node before ih =>
      cases chain with
      | cons load rest =>
          refine .cons (same _ List.mem_cons_self _ load) (ih rest ?_)
          exact fun node at_ => same node (List.mem_cons_of_mem _ at_)

end Chain

/-- A heap that holds one chain and nothing else: every block ever allocated is
in the chain, or was freed once, and the oldest were freed first. -/
structure Owns (h : Heap A (Cell A W)) (start : Option (Pointer A)) (nodes : List (Pointer A × W)) : Prop where
  chain : Chain h start nodes
  ranks : h.freed ++ nodes.map (fun node => node.1.rank) = List.range h.allocated
  only : ∀ a rank cell, h.live a = some (rank, cell) → ∃ node ∈ nodes, node.1 = ⟨a, rank⟩

namespace Owns

variable {h : Heap A (Cell A W)} {start : Option (Pointer A)} {nodes : List (Pointer A × W)}

theorem empty : Owns (Heap.empty : Heap A (Cell A W)) none [] where
  chain := .nil
  ranks := rfl
  only := fun _ _ _ live => nomatch live

theorem nodup (owns : Owns h start nodes) : (nodes.map Prod.fst).Nodup := by
  have all : (h.freed ++ nodes.map fun node => node.1.rank).Nodup := owns.ranks ▸ List.nodup_range
  have ranks : ((nodes.map Prod.fst).map Pointer.rank).Nodup := by
    rw [List.map_map]
    exact all.of_append_right
  exact ranks.of_map _

theorem address_injective (owns : Owns h start nodes) {node node' : Pointer A × W} (at_ : node ∈ nodes)
    (at_' : node' ∈ nodes) (same : node.1.address = node'.1.address) : node.1 = node'.1 := by
  obtain ⟨cell, load⟩ := owns.chain.live node at_
  obtain ⟨cell', load'⟩ := owns.chain.live node' at_'
  exact Heap.load_injective load load' same

theorem freed_of_nil (owns : Owns h start []) : h.freed = List.range h.allocated ∧ ∀ a, h.live a = none := by
  refine ⟨?_, fun a => ?_⟩
  · have ranks := owns.ranks
    rw [List.map_nil, List.append_nil] at ranks
    exact ranks
  · by_contra some_
    obtain ⟨⟨rank, cell⟩, live⟩ := Option.ne_none_iff_exists'.mp some_
    obtain ⟨node, at_, -⟩ := owns.only a rank cell live
    cases at_

variable [DecidableEq A]

theorem singleton {a : A} {value : W} (owns : Owns h none []) :
    Owns (h.alloc a ⟨value, none⟩) (some (h.pointer a)) [(h.pointer a, value)] where
  chain := .cons (Heap.load_alloc_self ..) .nil
  ranks := by
    have ranks := owns.freed_of_nil.1
    simp only [Heap.alloc, Heap.pointer, List.map_cons, List.map_nil, List.range_succ, ← ranks]
  only := by
    intro b rank cell live
    by_cases same : b = a
    · subst same
      have here := (Function.update_self ..).symm.trans live
      cases here
      exact ⟨_, List.mem_cons_self, rfl⟩
    · have there := (Function.update_of_ne same ..).symm.trans live
      rw [owns.freed_of_nil.2 b] at there
      cases there

theorem snoc {a : A} {before : List (Pointer A × W)} {p : Pointer A} {value value' : W}
    (owns : Owns h start (before ++ [(p, value)])) (fresh : h.Fresh a) :
    Owns ((h.alloc a ⟨value', none⟩).store p ⟨value, some (h.pointer a)⟩) start
      (before ++ [(p, value), (h.pointer a, value')]) := by
  have last := owns.chain.load_last
  have moved := Heap.load_alloc (⟨value', none⟩ : Cell A W) fresh last
  have apartAddress : p.address ≠ a := by
    intro same
    have live := Heap.load_eq_some.mp last
    rw [same, fresh] at live
    cases live
  have apart : h.pointer a ≠ p := fun same => apartAddress (congrArg Pointer.address same).symm
  have distinct := owns.nodup
  rw [List.map_append, List.nodup_append] at distinct
  constructor
  · refine owns.chain.snoc ?_ (Heap.load_store_self ..) ?_
    · intro node at_ cell load
      have other : node.1 ≠ p := distinct.2.2 _ (List.mem_map_of_mem at_) _ List.mem_cons_self
      exact Heap.load_store _ moved (Heap.load_alloc _ fresh load) other
    · exact Heap.load_store _ moved (Heap.load_alloc_self ..) apart
  · have ranks := owns.ranks
    simp only [List.map_append, List.map_cons, List.map_nil] at ranks
    simp only [Heap.alloc, Heap.pointer, Heap.store, List.map_append, List.map_cons, List.map_nil, List.range_succ, ← ranks,
      List.append_assoc, List.cons_append, List.nil_append]
  · intro b rank cell live
    by_cases atP : b = p.address
    · subst atP
      have here := (Function.update_self ..).symm.trans live
      cases here
      exact ⟨(p, value), List.mem_append_right _ List.mem_cons_self, rfl⟩
    · have rest := (Function.update_of_ne atP ..).symm.trans live
      by_cases atA : b = a
      · subst atA
        have here := (Function.update_self ..).symm.trans rest
        cases here
        exact ⟨(_, value'), List.mem_append_right _ (List.mem_cons_of_mem _ List.mem_cons_self), rfl⟩
      · have old := (Function.update_of_ne atA ..).symm.trans rest
        obtain ⟨node, at_, same⟩ := owns.only b rank cell old
        refine ⟨node, ?_, same⟩
        rw [List.append_cons]
        exact List.mem_append_left _ at_

theorem tail {p : Pointer A} {value : W} {next : Option (Pointer A)} (owns : Owns h (some p) ((p, value) :: nodes))
    (load : h.load p = some ⟨value, next⟩) : Owns (h.free p) next nodes := by
  have distinct := List.nodup_cons.mp owns.nodup
  have link : Chain h next nodes := by
    cases owns.chain with
    | cons load' rest =>
        rw [load] at load'
        cases load'
        exact rest
  constructor
  · refine link.frame ?_
    intro node at_ cell at_'
    have other : node.1 ≠ p := fun same => distinct.1 (List.mem_map.mpr ⟨node, at_, same⟩)
    exact Heap.load_free load at_' other
  · have ranks := owns.ranks
    rw [List.map_cons, ← List.singleton_append, ← List.append_assoc] at ranks
    exact ranks
  · intro b rank cell live
    by_cases same : b = p.address
    · subst same
      have here := (Function.update_self ..).symm.trans live
      cases here
    · have old := (Function.update_of_ne same ..).symm.trans live
      obtain ⟨node, at_, atB⟩ := owns.only b rank cell old
      rcases List.mem_cons.mp at_ with first | later
      · subst first
        exact absurd (congrArg Pointer.address atB).symm same
      · exact ⟨node, later, atB⟩

end Owns

end ProjetSysteme.Library.Blocks
