/- Library/Stack
   digest: A descending stack of 32-bit cells in a memory. -/

import Mathlib.Algebra.Group.Nat.Defs
import Mathlib.Logic.Function.Basic
import Mathlib.Tactic.Common

set_option autoImplicit false
set_option relaxedAutoImplicit false

namespace ProjetSysteme.Library.Stack

universe u

structure Descending (V : Type u) where
  top : BitVec 32
  cells : BitVec 32 → V

variable {V : Type u}

namespace Descending

def push (v : V) (s : Descending V) : Descending V :=
  { top := s.top - 4, cells := fun a => if a = s.top - 4 then v else s.cells a }

def pop (s : Descending V) : Descending V := { s with top := s.top + 4 }

def cell (s : Descending V) (n : Nat) : V := s.cells (s.top + BitVec.ofNat 32 (4 * n))

def Holds (s : Descending V) (l : List V) : Prop := ∀ n v, l[n]? = some v → s.cell n = v

@[simp] theorem cell_push_zero (v : V) (s : Descending V) : (s.push v).cell 0 = v :=
  if_pos (BitVec.add_zero _)

private theorem four : (4 : BitVec 32).toNat = 4 := rfl

theorem cell_push_succ (v : V) (s : Descending V) {n : Nat} (small : n + 1 < 2 ^ 30) :
    (s.push v).cell (n + 1) = s.cell n := by
  have offset : s.top - 4 + BitVec.ofNat 32 (4 * (n + 1)) = s.top + BitVec.ofNat 32 (4 * n) := by
    apply BitVec.eq_of_toNat_eq
    simp only [BitVec.toNat_add, BitVec.toNat_sub, BitVec.toNat_ofNat, four]
    omega
  have apart : s.top + BitVec.ofNat 32 (4 * n) ≠ s.top - 4 := by
    intro same
    have value := congrArg BitVec.toNat same
    simp only [BitVec.toNat_add, BitVec.toNat_sub, BitVec.toNat_ofNat, four] at value
    omega
  unfold cell push
  simp only [offset, if_neg apart]

theorem cell_pop (s : Descending V) (n : Nat) : s.pop.cell n = s.cell (n + 1) := by
  have offset : s.top + 4 + BitVec.ofNat 32 (4 * n) = s.top + BitVec.ofNat 32 (4 * (n + 1)) := by
    apply BitVec.eq_of_toNat_eq
    simp only [BitVec.toNat_add, BitVec.toNat_ofNat, four]
    omega
  unfold cell pop
  simp only [offset]

theorem Holds.push {s : Descending V} {l : List V} (holds : s.Holds l) (v : V) (small : l.length < 2 ^ 30) :
    (s.push v).Holds (v :: l) := by
  intro n w at_
  cases n with
  | zero =>
      cases at_
      exact cell_push_zero v s
  | succ n =>
      have inside : n < l.length := Nat.lt_of_succ_lt_succ (List.getElem?_eq_some_iff.mp at_).1
      rw [cell_push_succ v s (by omega)]
      exact holds n w at_

theorem Holds.pop {s : Descending V} {l : List V} {v : V} (holds : s.Holds (v :: l)) : s.pop.Holds l := by
  intro n w at_
  rw [cell_pop]
  exact holds (n + 1) w at_

theorem Holds.head {s : Descending V} {l : List V} {v : V} (holds : s.Holds (v :: l)) : s.cell 0 = v :=
  holds 0 v rfl

end Descending

end ProjetSysteme.Library.Stack
