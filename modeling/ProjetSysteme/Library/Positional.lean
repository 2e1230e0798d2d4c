/- Library/Positional
   digest: Positional notation, the high digit first: what digits stand for, and the digits of a number. -/

import Mathlib.Data.Nat.Digits.Lemmas

set_option autoImplicit false
set_option relaxedAutoImplicit false

namespace ProjetSysteme.Library.Positional

variable {base : ℕ} {l : List ℕ}

def value (base : ℕ) (l : List ℕ) : ℕ := Nat.ofDigits base l.reverse

def numeral (base u : ℕ) : List ℕ := (Nat.digits base (u / base)).reverse ++ [u % base]

@[simp]
theorem value_nil : value base [] = 0 := rfl

theorem value_cons (d : ℕ) : value base (d :: l) = d * base ^ l.length + value base l := by
  rw [value, List.reverse_cons, Nat.ofDigits_append, Nat.ofDigits_singleton, List.length_reverse, Nat.add_comm,
    Nat.mul_comm]
  rfl

theorem value_zeros (n : ℕ) : value base (List.replicate n 0 ++ l) = value base l := by
  induction n with
  | zero => rfl
  | succ n ih => rw [List.replicate_succ, List.cons_append, value_cons, Nat.zero_mul, Nat.zero_add, ih]

theorem value_numeral (u : ℕ) : value base (numeral base u) = u := by
  rw [value, numeral, List.reverse_append, List.reverse_reverse, List.reverse_singleton, List.singleton_append,
    Nat.ofDigits_cons, Nat.ofDigits_digits, Nat.mod_add_div]

theorem numeral_lt (two : 2 ≤ base) {u d : ℕ} (mem : d ∈ numeral base u) : d < base := by
  rcases List.mem_append.mp mem with high | low
  · exact Nat.digits_lt_base two (List.mem_reverse.mp high)
  · rw [List.mem_singleton.mp low]
    exact Nat.mod_lt _ (by omega)

theorem numeral_concat (two : 2 ≤ base) {u : ℕ} (more : u / base ≠ 0) :
    numeral base u = numeral base (u / base) ++ [u % base] := by
  rw [numeral, numeral, Nat.digits_def' (by omega) (Nat.pos_of_ne_zero more), List.reverse_cons]

theorem numeral_single {u : ℕ} (single : u / base = 0) : numeral base u = [u % base] := by
  rw [numeral, single, Nat.digits_zero]
  rfl

end ProjetSysteme.Library.Positional
