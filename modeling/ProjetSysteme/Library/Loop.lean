/- Library/Loop
   digest: A loop bounded by a measure of its state has exactly the results of its chains of turns. -/

import Mathlib.Data.Nat.Notation
import Mathlib.Tactic.TypeStar

set_option autoImplicit false
set_option relaxedAutoImplicit false

namespace ProjetSysteme.Library.Loop

universe u v

variable {σ : Type u} {τ : Type v}

/-- At most `n` turns of `turn`, which has no result, ends the loop with a value or goes on from a state. -/
def loop (turn : σ → Option (σ ⊕ τ)) : ℕ → σ → Option τ
  | 0, _ => none
  | n + 1, s =>
    match turn s with
    | none => none
    | some (.inr t) => some t
    | some (.inl s') => loop turn n s'

inductive Ends (turn : σ → Option (σ ⊕ τ)) : σ → τ → Prop
  | last {s : σ} {t : τ} : turn s = some (.inr t) → Ends turn s t
  | turn {s s' : σ} {t : τ} : turn s = some (.inl s') → Ends turn s' t → Ends turn s t

variable {turn : σ → Option (σ ⊕ τ)} {s : σ} {t : τ} {n : ℕ}

theorem ends_of_loop (value : loop turn n s = some t) : Ends turn s t := by
  induction n generalizing s with
  | zero => cases value
  | succ n ih =>
      rw [loop] at value
      split at value
      · cases value
      · next t' last =>
          cases value
          exact .last last
      · next s' next => exact .turn next (ih value)

theorem loop_of_ends (measure : σ → ℕ) (less : ∀ s s', turn s = some (.inl s') → measure s' < measure s)
    (ends : Ends turn s t) (enough : measure s < n) : loop turn n s = some t := by
  induction ends generalizing n with
  | last last =>
      obtain ⟨n, rfl⟩ : ∃ m, n = m + 1 := ⟨n - 1, by omega⟩
      rw [loop, last]
  | @turn s s' _ next _ ih =>
      obtain ⟨n, rfl⟩ : ∃ m, n = m + 1 := ⟨n - 1, by omega⟩
      have smaller := less s s' next
      rw [loop, next]
      exact ih (by omega)

theorem loop_iff (measure : σ → ℕ) (less : ∀ s s', turn s = some (.inl s') → measure s' < measure s)
    (enough : measure s < n) : loop turn n s = some t ↔ Ends turn s t :=
  ⟨ends_of_loop, fun ends => loop_of_ends measure less ends enough⟩

theorem ends_next {s' : σ} (next : turn s = some (.inl s')) : Ends turn s t ↔ Ends turn s' t := by
  refine ⟨fun ends => ?_, .turn next⟩
  cases ends with
  | last other => cases other.symm.trans next
  | turn same ends =>
      cases same.symm.trans next
      exact ends

theorem ends_map {f : σ → σ} {g : τ → τ} (carried : ∀ s, turn (f s) = (turn s).map (Sum.map f g)) :
    Ends turn (f s) t ↔ ∃ t', t = g t' ∧ Ends turn s t' := by
  constructor
  · intro ends
    generalize start : f s = s₀ at ends
    induction ends generalizing s with
    | last last =>
        subst start
        rw [carried, Option.map_eq_some_iff] at last
        obtain ⟨x | t', turn, same⟩ := last
        · cases same
        · cases same
          exact ⟨t', rfl, .last turn⟩
    | turn next _ ih =>
        subst start
        rw [carried, Option.map_eq_some_iff] at next
        obtain ⟨s' | x, turn, same⟩ := next
        · cases same
          obtain ⟨t', value, ends⟩ := ih rfl
          exact ⟨t', value, .turn turn ends⟩
        · cases same
  · rintro ⟨t', rfl, ends⟩
    induction ends with
    | last last => exact .last (by rw [carried, last]; rfl)
    | turn next _ ih => exact .turn (by rw [carried, next]; rfl) ih

theorem Ends.invariant {I : σ → Prop} {Q : τ → Prop} (kept : ∀ s s', I s → turn s = some (.inl s') → I s')
    (value : ∀ s t, I s → turn s = some (.inr t) → Q t) (ends : Ends turn s t) (start : I s) : Q t := by
  induction ends with
  | last last => exact value _ _ start last
  | turn next _ ih => exact ih (kept _ _ start next)

/-- Total correctness: every turn from a state of the invariant ends with a good value, or keeps the
invariant and lowers the measure. -/
theorem loop_total {I : σ → Prop} {Q : τ → Prop} (measure : σ → ℕ)
    (step : ∀ s, I s → (∃ t, turn s = some (.inr t) ∧ Q t) ∨
      ∃ s', turn s = some (.inl s') ∧ I s' ∧ measure s' < measure s)
    (start : I s) (enough : measure s < n) : ∃ t, loop turn n s = some t ∧ Q t := by
  induction n generalizing s with
  | zero => omega
  | succ n ih =>
      rw [loop]
      rcases step s start with ⟨t, last, good⟩ | ⟨s', next, kept, smaller⟩
      · exact ⟨t, by rw [last], good⟩
      · obtain ⟨t, value, good⟩ := ih kept (by omega)
        exact ⟨t, by rw [next]; exact value, good⟩

end ProjetSysteme.Library.Loop
