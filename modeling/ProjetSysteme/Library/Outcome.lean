/- Library/Outcome
   digest: Postconditions of computations that end in a value or in an error. -/

import Mathlib.Tactic.Common

set_option autoImplicit false
set_option relaxedAutoImplicit false

namespace ProjetSysteme.Library.Outcome

universe u v

variable {ε : Type u} {α β : Type v}

/-- The computation `r` ends in a value satisfying `Q` or in an error satisfying `E`. -/
def Sat (r : Except ε α) (Q : α → Prop) (E : ε → Prop) : Prop :=
  match r with
  | .ok a => Q a
  | .error e => E e

@[simp] theorem sat_ok (a : α) (Q : α → Prop) (E : ε → Prop) :
    Sat (.ok a) Q E ↔ Q a := Iff.rfl

@[simp] theorem sat_error (e : ε) (Q : α → Prop) (E : ε → Prop) :
    Sat (.error e) Q E ↔ E e := Iff.rfl

theorem Sat.of_ok {r : Except ε α} {Q : α → Prop} {E : ε → Prop} (sat : Sat r Q E)
    {a : α} (value : r = .ok a) : Q a := by
  rw [value] at sat
  exact sat

theorem Sat.of_error {r : Except ε α} {Q : α → Prop} {E : ε → Prop} (sat : Sat r Q E)
    {e : ε} (failure : r = .error e) : E e := by
  rw [failure] at sat
  exact sat

theorem Sat.of_eq {r : Except ε α} {Q : α → Prop} {E : ε → Prop} {a : α} (value : r = .ok a)
    (post : Q a) : Sat r Q E := by
  rw [value]
  exact post

theorem Sat.mono {r : Except ε α} {Q Q' : α → Prop} {E E' : ε → Prop} (sat : Sat r Q E)
    (value : ∀ a, Q a → Q' a) (failure : ∀ e, E e → E' e) : Sat r Q' E' := by
  cases r with
  | ok a => exact value a sat
  | error e => exact failure e sat

/-- Sequencing: the intermediate value satisfies the first postcondition, and
the errors of both parts satisfy the same one. -/
theorem Sat.bind {r : Except ε α} {f : α → Except ε β} {Q : α → Prop} {R : β → Prop}
    {E : ε → Prop} (sat : Sat r Q E) (next : ∀ a, Q a → Sat (f a) R E) :
    Sat (r >>= f) R E := by
  cases r with
  | ok a => exact next a sat
  | error e => exact sat

theorem Sat.ite {c : Prop} [Decidable c] {r r' : Except ε α} {Q : α → Prop} {E : ε → Prop}
    (yes : Sat r Q E) (no : Sat r' Q E) : Sat (if c then r else r') Q E := by
  by_cases holds : c
  · rwa [if_pos holds]
  · rwa [if_neg holds]

theorem bind_ok {r : Except ε α} {f : α → Except ε β} {b : β} (value : r >>= f = .ok b) :
    ∃ a, r = .ok a ∧ f a = .ok b := by
  cases r with
  | ok a => exact ⟨a, rfl, value⟩
  | error e => cases value

section Image

variable {α' β' : Type v} {onError : ε → ε} {onValue : α → α'} {onNext : β → β'}

/-- A computation seen through a map of its errors and a map of its values. -/
def image (onError : ε → ε) (onValue : α → β) : Except ε α → Except ε β
  | .ok a => .ok (onValue a)
  | .error e => .error (onError e)

theorem image_bind {r : Except ε α} {r' : Except ε α'} {f : α → Except ε β} {f' : α' → Except ε β'}
    (first : r' = image onError onValue r) (next : ∀ a, f' (onValue a) = image onError onNext (f a)) :
    r' >>= f' = image onError onNext (r >>= f) := by
  subst first
  cases r with
  | ok a => exact next a
  | error e => rfl

theorem image_ite {c : Prop} [Decidable c] {r s : Except ε α} {r' s' : Except ε α'}
    (yes : c → r' = image onError onValue r) (no : ¬ c → s' = image onError onValue s) :
    (if c then r' else s') = image onError onValue (if c then r else s) := by
  by_cases holds : c
  · rw [if_pos holds, if_pos holds]
    exact yes holds
  · rw [if_neg holds, if_neg holds]
    exact no holds

theorem image_eq_ok {r : Except ε α} {b : α'} (value : image onError onValue r = .ok b) :
    ∃ a, r = .ok a ∧ b = onValue a := by
  cases r with
  | ok a =>
      cases value
      exact ⟨a, rfl, rfl⟩
  | error e => cases value

end Image

section Fuel

/-- A computation that is given fuel: with more of it, it ends in the same value. -/
def Steady (r : ℕ → Except ε α) : Prop := ∀ n m a, n ≤ m → r n = .ok a → r m = .ok a

theorem Steady.const (r : Except ε α) : Steady fun _ => r := fun _ _ _ _ => id

theorem Steady.of_succ {r : ℕ → Except ε α} (step : ∀ n a, r n = .ok a → r (n + 1) = .ok a) : Steady r := by
  intro n m a more value
  induction more with
  | refl => exact value
  | step _ ih => exact step _ a ih

theorem Steady.bind {r : ℕ → Except ε α} {f : ℕ → α → Except ε β} (steady : Steady r)
    (next : ∀ a, Steady fun n => f n a) : Steady fun n => r n >>= f n := by
  intro n m b more value
  obtain ⟨a, first, second⟩ := bind_ok value
  change r m >>= f m = _
  rw [steady n m a more first]
  exact next a n m b more second

theorem Steady.ite {c : Prop} [Decidable c] {r r' : ℕ → Except ε α} (yes : Steady r) (no : Steady r') :
    Steady fun n => if c then r n else r' n := by
  by_cases holds : c
  · simpa only [if_pos holds] using yes
  · simpa only [if_neg holds] using no

end Fuel

end ProjetSysteme.Library.Outcome
