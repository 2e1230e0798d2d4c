/- Library/RunLength
   digest: Run-length coding with a repeat symbol: what is encoded is decoded. -/

import Mathlib.Data.List.Basic

set_option autoImplicit false
set_option relaxedAutoImplicit false

namespace ProjetSysteme.Library.RunLength

universe u

variable {α : Type u} [DecidableEq α] (star : α) (count : α → ℕ)

/-- A symbol, `star` and a third symbol stand for as many copies of the first as the third counts. -/
def decode : List α → List α
  | c :: s :: n :: wire =>
    if s = star then List.replicate (count n) c ++ decode wire else c :: decode (s :: n :: wire)
  | [c, d] => [c, d]
  | [c] => [c]
  | [] => []

/-- The second list is an encoding of the first whose counts are all in `valid`. -/
inductive Coded (valid : α → Prop) : List α → List α → Prop
  | nil : Coded valid [] []
  | plain {c : α} {text wire : List α} : c ≠ star → Coded valid text wire →
      Coded valid (c :: text) (c :: wire)
  | run {c n : α} {text wire : List α} : c ≠ star → valid n → 0 < count n → Coded valid text wire →
      Coded valid (List.replicate (count n) c ++ text) (c :: star :: n :: wire)

namespace Coded

variable {star count} {valid valid' : α → Prop} {text text' wire wire' : List α}

omit [DecidableEq α] in
theorem append (coded : Coded star count valid text wire) (coded' : Coded star count valid text' wire') :
    Coded star count valid (text ++ text') (wire ++ wire') := by
  induction coded with
  | nil => exact coded'
  | plain notStar _ ih => exact .plain notStar ih
  | run notStar isValid some _ ih =>
      rw [List.append_assoc]
      exact .run notStar isValid some ih

omit [DecidableEq α] in
theorem mono (coded : Coded star count valid text wire) (weaker : ∀ n, valid n → valid' n) :
    Coded star count valid' text wire := by
  induction coded with
  | nil => exact .nil
  | plain notStar _ ih => exact .plain notStar ih
  | run notStar isValid some _ ih => exact .run notStar (weaker _ isValid) some ih

omit [DecidableEq α] in
theorem mem (coded : Coded star count valid text wire) {x : α} (inWire : x ∈ wire) :
    x ∈ text ∨ x = star ∨ valid x ∧ count x ≤ text.length := by
  induction coded with
  | nil => cases inWire
  | @plain c text wire _ _ ih =>
      rcases List.mem_cons.mp inWire with rfl | later
      · exact .inl (List.mem_cons_self ..)
      · rcases ih later with inText | isStar | ⟨isValid, bound⟩
        · exact .inl (List.mem_cons_of_mem _ inText)
        · exact .inr (.inl isStar)
        · exact .inr (.inr ⟨isValid, Nat.le_trans bound (Nat.le_succ _)⟩)
  | @run c n text wire _ isValid some _ ih =>
      rw [List.length_append, List.length_replicate]
      simp only [List.mem_cons] at inWire
      rcases inWire with rfl | rfl | rfl | later
      · exact .inl (List.mem_append_left _ (List.mem_replicate.mpr ⟨Nat.pos_iff_ne_zero.mp some, rfl⟩))
      · exact .inr (.inl rfl)
      · exact .inr (.inr ⟨isValid, Nat.le_add_right ..⟩)
      · rcases ih later with inText | isStar | ⟨isValid, bound⟩
        · exact .inl (List.mem_append_right _ inText)
        · exact .inr (.inl isStar)
        · exact .inr (.inr ⟨isValid, Nat.le_trans bound (Nat.le_add_left ..)⟩)

theorem decode_plain {c : α} (coded : Coded star count valid text wire) :
    decode star count (c :: wire) = c :: decode star count wire := by
  cases coded with
  | nil => rfl
  | @plain d _ wire notStar rest =>
      cases rest with
      | nil => rfl
      | _ => rw [decode, if_neg notStar]
  | run notStar => rw [decode, if_neg notStar]

theorem decode_eq (coded : Coded star count valid text wire) : decode star count wire = text := by
  induction coded with
  | nil => rfl
  | plain _ rest ih => rw [rest.decode_plain, ih]
  | run _ _ _ _ ih => rw [decode, if_pos rfl, ih]

end Coded

end ProjetSysteme.Library.RunLength
