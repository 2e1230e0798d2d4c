/- Library/Probing
   digest: Open addressing: the map that a table of slots stands for, and what storing and deleting do to it. -/

import Mathlib.Data.Set.Card
import Mathlib.Logic.Function.Basic

set_option autoImplicit false
set_option relaxedAutoImplicit false

namespace ProjetSysteme.Library.Probing

universe u v

inductive Slot (K : Type u) (V : Type v)
  | empty
  | deleted
  | active (key : K) (value : V)

namespace Slot

variable {K : Type u} {V : Type v}

def value : Slot K V → Option V
  | active _ v => some v
  | _ => none

def isActive (slot : Slot K V) : Bool := slot.value.isSome

theorem isActive_iff {slot : Slot K V} : slot.isActive = true ↔ ∃ k v, slot = active k v := by
  cases slot <;> simp [isActive, value]

def Stops [Setoid K] (k : K) : Slot K V → Prop
  | empty => True
  | deleted => False
  | active k' _ => k' ≈ k

theorem Stops.congr [Setoid K] {slot : Slot K V} {a b : K} (same : a ≈ b) (stops : slot.Stops a) :
    slot.Stops b := by
  cases slot with
  | empty => exact trivial
  | deleted => exact stops
  | active k v => exact Setoid.trans stops same

end Slot

theorem countP_set_toNat {α : Type u} (f : α → Bool) {t : List α} {p : ℕ} {old : α}
    (here : t[p]? = some old) (new : α) :
    (t.set p new).countP f + (f old).toNat = t.countP f + (f new).toNat := by
  obtain ⟨inside, at_⟩ := List.getElem?_eq_some_iff.mp here
  rw [List.countP_set inside, at_]
  cases holds : f old with
  | false => cases f new <;> rfl
  | true =>
      have positive : 0 < t.countP f :=
        List.countP_pos_iff.mpr ⟨old, List.mem_iff_getElem?.mpr ⟨p, here⟩, holds⟩
      cases f new
      all_goals simp only [if_true, if_false, Bool.false_eq_true, Bool.toNat_true, Bool.toNat_false]
      all_goals omega

section Size

variable {Q : Type u} {V : Type v}

/-- The keys of a map. -/
def keys (M : Q → Option V) : Set Q := { q | (M q).isSome }

variable [DecidableEq Q]

theorem keys_update_some (M : Q → Option V) (q : Q) (v : V) :
    keys (Function.update M q (some v)) = insert q (keys M) := by
  ext p
  by_cases same : p = q
  · simp [keys, same]
  · simp [keys, same]

theorem keys_update_none (M : Q → Option V) (q : Q) :
    keys (Function.update M q none) = keys M \ {q} := by
  ext p
  by_cases same : p = q
  · simp [keys, same]
  · simp [keys, same]

theorem keys_update_finite {M : Q → Option V} (finite : (keys M).Finite) (q : Q) (x : Option V) :
    (keys (Function.update M q x)).Finite := by
  cases x with
  | none => exact keys_update_none M q ▸ finite.sdiff
  | some v => exact keys_update_some M q v ▸ finite.insert q

theorem ncard_keys_update {M : Q → Option V} (finite : (keys M).Finite) (q : Q) (x : Option V) :
    (keys (Function.update M q x)).ncard + (M q).isSome.toNat = (keys M).ncard + x.isSome.toNat := by
  cases x with
  | none =>
      rw [keys_update_none]
      cases here : M q with
      | none =>
          have outside : q ∉ keys M := by simp [keys, here]
          rw [Set.sdiff_singleton_eq_self outside]
      | some w =>
          have inside : q ∈ keys M := by simp [keys, here]
          exact Set.ncard_sdiff_singleton_add_one inside finite
  | some v =>
      rw [keys_update_some]
      cases here : M q with
      | none =>
          have outside : q ∉ keys M := by simp [keys, here]
          rw [Set.ncard_insert_of_notMem outside finite]
          rfl
      | some w =>
          have inside : q ∈ keys M := by simp [keys, here]
          rw [Set.insert_eq_of_mem inside]
          rfl

end Size

variable {K : Type u} {V : Type v} {setoid : Setoid K}

structure Path (setoid : Setoid K) (size : ℕ) where
  place : K → ℕ → ℕ
  inside : ∀ k n, place k n < size
  congr : ∀ {a b : K}, a ≈ b → place a = place b

def Content (t : List (Slot K V)) (M : Quotient setoid → Option V) : Prop :=
  ∀ k v, M ⟦k⟧ = some v ↔ ∃ k', .active k' v ∈ t ∧ k' ≈ k

def Distinct (setoid : Setoid K) (t : List (Slot K V)) : Prop :=
  t.Pairwise fun a b => ∀ k v k' v', a = .active k v → b = .active k' v' → ¬ k ≈ k'

theorem Content.unique {t : List (Slot K V)} {M N : Quotient setoid → Option V} (one : Content t M)
    (two : Content t N) : M = N := by
  funext q
  induction q using Quotient.ind with
  | _ k => exact Option.ext fun v => (one k v).trans (two k v).symm

theorem Content.absent {t : List (Slot K V)} {M : Quotient setoid → Option V} (content : Content t M) {k : K}
    (nowhere : ∀ k' v, .active k' v ∈ t → ¬ k' ≈ k) : M ⟦k⟧ = none := by
  cases here : M ⟦k⟧ with
  | none => rfl
  | some v =>
      obtain ⟨k', mem, same⟩ := (content k v).mp here
      exact absurd same (nowhere k' v mem)

theorem Content.concat_other {t : List (Slot K V)} {M : Quotient setoid → Option V} (content : Content t M)
    {slot : Slot K V} (free : slot.isActive = false) : Content (t ++ [slot]) M := by
  intro k v
  rw [content k v]
  refine exists_congr fun k' => and_congr_left fun _ => ?_
  rw [List.mem_append, List.mem_singleton]
  refine ⟨.inl, fun mem => mem.resolve_right ?_⟩
  rintro rfl
  cases free

open scoped Classical in
theorem Content.concat_active {t : List (Slot K V)} {M : Quotient setoid → Option V} (content : Content t M)
    {k : K} (v : V) (absent : M ⟦k⟧ = none) :
    Content (t ++ [.active k v]) (Function.update M ⟦k⟧ (some v)) := by
  intro a w
  by_cases same : k ≈ a
  · rw [← Quotient.sound same, Function.update_self]
    constructor
    · rintro ⟨⟩
      exact ⟨k, List.mem_append_right _ (List.mem_singleton_self _), same⟩
    · rintro ⟨k', mem, same'⟩
      rcases List.mem_append.mp mem with before | last
      · have here := (content a w).mpr ⟨k', before, same'⟩
        rw [← Quotient.sound same, absent] at here
        cases here
      · cases List.mem_singleton.mp last
        rfl
  · have other : (⟦a⟧ : Quotient setoid) ≠ ⟦k⟧ := fun equal => same (Setoid.symm (Quotient.exact equal))
    rw [Function.update_of_ne other, content a w]
    refine exists_congr fun k' => and_congr_left fun same' => ?_
    rw [List.mem_append, List.mem_singleton]
    refine ⟨.inl, fun mem => mem.resolve_right ?_⟩
    rintro ⟨⟩
    exact same same'

section Search

variable {size : ℕ} (path : Path setoid size) (t : List (Slot K V))

def Passes (k : K) (n : ℕ) : Prop := ∀ i < n, ∃ slot, t[path.place k i]? = some slot ∧ ¬ slot.Stops k

structure Search (k : K) (n : ℕ) (slot : Slot K V) : Prop where
  passes : Passes path t k n
  here : t[path.place k n]? = some slot
  stops : slot.Stops k

/-- The slot `n` of the search for `k` is the first one that holds no key. -/
structure Free (k : K) (n : ℕ) : Prop where
  crowded : ∀ i < n, ∃ k' v', t[path.place k i]? = some (.active k' v')
  here : ∃ slot, t[path.place k n]? = some slot ∧ slot.isActive = false

structure Represents (M : Quotient setoid → Option V) : Prop where
  length : t.length = size
  /-- Every key is where the search for it ends. -/
  placed : ∀ p k v, t[p]? = some (.active k v) → ∃ n, path.place k n = p ∧ Passes path t k n
  content : Content t M
  finite : (keys M).Finite
  card : (keys M).ncard = t.countP Slot.isActive

variable {path t}

theorem Passes.congr {a b : K} {n : ℕ} (same : a ≈ b) (passes : Passes path t a n) :
    Passes path t b n := by
  intro i less
  obtain ⟨slot, there, goes⟩ := passes i less
  exact ⟨slot, path.congr same ▸ there, fun stops => goes (stops.congr (Setoid.symm same))⟩

theorem Search.congr {a b : K} {n : ℕ} {slot : Slot K V} (same : a ≈ b)
    (search : Search path t a n slot) : Search path t b n slot :=
  ⟨search.passes.congr same, path.congr same ▸ search.here, search.stops.congr same⟩

theorem Search.unique {k : K} {n n' : ℕ} {slot slot' : Slot K V} (one : Search path t k n slot)
    (two : Search path t k n' slot') : n = n' ∧ slot = slot' := by
  obtain before | equal | after := lt_trichotomy n n'
  · obtain ⟨other, there, goes⟩ := two.passes n before
    cases there.symm.trans one.here
    exact absurd one.stops goes
  · subst equal
    exact ⟨rfl, Option.some.inj (one.here.symm.trans two.here)⟩
  · obtain ⟨other, there, goes⟩ := one.passes n' after
    cases there.symm.trans two.here
    exact absurd two.stops goes

theorem exists_search (path : Path setoid size) (k : K) (length : t.length = size) {n : ℕ}
    (hole : t[path.place k n]? = some .empty) : ∃ m ≤ n, ∃ slot, Search path t k m slot := by
  classical
  have some_slot : ∀ i, ∃ slot, t[path.place k i]? = some slot := fun i =>
    ⟨_, List.getElem?_eq_getElem (length ▸ path.inside k i)⟩
  have ends : ∃ i, ∃ slot, t[path.place k i]? = some slot ∧ slot.Stops k := ⟨n, .empty, hole, trivial⟩
  obtain ⟨slot, here, stops⟩ := Nat.find_spec ends
  refine ⟨Nat.find ends, Nat.find_min' ends ⟨.empty, hole, trivial⟩, slot, ?_, here, stops⟩
  intro i before
  obtain ⟨slot', there⟩ := some_slot i
  exact ⟨slot', there, fun stops' => Nat.find_min ends before ⟨slot', there, stops'⟩⟩

theorem Represents.place_unique {M : Quotient setoid → Option V} (rep : Represents path t M) {p p' : ℕ}
    {k k' : K} {v v' : V} (one : t[p]? = some (.active k v)) (two : t[p']? = some (.active k' v'))
    (same : k ≈ k') : p = p' := by
  obtain ⟨n, rfl, passes⟩ := rep.placed p k v one
  obtain ⟨n', rfl, passes'⟩ := rep.placed p' k' v' two
  have search : Search path t k n (.active k v) := ⟨passes, one, Setoid.refl k⟩
  have search' : Search path t k' n' (.active k' v') := ⟨passes', two, Setoid.refl k'⟩
  rw [path.congr same, ((search.congr same).unique search').1]

theorem Represents.distinct {M : Quotient setoid → Option V} (rep : Represents path t M) : Distinct setoid t := by
  refine List.pairwise_iff_getElem.mpr fun i j inside inside' before k v k' v' one two same => ?_
  have at_ : t[i]? = some (.active k v) := one ▸ List.getElem?_eq_getElem inside
  have at_' : t[j]? = some (.active k' v') := two ▸ List.getElem?_eq_getElem inside'
  exact absurd (rep.place_unique at_ at_' same) (Nat.ne_of_lt before)

theorem Represents.of_active {M : Quotient setoid → Option V} (rep : Represents path t M) {p : ℕ} {k k' : K}
    {v : V} (here : t[p]? = some (.active k' v)) (same : k' ≈ k) : M ⟦k⟧ = some v :=
  (rep.content k v).mpr ⟨k', List.mem_iff_getElem?.mpr ⟨p, here⟩, same⟩

theorem Represents.of_empty {M : Quotient setoid → Option V} (rep : Represents path t M) {k : K} {n : ℕ}
    (search : Search path t k n .empty) : M ⟦k⟧ = none := by
  refine rep.content.absent fun k' v mem same => ?_
  obtain ⟨p, at_⟩ := List.mem_iff_getElem?.mp mem
  obtain ⟨n', rfl, passes⟩ := rep.placed p k' v at_
  have search' : Search path t k' n' (.active k' v) := ⟨passes, at_, Setoid.refl k'⟩
  cases ((search'.congr same).unique search).2

theorem represents_empty (path : Path setoid size) :
    Represents path (List.replicate size (.empty : Slot K V)) fun _ => none where
  length := List.length_replicate
  placed := by
    intro p k v at_
    rw [List.getElem?_replicate] at at_
    split at at_ <;> cases at_
  content := by
    intro k v
    constructor
    · intro nothing
      cases nothing
    · rintro ⟨k', mem, -⟩
      cases (List.mem_replicate.mp mem).2
  finite := by
    simp [keys]
  card := by
    simp [keys, List.countP_replicate, Slot.isActive, Slot.value]

section Update

variable {M : Quotient setoid → Option V} {k : K} {p : ℕ} {old new : Slot K V}

theorem Represents.isSome_iff (rep : Represents path t M) (here : t[p]? = some old)
    (own : ∀ k' v', old = .active k' v' → k' ≈ k)
    (alone : ∀ q k' v', t[q]? = some (.active k' v') → k' ≈ k → q = p) :
    (M ⟦k⟧).isSome = old.isActive := by
  cases held : old.isActive with
  | true =>
      obtain ⟨k', v', rfl⟩ := Slot.isActive_iff.mp held
      rw [rep.of_active here (own k' v' rfl)]
      rfl
  | false =>
      rw [rep.content.absent fun k' v' mem same => ?_]
      · rfl
      · obtain ⟨q, at_⟩ := List.mem_iff_getElem?.mp mem
        cases (alone q k' v' at_ same ▸ at_).symm.trans here
        cases held

theorem getElem?_set_of_some (here : t[p]? = some old) (new : Slot K V) (q : ℕ) :
    (t.set p new)[q]? = if q = p then some new else t[q]? := by
  have inside : p < t.length := (List.getElem?_eq_some_iff.mp here).1
  by_cases same : q = p
  · rw [if_pos same, same, List.getElem?_set_self inside]
  · rw [if_neg same, List.getElem?_set_ne (Ne.symm same)]

theorem Passes.set (here : t[p]? = some old) (filled : new ≠ .empty) {a : K} {n : ℕ}
    (foreign : ∀ b x, new = .active b x → ¬ b ≈ a) (passes : Passes path t a n) :
    Passes path (t.set p new) a n := by
  intro i less
  rw [getElem?_set_of_some here]
  by_cases there : path.place a i = p
  · rw [if_pos there]
    refine ⟨new, rfl, ?_⟩
    cases new with
    | empty => exact absurd rfl filled
    | deleted => exact id
    | active b x => exact foreign b x rfl
  · rw [if_neg there]
    exact passes i less

theorem Represents.placed_set (rep : Represents path t M) (here : t[p]? = some old)
    (alone : ∀ q k' v', t[q]? = some (.active k' v') → k' ≈ k → q = p) (filled : new ≠ .empty)
    (reached : ∀ k' v', new = .active k' v' → k' ≈ k ∧
      ∃ n, path.place k n = p ∧ Passes path t k n ∧ ∀ i < n, path.place k i ≠ p)
    (q : ℕ) (a : K) (w : V) (at_ : (t.set p new)[q]? = some (.active a w)) :
    ∃ n, path.place a n = q ∧ Passes path (t.set p new) a n := by
  rw [getElem?_set_of_some here] at at_
  by_cases same : q = p
  · rw [if_pos same] at at_
    obtain ⟨equal, n, place, passes, before⟩ := reached a w (Option.some.inj at_)
    refine ⟨n, by rw [path.congr equal, same, place], ?_⟩
    refine Passes.congr (Setoid.symm equal) fun i less => ?_
    rw [getElem?_set_of_some here, if_neg (before i less)]
    exact passes i less
  · rw [if_neg same] at at_
    obtain ⟨n, place, passes⟩ := rep.placed q a w at_
    refine ⟨n, place, passes.set here filled fun b x holds equal => same ?_⟩
    exact alone q a w at_ (Setoid.trans (Setoid.symm equal) (reached b x holds).1)

open scoped Classical in
theorem Represents.content_set (rep : Represents path t M) (here : t[p]? = some old)
    (own : ∀ k' v', old = .active k' v' → k' ≈ k)
    (alone : ∀ q k' v', t[q]? = some (.active k' v') → k' ≈ k → q = p)
    (belongs : ∀ k' v', new = .active k' v' → k' ≈ k) :
    Content (t.set p new) (Function.update M ⟦k⟧ new.value) := by
  intro a w
  by_cases same : k ≈ a
  · rw [← Quotient.sound same, Function.update_self]
    constructor
    · intro value
      cases new with
      | empty => cases value
      | deleted => cases value
      | active b x =>
          cases value
          refine ⟨b, List.mem_iff_getElem?.mpr ⟨p, ?_⟩, Setoid.trans (belongs b w rfl) same⟩
          rw [getElem?_set_of_some here, if_pos rfl]
    · rintro ⟨k', mem, same'⟩
      obtain ⟨q, at_⟩ := List.mem_iff_getElem?.mp mem
      rw [getElem?_set_of_some here] at at_
      by_cases there : q = p
      · rw [if_pos there] at at_
        rw [Option.some.inj at_]
        rfl
      · rw [if_neg there] at at_
        exact absurd (alone q k' w at_ (Setoid.trans same' (Setoid.symm same))) there
  · have other : (⟦a⟧ : Quotient setoid) ≠ ⟦k⟧ := fun equal => same (Setoid.symm (Quotient.exact equal))
    rw [Function.update_of_ne other, rep.content a w]
    refine exists_congr fun k' => and_congr_left fun same' => ?_
    have foreign : ¬ k' ≈ k := fun equal => same (Setoid.trans (Setoid.symm equal) same')
    rw [List.mem_iff_getElem?, List.mem_iff_getElem?]
    refine exists_congr fun q => ?_
    rw [getElem?_set_of_some here]
    by_cases there : q = p
    · rw [if_pos there, there, here]
      constructor
      · intro at_
        exact absurd (own k' w (Option.some.inj at_)) foreign
      · intro at_
        exact absurd (belongs k' w (Option.some.inj at_)) foreign
    · rw [if_neg there]

open scoped Classical in
theorem Represents.set (rep : Represents path t M) (here : t[p]? = some old)
    (own : ∀ k' v', old = .active k' v' → k' ≈ k)
    (alone : ∀ q k' v', t[q]? = some (.active k' v') → k' ≈ k → q = p) (filled : new ≠ .empty)
    (reached : ∀ k' v', new = .active k' v' → k' ≈ k ∧
      ∃ n, path.place k n = p ∧ Passes path t k n ∧ ∀ i < n, path.place k i ≠ p) :
    Represents path (t.set p new) (Function.update M ⟦k⟧ new.value) := by
  refine ⟨(List.length_set ..).trans rep.length, rep.placed_set here alone filled reached,
    rep.content_set here own alone fun k' v' holds => (reached k' v' holds).1,
    keys_update_finite rep.finite _ _, ?_⟩
  have size := ncard_keys_update rep.finite ⟦k⟧ new.value
  have slots : (t.set p new).countP Slot.isActive + old.isActive.toNat =
      t.countP Slot.isActive + new.isActive.toNat := countP_set_toNat Slot.isActive here new
  have flag : new.value.isSome = new.isActive := rfl
  rw [rep.isSome_iff here own alone, rep.card, flag] at size
  omega

open scoped Classical in
theorem Represents.overwrite (rep : Represents path t M) {k' : K} {v w : V}
    (here : t[p]? = some (.active k' v)) (same : k' ≈ k) :
    Represents path (t.set p (.active k' w)) (Function.update M ⟦k⟧ (some w)) := by
  obtain ⟨n, place, passes⟩ := rep.placed p k' v here
  refine rep.set here ?_ ?_ nofun ?_
  · rintro a x ⟨⟩
    exact same
  · intro q a x at_ equal
    exact rep.place_unique at_ here (Setoid.trans equal (Setoid.symm same))
  · rintro a x ⟨⟩
    rw [path.congr same] at place
    have goes : Passes path t k n := passes.congr same
    refine ⟨same, n, place, goes, fun i less equal => ?_⟩
    obtain ⟨slot, there, passed⟩ := goes i less
    rw [equal] at there
    cases there.symm.trans here
    exact passed same

open scoped Classical in
theorem Represents.delete (rep : Represents path t M) {k' : K} {v : V}
    (here : t[p]? = some (.active k' v)) (same : k' ≈ k) :
    Represents path (t.set p .deleted) (Function.update M ⟦k⟧ none) := by
  refine rep.set here ?_ ?_ nofun nofun
  · rintro a x ⟨⟩
    exact same
  · intro q a x at_ equal
    exact rep.place_unique at_ here (Setoid.trans equal (Setoid.symm same))

open scoped Classical in
theorem Represents.store (rep : Represents path t M) {n m : ℕ} (search : Search path t k n .empty)
    (before : m ≤ n) (free : Free path t k m) (v : V) :
    Represents path (t.set (path.place k m) (.active k v)) (Function.update M ⟦k⟧ (some v)) := by
  obtain ⟨slot, here, idle⟩ := free.here
  refine rep.set here ?_ ?_ nofun ?_
  · rintro a x rfl
    cases idle
  · intro q a x at_ equal
    have absent := rep.of_empty search
    rw [rep.of_active at_ equal] at absent
    cases absent
  · rintro a x ⟨⟩
    refine ⟨Setoid.refl k, m, rfl, fun i less => search.passes i (Nat.lt_of_lt_of_le less before), ?_⟩
    intro i less equal
    obtain ⟨a, x, there⟩ := free.crowded i less
    rw [equal] at there
    cases there.symm.trans here
    cases idle

end Update

end Search

end ProjetSysteme.Library.Probing
