/- Library/Ring
   digest: Circular doubly linked lists in a memory of links: insertion, removal and the rings they leave. -/

import Mathlib.Data.List.Nodup
import Mathlib.Logic.Function.Basic
import Mathlib.Tactic.Common

set_option autoImplicit false
set_option relaxedAutoImplicit false

namespace ProjetSysteme.Library.Ring

universe u

structure Links (L : Type u) where
  prev : L → Option L
  next : L → Option L

variable {L : Type u} {m m' : Links L} {a b p x c : L} {l front back : List L}

/-- The next links lead from `a` through `l` to `b`, and the previous links lead back. -/
def Path (m : Links L) : L → List L → L → Prop
  | a, [], b => m.next a = some b ∧ m.prev b = some a
  | a, c :: l, b => m.next a = some c ∧ m.prev c = some a ∧ Path m c l b

theorem getLastD_mem (l : List L) (a : L) : l.getLastD a ∈ a :: l := by
  induction l generalizing a with
  | nil => simp
  | cons d l ih =>
      rw [List.getLastD_cons]
      exact List.mem_cons_of_mem a (ih d)

theorem headD_mem (l : List L) (b : L) : l.headD b ∈ l ++ [b] := by
  cases l <;> simp

theorem neighbours {h : L} (split : l = front ++ back) :
    front.getLastD h ∈ h :: l ∧ back.headD h ∈ h :: l := by
  subst split
  constructor
  · rcases List.mem_cons.mp (getLastD_mem front h) with same | mem
    · exact List.mem_cons.mpr (.inl same)
    · exact List.mem_cons_of_mem h (List.mem_append_left back mem)
  · rcases List.mem_append.mp (headD_mem back h) with mem | same
    · exact List.mem_cons_of_mem h (List.mem_append_right front mem)
    · exact List.mem_cons.mpr (.inl (List.mem_singleton.mp same))

namespace Path

/-- A path depends on the next links of its nodes but the last and on the previous links of its
nodes but the first. -/
theorem congr (path : Path m a l b) (next : ∀ y ∈ a :: l, m'.next y = m.next y)
    (prev : ∀ y ∈ l ++ [b], m'.prev y = m.prev y) : Path m' a l b := by
  induction l generalizing a with
  | nil =>
      obtain ⟨forth, back⟩ := path
      exact ⟨(next a (by simp)).trans forth, (prev b (by simp)).trans back⟩
  | cons c l ih =>
      obtain ⟨forth, back, rest⟩ := path
      refine ⟨(next a (by simp)).trans forth, (prev c (by simp)).trans back, ?_⟩
      exact ih rest (fun y mem => next y (List.mem_cons_of_mem a mem))
        fun y mem => prev y (List.mem_cons_of_mem c mem)

theorem linked (path : Path m a (front ++ back) b) :
    m.next (front.getLastD a) = some (back.headD b) ∧
      m.prev (back.headD b) = some (front.getLastD a) := by
  induction front generalizing a with
  | nil =>
      cases back with
      | nil => exact path
      | cons c back => exact ⟨path.1, path.2.1⟩
  | cons d front ih =>
      rw [List.getLastD_cons]
      exact ih path.2.2

end Path

/-- The nodes of `l`, in this order, make a ring with the head `h`. -/
structure IsRing (m : Links L) (h : L) (l : List L) : Prop where
  path : Path m h l h
  nodup : (h :: l).Nodup

namespace IsRing

variable {h : L}

theorem next_head (ring : IsRing m h l) : m.next h = some (l.headD h) :=
  (show Path m h ([] ++ l) h from ring.path).linked.1

theorem prev_head (ring : IsRing m h l) : m.prev h = some (l.getLastD h) := by
  have path := ring.path
  rw [← List.append_nil l] at path
  exact path.linked.2

theorem next_node (ring : IsRing m h (front ++ x :: back)) : m.next x = some (back.headD h) := by
  have path := ring.path
  rw [List.append_cons] at path
  simpa using path.linked.1

theorem prev_node (ring : IsRing m h (front ++ x :: back)) :
    m.prev x = some (front.getLastD h) := by
  simpa using (Path.linked ring.path).2

theorem next_eq_head (ring : IsRing m h l) : m.next h = some h ↔ l = [] := by
  rw [ring.next_head]
  cases l with
  | nil => simp
  | cons c l =>
      have ne : c ≠ h := fun same => (List.nodup_cons.mp ring.nodup).1 (by simp [same])
      simp [ne]

theorem congr (ring : IsRing m h l)
    (same : ∀ y ∈ h :: l, m'.next y = m.next y ∧ m'.prev y = m.prev y) : IsRing m' h l where
  path := by
    refine ring.path.congr (fun y mem => (same y mem).1) fun y mem => (same y ?_).2
    rcases List.mem_append.mp mem with node | last
    · exact List.mem_cons_of_mem h node
    · rw [List.mem_singleton.mp last]
      exact List.mem_cons_self ..
  nodup := ring.nodup

theorem targets (ring : IsRing m h l) : (l ++ [h]).Nodup := by
  rw [List.nodup_append_comm]
  exact ring.nodup

end IsRing

variable [DecidableEq L]

def Links.insert (m : Links L) (p x c : L) : Links L where
  prev := Function.update (Function.update m.prev x (some p)) c (some x)
  next := Function.update (Function.update m.next x (some c)) p (some x)

/-- `p` and `c` are linked with each other and the links of `x` are cleared. -/
def Links.remove (m : Links L) (p x c : L) : Links L where
  prev := Function.update (Function.update m.prev c (some p)) x none
  next := Function.update (Function.update m.next p (some c)) x none

def Links.assign (m : Links L) (x : L) (v : Option L) : Links L where
  prev := Function.update m.prev x v
  next := Function.update m.next x v

namespace Links

variable {y : L}

theorem assign_self (m : Links L) (x : L) (v : Option L) :
    (m.assign x v).next x = v ∧ (m.assign x v).prev x = v :=
  ⟨Function.update_self .., Function.update_self ..⟩

theorem assign_of_ne (m : Links L) (v : Option L) (notX : y ≠ x) :
    (m.assign x v).next y = m.next y ∧ (m.assign x v).prev y = m.prev y :=
  ⟨Function.update_of_ne notX .., Function.update_of_ne notX ..⟩

theorem insert_prev_self (m : Links L) (p : L) (notC : x ≠ c) : (m.insert p x c).prev x = some p := by
  simp [insert, notC]

theorem remove_self (m : Links L) (p x c : L) :
    (m.remove p x c).prev x = none ∧ (m.remove p x c).next x = none := by
  simp [remove]

theorem insert_next_of_ne (m : Links L) (c : L) (notX : y ≠ x) (notP : y ≠ p) :
    (m.insert p x c).next y = m.next y := by
  simp [insert, notX, notP]

theorem insert_prev_of_ne (m : Links L) (p : L) (notX : y ≠ x) (notC : y ≠ c) :
    (m.insert p x c).prev y = m.prev y := by
  simp [insert, notX, notC]

theorem remove_next_of_ne (m : Links L) (c : L) (notX : y ≠ x) (notP : y ≠ p) :
    (m.remove p x c).next y = m.next y := by
  simp [remove, notX, notP]

theorem remove_prev_of_ne (m : Links L) (p : L) (notX : y ≠ x) (notC : y ≠ c) :
    (m.remove p x c).prev y = m.prev y := by
  simp [remove, notX, notC]

end Links

namespace Path

theorem insert (path : Path m a (front ++ back) b) (sources : (a :: (front ++ back)).Nodup)
    (targets : (front ++ (back ++ [b])).Nodup) (newSource : x ∉ a :: (front ++ back))
    (newTarget : x ∉ front ++ (back ++ [b])) :
    Path (m.insert (front.getLastD a) x (back.headD b)) a (front ++ x :: back) b := by
  induction front generalizing a with
  | nil =>
      rw [List.nil_append] at path sources targets newSource newTarget
      have notA : x ≠ a := fun same => newSource (by simp [same])
      have notHead : x ≠ back.headD b := fun same => newTarget (same ▸ headD_mem back b)
      refine ⟨by simp [Links.insert], m.insert_prev_self a notHead, ?_⟩
      cases back with
      | nil => exact ⟨by simp [Links.insert, notA], by simp [Links.insert]⟩
      | cons d rest =>
          refine ⟨by simp [Links.insert, notA], by simp [Links.insert], path.2.2.congr ?_ ?_⟩
          · intro y mem
            refine m.insert_next_of_ne d (fun same => newSource ?_) fun same => ?_
            · exact List.mem_cons_of_mem a (same ▸ mem)
            · exact (List.nodup_cons.mp sources).1 (same.subst mem)
          · intro y mem
            refine m.insert_prev_of_ne a (fun same => newTarget ?_) fun same => ?_
            · exact List.mem_cons_of_mem d (same ▸ mem)
            · exact (List.nodup_cons.mp targets).1 (same.subst mem)
  | cons d front ih =>
      obtain ⟨forth, behind, rest⟩ := path
      rw [List.cons_append] at sources targets newSource newTarget
      obtain ⟨notSource, sources'⟩ := List.nodup_cons.mp sources
      obtain ⟨notTarget, targets'⟩ := List.nodup_cons.mp targets
      rw [List.getLastD_cons]
      refine ⟨?_, ?_, ih rest sources' targets' (fun mem => newSource (List.mem_cons_of_mem a mem))
        fun mem => newTarget (List.mem_cons_of_mem d mem)⟩
      · refine (m.insert_next_of_ne _ (fun same => newSource (by simp [same])) fun same => ?_).trans forth
        exact notSource (List.mem_append_left back (same ▸ getLastD_mem front d))
      · refine (m.insert_prev_of_ne _ (fun same => newTarget (by simp [same])) fun same => ?_).trans behind
        exact notTarget (List.mem_append_right front (same ▸ headD_mem back b))

theorem remove (path : Path m a (front ++ x :: back) b) (sources : (a :: (front ++ x :: back)).Nodup)
    (targets : (front ++ (x :: back ++ [b])).Nodup) :
    Path (m.remove (front.getLastD a) x (back.headD b)) a (front ++ back) b := by
  induction front generalizing a with
  | nil =>
      rw [List.nil_append] at path sources targets
      obtain ⟨-, -, rest⟩ := path
      obtain ⟨notA, sources'⟩ := List.nodup_cons.mp sources
      obtain ⟨notX, -⟩ := List.nodup_cons.mp sources'
      obtain ⟨notTarget, targets'⟩ := List.nodup_cons.mp targets
      have distinct : a ≠ x := fun same => notA (by simp [same])
      cases back with
      | nil =>
          have last : b ≠ x := fun same => notTarget (by simp [same])
          exact ⟨by simp [Links.remove, distinct], by simp [Links.remove, last]⟩
      | cons d tail =>
          have first : d ≠ x := fun same => notX (by simp [same])
          refine ⟨by simp [Links.remove, distinct], by simp [Links.remove, first], rest.2.2.congr ?_ ?_⟩
          · intro y mem
            refine m.remove_next_of_ne d (fun same => notX (same ▸ mem)) fun same => notA ?_
            exact List.mem_cons_of_mem x (same.subst mem)
          · intro y mem
            refine m.remove_prev_of_ne a (fun same => notTarget ?_) fun same => ?_
            · exact List.mem_cons_of_mem d (same ▸ mem)
            · exact (List.nodup_cons.mp targets').1 (same.subst mem)
  | cons d front ih =>
      obtain ⟨forth, behind, rest⟩ := path
      rw [List.cons_append] at sources targets
      obtain ⟨notSource, sources'⟩ := List.nodup_cons.mp sources
      obtain ⟨notTarget, targets'⟩ := List.nodup_cons.mp targets
      rw [List.getLastD_cons]
      refine ⟨?_, ?_, ih rest sources' targets'⟩
      · refine (m.remove_next_of_ne _ (fun same => notSource (by simp [same])) fun same => ?_).trans forth
        exact notSource (List.mem_append_left (x :: back) (same ▸ getLastD_mem front d))
      · refine (m.remove_prev_of_ne _ (fun same => notTarget (by simp [same])) fun same => ?_).trans behind
        exact notTarget (List.mem_append_right front (List.mem_cons_of_mem x (same ▸ headD_mem back b)))

end Path

namespace IsRing

variable {h : L}

theorem insert (ring : IsRing m h (front ++ back)) (fresh : x ∉ h :: (front ++ back)) :
    IsRing (m.insert (front.getLastD h) x (back.headD h)) h (front ++ x :: back) where
  path := by
    have targets := ring.targets
    rw [List.append_assoc] at targets
    refine Path.insert ring.path ring.nodup targets fresh fun mem => fresh ?_
    rw [← List.append_assoc] at mem
    exact List.mem_cons.mpr ((List.mem_append.mp mem).symm.imp_left List.mem_singleton.mp)
  nodup := by
    have perm : (h :: (front ++ x :: back)).Perm (x :: h :: (front ++ back)) :=
      (List.Perm.cons h List.perm_middle).trans (.swap ..)
    exact perm.nodup_iff.mpr (List.nodup_cons.mpr ⟨fresh, ring.nodup⟩)

theorem remove (ring : IsRing m h (front ++ x :: back)) :
    IsRing (m.remove (front.getLastD h) x (back.headD h)) h (front ++ back) where
  path := by
    have targets := ring.targets
    rw [List.append_assoc] at targets
    exact Path.remove ring.path ring.nodup targets
  nodup := by
    refine ring.nodup.sublist (List.Sublist.cons_cons h ?_)
    exact List.Sublist.append_left (List.sublist_cons_self x back) front

end IsRing

/-- The nodes for which `head` holds are the heads of disjoint rings with the contents
`content`, and the `clean` nodes that are in no ring have null links. -/
structure Rings (m : Links L) (head clean : L → Prop) (content : L → List L) : Prop where
  ring : ∀ h, head h → IsRing m h (content h)
  node : ∀ h, head h → ∀ x ∈ content h, ¬ head x
  apart : ∀ h h', head h → head h' → h ≠ h' → ∀ x ∈ content h, x ∉ content h'
  free : ∀ x, clean x → ¬ head x → (∀ h, head h → x ∉ content h) → m.prev x = none ∧ m.next x = none

namespace Rings

variable {head clean : L → Prop} {content : L → List L} {h h' y z : L}

omit [DecidableEq L] in
theorem separate (rings : Rings m head clean content) (isHead : head h) (isHead' : head h') (other : h ≠ h')
    (mem : y ∈ h :: content h) (mem' : z ∈ h' :: content h') : y ≠ z := by
  rintro rfl
  rcases List.mem_cons.mp mem with rfl | node
  · rcases List.mem_cons.mp mem' with same | node'
    · exact other same
    · exact rings.node h' isHead' y node' isHead
  · rcases List.mem_cons.mp mem' with rfl | node'
    · exact rings.node h isHead y node isHead'
    · exact rings.apart h h' isHead isHead' other y node node'

omit [DecidableEq L] in
theorem linked (rings : Rings m head clean content) (isHead : head h) (mem : x ∈ content h) :
    m.prev x ≠ none ∧ m.next x ≠ none := by
  obtain ⟨front, back, split⟩ := List.append_of_mem mem
  have ring := rings.ring h isHead
  rw [split] at ring
  rw [ring.prev_node, ring.next_node]
  exact ⟨Option.some_ne_none _, Option.some_ne_none _⟩

theorem insert (rings : Rings m head clean content) (isHead : head h) (notHead : ¬ head x)
    (fresh : ∀ h, head h → x ∉ content h) (split : content h = front ++ back) :
    Rings (m.insert (front.getLastD h) x (back.headD h)) head clean
      (Function.update content h (front ++ x :: back)) := by
  obtain ⟨before, after⟩ := neighbours (h := h) split
  have ring := rings.ring h isHead
  rw [split] at ring
  have ofNode : ∀ y, y ∈ Function.update content h (front ++ x :: back) h ↔ y = x ∨ y ∈ content h := by
    intro y
    rw [Function.update_self, split]
    simp only [List.mem_append, List.mem_cons]
    exact or_left_comm
  have ofOther : ∀ g, g ≠ h → Function.update content h (front ++ x :: back) g = content g :=
    fun g other => Function.update_of_ne other ..
  refine ⟨fun g isHead' => ?_, fun g isHead' y mem => ?_, fun g g' isHead' isHead'' other y mem mem' => ?_,
    fun y isClean notHead' away => ?_⟩
  · by_cases same : g = h
    · subst same
      rw [Function.update_self]
      refine ring.insert fun mem => ?_
      rcases List.mem_cons.mp mem with isSame | node
      · exact notHead (isSame ▸ isHead)
      · exact fresh g isHead (split ▸ node)
    · rw [ofOther g same]
      refine (rings.ring g isHead').congr fun y mem => ?_
      have notX : y ≠ x := by
        rintro rfl
        rcases List.mem_cons.mp mem with rfl | node
        · exact notHead isHead'
        · exact fresh g isHead' node
      exact ⟨m.insert_next_of_ne _ notX (rings.separate isHead' isHead same mem before),
        m.insert_prev_of_ne _ notX (rings.separate isHead' isHead same mem after)⟩
  · by_cases same : g = h
    · subst same
      rcases (ofNode y).mp mem with rfl | node
      · exact notHead
      · exact rings.node g isHead y node
    · rw [ofOther g same] at mem
      exact rings.node g isHead' y mem
  · by_cases same : g = h
    · subst same
      rw [ofOther g' (Ne.symm other)] at mem'
      rcases (ofNode y).mp mem with rfl | node
      · exact fresh g' isHead'' mem'
      · exact rings.apart g g' isHead isHead'' other y node mem'
    · rw [ofOther g same] at mem
      by_cases same' : g' = h
      · subst same'
        rcases (ofNode y).mp mem' with rfl | node
        · exact fresh g isHead' mem
        · exact rings.apart g g' isHead' isHead other y mem node
      · rw [ofOther g' same'] at mem'
        exact rings.apart g g' isHead' isHead'' other y mem mem'
  · have notNode : y ≠ x ∧ y ∉ content h := by
      constructor
      · exact fun same => away h isHead ((ofNode y).mpr (.inl same))
      · exact fun node => away h isHead ((ofNode y).mpr (.inr node))
    have outside : ∀ z ∈ h :: content h, y ≠ z := by
      rintro z mem rfl
      rcases List.mem_cons.mp mem with rfl | node
      · exact notHead' isHead
      · exact notNode.2 node
    rw [m.insert_prev_of_ne _ notNode.1 (outside _ after), m.insert_next_of_ne _ notNode.1 (outside _ before)]
    refine rings.free y isClean notHead' fun g isHead' node => ?_
    by_cases same : g = h
    · exact notNode.2 (same ▸ node)
    · exact away g isHead' (by rwa [ofOther g same])

theorem remove (rings : Rings m head clean content) (isHead : head h) (split : content h = front ++ x :: back) :
    Rings (m.remove (front.getLastD h) x (back.headD h)) head clean
      (Function.update content h (front ++ back)) := by
  have isNode : x ∈ content h := split ▸ List.mem_append_right front (List.mem_cons_self ..)
  have before : front.getLastD h ∈ h :: content h := (neighbours split).1
  have after : back.headD h ∈ h :: content h := (neighbours (split.trans (List.append_cons ..))).2
  have ring := rings.ring h isHead
  rw [split] at ring
  have ofNode : ∀ y ∈ Function.update content h (front ++ back) h, y ∈ content h := by
    intro y mem
    rw [Function.update_self] at mem
    rw [split]
    exact (List.Sublist.append_left (List.sublist_cons_self x back) front).subset mem
  have ofOther : ∀ g, g ≠ h → Function.update content h (front ++ back) g = content g :=
    fun g other => Function.update_of_ne other ..
  have sub : ∀ g, ∀ y ∈ Function.update content h (front ++ back) g, y ∈ content g := by
    intro g y mem
    by_cases same : g = h
    · subst same
      exact ofNode y mem
    · rwa [ofOther g same] at mem
  refine ⟨fun g isHead' => ?_, fun g isHead' y mem => rings.node g isHead' y (sub g y mem),
    fun g g' isHead' isHead'' other y mem mem' =>
      rings.apart g g' isHead' isHead'' other y (sub g y mem) (sub g' y mem'),
    fun y isClean notHead' away => ?_⟩
  · by_cases same : g = h
    · subst same
      rw [Function.update_self]
      exact ring.remove
    · rw [ofOther g same]
      refine (rings.ring g isHead').congr fun y mem => ?_
      have notX := rings.separate isHead' isHead same mem (List.mem_cons_of_mem h isNode)
      exact ⟨m.remove_next_of_ne _ notX (rings.separate isHead' isHead same mem before),
        m.remove_prev_of_ne _ notX (rings.separate isHead' isHead same mem after)⟩
  · by_cases isX : y = x
    · subst isX
      exact m.remove_self ..
    · have outside : ∀ z ∈ h :: content h, y ≠ z := by
        rintro z mem rfl
        rcases List.mem_cons.mp mem with rfl | node
        · exact notHead' isHead
        · refine away h isHead ?_
          rw [Function.update_self]
          rw [split] at node
          simpa [isX] using node
      rw [m.remove_prev_of_ne _ isX (outside _ after), m.remove_next_of_ne _ isX (outside _ before)]
      refine rings.free y isClean notHead' fun g isHead' node => ?_
      by_cases same : g = h
      · exact outside y (List.mem_cons_of_mem h (same ▸ node)) rfl
      · exact away g isHead' (by rwa [ofOther g same])

omit [DecidableEq L] in
theorem mono {head' clean' : L → Prop} (rings : Rings m head clean content) (fewer : ∀ h, head' h → head h)
    (cleaner : ∀ x, clean' x → clean x)
    (kept : ∀ x, clean' x → ¬ head' x → (∀ h, head' h → x ∉ content h) →
      ¬ head x ∧ ∀ h, head h → x ∉ content h) : Rings m head' clean' content where
  ring h isHead := rings.ring h (fewer h isHead)
  node h isHead x mem isHead' := rings.node h (fewer h isHead) x mem (fewer x isHead')
  apart h h' isHead isHead' := rings.apart h h' (fewer h isHead) (fewer h' isHead')
  free x isClean notHead away := by
    obtain ⟨notHead', away'⟩ := kept x isClean notHead away
    exact rings.free x (cleaner x isClean) notHead' away'

omit [DecidableEq L] in
theorem relist {content' : L → List L} (rings : Rings m head clean content)
    (same : ∀ h, head h → content' h = content h) : Rings m head clean content' where
  ring h isHead := by
    rw [same h isHead]
    exact rings.ring h isHead
  node h isHead x mem := by
    rw [same h isHead] at mem
    exact rings.node h isHead x mem
  apart h h' isHead isHead' other x mem := by
    rw [same h isHead] at mem
    rw [same h' isHead']
    exact rings.apart h h' isHead isHead' other x mem
  free x isClean notHead away := by
    refine rings.free x isClean notHead fun h isHead mem => away h isHead ?_
    rwa [same h isHead]

theorem clear (rings : Rings m head clean content) (notHead : ¬ head x) (away : ∀ h, head h → x ∉ content h) :
    Rings (m.assign x none) head (fun y => clean y ∨ y = x) content where
  ring h isHead := by
    refine (rings.ring h isHead).congr fun y mem => ?_
    have other : y ≠ x := by
      rintro rfl
      rcases List.mem_cons.mp mem with rfl | node
      · exact notHead isHead
      · exact away h isHead node
    exact m.assign_of_ne none other
  node := rings.node
  apart := rings.apart
  free y isClean notHead' away' := by
    by_cases same : y = x
    · subst same
      exact (m.assign_self y none).symm
    · rw [(m.assign_of_ne none same).1, (m.assign_of_ne none same).2]
      exact rings.free y (isClean.resolve_right same) notHead' away'

theorem begin (rings : Rings m head clean content) (notHead : ¬ head x) (away : ∀ h, head h → x ∉ content h) :
    Rings (m.assign x (some x)) (fun y => head y ∨ y = x) clean (Function.update content x []) where
  ring h isHead := by
    by_cases same : h = x
    · subst same
      rw [Function.update_self]
      exact ⟨m.assign_self h (some h), List.nodup_singleton h⟩
    · have isHead' := isHead.resolve_right same
      rw [Function.update_of_ne same]
      refine (rings.ring h isHead').congr fun y mem => ?_
      have other : y ≠ x := by
        rintro rfl
        rcases List.mem_cons.mp mem with rfl | node
        · exact same rfl
        · exact away h isHead' node
      exact m.assign_of_ne (some x) other
  node h isHead y mem := by
    by_cases same : h = x
    · subst same
      rw [Function.update_self] at mem
      cases mem
    · have isHead' := isHead.resolve_right same
      rw [Function.update_of_ne same] at mem
      rintro (isHead'' | rfl)
      · exact rings.node h isHead' y mem isHead''
      · exact away h isHead' mem
  apart h h' isHead isHead' other y mem mem' := by
    have old : ∀ g, head g ∨ g = x → y ∈ Function.update content x [] g → head g ∧ y ∈ content g := by
      intro g isHead'' node
      by_cases same : g = x
      · subst same
        rw [Function.update_self] at node
        cases node
      · rw [Function.update_of_ne same] at node
        exact ⟨isHead''.resolve_right same, node⟩
    obtain ⟨oldHead, node⟩ := old h isHead mem
    obtain ⟨oldHead', node'⟩ := old h' isHead' mem'
    exact rings.apart h h' oldHead oldHead' other y node node'
  free y isClean notHead' away' := by
    have other : y ≠ x := fun same => notHead' (.inr same)
    rw [(m.assign_of_ne _ other).1, (m.assign_of_ne _ other).2]
    refine rings.free y isClean (fun isHead => notHead' (.inl isHead)) fun h isHead node => ?_
    refine away' h (.inl isHead) ?_
    by_cases same : h = x
    · exact absurd (same ▸ isHead) notHead
    · rwa [Function.update_of_ne same]

end Rings

end ProjetSysteme.Library.Ring
