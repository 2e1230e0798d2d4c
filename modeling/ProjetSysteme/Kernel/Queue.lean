/- Kernel/Queue
   source: shared/queue.h
   digest: The macros of queue.h on the links in memory. -/

import ProjetSysteme.Library.Ring
import ProjetSysteme.Kernel.Memory

set_option autoImplicit false
set_option relaxedAutoImplicit false

namespace ProjetSysteme.Kernel.Maillons

open Library.Ring (Links)

universe u

-- `queue_entry` goes from a link to the element around it: an element is its link's address
variable {L : Type u} [DecidableEq L]

def ecrirePrev (m : Links L) (a : L) (v : Option L) : Links L :=
  { m with prev := Function.update m.prev a v }

def ecrireNext (m : Links L) (a : L) (v : Option L) : Links L :=
  { m with next := Function.update m.next a v }

def suivre : Option L → Except Faute L
  | none => .error .maillonNul
  | some a => .ok a

def initListHead (m : Links L) (head : L) : Links L :=
  ecrirePrev (ecrireNext m head (some head)) head (some head)

def initLink (m : Links L) (a : L) : Links L := ecrirePrev (ecrireNext m a none) a none

/-- The search of `queue_add`, for at most `tours` turns. -/
def avancer (m : Links L) (prio : L → Int) (head elem : L) : Nat → L → Except Faute L
  | 0, _ => .error .boucle
  | tours + 1, cur => do
    let cur ← suivre (m.next cur)
    if cur ≠ head ∧ prio cur < prio elem then avancer m prio head elem tours cur else .ok cur

/-- `queue_add`, whose search makes at most `tours` turns. -/
def queueAdd (m : Links L) (prio : L → Int) (tours : Nat) (elem head : L) : Except Faute (Links L) :=
  if m.prev elem = none ∧ m.next elem = none then do
    let cur ← avancer m prio head elem tours head
    let m := ecrireNext m elem (some cur)
    let m := ecrirePrev m elem (m.prev cur)
    let avant ← suivre (m.prev cur)
    let m := ecrireNext m avant (some elem)
    .ok (ecrirePrev m cur (some elem))
  else .error .assertionMaillon

def queueEmpty (m : Links L) (head : L) : Bool := m.next head = some head

/-- `__queue_out`; none is the null pointer. -/
def queueOut (m : Links L) (head : L) : Except Faute (Links L × Option L) :=
  if queueEmpty m head then .ok (m, none)
  else do
    let dernier ← suivre (m.prev head)
    let m := ecrirePrev m head (m.prev dernier)
    let avant ← suivre (m.prev head)
    let m := ecrireNext m avant (some head)
    .ok (ecrireNext (ecrirePrev m dernier none) dernier none, some dernier)

def queueDel (m : Links L) (elem : L) : Except Faute (Links L) :=
  if m.prev elem ≠ none ∧ m.next elem ≠ none then do
    let avant ← suivre (m.prev elem)
    let m := ecrireNext m avant (m.next elem)
    let apres ← suivre (m.next elem)
    let m := ecrirePrev m apres (m.prev elem)
    .ok (ecrirePrev (ecrireNext m elem none) elem none)
  else .error .assertionMaillon

def queueTop (m : Links L) (head : L) : Except Faute (Option L) :=
  if queueEmpty m head then .ok none else (suivre (m.prev head)).map some

def queueBottom (m : Links L) (head : L) : Except Faute (Option L) :=
  if queueEmpty m head then .ok none else (suivre (m.next head)).map some

/-- The elements met from `a` on along `lien`, up to the head. -/
def parcourir (lien : L → Option L) (head : L) : Nat → L → Except Faute (List L)
  | 0, _ => .error .boucle
  | tours + 1, a => do
    let b ← suivre (lien a)
    if b = head then .ok []
    else do
      let reste ← parcourir lien head tours b
      .ok (b :: reste)

/-- The elements that the loop `queue_for_each` runs over. -/
def queueForEach (m : Links L) (tours : Nat) (head : L) : Except Faute (List L) :=
  parcourir m.next head tours head

def queueForEachPrev (m : Links L) (tours : Nat) (head : L) : Except Faute (List L) :=
  parcourir m.prev head tours head

/-- A use of the macros; `prio` is the field read at the time of the insertion. -/
inductive Usage (L : Type u)
  | add (prio : L → Int) (elem head : L)
  | del (elem : L)
  | out (head : L)
  | top (head : L)
  | bottom (head : L)

def appliquer (tours : Nat) (m : Links L) : Usage L → Except Faute (Links L × Option L)
  | .add prio elem head => (queueAdd m prio tours elem head).map fun m => (m, none)
  | .del elem => (queueDel m elem).map fun m => (m, none)
  | .out head => queueOut m head
  | .top head => (queueTop m head).map fun r => (m, r)
  | .bottom head => (queueBottom m head).map fun r => (m, r)

def derouler (tours : Nat) : Links L → List (Usage L) → Except Faute (Links L × List (Option L))
  | m, [] => .ok (m, [])
  | m, op :: reste => do
    let (m, r) ← appliquer tours m op
    let (m, rs) ← derouler tours m reste
    .ok (m, r :: rs)

end ProjetSysteme.Kernel.Maillons
