/- Kernel/MessageList
   source: kernel/file.c
   digest: The chain of messages of a queue, block by block. -/

import ProjetSysteme.Kernel.Memory
import ProjetSysteme.Library.Blocks

set_option autoImplicit false
set_option relaxedAutoImplicit false

namespace ProjetSysteme.Kernel

open Library.Blocks (Cell Heap Pointer)

abbrev MessageInterne := Cell Mot Int

abbrev Message := Option (Pointer Mot)

abbrev TasMessages := Heap Mot MessageInterne

structure FileInterne where
  debut : Message
  fin : Message

inductive FauteMessage
  /-- NULL is followed -/
  | pointeurNul
  /-- a block that is not allocated is read, written or freed -/
  | blocLibere
  /-- the loop of `reset_file` has not ended in the given number of turns -/
  | boucle
  deriving DecidableEq, Repr

def lireMessage (t : TasMessages) (p : Message) : Except FauteMessage (Pointer Mot × MessageInterne) :=
  match p with
  | none => .error .pointeurNul
  | some p =>
    match t.load p with
    | none => .error .blocLibere
    | some m => .ok (p, m)

def ecrireMessage (t : TasMessages) (p : Message) (f : MessageInterne → MessageInterne) :
    Except FauteMessage TasMessages := do
  let (p, m) ← lireMessage t p
  return t.store p (f m)

/-- `mem_free`, which checks the marks around the block. -/
def libererMessage (t : TasMessages) (p : Message) : Except FauteMessage TasMessages := do
  let (p, _) ← lireMessage t p
  return t.free p

/-- `adresse` is the block `mem_alloc` gives, filled with zeros. -/
def addMessage (t : TasMessages) (adresse : Mot) (val : Int) (l : FileInterne) :
    Except FauteMessage (TasMessages × FileInterne) := do
  let p : Message := some (t.pointer adresse)
  let t := t.alloc adresse { value := 0, next := none }
  let t ← ecrireMessage t p fun m => { m with value := val }
  if l.debut = none then
    return (t, { debut := p, fin := p })
  else
    let t ← ecrireMessage t l.fin fun m => { m with next := p }
    let t ← ecrireMessage t p fun m => { m with next := none }
    return (t, { l with fin := p })

def readMessage (t : TasMessages) (l : FileInterne) : Except FauteMessage (TasMessages × FileInterne × Int) := do
  let p := l.debut
  let (_, tete) ← lireMessage t l.debut
  let l := { l with debut := tete.next }
  let (_, m) ← lireMessage t p
  let t ← libererMessage t p
  return (t, l, m.value)

def memeMessage (p q : Message) : Bool := p.map Pointer.address = q.map Pointer.address

/-- The loop of `reset_file` from `p`; it gives back the last value of `p`. -/
def resetBoucle : Nat → TasMessages → Message → Message → Except FauteMessage (TasMessages × Message)
  | 0, _, _, _ => .error .boucle
  | tours + 1, t, fin, p =>
    if memeMessage p fin then .ok (t, p)
    else do
      let (_, m) ← lireMessage t p
      if m.next = none then .ok (t, p)
      else
        let q := m.next
        let t ← libererMessage t p
        resetBoucle tours t fin q

def resetFile (tours : Nat) (t : TasMessages) (l : FileInterne) : Except FauteMessage (TasMessages × FileInterne) := do
  let p := l.debut
  if l.debut = none then
    return (t, { debut := none, fin := none })
  else
    let (t, p) ← resetBoucle tours t l.fin p
    let t ← libererMessage t p
    return (t, { debut := none, fin := none })

theorem lireMessage_some {t : TasMessages} {p : Pointer Mot} {m : MessageInterne} (load : t.load p = some m) :
    lireMessage t (some p) = .ok (p, m) := by
  unfold lireMessage
  simp only [load]

theorem ecrireMessage_some {t : TasMessages} {p : Pointer Mot} {m : MessageInterne} (load : t.load p = some m)
    (f : MessageInterne → MessageInterne) : ecrireMessage t (some p) f = .ok (t.store p (f m)) := by
  unfold ecrireMessage
  rw [lireMessage_some load]
  rfl

theorem libererMessage_some {t : TasMessages} {p : Pointer Mot} {m : MessageInterne} (load : t.load p = some m) :
    libererMessage t (some p) = .ok (t.free p) := by
  unfold libererMessage
  rw [lireMessage_some load]
  rfl

end ProjetSysteme.Kernel
