/- Library/Channel
   digest: Bounded channels on which callers block, are woken and retry, as a labelled step relation. -/

import Mathlib.Data.Finset.Basic
import Mathlib.Data.Int.Order.Basic
import Mathlib.Tactic.Common

set_option autoImplicit false
set_option relaxedAutoImplicit false

namespace ProjetSysteme.Library.Channel

universe u v w

/-- Where a caller stands.  A woken caller tests its channel again when it runs. -/
inductive Phase (Q : Type v) (M : Type w)
  | idle
  | blockedReceive (q : Q)
  | blockedSend (q : Q) (m : M)
  | wokenReceive (q : Q)
  | wokenSend (q : Q) (m : M)
  deriving DecidableEq

inductive Event (P : Type u) (Q : Type v) (M : Type w)
  | called (p : P)
  | created (q : Q)
  | deleted (q : Q)
  | sent (p : P) (q : Q) (m : M)
  | received (p : P) (q : Q) (m : M)
  | discarded (q : Q) (ms : List M)

structure Chan (P : Type u) (M : Type w) where
  isOpen : Bool
  size : ℤ
  stored : List M
  receivers : Finset P
  senders : Finset P

@[ext] structure State (P : Type u) (Q : Type v) (M : Type w) where
  chan : Q → Chan P M
  phase : P → Phase Q M
  /-- set for the callers that a reset wakes -/
  flag : P → Bool
  history : List (Event P Q M)

inductive Action (P : Type u) (Q : Type v) (M : Type w)
  | tick
  | leave (p : P)
  | call (p : P)
  | create (q : Q)
  | blockReceive (p : P) (q : Q)
  | blockSend (p : P) (q : Q) (m : M)
  | receive (p : P) (q : Q) (m : M)
  | send (p : P) (q : Q) (m : M)
  | refuse (p : P)
  | giveUp (p : P) (q : Q)
  | reset (q : Q)
  | delete (q : Q)

variable {P : Type u} {Q : Type v} {M : Type w}

def Phase.wake : Phase Q M → Phase Q M
  | .blockedReceive q => .wokenReceive q
  | .blockedSend q m => .wokenSend q m
  | phase => phase

def Phase.Woken : Phase Q M → Prop
  | .wokenReceive _ | .wokenSend .. => True
  | _ => False

namespace State

/-- The caller `p` has just called an operation on the open channel `q`. -/
def Fresh (s : State P Q M) (p : P) (q : Q) : Prop :=
  s.phase p = .idle ∧ (s.chan q).isOpen = true ∧ s.history.head? = some (.called p)

def Receiving (s : State P Q M) (p : P) (q : Q) : Prop :=
  s.phase p = .wokenReceive q ∨ s.Fresh p q

def Sending (s : State P Q M) (p : P) (q : Q) (m : M) : Prop :=
  s.phase p = .wokenSend q m ∨ s.Fresh p q

/-- The waiting lists hold callers blocked on them, and no channel overflows. -/
structure Wf (s : State P Q M) : Prop where
  receivers : ∀ q, ∀ p ∈ (s.chan q).receivers, s.phase p = .blockedReceive q
  senders : ∀ q, ∀ p ∈ (s.chan q).senders, ∃ m, s.phase p = .blockedSend q m
  bound : ∀ q, ((s.chan q).stored.length : ℤ) ≤ (s.chan q).size
  closed : ∀ q, (s.chan q).isOpen = false → (s.chan q).size = 0

theorem Wf.stored_of_closed {s : State P Q M} (wf : s.Wf) {q : Q}
    (closed : (s.chan q).isOpen = false) : (s.chan q).stored = [] := by
  have bound := wf.bound q
  rw [wf.closed q closed] at bound
  exact List.eq_nil_of_length_eq_zero (by omega)

/-- A step that changes no channel but `q` keeps the waiting lists exact if it does
so for their new members and for the callers whose phase it changes. -/
theorem Wf.of_chan {s s' : State P Q M} (wf : s.Wf) {q : Q}
    (others : ∀ q', q' ≠ q → s'.chan q' = s.chan q')
    (receivers : ∀ q', ∀ p ∈ (s'.chan q').receivers,
      p ∈ (s.chan q').receivers ∧ s'.phase p = s.phase p ∨ s'.phase p = .blockedReceive q')
    (senders : ∀ q', ∀ p ∈ (s'.chan q').senders,
      p ∈ (s.chan q').senders ∧ s'.phase p = s.phase p ∨ ∃ m, s'.phase p = .blockedSend q' m)
    (bound : ((s'.chan q).stored.length : ℤ) ≤ (s'.chan q).size)
    (closed : (s'.chan q).isOpen = false → (s'.chan q).size = 0) : s'.Wf where
  receivers q' p mem := by
    rcases receivers q' p mem with ⟨old, same⟩ | phase
    · rw [same]
      exact wf.receivers q' p old
    · exact phase
  senders q' p mem := by
    rcases senders q' p mem with ⟨old, same⟩ | phase
    · rw [same]
      exact wf.senders q' p old
    · exact phase
  bound q' := by
    by_cases same : q' = q
    · rw [same]
      exact bound
    · rw [others q' same]
      exact wf.bound q'
  closed q' := by
    by_cases same : q' = q
    · rw [same]
      exact closed
    · rw [others q' same]
      exact wf.closed q'

theorem Wf.away {s : State P Q M} (wf : s.Wf) {p : P} (receive : ∀ q, s.phase p ≠ .blockedReceive q)
    (send : ∀ q m, s.phase p ≠ .blockedSend q m) (q : Q) :
    p ∉ (s.chan q).receivers ∧ p ∉ (s.chan q).senders :=
  ⟨fun mem => receive q (wf.receivers q p mem),
    fun mem => (wf.senders q p mem).elim fun m phase => send q m phase⟩

theorem Receiving.away {s : State P Q M} (wf : s.Wf) {p : P} {q : Q} (turn : s.Receiving p q) :
    ∀ q', p ∉ (s.chan q').receivers ∧ p ∉ (s.chan q').senders := by
  rcases turn with woken | ⟨idle, _⟩
  · exact wf.away (by simp [woken]) (by simp [woken])
  · exact wf.away (by simp [idle]) (by simp [idle])

theorem Sending.away {s : State P Q M} (wf : s.Wf) {p : P} {q : Q} {m : M}
    (turn : s.Sending p q m) : ∀ q', p ∉ (s.chan q').receivers ∧ p ∉ (s.chan q').senders := by
  rcases turn with woken | ⟨idle, _⟩
  · exact wf.away (by simp [woken]) (by simp [woken])
  · exact wf.away (by simp [idle]) (by simp [idle])

theorem Wf.only_receiver {s : State P Q M} (wf : s.Wf) {p : P} {q : Q}
    (mem : p ∈ (s.chan q).receivers) (q' : Q) :
    (p ∈ (s.chan q').receivers → q' = q) ∧ p ∉ (s.chan q').senders := by
  have phase := wf.receivers q p mem
  refine ⟨fun mem' => ?_, fun mem' => ?_⟩
  · have phase' := wf.receivers q' p mem'
    rw [phase] at phase'
    exact (Phase.blockedReceive.inj phase').symm
  · obtain ⟨m, phase'⟩ := wf.senders q' p mem'
    rw [phase] at phase'
    cases phase'

theorem Wf.only_sender {s : State P Q M} (wf : s.Wf) {p : P} {q : Q}
    (mem : p ∈ (s.chan q).senders) (q' : Q) :
    p ∉ (s.chan q').receivers ∧ (p ∈ (s.chan q').senders → q' = q) := by
  obtain ⟨m, phase⟩ := wf.senders q p mem
  refine ⟨fun mem' => ?_, fun mem' => ?_⟩
  · rw [wf.receivers q' p mem'] at phase
    cases phase
  · obtain ⟨m', phase'⟩ := wf.senders q' p mem'
    rw [phase] at phase'
    exact (Phase.blockedSend.inj phase').1.symm

def note (s : State P Q M) (event : Event P Q M) : State P Q M :=
  { s with history := event :: s.history }

section Note

variable (s : State P Q M) (e : Event P Q M)

@[simp, grind =] theorem note_chan (q' : Q) : (s.note e).chan q' = s.chan q' := rfl
@[simp, grind =] theorem note_phase (p' : P) : (s.note e).phase p' = s.phase p' := rfl
@[simp, grind =] theorem note_flag (p' : P) : (s.note e).flag p' = s.flag p' := rfl
@[simp, grind =] theorem note_history : (s.note e).history = e :: s.history := rfl

end Note

section Chan

variable [DecidableEq Q]

def setChan (s : State P Q M) (q : Q) (c : Chan P M) : State P Q M :=
  { s with chan := Function.update s.chan q c }

variable (s : State P Q M) (q : Q) (c : Chan P M)

@[simp] theorem setChan_self : s.setChan q (s.chan q) = s :=
  State.ext (Function.update_eq_self q _) rfl rfl rfl

@[simp, grind =] theorem setChan_phase (p' : P) : (s.setChan q c).phase p' = s.phase p' := rfl
@[simp, grind =] theorem setChan_flag (p' : P) : (s.setChan q c).flag p' = s.flag p' := rfl
@[simp, grind =] theorem setChan_history : (s.setChan q c).history = s.history := rfl

@[grind =] theorem setChan_chan (q' : Q) : (s.setChan q c).chan q' = if q' = q then c else s.chan q' :=
  Function.update_apply ..

end Chan

section Caller

variable [DecidableEq P]

def setPhase (s : State P Q M) (p : P) (phase : Phase Q M) : State P Q M :=
  { s with phase := Function.update s.phase p phase }

def setFlag (s : State P Q M) (p : P) (flag : Bool) : State P Q M :=
  { s with flag := Function.update s.flag p flag }

variable (s : State P Q M) (p : P) (f : Phase Q M) (b : Bool)

@[simp] theorem setPhase_setPhase (g : Phase Q M) :
    (s.setPhase p f).setPhase p g = s.setPhase p g :=
  State.ext rfl (Function.update_idem ..) rfl rfl

theorem setPhase_comm {p' : P} (other : p ≠ p') (g : Phase Q M) :
    (s.setPhase p f).setPhase p' g = (s.setPhase p' g).setPhase p f :=
  State.ext rfl (Function.update_comm other ..) rfl rfl

@[simp] theorem setPhase_self : s.setPhase p (s.phase p) = s :=
  State.ext rfl (Function.update_eq_self p _) rfl rfl

@[simp] theorem setFlag_self : s.setFlag p (s.flag p) = s :=
  State.ext rfl rfl (Function.update_eq_self p _) rfl

@[simp, grind =] theorem setPhase_chan (q' : Q) : (s.setPhase p f).chan q' = s.chan q' := rfl
@[simp, grind =] theorem setPhase_flag (p' : P) : (s.setPhase p f).flag p' = s.flag p' := rfl
@[simp, grind =] theorem setPhase_history : (s.setPhase p f).history = s.history := rfl
@[simp, grind =] theorem setFlag_chan (q' : Q) : (s.setFlag p b).chan q' = s.chan q' := rfl
@[simp, grind =] theorem setFlag_phase (p' : P) : (s.setFlag p b).phase p' = s.phase p' := rfl
@[simp, grind =] theorem setFlag_history : (s.setFlag p b).history = s.history := rfl

@[grind =] theorem setPhase_phase (p' : P) : (s.setPhase p f).phase p' = if p' = p then f else s.phase p' :=
  Function.update_apply ..

@[grind =] theorem setFlag_flag (p' : P) : (s.setFlag p b).flag p' = if p' = p then b else s.flag p' :=
  Function.update_apply ..

theorem Wf.setPhase {s : State P Q M} (wf : s.Wf) {p : P} (phase : Phase Q M)
    (away : ∀ q, p ∉ (s.chan q).receivers ∧ p ∉ (s.chan q).senders) : (s.setPhase p phase).Wf := by
  have receivers := wf.receivers
  have senders := wf.senders
  refine ⟨?_, ?_, wf.bound, wf.closed⟩ <;> grind

def waiting (s : State P Q M) (q : Q) : Finset P := (s.chan q).receivers ∪ (s.chan q).senders

@[simp, grind =] theorem mem_waiting (s : State P Q M) (q : Q) (p : P) :
    p ∈ s.waiting q ↔ p ∈ (s.chan q).receivers ∨ p ∈ (s.chan q).senders := Finset.mem_union

theorem Wf.waiting_only {s : State P Q M} (wf : s.Wf) {p : P} {q q' : Q} (other : q' ≠ q)
    (mem : p ∈ s.waiting q) : p ∉ (s.chan q').receivers ∧ p ∉ (s.chan q').senders := by
  rcases (mem_waiting ..).mp mem with mem | mem
  · have only := wf.only_receiver mem q'
    exact ⟨fun mem' => other (only.1 mem'), only.2⟩
  · have only := wf.only_sender mem q'
    exact ⟨only.1, fun mem' => other (only.2 mem')⟩

end Caller

variable [DecidableEq P] [DecidableEq Q]

/-- Every caller on a waiting list of `q` is woken with its flag set. -/
def release (s : State P Q M) (q : Q) : State P Q M :=
  { s with
    chan := Function.update s.chan q { s.chan q with stored := [], receivers := ∅, senders := ∅ }
    phase := fun p => if p ∈ s.waiting q then (s.phase p).wake else s.phase p
    flag := fun p => if p ∈ s.waiting q then true else s.flag p
    history := .discarded q (s.chan q).stored :: s.history }

@[grind =] theorem release_chan (s : State P Q M) (q q' : Q) : (s.release q).chan q' =
    if q' = q then { s.chan q with stored := [], receivers := ∅, senders := ∅ } else s.chan q' :=
  Function.update_apply ..

@[grind =] theorem release_phase (s : State P Q M) (q : Q) (p : P) : (s.release q).phase p =
    if p ∈ s.waiting q then (s.phase p).wake else s.phase p := rfl

@[grind =] theorem release_flag (s : State P Q M) (q : Q) (p : P) : (s.release q).flag p =
    if p ∈ s.waiting q then true else s.flag p := rfl

@[simp, grind =] theorem release_history (s : State P Q M) (q : Q) :
    (s.release q).history = .discarded q (s.chan q).stored :: s.history := rfl

end State

open State

variable [DecidableEq P] [DecidableEq Q]

/-- The steps of the callers.  A send wakes one receiver, if there is one, when it
stores the first message; a receive wakes one sender when it makes room in a full
channel. -/
inductive Step : State P Q M → Action P Q M → State P Q M → Prop
  | tick {s : State P Q M} (flag : P → Bool)
      (cleared : ∀ p, flag p = s.flag p ∨ s.phase p = .idle ∧ flag p = false) :
      Step s .tick { s with flag := flag }
  | leave {s : State P Q M} {p : P}
      (away : ∀ q, p ∉ (s.chan q).receivers ∧ p ∉ (s.chan q).senders) :
      Step s (.leave p) (s.setPhase p .idle)
  | call {s : State P Q M} {p : P} (idle : s.phase p = .idle) : Step s (.call p) (s.note (.called p))
  | create {s : State P Q M} {q : Q} (size : ℤ) (closed : (s.chan q).isOpen = false)
      (positive : 0 < size) :
      Step s (.create q) ((s.setChan q
        { isOpen := true, size := size, stored := (s.chan q).stored
          receivers := ∅, senders := ∅ }).note (.created q))
  | blockReceive {s : State P Q M} {p : P} {q : Q} (turn : s.Receiving p q)
      (empty : (s.chan q).stored = []) (clear : s.flag p = false) :
      Step s (.blockReceive p q) ((s.setChan q
        { s.chan q with receivers := insert p (s.chan q).receivers }).setPhase p (.blockedReceive q))
  | blockSend {s : State P Q M} {p : P} {q : Q} {m : M} (turn : s.Fresh p q)
      (full : ((s.chan q).stored.length : ℤ) = (s.chan q).size) (clear : s.flag p = false) :
      Step s (.blockSend p q m) ((s.setChan q
        { s.chan q with senders := insert p (s.chan q).senders }).setPhase p (.blockedSend q m))
  | receive {s : State P Q M} {p : P} {q : Q} {m : M} {rest : List M} (turn : s.Receiving p q)
      (clear : s.flag p = false) (head : (s.chan q).stored = m :: rest)
      (alone : ((s.chan q).stored.length : ℤ) = (s.chan q).size → (s.chan q).senders = ∅) :
      Step s (.receive p q m) (((s.setChan q { s.chan q with stored := rest }).setPhase p .idle).note
        (.received p q m))
  | receiveWake {s : State P Q M} {p o : P} {q : Q} {m : M} {rest : List M}
      (turn : s.Receiving p q) (clear : s.flag p = false) (head : (s.chan q).stored = m :: rest)
      (full : ((s.chan q).stored.length : ℤ) = (s.chan q).size) (waiting : o ∈ (s.chan q).senders) :
      Step s (.receive p q m) ((((s.setChan q
        { s.chan q with stored := rest, senders := (s.chan q).senders.erase o }).setPhase p
          .idle).setPhase o (s.phase o).wake).note (.received p q m))
  | send {s : State P Q M} {p : P} {q : Q} {m : M} (turn : s.Sending p q m)
      (clear : s.flag p = false) (room : ((s.chan q).stored.length : ℤ) ≠ (s.chan q).size)
      (alone : (s.chan q).stored = [] → (s.chan q).receivers = ∅) :
      Step s (.send p q m) (((s.setChan q
        { s.chan q with stored := (s.chan q).stored ++ [m] }).setPhase p .idle).note (.sent p q m))
  | sendWake {s : State P Q M} {p o : P} {q : Q} {m : M} (turn : s.Sending p q m)
      (clear : s.flag p = false) (room : ((s.chan q).stored.length : ℤ) ≠ (s.chan q).size)
      (empty : (s.chan q).stored = []) (waiting : o ∈ (s.chan q).receivers) :
      Step s (.send p q m) ((((s.setChan q
        { s.chan q with
          stored := (s.chan q).stored ++ [m]
          receivers := (s.chan q).receivers.erase o }).setPhase p .idle).setPhase o
            (s.phase o).wake).note (.sent p q m))
  | refuse {s : State P Q M} {p : P} (waiting : (s.phase p).Woken ∨ s.phase p = .idle)
      (flagged : s.flag p = true) : Step s (.refuse p) ((s.setPhase p .idle).setFlag p false)
  | giveUp {s : State P Q M} {p : P} {q : Q} {m : M} (woken : s.phase p = .wokenSend q m)
      (full : ((s.chan q).stored.length : ℤ) = (s.chan q).size) :
      Step s (.giveUp p q) (s.setPhase p .idle)
  | reset {s : State P Q M} {q : Q} (opened : (s.chan q).isOpen = true) :
      Step s (.reset q) (s.release q)
  | delete {s : State P Q M} {q : Q} (opened : (s.chan q).isOpen = true) :
      Step s (.delete q) (((s.release q).setChan q
        { isOpen := false, size := 0, stored := [], receivers := ∅, senders := ∅ }).note (.deleted q))

theorem State.Wf.release {s : State P Q M} (wf : s.Wf) (q : Q) : (s.release q).Wf := by
  have bound := wf.bound q
  have closed := wf.closed q
  have only : ∀ q', q' ≠ q → ∀ p ∈ s.waiting q,
      p ∉ (s.chan q').receivers ∧ p ∉ (s.chan q').senders :=
    fun q' other p mem => wf.waiting_only other mem
  refine wf.of_chan (q := q) ?_ ?_ ?_ ?_ ?_ <;> grind

theorem Step.wf {s s' : State P Q M} {a : Action P Q M} (step : Step s a s') (wf : s.Wf) : s'.Wf := by
  cases step with
  | tick flag cleared => exact ⟨wf.receivers, wf.senders, wf.bound, wf.closed⟩
  | call idle => exact ⟨wf.receivers, wf.senders, wf.bound, wf.closed⟩
  | leave away => exact wf.setPhase .idle away
  | @create q size closed positive =>
      have stored := wf.stored_of_closed closed
      refine wf.of_chan (q := q) ?_ ?_ ?_ ?_ ?_ <;> grind
  | @blockReceive p q turn empty clear =>
      have away := turn.away wf
      have bound := wf.bound q
      have closed := wf.closed q
      refine wf.of_chan (q := q) ?_ ?_ ?_ ?_ ?_ <;> grind
  | @blockSend p q m turn full clear =>
      have away := Receiving.away wf (.inr turn)
      have bound := wf.bound q
      have closed := wf.closed q
      refine wf.of_chan (q := q) ?_ ?_ ?_ ?_ ?_ <;> grind
  | @receive p q m rest turn clear head alone =>
      have away := turn.away wf
      have bound := wf.bound q
      have closed := wf.closed q
      refine wf.of_chan (q := q) ?_ ?_ ?_ ?_ ?_ <;> grind
  | @receiveWake p o q m rest turn clear head full waiting =>
      have away := turn.away wf
      have only := wf.only_sender waiting
      have bound := wf.bound q
      have closed := wf.closed q
      refine wf.of_chan (q := q) ?_ ?_ ?_ ?_ ?_ <;> grind
  | @send p q m turn clear room alone =>
      have away := turn.away wf
      have bound := lt_of_le_of_ne (wf.bound q) room
      have closed := wf.closed q
      refine wf.of_chan (q := q) ?_ ?_ ?_ (by simp [setChan_chan]; omega) ?_ <;> grind
  | @sendWake p o q m turn clear room empty waiting =>
      have away := turn.away wf
      have only := wf.only_receiver waiting
      have bound := lt_of_le_of_ne (wf.bound q) room
      have closed := wf.closed q
      refine wf.of_chan (q := q) ?_ ?_ ?_ (by simp [setChan_chan]; omega) ?_ <;> grind
  | @refuse p waiting flagged =>
      have away : ∀ q, p ∉ (s.chan q).receivers ∧ p ∉ (s.chan q).senders := by
        rcases waiting with woken | idle
        · refine wf.away (fun q phase => ?_) fun q m phase => ?_ <;>
          · rw [phase] at woken
            exact woken
        · exact wf.away (by simp [idle]) (by simp [idle])
      have wf' := wf.setPhase .idle away
      exact ⟨wf'.receivers, wf'.senders, wf'.bound, wf'.closed⟩
  | giveUp woken full => exact wf.setPhase .idle (Sending.away wf (.inl woken))
  | @reset q opened => exact wf.release q
  | @delete q opened =>
      refine (wf.release q).of_chan (q := q) ?_ ?_ ?_ ?_ ?_ <;> grind

end ProjetSysteme.Library.Channel
