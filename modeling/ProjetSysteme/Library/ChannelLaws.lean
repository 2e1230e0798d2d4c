/- Library/ChannelLaws
   digest: Order of delivery, wake-ups, deletions and flags in the runs of Channel. -/

import ProjetSysteme.Library.Channel
import Mathlib.Algebra.BigOperators.Group.Finset.Piecewise

set_option autoImplicit false
set_option relaxedAutoImplicit false

namespace ProjetSysteme.Library.Channel

universe u v w

variable {P : Type u} {Q : Type v} {M : Type w}

open State

section Order

variable [DecidableEq Q]

def sentSince (q : Q) : List (Event P Q M) → List M
  | [] => []
  | .created q' :: rest => if q' = q then [] else sentSince q rest
  | .sent _ q' m :: rest => if q' = q then sentSince q rest ++ [m] else sentSince q rest
  | _ :: rest => sentSince q rest

/-- The messages taken out of `q` since it was created, in order; the flag tells
those that were received from those that were discarded. -/
def takenSince (q : Q) : List (Event P Q M) → List (Bool × M)
  | [] => []
  | .created q' :: rest => if q' = q then [] else takenSince q rest
  | .received _ q' m :: rest => if q' = q then takenSince q rest ++ [(true, m)] else takenSince q rest
  | .discarded q' ms :: rest =>
    if q' = q then takenSince q rest ++ ms.map (false, ·) else takenSince q rest
  | _ :: rest => takenSince q rest

/-- What was sent is what was taken out, followed by what is stored. -/
def Fifo (s : State P Q M) : Prop :=
  ∀ q, sentSince q s.history = (takenSince q s.history).map Prod.snd ++ (s.chan q).stored

def Event.exchanged : Event P Q M → Bool
  | .sent .. | .received .. => true
  | _ => false

variable [DecidableEq P]

theorem Step.exchanged {s s' : State P Q M} {a : Action P Q M} (step : Step s a s')
    (send : ∀ p q m, a ≠ .send p q m) (receive : ∀ p q m, a ≠ .receive p q m) :
    s'.history.countP Event.exchanged = s.history.countP Event.exchanged := by
  cases step with
  | send | sendWake => exact absurd rfl (send _ _ _)
  | receive | receiveWake => exact absurd rfl (receive _ _ _)
  | _ => simp [Event.exchanged]

theorem Fifo.release {s : State P Q M} (fifo : Fifo s) (q : Q) : Fifo (s.release q) := by
  intro q'
  have law := fifo q'
  rw [release_history, release_chan]
  simp only [sentSince, takenSince]
  by_cases same : q' = q
  · subst same
    simp [law, Function.comp_def]
  · simp [same, Ne.symm same, law]

theorem Step.fifo {s s' : State P Q M} {a : Action P Q M} (step : Step s a s') (wf : s.Wf)
    (fifo : Fifo s) : Fifo s' := by
  intro q'
  have law := fifo q'
  cases step with
  | @create q size closed positive =>
      have stored := wf.stored_of_closed closed
      grind [sentSince, takenSince]
  | @reset q opened => exact fifo.release q q'
  | @delete q opened =>
      have law := fifo.release q q'
      grind [sentSince, takenSince]
  | _ => grind [sentSince, takenSince]

end Order

section WakeUps

def Phase.ReceivesOn (q : Q) : Phase Q M → Prop
  | .wokenReceive q' => q' = q
  | _ => False

def Phase.SendsOn (q : Q) : Phase Q M → Prop
  | .wokenSend q' _ => q' = q
  | _ => False

variable [DecidableEq Q]

instance (q : Q) : DecidablePred (Phase.ReceivesOn (M := M) q)
  | .wokenReceive q' => inferInstanceAs (Decidable (q' = q))
  | .idle | .blockedReceive _ | .blockedSend .. | .wokenSend .. => isFalse id

instance (q : Q) : DecidablePred (Phase.SendsOn (M := M) q)
  | .wokenSend q' _ => inferInstanceAs (Decidable (q' = q))
  | .idle | .blockedReceive _ | .blockedSend .. | .wokenReceive _ => isFalse id

variable [Fintype P]

def wokenReceivers (s : State P Q M) (q : Q) : ℕ :=
  (Finset.univ.filter fun p => (s.phase p).ReceivesOn q).card

def wokenSenders (s : State P Q M) (q : Q) : ℕ :=
  (Finset.univ.filter fun p => (s.phase p).SendsOn q).card

variable [DecidableEq P]

private theorem card_filter_update {α : Type v} (f : P → α) (p : P) (a : α) (c : α → Prop)
    [DecidablePred c] :
    (Finset.univ.filter fun p' => c (Function.update f p a p')).card + (if c (f p) then 1 else 0) =
      (Finset.univ.filter fun p' => c (f p')).card + (if c a then 1 else 0) := by
  have rest : ∑ p' ∈ Finset.univ.erase p, (if c (Function.update f p a p') then 1 else 0) =
      ∑ p' ∈ Finset.univ.erase p, if c (f p') then 1 else 0 := by
    refine Finset.sum_congr rfl fun p' mem => ?_
    rw [Function.update_of_ne (Finset.ne_of_mem_erase mem)]
  rw [Finset.card_filter, Finset.card_filter,
    ← Finset.add_sum_erase _ (fun p' => if c (Function.update f p a p') then 1 else 0)
      (Finset.mem_univ p),
    ← Finset.add_sum_erase _ (fun p' => if c (f p') then 1 else 0) (Finset.mem_univ p), rest,
    Function.update_self]
  omega

section Counts

variable (s : State P Q M) (q q' : Q) (c : Chan P M) (e : Event P Q M)

omit [DecidableEq P]

@[simp, grind =] theorem setChan_wokenReceivers :
    wokenReceivers (s.setChan q c) q' = wokenReceivers s q' := rfl

@[simp, grind =] theorem setChan_wokenSenders : wokenSenders (s.setChan q c) q' = wokenSenders s q' := rfl

@[simp, grind =] theorem note_wokenReceivers : wokenReceivers (s.note e) q = wokenReceivers s q := rfl

@[simp, grind =] theorem note_wokenSenders : wokenSenders (s.note e) q = wokenSenders s q := rfl

end Counts

variable (s : State P Q M) (p : P) (q : Q) (f : Phase Q M)

@[grind =] theorem setPhase_wokenReceivers : (wokenReceivers (s.setPhase p f) q : ℤ) =
    wokenReceivers s q + (if f.ReceivesOn q then 1 else 0) -
      (if (s.phase p).ReceivesOn q then 1 else 0) := by
  have count := card_filter_update s.phase p f (Phase.ReceivesOn q)
  change wokenReceivers (s.setPhase p f) q + _ = wokenReceivers s q + _ at count
  split_ifs at count ⊢ <;> omega

@[grind =] theorem setPhase_wokenSenders : (wokenSenders (s.setPhase p f) q : ℤ) =
    wokenSenders s q + (if f.SendsOn q then 1 else 0) -
      (if (s.phase p).SendsOn q then 1 else 0) := by
  have count := card_filter_update s.phase p f (Phase.SendsOn q)
  change wokenSenders (s.setPhase p f) q + _ = wokenSenders s q + _ at count
  split_ifs at count ⊢ <;> omega

structure Served (s : State P Q M) : Prop where
  clear : ∀ p, s.flag p = false
  receivers : ∀ q, (s.chan q).receivers.Nonempty →
    ((s.chan q).stored.length : ℤ) ≤ wokenReceivers s q
  senders : ∀ q, (s.chan q).senders.Nonempty →
    (s.chan q).size - (s.chan q).stored.length ≤ wokenSenders s q

/-- The steps after which enough callers stay woken: while receivers wait, a send to
a channel that is not empty finds more receivers woken than messages stored, and
dually for a receive. -/
def Careful (s : State P Q M) : Action P Q M → Prop
  | .send _ q _ => (s.chan q).stored ≠ [] → (s.chan q).receivers.Nonempty →
    ((s.chan q).stored.length : ℤ) < wokenReceivers s q
  | .receive _ q _ => ((s.chan q).stored.length : ℤ) ≠ (s.chan q).size →
    (s.chan q).senders.Nonempty →
      (s.chan q).size - (s.chan q).stored.length < wokenSenders s q
  | .leave _ | .reset _ | .delete _ => False
  | _ => True

omit [Fintype P] in
theorem Step.room {s s' : State P Q M} {p : P} {q : Q} {m : M} (step : Step s (.send p q m) s') :
    ((s.chan q).stored.length : ℤ) ≠ (s.chan q).size := by
  cases step with
  | send turn clear room alone => exact room
  | sendWake turn clear room empty waiting => exact room

omit [Fintype P] in
theorem Step.head {s s' : State P Q M} {p : P} {q : Q} {m : M} (step : Step s (.receive p q m) s') :
    ∃ rest, (s.chan q).stored = m :: rest := by
  cases step with
  | receive turn clear head alone => exact ⟨_, head⟩
  | receiveWake turn clear head full waiting => exact ⟨_, head⟩

private theorem length_concat (l : List M) (m : M) :
    ((l ++ [m]).length : ℤ) = l.length + 1 := by
  simp

theorem Step.served {s s' : State P Q M} {a : Action P Q M} (step : Step s a s') (wf : s.Wf)
    (careful : Careful s a) (served : Served s) : Served s' := by
  have clear := served.clear
  cases step with
  | @tick flag cleared =>
      refine ⟨fun p => ?_, served.receivers, served.senders⟩
      rcases cleared p with same | ⟨_, lowered⟩
      · exact same.trans (clear p)
      · exact lowered
  | call idle => exact ⟨clear, served.receivers, served.senders⟩
  | leave | reset | delete => exact careful.elim
  | refuse waiting flagged =>
      rw [clear] at flagged
      cases flagged
  | @create q size closed positive =>
      refine ⟨clear, fun q' nonempty => ?_, fun q' nonempty => ?_⟩
      · have old := served.receivers q'
        grind
      · have old := served.senders q'
        grind
  | @blockReceive p q turn empty _ =>
      refine ⟨clear, fun q' nonempty => ?_, fun q' nonempty => ?_⟩
      · have old := served.receivers q'
        rcases turn with woken | ⟨idle, _⟩ <;> grind [Phase.ReceivesOn]
      · have old := served.senders q'
        rcases turn with woken | ⟨idle, _⟩ <;> grind [Phase.SendsOn]
  | @blockSend p q m turn full _ =>
      have idle := turn.1
      refine ⟨clear, fun q' nonempty => ?_, fun q' nonempty => ?_⟩
      · have old := served.receivers q'
        grind [Phase.ReceivesOn]
      · have old := served.senders q'
        grind [Phase.SendsOn]
  | @receive p q m rest turn _ head alone =>
      refine ⟨clear, fun q' nonempty => ?_, fun q' nonempty => ?_⟩
      · have old := served.receivers q'
        rcases turn with woken | ⟨idle, _⟩ <;> grind [Phase.ReceivesOn]
      · have old := served.senders q'
        rcases turn with woken | ⟨idle, _⟩ <;> grind [Phase.SendsOn, Careful]
  | @receiveWake p o q m rest turn _ head full waiting =>
      obtain ⟨m', blocked⟩ := wf.senders q o waiting
      refine ⟨clear, fun q' nonempty => ?_, fun q' nonempty => ?_⟩
      · have old := served.receivers q'
        rcases turn with woken | ⟨idle, _⟩ <;> grind [Phase.ReceivesOn, Phase.wake]
      · have old := served.senders q'
        rcases turn with woken | ⟨idle, _⟩ <;> grind [Phase.SendsOn, Phase.wake]
  | @send p q m turn _ room alone =>
      have more := length_concat (s.chan q).stored m
      refine ⟨clear, fun q' nonempty => ?_, fun q' nonempty => ?_⟩
      · have old := served.receivers q'
        have few : (s.chan q).receivers.Nonempty →
            ((s.chan q).stored.length : ℤ) < wokenReceivers s q := fun waiting =>
          careful (fun empty => waiting.ne_empty (alone empty)) waiting
        have counts : (wokenReceivers (s.setPhase p .idle) q' : ℤ) = wokenReceivers s q' := by
          rcases turn with woken | ⟨idle, _⟩ <;> grind [Phase.ReceivesOn]
        change _ ≤ (wokenReceivers (s.setPhase p .idle) q' : ℤ)
        rw [counts]
        by_cases same : q' = q
        · subst same
          simp only [note_chan, setPhase_chan, setChan_chan, if_true] at nonempty ⊢
          have := few nonempty
          omega
        · simp only [note_chan, setPhase_chan, setChan_chan, if_neg same] at nonempty ⊢
          exact old nonempty
      · have old := served.senders q'
        rcases turn with woken | ⟨idle, _⟩ <;> grind [Phase.SendsOn]
  | @sendWake p o q m turn _ room empty waiting =>
      have blocked := wf.receivers q o waiting
      have more := length_concat (s.chan q).stored m
      refine ⟨clear, fun q' nonempty => ?_, fun q' nonempty => ?_⟩
      · have old := served.receivers q'
        rcases turn with woken | ⟨idle, _⟩ <;> grind [Phase.ReceivesOn, Phase.wake]
      · have old := served.senders q'
        rcases turn with woken | ⟨idle, _⟩ <;> grind [Phase.SendsOn, Phase.wake]
  | @giveUp p q m woken full =>
      refine ⟨clear, fun q' nonempty => ?_, fun q' nonempty => ?_⟩
      · have old := served.receivers q'
        grind [Phase.ReceivesOn]
      · have old := served.senders q'
        grind [Phase.SendsOn]

omit [DecidableEq P] in
/-- Once every woken caller has resumed, receivers wait only on an empty channel and
senders only on a full one. -/
theorem Served.settled {s : State P Q M} (served : Served s) (wf : s.Wf) {q : Q}
    (receivers : wokenReceivers s q = 0) (senders : wokenSenders s q = 0) :
    ((s.chan q).receivers.Nonempty → (s.chan q).stored = []) ∧
      ((s.chan q).senders.Nonempty → ((s.chan q).stored.length : ℤ) = (s.chan q).size) := by
  refine ⟨fun waiting => ?_, fun waiting => ?_⟩
  · have few := served.receivers q waiting
    exact List.eq_nil_of_length_eq_zero (by omega)
  · have few := served.senders q waiting
    have bound := wf.bound q
    omega

end WakeUps

section Moves

def Wakes (s s' : State P Q M) (p : P) (q : Q) : Prop :=
  s.phase p = .blockedReceive q ∧ s'.phase p = .wokenReceive q ∨
    ∃ m, s.phase p = .blockedSend q m ∧ s'.phase p = .wokenSend q m

/-- What a step does to the phase and to the flag of the caller `p`. -/
inductive Move (s : State P Q M) (a : Action P Q M) (s' : State P Q M) (p : P) : Prop
  | stays (phase : s'.phase p = s.phase p)
      (flag : s'.flag p = s.flag p ∨ s.phase p = .idle ∧ s'.flag p = false)
  | goes (act : a = .leave p ∨ ∃ q, a = .giveUp p q) (phase : s'.phase p = .idle)
      (flag : s'.flag p = s.flag p)
  | refuses (act : a = .refuse p) (phase : s'.phase p = .idle) (flag : s'.flag p = false)
  | returns (phase : s'.phase p = .idle) (clear : s.flag p = false) (flag : s'.flag p = false)
  | blocks (act : (∃ q, a = .blockReceive p q ∧ s'.phase p = .blockedReceive q) ∨
      ∃ q m, a = .blockSend p q m ∧ s'.phase p = .blockedSend q m) (clear : s.flag p = false)
      (flag : s'.flag p = false)
  | wakes (q : Q) (wakes : Wakes s s' p q) (flag : s'.flag p = s.flag p)
  | released (q : Q) (act : a = .reset q ∨ a = .delete q) (wakes : Wakes s s' p q)
      (flag : s'.flag p = true)

theorem Wakes.woken {s s' : State P Q M} {p : P} {q : Q} (wakes : Wakes s s' p q) :
    (s'.phase p).Woken := by
  rcases wakes with ⟨_, phase⟩ | ⟨m, _, phase⟩ <;> rw [phase] <;> trivial

theorem Wakes.blocked {s s' : State P Q M} {p : P} {q : Q} (wakes : Wakes s s' p q) :
    ¬ (s.phase p).Woken := by
  rcases wakes with ⟨phase, _⟩ | ⟨m, phase, _⟩ <;> rw [phase] <;> exact id

theorem Move.waits {s s' : State P Q M} {a : Action P Q M} {p : P} (move : Move s a s' p)
    (busy : s'.phase p ≠ .idle) (blocked : ¬ (s'.phase p).Woken) :
    s'.phase p = s.phase p ∧ s'.flag p = s.flag p ∨
      s'.flag p = false ∧ ((∃ q, a = .blockReceive p q ∧ s'.phase p = .blockedReceive q) ∨
        ∃ q m, a = .blockSend p q m ∧ s'.phase p = .blockedSend q m) := by
  cases move with
  | stays same flag =>
      rcases flag with flag | ⟨idle, _⟩
      · exact .inl ⟨same, flag⟩
      · exact absurd (same.trans idle) busy
  | blocks act _ flag => exact .inr ⟨flag, act⟩
  | goes _ idle _ | refuses _ idle _ | returns idle _ _ => exact absurd idle busy
  | wakes _ wakes _ | released _ _ wakes _ => exact absurd wakes.woken blocked

theorem Move.woken {s s' : State P Q M} {a : Action P Q M} {p : P} (move : Move s a s' p)
    (woken : (s'.phase p).Woken) :
    s'.phase p = s.phase p ∧ s'.flag p = s.flag p ∨
      ∃ q, Wakes s s' p q ∧ (s'.flag p = s.flag p ∨ a = .reset q ∨ a = .delete q) := by
  cases move with
  | stays same flag =>
      rcases flag with flag | ⟨idle, _⟩
      · exact .inl ⟨same, flag⟩
      · rw [same, idle] at woken
        exact woken.elim
  | blocks act _ _ =>
      rcases act with ⟨q, _, phase⟩ | ⟨q, m, _, phase⟩ <;> rw [phase] at woken <;> exact woken.elim
  | goes _ idle _ | refuses _ idle _ | returns idle _ _ =>
      rw [idle] at woken
      exact woken.elim
  | wakes q wakes flag => exact .inr ⟨q, wakes, .inl flag⟩
  | released q act wakes _ => exact .inr ⟨q, wakes, .inr act⟩

variable [DecidableEq P]

theorem State.Wf.wakes {s s' : State P Q M} (wf : s.Wf) {p : P} {q : Q} (mem : p ∈ s.waiting q)
    (phase : s'.phase p = (s.phase p).wake) : Wakes s s' p q := by
  rcases (mem_waiting ..).mp mem with mem | mem
  · have blocked := wf.receivers q p mem
    rw [blocked] at phase
    exact .inl ⟨blocked, phase⟩
  · obtain ⟨m, blocked⟩ := wf.senders q p mem
    rw [blocked] at phase
    exact .inr ⟨m, blocked, phase⟩

variable [DecidableEq Q]

theorem State.Wf.move_release {s s' : State P Q M} (wf : s.Wf) {a : Action P Q M} {q : Q}
    (act : a = .reset q ∨ a = .delete q) (phase : s'.phase = (s.release q).phase)
    (flag : s'.flag = (s.release q).flag) (p : P) : Move s a s' p := by
  by_cases waits : p ∈ s.waiting q
  · refine .released q act (wf.wakes waits ?_) ?_
    · rw [phase, release_phase, if_pos waits]
    · rw [flag, release_flag, if_pos waits]
  · refine .stays ?_ (.inl ?_)
    · rw [phase, release_phase, if_neg waits]
    · rw [flag, release_flag, if_neg waits]

theorem Step.move {s s' : State P Q M} {a : Action P Q M} (step : Step s a s') (wf : s.Wf) (p' : P) :
    Move s a s' p' := by
  cases step with
  | tick flag cleared => exact .stays rfl (cleared p')
  | call | create => exact .stays rfl (.inl rfl)
  | @leave p away =>
      by_cases same : p' = p
      · subst same
        exact .goes (.inl rfl) (by simp [setPhase_phase]) rfl
      · exact .stays (by simp [setPhase_phase, same]) (.inl rfl)
  | @giveUp p q m woken full =>
      by_cases same : p' = p
      · subst same
        exact .goes (.inr ⟨q, rfl⟩) (by simp [setPhase_phase]) rfl
      · exact .stays (by simp [setPhase_phase, same]) (.inl rfl)
  | @refuse p waiting flagged =>
      by_cases same : p' = p
      · subst same
        exact .refuses rfl (by simp [setPhase_phase]) (by simp [setFlag_flag])
      · exact .stays (by simp [setPhase_phase, same]) (.inl (by simp [setFlag_flag, same]))
  | @blockReceive p q turn empty clear =>
      by_cases same : p' = p
      · subst same
        exact .blocks (.inl ⟨q, rfl, by simp [setPhase_phase]⟩) clear clear
      · exact .stays (by simp [setPhase_phase, same]) (.inl rfl)
  | @blockSend p q m turn full clear =>
      by_cases same : p' = p
      · subst same
        exact .blocks (.inr ⟨q, m, rfl, by simp [setPhase_phase]⟩) clear clear
      · exact .stays (by simp [setPhase_phase, same]) (.inl rfl)
  | @receive p q m rest turn clear head alone | @send p q m turn clear room alone =>
      by_cases same : p' = p
      · subst same
        exact .returns (by simp [setPhase_phase]) clear clear
      · exact .stays (by simp [setPhase_phase, same]) (.inl rfl)
  | @receiveWake p o q m rest turn clear head full waiting =>
      by_cases woken : p' = o
      · subst woken
        exact .wakes q (wf.wakes ((mem_waiting ..).mpr (.inr waiting)) (by simp [setPhase_phase])) rfl
      by_cases same : p' = p
      · subst same
        exact .returns (by simp [setPhase_phase, woken]) clear clear
      · exact .stays (by simp [setPhase_phase, same, woken]) (.inl rfl)
  | @sendWake p o q m turn clear room empty waiting =>
      by_cases woken : p' = o
      · subst woken
        exact .wakes q (wf.wakes ((mem_waiting ..).mpr (.inl waiting)) (by simp [setPhase_phase])) rfl
      by_cases same : p' = p
      · subst same
        exact .returns (by simp [setPhase_phase, woken]) clear clear
      · exact .stays (by simp [setPhase_phase, same, woken]) (.inl rfl)
  | reset opened => exact wf.move_release (.inl rfl) rfl rfl p'
  | delete opened => refine wf.move_release (.inr rfl) ?_ ?_ p' <;> rfl

end Moves

section Deletion

variable [DecidableEq P] [DecidableEq Q]

/-- The channel `q` was deleted since the last call of `p` started. -/
def stale (q : Q) (p : P) : List (Event P Q M) → Bool
  | [] => false
  | .deleted q' :: rest => q' = q || stale q p rest
  | .called p' :: rest => if p' = p then false else stale q p rest
  | _ :: rest => stale q p rest

/-- Every send and every receive was made by a call that its channel outlived. -/
def Clean : List (Event P Q M) → Prop
  | [] => True
  | .sent p q _ :: rest | .received p q _ :: rest => stale q p rest = false ∧ Clean rest
  | _ :: rest => Clean rest

/-- The callers that wait do so on an open channel that their call has not seen
deleted; a woken caller may have seen its channel deleted. -/
structure Current (s : State P Q M) : Prop where
  receiver : ∀ p q, s.phase p = .blockedReceive q → p ∈ (s.chan q).receivers ∧
    (s.chan q).isOpen = true ∧ stale q p s.history = false
  sender : ∀ p q m, s.phase p = .blockedSend q m → p ∈ (s.chan q).senders ∧
    (s.chan q).isOpen = true ∧ stale q p s.history = false
  woken : ∀ p q, (s.phase p = .wokenReceive q ∨ ∃ m, s.phase p = .wokenSend q m) →
    (s.chan q).isOpen = true ∨ stale q p s.history = true
  clean : Clean s.history

/-- A caller that has seen its channel deleted neither waits, receives nor sends. -/
def Cautious (s : State P Q M) : Action P Q M → Prop
  | .blockReceive p q | .blockSend p q _ | .receive p q _ | .send p q _ =>
    stale q p s.history = false
  | _ => True

theorem Step.clear {s s' : State P Q M} {a : Action P Q M} (step : Step s a s') :
    match a with
    | .blockReceive p _ | .blockSend p _ _ | .receive p _ _ | .send p _ _ => s.flag p = false
    | _ => True := by
  cases step <;> trivial

theorem Step.fresh {s s' : State P Q M} {p : P} {q : Q} {m : M} (step : Step s (.blockSend p q m) s') :
    s.Fresh p q := by
  cases step with
  | blockSend turn full clear => exact turn

theorem State.Fresh.stale {s : State P Q M} {p : P} {q : Q} (fresh : s.Fresh p q) :
    stale q p s.history = false := by
  obtain ⟨_, _, head⟩ := fresh
  obtain ⟨rest, history⟩ := List.head?_eq_some_iff.mp head
  simp [history, Channel.stale]

theorem Step.listed {s s' : State P Q M} {a : Action P Q M} (step : Step s a s') (wf : s.Wf) {p : P}
    {q : Q} (opened : (s.chan q).isOpen = true) (same : s'.phase p = s.phase p) :
    (p ∈ (s.chan q).receivers → p ∈ (s'.chan q).receivers) ∧
      (p ∈ (s.chan q).senders → p ∈ (s'.chan q).senders) := by
  have receiver := wf.receivers q p
  have sender := wf.senders q p
  cases step with
  | tick | call | leave | refuse | giveUp => exact ⟨id, id⟩
  | _ => grind [Phase.wake]

theorem Step.stale_cases {s s' : State P Q M} {a : Action P Q M} (step : Step s a s') {p : P}
    (busy : s.phase p ≠ .idle) (q : Q) :
    (stale q p s'.history = stale q p s.history ∧
      ((s.chan q).isOpen = true → (s'.chan q).isOpen = true)) ∨
    a = .delete q ∧ stale q p s'.history = true := by
  cases step with
  | tick | leave | refuse | giveUp => exact .inl ⟨rfl, id⟩
  | @call p' idle =>
      have other : p' ≠ p := by
        rintro rfl
        exact busy idle
      exact .inl ⟨if_neg other, id⟩
  | @delete q' opened =>
      by_cases same : q' = q
      · subst same
        exact .inr ⟨rfl, by simp [stale]⟩
      · exact .inl (by grind [stale])
  | _ => exact .inl (by grind [stale])

theorem Step.emptied {s s' : State P Q M} {q : Q} (step : Step s (.delete q) s') :
    (s'.chan q).receivers = ∅ ∧ (s'.chan q).senders = ∅ := by
  cases step with
  | delete opened => simp [setChan_chan]

theorem Step.blocks_receive {s s' : State P Q M} {p : P} {q : Q} (step : Step s (.blockReceive p q) s')
    (current : Current s) (cautious : stale q p s.history = false) :
    p ∈ (s'.chan q).receivers ∧ (s'.chan q).isOpen = true ∧ stale q p s'.history = false := by
  cases step with
  | blockReceive turn empty clear =>
      refine ⟨by simp [setChan_chan], ?_, cautious⟩
      rcases turn with phase | ⟨_, opened, _⟩
      · simpa [setChan_chan] using (current.woken p q (.inl phase)).resolve_right (by simp [cautious])
      · simpa [setChan_chan] using opened

theorem Step.blocks_send {s s' : State P Q M} {p : P} {q : Q} {m : M}
    (step : Step s (.blockSend p q m) s') (cautious : stale q p s.history = false) :
    p ∈ (s'.chan q).senders ∧ (s'.chan q).isOpen = true ∧ stale q p s'.history = false := by
  cases step with
  | blockSend turn full clear =>
      exact ⟨by simp [setChan_chan], by simpa [setChan_chan] using turn.2.1, cautious⟩

theorem Step.clean {s s' : State P Q M} {a : Action P Q M} (step : Step s a s')
    (cautious : Cautious s a) (clean : Clean s.history) : Clean s'.history := by
  cases step with
  | send | sendWake | receive | receiveWake => exact ⟨cautious, clean⟩
  | _ => exact clean

theorem Step.current {s s' : State P Q M} {a : Action P Q M} (step : Step s a s') (wf : s.Wf)
    (cautious : Cautious s a) (current : Current s) : Current s' where
  receiver p q phase := by
    rcases (step.move wf p).waits (by simp [phase]) (by rw [phase]; exact id) with
      ⟨same, _⟩ | ⟨_, ⟨q', rfl, phase'⟩ | ⟨q', m, rfl, phase'⟩⟩
    · have before := same.symm.trans phase
      obtain ⟨mem, opened, fresh⟩ := current.receiver p q before
      have mem' := (step.listed wf opened same).1 mem
      rcases step.stale_cases (p := p) (by simp [before]) q with ⟨stale', opened'⟩ | ⟨rfl, _⟩
      · exact ⟨mem', opened' opened, stale'.trans fresh⟩
      · simp [step.emptied] at mem'
    · cases phase.symm.trans phase'
      exact step.blocks_receive current cautious
    · cases phase.symm.trans phase'
  sender p q m phase := by
    rcases (step.move wf p).waits (by simp [phase]) (by rw [phase]; exact id) with
      ⟨same, _⟩ | ⟨_, ⟨q', rfl, phase'⟩ | ⟨q', m', rfl, phase'⟩⟩
    · have before := same.symm.trans phase
      obtain ⟨mem, opened, fresh⟩ := current.sender p q m before
      have mem' := (step.listed wf opened same).2 mem
      rcases step.stale_cases (p := p) (by simp [before]) q with ⟨stale', opened'⟩ | ⟨rfl, _⟩
      · exact ⟨mem', opened' opened, stale'.trans fresh⟩
      · simp [step.emptied] at mem'
    · cases phase.symm.trans phase'
    · cases phase.symm.trans phase'
      exact step.blocks_send cautious
  woken p q phase := by
    -- what was open or seen deleted before the step is so after it
    have known : s.phase p ≠ .idle → (s.chan q).isOpen = true ∨ stale q p s.history = true →
        (s'.chan q).isOpen = true ∨ stale q p s'.history = true := fun busy before => by
      rcases step.stale_cases busy q with ⟨stale', opened'⟩ | ⟨_, stale'⟩
      · rw [stale']
        exact before.imp_left opened'
      · exact .inr stale'
    have woken : (s'.phase p).Woken := by
      rcases phase with phase | ⟨m, phase⟩ <;> rw [phase] <;> trivial
    rcases (step.move wf p).woken woken with
      ⟨same, _⟩ | ⟨q', ⟨before, phase'⟩ | ⟨m, before, phase'⟩, _⟩
    · rw [same] at phase woken
      refine known (fun idle => ?_) (current.woken p q phase)
      rw [idle] at woken
      exact woken
    · obtain rfl : q' = q := by simpa [phase'] using phase
      exact known (by simp [before]) (.inl (current.receiver p q' before).2.1)
    · obtain rfl : q' = q := by simpa [phase'] using phase
      exact known (by simp [before]) (.inl (current.sender p q' m before).2.1)
  clean := step.clean cautious current.clean

end Deletion

section Flags

variable [DecidableEq P] [DecidableEq Q]

def Flagged (s : State P Q M) : Prop := ∀ p, s.flag p = true → (s.phase p).Woken

def Heedful (s : State P Q M) : Action P Q M → Prop
  | .giveUp p _ | .leave p => s.flag p = false
  | _ => True

theorem Step.flagged {s s' : State P Q M} {a : Action P Q M} (step : Step s a s') (wf : s.Wf)
    (heedful : Heedful s a) (flagged : Flagged s) : Flagged s' := by
  intro p set
  cases step.move wf p with
  | stays same flag =>
      rcases flag with flag | ⟨_, lowered⟩
      · rw [same]
        exact flagged p (flag.symm.trans set)
      · cases set.symm.trans lowered
  | goes act _ flag =>
      have clear : s.flag p = false := by
        rcases act with rfl | ⟨q, rfl⟩ <;> exact heedful
      cases set.symm.trans (flag.trans clear)
  | refuses _ _ lowered | returns _ _ lowered | blocks _ _ lowered => cases set.symm.trans lowered
  | wakes _ wakes _ | released _ _ wakes _ => exact wakes.woken

theorem Step.keeps {s s' : State P Q M} {a : Action P Q M} (step : Step s a s') (wf : s.Wf) {p : P}
    (woken : (s.phase p).Woken) (set : s.flag p = true) (refuse : a ≠ .refuse p)
    (giveUp : ∀ q, a ≠ .giveUp p q) (leave : a ≠ .leave p) :
    s'.phase p = s.phase p ∧ s'.flag p = true := by
  cases step.move wf p with
  | stays same flag =>
      rcases flag with flag | ⟨idle, _⟩
      · exact ⟨same, flag.trans set⟩
      · rw [idle] at woken
        exact woken.elim
  | goes act _ _ =>
      rcases act with act | ⟨q, act⟩
      · exact absurd act leave
      · exact absurd act (giveUp q)
  | refuses act _ _ => exact absurd act refuse
  | returns _ clear _ | blocks _ clear _ => cases set.symm.trans clear
  | wakes _ wakes _ | released _ _ wakes _ => exact absurd woken wakes.blocked

/-- The messages of the channel `q` were discarded since the last call of `p` started. -/
def discardedSince (q : Q) (p : P) : List (Event P Q M) → Bool
  | [] => false
  | .discarded q' _ :: rest => q' = q || discardedSince q p rest
  | .called p' :: rest => if p' = p then false else discardedSince q p rest
  | _ :: rest => discardedSince q p rest

/-- A caller that waits has its flag lowered, and the flag of a woken one was set by a
reset of its channel during its call. -/
structure Explained (s : State P Q M) : Prop where
  receiver : ∀ p q, s.phase p = .blockedReceive q → s.flag p = false
  sender : ∀ p q m, s.phase p = .blockedSend q m → s.flag p = false
  wokenReceiver : ∀ p q, s.phase p = .wokenReceive q → s.flag p = true →
    discardedSince q p s.history = true
  wokenSender : ∀ p q m, s.phase p = .wokenSend q m → s.flag p = true →
    discardedSince q p s.history = true

theorem Step.discarded {s s' : State P Q M} {a : Action P Q M} (step : Step s a s') {p : P} {q : Q}
    (busy : s.phase p ≠ .idle) (before : discardedSince q p s.history = true) :
    discardedSince q p s'.history = true := by
  cases step with
  | tick | leave | refuse | giveUp | blockReceive | blockSend => exact before
  | @call p' idle =>
      have other : p' ≠ p := by
        rintro rfl
        exact busy idle
      exact (if_neg other).trans before
  | _ => simp [discardedSince, before]

theorem Step.discards {s s' : State P Q M} {a : Action P Q M} (step : Step s a s') {q : Q}
    (act : a = .reset q ∨ a = .delete q) (p : P) : discardedSince q p s'.history = true := by
  rcases act with rfl | rfl <;> cases step <;> simp [discardedSince]

theorem Explained.woken {s s' : State P Q M} {a : Action P Q M} (explained : Explained s)
    (step : Step s a s') (wf : s.Wf) {p : P} {q : Q}
    (phase : s'.phase p = .wokenReceive q ∨ ∃ m, s'.phase p = .wokenSend q m)
    (set : s'.flag p = true) : discardedSince q p s'.history = true := by
  have woken : (s'.phase p).Woken := by
    rcases phase with phase | ⟨m, phase⟩ <;> rw [phase] <;> trivial
  rcases (step.move wf p).woken woken with ⟨same, flag⟩ | ⟨q', wakes, flag⟩
  · rw [same] at phase woken
    rw [flag] at set
    refine step.discarded (fun idle => ?_) ?_
    · rw [idle] at woken
      exact woken
    · rcases phase with phase | ⟨m, phase⟩
      · exact explained.wokenReceiver p q phase set
      · exact explained.wokenSender p q m phase set
  · have clear : s.flag p = false := by
      rcases wakes with ⟨before, _⟩ | ⟨m, before, _⟩
      · exact explained.receiver p q' before
      · exact explained.sender p q' m before
    have act := flag.resolve_left fun same => by cases set.symm.trans (same.trans clear)
    obtain rfl : q' = q := by
      rcases wakes with ⟨_, phase'⟩ | ⟨m, _, phase'⟩ <;> simpa [phase'] using phase
    exact step.discards act p

theorem Step.explained {s s' : State P Q M} {a : Action P Q M} (step : Step s a s') (wf : s.Wf)
    (explained : Explained s) : Explained s' where
  receiver p q phase := by
    rcases (step.move wf p).waits (by simp [phase]) (by rw [phase]; exact id) with
      ⟨same, flag⟩ | ⟨lowered, _⟩
    · exact flag.trans (explained.receiver p q (same.symm.trans phase))
    · exact lowered
  sender p q m phase := by
    rcases (step.move wf p).waits (by simp [phase]) (by rw [phase]; exact id) with
      ⟨same, flag⟩ | ⟨lowered, _⟩
    · exact flag.trans (explained.sender p q m (same.symm.trans phase))
    · exact lowered
  wokenReceiver p q phase := explained.woken step wf (.inl phase)
  wokenSender p q m phase := explained.woken step wf (.inr ⟨m, phase⟩)

end Flags

end ProjetSysteme.Library.Channel
