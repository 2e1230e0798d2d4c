/- Kernel/Clock
   source: kernel/horloge.c, the macros confirme and confirme_sans_aboder of kernel/process.h
   digest: The clock interrupt and sleeping processes. -/

import ProjetSysteme.Kernel.Process

set_option autoImplicit false
set_option relaxedAutoImplicit false

namespace ProjetSysteme.Kernel

/-- The restarting scan of `tic_PIT`, for at most `n` wake-ups. -/
def parcourEndormis : Nat → Noyau → Resultat
  | n, k =>
    match k.endormis.find? fun i => (k.table i).waitIemeInterruptionClock ≤ k.horloge with
    | none => .ok k
    | some attend =>
      match n with
      | 0 => .error (.faute .boucle)
      | n + 1 => do
        let k ← definirEtat k attend .activable
        parcourEndormis n k

def ticPIT (k : Noyau) : Resultat := do
  let k := { k with horloge := k.horloge + 1 }
  let k ← parcourEndormis k.endormis.length k
  ordonnancer k

def currentClock (k : Noyau) : UInt32 := k.horloge

/-- `s` is what the caller does after `wait_clock`.  With no process or with the
idle process the `confirme` of `wait_clock` fails and calls `wait_clock` again. -/
def waitClock (k : Noyau) (clock : UInt32) (s : Suite) : Resultat :=
  match k.pidActif with
  | none => .error (.faute .recursion)
  | some actif =>
    if actif = 0 then .error (.faute .recursion)
    else do
      let k := (k.modifie actif fun p => { p with waitIemeInterruptionClock := clock }).suspend actif s
      let k ← definirEtat k actif .bloqueSurSemaphore
      ordonnancer k

/-- A `confirme` that fails in `k`: the running process sleeps 40 ticks, then
ends itself, so that it never runs what follows the macro. -/
def echecConfirme (k : Noyau) : Resultat := waitClock k (currentClock k + 40) .finConfirme

end ProjetSysteme.Kernel
