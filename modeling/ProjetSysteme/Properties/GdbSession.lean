/- Properties/GdbSession
   source: kernel/gdb_serial.c, kernel/debugger.c
   digest: What whole sessions of the remote debugger change. -/

import ProjetSysteme.Invariant.GdbStub

set_option autoImplicit false
set_option relaxedAutoImplicit false

namespace ProjetSysteme.Properties.GdbSession

open Kernel.GdbSerial Invariant.Gdb Library.Buffer

variable {cb : Option Callbacks} {base : Entier} {s s' : Etat × Ligne} {paquets : List Tampon}

structure Tour (cb : Option Callbacks) (base : Entier) (s : Etat × Ligne) (p : Tampon) (s' : Etat × Ligne) : Prop where
  etape : ∃ l r, getpacket ⟨s.1.inbuf, s.2⟩ = some ⟨p, l⟩ ∧
    commande cb base { s.1 with inbuf := p, connected := true } = .ok (s'.1, r) ∧ repondre l r = some s'.2

/-- A session that receives these packets, the last of which ends it. -/
inductive Session (cb : Option Callbacks) (base : Entier) : Etat × Ligne → List Tampon → Etat × Ligne → Prop
  | fin {s s' : Etat × Ligne} {p : Tampon} : Tour cb base s p s' → s'.1.retval ≠ .more → Session cb base s [p] s'
  | suite {s s₁ s' : Etat × Ligne} {p : Tampon} {paquets : List Tampon} : Tour cb base s p s₁ →
      s₁.1.retval = .more → Session cb base s₁ paquets s' → Session cb base s (p :: paquets) s'

theorem tour_of_tourConverse {x : (Etat × Ligne) ⊕ Except Debordement (Etat × Ligne)}
    (tour : tourConverse cb base s = some x) :
    (∃ d, x = .inr (.error d)) ∨ ∃ p s₁, Tour cb base s p s₁ ∧
      x = if s₁.1.retval = .more then .inl s₁ else .inr (.ok s₁) := by
  obtain ⟨⟨p, l⟩, recu, suite⟩ := Option.bind_eq_some_iff.mp tour
  split at suite
  · next d _ =>
      cases suite
      exact .inl ⟨d, rfl⟩
  · next e r execute =>
      obtain ⟨l', reponse, suite⟩ := Option.bind_eq_some_iff.mp suite
      refine .inr ⟨p, (e, l'), ⟨l, r, recu, execute, reponse⟩, ?_⟩
      split at suite
      · next encore =>
          cases suite
          exact (if_pos encore).symm
      · next fin =>
          cases suite
          exact (if_neg fin).symm

theorem session_of_ends {x : Except Debordement (Etat × Ligne)}
    (ends : Library.Loop.Ends (tourConverse cb base) s x) : ∀ s', x = .ok s' → ∃ paquets, Session cb base s paquets s' := by
  induction ends with
  | last tour =>
      rintro s' rfl
      rcases tour_of_tourConverse tour with ⟨d, ⟨⟩⟩ | ⟨p, s₁, tour, same⟩
      split at same
      · cases same
      · next fin =>
          cases same
          exact ⟨[p], .fin tour fin⟩
  | turn tour _ ih =>
      rintro s' rfl
      rcases tour_of_tourConverse tour with ⟨d, ⟨⟩⟩ | ⟨p, s₁, tour, same⟩
      split at same
      · next encore =>
          cases same
          obtain ⟨paquets, session⟩ := ih s' rfl
          exact ⟨p :: paquets, .suite tour encore session⟩
      · cases same

def ecritures : List Nat := [0x47, 0x50, 0x4d, 0x58]

/-- The index of the address and the trace flag of a command that continues, by its letter. -/
def repriseLettre : Nat → Option (Nat × Bool)
  | 0x63 => some (1, false)
  | 0x73 => some (1, true)
  | 0x43 => some (3, false)
  | 0x53 => some (3, true)
  | _ => none

def reprise (p : Tampon) : Option (Nat × Bool) := repriseLettre (p 0).toNat

def avecTrace (traceEnable : Bool) (eflags : Entier) : Entier :=
  if traceEnable then eflags ||| 0x100 else eflags &&& ~~~0x100

def apres (p : Tampon) (registres : List Entier) : List Entier :=
  match reprise p with
  | none => registres
  | some (debut, traceEnable) =>
    let registres :=
      if debut < (lireHexa p debut).2 then registres.set iEip (lireHexa p debut).1 else registres
    registres.modify iEflags (avecTrace traceEnable)

def registresDe (regs : Tampon) : List Entier := (List.range 16).map (lireRegistre regs)

theorem registresDe_getElem? (regs : Tampon) (i : Nat) :
    (registresDe regs)[i]? = if i < 16 then some (lireRegistre regs i) else none := by
  rw [registresDe, List.getElem?_map]
  split
  · next dedans => rw [List.getElem?_range dedans, Option.map_some]
  · next dehors => rw [List.getElem?_eq_none (by simpa using dehors), Option.map_none]

theorem registresDe_ecrire (regs : Tampon) (i : Nat) (v : Entier) :
    registresDe (ecrireRegistre regs i v) = (registresDe regs).set i v := by
  refine List.ext_getElem? fun j => ?_
  rw [List.getElem?_set, registresDe_getElem?, registresDe_getElem?]
  by_cases same : i = j
  · subst same
    rw [if_pos rfl, lireRegistre_ecrire]
    exact if_congr (by simp [registresDe]) rfl rfl
  · rw [if_neg same, lireRegistre_ailleurs (Ne.symm same)]

theorem registresDe_trace (traceEnable : Bool) (regs : Tampon) :
    registresDe (gdbSetTraceFlag traceEnable regs) = (registresDe regs).modify iEflags (avecTrace traceEnable) := by
  refine List.ext_getElem? fun j => ?_
  rw [gdbSetTraceFlag, registresDe_ecrire, List.getElem?_set, List.getElem?_modify]
  by_cases same : iEflags = j
  · subst same
    rw [if_pos rfl, registresDe_getElem?]
    simp [registresDe, iEflags, avecTrace]
  · rw [if_neg same]
    simp [same]

theorem continuer_registres (e : Etat) (debut : Nat) (traceEnable : Bool) (nsig : Octet)
    (suite : reprise e.inbuf = some (debut, traceEnable)) :
    registresDe (continuer e debut traceEnable nsig).1.params.regs = apres e.inbuf (registresDe e.params.regs) := by
  have inchange : registresDe e.params.regs = (registresDe e.params.regs).set iEip (lireRegistre e.params.regs iEip) := by
    refine List.ext_getElem? fun j => ?_
    rw [List.getElem?_set]
    by_cases same : iEip = j
    · subst same
      rw [if_pos rfl, registresDe_getElem?]
      simp [registresDe, iEip]
    · rw [if_neg same]
  rw [apres, suite]
  dsimp only
  rw [continuer]
  dsimp only
  rw [registresDe_trace]
  refine congrArg (fun l : List Entier => l.modify iEflags (avecTrace traceEnable)) ?_
  by_cases adresse : debut < (lireHexa e.inbuf debut).2
  · rw [if_pos adresse]
    by_cases autre : (lireHexa e.inbuf debut).1 ≠ lireRegistre e.params.regs iEip
    · rw [if_pos ⟨adresse, autre⟩, registresDe_ecrire]
    · rw [if_neg fun both => autre both.2, not_not.mp autre]
      exact inchange
  · rw [if_neg fun both => adresse both.1, if_neg adresse]

theorem commandeC_registres {e e' : Etat} {r : Reponse} (traceEnable : Bool)
    (fin : (.ok (commandeC e traceEnable) : ResultatCommande) = .ok (e', r))
    (suite : reprise e.inbuf = some (3, traceEnable)) (debut : e.retval = .more) :
    registresDe e'.params.regs =
      if e'.retval = .more then registresDe e.params.regs else apres e.inbuf (registresDe e.params.regs) := by
  obtain rfl := fin_eq fin
  unfold commandeC
  dsimp only
  split
  · rfl
  · exact continuer_registres e 3 traceEnable _ suite

theorem commande_observe {e e' : Etat} {r : Reponse} (fin : commande none base e = .ok (e', r))
    (lettre : (e.inbuf 0).toNat ∉ ecritures) (debut : e.retval = .more) :
    e'.client = e.client ∧
      registresDe e'.params.regs =
        if e'.retval = .more then registresDe e.params.regs else apres e.inbuf (registresDe e.params.regs) := by
  simp only [ecritures, List.mem_cons, List.not_mem_nil, or_false, not_or] at lettre
  obtain ⟨nonG, nonP, nonM, nonX⟩ := lettre
  refine ⟨commande_client fin nonM nonX, ?_⟩
  by_cases poursuit : (e.inbuf 0).toNat ∈ [0x63, 0x73, 0x43, 0x53]
  · simp only [List.mem_cons, List.not_mem_nil, or_false] at poursuit
    unfold commande at fin
    rcases poursuit with lettre | lettre | lettre | lettre
    · have suite : reprise e.inbuf = some (1, false) := congrArg repriseLettre lettre
      rw [lettre] at fin
      obtain rfl := fin_eq fin
      exact continuer_registres e 1 false 0 suite
    · have suite : reprise e.inbuf = some (1, true) := congrArg repriseLettre lettre
      rw [lettre] at fin
      obtain rfl := fin_eq fin
      exact continuer_registres e 1 true 0 suite
    · rw [lettre] at fin
      exact commandeC_registres false fin (congrArg repriseLettre lettre) debut
    · rw [lettre] at fin
      exact commandeC_registres true fin (congrArg repriseLettre lettre) debut
  · have meme : e'.params = e.params := by
      refine commande_params fin ?_
      simp only [List.mem_cons, List.not_mem_nil, or_false, not_or] at poursuit ⊢
      exact ⟨nonG, nonP, poursuit⟩
    have sansReprise : reprise e.inbuf = none := by
      simp only [List.mem_cons, List.not_mem_nil, or_false, not_or] at poursuit
      unfold reprise repriseLettre
      split <;> simp_all
    rw [meme, apres, sansReprise, ite_self]

theorem tour_observe {p : Tampon} (tour : Tour none base s p s') (lettre : (p 0).toNat ∉ ecritures)
    (debut : s.1.retval = .more) :
    s'.1.client = s.1.client ∧
      registresDe s'.1.params.regs =
        if s'.1.retval = .more then registresDe s.1.params.regs else apres p (registresDe s.1.params.regs) := by
  obtain ⟨l, r, -, execute, -⟩ := tour
  exact commande_observe execute lettre debut

theorem session_observe (session : Session none base s paquets s') (debut : s.1.retval = .more)
    (lettres : ∀ p ∈ paquets, (p 0).toNat ∉ ecritures) :
    s'.1.client = s.1.client ∧
      ∃ dernier, paquets.getLast? = some dernier ∧
        registresDe s'.1.params.regs = apres dernier (registresDe s.1.params.regs) := by
  induction session with
  | fin tour fin =>
      obtain ⟨client, registres⟩ := tour_observe tour (lettres _ (List.mem_cons_self ..)) debut
      rw [if_neg fin] at registres
      exact ⟨client, _, rfl, registres⟩
  | @suite s s₁ s' p paquets tour encore _ ih =>
      obtain ⟨client, registres⟩ := tour_observe tour (lettres _ (List.mem_cons_self ..)) debut
      obtain ⟨client', dernier, dernierDe, registres'⟩ := ih encore fun q mem => lettres q (List.mem_cons_of_mem _ mem)
      rw [if_pos encore] at registres
      refine ⟨client'.trans client, dernier, ?_, registres ▸ registres'⟩
      rw [List.getLast?_cons, dernierDe]
      rfl

theorem registresDe_tss (state : Tampon) (t : Tss) :
    registresDe (store state 0 (t.registres.flatMap octetsDe)) = t.registres := by
  refine List.ext_getElem? fun i => ?_
  rw [registresDe_getElem?]
  split
  · next dedans => exact (lireRegistre_store (t.place ▸ dedans)).symm
  · next dehors => exact (List.getElem?_eq_none (by rw [t.place]; omega)).symm

def rapporte (state inbuf : Tampon) (connected gdbSerialDebug : Bool) (trapno : Nat) (cr0 : Entier)
    (octets : Entier → Octet) (t : Tss) : Etat where
  params := { threadId := -1, signo := signoDe trapno, regs := store state 0 (t.registres.flatMap octetsDe), regsChanged := false }
  client := { octets := octets, cr0 := cr0, cr3 := t.cr3 }
  inbuf := inbuf
  connected := connected
  gdbSerialDebug := gdbSerialDebug
  retval := .more

/-- When a trap is debugged, the stub reports its signal and receives packets until one ends the session. If
none of them is `G`, `P`, `M` or `X`, the memory of the program is unchanged, and so are its registers, except
for the trace flag and for the address given by the packet that continues. -/
theorem debugger_transparent {base cr0 : Entier} {state inbuf : Tampon} {doDebug connected gdbSerialDebug : Bool}
    {trapno : Nat} {octets : Entier → Octet} {t : Tss} {l : Ligne} {f : FinDebugger}
    (resultat : debugger base state inbuf doDebug connected gdbSerialDebug trapno cr0 octets t l = some (.ok f)) :
    ∃ l₀ paquets s', putfrags [litteral [0x53], { data := [signoDe trapno], len := 1, hexify := true }] l = some l₀ ∧
      Session none base (rapporte state inbuf connected gdbSerialDebug trapno cr0 octets t, l₀) paquets s' ∧
      f.registres = registresDe s'.1.params.regs ∧ f.client = s'.1.client ∧ f.ligne = s'.2 ∧
      ((∀ p ∈ paquets, (p 0).toNat ∉ ecritures) →
        f.client = { octets := octets, cr0 := cr0, cr3 := t.cr3 } ∧
          ∃ dernier, paquets.getLast? = some dernier ∧ f.registres = apres dernier t.registres) := by
  obtain ⟨x, converse, suite⟩ := Option.bind_eq_some_iff.mp resultat
  obtain ⟨l₀, annonce, boucle⟩ := Option.bind_eq_some_iff.mp converse
  split at suite
  · cases suite
  · next e' l' =>
      cases suite
      obtain ⟨paquets, session⟩ := session_of_ends (Library.Loop.ends_of_loop boucle) _ rfl
      refine ⟨l₀, paquets, _, annonce, session, rfl, rfl, rfl, fun lettres => ?_⟩
      obtain ⟨client, dernier, dernierDe, registres⟩ := session_observe session rfl lettres
      refine ⟨client, dernier, dernierDe, ?_⟩
      rw [← registresDe_tss state t]
      exact registres

theorem Tour.unique {p p₁ : Tampon} {s₁ : Etat × Ligne} (tour : Tour cb base s p s') (tour₁ : Tour cb base s p₁ s₁) :
    p = p₁ ∧ s' = s₁ := by
  obtain ⟨l, r, recu, execute, repond⟩ := tour
  obtain ⟨l₁, r₁, recu₁, execute₁, repond₁⟩ := tour₁
  cases recu.symm.trans recu₁
  obtain ⟨memes, rfl⟩ := Prod.mk.inj (Except.ok.inj (execute.symm.trans execute₁))
  exact ⟨rfl, Prod.ext memes (Option.some.inj (repond.symm.trans repond₁))⟩

theorem Session.unique {paquets₁ : List Tampon} {s₁ : Etat × Ligne} (session : Session cb base s paquets s')
    (session₁ : Session cb base s paquets₁ s₁) : paquets = paquets₁ := by
  induction session generalizing paquets₁ with
  | fin tour fin =>
      cases session₁ with
      | fin tour₁ _ => rw [(tour.unique tour₁).1]
      | suite tour₁ encore _ => exact absurd ((tour.unique tour₁).2 ▸ encore) fin
  | suite tour encore _ ih =>
      cases session₁ with
      | fin tour₁ fin => exact absurd ((tour.unique tour₁).2 ▸ encore) fin
      | suite tour₁ _ reste =>
          obtain ⟨rfl, rfl⟩ := tour.unique tour₁
          rw [ih reste]

def inspection : List Octet :=
  [0x2b, 0x24, 0x67, 0x23, 0x36, 0x37, 0x2b, 0x24, 0x63, 0x23, 0x36, 0x33]

def tssExemple : Tss where
  registres := [0, 1, 2, 3, 4, 5, 6, 7, 0x1000, 0x302, 8, 16, 16, 16, 0, 0]
  place := rfl
  cr3 := 0

theorem inspection_session : ∃ p p' s', Session none 0x1000
    (rapporte (fun _ => 0) (fun _ => 0) false false 3 0 (fun _ => 0) tssExemple,
      ⟨inspection.tail, trame [litteral [0x53], { data := [5], len := 1, hexify := true }]⟩) [p, p'] s' ∧
      p 0 = 0x67 ∧ p' 0 = 0x63 ∧
      apres p' tssExemple.registres = [0, 1, 2, 3, 4, 5, 6, 7, 0x1000, 0x202, 8, 16, 16, 16, 0, 0] := by
  refine ⟨_, _, (_, _), @Session.suite _ _ _ (_, _) _ _ _ ⟨_, _, rfl, rfl, rfl⟩ rfl
    (.fin ⟨_, _, rfl, rfl, rfl⟩ ?_), ?_, ?_, ?_⟩
  · rintro ⟨⟩
  · rfl
  · rfl
  · decide +kernel

theorem debugger_transparent_exemple : ∃ f : FinDebugger,
    debugger 0x1000 (fun _ => 0) (fun _ => 0) true false false 3 0 (fun _ => 0) tssExemple ⟨inspection, []⟩ =
      some (.ok f) ∧ f.client = ⟨fun _ => 0, 0, 0⟩ ∧
      f.registres = [0, 1, 2, 3, 4, 5, 6, 7, 0x1000, 0x202, 8, 16, 16, 16, 0, 0] := by
  have fini : ((debugger 0x1000 (fun _ => 0) (fun _ => 0) true false false 3 0 (fun _ => 0) tssExemple
      ⟨inspection, []⟩).bind Except.toOption).isSome = true := by decide +kernel
  rcases resultat : debugger 0x1000 (fun _ => 0) (fun _ => 0) true false false 3 0 (fun _ => 0) tssExemple
      ⟨inspection, []⟩ with _ | (d | f)
  · rw [resultat] at fini
    cases fini
  · rw [resultat] at fini
    cases fini
  · obtain ⟨l₀, paquets, s', annonce, session, -, -, -, observe⟩ := debugger_transparent resultat
    obtain ⟨p, p', s₁, inspecte, g, c, regs⟩ := inspection_session
    cases (show putfrags _ ⟨inspection, []⟩ = some _ from rfl).symm.trans annonce
    obtain rfl := session.unique inspecte
    have lettres : ∀ q ∈ [p, p'], (q 0).toNat ∉ ecritures := by
      simp [g, c, ecritures]
    obtain ⟨client, dernier, dernierDe, registres⟩ := observe lettres
    cases dernierDe
    exact ⟨f, rfl, client, registres.trans regs⟩

end ProjetSysteme.Properties.GdbSession
