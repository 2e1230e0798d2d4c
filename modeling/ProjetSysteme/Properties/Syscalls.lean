/- Properties/Syscalls
   source: shared/syscalls.S, kernel/traitants.S
   digest: What a system call does: its number is lost before the search for its handler. -/

import ProjetSysteme.Kernel.Syscalls
import Mathlib.Logic.Function.Iterate

set_option autoImplicit false
set_option relaxedAutoImplicit false

namespace ProjetSysteme.Properties

open Kernel Library.Stack

/-- The processor and the memory when a stub is called. -/
structure Contexte where
  registres : Registre → BitVec 32
  segments : Segment → BitVec 16
  zf : Bool
  interruptions : Bool
  niveau : Niveau
  esp : BitVec 32
  mots : BitVec 32 → BitVec 32

def Contexte.machine (x : Contexte) : Machine :=
  { x with pile := ⟨x.esp, fun a => .mot (x.mots a)⟩, appels := [] }

def Contexte.arguments (x : Contexte) (n : Nat) : List (BitVec 32) :=
  (List.range n).map fun k => x.mots (x.esp + BitVec.ofNat 32 (4 * (k + 1)))

/-- The kernel routine of a system call. -/
def routineDe : AppelSysteme → Option Routine
  | .start => some .kStart
  | .halt => none
  | .exit => some .exit
  | .kill => some .kill
  | .waitpid => some .waitpid
  | .getprio => some .getprio
  | .chprio => some .chprio
  | .getpid => some .getpid
  | .consRead => some .consRead
  | .consWrite => some .consWrite
  | .consEcho => some .consEcho

def gardes : List Registre := [.ebx, .esi, .edi, .ebp]

/-- The call `a` runs the routine `f`, and nothing else, on the arguments of the caller; if
the routine returns, the caller gets its value and finds its registers as they were. -/
def Transparent (routines : Routines) (a : AppelSysteme) (f : Routine) (x : Contexte) : Prop :=
  let args := x.arguments f.arite
  match routines f args with
  | none => ∃ n m, (suivant routines)^[n] (.en a.souche x.machine) = .parti f m ∧ m.appels = [(f, args)]
  | some r => ∃ n m, (suivant routines)^[n] (.en a.souche x.machine) = .rendu (.mot (x.mots x.esp)) m ∧
      m.appels = [(f, args)] ∧ m.registres .eax = r.eax ∧ m.pile.top = x.esp + 4 ∧
      ∀ q ∈ gardes, m.registres q = x.registres q

section Execution

variable (routines : Routines)

def Mene (e e' : Etat) : Prop := ∃ n, (suivant routines)^[n] e = e'

variable {routines}

theorem Mene.refl (e : Etat) : Mene routines e e := ⟨0, rfl⟩

theorem Mene.trans {e e' e'' : Etat} (un : Mene routines e e') (deux : Mene routines e' e'') :
    Mene routines e e'' := by
  obtain ⟨n, rfl⟩ := un
  obtain ⟨p, rfl⟩ := deux
  exact ⟨p + n, Function.iterate_add_apply _ p n e⟩

theorem Mene.pas (e : Etat) : Mene routines e (suivant routines e) := ⟨1, rfl⟩

theorem Mene.fin_unique {e e' e'' : Etat} (un : Mene routines e e') (deux : Mene routines e e'')
    (fin : suivant routines e' = e') (fin' : suivant routines e'' = e'') : e' = e'' := by
  obtain ⟨n, rfl⟩ := un
  obtain ⟨p, rfl⟩ := deux
  have garde := fun k => Function.iterate_fixed fin k
  have garde' := fun k => Function.iterate_fixed fin' k
  rcases Nat.le_total n p with ordre | ordre
  · obtain ⟨k, rfl⟩ := Nat.exists_eq_add_of_le' ordre
    rw [Function.iterate_add_apply, garde]
  · obtain ⟨k, rfl⟩ := Nat.exists_eq_add_of_le' ordre
    rw [Function.iterate_add_apply, garde']

def Donnees (m : Machine) : Prop := ∀ a, ∃ v, m.pile.cells a = .mot v

theorem Donnees.empiler {m : Machine} (donnees : Donnees m) (v : BitVec 32) :
    Donnees (m.empiler (.mot v)) := by
  intro a
  by_cases haut : a = m.pile.top - 4
  · exact ⟨v, if_pos haut⟩
  · obtain ⟨w, mot⟩ := donnees a
    exact ⟨w, (if_neg haut).trans mot⟩

variable (routines)

theorem pushl_mene (l : List Registre) (c : List Instruction) {m : Machine} {reste : List Valeur}
    (donnees : Donnees m) (tient : m.pile.Holds reste) (court : l.length + reste.length < 2 ^ 30) :
    ∃ pile, Mene routines (.en (l.map .pushl ++ c) m) (.en c { m with pile := pile }) ∧
      Donnees { m with pile := pile } ∧ pile.top = m.pile.top - BitVec.ofNat 32 (4 * l.length) ∧
      pile.Holds (l.reverse.map (fun r => .mot (m.registres r)) ++ reste) := by
  induction l generalizing m reste with
  | nil => exact ⟨m.pile, .refl _, donnees, (BitVec.sub_zero _).symm, tient⟩
  | cons r l ih =>
      rw [List.length_cons] at court
      obtain ⟨pile, mene, donnees', top, tient'⟩ := ih (donnees.empiler (m.registres r))
        (tient.push (.mot (m.registres r)) (by omega)) (by rw [List.length_cons]; omega)
      refine ⟨pile, (Mene.pas _).trans mene, donnees', ?_, ?_⟩
      · rw [top, List.length_cons]
        change m.pile.top - 4 - _ = _
        have quatre : (4 : BitVec 32).toNat = 4 := rfl
        apply BitVec.eq_of_toNat_eq
        simp only [BitVec.toNat_sub, BitVec.toNat_ofNat, quatre]
        omega
      · rw [List.reverse_cons, List.map_append, List.append_assoc]
        exact tient'

theorem movl_mene (l : List (BitVec 32 × Registre)) (c : List Instruction) {m : Machine}
    (donnees : Donnees m) : ∃ registres,
      Mene routines (.en (l.map (fun p => .movl p.1 p.2) ++ c) m) (.en c { m with registres := registres }) ∧
      ∀ q, q ∉ l.map Prod.snd → registres q = m.registres q := by
  induction l generalizing m with
  | nil => exact ⟨m.registres, .refl _, fun _ _ => rfl⟩
  | cons p l ih =>
      obtain ⟨v, mot⟩ := donnees (m.pile.top + p.1)
      have pas : suivant routines (.en ((p :: l).map (fun p => .movl p.1 p.2) ++ c) m) =
          .en (l.map (fun p => .movl p.1 p.2) ++ c) (m.charger p.2 v) := by
        simp only [List.map_cons, List.cons_append, suivant, executerInstruction, mot]
      obtain ⟨registres, mene, autres⟩ := ih (m := m.charger p.2 v) donnees
      refine ⟨registres, .trans ⟨1, pas⟩ mene, fun q absent => ?_⟩
      rw [List.map_cons, List.mem_cons, not_or] at absent
      rw [autres q absent.2]
      exact if_neg absent.1

theorem popl_mene (l : List Registre) (c : List Instruction) {m : Machine} {reste : List Valeur}
    (ρ : Registre → BitVec 32) (tient : m.pile.Holds (l.map (fun r => .mot (ρ r)) ++ reste)) :
    ∃ pile registres, Mene routines (.en (l.map .popl ++ c) m)
        (.en c { m with pile := pile, registres := registres }) ∧
      pile.top = m.pile.top + BitVec.ofNat 32 (4 * l.length) ∧ pile.Holds reste ∧
      (∀ q ∈ l, registres q = ρ q) ∧ ∀ q ∉ l, registres q = m.registres q := by
  induction l generalizing m with
  | nil => exact ⟨m.pile, m.registres, .refl _, (BitVec.add_zero _).symm, tient, by simp, fun _ _ => rfl⟩
  | cons r l ih =>
      have sommet : m.pile.cell 0 = .mot (ρ r) := tient.head
      have pas : suivant routines (.en ((r :: l).map .popl ++ c) m) =
          .en (l.map .popl ++ c) (m.depiler.charger r (ρ r)) := by
        simp only [List.map_cons, List.cons_append, suivant, executerInstruction, sommet]
      obtain ⟨pile, registres, mene, top, tient', dans, hors⟩ :=
        ih (m := m.depiler.charger r (ρ r)) tient.pop
      refine ⟨pile, registres, .trans ⟨1, pas⟩ mene, ?_, tient', fun q mem => ?_, fun q absent => ?_⟩
      · rw [top, List.length_cons]
        change m.pile.top + 4 + _ = _
        have quatre : (4 : BitVec 32).toNat = 4 := rfl
        apply BitVec.eq_of_toNat_eq
        simp only [BitVec.toNat_add, BitVec.toNat_ofNat, quatre]
        omega
      · by_cases encore : q ∈ l
        · exact dans q encore
        · have tete : q = r := (List.mem_cons.mp mem).resolve_right encore
          rw [hors q encore, tete]
          exact if_pos rfl
      · rw [List.mem_cons, not_or] at absent
        rw [hors q absent.2]
        exact if_neg absent.1

theorem recherche_mene (l : List (BitVec 32 × Symbole)) (c : List Instruction) {m : Machine}
    (autres : ∀ p ∈ l, m.registres .eax ≠ p.1) : ∃ zf,
      Mene routines (.en (l.flatMap (fun p => [.cmp p.1, .je p.2]) ++ c) m) (.en c { m with zf := zf }) := by
  induction l generalizing m with
  | nil => exact ⟨m.zf, .refl _⟩
  | cons p l ih =>
      have different : (m.registres .eax == p.1) = false :=
        beq_eq_false_iff_ne.mpr (autres p (List.mem_cons_self ..))
      obtain ⟨zf, mene⟩ := ih (m := { m with zf := false }) fun q mem => autres q (List.mem_cons_of_mem p mem)
      refine ⟨zf, .trans ⟨2, ?_⟩ mene⟩
      simp only [Function.iterate_succ_apply, Function.iterate_zero_apply,
        List.flatMap_cons, List.cons_append, List.nil_append, suivant, executerInstruction,
        different, Bool.false_eq_true, if_false]

theorem chargerSegments_mene (v : BitVec 16) (c : List Instruction) (m : Machine) :
    ∃ segments, Mene routines (.en (chargerSegments v ++ c) m)
      (.en c { m.charger .eax ((m.registres .eax &&& 0xFFFF0000) ||| v.setWidth 32) with
        segments := segments }) :=
  ⟨_, 5, rfl⟩

theorem traitantIT49_mene {m : Machine} (petit : m.registres .eax &&& 0xFFFF0000 = 0) :
    ∃ segments zf, Mene routines (.en traitantIT49 m)
      (.en [.iret] { m.charger .eax 0x4b with segments := segments, zf := zf }) := by
  obtain ⟨segments₁, entree⟩ : ∃ segments, Mene routines (.en traitantIT49 m) (.en (recherche ++ finIt49)
      { m.charger .eax ((m.registres .eax &&& 0xFFFF0000) ||| (0x18 : BitVec 16).setWidth 32) with
        segments := segments }) :=
    chargerSegments_mene routines 0x18 _ m
  rw [petit] at entree
  set m₁ : Machine := { m.charger .eax 0x18 with segments := segments₁ } with defm₁
  have eax : m₁.registres .eax = 0x18 := m.charger_meme .eax 0x18
  have inconnu : ∀ p ∈ ([(0xb, .consEcho), (0xa, .consWrite), (9, .consRead), (8, .getpid), (7, .chprio),
      (6, .getprio), (5, .waitpid), (4, .kill), (3, .exit), (2, .halt), (1, .start)] :
      List (BitVec 32 × Symbole)), m₁.registres .eax ≠ p.1 := by
    rw [eax]
    decide
  obtain ⟨zf, ratee⟩ : ∃ zf, Mene routines (.en (recherche ++ finIt49) m₁) (.en finIt49 { m₁ with zf := zf }) :=
    recherche_mene routines _ finIt49 inconnu
  obtain ⟨segments₂, sortie⟩ := chargerSegments_mene routines 0x4b [.iret] { m₁ with zf := zf }
  have fin : ({ ({ m₁ with zf := zf } : Machine).charger .eax ((m₁.registres .eax &&& 0xFFFF0000) |||
      (0x4b : BitVec 16).setWidth 32) with segments := segments₂ } : Machine) =
      { m.charger .eax 0x4b with segments := segments₂, zf := zf } := by
    have registres : ∀ q, (if q = Registre.eax then (m₁.registres .eax &&& 0xFFFF0000) |||
        (0x4b : BitVec 16).setWidth 32 else m₁.registres q) =
        if q = Registre.eax then 0x4b else m.registres q := by
      intro q
      by_cases egal : q = .eax
      · rw [if_pos egal, if_pos egal, eax]
        rfl
      · rw [if_neg egal, if_neg egal]
        exact m.charger_autre 0x18 egal
    simp only [Machine.charger, registres]
    rfl
  exact ⟨segments₂, zf, fin ▸ entree.trans (ratee.trans sortie)⟩

theorem int49_mene (c : List Instruction) {m : Machine} {reste : List Valeur} (noyau : m.niveau = .noyau)
    (petit : m.registres .eax &&& 0xFFFF0000 = 0) (tient : m.pile.Holds reste)
    (court : reste.length + 3 < 2 ^ 30) : ∃ m', Mene routines (.en (.int49 :: c) m) (.en c m') ∧
    m'.registres = (m.charger .eax 0x4b).registres ∧ m'.appels = m.appels ∧
    m'.pile.top = m.pile.top ∧ m'.pile.Holds reste := by
  set cadre : Machine := { ((m.empiler (.drapeaux m.zf m.interruptions)).empiler
    (.mot ((m.segments .cs).setWidth 32))).empiler (.code c) with interruptions := false } with defcadre
  have entre : suivant routines (.en (.int49 :: c) m) = .en traitantIT49 cadre := by
    simp only [suivant, executerInstruction, interrompre, noyau, defcadre]
  have empile : cadre.pile.Holds (.code c :: .mot ((m.segments .cs).setWidth 32) ::
      .drapeaux m.zf m.interruptions :: reste) := by
    have un := tient.push (.drapeaux m.zf m.interruptions) (by omega)
    have deux := un.push (.mot ((m.segments .cs).setWidth 32)) (by rw [List.length_cons]; omega)
    exact deux.push (.code c) (by rw [List.length_cons, List.length_cons]; omega)
  have haut : cadre.pile.pop.pop.pop.top = m.pile.top := by
    change m.pile.top - 4 - 4 - 4 + 4 + 4 + 4 = _
    rw [BitVec.sub_add_cancel, BitVec.sub_add_cancel, BitVec.sub_add_cancel]
  obtain ⟨segments, zf, sert⟩ : ∃ segments zf, Mene routines (.en traitantIT49 cadre)
      (.en [.iret] { cadre.charger .eax 0x4b with segments := segments, zf := zf }) :=
    traitantIT49_mene routines petit
  have sort : suivant routines (.en [.iret] { cadre.charger .eax 0x4b with segments := segments, zf := zf }) =
      .en c { m.charger .eax 0x4b with
        pile := cadre.pile.pop.pop.pop
        segments := fun s => if s = .cs then ((m.segments .cs).setWidth 32).setWidth 16 else segments s
        zf := m.zf
        interruptions := m.interruptions } := by
    have code : (cadre.charger .eax 0x4b).pile.cell 0 = .code c := empile.head
    have cs : (cadre.charger .eax 0x4b).pile.cell 1 = .mot ((m.segments .cs).setWidth 32) := empile 1 _ rfl
    have drapeaux : (cadre.charger .eax 0x4b).pile.cell 2 = .drapeaux m.zf m.interruptions := empile 2 _ rfl
    simp only [suivant, executerInstruction, revenir, code, cs, drapeaux]
    rfl
  exact ⟨_, Mene.trans ⟨1, entre⟩ (sert.trans ⟨1, sort⟩), rfl, rfl, haut, empile.pop.pop.pop⟩

theorem souche_entre (sauves : List Registre) (charges : List (BitVec 32 × Registre)) (numero : BitVec 32)
    (x : Contexte) (court : sauves.length < 2 ^ 20) : ∃ m,
    Mene routines (.en (souche sauves charges numero) x.machine)
      (.en (.int49 :: (sauves.reverse.map .popl ++ [.ret])) m) ∧
    m.registres .eax = numero ∧
    (∀ q, q ≠ .eax → q ∉ charges.map Prod.snd → m.registres q = x.registres q) ∧
    m.niveau = x.niveau ∧ m.appels = [] ∧ m.pile.top = x.esp - BitVec.ofNat 32 (4 * sauves.length) ∧
    m.pile.Holds (sauves.reverse.map (fun r => .mot (x.registres r)) ++ [.mot (x.mots x.esp)]) := by
  have donnees : Donnees x.machine := fun a => ⟨x.mots a, rfl⟩
  have adresse : x.machine.pile.Holds [.mot (x.mots x.esp)] := by
    intro n v ici
    obtain rfl : n = 0 := by
      have dedans := (List.getElem?_eq_some_iff.mp ici).1
      rw [List.length_singleton] at dedans
      omega
    cases ici
    exact congrArg (fun a => Valeur.mot (x.mots a)) (BitVec.add_zero x.esp)
  obtain ⟨pile, sauve, donnees', top, tient⟩ := pushl_mene routines sauves
    (charges.map (fun p => .movl p.1 p.2) ++ .movEax numero :: .int49 :: (sauves.reverse.map .popl ++ [.ret]))
    donnees adresse (by rw [List.length_singleton]; omega)
  obtain ⟨registres, charge, autres⟩ := movl_mene routines charges
    (.movEax numero :: .int49 :: (sauves.reverse.map .popl ++ [.ret])) donnees'
  refine ⟨_, sauve.trans (charge.trans (Mene.pas _)), Machine.charger_meme _ _ _, fun q autre absent => ?_,
    rfl, rfl, top, tient⟩
  exact (Machine.charger_autre _ _ autre).trans (autres q absent)

theorem souche_rend (sauves : List Registre) (charges : List (BitVec 32 × Registre)) (numero : BitVec 32)
    {x : Contexte} (court : sauves.length < 2 ^ 20) (petit : numero &&& 0xFFFF0000 = 0)
    (sansEax : Registre.eax ∉ sauves) (couverts : ∀ q ∈ gardes, q ∈ charges.map Prod.snd → q ∈ sauves)
    (noyau : x.niveau = .noyau) : ∃ m,
    Mene routines (.en (souche sauves charges numero) x.machine) (.rendu (.mot (x.mots x.esp)) m) ∧
    m.appels = [] ∧ m.registres .eax = 0x4b ∧ m.pile.top = x.esp + 4 ∧
    ∀ q ∈ gardes, m.registres q = x.registres q := by
  obtain ⟨m₁, entre, eax, autres, niveau, appels₁, top₁, tient₁⟩ :=
    souche_entre routines sauves charges numero x court
  rw [← eax] at petit
  obtain ⟨m₂, sert, registres₂, appels₂, top₂, tient₂⟩ := int49_mene routines
    (sauves.reverse.map .popl ++ [.ret]) (niveau.trans noyau) petit tient₁
    (by rw [List.length_append, List.length_map, List.length_reverse, List.length_singleton]; omega)
  obtain ⟨pile, registres, restaure, top₃, tient₃, dans, hors⟩ :=
    popl_mene routines sauves.reverse [.ret] x.registres tient₂
  have retour : pile.cell 0 = .mot (x.mots x.esp) := tient₃.head
  have rend : suivant routines (.en [.ret] { m₂ with pile := pile, registres := registres }) =
      .rendu (.mot (x.mots x.esp)) { m₂ with pile := pile.pop, registres := registres } := by
    simp only [suivant, executerInstruction, retour]
    rfl
  refine ⟨_, entre.trans (sert.trans (restaure.trans ⟨1, rend⟩)), appels₂.trans appels₁, ?_, ?_,
    fun q garde => ?_⟩
  · change registres .eax = _
    rw [hors .eax (fun mem => sansEax (List.mem_reverse.mp mem)), registres₂, Machine.charger_meme]
  · change pile.top + 4 = _
    rw [top₃, top₂, top₁, List.length_reverse, BitVec.sub_add_cancel]
  · change registres q = _
    by_cases sauve : q ∈ sauves
    · exact dans q (List.mem_reverse.mpr sauve)
    · have pasEax : q ≠ .eax := by
        rintro rfl
        exact absurd garde (by decide)
      rw [hors q (fun mem => sauve (List.mem_reverse.mp mem)), registres₂, Machine.charger_autre _ _ pasEax]
      exact autres q pasEax (fun charge => sauve (couverts q garde charge))

theorem souche_protection (sauves : List Registre) (charges : List (BitVec 32 × Registre))
    (numero : BitVec 32) {x : Contexte} (court : sauves.length < 2 ^ 20)
    (utilisateur : x.niveau = .utilisateur) : ∃ m,
    Mene routines (.en (souche sauves charges numero) x.machine) (.protection m) ∧ m.appels = [] := by
  obtain ⟨m, entre, -, -, niveau, appels, -⟩ :=
    souche_entre routines sauves charges numero x court
  have refuse : suivant routines (.en (.int49 :: (sauves.reverse.map .popl ++ [.ret])) m) = .protection m := by
    simp only [suivant, executerInstruction, interrompre, niveau, utilisateur]
  exact ⟨m, entre.trans ⟨1, refuse⟩, appels⟩

variable {routines}

theorem appel_sans_routine (a : AppelSysteme) (x : Contexte) {e : Etat}
    (vers : Mene routines (.en a.souche x.machine) e) (fin : suivant routines e = e) :
    (∃ v m, e = .rendu v m ∧ m.appels = []) ∨ ∃ m, e = .protection m := by
  obtain ⟨sauves, charges, numero, egale, court, petit, sansEax, couverts⟩ : ∃ sauves charges numero,
      a.souche = souche sauves charges numero ∧ sauves.length < 2 ^ 20 ∧ numero &&& 0xFFFF0000 = 0 ∧
      Registre.eax ∉ sauves ∧ ∀ q ∈ gardes, q ∈ charges.map Prod.snd → q ∈ sauves := by
    cases a
    all_goals exact ⟨_, _, _, rfl, by decide, by decide, by decide, by decide⟩
  rw [egale] at vers
  cases niveau : x.niveau with
  | noyau =>
      obtain ⟨m, rend, appels, -⟩ :=
        souche_rend routines sauves charges numero court petit sansEax couverts niveau
      exact .inl ⟨_, m, vers.fin_unique rend fin rfl, appels⟩
  | utilisateur =>
      obtain ⟨m, refuse, -⟩ := souche_protection routines sauves charges numero court niveau
      exact .inr ⟨m, vers.fin_unique refuse fin rfl⟩

end Execution

/-- No system call is transparent. -/
theorem appel_sans_effet (routines : Routines) (a : AppelSysteme) (f : Routine) (x : Contexte) :
    ¬ Transparent routines a f x := by
  intro transparent
  unfold Transparent at transparent
  cases retour : routines f (x.arguments f.arite) with
  | none =>
      simp only [retour] at transparent
      obtain ⟨n, m, part, -⟩ := transparent
      obtain ⟨v, m', rendu, -⟩ | ⟨m', protege⟩ := appel_sans_routine a x ⟨n, part⟩ rfl
      · cases rendu
      · cases protege
  | some r =>
      simp only [retour] at transparent
      obtain ⟨n, m, rend, appels, -⟩ := transparent
      obtain ⟨v, m', rendu, sans⟩ | ⟨m', protege⟩ := appel_sans_routine a x ⟨n, rend⟩ rfl
      · cases rendu
        rw [sans] at appels
        cases appels
      · cases protege

/-- A process of level 0 with nothing in its registers. -/
def contexteNul : Contexte where
  registres := fun _ => 0
  segments := fun _ => 0x18
  zf := false
  interruptions := true
  niveau := .noyau
  esp := 0x1000
  mots := fun _ => 0

/-- `getpid` in the process 5. -/
theorem getpid_perdu : routineDe .getpid = some .getpid ∧
    ¬ Transparent (fun _ _ => some ⟨5, 0, 0⟩) .getpid .getpid contexteNul := by
  refine ⟨rfl, ?_⟩
  rintro ⟨n, m, rend, appels, -⟩
  obtain ⟨v, m', rendu, sans⟩ | ⟨m', protege⟩ := appel_sans_routine .getpid contexteNul ⟨n, rend⟩ rfl
  · cases rendu
    rw [sans] at appels
    cases appels
  · cases protege

end ProjetSysteme.Properties
