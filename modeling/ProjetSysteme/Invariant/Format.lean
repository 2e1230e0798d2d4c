/- Invariant/Format
   source: shared/doprnt.c
   digest: How numbers are laid out in a field, and how they are read back. -/

import ProjetSysteme.Invariant.Numeral
import ProjetSysteme.Kernel.Format

set_option autoImplicit false
set_option relaxedAutoImplicit false

namespace ProjetSysteme.Invariant.Format

open Kernel.Format Library.Positional
open Kernel.Numeral (Octet Entier printnum strtoul strtol isspace chiffre lireBase lireChiffres)

variable {d : Directive} {signe pre cs texte : List Octet} {base : Nat}

/-- A number in a field: the precision adds zeros, and the width blanks or zeros. -/
def disposer (d : Directive) (signe pre cs : List Octet) : List Octet :=
  let zeros := (d.prec - cs.length).toNat
  let marge := (d.length - (signe.length + pre.length + zeros + cs.length : Nat)).toNat
  if d.padc = 0x30 then signe ++ pre ++ List.replicate (zeros + marge) 0x30 ++ cs
  else if d.ladjust then signe ++ pre ++ List.replicate zeros 0x30 ++ cs ++ List.replicate marge 0x20
  else List.replicate marge 0x20 ++ signe ++ pre ++ List.replicate zeros 0x30 ++ cs

theorem disposer_length : (disposer d signe pre cs).length =
    max d.length.toNat (signe.length + pre.length + max d.prec.toNat cs.length) := by
  unfold disposer
  dsimp only
  split
  · simp
    omega
  · split
    · simp
      omega
    · simp
      omega

theorem entier_eq_some {x y : Int} (fin : entier x = some y) : y = x := by
  unfold entier at fin
  split at fin
  · exact (Option.some.inj fin).symm
  · cases fin

theorem repeter_eq_some {c : Octet} {n m : Int} {l : List Octet} (fin : Kernel.Format.repeter c n = some (l, m)) :
    l = List.replicate n.toNat c ∧ m = min n 0 - 1 := by
  obtain ⟨reste, dedans, fin⟩ := Option.bind_eq_some_iff.mp fin
  cases fin
  exact ⟨rfl, entier_eq_some dedans⟩

theorem repeterSi_eq_some {condition : Prop} [Decidable condition] {c : Octet} {n m : Int} {l : List Octet}
    (fin : repeterSi condition c n = some (l, m)) :
    l = List.replicate (if condition then n.toNat else 0) c ∧ m = if condition then min n 0 - 1 else n := by
  unfold repeterSi at fin
  split at fin
  · next vraie => simpa [vraie] using repeter_eq_some fin
  · next fausse =>
      cases fin
      simp [fausse]

/-- The characters of the sign. -/
def signeDe (signChar : Octet) : List Octet := if signChar ≠ 0 then [signChar] else []

theorem printnumBase_eq_some {u : Entier} (fin : printnumBase u base = some texte) :
    2 ≤ base ∧ base ≤ 16 ∧ texte = printnum u base := by
  unfold printnumBase at fin
  split at fin
  · cases fin
  · cases fin
    exact ⟨by omega, by omega, rfl⟩

theorem printNum_disposer {signChar : Octet} {u : Entier} (marge : d.padc = 0x20 ∨ d.padc = 0x30)
    (fin : printNum d signChar u base = some texte) :
    2 ≤ base ∧ base ≤ 16 ∧
      texte = disposer d (signeDe signChar) (prefixe d.altfmt u base) (printnum u base) := by
  obtain ⟨buf, bufDe, fin⟩ := Option.bind_eq_some_iff.mp fin
  obtain ⟨prec, precDe, fin⟩ := Option.bind_eq_some_iff.mp fin
  obtain ⟨l₁, l₁De, fin⟩ := Option.bind_eq_some_iff.mp fin
  obtain ⟨l₂, l₂De, fin⟩ := Option.bind_eq_some_iff.mp fin
  obtain ⟨l₃, l₃De, fin⟩ := Option.bind_eq_some_iff.mp fin
  obtain ⟨l₄, l₄De, fin⟩ := Option.bind_eq_some_iff.mp fin
  obtain ⟨⟨blancs, l₅⟩, blancsDe, fin⟩ := Option.bind_eq_some_iff.mp fin
  obtain ⟨⟨zeros, p⟩, zerosDe, fin⟩ := Option.bind_eq_some_iff.mp fin
  obtain ⟨⟨zeros', l₆⟩, zerosDe', fin⟩ := Option.bind_eq_some_iff.mp fin
  obtain ⟨⟨apres, l₇⟩, apresDe, fin⟩ := Option.bind_eq_some_iff.mp fin
  cases fin
  obtain ⟨bas, haut, rfl⟩ := printnumBase_eq_some bufDe
  refine ⟨bas, haut, ?_⟩
  obtain ⟨rfl, rfl⟩ := repeterSi_eq_some blancsDe
  obtain ⟨rfl, -⟩ := repeter_eq_some zerosDe
  obtain ⟨rfl, rfl⟩ := repeterSi_eq_some zerosDe'
  obtain ⟨rfl, -⟩ := repeterSi_eq_some apresDe
  obtain rfl := entier_eq_some precDe
  have reste := entier_eq_some l₄De
  rw [entier_eq_some l₃De, entier_eq_some l₂De, entier_eq_some l₁De] at reste
  unfold disposer signeDe
  dsimp only
  generalize (if signChar ≠ 0 then [signChar] else []) = signe at reste ⊢
  generalize prefixe d.altfmt u base = pre at reste ⊢
  generalize printnum u base = cs at reste ⊢
  have largeur : l₄.toNat =
      (d.length - (signe.length + pre.length + (d.prec - cs.length).toNat + cs.length : Nat)).toNat := by
    omega
  rw [← largeur]
  rcases marge with blanc | zero
  · rw [blanc, if_neg (show ¬ (0x20 : Octet) = 0x30 from by decide), if_neg (show ¬ (0x20 : Octet) = 0x30 from by decide),
      if_neg (show ¬ (0x20 : Octet) = 0x30 from by decide)]
    cases d.ladjust
    · simp
    · simp
  · have epuise : (min l₄ 0 - 1).toNat = 0 := by omega
    rw [zero]
    cases d.ladjust
    · simp
    · simp [epuise]

structure Lue (d : Directive) : Prop where
  padc : d.padc = 0x20 ∨ d.padc = 0x30
  plusSign : d.plusSign = 0 ∨ d.plusSign = 0x20 ∨ d.plusSign = 0x2b

theorem lireDrapeaux_lue (lue : Lue d) (fmt : List Octet) : Lue (lireDrapeaux d fmt).1 := by
  induction fmt generalizing d with
  | nil => exact lue
  | cons c fmt ih =>
      rw [lireDrapeaux]
      split
      · exact ih ⟨lue.padc, lue.plusSign⟩
      · split
        · exact ih ⟨lue.padc, lue.plusSign⟩
        · split
          · exact ih ⟨lue.padc, .inr (.inr rfl)⟩
          · split
            · split
              · exact ih ⟨lue.padc, .inr (.inl rfl)⟩
              · exact ih lue
            · exact lue

section Parametres

variable {d' : Directive} {fmt fmt' : List Octet} {args args' : List Argument}

theorem lireLargeur_lue (lue : Lue d) (fin : lireLargeur d fmt args = some (d', fmt', args')) : Lue d' := by
  unfold lireLargeur at fin
  split at fin
  · cases fin
    exact lue
  · split at fin
    · obtain ⟨⟨length, reste⟩, -, fin⟩ := Option.bind_eq_some_iff.mp fin
      cases fin
      exact ⟨lue.padc, lue.plusSign⟩
    · split at fin
      · obtain ⟨⟨v, reste⟩, -, fin⟩ := Option.bind_eq_some_iff.mp fin
        dsimp only at fin
        split at fin
        · obtain ⟨length, -, fin⟩ := Option.bind_eq_some_iff.mp fin
          cases fin
          exact ⟨lue.padc, lue.plusSign⟩
        · cases fin
          exact ⟨lue.padc, lue.plusSign⟩
      · cases fin
        exact lue

theorem lirePrec_lue (lue : Lue d) (fin : lirePrec d fmt args = some (d', fmt', args')) : Lue d' := by
  unfold lirePrec at fin
  split at fin
  · cases fin
    exact lue
  · split at fin
    · obtain ⟨⟨prec, reste⟩, -, fin⟩ := Option.bind_eq_some_iff.mp fin
      cases fin
      exact ⟨lue.padc, lue.plusSign⟩
    · split at fin
      · obtain ⟨⟨v, reste⟩, -, fin⟩ := Option.bind_eq_some_iff.mp fin
        cases fin
        exact ⟨lue.padc, lue.plusSign⟩
      · cases fin
        exact lue

theorem lireZero_lue (lue : Lue d) (fmt : List Octet) : Lue (lireZero d fmt).1 := by
  unfold lireZero
  split
  · exact ⟨.inr rfl, lue.plusSign⟩
  · exact lue

theorem lirePoint_lue (lue : Lue d) (fin : lirePoint d fmt args = some (d', fmt', args')) : Lue d' := by
  unfold lirePoint at fin
  split at fin
  · exact lirePrec_lue lue fin
  · cases fin
    exact lue

def entete (fmt : List Octet) : Directive × List Octet :=
  lireZero (lireDrapeaux initiale fmt).1 (lireDrapeaux initiale fmt).2

theorem lireDirective_eq (fmt : List Octet) (args : List Argument) : lireDirective fmt args =
    (lireLargeur (entete fmt).1 (entete fmt).2 args).bind fun x =>
      (lirePoint x.1 x.2.1 x.2.2).bind fun y => some (y.1, lireLong y.2.1, y.2.2) := rfl

theorem lireDirective_lue (fin : lireDirective fmt args = some (d', fmt', args')) : Lue d' := by
  rw [lireDirective_eq] at fin
  obtain ⟨⟨d₁, fmt₁, args₁⟩, largeur, fin⟩ := Option.bind_eq_some_iff.mp fin
  obtain ⟨⟨d₂, fmt₂, args₂⟩, precision, fin⟩ := Option.bind_eq_some_iff.mp fin
  cases fin
  have drapeaux := lireDrapeaux_lue (d := initiale) ⟨.inl rfl, .inl rfl⟩ fmt
  exact lirePoint_lue (lireLargeur_lue (lireZero_lue drapeaux _) largeur) precision

end Parametres

section Relecture

open Invariant.Numeral

theorem disposer_split (d : Directive) (signe pre cs : List Octet) : ∃ avant zeros apres,
    disposer d signe pre cs = List.replicate avant 0x20 ++ (signe ++ (pre ++ (List.replicate zeros 0x30 ++ cs ++
      List.replicate apres 0x20))) := by
  unfold disposer
  dsimp only
  generalize (d.prec - cs.length).toNat = zeros
  generalize (d.length - (signe.length + pre.length + zeros + cs.length : Nat)).toNat = marge
  split
  · exact ⟨0, zeros + marge, 0, by simp⟩
  · split
    · exact ⟨0, zeros, marge, by simp⟩
    · exact ⟨marge, zeros, 0, by simp⟩

theorem nombre_zeros (bas : 2 ≤ base) (haut : base ≤ 16) {pre : List Octet} (u : Entier) (zeros : Nat)
    (prefixe : pre = [] ∨ base = 16 ∧ pre = [0x30, 0x78]) :
    Nombre base pre (List.replicate zeros 0x30 ++ printnum u base) (List.replicate zeros 0 ++ numeral base u.toNat) where
  deux := bas
  petite := haut
  prefixe := prefixe
  lus := by
    have zero : chiffre base 0x30 = some 0 := chiffre_digs (d := 0) haut (by omega)
    rw [List.map_append, List.map_append, printnum_eq bas, chiffres_digs haut fun d mem => numeral_lt bas mem,
      List.map_replicate, List.map_replicate, zero]
  un := by
    rw [printnum_eq bas]
    simp [numeral]

theorem nombre_printnum (bas : 2 ≤ base) (haut : base ≤ 16) (altfmt : Bool) (u : Entier) (zeros : Nat) :
    ∃ pre cs ds, prefixe altfmt u base ++ (List.replicate zeros 0x30 ++ printnum u base) = pre ++ cs ∧
      Nombre base pre cs ds ∧ BitVec.ofNat 32 (value base ds) = u := by
  have lu : ∀ zeros, BitVec.ofNat 32 (value base (List.replicate zeros 0 ++ numeral base u.toNat)) = u := by
    intro zeros
    rw [value_zeros, value_numeral, BitVec.ofNat_toNat, BitVec.setWidth_eq]
  unfold prefixe
  split
  · split
    · exact ⟨[], _, _, by rw [List.nil_append]; rfl, nombre_zeros bas haut u (zeros + 1) (.inl rfl), lu _⟩
    · split
      · next seize => exact ⟨_, _, _, rfl, nombre_zeros bas haut u zeros (.inr ⟨seize, rfl⟩), lu _⟩
      · exact ⟨_, _, _, rfl, nombre_zeros bas haut u zeros (.inl rfl), lu _⟩
  · exact ⟨_, _, _, rfl, nombre_zeros bas haut u zeros (.inl rfl), lu _⟩

theorem termine_blancs {suite : List Octet} (petite : base ≤ 16) (fin : Termine base suite) (apres : Nat) :
    Termine base (List.replicate apres 0x20 ++ suite) := by
  cases apres with
  | zero => exact fin
  | succ apres =>
      intro c mem
      obtain rfl : 0x20 = c := Option.some.inj mem
      refine ⟨?_, by decide, by decide⟩
      rcases lu : chiffre base 0x20 with _ | n
      · rfl
      · exact absurd (chiffre_lettre petite lu).1 (by decide)

theorem strtoul_disposer (bas : 2 ≤ base) (haut : base ≤ 16) (d : Directive) (u : Entier) {suite : List Octet}
    (fin : Termine base suite) : ∃ lus,
      strtoul (disposer d [] (prefixe d.altfmt u base) (printnum u base) ++ suite) base = (u, lus) := by
  obtain ⟨avant, zeros, apres, split⟩ := disposer_split d [] (prefixe d.altfmt u base) (printnum u base)
  obtain ⟨pre, cs, ds, texte, nombre, lu⟩ := nombre_printnum bas haut d.altfmt u zeros
  have blancs : ∀ c ∈ List.replicate avant (0x20 : Octet), isspace c = true := by
    intro c mem
    rw [List.eq_of_mem_replicate mem]
    rfl
  have resultat := strtoul_eq nombre blancs (termine_blancs haut fin apres)
  rw [← List.append_assoc pre, ← texte, lu] at resultat
  refine ⟨_, Eq.trans ?_ resultat⟩
  rw [split]
  simp

theorem strtol_disposer (bas : 2 ≤ base) (haut : base ≤ 16) (d : Directive) (u : Entier) {signChar : Octet}
    (signes : signChar = 0 ∨ signChar = 0x20 ∨ signChar = 0x2b ∨ signChar = 0x2d) {suite : List Octet}
    (fin : Termine base suite) : ∃ lus,
      strtol (disposer d (signeDe signChar) (prefixe d.altfmt u base) (printnum u base) ++ suite) base =
        (if signChar = 0x2b then 0 else if signChar = 0x2d then -u else u, lus) := by
  obtain ⟨avant, zeros, apres, split⟩ := disposer_split d (signeDe signChar) (prefixe d.altfmt u base) (printnum u base)
  obtain ⟨pre, cs, ds, texte, nombre, lu⟩ := nombre_printnum bas haut d.altfmt u zeros
  have blancs : ∀ n, ∀ c ∈ List.replicate n (0x20 : Octet), isspace c = true := by
    intro n c mem
    rw [List.eq_of_mem_replicate mem]
    rfl
  have termine := termine_blancs haut fin apres
  rw [split]
  rcases signes with rfl | rfl | rfl | rfl
  · have resultat := strtol_eq nombre (blancs avant) (.inl rfl) termine
    rw [← List.append_assoc pre, ← texte, lu] at resultat
    refine ⟨_, Eq.trans ?_ (resultat.trans rfl)⟩
    simp [signeDe]
  · have resultat := strtol_eq nombre (blancs (avant + 1)) (.inl rfl) termine
    rw [← List.append_assoc pre, ← texte, lu] at resultat
    refine ⟨_, Eq.trans ?_ (resultat.trans rfl)⟩
    simp [signeDe, List.replicate_succ']
  · have resultat : strtol (List.replicate avant 0x20 ++ 0x2b :: (prefixe d.altfmt u base ++
        (List.replicate zeros 0x30 ++ printnum u base ++ List.replicate apres 0x20) ++ suite)) base = _ :=
      strtol_plus bas haut (blancs avant)
    refine ⟨_, Eq.trans ?_ (resultat.trans rfl)⟩
    simp [signeDe]
  · have resultat := strtol_eq nombre (blancs avant) (.inr rfl) termine
    rw [← List.append_assoc pre, ← texte, lu] at resultat
    refine ⟨_, Eq.trans ?_ (resultat.trans rfl)⟩
    simp [signeDe]

end Relecture

section Suites

variable {d' : Directive} {fmt fmt' : List Octet} {args args' : List Argument} {v n : Int}

theorem lireDrapeaux_suite (d : Directive) (fmt suite : List Octet) : (lireDrapeaux d fmt).2 <:+ fmt ∧
    ((lireDrapeaux d fmt).2 ≠ [] → lireDrapeaux d (fmt ++ suite) =
      ((lireDrapeaux d fmt).1, (lireDrapeaux d fmt).2 ++ suite)) := by
  induction fmt generalizing d with
  | nil => exact ⟨List.suffix_rfl, fun vide => absurd rfl vide⟩
  | cons c fmt ih =>
      rw [List.cons_append, lireDrapeaux, lireDrapeaux]
      split
      · exact ⟨(ih _).1.trans (List.suffix_cons ..), (ih _).2⟩
      · split
        · exact ⟨(ih _).1.trans (List.suffix_cons ..), (ih _).2⟩
        · split
          · exact ⟨(ih _).1.trans (List.suffix_cons ..), (ih _).2⟩
          · split
            · exact ⟨(ih _).1.trans (List.suffix_cons ..), (ih _).2⟩
            · exact ⟨List.suffix_rfl, fun _ => rfl⟩

theorem lireZero_suite (d : Directive) (fmt suite : List Octet) : (lireZero d fmt).2 <:+ fmt ∧
    (fmt ≠ [] → lireZero d (fmt ++ suite) = ((lireZero d fmt).1, (lireZero d fmt).2 ++ suite)) := by
  cases fmt with
  | nil => exact ⟨List.suffix_rfl, fun vide => absurd rfl vide⟩
  | cons c fmt =>
      rw [List.cons_append, lireZero, lireZero, List.head?_cons, List.head?_cons]
      split
      · exact ⟨List.suffix_cons .., fun _ => rfl⟩
      · exact ⟨List.suffix_rfl, fun _ => rfl⟩

theorem lireEntier_suite (suite : List Octet) (fin : lireEntier v fmt = some (n, fmt')) : fmt' <:+ fmt ∧
    (fmt' ≠ [] → lireEntier v (fmt ++ suite) = some (n, fmt' ++ suite)) := by
  induction fmt generalizing v with
  | nil =>
      cases fin
      exact ⟨List.suffix_rfl, fun vide => absurd rfl vide⟩
  | cons c fmt ih =>
      rw [lireEntier] at fin
      rw [List.cons_append, lireEntier]
      split at fin
      · next chiffre =>
          obtain ⟨w, entre, fin⟩ := Option.bind_eq_some_iff.mp fin
          rw [if_pos chiffre, entre]
          exact ⟨(ih fin).1.trans (List.suffix_cons ..), (ih fin).2⟩
      · next autre =>
          cases fin
          rw [if_neg autre]
          exact ⟨List.suffix_rfl, fun _ => rfl⟩

theorem lireLargeur_suite (suite : List Octet) (fin : lireLargeur d fmt args = some (d', fmt', args')) : fmt' <:+ fmt ∧
    (fmt' ≠ [] → lireLargeur d (fmt ++ suite) args = some (d', fmt' ++ suite, args')) := by
  cases fmt with
  | nil =>
      cases fin
      exact ⟨List.suffix_rfl, fun vide => absurd rfl vide⟩
  | cons c fmt =>
      rw [lireLargeur] at fin
      rw [List.cons_append, lireLargeur]
      split at fin
      · next chiffre =>
          obtain ⟨⟨length, reste⟩, entre, fin⟩ := Option.bind_eq_some_iff.mp fin
          cases fin
          obtain ⟨fini, ajout⟩ := lireEntier_suite suite entre
          refine ⟨fini, fun encore => ?_⟩
          rw [if_pos chiffre, ← List.cons_append, ajout encore]
          rfl
      · next autre =>
          rw [if_neg autre]
          split at fin
          · next etoile =>
              rw [if_pos etoile]
              obtain ⟨⟨w, reste⟩, arg, fin⟩ := Option.bind_eq_some_iff.mp fin
              rw [arg]
              dsimp only at fin
              split at fin
              · next negative =>
                  obtain ⟨length, entre, fin⟩ := Option.bind_eq_some_iff.mp fin
                  cases fin
                  exact ⟨List.suffix_cons .., fun _ => by simp [negative, entre]⟩
              · next positive =>
                  cases fin
                  exact ⟨List.suffix_cons .., fun _ => by simp [positive]⟩
          · next autre' =>
              cases fin
              rw [if_neg autre']
              exact ⟨List.suffix_rfl, fun _ => rfl⟩

theorem lirePrec_suite (suite : List Octet) (fin : lirePrec d fmt args = some (d', fmt', args')) : fmt' <:+ fmt ∧
    (fmt' ≠ [] → lirePrec d (fmt ++ suite) args = some (d', fmt' ++ suite, args')) := by
  cases fmt with
  | nil =>
      cases fin
      exact ⟨List.suffix_rfl, fun vide => absurd rfl vide⟩
  | cons c fmt =>
      rw [lirePrec] at fin
      rw [List.cons_append, lirePrec]
      split at fin
      · next chiffre =>
          obtain ⟨⟨prec, reste⟩, entre, fin⟩ := Option.bind_eq_some_iff.mp fin
          cases fin
          obtain ⟨fini, ajout⟩ := lireEntier_suite suite entre
          refine ⟨fini, fun encore => ?_⟩
          rw [if_pos chiffre, ← List.cons_append, ajout encore]
          rfl
      · next autre =>
          rw [if_neg autre]
          split at fin
          · next etoile =>
              rw [if_pos etoile]
              obtain ⟨⟨w, reste⟩, arg, fin⟩ := Option.bind_eq_some_iff.mp fin
              rw [arg]
              cases fin
              exact ⟨List.suffix_cons .., fun _ => rfl⟩
          · next autre' =>
              cases fin
              rw [if_neg autre']
              exact ⟨List.suffix_rfl, fun _ => rfl⟩

theorem lirePoint_suite (suite : List Octet) (fin : lirePoint d fmt args = some (d', fmt', args')) : fmt' <:+ fmt ∧
    (fmt' ≠ [] → lirePoint d (fmt ++ suite) args = some (d', fmt' ++ suite, args')) := by
  cases fmt with
  | nil =>
      cases fin
      exact ⟨List.suffix_rfl, fun vide => absurd rfl vide⟩
  | cons c fmt =>
      rw [lirePoint, List.head?_cons] at fin
      rw [List.cons_append, lirePoint, List.head?_cons]
      split at fin
      · next point =>
          rw [if_pos point]
          obtain ⟨fini, ajout⟩ := lirePrec_suite suite fin
          exact ⟨fini.trans (List.suffix_cons ..), ajout⟩
      · next autre =>
          cases fin
          rw [if_neg autre]
          exact ⟨List.suffix_rfl, fun _ => rfl⟩

theorem lireLong_suite (fmt suite : List Octet) : lireLong fmt <:+ fmt ∧
    (lireLong fmt ≠ [] → lireLong (fmt ++ suite) = lireLong fmt ++ suite) := by
  cases fmt with
  | nil => exact ⟨List.suffix_rfl, fun vide => absurd rfl vide⟩
  | cons c fmt =>
      rw [List.cons_append, lireLong, lireLong, List.head?_cons, List.head?_cons]
      split
      · exact ⟨List.suffix_cons .., fun _ => rfl⟩
      · exact ⟨List.suffix_rfl, fun _ => rfl⟩

theorem entete_suite (fmt suite : List Octet) : (entete fmt).2 <:+ fmt ∧
    ((entete fmt).2 ≠ [] → entete (fmt ++ suite) = ((entete fmt).1, (entete fmt).2 ++ suite)) := by
  obtain ⟨fini₁, ajout₁⟩ := lireDrapeaux_suite initiale fmt suite
  obtain ⟨fini₂, ajout₂⟩ := lireZero_suite (lireDrapeaux initiale fmt).1 (lireDrapeaux initiale fmt).2 suite
  refine ⟨fini₂.trans fini₁, fun encore => ?_⟩
  have avant : (lireDrapeaux initiale fmt).2 ≠ [] := fun vide => encore (List.suffix_nil.mp (vide ▸ fini₂))
  rw [entete, ajout₁ avant]
  exact ajout₂ avant

/-- A directive takes characters at the start of the format, and is not changed by what follows its
conversion. -/
theorem lireDirective_suite (suite : List Octet) (fin : lireDirective fmt args = some (d', fmt', args')) : fmt' <:+ fmt ∧
    (fmt' ≠ [] → lireDirective (fmt ++ suite) args = some (d', fmt' ++ suite, args')) := by
  rw [lireDirective_eq] at fin
  obtain ⟨⟨d₁, fmt₁, args₁⟩, largeur, fin⟩ := Option.bind_eq_some_iff.mp fin
  obtain ⟨⟨d₂, fmt₂, args₂⟩, precision, fin⟩ := Option.bind_eq_some_iff.mp fin
  cases fin
  obtain ⟨fini, ajout⟩ := entete_suite fmt suite
  obtain ⟨fini₁, ajout₁⟩ := lireLargeur_suite suite largeur
  obtain ⟨fini₂, ajout₂⟩ := lirePoint_suite suite precision
  obtain ⟨fini₃, ajout₃⟩ := lireLong_suite fmt₂ suite
  refine ⟨fini₃.trans (fini₂.trans (fini₁.trans fini)), fun encore => ?_⟩
  have encore₂ : fmt₂ ≠ [] := fun vide => encore (List.suffix_nil.mp (vide ▸ fini₃))
  have encore₁ : fmt₁ ≠ [] := fun vide => encore₂ (List.suffix_nil.mp (vide ▸ fini₂))
  have encore₀ : (entete fmt).2 ≠ [] := fun vide => encore₁ (List.suffix_nil.mp (vide ▸ fini₁))
  rw [lireDirective_eq, ajout encore₀, ajout₁ encore₁, Option.bind_some, ajout₂ encore₂, Option.bind_some,
    ajout₃ encore]

end Suites

section Chaines

variable {prec n : Int} {p : List Octet}

theorem compter_eq (libre : 0 ∉ p) : compter prec n p = n + min p.length (prec - n).toNat := by
  induction p generalizing n with
  | nil => simp [compter]
  | cons c p ih =>
      rw [List.mem_cons, not_or] at libre
      rw [compter, List.length_cons]
      split
      · rw [ih libre.2]
        omega
      · next fini =>
          have plein : ¬ n < prec := fun place => fini ⟨Ne.symm libre.1, place⟩
          omega

theorem copier_eq (libre : 0 ∉ p) : copier prec n p =
    (p.take (prec - n).toNat,
      n + if (prec - n).toNat < p.length then ((prec - n).toNat + 1 : Int) else p.length) := by
  induction p generalizing n with
  | nil => simp [copier]
  | cons c p ih =>
      rw [List.mem_cons, not_or] at libre
      rw [copier, if_neg (Ne.symm libre.1)]
      split
      · next plein =>
          have zero : (prec - n).toNat = 0 := by omega
          rw [zero, List.take_zero, if_pos (by simp)]
          simp
      · next place =>
          obtain ⟨k, suivant, reste⟩ : ∃ k, (prec - n).toNat = k + 1 ∧ (prec - (n + 1)).toNat = k :=
            ⟨(prec - n).toNat - 1, by omega, by omega⟩
          rw [ih libre.2, suivant, reste, List.take_succ_cons, List.length_cons]
          refine Prod.ext rfl ?_
          dsimp only
          split <;> split <;> omega

theorem printChaine_length (d : Directive) (libre : 0 ∉ p) (precision : Int)
    (valeur : precision = if d.prec = -1 then 0x7fffffff else d.prec) :
    (printChaine d (some p)).length =
      max (min p.length precision.toNat)
        (d.length.toNat - if d.ladjust ∧ precision.toNat < p.length then 1 else 0) := by
  unfold printChaine
  dsimp only
  rw [← valeur, Option.getD_some, copier_eq libre, compter_eq libre, Int.sub_zero, Int.zero_add, Int.zero_add,
    List.length_append, List.length_append, apply_ite List.length, apply_ite List.length, List.length_replicate,
    List.length_replicate, List.length_nil, List.length_take]
  clear valeur
  by_cases coupee : precision.toNat < p.length
  · simp only [coupee, if_true, and_true]
    cases d.ladjust
    · simp only [Bool.false_eq_true, not_false_eq_true, and_true, and_false, if_false]
      split <;> omega
    · simp only [not_true_eq_false, and_true, and_false, if_false, if_true]
      split <;> omega
  · simp only [coupee, if_false, and_false]
    cases d.ladjust
    · simp only [Bool.false_eq_true, not_false_eq_true, and_true, and_false, if_false]
      split <;> omega
    · simp only [not_true_eq_false, and_true, and_false, if_false]
      split <;> omega

end Chaines

end ProjetSysteme.Invariant.Format
