/- Properties/Printing
   source: shared/doprnt.c, shared/sprintf.c, shared/strtol.c, shared/strtoul.c
   digest: Numbers printed and read back, the width of fields, and the end of the buffers. -/

import ProjetSysteme.Invariant.PrintfScreen
import ProjetSysteme.Invariant.Printing
import ProjetSysteme.Invariant.RegisterBits

set_option autoImplicit false
set_option relaxedAutoImplicit false

namespace ProjetSysteme.Properties.Printing

open Kernel Kernel.Format Invariant.Format Invariant.Numeral Library.Buffer
open Kernel.Numeral (Octet Entier strtoul strtol printnum chiffre)

variable {radix base : Nat} {d : Directive} {c : Octet} {fmt texte : List Octet} {args args' : List Argument}

/-- The base of a signed conversion. -/
def baseSignee (radix : Nat) (c : Octet) : Option Nat :=
  match c.toNat with
  | 0x64 | 0x69 | 0x44 => some 10
  | 0x7a | 0x5a => some 16
  | 0x72 | 0x52 => some radix
  | _ => none

/-- The base of an unsigned conversion; `%p` is not among them. -/
def baseNonSignee (radix : Nat) (c : Octet) : Option Nat :=
  match c.toNat with
  | 0x6f | 0x4f => some 8
  | 0x75 | 0x55 => some 10
  | 0x78 | 0x58 => some 16
  | 0x6e | 0x4e => some radix
  | _ => none

theorem convertir_signee (signee : baseSignee radix c = some base) :
    convertir radix d c args = printSigned d base args := by
  unfold baseSignee at signee
  unfold convertir
  split at signee
  all_goals first | cases signee; done | obtain rfl := Option.some.inj signee
  all_goals
    next lettre =>
      rw [lettre]
      rfl

theorem convertir_nonSignee (nonSignee : baseNonSignee radix c = some base) :
    convertir radix d c args = printUnsigned d base args := by
  unfold baseNonSignee at nonSignee
  unfold convertir
  split at nonSignee
  all_goals first | cases nonSignee; done | obtain rfl := Option.some.inj nonSignee
  all_goals
    next lettre =>
      rw [lettre]
      rfl

/-- The sign that `print_signed` prints, and the number after it. -/
def signeEtNombre (d : Directive) (n : Entier) : Octet × Entier :=
  if 0 ≤ n.toInt then (d.plusSign, n) else (0x2d, -n)

theorem printSigned_eq {n : Entier} : printSigned d base (.mot n :: args) =
    (printNum d (signeEtNombre d n).1 (signeEtNombre d n).2 base).map fun texte => (texte, args) := by
  unfold printSigned signeEtNombre
  dsimp only [Kernel.Format.vaArg, bind, Option.bind]
  split
  · cases printNum d d.plusSign n base <;> rfl
  · cases printNum d 0x2d (-n) base <;> rfl

theorem printUnsigned_eq {u : Entier} : printUnsigned d base (.mot u :: args) =
    (printNum d 0 u base).map fun texte => (texte, args) := by
  unfold printUnsigned
  dsimp only [Kernel.Format.vaArg, bind, Option.bind]
  cases printNum d 0 u base <;> rfl

/-- What a signed conversion prints is read by `strtol` as the number, unless the flag `+` prints a sign,
which `strtol` does not skip. -/
theorem signee_relue {n : Entier} (lue : Lue d) (imprime : printSigned d base (.mot n :: args) = some (texte, args'))
    {suite : List Octet} (fin : Termine base suite) : ∃ lus,
      strtol (texte ++ suite) base = (if d.plusSign = 0x2b ∧ 0 ≤ n.toInt then 0 else n, lus) := by
  rw [printSigned_eq, Option.map_eq_some_iff] at imprime
  obtain ⟨champ, imprime, same⟩ := imprime
  cases same
  obtain ⟨bas, haut, rfl⟩ := printNum_disposer lue.padc imprime
  have signes : (signeEtNombre d n).1 = 0 ∨ (signeEtNombre d n).1 = 0x20 ∨ (signeEtNombre d n).1 = 0x2b ∨
      (signeEtNombre d n).1 = 0x2d := by
    unfold signeEtNombre
    split
    · exact lue.plusSign.imp_right fun autre => autre.imp_right .inl
    · exact .inr (.inr (.inr rfl))
  obtain ⟨lus, relu⟩ := strtol_disposer bas haut d (signeEtNombre d n).2 signes fin
  refine ⟨lus, relu.trans ?_⟩
  congr 1
  unfold signeEtNombre
  by_cases positif : 0 ≤ n.toInt
  · rw [if_pos positif]
    by_cases plus : d.plusSign = 0x2b
    · simp [plus, positif]
    · have moins : d.plusSign ≠ 0x2d := by
        rintro moins
        have possibles := lue.plusSign
        rw [moins] at possibles
        revert possibles
        decide
      rw [if_neg plus, if_neg moins, if_neg fun both => plus both.1]
  · rw [if_neg positif]
    simp [positif]

theorem nonSignee_relue {u : Entier} (lue : Lue d)
    (imprime : printUnsigned d base (.mot u :: args) = some (texte, args')) {suite : List Octet}
    (fin : Termine base suite) : ∃ lus, strtoul (texte ++ suite) base = (u, lus) := by
  rw [printUnsigned_eq, Option.map_eq_some_iff] at imprime
  obtain ⟨champ, imprime, same⟩ := imprime
  cases same
  obtain ⟨bas, haut, rfl⟩ := printNum_disposer lue.padc imprime
  exact strtoul_disposer bas haut d u fin

section Sprintf

variable {s s' : Nat → Octet} {k : Nat}

theorem vsprintf_chaine (ecrit : vsprintf s fmt args = some (s', k)) : ∃ texte,
    doprnt 0 fmt args = some texte ∧ (List.range (k + 1)).map s' = texte ++ [0] := by
  rw [vsprintf, vsnprintf_eq, Option.map_eq_some_iff] at ecrit
  obtain ⟨texte, imprime, same⟩ := ecrit
  refine ⟨texte, imprime, ?_⟩
  have longueur : stockes sprintfUnlimited texte = texte.length := if_pos rfl
  rw [longueur, List.take_length] at same
  cases same
  refine List.ext_getElem (by simp) fun i avant avant' => ?_
  rw [List.getElem_map, List.getElem_range]
  rw [List.length_append, List.length_singleton] at avant'
  rcases Nat.lt_succ_iff_lt_or_eq.mp avant' with dedans | rfl
  · rw [Function.update_of_ne (by omega), List.getElem_append_left dedans]
    have lu := store_start (b := s) dedans
    rw [List.getElem?_eq_getElem dedans] at lu
    exact (Option.some.inj lu).symm
  · simp

theorem termine_nul (base : Nat) (suite : List Octet) : Termine base (0 :: suite) := by
  rintro c ⟨⟩
  refine ⟨?_, by decide, by decide⟩
  unfold chiffre
  simp

/-- A number that `vsprintf` prints with one signed directive, whatever its flags, width and precision, is what
`strtol` reads in the string in the base of the directive, except that it reads 0 after the sign that the
flag `+` prints. -/
theorem sprintf_strtol {n : Entier} (libre : 0 ∉ fmt) (directive : lireDirective fmt args = some (d, [c], .mot n :: args'))
    (signee : baseSignee 0 c = some base) (ecrit : vsprintf s (0x25 :: (fmt ++ [0])) args = some (s', k)) : ∃ lus,
      strtol ((List.range (k + 1)).map s') base = (if d.plusSign = 0x2b ∧ 0 ≤ n.toInt then 0 else n, lus) := by
  obtain ⟨texte, imprime, chaine⟩ := vsprintf_chaine ecrit
  rw [doprnt_directive libre directive, convertir_signee signee, Option.map_eq_some_iff] at imprime
  obtain ⟨⟨_, args₂⟩, imprime, rfl⟩ := imprime
  rw [chaine]
  exact signee_relue (lireDirective_lue directive) imprime (termine_nul base [])

theorem sprintf_strtol_exemple : ∃ (s' : Nat → Octet) (k lus : Nat),
    vsprintf (fun _ => 0) (0x25 :: ([0x36, 0x2e, 0x33, 0x64] ++ [0])) [.mot (-42)] = some (s', k) ∧
      strtol ((List.range (k + 1)).map s') 10 = (-42, lus) := by
  rcases ecrit : vsprintf (fun _ => 0) (0x25 :: ([0x36, 0x2e, 0x33, 0x64] ++ [0])) [.mot (-42)] with _ | ⟨s', k⟩
  · have present : (vsprintf (fun _ => 0) (0x25 :: ([0x36, 0x2e, 0x33, 0x64] ++ [0])) [.mot (-42)]).isSome = true := by
      decide +kernel
    rw [ecrit] at present
    cases present
  · obtain ⟨lus, relu⟩ := sprintf_strtol (d := ⟨6, 3, false, 0x20, 0, false⟩) (c := 0x64) (n := -42) (by decide) rfl rfl
      ecrit
    exact ⟨s', k, lus, rfl, relu⟩

/-- The same with an unsigned directive and `strtoul`. -/
theorem sprintf_strtoul {u : Entier} (libre : 0 ∉ fmt) (directive : lireDirective fmt args = some (d, [c], .mot u :: args'))
    (nonSignee : baseNonSignee 0 c = some base) (ecrit : vsprintf s (0x25 :: (fmt ++ [0])) args = some (s', k)) :
    ∃ lus, strtoul ((List.range (k + 1)).map s') base = (u, lus) := by
  obtain ⟨texte, imprime, chaine⟩ := vsprintf_chaine ecrit
  rw [doprnt_directive libre directive, convertir_nonSignee nonSignee, Option.map_eq_some_iff] at imprime
  obtain ⟨⟨_, args₂⟩, imprime, rfl⟩ := imprime
  rw [chaine]
  exact nonSignee_relue (lireDirective_lue directive) imprime (termine_nul base [])

theorem sprintf_strtoul_exemple : ∃ (s' : Nat → Octet) (k lus : Nat),
    vsprintf (fun _ => 0) (0x25 :: ([0x23, 0x2d, 0x36, 0x78] ++ [0])) [.mot 255] = some (s', k) ∧
      strtoul ((List.range (k + 1)).map s') 16 = (255, lus) := by
  rcases ecrit : vsprintf (fun _ => 0) (0x25 :: ([0x23, 0x2d, 0x36, 0x78] ++ [0])) [.mot 255] with _ | ⟨s', k⟩
  · have present : (vsprintf (fun _ => 0) (0x25 :: ([0x23, 0x2d, 0x36, 0x78] ++ [0])) [.mot 255]).isSome = true := by
      decide +kernel
    rw [ecrit] at present
    cases present
  · obtain ⟨lus, relu⟩ := sprintf_strtoul (d := ⟨6, -1, true, 0x20, 0, true⟩) (c := 0x78) (u := 255) (by decide) rfl rfl
      ecrit
    exact ⟨s', k, lus, rfl, relu⟩

/-- `vsnprintf` stores the text up to `size` characters, and then the terminator: when the text has `size`
characters or more, it is stored in the byte after the `size` bytes of the buffer. The result is the number of
characters stored. The size 0xFFFFFFF is no limit. -/
theorem vsnprintf_deborde_iff (s : Nat → Octet) (size : Nat) (fmt : List Octet) (args : List Argument) :
    ∀ s' n, vsnprintf s size fmt args = some (s', n) ↔ ∃ texte, doprnt 0 fmt args = some texte ∧
      (n = if size = sprintfUnlimited then texte.length else min texte.length size) ∧
      (∀ i, i < n → texte[i]? = some (s' i)) ∧ s' n = 0 ∧ ∀ i, n < i → s' i = s i := by
  intro s' n
  rw [vsnprintf_eq, Option.map_eq_some_iff]
  refine exists_congr fun texte => and_congr_right fun _ => ?_
  constructor
  · intro same
    cases same
    refine ⟨rfl, fun i avant => ?_, Function.update_self .., fun i apres => ?_⟩
    · have dedans : i < (texte.take (stockes size texte)).length := by
        rw [List.length_take]
        exact lt_min avant (avant.trans_le stockes_le)
      rw [Function.update_of_ne avant.ne, ← store_start dedans, List.getElem?_take, if_pos avant]
    · rw [Function.update_of_ne apres.ne', store_after]
      rw [List.length_take, Nat.zero_add]
      exact (Nat.min_le_left ..).trans apres.le
  · rintro ⟨rfl, dedans, fin, dehors⟩
    refine Prod.ext (funext fun i => ?_) rfl
    change Function.update (store s 0 (texte.take (stockes size texte))) (stockes size texte) 0 i = s' i
    have longueur : (texte.take (stockes size texte)).length = stockes size texte := by
      rw [List.length_take]
      exact Nat.min_eq_left stockes_le
    rcases Nat.lt_trichotomy i (stockes size texte) with avant | rfl | apres
    · have lu := store_start (b := s) (d := texte.take (stockes size texte)) (avant.trans_eq longueur.symm)
      rw [List.getElem?_take, if_pos avant, dedans i avant] at lu
      rw [Function.update_of_ne avant.ne]
      exact (Option.some.inj lu).symm
    · rw [Function.update_self]
      exact fin.symm
    · rw [Function.update_of_ne apres.ne', store_after (by omega)]
      exact (dehors i apres).symm

end Sprintf

section Champs

/-- A directive prints a field of its width, or as many characters as its number needs: the sign, the prefix and
the digits, at least as many as the precision. A string has as many characters as the width, the string or
the precision say, but one less than the width when it is left adjusted and the precision cuts it. The width
is not looked at by `%c`, which prints one character, nor by `%p`, whose number is eight characters wide. -/
theorem champ_longueur (libre : 0 ∉ fmt) {args₁ : List Argument} (directive : lireDirective fmt args = some (d, [c], args₁))
    (imprime : doprnt radix (0x25 :: (fmt ++ [0])) args = some texte) :
    (∀ n, args₁ = .mot n :: args' → baseSignee radix c = some base →
      texte.length = max d.length.toNat ((signeDe (signeEtNombre d n).1).length +
        (prefixe d.altfmt (signeEtNombre d n).2 base).length +
        max d.prec.toNat (printnum (signeEtNombre d n).2 base).length)) ∧
    (∀ u, args₁ = .mot u :: args' → baseNonSignee radix c = some base →
      texte.length = max d.length.toNat ((prefixe d.altfmt u base).length + max d.prec.toNat (printnum u base).length)) ∧
    (∀ p, args₁ = .chaine (some p) :: args' → c = 0x73 → 0 ∉ p → ∀ precision : Int,
      (precision = if d.prec = -1 then 0x7fffffff else d.prec) →
      texte.length = max (min p.length precision.toNat)
        (d.length.toNat - if d.ladjust ∧ precision.toNat < p.length then 1 else 0)) ∧
    (∀ v, args₁ = .mot v :: args' → c = 0x63 → texte.length = 1) ∧
    (∀ u, args₁ = .mot u :: args' → c = 0x70 →
      texte.length = 2 + max 8 ((prefixe d.altfmt u 16).length + max d.prec.toNat (printnum u 16).length)) := by
  have lue := lireDirective_lue directive
  rw [doprnt_directive libre directive, Option.map_eq_some_iff] at imprime
  obtain ⟨⟨_, args₂⟩, convertie, rfl⟩ := imprime
  refine ⟨?_, ?_, ?_, ?_, ?_⟩
  · rintro n rfl signee
    rw [convertir_signee signee, printSigned_eq, Option.map_eq_some_iff] at convertie
    obtain ⟨champ, imprime, same⟩ := convertie
    cases same
    obtain ⟨-, -, rfl⟩ := printNum_disposer lue.padc imprime
    exact disposer_length
  · rintro u rfl nonSignee
    rw [convertir_nonSignee nonSignee, printUnsigned_eq, Option.map_eq_some_iff] at convertie
    obtain ⟨champ, imprime, same⟩ := convertie
    cases same
    obtain ⟨-, -, rfl⟩ := printNum_disposer lue.padc imprime
    rw [disposer_length]
    simp [signeDe]
  · rintro p rfl rfl libre' precision valeur
    cases convertie
    exact printChaine_length d libre' precision valeur
  · rintro v rfl rfl
    cases convertie
    rfl
  · rintro u rfl rfl
    obtain ⟨⟨nombre, args₃⟩, imprime, same⟩ := Option.bind_eq_some_iff.mp convertie
    cases same
    rw [printUnsigned_eq, Option.map_eq_some_iff] at imprime
    obtain ⟨champ, imprime, same⟩ := imprime
    cases same
    obtain ⟨-, -, rfl⟩ := printNum_disposer (.inr rfl) imprime
    rw [List.length_cons, List.length_cons, disposer_length]
    simp [signeDe]
    omega

theorem champ_longueur_exemple : ∃ texte, doprnt 0 (0x25 :: ([0x2d, 0x35, 0x2e, 0x32, 0x73] ++ [0]))
    [.chaine (some [0x61, 0x62, 0x63])] = some texte ∧ texte.length = 4 := by
  have champ := @champ_longueur 0 10 ⟨5, 2, true, 0x20, 0, false⟩ 0x73 [0x2d, 0x35, 0x2e, 0x32, 0x73] _
    [.chaine (some [0x61, 0x62, 0x63])] [] (by decide) _ rfl rfl
  exact ⟨_, rfl, (champ.2.2.1 _ rfl rfl (by decide) 2 rfl).trans (by decide)⟩

end Champs

/-- What a complete format prints comes before what the rest of the format prints with the arguments left. -/
theorem doprnt_compose (complet : Complet radix fmt args texte args') (libre : 0 ∉ fmt) (suite : List Octet) :
    doprnt radix (fmt ++ suite) args = (doprnt radix suite args').map (texte ++ ·) := complet.doprnt suite libre

theorem doprnt_compose_exemple : doprnt 0 ([0x25, 0x64] ++ [0x78, 0x25, 0x63]) [.mot 7, .mot 0x21] =
    some [0x37, 0x78, 0x21] := by
  have lue : lireDirective [0x64] [.mot 7, .mot 0x21] = some (initiale, [0x64], [.mot 7, .mot 0x21]) := rfl
  have complet : Complet 0 [0x25, 0x64] [.mot 7, .mot 0x21] ([0x37] ++ []) [.mot 0x21] := .directive lue rfl .fin
  rw [doprnt_compose complet (by decide)]
  decide

/-- The conversion `%b` of a register prints its value in the base of the string, and if it is not 0, between
angle brackets and separated by commas, the names of the bits that are set and the names and values of the
fields, in the order of the string. -/
theorem registre_decode {parties : List Partie} {u : Entier} (bas : 2 ≤ base) (haut : base ≤ 16)
    (justes : ∀ p ∈ parties, p.Juste) (libre : 0 ∉ fmt) (directive : lireDirective fmt args =
      some (d, [0x62], .mot u :: .chaine (some (BitVec.ofNat 8 base :: parties.flatMap Partie.code)) :: args')) :
    doprnt radix (0x25 :: (fmt ++ [0])) args = some (printnum u base ++
      if u = 0 ∨ parties.filterMap (Partie.texte u base) = [] then []
      else separer false (parties.filterMap (Partie.texte u base)) ++ [0x3e]) := by
  rw [doprnt_directive libre directive]
  exact (congrArg (Option.map Prod.fst) (printBits_eq bas haut justes args')).trans rfl

theorem registre_decode_exemple : doprnt 0 (0x25 :: ([0x62] ++ [0]))
    [.mot 0xb, .chaine (some [16, 4, 3, 0x46, 0x3d, 2, 0x42, 1, 0x41])] =
      some [0x62, 0x3c, 0x46, 0x3d, 0x32, 0x2c, 0x42, 0x2c, 0x41, 0x3e] := by
  have justes : ∀ p ∈ [Partie.champ 4 3 [0x46, 0x3d], .bit 2 [0x42], .bit 1 [0x41]], p.Juste := by
    simp only [List.mem_cons, List.not_mem_nil, or_false]
    rintro p (rfl | rfl | rfl)
    · exact ⟨⟨by decide, by decide, by decide⟩, by decide⟩
    · exact ⟨⟨by decide, by decide, by decide⟩, by decide⟩
    · exact ⟨⟨by decide, by decide, by decide⟩, by decide⟩
  have directive : lireDirective [0x62] [.mot 0xb, .chaine (some [16, 4, 3, 0x46, 0x3d, 2, 0x42, 1, 0x41])] =
      some (initiale, [0x62], .mot 0xb :: .chaine (some (BitVec.ofNat 8 16 ::
        [Partie.champ 4 3 [0x46, 0x3d], .bit 2 [0x42], .bit 1 [0x41]].flatMap Partie.code)) :: []) := rfl
  rw [registre_decode (by decide) (by decide) justes (by decide) directive]
  decide

/-- What `printf` shows on the screen is what one call of `console_putbytes` on the whole text shows, and the
cursor is at the same place; there are at most 128 characters a call. -/
theorem printf_ecran (e : Ecran) (buf : Nat → Octet) (fmt : List Octet) (args : List Argument) :
    (vprintf buf fmt args).isSome = (doprnt 0 fmt args).isSome ∧
    ∀ envois, vprintf buf fmt args = some envois → (∀ l ∈ envois, l.length ≤ printfBufmax) ∧
      ∃ texte, doprnt 0 fmt args = some texte ∧
        vue (envois.foldl (fun e l => consolePutbytes e (l.map Int8.ofBitVec)) e) =
          vue (consolePutbytes e (texte.map Int8.ofBitVec)) := by
  refine ⟨?_, fun envois envoye => ?_⟩
  · unfold vprintf
    cases doprnt 0 fmt args <;> rfl
  · obtain ⟨imprime, bornes⟩ := vprintf_envois envoye
    refine ⟨bornes, _, imprime, ?_⟩
    clear imprime bornes envoye
    induction envois using List.reverseRecOn with
    | nil => rfl
    | append_singleton envois l ih =>
        rw [List.foldl_append, List.foldl_cons, List.foldl_nil, List.flatten_append, List.flatten_singleton,
          List.map_append, consolePutbytes_vue ih]
        exact consolePutbytes_append ..

end ProjetSysteme.Properties.Printing
