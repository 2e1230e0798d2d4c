/- Properties/EarlyMm
   source: kernel/boot/early_mm.c
   digest: What the tables of the boot map, and with which protection. -/

import ProjetSysteme.Invariant.EarlyMm
import ProjetSysteme.Properties.Translation

set_option autoImplicit false
set_option relaxedAutoImplicit false

namespace ProjetSysteme.Properties.EarlyMm

open Kernel Kernel.EarlyMm Invariant Invariant.EarlyMm

variable {pgdir pgtab : Mot} {c : Nat → Mot} {mots : Mot → Mot}

private theorem depart (place : Place pgdir pgtab) (mots : Mot → Mot) :
    Projete pgdir pgtab (fun _ => 0) (remplir (effacer mots pgtab) pgdir (earlyMmFillPgdir pgtab 64)) := by
  have disjoints := place.disjoints
  have borne := place.borne
  constructor
  · intro i dans
    exact remplir_bloc _ _ ⟨i, dans⟩
  · intro p dans
    have hors : ∀ i : Fin 1024, caseTable pgtab p ≠ caseTable pgdir i := by
      intro i meme
      have egal := congrArg BitVec.toNat meme
      have indice := i.isLt
      rw [caseTable_toNat (by omega), caseTable_toNat (by omega)] at egal
      omega
    have place : (caseTable pgtab p - pgtab).toNat = 4 * p := by
      rw [caseTable, BitVec.add_comm, BitVec.add_sub_cancel, BitVec.toNat_ofNat]
      omega
    rw [remplir_hors _ _ hors, effacer, if_pos (by omega)]

private theorem mapRegions_projete (place : Place pgdir pgtab) (rs : List Region)
    (max : ∀ r ∈ rs, r.fin.toNat ≤ 2 ^ 28) (projete : Projete pgdir pgtab c mots) :
    ∃ mots', mapRegions pgdir rs mots = some mots' ∧
      Projete pgdir pgtab (rs.foldl (fun c r => ajouter r c) c) mots' := by
  induction rs generalizing c mots with
  | nil => exact ⟨mots, rfl, projete⟩
  | cons r reste ih =>
      have borne := max r (List.mem_cons_self ..)
      have assez : r.fin.toNat < r.debut.toNat + 4096 * 2 ^ 20 := by omega
      obtain ⟨mots₁, premier, projete₁⟩ :=
        @mapRegion_projete pgdir pgtab c mots place r.fin r.flags borne (2 ^ 20) r.debut projete assez
      obtain ⟨mots', suite, projete'⟩ := ih (fun r mem => max r (List.mem_cons_of_mem _ mem)) projete₁
      have finie : earlyMmMapRegion mots pgdir toursMax r.debut r.fin r.flags = some mots₁ := premier
      refine ⟨mots', ?_, projete'⟩
      rw [mapRegions, finie]
      exact suite

private theorem ajouter_derniere (rs : List Region) (c : Nat → Mot) (p : Nat) :
    rs.foldl (fun c r => ajouter r c) c p =
      match rs.reverse.find? fun r => Couvre r.debut r.fin p with
      | none => c p
      | some r => BitVec.ofNat 32 (4096 * p) ||| r.flags := by
  induction rs generalizing c with
  | nil => rfl
  | cons r reste ih =>
      rw [List.foldl_cons, ih, List.reverse_cons, List.find?_append]
      cases reste.reverse.find? fun r => Couvre r.debut r.fin p with
      | some r => rfl
      | none =>
          rw [ajouter]
          by_cases ici : Couvre r.debut r.fin p
          · simp [ici]
          · simp [ici]

private theorem traduire_projete (place : Place pgdir pgtab) (projete : Projete pgdir pgtab c mots) (v : Mot) :
    traduire mots pgdir v =
      if v.toNat < 2 ^ 28 then
        if c (v.toNat / 4096) &&& 1 = 0 then none
        else some (c (v.toNat / 4096) &&& 0xFFFFF000, c (v.toNat / 4096) &&& 2 != 0)
      else none := by
  have indice : (indexRepertoire v).val = v.toNat / 2 ^ 22 := by
    simp only [indexRepertoire, Nat.shiftRight_eq_div_pow]
  have table : (indexTable v).val = v.toNat / 2 ^ 12 % 1024 := by
    simp only [indexTable, Nat.shiftRight_eq_div_pow]
  rw [traduire, caseTable_repertoire, projete.repertoire _ (indexRepertoire v).isLt]
  by_cases bas : v.toNat < 2 ^ 28
  · have dans : (indexRepertoire v).val < 64 := by omega
    obtain ⟨presente, ecriture, adresse⟩ := entree_repertoire place dans (indexTable v)
    have page : 1024 * (indexRepertoire v).val + (indexTable v).val = v.toNat / 4096 := by omega
    have entree : ∀ masque : Mot, masque = kMskAdd →
        mots (caseTable (earlyMmFillPgdir pgtab 64 (indexRepertoire v) &&& masque) (indexTable v)) =
          c (v.toNat / 4096) := by
      rintro _ rfl
      rw [← projete.entrees _ (by omega), ← page]
      exact congrArg mots adresse
    rw [if_pos bas, if_neg presente]
    dsimp only
    have inscriptible : (earlyMmFillPgdir pgtab 64 (indexRepertoire v) &&& 2 != 0) = true := by
      rw [bne_iff_ne]
      exact ecriture
    rw [caseTable_page, entree, inscriptible, Bool.true_and]
    rfl
  · have dehors : ¬ (indexRepertoire v).val < 64 := by omega
    rw [if_neg bas, earlyMmFillPgdir, if_neg dehors]
    exact if_pos rfl

/-- The last call whose region covers the page of the address. -/
def derniereRegion (s : Symboles) (v : Mot) : Option Region :=
  (regions s).reverse.find? fun r => Couvre r.debut r.fin (v.toNat / 4096)

private theorem flag_entree (v f : Mot) {g : Mot} (bas : (0xFFFFF000 : Mot) &&& g = 0) :
    ((v &&& 0xFFFFF000) ||| f) &&& g = f &&& g := by
  rw [BitVec.or_comm]
  apply drapeau_autre
  rw [BitVec.and_assoc, bas]
  exact BitVec.and_zero

private theorem regions_flags (s : Symboles) : ∀ r ∈ regions s, r.flags = pageTableRo ∨ r.flags = pageTableRw := by
  simp [regions]

private theorem noyau_tables (s : Symboles) (mots : Mot → Mot) (place : Place s.pgdir s.pgtab)
    (max : ∀ r ∈ regions s, r.fin.toNat ≤ 2 ^ 28) :
    ∃ mots', earlyMmMapKernel s mots = some mots' ∧ Projete s.pgdir s.pgtab
      ((regions s).foldl (fun c r => ajouter r c) (Function.update (fun _ => 0) 0 0)) mots' := by
  have premiere := (depart place mots).ecrire place (p := 0) (by norm_num) 0
  have nulle : caseTable s.pgtab 0 = s.pgtab := by simp [caseTable]
  rw [nulle] at premiere
  exact mapRegions_projete place (regions s) max premiere

private theorem traduire_derniere {s : Symboles} (place : Place s.pgdir s.pgtab)
    (max : ∀ r ∈ regions s, r.fin.toNat ≤ 2 ^ 28)
    (projete : Projete s.pgdir s.pgtab
      ((regions s).foldl (fun c r => ajouter r c) (Function.update (fun _ => 0) 0 0)) mots) (v : Mot) :
    traduire mots s.pgdir v = (derniereRegion s v).map fun r => (v &&& 0xFFFFF000, r.flags &&& 2 != 0) := by
  rw [traduire_projete place projete, ajouter_derniere, derniereRegion]
  cases trouvee : (regions s).reverse.find? fun r => Couvre r.debut r.fin (v.toNat / 4096) with
  | none =>
      have absente : Function.update (fun _ => (0 : Mot)) 0 0 (v.toNat / 4096) = 0 := by
        rw [Function.update_apply]
        split <;> rfl
      dsimp only
      rw [absente]
      simp
  | some r =>
      have couverte := List.find?_some trouvee
      have dans := List.mem_reverse.mp (List.mem_of_find?_eq_some trouvee)
      have bas : v.toNat < 2 ^ 28 := by
        obtain ⟨-, avant⟩ := of_decide_eq_true couverte
        have borne := max r dans
        omega
      obtain ⟨presente, flagsSeuls⟩ : r.flags &&& 1 ≠ 0 ∧ r.flags &&& 0xFFFFF000 = 0 := by
        rcases regions_flags s r dans with flags | flags <;> rw [flags] <;> decide
      have page : ((v &&& 0xFFFFF000) ||| r.flags) &&& 0xFFFFF000 = v &&& 0xFFFFF000 := by
        rw [drapeau_autre _ flagsSeuls, BitVec.and_assoc, BitVec.and_self]
      dsimp only
      rw [← page_adresse, if_pos bas, page, flag_entree v _ (by decide), flag_entree v _ (by decide), if_neg presente]
      rfl

/-- Wherever the linker puts the sections below 256 MiB, the tables of the boot translate every address to
itself, with the protection of the last region that covers its page, and map no other page. -/
theorem noyau_projete (s : Symboles) (mots : Mot → Mot) (place : Place s.pgdir s.pgtab)
    (max : ∀ r ∈ regions s, r.fin.toNat ≤ 2 ^ 28) :
    ∃ mots', earlyMmMapKernel s mots = some mots' ∧ ∀ v, traduire mots' s.pgdir v =
      (derniereRegion s v).map fun r => (v &&& 0xFFFFF000, r.flags &&& 2 != 0) := by
  obtain ⟨mots', resultat, projete⟩ := noyau_tables s mots place max
  exact ⟨mots', resultat, traduire_derniere place max projete⟩

def petitNoyau : Symboles where
  start := 0x100000
  textStart := 0x143000
  textEnd := 0x150000
  multibootStart := 0x150000
  multibootEnd := 0x151000
  bootstrapStackStart := 0x151000
  bootstrapStackEnd := 0x152000
  rodataStart := 0x152000
  rodataEnd := 0x160000
  dataStart := 0x160000
  dataEnd := 0x170000
  bssStart := 0x170000
  bssEnd := 0x180000
  fin := 0x17f123
  memEnd := 0x10000000
  pgdir := 0x101000
  pgtab := 0x102000

private theorem petitNoyau_place : Place petitNoyau.pgdir petitNoyau.pgtab :=
  ⟨by decide, by decide, by decide, by decide⟩

theorem noyau_projete_exemple : ∃ mots', earlyMmMapKernel petitNoyau (fun _ => 0) = some mots' ∧
    traduire mots' petitNoyau.pgdir 0x150123 = some (0x150000, false) := by
  obtain ⟨mots', resultat, lu⟩ := noyau_projete petitNoyau (fun _ => 0) petitNoyau_place (by decide)
  exact ⟨mots', resultat, (lu _).trans (by decide)⟩

section Zones

/-- What crt0.S and the linker give, and `early_mm_check` does not check: the order of the sections, the
alignment of `.bss`, and that `_end` is in its last page. -/
structure Disposition (s : Symboles) : Prop where
  place : Place s.pgdir s.pgtab
  crt0 : 4096 ≤ s.start.toNat ∧ s.start.toNat ≤ s.textStart.toNat
  text : s.textStart.toNat ≤ s.textEnd.toNat ∧ s.textEnd.toNat ≤ s.multibootStart.toNat
  multiboot : s.multibootStart.toNat ≤ s.multibootEnd.toNat ∧ s.multibootEnd.toNat ≤ s.bootstrapStackStart.toNat
  pile : s.bootstrapStackStart.toNat ≤ s.bootstrapStackEnd.toNat ∧ s.bootstrapStackEnd.toNat ≤ s.rodataStart.toNat
  rodata : s.rodataStart.toNat ≤ s.rodataEnd.toNat ∧ s.rodataEnd.toNat ≤ s.dataStart.toNat
  data : s.dataStart.toNat ≤ s.dataEnd.toNat ∧ s.dataEnd.toNat ≤ s.bssStart.toNat
  bss : s.bssStart.toNat ≤ s.fin.toNat ∧ s.fin.toNat ≤ s.bssEnd.toNat ∧ s.bssEnd.toNat ≤ 2 ^ 28
  bssAligne : s.bssStart.toNat % 4096 = 0 ∧ s.bssEnd.toNat % 4096 = 0
  memEnd : s.memEnd.toNat = 2 ^ 28

/-- The code and the constants. -/
def LectureSeule (s : Symboles) (a : Nat) : Prop :=
  s.textStart.toNat ≤ a ∧ a < s.textEnd.toNat ∨ s.multibootStart.toNat ≤ a ∧ a < s.multibootEnd.toNat ∨
    s.rodataStart.toNat ≤ a ∧ a < s.rodataEnd.toNat

/-- What is below the code, the first stack, the data and all that follows. -/
def LectureEcriture (s : Symboles) (a : Nat) : Prop :=
  4096 ≤ a ∧ a < s.textStart.toNat ∨ s.bootstrapStackStart.toNat ≤ a ∧ a < s.bootstrapStackEnd.toNat ∨
    s.dataStart.toNat ≤ a ∧ a < s.dataEnd.toNat ∨ s.bssStart.toNat ≤ a ∧ a < 2 ^ 28

private theorem aligne_of_assert {a : Mot} (verifie : assertAligned a = true) : a.toNat % 4096 = 0 := by
  have egal : a &&& 0xFFFFF000 = a := of_decide_eq_true verifie
  rw [page_adresse] at egal
  have valeur := congrArg BitVec.toNat egal
  rw [BitVec.toNat_ofNat] at valeur
  omega

private theorem regions_max (s : Symboles) (disposition : Disposition s) : ∀ r ∈ regions s, r.fin.toNat ≤ 2 ^ 28 := by
  obtain ⟨-, crt0, text, multiboot, pile, rodata, data, bss, -, memEnd⟩ := disposition
  intro r dans
  simp only [regions, List.mem_cons, List.not_mem_nil, or_false] at dans
  rcases dans with rfl | rfl | rfl | rfl | rfl | rfl | rfl | rfl | rfl <;> simp only <;> omega

instance (s : Symboles) (a : Nat) : Decidable (LectureSeule s a) := inferInstanceAs (Decidable (_ ∨ _ ∨ _))

instance (s : Symboles) (a : Nat) : Decidable (LectureEcriture s a) := inferInstanceAs (Decidable (_ ∨ _ ∨ _ ∨ _))

private theorem find?_region (r : Region) (reste : List Region) (p : Nat) :
    ((r :: reste).find? fun r => Couvre r.debut r.fin p).map (fun r => r.flags &&& 2 != 0) =
      if Couvre r.debut r.fin p then some (r.flags &&& 2 != 0)
      else (reste.find? fun r => Couvre r.debut r.fin p).map fun r => r.flags &&& 2 != 0 := by
  rw [List.find?_cons]
  by_cases ici : Couvre r.debut r.fin p
  · simp [ici]
  · simp [ici]

private theorem couvre_aligne (v : Mot) {d f : Mot} (debut : d.toNat % 4096 = 0) (fin : f.toNat % 4096 = 0) :
    Couvre d f (v.toNat / 4096) ↔ d.toNat ≤ v.toNat ∧ v.toNat < f.toNat := by
  rw [Couvre]
  omega

private theorem couvre_fin {s : Symboles} (disposition : Disposition s) (v : Mot) :
    (Couvre s.fin s.memEnd (v.toNat / 4096) → s.bssStart.toNat ≤ v.toNat ∧ v.toNat < 2 ^ 28) ∧
      (s.bssEnd.toNat ≤ v.toNat → v.toNat < 2 ^ 28 → Couvre s.fin s.memEnd (v.toNat / 4096)) := by
  obtain ⟨-, -, -, -, -, -, -, ⟨debut, fin, -⟩, ⟨aligne, -⟩, memEnd⟩ := disposition
  rw [Couvre, memEnd]
  constructor
  · rintro ⟨apres, avant⟩
    have page : 4096 * (v.toNat / 4096) < 2 ^ 28 := by omega
    have bss : s.bssStart.toNat / 4096 ≤ v.toNat / 4096 := (Nat.div_le_div_right debut).trans apres
    exact ⟨by omega, by omega⟩
  · intro apres avant
    have reste : s.fin.toNat % 4096 < 4096 := Nat.mod_lt _ (by norm_num)
    exact ⟨Nat.div_le_div_right (fin.trans apres), by omega⟩

private theorem couvre_suite {s : Symboles} (disposition : Disposition s) (v : Mot) (x : Option Bool) :
    (if Couvre s.fin s.memEnd (v.toNat / 4096) then some true
      else if s.bssStart.toNat ≤ v.toNat ∧ v.toNat < s.bssEnd.toNat then some true
      else x) = if s.bssStart.toNat ≤ v.toNat ∧ v.toNat < 2 ^ 28 then some true else x := by
  obtain ⟨apres, avant⟩ := couvre_fin disposition v
  obtain ⟨-, -, max⟩ := disposition.bss
  by_cases dernier : Couvre s.fin s.memEnd (v.toNat / 4096)
  · rw [if_pos dernier, if_pos (apres dernier)]
  · rw [if_neg dernier]
    by_cases zone : s.bssStart.toNat ≤ v.toNat ∧ v.toNat < 2 ^ 28
    · have dedans : v.toNat < s.bssEnd.toNat := by
        by_contra dehors
        exact dernier (avant (not_lt.mp dehors) zone.2)
      rw [if_pos zone, if_pos ⟨zone.1, dedans⟩]
    · rw [if_neg zone, if_neg (by omega)]

private theorem zones {a t t' m m' p p' r r' d d' b n v : Nat} (crt0 : 4096 ≤ a ∧ a ≤ t) (text : t ≤ t' ∧ t' ≤ m)
    (multiboot : m ≤ m' ∧ m' ≤ p) (pile : p ≤ p' ∧ p' ≤ r) (rodata : r ≤ r' ∧ r' ≤ d) (data : d ≤ d' ∧ d' ≤ b) :
    (if b ≤ v ∧ v < n then some true
      else if d ≤ v ∧ v < d' then some true
      else if p ≤ v ∧ v < p' then some true
      else if r ≤ v ∧ v < r' then some false
      else if m ≤ v ∧ v < m' then some false
      else if t ≤ v ∧ v < t' then some false
      else if a ≤ v ∧ v < t then some true
      else if 4096 ≤ v ∧ v < a then some true
      else none) =
    if t ≤ v ∧ v < t' ∨ m ≤ v ∧ v < m' ∨ r ≤ v ∧ v < r' then some false
    else if 4096 ≤ v ∧ v < t ∨ p ≤ v ∧ v < p' ∨ d ≤ v ∧ v < d' ∨ b ≤ v ∧ v < n then some true
    else none := by
  split_ifs <;> first | rfl | omega

private theorem derniere_zone (s : Symboles) (verifie : earlyMmCheck s = true) (disposition : Disposition s)
    (v : Mot) : (derniereRegion s v).map (fun r => r.flags &&& 2 != 0) =
      if LectureSeule s v.toNat then some false else if LectureEcriture s v.toNat then some true else none := by
  simp only [earlyMmCheck, Bool.and_eq_true, and_assoc] at verifie
  obtain ⟨a₁, a₂, a₃, -, a₄, a₅, -, a₆, a₇, -, a₈, a₉, -, a₁₀, a₁₁, -⟩ := verifie
  have b₁ := aligne_of_assert a₁
  have b₂ := aligne_of_assert a₂
  have b₃ := aligne_of_assert a₃
  have b₄ := aligne_of_assert a₄
  have b₅ := aligne_of_assert a₅
  have b₆ := aligne_of_assert a₆
  have b₇ := aligne_of_assert a₇
  have b₈ := aligne_of_assert a₈
  have b₉ := aligne_of_assert a₉
  have b₁₀ := aligne_of_assert a₁₀
  have b₁₁ := aligne_of_assert a₁₁
  have premiere : (4096 : Mot).toNat = 4096 := rfl
  have lecture : (pageTableRo &&& 2 != 0) = false := rfl
  have ecriture : (pageTableRw &&& 2 != 0) = true := rfl
  have forme : (derniereRegion s v).map (fun r => r.flags &&& 2 != 0) =
      if Couvre s.fin s.memEnd (v.toNat / 4096) then some true
      else if Couvre s.bssStart s.bssEnd (v.toNat / 4096) then some true
      else if Couvre s.dataStart s.dataEnd (v.toNat / 4096) then some true
      else if Couvre s.bootstrapStackStart s.bootstrapStackEnd (v.toNat / 4096) then some true
      else if Couvre s.rodataStart s.rodataEnd (v.toNat / 4096) then some false
      else if Couvre s.multibootStart s.multibootEnd (v.toNat / 4096) then some false
      else if Couvre s.textStart s.textEnd (v.toNat / 4096) then some false
      else if Couvre s.start s.textStart (v.toNat / 4096) then some true
      else if Couvre 4096 s.start (v.toNat / 4096) then some true
      else none := by
    rw [derniereRegion]
    simp only [regions, List.reverse_cons, List.reverse_nil, List.nil_append, List.cons_append,
      find?_region, List.find?_nil, Option.map_none, lecture, ecriture]
  rw [forme]
  have bas : (4096 : Mot).toNat % 4096 = 0 := rfl
  simp only [couvre_aligne v disposition.bssAligne.1 disposition.bssAligne.2,
    couvre_aligne v b₁₀ b₁₁, couvre_aligne v b₆ b₇, couvre_aligne v b₈ b₉, couvre_aligne v b₄ b₅,
    couvre_aligne v b₂ b₃, couvre_aligne v b₁ b₂, couvre_aligne v bas b₁, premiere]
  rw [couvre_suite disposition]
  exact zones disposition.crt0 disposition.text disposition.multiboot disposition.pile disposition.rodata
    disposition.data

/-- When `early_mm_check` passes, the kernel runs at its own addresses: no page for the null pointers and
none from 256 MiB on, no write to the code and the constants. -/
theorem noyau_protege (s : Symboles) (mots : Mot → Mot) (verifie : earlyMmCheck s = true)
    (disposition : Disposition s) :
    ∃ mots', earlyMmMapKernel s mots = some mots' ∧ ∀ v, traduire mots' s.pgdir v =
      if LectureSeule s v.toNat then some (v &&& 0xFFFFF000, false)
      else if LectureEcriture s v.toNat then some (v &&& 0xFFFFF000, true)
      else none := by
  have max := regions_max s disposition
  obtain ⟨mots', resultat, projete⟩ := noyau_tables s mots disposition.place max
  refine ⟨mots', resultat, fun v => ?_⟩
  have zone := derniere_zone s verifie disposition v
  rw [traduire_derniere disposition.place max projete]
  revert zone
  cases derniereRegion s v with
  | none =>
      intro zone
      split_ifs at zone ⊢ <;> simp_all
  | some r =>
      intro zone
      split_ifs at zone ⊢ <;> simp_all

theorem noyau_protege_exemple : ∃ mots', earlyMmMapKernel petitNoyau (fun _ => 0) = some mots' ∧
    traduire mots' petitNoyau.pgdir 0 = none ∧
      traduire mots' petitNoyau.pgdir 0x143210 = some (0x143000, false) ∧
        traduire mots' petitNoyau.pgdir 0x160007 = some (0x160000, true) := by
  obtain ⟨mots', resultat, lu⟩ := noyau_protege petitNoyau (fun _ => 0) (by decide)
    ⟨petitNoyau_place, by decide, by decide, by decide, by decide, by decide, by decide, by decide, by decide,
      by decide⟩
  exact ⟨mots', resultat, (lu _).trans (by decide), (lu _).trans (by decide), (lu _).trans (by decide)⟩

end Zones

end ProjetSysteme.Properties.EarlyMm
