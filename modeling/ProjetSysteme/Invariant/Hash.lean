/- Invariant/Hash
   source: kernel/hash.c
   digest: What the searches of the hash table find, and that its operations keep its invariant. -/

import ProjetSysteme.Kernel.Hash
import ProjetSysteme.Library.Congruential
import ProjetSysteme.Library.Outcome
import ProjetSysteme.Library.Probing

set_option autoImplicit false
set_option relaxedAutoImplicit false

namespace ProjetSysteme.Invariant

open Kernel Library.Probing Library.Congruential Library.Outcome

structure ModeHachage where
  hfunc : Mot → Mot
  cmp : Mot → Mot → Int
  equivalence : Equivalence fun key1 key2 => cmp key1 key2 ≠ 0
  hache : ∀ key1 key2, cmp key1 key2 ≠ 0 → hfunc key1 = hfunc key2

abbrev ModeHachage.cles (f : ModeHachage) : Setoid Mot := ⟨fun key1 key2 => f.cmp key1 key2 ≠ 0, f.equivalence⟩

section Sonde

variable (hash mask : Mot)

def sonde : Nat → Mot × Mot
  | 0 => (hash &&& mask, hash)
  | n + 1 => (5 * (sonde n).1 + (sonde n).2 + 1, (sonde n).2 >>> 5)

/-- The index in the table of the slot looked at after `n` turns. -/
def position (n : Nat) : Nat := ((sonde hash mask n).1 &&& mask).toNat

theorem sonde_perturb (n : Nat) : (sonde hash mask n).2 = hash >>> (5 * n) := by
  induction n with
  | zero => exact (BitVec.ushiftRight_zero hash).symm
  | succ n ih =>
      rw [sonde, ih, ← BitVec.shiftRight_add, Nat.mul_succ]

theorem sonde_perturb_nul {n : Nat} (tard : 7 ≤ n) : (sonde hash mask n).2 = 0 := by
  rw [sonde_perturb]
  apply BitVec.eq_of_toNat_eq
  rw [BitVec.toNat_ushiftRight, Nat.shiftRight_eq_div_pow]
  refine Nat.div_eq_of_lt (lt_of_lt_of_le hash.isLt ?_)
  exact Nat.pow_le_pow_right (by decide) (by omega)

variable {mask} {k : Nat} (masque : mask.toNat = 2 ^ k - 1)

include masque

theorem position_mod (n : Nat) : position hash mask n = (sonde hash mask n).1.toNat % 2 ^ k := by
  rw [position, BitVec.toNat_and, masque, Nat.and_two_pow_sub_one_eq_mod]

theorem position_lt (n : Nat) : position hash mask n < 2 ^ k := by
  rw [position_mod hash masque]
  exact Nat.mod_lt _ (Nat.two_pow_pos k)

theorem position_atteint (petit : k ≤ 32) {r : Nat} (dedans : r < 2 ^ k) :
    ∃ n, n < 7 + 2 ^ k ∧ position hash mask n = r := by
  have pas : ∀ n, 7 ≤ n → (sonde hash mask (n + 1)).1.toNat ≡ 5 * (sonde hash mask n).1.toNat + 1
      [MOD 2 ^ k] := by
    intro n tard
    have divise : 2 ^ k ∣ 2 ^ 32 := Nat.pow_dvd_pow 2 petit
    have valeur : (sonde hash mask (n + 1)).1.toNat = (5 * (sonde hash mask n).1.toNat + 1) % 2 ^ 32 := by
      rw [sonde, sonde_perturb_nul hash mask tard]
      change (5 * (sonde hash mask n).1 + 0#32 + 1#32).toNat = _
      rw [BitVec.add_zero, BitVec.toNat_add, BitVec.toNat_mul]
      exact Nat.mod_add_mod _ _ _
    rw [valeur, Nat.ModEq, Nat.mod_mod_of_dvd _ divise]
  obtain ⟨n, avant, atteint⟩ := reaches (x := fun n => (sonde hash mask n).1.toNat) pas dedans
  exact ⟨n, avant, (position_mod hash masque n).trans atteint⟩

end Sonde

def chemin (f : ModeHachage) {mask : Mot} {k : Nat} (masque : mask.toNat = 2 ^ k - 1) :
    Path f.cles (2 ^ k) :=
  { place := fun key n => position (f.hfunc key) mask n
    inside := fun key n => position_lt (f.hfunc key) masque n
    congr := fun {a b} egales => by
      funext n
      rw [f.hache a b egales] }

/-- A slot as the library sees it. -/
def vue (s : HashSlot) : Slot Mot Mot :=
  match s.mode with
  | .empty => .empty
  | .active => .active s.key s.value
  | .deleted => .deleted

theorem vue_active {s : HashSlot} (mode : s.mode = .active) : vue s = .active s.key s.value := by
  rw [vue, mode]

theorem vue_eq_active {s : HashSlot} {key value : Mot} (egal : vue s = .active key value) :
    s.mode = .active ∧ s.key = key ∧ s.value = value := by
  unfold vue at egal
  split at egal
  · cases egal
  · next mode =>
      cases egal
      exact ⟨mode, rfl, rfl⟩
  · cases egal

@[simp] theorem isActive_vue (s : HashSlot) : (vue s).isActive = (s.mode == .active) := by
  unfold vue
  split
  · next mode => rw [mode]; rfl
  · next mode => rw [mode]; rfl
  · next mode => rw [mode]; rfl

structure Represente (f : ModeHachage) (k : Nat) (map : HashT) (M : Quotient f.cles → Option Mot) : Prop where
  hfunc : map.hfunc = f.hfunc
  cmp : map.cmp = f.cmp
  petit : 3 ≤ k ∧ k ≤ 22
  masque : map.mask.toNat = 2 ^ k - 1
  hache : ∀ s ∈ map.table, s.mode = .active → s.hash = f.hfunc s.key
  contenu : Represents (chemin f masque) (map.table.map vue) M
  count : map.count = (keys M).ncard
  fill : map.fill = map.table.countP fun s => s.mode ≠ .empty

section Boucle

variable {map : HashT} {key hash : Mot}

theorem lire_ok {p : Nat} {s : HashSlot} (ici : map.table[p]? = some s) : map.lire p = .ok s := by
  rw [HashT.lire, ici]

theorem lookupBoucle_suivant {s : HashSlot} {slot : Nat} (ici : map.table[slot]? = some s) (plein : s.mode ≠ .empty)
    (autre : ¬ (s.mode = .active ∧ trouve map key hash s = true)) (tours : Nat) (index perturb : Mot) (freeslot : Option Nat) :
    lookupBoucle map key hash (tours + 1) index perturb slot freeslot =
      lookupBoucle map key hash tours (5 * index + perturb + 1) (perturb >>> 5) ((5 * index + perturb + 1) &&& map.mask).toNat
        (if s.mode = .deleted ∧ freeslot = none then some slot else freeslot) := by
  simp only [lookupBoucle, lire_ok ici, bind, Except.bind, if_neg plein, if_neg autre]

theorem lookupBoucle_vide {s : HashSlot} {slot : Nat} (ici : map.table[slot]? = some s) (vide : s.mode = .empty)
    (tours : Nat) (index perturb : Mot) (freeslot : Option Nat) :
    lookupBoucle map key hash (tours + 1) index perturb slot freeslot = .ok (freeslot.getD slot) := by
  simp only [lookupBoucle, lire_ok ici, bind, Except.bind, if_pos vide]
  cases freeslot <;> rfl

theorem lookupBoucle_cle {s : HashSlot} {slot : Nat} (ici : map.table[slot]? = some s)
    (cle : s.mode = .active ∧ trouve map key hash s = true) (tours : Nat) (index perturb : Mot) (freeslot : Option Nat) :
    lookupBoucle map key hash (tours + 1) index perturb slot freeslot = .ok slot := by
  have plein : s.mode ≠ .empty := by
    rw [cle.1]
    nofun
  simp only [lookupBoucle, lire_ok ici, bind, Except.bind, if_neg plein, if_pos cle]
  rfl

def lookupApres (map : HashT) (key hash : Mot) (tours n : Nat) (freeslot : Option Nat) : Except Faute Nat :=
  lookupBoucle map key hash tours (sonde hash map.mask n).1 (sonde hash map.mask n).2 (position hash map.mask n) freeslot

theorem hashLookup_apres (map : HashT) (key hash : Mot) (tours : Nat) :
    hashLookup tours map key hash = lookupApres map key hash tours 0 none := by
  have deux : (hash &&& map.mask) &&& map.mask = hash &&& map.mask := by
    rw [BitVec.and_assoc, BitVec.and_self]
  unfold hashLookup lookupApres position
  rw [sonde, deux]

/-- Turn `n` does not end the search, and keeps the property `P` of the remembered slot. -/
def TourPasse (map : HashT) (key hash : Mot) (P : Nat → Option Nat → Prop) (n : Nat) : Prop :=
  ∃ s, map.table[position hash map.mask n]? = some s ∧ s.mode ≠ .empty ∧
    ¬ (s.mode = .active ∧ trouve map key hash s = true) ∧
    ∀ freeslot, P n freeslot →
      P (n + 1) (if s.mode = .deleted ∧ freeslot = none then some (position hash map.mask n) else freeslot)

theorem lookupApres_jusque {P : Nat → Option Nat → Prop} {fin : Nat} (passe : ∀ n < fin, TourPasse map key hash P n)
    {tours n : Nat} {freeslot : Option Nat} (avant : n ≤ fin) (assez : fin < n + tours) (retenu : P n freeslot) :
    ∃ tours' freeslot', P fin freeslot' ∧
      lookupApres map key hash tours n freeslot = lookupApres map key hash (tours' + 1) fin freeslot' := by
  induction tours generalizing n freeslot with
  | zero => omega
  | succ tours ih =>
      rcases Nat.lt_or_eq_of_le avant with loin | rfl
      · obtain ⟨s, ici, plein, autre, garde⟩ := passe n loin
        obtain ⟨tours', freeslot', fini, run⟩ := ih loin (by omega) (garde freeslot retenu)
        exact ⟨tours', freeslot', fini, (lookupBoucle_suivant ici plein autre ..).trans run⟩
      · exact ⟨tours, freeslot, retenu, rfl⟩

theorem hashLookup_jusque {P : Nat → Option Nat → Prop} {fin tours : Nat} (debut : P 0 none)
    (passe : ∀ n < fin, TourPasse map key hash P n) (assez : fin < tours) :
    ∃ tours' freeslot, P fin freeslot ∧
      hashLookup tours map key hash = lookupApres map key hash (tours' + 1) fin freeslot := by
  rw [hashLookup_apres]
  exact lookupApres_jusque passe (Nat.zero_le fin) (by omega) debut

end Boucle

section Recherche

variable {f : ModeHachage} {k : Nat} {map : HashT} {M : Quotient f.cles → Option Mot}

theorem Represente.slot (rep : Represente f k map M) {key : Mot} {n : Nat} {slot : Slot Mot Mot}
    (ici : (map.table.map vue)[(chemin f rep.masque).place key n]? = some slot) :
    ∃ s, map.table[position (f.hfunc key) map.mask n]? = some s ∧ vue s = slot := by
  rw [List.getElem?_map] at ici
  exact Option.map_eq_some_iff.mp ici

theorem Represente.trouve_iff (rep : Represente f k map M) {s : HashSlot} (mem : s ∈ map.table)
    (mode : s.mode = .active) (key : Mot) :
    trouve map key (f.hfunc key) s = true ↔ f.cmp s.key key ≠ 0 := by
  rw [trouve, rep.cmp, rep.hache s mem mode, Bool.or_eq_true, Bool.and_eq_true, decide_eq_true_iff,
    decide_eq_true_iff, decide_eq_true_iff]
  constructor
  · rintro (meme | ⟨-, egales⟩)
    · rw [meme]
      exact f.equivalence.refl key
    · exact egales
  · intro egales
    exact .inr ⟨f.hache _ _ egales, egales⟩

def Reserve (rep : Represente f k map M) (key : Mot) (n : Nat) : Option Nat → Prop
  | none => ∀ i < n, ∃ key' value, (map.table.map vue)[(chemin f rep.masque).place key i]? =
      some (.active key' value)
  | some libre => ∃ m < n, libre = position (f.hfunc key) map.mask m ∧
      Free (chemin f rep.masque) (map.table.map vue) key m

theorem Reserve.occupe {rep : Represente f k map M} {key key' value : Mot} {n : Nat}
    {freeslot : Option Nat} (reserve : Reserve rep key n freeslot)
    (ici : (map.table.map vue)[(chemin f rep.masque).place key n]? = some (.active key' value)) :
    Reserve rep key (n + 1) freeslot := by
  cases freeslot with
  | none =>
      intro i infI
      rcases Nat.lt_succ_iff_lt_or_eq.mp infI with avant | rfl
      · exact reserve i avant
      · exact ⟨key', value, ici⟩
  | some libre =>
      obtain ⟨m, inf, egal, free⟩ := reserve
      exact ⟨m, Nat.lt_succ_of_lt inf, egal, free⟩

theorem Reserve.libere {rep : Represente f k map M} {key : Mot} {n : Nat} {freeslot : Option Nat}
    {slot : Slot Mot Mot} (reserve : Reserve rep key n freeslot)
    (ici : (map.table.map vue)[(chemin f rep.masque).place key n]? = some slot)
    (oisif : slot.isActive = false) : Reserve rep key (n + 1)
      (if freeslot = none then some (position (f.hfunc key) map.mask n) else freeslot) := by
  cases freeslot with
  | none => exact ⟨n, Nat.lt_succ_self n, rfl, reserve, slot, ici, oisif⟩
  | some libre =>
      obtain ⟨m, inf, egal, free⟩ := reserve
      exact ⟨m, Nat.lt_succ_of_lt inf, egal, free⟩

def Rendu (rep : Represente f k map M) (key : Mot) (n : Nat) (slot : Slot Mot Mot) (p : Nat) : Prop :=
  (slot.isActive = true → p = position (f.hfunc key) map.mask n) ∧
  (slot = .empty → ∃ m ≤ n, p = position (f.hfunc key) map.mask m ∧
    Free (chemin f rep.masque) (map.table.map vue) key m)

theorem Represente.tour_passe (rep : Represente f k map M) {key : Mot} {n : Nat} {slot : Slot Mot Mot}
    (ici : (map.table.map vue)[(chemin f rep.masque).place key n]? = some slot)
    (passe : ¬ @Slot.Stops Mot Mot f.cles key slot) : TourPasse map key (f.hfunc key) (Reserve rep key) n := by
  obtain ⟨s, la, rfl⟩ := rep.slot ici
  cases mode : s.mode with
  | empty =>
      rw [vue, mode] at passe
      exact absurd trivial passe
  | active =>
      rw [vue_active mode] at ici passe
      refine ⟨s, la, by simp [mode], ?_, fun freeslot reserve => ?_⟩
      · rintro ⟨-, egale⟩
        exact passe ((rep.trouve_iff (List.mem_of_getElem? la) mode key).mp egale)
      · simp only [mode, reduceCtorEq, false_and, if_false]
        exact reserve.occupe ici
  | deleted =>
      have oisif : (vue s).isActive = false := by
        rw [isActive_vue, mode]
        rfl
      refine ⟨s, la, by simp [mode], by simp [mode], fun freeslot reserve => ?_⟩
      simp only [mode, true_and]
      exact reserve.libere ici oisif

theorem lookupApres_arret (rep : Represente f k map M) {key : Mot} {n : Nat} {slot : Slot Mot Mot}
    (ici : (map.table.map vue)[(chemin f rep.masque).place key n]? = some slot)
    (arret : @Slot.Stops Mot Mot f.cles key slot) (tours : Nat) {freeslot : Option Nat}
    (reserve : Reserve rep key n freeslot) :
    ∃ p, lookupApres map key (f.hfunc key) (tours + 1) n freeslot = .ok p ∧ Rendu rep key n slot p := by
  obtain ⟨s, la, rfl⟩ := rep.slot ici
  cases mode : s.mode with
  | empty =>
      have oisif : (vue s).isActive = false := by
        rw [isActive_vue, mode]
        rfl
      refine ⟨_, lookupBoucle_vide la mode .., fun active => absurd active (Bool.eq_false_iff.mp oisif), fun _ => ?_⟩
      cases freeslot with
      | none => exact ⟨n, le_rfl, rfl, reserve, vue s, ici, oisif⟩
      | some libre =>
          obtain ⟨m, inf, egal, free⟩ := reserve
          exact ⟨m, Nat.le_of_lt inf, egal, free⟩
  | active =>
      rw [vue_active mode] at arret
      have egale := (rep.trouve_iff (List.mem_of_getElem? la) mode key).mpr arret
      refine ⟨_, lookupBoucle_cle la ⟨mode, egale⟩ .., fun _ => rfl, fun vide => ?_⟩
      rw [vue_active mode] at vide
      cases vide
  | deleted =>
      rw [vue, mode] at arret
      cases arret

inductive Cherche (rep : Represente f k map M) (key : Mot) (p : Nat) (s : HashSlot) : Prop
  | presente (mode : s.mode = .active) (egale : f.cmp s.key key ≠ 0) (valeur : M ⟦key⟧ = some s.value)
  | absente (fin m : Nat) (mode : s.mode ≠ .active) (rien : M ⟦key⟧ = none)
      (recherche : Search (chemin f rep.masque) (map.table.map vue) key fin .empty) (avant : m ≤ fin)
      (place : p = position (f.hfunc key) map.mask m)
      (libre : Free (chemin f rep.masque) (map.table.map vue) key m)

theorem Cherche.contenu {rep : Represente f k map M} {key : Mot} {p : Nat} {s : HashSlot}
    (cherche : Cherche rep key p s) : M ⟦key⟧ = if s.mode = .active then some s.value else none := by
  cases cherche with
  | presente mode egale valeur => rw [if_pos mode, valeur]
  | absente fin m mode rien recherche avant place libre => rw [if_neg mode, rien]

theorem Represente.longueur (rep : Represente f k map M) : map.table.length = 2 ^ k :=
  (List.length_map vue).symm.trans rep.contenu.length

theorem Represente.trou (rep : Represente f k map M) (place : map.fill < map.table.length) :
    ∃ s ∈ map.table, s.mode = .empty := by
  have reste : ¬ ∀ s ∈ map.table, decide (s.mode ≠ .empty) = true := by
    rw [← List.countP_eq_length]
    have pleins := rep.fill
    omega
  simpa only [decide_eq_true_iff, not_forall, not_not, exists_prop] using reste

theorem hashLookup_rend (rep : Represente f k map M) (trou : map.fill < map.table.length) {tours : Nat}
    (assez : 7 + 2 ^ k ≤ tours) (key : Mot) : ∃ p s, hashLookup tours map key (map.hfunc key) = .ok p ∧
    map.table[p]? = some s ∧ Cherche rep key p s := by
  obtain ⟨s, mem, mode⟩ := rep.trou trou
  obtain ⟨r, ici⟩ := List.mem_iff_getElem?.mp mem
  have vide : (map.table.map vue)[r]? = some .empty := by
    rw [List.getElem?_map, ici, Option.map_some, vue, mode]
  have dedans : r < 2 ^ k := rep.contenu.length ▸ (List.getElem?_eq_some_iff.mp vide).1
  have petit := rep.petit
  obtain ⟨n, tot, rfl⟩ := position_atteint (f.hfunc key) rep.masque (by omega) dedans
  obtain ⟨fin, avant, slot, recherche⟩ :=
    exists_search (chemin f rep.masque) key rep.contenu.length vide
  have debut : Reserve rep key 0 none := fun i inf => absurd inf (Nat.not_lt_zero i)
  have passe : ∀ n < fin, TourPasse map key (f.hfunc key) (Reserve rep key) n := by
    intro n inf
    obtain ⟨slot', ici, passe⟩ := recherche.passes n inf
    exact rep.tour_passe ici passe
  have suffisant : fin < tours := by omega
  obtain ⟨reste, freeslot, reserve, jusque⟩ := hashLookup_jusque debut passe suffisant
  obtain ⟨p, run, present, absent⟩ := lookupApres_arret rep recherche.here recherche.stops reste reserve
  have run' : hashLookup tours map key (map.hfunc key) = .ok p := by
    rw [rep.hfunc, jusque]
    exact run
  have fini := recherche.stops
  cases slot with
  | empty =>
      obtain ⟨m, inf, place, libre⟩ := absent rfl
      obtain ⟨slot, ici, oisif⟩ := libre.here
      obtain ⟨s, la, rfl⟩ := rep.slot ici
      refine ⟨p, s, run', place ▸ la, .absente fin m ?_ (rep.contenu.of_empty recherche) recherche inf place libre⟩
      intro mode
      rw [isActive_vue, mode] at oisif
      cases oisif
  | deleted => cases fini
  | active key' value =>
      obtain ⟨s, la, egal⟩ := rep.slot recherche.here
      obtain ⟨mode, rfl, rfl⟩ := vue_eq_active egal
      refine ⟨p, s, run', (present rfl) ▸ la, .presente mode fini ?_⟩
      exact rep.contenu.of_active recherche.here fini

open scoped Classical in
theorem Represente.modifier (rep : Represente f k map M) {p : Nat} {s new : HashSlot} {key : Mot}
    {x : Option Mot} {count fill : Int} (ici : map.table[p]? = some s)
    (contenu : Represents (chemin f rep.masque) ((map.table.map vue).set p (vue new))
      (Function.update M ⟦key⟧ x))
    (hache : new.mode = .active → new.hash = f.hfunc new.key)
    (compte : count + (M ⟦key⟧).isSome.toNat = map.count + x.isSome.toNat)
    (pleins : fill + (decide (s.mode ≠ .empty)).toNat = map.fill + (decide (new.mode ≠ .empty)).toNat) :
    Represente f k { map with table := map.table.set p new, count := count, fill := fill }
      (Function.update M ⟦key⟧ x) where
  hfunc := rep.hfunc
  cmp := rep.cmp
  petit := rep.petit
  masque := rep.masque
  hache := by
    intro s' mem
    rcases List.mem_or_eq_of_mem_set mem with avant | rfl
    · exact rep.hache s' avant
    · exact hache
  contenu := by
    rw [List.map_set]
    exact contenu
  count := by
    have nombre := ncard_keys_update rep.contenu.finite ⟦key⟧ x
    have avant := rep.count
    change count = _
    omega
  fill := by
    have nombre := countP_set_toNat (fun s : HashSlot => decide (s.mode ≠ .empty)) ici new
    have avant := rep.fill
    change fill = ((map.table.set p new).countP fun s => decide (s.mode ≠ .empty) : Nat)
    omega

open scoped Classical in
theorem Represente.remplacer (rep : Represente f k map M) {p : Nat} {s : HashSlot} {key : Mot} (value : Mot)
    (ici : map.table[p]? = some s) (mode : s.mode = .active) (egale : f.cmp s.key key ≠ 0)
    (valeur : M ⟦key⟧ = some s.value) :
    Represente f k { map with table := map.table.set p { s with value := value } }
      (Function.update M ⟦key⟧ (some value)) := by
  have vu : (map.table.map vue)[p]? = some (.active s.key s.value) := by
    rw [List.getElem?_map, ici, Option.map_some, vue_active mode]
  have contenu := rep.contenu.overwrite (w := value) vu egale
  rw [← vue_active (s := { s with value := value }) mode] at contenu
  refine rep.modifier ici contenu (fun _ => rep.hache s (List.mem_of_getElem? ici) mode) ?_ rfl
  rw [valeur]
  rfl

open scoped Classical in
theorem Represente.inserer (rep : Represente f k map M) (new : HashSlot) {fin m : Nat} {s : HashSlot} {key : Mot}
    (recherche : Search (chemin f rep.masque) (map.table.map vue) key fin .empty) (avant : m ≤ fin)
    (libre : Free (chemin f rep.masque) (map.table.map vue) key m)
    (ici : map.table[position (f.hfunc key) map.mask m]? = some s)
    (actif : new.mode = .active) (cle : new.key = key) (hache : new.hash = f.hfunc key) :
    Represente f k { map with
        table := map.table.set (position (f.hfunc key) map.mask m) new
        count := map.count + 1
        fill := if s.mode = .empty then map.fill + 1 else map.fill }
      (Function.update M ⟦key⟧ (some new.value)) := by
  have contenu := rep.contenu.store recherche avant libre new.value
  have vu : vue new = .active key new.value := by rw [vue_active actif, cle]
  rw [← vu] at contenu
  refine rep.modifier ici contenu (fun _ => by rw [cle, hache]) ?_ ?_
  · rw [rep.contenu.of_empty recherche]
    simp
  · by_cases vide : s.mode = .empty
    · simp [vide, actif]
    · simp [vide, actif]

open scoped Classical in
theorem Represente.supprimer (rep : Represente f k map M) {p : Nat} {s : HashSlot} {key : Mot}
    (ici : map.table[p]? = some s) (mode : s.mode = .active) (egale : f.cmp s.key key ≠ 0)
    (valeur : M ⟦key⟧ = some s.value) :
    Represente f k { map with table := map.table.set p (HashSlot.nul .deleted), count := map.count - 1 }
      (Function.update M ⟦key⟧ none) := by
  have vu : (map.table.map vue)[p]? = some (.active s.key s.value) := by
    rw [List.getElem?_map, ici, Option.map_some, vue_active mode]
  refine rep.modifier ici (rep.contenu.delete vu egale) nofun ?_ ?_
  · rw [valeur]
    simp
  · rw [mode]
    rfl

end Recherche

section Redimension

variable {f : ModeHachage} {k : Nat} {map : HashT} {M : Quotient f.cles → Option Mot}

theorem long_eq {x : Int} (bas : 0 ≤ x) (haut : x < 2 ^ 31) : long x = x :=
  Int.bmod_eq_of_le (by omega) (by omega)

theorem represente_neuve {neuve : HashT} (petit : 3 ≤ k ∧ k ≤ 22) (hfunc : neuve.hfunc = f.hfunc)
    (cmp : neuve.cmp = f.cmp) (masque : neuve.mask = BitVec.ofInt 32 ((2 ^ k : Nat) - 1))
    (table : neuve.table = List.replicate (2 ^ k) (HashSlot.nul .empty)) (count : neuve.count = 0)
    (fill : neuve.fill = 0) : Represente f k neuve fun _ => none := by
  have mask : neuve.mask.toNat = 2 ^ k - 1 := by
    have borne : 2 ^ k ≤ 2 ^ 22 := Nat.pow_le_pow_right (by decide) petit.2
    have positif := Nat.two_pow_pos k
    rw [masque, BitVec.toNat_ofInt]
    omega
  refine ⟨hfunc, cmp, petit, mask, ?_, ?_, ?_, ?_⟩
  · intro s mem mode
    rw [table] at mem
    cases (List.mem_replicate.mp mem).2
    cases mode
  · rw [table, List.map_replicate]
    exact represents_empty _
  · rw [count]
    simp [keys]
  · rw [fill, table, List.countP_replicate]
    rfl

theorem suivante_absente {oldtable : List HashSlot} (distinctes : Distinct f.cles (oldtable.map vue))
    {i : Nat} {old : HashSlot} (ici : oldtable[i]? = some old) (actif : old.mode = .active)
    {N : Quotient f.cles → Option Mot} (contenu : Content ((oldtable.take i).map vue) N) :
    N ⟦old.key⟧ = none := by
  refine contenu.absent fun key' value mem => ?_
  rw [← List.take_append_drop i oldtable, List.map_append] at distinctes
  have apres : old ∈ oldtable.drop i :=
    List.mem_iff_getElem?.mpr ⟨0, by rw [List.getElem?_drop, Nat.add_zero, ici]⟩
  exact (List.pairwise_append.mp distinctes).2.2 _ mem _ (List.mem_map_of_mem apres) _ _ _ _ rfl
    (vue_active actif)

theorem actives_suivante {oldtable : List HashSlot} {i : Nat} {old : HashSlot}
    (ici : oldtable[i]? = some old) :
    ((oldtable.take (i + 1)).countP fun s => s.mode == .active) =
      ((oldtable.take i).countP fun s => s.mode == .active) + (old.mode == .active).toNat := by
  rw [List.take_add_one, ici, List.countP_append]
  cases (inferInstance : Decidable (old.mode = .active)) with
  | isTrue actif => simp [actif]
  | isFalse autre => simp [autre]

theorem copyBoucle_copie {oldtable : List HashSlot} (distinctes : Distinct f.cles (oldtable.map vue))
    (hache : ∀ s ∈ oldtable, s.mode = .active → s.hash = f.hfunc s.key) (tours reste i : Nat)
    {neuve : HashT} {N : Quotient f.cles → Option Mot} (total : i + reste = oldtable.length)
    (rep : Represente f k neuve N) (contenu : Content ((oldtable.take i).map vue) N)
    (net : ∀ s ∈ neuve.table, s.mode ≠ .deleted)
    (compte : neuve.fill = ((oldtable.take i).countP fun s => s.mode == .active : Nat))
    (place : (oldtable.countP fun s => s.mode == .active) < neuve.table.length)
    (assez : 7 + 2 ^ k ≤ tours) :
    ∃ copie N', copyBoucle tours oldtable reste i neuve = .ok copie ∧ Represente f k copie N' ∧
      Content (oldtable.map vue) N' ∧
      copie.fill = (oldtable.countP fun s => s.mode == .active : Nat) := by
  induction reste generalizing i neuve N with
  | zero =>
      have tout : oldtable.take i = oldtable := List.take_of_length_le (by omega)
      rw [tout] at contenu compte
      exact ⟨neuve, N, rfl, rep, contenu, compte⟩
  | succ reste ih =>
      obtain ⟨old, ici⟩ : ∃ old, oldtable[i]? = some old := ⟨_, List.getElem?_eq_getElem (by omega)⟩
      have suivante : oldtable.take (i + 1) = oldtable.take i ++ [old] := by
        rw [List.take_add_one, ici]
        rfl
      by_cases actif : old.mode = .active
      · have absente := suivante_absente distinctes ici actif contenu
        have copies : (oldtable.take i).countP (fun s => s.mode == .active) ≤
            oldtable.countP fun s => s.mode == .active := (List.take_sublist i oldtable).countP_le
        obtain ⟨p, s, run, la, cherche⟩ := hashLookup_rend rep (by omega) assez old.key
        cases cherche with
        | presente mode egale valeur =>
            rw [absente] at valeur
            cases valeur
        | absente fin m mode rien recherche avant lieu libre =>
            have vide : s.mode = .empty := by
              cases mode' : s.mode with
              | empty => rfl
              | active => exact absurd mode' mode
              | deleted => exact absurd mode' (net s (List.mem_of_getElem? la))
            have rep' := rep.inserer { old with mode := .active } recherche avant libre
              (lieu ▸ la) rfl rfl (hache old (List.mem_of_getElem? ici) actif)
            rw [if_pos vide, ← lieu] at rep'
            have contenu' := contenu.concat_active old.value absente
            have compte' : neuve.fill + 1 = ((oldtable.take (i + 1)).countP fun s => s.mode == .active : Nat) := by
              simp [actives_suivante ici, actif, compte]
            rw [← vue_active actif, ← List.map_singleton, ← List.map_append, ← suivante] at contenu'
            obtain ⟨copie, N', run', fin'⟩ := ih (i + 1) (by omega) rep' contenu'
              (fun s' mem => (List.mem_or_eq_of_mem_set mem).elim (net s') (by rintro rfl; nofun)) compte'
              (place.trans_eq (List.length_set ..).symm)
            refine ⟨copie, N', ?_, fin'⟩
            simp only [copyBoucle, ici, actif, ne_eq, not_true, if_false, run, bind, Except.bind]
            exact run'
      · have contenu' : Content ((oldtable.take (i + 1)).map vue) N := by
          rw [suivante, List.map_append]
          exact contenu.concat_other (by simpa using actif)
        have compte' : neuve.fill = ((oldtable.take (i + 1)).countP fun s => s.mode == .active : Nat) := by
          simp [actives_suivante ici, actif, compte]
        obtain ⟨copie, N', run, fin⟩ := ih (i + 1) (by omega) rep contenu' net compte' place
        refine ⟨copie, N', ?_, fin⟩
        simp only [copyBoucle, ici, actif, ne_eq, not_false_iff, if_true]
        exact run

theorem Represente.actives (rep : Represente f k map M) :
    map.count = (map.table.countP fun s => s.mode == .active : Nat) := by
  rw [rep.count, rep.contenu.card, List.countP_map]
  refine congrArg Nat.cast (List.countP_congr fun s _ => ?_)
  rw [Function.comp_apply, isActive_vue]

/-- Every request so far was granted. -/
def Accordees (tas : Tas) : Prop := ∀ demande ∈ tas, demande.2 = true

def Etablie (f : ModeHachage) (map : HashT) (M : Quotient f.cles → Option Mot) : Prop :=
  ∃ k, Represente f k map M ∧ 3 * map.fill < 2 * map.table.length

/-- The call ends; if the heap gave what was asked for, it returns 0 and the table stands for `M`. -/
def Reussit (f : ModeHachage) (M : Quotient f.cles → Option Mot) (tas : Tas)
    (r : Except Faute (Int × HashT × Tas)) : Prop :=
  ∃ code map' tas', r = .ok (code, map', tas') ∧ tas <:+ tas' ∧
    (Accordees tas' → code = 0 ∧ Etablie f map' M)

theorem puissance_borne (petit : k ≤ 23) : 2 ^ k ≤ 2 ^ 23 := Nat.pow_le_pow_right (by decide) petit

theorem hashInitialize_cas (a : Allocateur) (tas : Tas) (map : HashT) (petit : k ≤ 23) : ∃ longueur,
    (hashInitialize a tas map (2 ^ k : Nat) = (-1, map, (longueur, false) :: tas)) ∨
    (k ≤ 22 ∧ hashInitialize a tas map (2 ^ k : Nat) = (0, { map with
      fill := 0
      count := 0
      mask := BitVec.ofInt 32 ((2 ^ k : Nat) - 1)
      table := List.replicate (2 ^ k) (HashSlot.nul .empty) }, (longueur, true) :: tas)) := by
  refine ⟨BitVec.ofInt 32 ((2 ^ k : Nat) * kHashSlot), ?_⟩
  cases accorde : a.accorde tas (BitVec.ofInt 32 ((2 ^ k : Nat) * kHashSlot)) with
  | false => exact .inl (by simp only [hashInitialize, memAlloc, accorde])
  | true =>
      have longueur := a.borne tas _ accorde
      have grand := puissance_borne petit
      rw [BitVec.toNat_ofInt, kHashSlot] at longueur
      have borne : 2 ^ k ≤ 2 ^ 22 := by omega
      refine .inr ⟨(Nat.pow_le_pow_iff_right (by decide)).mp borne, ?_⟩
      simp only [hashInitialize, memAlloc, accorde]
      rfl

theorem redimensionner_reussit (rep : Represente f k map M) (a : Allocateur) (tas : Tas) {tours k' : Nat}
    (assez : 7 + 2 ^ 23 ≤ tours) (petit : 3 ≤ k' ∧ k' ≤ 23) (place : 3 * map.count < 2 * (2 ^ k' : Nat)) :
    Reussit f M tas (redimensionner a tours tas map (2 ^ k : Nat) (2 ^ k' : Nat)) := by
  obtain ⟨longueur, refus | ⟨borne, accord⟩⟩ := hashInitialize_cas a tas map petit.2
  · refine ⟨-1, map, (longueur, false) :: tas, ?_, List.suffix_cons .., fun accordees => ?_⟩
    · simp only [redimensionner, refus]
    · cases accordees _ (List.mem_cons_self ..)
  · have actives := rep.actives
    set neuve : HashT := { map with
      fill := 0
      count := 0
      mask := BitVec.ofInt 32 ((2 ^ k' : Nat) - 1)
      table := List.replicate (2 ^ k') (HashSlot.nul .empty) }
    have repN : Represente f k' neuve fun _ => none :=
      represente_neuve ⟨petit.1, borne⟩ rep.hfunc rep.cmp rfl rfl rfl rfl
    have taille : neuve.table.length = 2 ^ k' := repN.longueur
    have grand := puissance_borne petit.2
    obtain ⟨copie, N, run, repC, contenu, compte⟩ := copyBoucle_copie rep.contenu.distinct rep.hache
      tours map.table.length 0 (Nat.zero_add _) repN
      (by rw [List.take_zero]; intro key value; simp)
      (fun s mem => by
        rw [(List.mem_replicate.mp mem).2]
        nofun)
      rfl (by omega) (by omega)
    obtain rfl := contenu.unique rep.contenu.content
    refine ⟨0, copie, (longueur, true) :: tas, ?_, List.suffix_cons .., fun _ => ⟨rfl, k', repC, ?_⟩⟩
    · simp only [redimensionner, accord, hashCopy]
      rw [Int.toNat_natCast, ← rep.longueur, run]
      rfl
    · rw [compte, ← actives, repC.longueur]
      exact place

theorem hashUpdate_reussit (rep : Represente f k map M) (a : Allocateur) (tas : Tas) {tours : Nat}
    (assez : 7 + 2 ^ 23 ≤ tours) (charge : 3 * map.fill < 2 * map.table.length + 3) :
    Reussit f M tas (hashUpdate a tours tas map) := by
  have longueur := rep.longueur
  have borne : 2 ^ k ≤ 2 ^ 22 := Nat.pow_le_pow_right (by decide) rep.petit.2
  have huit : 2 ^ 3 ≤ 2 ^ k := Nat.pow_le_pow_right (by decide) rep.petit.1
  have actives : 0 ≤ map.count ∧ map.count ≤ map.fill := by
    have pleins : (map.table.countP fun s => s.mode == .active) ≤ map.table.countP fun s => s.mode ≠ .empty :=
      List.countP_mono_left fun s _ actif => by
        rw [eq_of_beq actif]
        rfl
    rw [rep.actives, rep.fill]
    omega
  have taille : long (map.mask.toNat + 1) = (2 ^ k : Nat) := by
    rw [rep.masque, long_eq] <;> omega
  have triple : long (3 * map.fill) = 3 * map.fill := long_eq (by omega) (by omega)
  have double : long (2 * (2 ^ k : Nat)) = 2 * (2 ^ k : Nat) := long_eq (by omega) (by omega)
  have quadruple : long (4 * map.count) = 4 * map.count := long_eq (by omega) (by omega)
  have grande : long ((2 ^ k : Nat) * 2) = (2 ^ (k + 1) : Nat) := by
    rw [long_eq (by omega) (by omega), Nat.pow_succ]
    omega
  unfold hashUpdate
  simp only [taille, triple, double, quadruple, grande]
  split
  · rw [if_neg (by rw [Nat.pow_succ]; omega)]
    refine redimensionner_reussit rep a tas assez (by have := rep.petit; omega) ?_
    rw [Nat.pow_succ]
    omega
  · next sous =>
      split
      · next peu =>
          rw [kHashMinsize] at peu
          obtain ⟨k', rfl⟩ : ∃ k', k = k' + 1 := ⟨k - 1, by have := rep.petit; omega⟩
          have moitie : ((2 ^ (k' + 1) : Nat) : Int) / 2 = (2 ^ k' : Nat) := by
            rw [Nat.pow_succ]
            omega
          have seize : 3 < k' + 1 := (Nat.pow_lt_pow_iff_right (a := 2) (by decide)).mp (by omega)
          rw [moitie]
          refine redimensionner_reussit rep a tas assez (by have := rep.petit; omega) ?_
          rw [Nat.pow_succ] at peu
          omega
      · exact ⟨0, map, tas, rfl, List.suffix_refl _, fun _ => ⟨rfl, k, rep, by omega⟩⟩

end Redimension

theorem hashUpdate_suffixe (a : Allocateur) (tas : Tas) (map : HashT) {tours : Nat} :
    Sat (hashUpdate a tours tas map) (fun x => tas <:+ x.2.2) fun _ => True := by
  have redimension : ∀ oldSize newSize,
      Sat (redimensionner a tours tas map oldSize newSize) (fun x => tas <:+ x.2.2) fun _ => True := by
    intro oldSize newSize
    rw [redimensionner, hashInitialize, memAlloc]
    cases a.accorde tas (BitVec.ofInt 32 (newSize * kHashSlot)) with
    | false => exact List.suffix_cons ..
    | true =>
        simp only
        cases hashCopy tours _ map.table oldSize with
        | ok copie => exact List.suffix_cons ..
        | error faute => trivial
  have meme : ∀ code : Int, Sat (.ok (code, map, tas) : Except Faute _) (fun x => tas <:+ x.2.2) fun _ => True :=
    fun _ => List.suffix_refl tas
  unfold hashUpdate
  generalize long (map.mask.toNat + 1) = oldSize
  dsimp only
  generalize long (oldSize * 2) = newSize
  exact .ite (.ite (meme _) (redimension _ _)) (.ite (redimension _ _) (meme _))

/-! With more turns the searches return the same slots. -/

section Tours

theorem lookupBoucle_steady (map : HashT) (key hash index perturb : Mot) (slot : Nat)
    (freeslot : Option Nat) :
    Steady fun tours => lookupBoucle map key hash tours index perturb slot freeslot := by
  refine .of_succ fun n p fini => ?_
  induction n generalizing index perturb slot freeslot with
  | zero => cases fini
  | succ n ih =>
      obtain ⟨s, lu, suite⟩ := bind_ok fini
      unfold lookupBoucle
      rw [lu]
      by_cases vide : s.mode = .empty
      · rw [if_pos vide] at suite
        simpa only [bind, Except.bind, if_pos vide] using suite
      · rw [if_neg vide] at suite
        by_cases egale : s.mode = .active ∧ trouve map key hash s
        · rw [if_pos egale] at suite
          simpa only [bind, Except.bind, if_neg vide, if_pos egale] using suite
        · rw [if_neg egale] at suite
          simpa only [bind, Except.bind, if_neg vide, if_neg egale] using ih _ _ _ _ suite

theorem hashLookup_steady (map : HashT) (key hash : Mot) : Steady fun tours => hashLookup tours map key hash :=
  lookupBoucle_steady map key hash _ _ _ _

theorem copyBoucle_steady (oldtable : List HashSlot) (reste i : Nat) (map : HashT) :
    Steady fun tours => copyBoucle tours oldtable reste i map := by
  induction reste generalizing i map with
  | zero => exact .const _
  | succ reste ih =>
      simp only [copyBoucle]
      split
      · exact .const _
      · refine .ite (ih (i + 1) map) ?_
        exact (hashLookup_steady map _ _).bind fun new => ih (i + 1) _

theorem hashUpdate_steady (a : Allocateur) (tas : Tas) (map : HashT) :
    Steady fun tours => hashUpdate a tours tas map := by
  have redimension : ∀ oldSize newSize, Steady fun tours => redimensionner a tours tas map oldSize newSize := by
    intro oldSize newSize
    simp only [redimensionner]
    split
    · exact (copyBoucle_steady _ _ _ _).bind fun _ => .const _
    · exact .const _
  simp only [hashUpdate]
  exact .ite (.ite (.const _) (redimension _ _)) (.ite (redimension _ _) (.const _))

end Tours

end ProjetSysteme.Invariant
