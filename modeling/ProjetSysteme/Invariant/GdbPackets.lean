/- Invariant/GdbPackets
   source: kernel/gdb_serial.c
   digest: What the loops of getpacket and of hex2bin do on the bytes they run over. -/

import Mathlib.Data.List.GetD
import ProjetSysteme.Kernel.GdbSerial
import ProjetSysteme.Library.Buffer

set_option autoImplicit false
set_option relaxedAutoImplicit false

namespace ProjetSysteme.Invariant.Gdb

open Kernel.GdbSerial Library.Buffer

def SansFin (d : List Octet) : Prop :=
  ∀ front back, d = front ++ 0x23 :: back → front.getLast? = some 0x7d

variable {b : Tampon} {d p s : List Octet} {c : Octet}

theorem somme_concat (p : List Octet) (c : Octet) : somme (p ++ [c]) = somme p + c := by
  rw [somme, List.foldl_append]
  rfl

theorem sansFin_nil : SansFin [] := by
  intro front back split
  cases front <;> cases split

theorem sansFin_concat : SansFin (p ++ [c]) ↔ SansFin p ∧ (c = 0x23 → p.getLast? = some 0x7d) := by
  constructor
  · intro sans
    refine ⟨fun front back split => ?_, ?_⟩
    · exact sans front (back ++ [c]) (by rw [split, List.append_assoc, List.cons_append])
    · rintro rfl
      exact sans p [] rfl
  · rintro ⟨sans, dernier⟩ front back split
    rcases List.eq_nil_or_concat back with rfl | ⟨back, x, rfl⟩
    · obtain ⟨rfl, same⟩ := List.append_inj' split rfl
      exact dernier (List.head_eq_of_cons_eq same)
    · rw [List.concat_eq_append, ← List.cons_append, ← List.append_assoc] at split
      exact sans front back (List.append_inj' split rfl).1

theorem fin_iff (b : Tampon) (p : List Octet) :
    (p.length = 0 ∨ store b 0 p (p.length - 1) ≠ 0x7d) ↔ p.getLast? ≠ some 0x7d := by
  rcases List.eq_nil_or_concat p with rfl | ⟨p, c, rfl⟩
  · simp
  · simp [store_concat]

/-- What the inner loop of `getpacket` reads: data up to a `#`, or as many as the buffer holds. -/
inductive Lue (b : Tampon) : List Octet → Lecture → Prop
  | diese {d rest : List Octet} : d.length < bufmax → SansFin d → d.getLast? ≠ some 0x7d →
      Lue b (d ++ 0x23 :: rest) ⟨store b 0 d, d.length, somme d, 0x23, rest⟩
  | plein {d rest : List Octet} : d.length = bufmax → SansFin d →
      Lue b (d ++ rest) ⟨store b 0 d, bufmax, somme d, d.getLastD 0x24, rest⟩

theorem lue_of_lireDonnees {lu : Lecture} (sans : SansFin p) (place : p.length ≤ bufmax)
    (resultat : lireDonnees (store b 0 p) p.length (somme p) (p.getLastD 0x24) s = some lu) :
    Lue b (p ++ s) lu := by
  induction s generalizing p with
  | nil =>
      rw [lireDonnees] at resultat
      split at resultat
      · cases resultat
      · have plein : p.length = bufmax := by omega
        cases resultat
        rw [plein]
        exact .plein plein sans
  | cons c s ih =>
      rw [lireDonnees] at resultat
      split at resultat
      · next reste =>
          split at resultat
          · next fin =>
              obtain ⟨rfl, dernier⟩ := fin
              cases resultat
              exact .diese reste sans ((fin_iff b p).mp dernier)
          · next suite =>
              rw [List.append_cons]
              refine ih (sansFin_concat.mpr ⟨sans, ?_⟩) (by simpa using Nat.succ_le_of_lt reste) ?_
              · intro diese
                by_contra autre
                exact suite ⟨diese, (fin_iff b p).mpr autre⟩
              · simpa [store_concat, somme_concat] using resultat
      · have plein : p.length = bufmax := by omega
        cases resultat
        rw [plein]
        exact .plein plein sans

theorem lireDonnees_suite {q : List Octet} (sans : SansFin (p ++ q)) (place : (p ++ q).length ≤ bufmax) :
    lireDonnees (store b 0 p) p.length (somme p) (p.getLastD 0x24) (q ++ s) =
      lireDonnees (store b 0 (p ++ q)) (p ++ q).length (somme (p ++ q)) ((p ++ q).getLastD 0x24) s := by
  induction q generalizing p with
  | nil => rw [List.append_nil, List.nil_append]
  | cons c q ih =>
      rw [List.append_cons] at sans place ⊢
      rw [← ih sans place, List.cons_append, lireDonnees, if_pos (by simp at place; omega), if_neg]
      · simp [store_concat, somme_concat]
      · rw [fin_iff]
        rintro ⟨rfl, autre⟩
        refine autre (sans p q ?_)
        rw [List.append_assoc]
        rfl

theorem lireDonnees_iff {lu : Lecture} : lireDonnees b 0 0 0x24 s = some lu ↔ Lue b s lu := by
  constructor
  · exact fun resultat => lue_of_lireDonnees (p := []) sansFin_nil (Nat.zero_le _) resultat
  · rintro (@⟨d, rest, place, sans, dernier⟩ | @⟨d, rest, plein, sans⟩)
    · refine (lireDonnees_suite (b := b) (p := []) sans place.le).trans ?_
      rw [List.nil_append, lireDonnees, if_pos place, if_pos ⟨rfl, (fin_iff b _).mpr dernier⟩]
    · refine (lireDonnees_suite (b := b) (p := []) sans plein.le).trans ?_
      rw [List.nil_append, plein]
      cases rest <;> rfl

def Bruit (l : List Octet) : Prop := ∀ c ∈ l, c &&& 0x7f ≠ 0x24

theorem attendreDebut_iff {rest : List Octet} : attendreDebut s = some rest ↔
    ∃ bruit debut, Bruit bruit ∧ debut &&& 0x7f = 0x24 ∧ s = bruit ++ debut :: rest := by
  induction s with
  | nil =>
      constructor
      · rintro ⟨⟩
      · rintro ⟨bruit, debut, -, -, vide⟩
        cases bruit <;> cases vide
  | cons c s ih =>
      rw [attendreDebut]
      split
      · next debut =>
          constructor
          · rintro ⟨⟩
            exact ⟨[], c, by simp [Bruit], debut, rfl⟩
          · rintro ⟨bruit, d, silence, -, split⟩
            cases bruit with
            | nil =>
                cases split
                rfl
            | cons x bruit =>
                cases split
                exact absurd debut (silence c (List.mem_cons_self ..))
      · next autre =>
          rw [ih]
          constructor
          · rintro ⟨bruit, d, silence, debut, rfl⟩
            refine ⟨c :: bruit, d, ?_, debut, rfl⟩
            exact List.forall_mem_cons.mpr ⟨autre, silence⟩
          · rintro ⟨bruit, d, silence, debut, split⟩
            cases bruit with
            | nil =>
                cases split
                exact absurd debut autre
            | cons x bruit =>
                cases split
                exact ⟨bruit, d, (List.forall_mem_cons.mp silence).2, debut, rfl⟩

theorem strlenDepuis_eq (s : Tampon) (tours i : Nat) :
    strlenDepuis s tours i = i + (((List.range' i tours).map s).takeWhile (· ≠ 0)).length := by
  induction tours generalizing i with
  | zero => rfl
  | succ tours ih =>
      rw [strlenDepuis, List.range'_succ, List.map_cons, List.takeWhile_cons]
      by_cases nul : s i = 0
      · simp [nul]
      · rw [if_neg nul, ih, if_pos (decide_eq_true nul), List.length_cons]
        omega

theorem strlen_eq (s : Tampon) : strlen s = (text 0 bufmax s).length := by
  rw [strlen, strlenDepuis_eq, Nat.zero_add, ← List.range_eq_range', text]

theorem decaler_eq (s : Tampon) (n : Nat) :
    (List.range' 3 n).foldl (fun b i => Function.update b (i - 3) (b i)) s =
      fun j => if j < n then s (j + 3) else s j := by
  induction n with
  | zero => simp
  | succ n ih =>
      rw [List.range'_concat, List.foldl_append, ih]
      funext j
      simp only [List.foldl_cons, List.foldl_nil, Nat.one_mul]
      rcases Nat.lt_trichotomy j n with avant | rfl | apres
      · rw [Function.update_of_ne (by omega), if_pos avant, if_pos (by omega)]
      · rw [Nat.add_comm 3 j, Nat.add_sub_cancel, Function.update_self, if_neg (by omega), if_pos (by omega)]
      · rw [Function.update_of_ne (by omega), if_neg (by omega), if_neg (by omega)]

def sansSequence (s : Tampon) : Tampon := fun j => if j + 3 ≤ (text 0 bufmax s).length then s (j + 3) else s j

def deposer (b : Tampon) (d : List Octet) : Tampon := Function.update (store b 0 d) d.length 0

theorem text_deposer (b : Tampon) {d : List Octet} (place : d.length ≤ bufmax) :
    text 0 bufmax (deposer b d) = d.takeWhile (· ≠ 0) := by
  refine text_takeWhile (fun i avant => ?_) ?_
  · rw [deposer, Function.update_of_ne (by omega)]
    exact store_start avant
  · exact (Nat.eq_or_lt_of_le place).imp_right fun court => ⟨court, Function.update_self ..⟩

theorem text_sansSequence {s : Tampon} (fin : (text 0 bufmax s).length = bufmax → s bufmax = 0) :
    text 0 bufmax (sansSequence s) = if 3 ≤ (text 0 bufmax s).length then (text 0 bufmax s).drop 3 else text 0 bufmax s := by
  have place : (text 0 bufmax s).length ≤ bufmax := text_length_le
  have nul : s (text 0 bufmax s).length = 0 := by
    rcases @text_ended _ _ 0 bufmax s with plein | ⟨_, nul⟩
    · rw [plein, fin plein]
    · exact nul
  split
  · next sequence =>
      refine text_eq (fun i avant => ?_) (fun mem => nul_not_mem_text (List.mem_of_mem_drop mem)) (.inr ?_)
      · rw [List.length_drop] at avant
        rw [List.getElem?_drop, Nat.add_comm, text_getElem? (by omega), sansSequence, if_pos (by omega)]
      · rw [List.length_drop]
        refine ⟨by omega, ?_⟩
        rw [sansSequence, if_pos (by omega), Nat.sub_add_cancel sequence]
        exact nul
  · next court =>
      refine text_congr fun i _ => ?_
      rw [sansSequence, if_neg (by omega)]

theorem retirerSequence_eq (r : Reception) : retirerSequence r =
    if r.buffer 2 = 0x3a then
      ⟨sansSequence r.buffer, ⟨r.ligne.entree, r.ligne.sortie ++ [r.buffer 0, r.buffer 1]⟩⟩
    else r := by
  rw [retirerSequence]
  refine if_congr Iff.rfl ?_ rfl
  have retire : (fun j => if j < strlen r.buffer + 1 - 3 then r.buffer (j + 3) else r.buffer j) =
      sansSequence r.buffer := by
    funext j
    rw [sansSequence, strlen_eq]
    exact if_congr (by omega) rfl rfl
  dsimp only
  rw [decaler_eq, retire]
  simp [gdbSerialSend]

section Tours

/-- The characters up to the start character, which may have its eighth bit set. -/
def Attaque (a : List Octet) : Prop := ∃ bruit debut, Bruit bruit ∧ debut &&& 0x7f = 0x24 ∧ a = bruit ++ [debut]

/-- Data and what ends them: a `#`, which the data may hold when they fill the buffer. -/
inductive Cloture : List Octet → List Octet → Prop
  | diese {d : List Octet} : d.length < bufmax → SansFin d → d.getLast? ≠ some 0x7d → Cloture d [0x23]
  | echappee {d : List Octet} : d.length = bufmax → SansFin d → d.getLast? = some 0x23 → Cloture d []

def Deborde (d : List Octet) : Prop := d.length = bufmax ∧ SansFin d ∧ d.getLast? ≠ some 0x23

/-- The checksum that two characters stand for. -/
def xmitcsum (quatre unite : Octet) : Octet := (hex quatre <<< 4).setWidth 8 + (hex unite).setWidth 8

def accepter (b : Tampon) (d rest sortie : List Octet) : Reception :=
  if deposer b d 2 = 0x3a then
    ⟨sansSequence (deposer b d), ⟨rest, sortie ++ [0x2b, deposer b d 0, deposer b d 1]⟩⟩
  else ⟨deposer b d, ⟨rest, sortie ++ [0x2b]⟩⟩

inductive Tour (r : Reception) : Reception ⊕ Reception → Prop
  | rejet {a d f rest : List Octet} {quatre unite : Octet} : Attaque a → Cloture d f →
      r.ligne.entree = a ++ d ++ f ++ quatre :: unite :: rest → somme d ≠ xmitcsum quatre unite →
      Tour r (.inl ⟨deposer r.buffer d, ⟨rest, r.ligne.sortie ++ [0x2d]⟩⟩)
  | perdu {a d rest : List Octet} : Attaque a → Deborde d → r.ligne.entree = a ++ d ++ rest →
      somme d ≠ 0xff → Tour r (.inl ⟨deposer r.buffer d, ⟨rest, r.ligne.sortie⟩⟩)
  | paquet {a d f rest : List Octet} {quatre unite : Octet} : Attaque a → Cloture d f →
      r.ligne.entree = a ++ d ++ f ++ quatre :: unite :: rest → somme d = xmitcsum quatre unite →
      Tour r (.inr (accepter r.buffer d rest r.ligne.sortie))
  | deborde {a d rest : List Octet} : Attaque a → Deborde d → r.ligne.entree = a ++ d ++ rest →
      somme d = 0xff → Tour r (.inr ⟨deposer r.buffer d, ⟨rest, r.ligne.sortie⟩⟩)

variable {r : Reception}

theorem attaque_debut {a t : List Octet} (attaque : Attaque a) (recu : r.ligne.entree = a ++ t) :
    attendreDebut r.ligne.entree = some t := by
  obtain ⟨bruit, debut, silence, dollar, rfl⟩ := attaque
  exact attendreDebut_iff.mpr ⟨bruit, debut, silence, dollar, by simp [recu]⟩

theorem Cloture.lue {b : Tampon} {d f : List Octet} (cloture : Cloture d f) (t : List Octet) :
    lireDonnees b 0 0 0x24 (d ++ (f ++ t)) = some ⟨store b 0 d, d.length, somme d, 0x23, t⟩ := by
  rw [lireDonnees_iff]
  cases cloture with
  | diese place sans dernier => exact .diese place sans dernier
  | echappee plein sans dernier =>
      have fini : d.getLastD 0x24 = 0x23 := by rw [List.getLastD_eq_getLast?, dernier, Option.getD_some]
      rw [plein, ← fini]
      exact .plein plein sans

theorem tour_diese {a d f rest : List Octet} {quatre unite : Octet} (attaque : Attaque a) (cloture : Cloture d f)
    (recu : r.ligne.entree = a ++ d ++ f ++ quatre :: unite :: rest) :
    tourGetpacket r =
      if somme d ≠ xmitcsum quatre unite then
        some (.inl ⟨deposer r.buffer d, ⟨rest, r.ligne.sortie ++ [0x2d]⟩⟩)
      else some (.inr (accepter r.buffer d rest r.ligne.sortie)) := by
  rw [List.append_assoc, List.append_assoc] at recu
  simp only [tourGetpacket, attaque_debut attaque recu, cloture.lue, bind, Option.bind_some, gdbSerialRecv, if_true]
  refine ite_congr rfl (fun _ => rfl) fun _ => ?_
  rw [retirerSequence_eq, accepter]
  refine congrArg (fun x => some (Sum.inr x)) (ite_congr rfl (fun _ => ?_) fun _ => rfl)
  simp [deposer, gdbSerialSend]

theorem tour_court {a d f t : List Octet} (attaque : Attaque a) (cloture : Cloture d f)
    (recu : r.ligne.entree = a ++ d ++ f ++ t) (court : t.length < 2) : tourGetpacket r = none := by
  rw [List.append_assoc, List.append_assoc] at recu
  rcases t with _ | ⟨quatre, _ | ⟨unite, t⟩⟩
  · simp only [tourGetpacket, attaque_debut attaque recu, cloture.lue, bind, Option.bind_some, gdbSerialRecv,
      if_true, Option.bind_none]
  · simp only [tourGetpacket, attaque_debut attaque recu, cloture.lue, bind, Option.bind_some, gdbSerialRecv,
      if_true, Option.bind_none]
  · exact absurd court (by simp)

theorem tour_plein {a d rest : List Octet} (attaque : Attaque a) (deborde : Deborde d)
    (recu : r.ligne.entree = a ++ d ++ rest) :
    tourGetpacket r =
      if somme d ≠ 0xff then some (.inl ⟨deposer r.buffer d, ⟨rest, r.ligne.sortie⟩⟩)
      else some (.inr ⟨deposer r.buffer d, ⟨rest, r.ligne.sortie⟩⟩) := by
  obtain ⟨plein, sans, dernier⟩ := deborde
  rw [List.append_assoc] at recu
  have lue : lireDonnees r.buffer 0 0 0x24 (d ++ rest) =
      some ⟨store r.buffer 0 d, d.length, somme d, d.getLastD 0x24, rest⟩ := by
    rw [lireDonnees_iff, plein]
    exact .plein plein sans
  have autre : d.getLastD 0x24 ≠ 0x23 := by
    rw [List.getLastD_eq_getLast?]
    cases fini : d.getLast? with
    | none => decide
    | some c => exact fun same => dernier (fini.trans (congrArg some same))
  simp only [tourGetpacket, attaque_debut attaque recu, lue, bind, Option.bind_some, if_neg autre]
  rfl

theorem tour_iff {x : Reception ⊕ Reception} : tourGetpacket r = some x ↔ Tour r x := by
  constructor
  · intro tour
    obtain ⟨s, debute, suite⟩ := Option.bind_eq_some_iff.mp tour
    obtain ⟨lu, lue, suite⟩ := Option.bind_eq_some_iff.mp suite
    obtain ⟨bruit, debut, silence, dollar, recu⟩ := attendreDebut_iff.mp debute
    have attaque : Attaque (bruit ++ [debut]) := ⟨bruit, debut, silence, dollar, rfl⟩
    have ferme : ∀ {d f t : List Octet}, Cloture d f → s = d ++ (f ++ t) → Tour r x := by
      intro d f t cloture lues
      have entree : r.ligne.entree = bruit ++ [debut] ++ d ++ f ++ t := by simp [recu, lues]
      by_cases court : t.length < 2
      · cases (tour_court attaque cloture entree court).symm.trans tour
      obtain ⟨quatre, unite, rest, rfl⟩ : ∃ quatre unite rest, t = quatre :: unite :: rest := by
        rcases t with _ | ⟨quatre, _ | ⟨unite, t⟩⟩
        · exact absurd Nat.zero_lt_two court
        · exact absurd Nat.one_lt_two court
        · exact ⟨quatre, unite, t, rfl⟩
      rw [tour_diese attaque cloture entree] at tour
      split at tour
      · next faux =>
          cases tour
          exact .rejet attaque cloture entree faux
      · next juste =>
          cases tour
          exact .paquet attaque cloture entree (not_not.mp juste)
    rcases lireDonnees_iff.mp lue with @⟨d, rest, place, sans, dernier⟩ | @⟨d, rest, plein, sans⟩
    · exact ferme (.diese place sans dernier) rfl
    · by_cases dernier : d.getLast? = some 0x23
      · exact ferme (.echappee plein sans dernier) rfl
      · have entree : r.ligne.entree = bruit ++ [debut] ++ d ++ rest := by simp [recu]
        rw [tour_plein attaque ⟨plein, sans, dernier⟩ entree] at tour
        split at tour
        · next faux =>
            cases tour
            exact .perdu attaque ⟨plein, sans, dernier⟩ entree faux
        · next juste =>
            cases tour
            exact .deborde attaque ⟨plein, sans, dernier⟩ entree (not_not.mp juste)
  · intro tour
    cases tour with
    | rejet attaque cloture recu faux => rw [tour_diese attaque cloture recu, if_pos faux]
    | perdu attaque deborde recu faux => rw [tour_plein attaque deborde recu, if_pos faux]
    | paquet attaque cloture recu juste => rw [tour_diese attaque cloture recu, if_neg (not_not.mpr juste)]
    | deborde attaque deborde recu juste => rw [tour_plein attaque deborde recu, if_neg (not_not.mpr juste)]

theorem tour_consomme {x : Reception ⊕ Reception} (tour : tourGetpacket r = some x) :
    (x.elim id id).ligne.entree.length < r.ligne.entree.length := by
  have recu : ∀ {a d s : List Octet}, Attaque a → r.ligne.entree = a ++ d ++ s →
      s.length < r.ligne.entree.length := by
    rintro a d s ⟨bruit, debut, -, -, rfl⟩ entree
    rw [entree]
    simp
    omega
  have ferme : ∀ {a d f rest : List Octet} {quatre unite : Octet}, Attaque a →
      r.ligne.entree = a ++ d ++ f ++ quatre :: unite :: rest → rest.length < r.ligne.entree.length := by
    intro a d f rest quatre unite attaque entree
    rw [List.append_assoc] at entree
    refine lt_of_le_of_lt ?_ (recu attaque entree)
    simp
    omega
  cases tour_iff.mp tour with
  | rejet attaque cloture entree faux => exact ferme attaque entree
  | perdu attaque deborde entree faux => exact recu attaque entree
  | paquet attaque cloture entree juste =>
      have reste := ferme attaque entree
      unfold accepter
      split <;> exact reste
  | deborde attaque deborde entree juste => exact recu attaque entree

theorem getpacket_consomme {r' : Reception} (recu : getpacket r = some r') :
    r'.ligne.entree.length < r.ligne.entree.length :=
  (Library.Loop.ends_of_loop recu).invariant (I := fun s : Reception => s.ligne.entree.length ≤ r.ligne.entree.length)
    (Q := fun s : Reception => s.ligne.entree.length < r.ligne.entree.length)
    (fun _ s' avant tour => (tour_consomme (x := .inl s') tour).le.trans avant)
    (fun _ s' avant tour => (tour_consomme (x := .inr s') tour).trans_le avant) le_rfl

end Tours

end ProjetSysteme.Invariant.Gdb
