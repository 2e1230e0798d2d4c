/- Properties/GdbLine
   source: kernel/gdb_serial.c
   digest: The packets that getpacket finds on a line, and those that putfrags leaves there. -/

import ProjetSysteme.Invariant.GdbFrames

set_option autoImplicit false
set_option relaxedAutoImplicit false

namespace ProjetSysteme.Properties.GdbLine

open Kernel.GdbSerial Invariant.Gdb Library.Buffer Library.RunLength

/-- What `getpacket` does: turns without a packet, then one with a packet. -/
inductive Recoit : Reception → Reception → Prop
  | fin {r r' : Reception} : Tour r (.inr r') → Recoit r r'
  | encore {r r₁ r' : Reception} : Tour r (.inl r₁) → Recoit r₁ r' → Recoit r r'

theorem recoit_iff_ends {r r' : Reception} : Recoit r r' ↔ Library.Loop.Ends tourGetpacket r r' := by
  constructor
  · intro recoit
    induction recoit with
    | fin tour => exact .last (tour_iff.mpr tour)
    | encore tour _ ih => exact .turn (tour_iff.mpr tour) ih
  · intro ends
    induction ends with
    | last tour => exact .fin (tour_iff.mp tour)
    | turn tour _ ih => exact .encore (tour_iff.mp tour) ih

theorem recoit_getpacket {r r' : Reception} (recoit : Recoit r r') : getpacket r = some r' :=
  Library.Loop.loop_of_ends (fun r => r.ligne.entree.length) (fun _ _ => tour_consomme)
    (recoit_iff_ends.mp recoit) (Nat.lt_succ_self _)

/-- `getpacket` returns exactly on the lines that begin with packets of wrong checksum and unended data,
each answered or dropped, and then hold a packet of right checksum, or data that fill the buffer with the
checksum 255, which are taken for a packet and not acknowledged. -/
theorem getpacket_accepte_iff (r r' : Reception) : getpacket r = some r' ↔ Recoit r r' :=
  ⟨fun resultat => recoit_iff_ends.mpr (Library.Loop.ends_of_loop resultat), recoit_getpacket⟩

/-- A piece of line that brings no packet, and its answer. -/
inductive Echec : List Octet → List Octet → Prop
  | rejet {a d f : List Octet} {quatre unite : Octet} : Attaque a → Cloture d f → somme d ≠ xmitcsum quatre unite →
      Echec (a ++ d ++ f ++ [quatre, unite]) [0x2d]
  | perdu {a d : List Octet} : Attaque a → Deborde d → somme d ≠ 0xff → Echec (a ++ d) []

theorem Echec.tour {piece reponse : List Octet} (echec : Echec piece reponse) (b : Tampon) (reste sortie : List Octet) :
    ∃ b', Tour ⟨b, ⟨piece ++ reste, sortie⟩⟩ (.inl ⟨b', ⟨reste, sortie ++ reponse⟩⟩) := by
  cases echec with
  | rejet attaque cloture faux => exact ⟨_, .rejet attaque cloture (by simp) faux⟩
  | perdu attaque deborde faux =>
      rw [List.append_nil]
      exact ⟨_, .perdu attaque deborde (by simp) faux⟩

/-- The string of a packet: its first three characters go when the third is a colon. -/
def contenu (d : List Octet) : List Octet :=
  let chaine := d.takeWhile (· ≠ 0)
  if chaine[2]? = some 0x3a then chaine.drop 3 else chaine

theorem text_accepter (b : Tampon) {d : List Octet} (rest sortie : List Octet) (place : d.length ≤ bufmax) :
    text 0 bufmax (accepter b d rest sortie).buffer = contenu d := by
  have chaine := text_deposer b place
  have court : (d.takeWhile (· ≠ 0)).length ≤ d.length := (List.takeWhile_prefix _).length_le
  have fin : (text 0 bufmax (deposer b d)).length = bufmax → deposer b d bufmax = 0 := by
    intro plein
    rw [chaine] at plein
    rw [deposer, show d.length = bufmax by omega, Function.update_self]
  have retire := text_sansSequence fin
  have troisieme : ∀ trois : 3 ≤ (d.takeWhile (· ≠ 0)).length,
      (d.takeWhile (· ≠ 0))[2]? = some (deposer b d 2) := by
    intro trois
    rw [← chaine] at trois ⊢
    exact text_getElem? (by omega)
  rw [chaine] at retire
  unfold accepter contenu
  by_cases trois : 3 ≤ (d.takeWhile (· ≠ 0)).length
  · rw [if_pos trois] at retire
    dsimp only
    rw [troisieme trois]
    by_cases colon : deposer b d 2 = 0x3a
    · rw [if_pos colon, if_pos (congrArg some colon), ← retire]
    · rw [if_neg colon, if_neg fun same => colon (Option.some.inj same), ← chaine]
  · rw [if_neg trois] at retire
    have aucun : ¬ (d.takeWhile (· ≠ 0))[2]? = some 0x3a := by
      rw [List.getElem?_eq_none (by omega)]
      simp
    dsimp only
    rw [if_neg aucun]
    split
    · exact retire
    · exact chaine

def sequenceId (d : List Octet) : List Octet := if d[2]? = some 0x3a then d.take 2 else []

/-- What is sent after the `+` of a packet whose data are `d`: its sequence ID. The third byte of the buffer is
not written by less than two characters, and may be a colon that was there before: then the first two bytes of
the buffer are sent, which begin with the data and their zero. -/
structure Suit (d ids : List Octet) : Prop where
  long : 2 ≤ d.length → ids = sequenceId d
  court : d.length < 2 → ids = [] ∨ ids.length = 2 ∧ d ++ [0] <+: ids

theorem depose_dedans (b : Tampon) {d : List Octet} {i : Nat} (avant : i < d.length) : d[i]? = some (deposer b d i) := by
  rw [deposer, Function.update_of_ne (by omega)]
  exact store_start avant

theorem depose_debut (b : Tampon) {d : List Octet} (court : d.length < 2) :
    d ++ [0] <+: [deposer b d 0, deposer b d 1] := by
  rcases d with _ | ⟨x, _ | ⟨y, reste⟩⟩
  · exact ⟨[deposer b [] 1], rfl⟩
  · exact List.prefix_refl _
  · exact absurd court (by simp)

theorem ligne_accepter (b : Tampon) (d rest sortie : List Octet) :
    ∃ ids, (accepter b d rest sortie).ligne = ⟨rest, sortie ++ 0x2b :: ids⟩ ∧ Suit d ids := by
  by_cases deux : 2 ≤ d.length
  · refine ⟨sequenceId d, ?_, fun _ => rfl, fun court => absurd deux (by omega)⟩
    have troisieme : deposer b d 2 = 0x3a ↔ d[2]? = some 0x3a := by
      by_cases trois : 2 < d.length
      · rw [depose_dedans b trois, Option.some.injEq]
      · have fin : d.length = 2 := by omega
        rw [List.getElem?_eq_none (by omega), deposer, fin, Function.update_self]
        simp
    rw [accepter, sequenceId]
    by_cases colon : d[2]? = some 0x3a
    · rw [if_pos (troisieme.mpr colon), if_pos colon]
      obtain ⟨x, y, reste, rfl⟩ : ∃ x y reste, d = x :: y :: reste := by
        rcases d with _ | ⟨x, _ | ⟨y, reste⟩⟩
        · cases colon
        · cases colon
        · exact ⟨x, y, reste, rfl⟩
      have premier := depose_dedans b (d := x :: y :: reste) (i := 0) (by simp)
      have second := depose_dedans b (d := x :: y :: reste) (i := 1) (by simp)
      simp only [List.getElem?_cons_zero, List.getElem?_cons_succ, Option.some.injEq] at premier second
      rw [← premier, ← second]
      rfl
    · rw [if_neg fun depose => colon (troisieme.mp depose), if_neg colon]
  · have court : d.length < 2 := by omega
    unfold accepter
    split
    · exact ⟨_, rfl, fun long => absurd long deux, fun _ => .inr ⟨rfl, depose_debut b court⟩⟩
    · exact ⟨[], rfl, fun long => absurd long deux, fun _ => .inl rfl⟩

theorem recoit_apres_echecs (echecs : List (List Octet × List Octet)) (b : Tampon) (rest sortie : List Octet)
    {a d f : List Octet} {quatre unite : Octet} (mauvais : ∀ e ∈ echecs, Echec e.1 e.2)
    (attaque : Attaque a) (cloture : Cloture d f) (juste : somme d = xmitcsum quatre unite) :
    ∃ b' ids, Recoit
        ⟨b, ⟨(echecs.map Prod.fst).flatten ++ (a ++ d ++ f ++ quatre :: unite :: rest), sortie⟩⟩
        ⟨b', ⟨rest, sortie ++ (echecs.map Prod.snd).flatten ++ 0x2b :: ids⟩⟩ ∧
      Suit d ids ∧ text 0 bufmax b' = contenu d := by
  have place : d.length ≤ bufmax := by
    cases cloture with
    | diese court => exact court.le
    | echappee plein => exact plein.le
  induction echecs generalizing b sortie with
  | nil =>
      obtain ⟨ids, ligne, suit⟩ := ligne_accepter b d rest sortie
      refine ⟨(accepter b d rest sortie).buffer, ids, ?_, suit, text_accepter b rest sortie place⟩
      have fin := Recoit.fin (Tour.paquet (r := ⟨b, ⟨a ++ d ++ f ++ quatre :: unite :: rest, sortie⟩⟩) attaque
        cloture rfl juste)
      rw [List.map_nil, List.flatten_nil, List.nil_append, List.map_nil, List.flatten_nil, List.append_nil,
        ← ligne]
      exact fin
  | cons e echecs ih =>
      obtain ⟨premier, autres⟩ := List.forall_mem_cons.mp mauvais
      obtain ⟨b₁, tour⟩ := premier.tour b
        ((echecs.map Prod.fst).flatten ++ (a ++ d ++ f ++ quatre :: unite :: rest)) sortie
      obtain ⟨b', ids, recoit, suit, chaine⟩ := ih b₁ (sortie ++ e.2) autres
      refine ⟨b', ids, ?_, suit, chaine⟩
      rw [List.map_cons, List.flatten_cons, List.append_assoc, List.map_cons, List.flatten_cons,
        ← List.append_assoc sortie]
      exact .encore tour recoit

section Emission

variable {frags : List Outfrag}

/-- The body that `putfrags` sends is a run-length encoding of its fragments, with its checksum. The packet
is sent once for each answer up to the first `+`, and nothing else is received or sent. -/
theorem putfrags_transmet (lisible : Lisible frags) (l l' : Ligne) :
    decode 0x2a compte (corps frags) = texteFrags frags ∧
    (∃ quatre unite, trame frags = 0x24 :: corps frags ++ [0x23, quatre, unite] ∧
      xmitcsum quatre unite = somme (corps frags)) ∧
    (putfrags frags l = some l' ↔
      ∃ refus plus, (∀ c ∈ refus, c &&& 0x7f ≠ 0x2b) ∧ plus &&& 0x7f = 0x2b ∧
        l.entree = refus ++ plus :: l'.entree ∧
        l'.sortie = l.sortie ++ (List.replicate (refus.length + 1) (trame frags)).flatten) :=
  ⟨(corps_code lisible).decode_eq, trame_eq frags, repeter_iff⟩

theorem putfrags_transmet_exemple :
    decode 0x2a compte (corps [⟨[0x45], 0, false⟩, ⟨[0, 0, 0x12], 3, true⟩]) =
      [0x45, 0x30, 0x30, 0x30, 0x30, 0x31, 0x32] := by
  have lisible : Lisible [⟨[0x45], 0, false⟩, ⟨[0, 0, 0x12], 3, true⟩] := by simp [Lisible, Outfrag.octets]
  exact (putfrags_transmet lisible ⟨[], []⟩ ⟨[], []⟩).1

theorem sansFin_of_absent {d : List Octet} (absent : 0x23 ∉ d) : SansFin d := by
  rintro front back rfl
  exact absurd (List.mem_append_right _ (List.mem_cons_self ..)) absent

theorem refus_eq (abimes : List (List Octet)) :
    ((abimes.map fun e => (e, [(0x2d : Octet)])).map Prod.snd).flatten = List.replicate abimes.length 0x2d := by
  induction abimes with
  | nil => rfl
  | cons e abimes ih => exact congrArg (List.cons 0x2d) ih

/-- A body that is received as it was sent: it ends at the `#` after it, is shorter than the buffer, holds no zero
and does not begin like a sequence ID. -/
structure Transmissible (d : List Octet) : Prop where
  clos : Cloture d [0x23]
  entier : 0 ∉ d
  sansId : d[2]? ≠ some 0x3a

theorem Transmissible.contenu_eq {d : List Octet} (transmissible : Transmissible d) : contenu d = d := by
  have sansNul : d.takeWhile (· ≠ 0) = d := List.takeWhile_eq_self_iff.mpr fun c mem =>
    decide_eq_true fun nul => transmissible.entier (nul ▸ mem)
  unfold contenu
  dsimp only
  rw [sansNul, if_neg transmissible.sansId]

theorem simples_transmissible (simples : Simples frags) (court : (corps frags).length < bufmax)
    (sansId : (corps frags)[2]? ≠ some 0x3a) : Transmissible (corps frags) where
  clos := .diese court (sansFin_of_absent fun mem => (corps_lettres simples _ mem).2.1 rfl) fun dernier =>
    (corps_lettres simples _ (List.mem_of_getLast? dernier)).2.2 rfl
  entier := fun mem => (corps_lettres simples _ mem).1 rfl
  sansId := sansId

/-- A line that spoils some transmissions of a packet, so that each is answered `-`, and brings the next one
unharmed: the receiver gets the body of the packet once, and its answers make the sender stop after that
transmission. Two bytes may be left for a sender whose packet has less than two characters. -/
theorem transmission_fiable (lisible : Lisible frags) (transmissible : Transmissible (corps frags))
    (abimes : List (List Octet)) (rejetes : ∀ e ∈ abimes, Echec e [0x2d]) (b : Tampon) :
    ∃ b' reponses ids, getpacket ⟨b, ⟨abimes.flatten ++ trame frags, []⟩⟩ = some ⟨b', ⟨[], reponses⟩⟩ ∧
      decode 0x2a compte (text 0 bufmax b') = texteFrags frags ∧
      putfrags frags ⟨reponses, []⟩ = some ⟨ids, (List.replicate (abimes.length + 1) (trame frags)).flatten⟩ ∧
      (2 ≤ (corps frags).length → ids = []) ∧ ids.length ≤ 2 := by
  obtain ⟨quatre, unite, paquet, juste⟩ := trame_eq frags
  obtain ⟨b', ids, recoit, suit, chaine⟩ := recoit_apres_echecs (abimes.map fun e => (e, [0x2d])) b [] []
    (a := [0x24]) (f := [0x23])
    (fun e mem => by
      obtain ⟨x, dans, rfl⟩ := List.mem_map.mp mem
      exact rejetes x dans)
    ⟨[], 0x24, by simp [Bruit], by decide, rfl⟩ transmissible.clos juste.symm
  have memes : (abimes.map fun e => (e, [(0x2d : Octet)])).map Prod.fst = abimes :=
    List.map_map.trans (List.map_id abimes)
  have sansId : sequenceId (corps frags) = [] := if_neg transmissible.sansId
  rw [memes, refus_eq, List.nil_append] at recoit
  refine ⟨b', List.replicate abimes.length 0x2d ++ 0x2b :: ids, ids, ?_, ?_, ?_, fun long => ?_, ?_⟩
  · rw [paquet]
    simpa using recoit_getpacket recoit
  · rw [chaine, transmissible.contenu_eq, (corps_code lisible).decode_eq]
  · refine repeter_iff.mpr ⟨List.replicate abimes.length 0x2d, 0x2b, ?_, by decide, rfl, by simp⟩
    intro c mem
    rw [List.eq_of_mem_replicate mem]
    decide
  · rw [suit.long long, sansId]
  · by_cases long : 2 ≤ (corps frags).length
    · rw [suit.long long, sansId]
      exact Nat.zero_le 2
    · rcases suit.court (by omega) with rfl | ⟨deux, -⟩
      · exact Nat.zero_le 2
      · exact deux.le

def rapport : List Outfrag :=
  [⟨[0x54, 0], 0, false⟩, ⟨[0x05], 1, true⟩, ⟨[0x74, 0x68, 0x72, 0x65, 0x61, 0x64, 0x3a, 0x31, 0x3b, 0], 0, false⟩]

/-- The report is spoiled once: the `+` is the answer to the second transmission. The empty packet comes through at
once, to a buffer of colons. -/
theorem transmission_fiable_exemple : (∃ b' reponses,
    getpacket ⟨fun _ => 0, ⟨[0x24, 0x4f, 0x6b, 0x23, 0x39, 0x61] ++ trame rapport, []⟩⟩ = some ⟨b', ⟨[], reponses⟩⟩ ∧
    decode 0x2a compte (text 0 bufmax b') = texteFrags rapport ∧
    putfrags rapport ⟨reponses, []⟩ = some ⟨[], trame rapport ++ trame rapport⟩) ∧
    ∃ b' reponses ids, getpacket ⟨fun _ => 0x3a, ⟨trame [⟨[0], 0, false⟩], []⟩⟩ = some ⟨b', ⟨[], reponses⟩⟩ ∧
      decode 0x2a compte (text 0 bufmax b') = [] ∧
      putfrags [⟨[0], 0, false⟩] ⟨reponses, []⟩ = some ⟨ids, trame [⟨[0], 0, false⟩]⟩ := by
  have lisible : Lisible rapport := by
    unfold Lisible
    decide
  have transmissible : Transmissible (corps rapport) :=
    ⟨.diese (by decide) (sansFin_of_absent (by decide)) (by decide), by decide, by decide⟩
  have echec : Echec [0x24, 0x4f, 0x6b, 0x23, 0x39, 0x61] [0x2d] :=
    .rejet (a := [0x24]) (d := [0x4f, 0x6b]) (f := [0x23]) ⟨[], 0x24, by simp [Bruit], by decide, rfl⟩
      (.diese (by decide) (sansFin_of_absent (by decide)) (by decide)) (by decide)
  have simples : Simples [⟨[0], 0, false⟩] := by
    intro f mem _
    cases List.mem_singleton.mp mem
    exact ⟨by decide, by decide⟩
  obtain ⟨b', reponses, ids, recu, chaine, envoye, sansReste, -⟩ := transmission_fiable lisible transmissible
    [[0x24, 0x4f, 0x6b, 0x23, 0x39, 0x61]] (fun e mem => List.mem_singleton.mp mem ▸ echec) fun _ => 0
  obtain ⟨b'', reponses', ids', recu', chaine', envoye', -, -⟩ := transmission_fiable simples.lisible
    (simples_transmissible simples (by decide) (by decide)) [] (fun e mem => absurd mem List.not_mem_nil) fun _ => 0x3a
  obtain rfl : ids = [] := sansReste (by decide)
  exact ⟨⟨b', reponses, recu, chaine, envoye⟩, b'', reponses', ids', recu', chaine', envoye'⟩

end Emission

end ProjetSysteme.Properties.GdbLine
