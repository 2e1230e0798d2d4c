/- Properties/GdbCommands
   source: kernel/gdb_serial.c
   digest: The commands of the remote debugger that read and write registers and memory. -/

import ProjetSysteme.Properties.GdbMemory
import ProjetSysteme.Properties.GdbSession

set_option autoImplicit false
set_option relaxedAutoImplicit false

namespace ProjetSysteme.Properties.GdbCommands

open Kernel.GdbSerial Invariant.Gdb Library.Buffer Library.RunLength GdbMemory GdbSession

variable {cb : Option Callbacks} {base : Entier} {e : Etat} {d : Debordement} {s : Etat × Ligne}

section Debordements

/-- `P` names a register whose end wraps to the start of the registers, with a right first byte. -/
def RegistreAvant (inbuf : Tampon) : Prop :=
  ∃ reg eqp, lireHexa inbuf 1 = (reg, eqp) ∧ eqp ≠ 1 ∧ inbuf eqp = 0x3d ∧ reg.toNat % 2 ^ 30 = 2 ^ 30 - 1 ∧
    hex (inbuf (eqp + 1)) ≠ -1 ∧ hex (inbuf (eqp + 2)) ≠ -1

/-- `m` reads a length whose double wraps, from an address after which more bytes are mapped than the
buffer holds. -/
def LectureEnroulee (c : Client) (inbuf : Tampon) : Prop :=
  ∃ addr len p, lireZone inbuf = some (addr, len, p) ∧ 2 ^ 31 ≤ len.toNat ∧ len.toNat ≤ 2 ^ 31 + bufmax / 2 ∧
    ∀ i, i < bufmax + 2 → adressePhysique c (addr + BitVec.ofNat 32 i) ≠ none

/-- `M` writes a length for which the address after the digits wraps to an address before the end of the
buffer, and, when the size of the array wraps to 0 as well, a right first byte. -/
def EcritureEnroulee (base : Entier) (inbuf : Tampon) : Prop :=
  ∃ addr len p, lireZone inbuf = some (addr, len, p) ∧ inbuf p = 0x3a ∧ bufmax < p + 1 + len.toNat * 2 ∧
    (base.toNat + (p + 1) + len.toNat * 2) % 2 ^ 32 ≤ base.toNat + bufmax ∧
    (0xfffffff0 < len.toNat → hex (inbuf (p + 1)) ≠ -1 ∧ hex (inbuf (p + 2)) ≠ -1)

inductive Depasse (base : Entier) (e : Etat) : Debordement → Prop
  | regs : (e.inbuf 0).toNat = 0x50 → RegistreAvant e.inbuf → Depasse base e .regs
  | inbuf : (e.inbuf 0).toNat = 0x6d → LectureEnroulee e.client e.inbuf → Depasse base e .inbuf
  | outbuf : (e.inbuf 0).toNat = 0x4d → EcritureEnroulee base e.inbuf → Depasse base e .outbuf

theorem registre_avant (reg : Entier) : ¬ 64 < (reg + 1) * 4 ∧ 64 < (reg * 4).toNat ↔
    reg.toNat % 2 ^ 30 = 2 ^ 30 - 1 := by
  have borne := reg.isLt
  rw [BitVec.lt_def, BitVec.toNat_mul, BitVec.toNat_add, BitVec.toNat_mul]
  change ¬ 64 < (reg.toNat + 1) % 2 ^ 32 * 4 % 2 ^ 32 ∧ 64 < reg.toNat * 4 % 2 ^ 32 ↔ _
  omega

theorem paire_juste (a b : Octet) : (paire a b).slt 0 = false ↔ hex a ≠ -1 ∧ hex b ≠ -1 := by
  rw [← Bool.not_eq_true, paire_negative, not_or]

theorem commandeP_deborde : commandeP e = .error d ↔ d = .regs ∧ RegistreAvant e.inbuf := by
  unfold commandeP RegistreAvant
  rcases lue : lireHexa e.inbuf 1 with ⟨reg, eqp⟩
  dsimp only
  constructor
  · intro erreur
    split at erreur
    · cases erreur
    · next egal =>
        rw [not_or, not_not] at egal
        split at erreur
        · cases erreur
        · split at erreur
          · cases erreur
          · next court =>
              split at erreur
              · next avant =>
                  split at erreur
                  · cases erreur
                  · next juste =>
                      cases erreur
                      exact ⟨rfl, reg, eqp, rfl, egal.1, egal.2, (registre_avant reg).mp ⟨court, avant⟩,
                        (paire_juste ..).mp (Bool.eq_false_iff.mpr juste)⟩
              · split at erreur <;> cases erreur
  · rintro ⟨rfl, reg', eqp', ⟨⟩, apres, egal, dernier, justes⟩
    obtain ⟨court, avant⟩ := (registre_avant reg).mpr dernier
    have autre : reg ≠ 0x29 := by
      rintro rfl
      exact absurd dernier (by decide)
    have positive : ¬ (paire (e.inbuf (eqp + 1)) (e.inbuf (eqp + 2))).slt 0 = true :=
      Bool.eq_false_iff.mp ((paire_juste ..).mpr justes)
    rw [if_neg (not_or.mpr ⟨apres, not_not.mpr egal⟩), if_neg autre, if_neg court, if_pos avant]
    exact if_neg positive

theorem adresses_atteint {c : Client} {k n : Nat} {v : Entier} : k ≤ (adresses c n v).length ↔
    k ≤ n ∧ ∀ i, i < k → adressePhysique c (v + BitVec.ofNat 32 i) ≠ none := by
  constructor
  · intro assez
    refine ⟨assez.trans adresses_length, fun i avant => ?_⟩
    rw [← adresses_getElem? (avant.trans_le assez), List.getElem?_eq_getElem (avant.trans_le assez)]
    exact Option.some_ne_none _
  · rintro ⟨place, mappes⟩
    by_contra court
    exact mappes _ (not_le.mp court) (adresses_fin ((not_le.mp court).trans_le place))

theorem commandem_deborde : commandem e = .error d ↔ d = .inbuf ∧ LectureEnroulee e.client e.inbuf := by
  unfold commandem LectureEnroulee
  rcases lireZone e.inbuf with _ | ⟨addr, len, p⟩
  · simp
  dsimp only
  have double : ¬ BitVec.ofNat 32 bufmax < len * 2 ∧ bufmax + 1 < len.toNat ↔
      2 ^ 31 ≤ len.toNat ∧ len.toNat ≤ 2 ^ 31 + bufmax / 2 := by
    have borne := len.isLt
    rw [BitVec.lt_def, BitVec.toNat_mul]
    change ¬ 400 < len.toNat * 2 % 2 ^ 32 ∧ 401 < len.toNat ↔ 2 ^ 31 ≤ len.toNat ∧ len.toNat ≤ 2 ^ 31 + 200
    omega
  rw [gdbCopyin_eq]
  dsimp only
  constructor
  · intro erreur
    split at erreur
    · cases erreur
    · next court =>
        split at erreur
        · next plein =>
            cases erreur
            obtain ⟨place, mappes⟩ := adresses_atteint.mp plein
            obtain ⟨bas, haut⟩ := double.mp ⟨court, place⟩
            exact ⟨rfl, addr, len, p, rfl, bas, haut, mappes⟩
        · split at erreur <;> cases erreur
  · rintro ⟨rfl, addr', len', p', ⟨⟩, bas, haut, mappes⟩
    obtain ⟨court, place⟩ := double.mpr ⟨bas, haut⟩
    have plein : bufmax + 1 < (adresses e.client len.toNat addr).length := adresses_atteint.mpr ⟨place, mappes⟩
    rw [if_neg court, if_pos plein]

theorem commandeM_deborde (place : base.toNat + bufmax < 2 ^ 32) :
    commandeM base e = .error d ↔ d = .outbuf ∧ EcritureEnroulee base e.inbuf := by
  unfold commandeM EcritureEnroulee
  rcases lireZone e.inbuf with _ | ⟨addr, len, p⟩
  · simp
  dsimp only
  have fin : ¬ base + BitVec.ofNat 32 bufmax < base + BitVec.ofNat 32 (p + 1) + len * 2 ↔
      (base.toNat + (p + 1) + len.toNat * 2) % 2 ^ 32 ≤ base.toNat + bufmax := by
    rw [BitVec.lt_def, BitVec.toNat_add, BitVec.toNat_ofNat, Nat.mod_eq_of_lt (by omega : bufmax < 2 ^ 32),
      Nat.mod_eq_of_lt place, BitVec.toNat_add, BitVec.toNat_add, BitVec.toNat_ofNat, BitVec.toNat_mul, not_lt]
    simp
  constructor
  · intro erreur
    split at erreur
    · cases erreur
    · next colon =>
        split at erreur
        · cases erreur
        · next court =>
            split at erreur
            · next grand =>
                split at erreur
                · cases erreur
                · next debute =>
                    cases erreur
                    refine ⟨rfl, addr, len, p, rfl, not_not.mp colon, grand, fin.mp court, fun enroule => ?_⟩
                    exact (paire_juste ..).mp (Bool.eq_false_iff.mpr fun faux => debute ⟨enroule, faux⟩)
            · split at erreur <;> cases erreur
  · rintro ⟨rfl, addr', len', p', ⟨⟩, colon, grand, court, juste⟩
    have debute : ¬ (0xfffffff0 < len.toNat ∧
        (paire (e.inbuf (p + 1)) (e.inbuf (p + 1 + 1))).slt 0 = true) := fun faux =>
      Bool.eq_false_iff.mp ((paire_juste ..).mpr (juste faux.1)) faux.2
    rw [if_neg (not_not.mpr colon), if_neg (fin.mpr court), if_pos grand]
    exact if_neg debute

theorem commandeX_juste (d : Debordement) : commandeX base e ≠ .error d := by
  unfold commandeX
  intro erreur
  dsimp only at erreur
  repeat' split at erreur
  all_goals cases erreur

theorem commande_deborde (place : base.toNat + bufmax < 2 ^ 32) :
    commande cb base e = .error d ↔ Depasse base e d := by
  constructor
  · intro erreur
    unfold commande at erreur
    split at erreur
    case h_5 lettre =>
      obtain ⟨rfl, avant⟩ := commandeP_deborde.mp erreur
      exact .regs lettre avant
    case h_6 lettre =>
      obtain ⟨rfl, lecture⟩ := commandem_deborde.mp erreur
      exact .inbuf lettre lecture
    case h_7 lettre =>
      obtain ⟨rfl, ecriture⟩ := (commandeM_deborde place).mp erreur
      exact .outbuf lettre ecriture
    case h_8 => exact absurd erreur (commandeX_juste d)
    all_goals cases erreur
  · intro depasse
    unfold commande
    cases depasse with
    | regs lettre avant =>
        rw [lettre]
        exact commandeP_deborde.mpr ⟨rfl, avant⟩
    | inbuf lettre lecture =>
        rw [lettre]
        exact commandem_deborde.mpr ⟨rfl, lecture⟩
    | outbuf lettre ecriture =>
        rw [lettre]
        exact (commandeM_deborde place).mpr ⟨rfl, ecriture⟩

/-- A session that receives such a packet, after packets for which nothing goes wrong. -/
inductive Abandon (cb : Option Callbacks) (base : Entier) : Etat × Ligne → Debordement → Prop
  | ici {s : Etat × Ligne} {p : Tampon} {l : Ligne} {d : Debordement} :
      getpacket ⟨s.1.inbuf, s.2⟩ = some ⟨p, l⟩ → Depasse base { s.1 with inbuf := p, connected := true } d →
      Abandon cb base s d
  | suite {s s₁ : Etat × Ligne} {p : Tampon} {d : Debordement} : Tour cb base s p s₁ → s₁.1.retval = .more →
      Abandon cb base s₁ d → Abandon cb base s d

theorem repondre_entree {l l' : Ligne} {r : Reponse} (repond : repondre l r = some l') :
    l'.entree.length ≤ l.entree.length := by
  cases r with
  | aucune =>
      cases repond
      exact le_rfl
  | paquet frags =>
      obtain ⟨refus, plus, -, -, recu, -⟩ := repeter_iff.mp repond
      rw [recu]
      simp
      omega

theorem tourConverse_of_tour {p : Tampon} {s₁ : Etat × Ligne} (tour : Tour cb base s p s₁) :
    tourConverse cb base s = some (if s₁.1.retval = .more then .inl s₁ else .inr (.ok s₁)) := by
  obtain ⟨l, r, recu, execute, repond⟩ := tour
  simp only [tourConverse, recu, execute, repond, bind, Option.bind_some]
  split <;> rfl

theorem tourConverse_consomme (s s₁ : Etat × Ligne) (tour : tourConverse cb base s = some (.inl s₁)) :
    s₁.2.entree.length < s.2.entree.length := by
  rcases tour_of_tourConverse tour with ⟨d, ⟨⟩⟩ | ⟨p, s', ⟨l, r, recu, -, repond⟩, same⟩
  split at same
  · cases same
    exact (repondre_entree repond).trans_lt (getpacket_consomme recu)
  · cases same

theorem tourConverse_deborde (place : base.toNat + bufmax < 2 ^ 32) :
    tourConverse cb base s = some (.inr (.error d)) ↔ ∃ p l, getpacket ⟨s.1.inbuf, s.2⟩ = some ⟨p, l⟩ ∧
      Depasse base { s.1 with inbuf := p, connected := true } d := by
  constructor
  · intro tour
    obtain ⟨⟨p, l⟩, recu, suite⟩ := Option.bind_eq_some_iff.mp tour
    refine ⟨p, l, recu, ?_⟩
    split at suite
    · next d' erreur =>
        cases suite
        exact (commande_deborde place).mp erreur
    · obtain ⟨l', -, suite⟩ := Option.bind_eq_some_iff.mp suite
      split at suite <;> cases suite
  · rintro ⟨p, l, recu, depasse⟩
    have erreur : commande cb base { s.1 with inbuf := p, connected := true } = .error d :=
      (commande_deborde place).mpr depasse
    simp only [tourConverse, recu, erreur, bind, Option.bind_some]

theorem ends_deborde (place : base.toNat + bufmax < 2 ^ 32) :
    Library.Loop.Ends (tourConverse cb base) s (.error d) ↔ Abandon cb base s d := by
  constructor
  · intro ends
    generalize fin : (.error d : Except Debordement (Etat × Ligne)) = x at ends
    induction ends with
    | last tour =>
        subst fin
        obtain ⟨p, l, recu, depasse⟩ := (tourConverse_deborde place).mp tour
        exact .ici recu depasse
    | turn tour _ ih =>
        rcases tour_of_tourConverse tour with ⟨d, ⟨⟩⟩ | ⟨p, s₁, tour, same⟩
        split at same
        · next encore =>
            cases same
            exact .suite tour encore (ih fin)
        · cases same
  · intro abandon
    induction abandon with
    | ici recu depasse => exact .last ((tourConverse_deborde place).mpr ⟨_, _, recu, depasse⟩)
    | suite tour encore _ ih =>
        have suivant := tourConverse_of_tour tour
        rw [if_pos encore] at suivant
        exact .turn suivant ih

/-- The stub writes outside of its buffers and of the registers exactly in the sessions that bring one of three
packets: `P` with a register whose end wraps, `m` or `M` with a length that wraps the check on it. A right first
byte is needed to write before the registers, and in an array whose size has wrapped to 0. -/
theorem session_deborde_iff (place : base.toNat + bufmax < 2 ^ 32) (l : Ligne) :
    gdbSerialConverse cb base e l = some (.error d) ↔
      ∃ e₀ r l₀, report cb { e with params := { e.params with regsChanged := false }, retval := .more } = (e₀, r) ∧
        repondre l r = some l₀ ∧ Abandon cb base (e₀, l₀) d := by
  have boucle : ∀ s₀ : Etat × Ligne,
      Library.Loop.loop (tourConverse cb base) (s₀.2.entree.length + 1) s₀ = some (.error d) ↔ Abandon cb base s₀ d :=
    fun s₀ => (Library.Loop.loop_iff (fun s => s.2.entree.length) tourConverse_consomme (Nat.lt_succ_self _)).trans
      (ends_deborde place)
  rw [gdbSerialConverse]
  rcases report cb { e with params := { e.params with regsChanged := false }, retval := .more } with ⟨e₀, r⟩
  constructor
  · intro fin
    obtain ⟨l₀, repond, tours⟩ := Option.bind_eq_some_iff.mp fin
    exact ⟨e₀, r, l₀, rfl, repond, (boucle (e₀, l₀)).mp tours⟩
  · rintro ⟨_, _, l₀, ⟨⟩, repond, abandon⟩
    exact Option.bind_eq_some_iff.mpr ⟨l₀, repond, (boucle (e₀, l₀)).mpr abandon⟩

def arret : Etat where
  params := { threadId := -1, signo := 5, regs := fun _ => 0, regsChanged := false }
  client := { octets := fun _ => 0, cr0 := 0, cr3 := 0 }
  inbuf := fun _ => 0
  connected := false
  gdbSerialDebug := false
  retval := .more

def registreEnroule : List Octet :=
  [0x2b, 0x24, 0x50, 0x33, 0x66, 0x66, 0x66, 0x66, 0x66, 0x66, 0x66, 0x3d, 0x30, 0x30, 0x23, 0x65, 0x61]

def debordementDe : Except Debordement (Etat × Ligne) → Option Debordement
  | .error d => some d
  | .ok _ => none

theorem session_deborde_iff_exemple : ∃ e₀ l₀, Abandon none 0x1000 (e₀, l₀) .regs := by
  have deborde : (gdbSerialConverse none 0x1000 arret ⟨registreEnroule, []⟩).map
      debordementDe = some (some .regs) := by decide +kernel
  rcases fin : gdbSerialConverse none 0x1000 arret ⟨registreEnroule, []⟩ with _ | (d | s)
  · rw [fin] at deborde
    cases deborde
  · rw [fin] at deborde
    obtain rfl : d = .regs := Option.some.inj (Option.some.inj deborde)
    obtain ⟨e₀, r, l₀, -, -, abandon⟩ := (session_deborde_iff (by decide) _).mp fin
    exact ⟨e₀, l₀, abandon⟩
  · rw [fin] at deborde
    cases deborde

end Debordements

section Relecture

variable {e₁ : Etat} {frags : List Outfrag}

/-- The reply to `g`, without its runs, sent back after a `G`, gives the registers the bytes they had. -/
theorem registres_rendus (lettre : (e.inbuf 0).toNat = 0x67) (lus : commande cb base e = .ok (e₁, .paquet frags))
    {e' : Etat} (lettre' : (e'.inbuf 0).toNat = 0x47)
    (rendus : Contient e'.inbuf 1 (decode 0x2a compte (corps frags))) : ∃ e₂,
      commande cb base e' = .ok (e₂, ok) ∧ (∀ i, i < 64 → e₂.params.regs i = e.params.regs i) ∧
      e₂.params.regsChanged = true ∧ e₂.client = e'.client := by
  unfold commande at lus
  rw [lettre] at lus
  have reponse : frags = [{ data := (List.range 64).map e.params.regs, len := 64, hexify := true }] :=
    (Reponse.paquet.inj (congrArg Prod.snd (Except.ok.inj lus))).symm
  have lisible : Lisible frags := by
    rw [reponse]
    simp [Lisible]
  have envoi : texteFrags frags = ((List.range 64).map e.params.regs).flatMap chiffres := by
    have entier : ((List.range 64).map e.params.regs).take 64 = (List.range 64).map e.params.regs :=
      List.take_of_length_le (by simp)
    rw [reponse]
    simp only [texteFrags, texte, Outfrag.octets, List.flatMap_cons, List.flatMap_nil, List.append_nil, if_true]
    rw [if_pos (by decide), entier]
  rw [(corps_code lisible).decode_eq, envoi] at rendus
  have relus := paires_chiffres rendus
  rw [List.length_map, List.length_range] at relus
  refine ⟨{ e' with params := { e'.params with
    regs := store e'.params.regs 0 ((List.range 64).map e.params.regs), regsChanged := true } }, ?_, ?_, rfl, rfl⟩
  · unfold commande
    rw [lettre']
    dsimp only
    rw [commandeG, hex2bin_eq, relus]
    simp
  · intro i avant
    have lu := store_start (b := e'.params.regs) (d := (List.range 64).map e.params.regs) (i := i) (by simpa using avant)
    rw [List.getElem?_map, List.getElem?_range avant] at lu
    exact (Option.some.inj lu).symm

def observe : Etat := { arret with
  params := { arret.params with regs := fun i => BitVec.ofNat 8 i }
  inbuf := fun _ => 0x67 }

def rend : Etat := { arret with
  inbuf := store (fun _ => 0x47) 1 (decode 0x2a compte (corps [{ data := (List.range 64).map observe.params.regs
                                                                 len := 64
                                                                 hexify := true }])) }

theorem registres_rendus_exemple : ∃ e₂, commande none 0 rend = .ok (e₂, ok) ∧ e₂.params.regs 5 = 5 := by
  have rendus : Contient rend.inbuf 1 (decode 0x2a compte (corps [{ data := (List.range 64).map observe.params.regs
                                                                    len := 64
                                                                    hexify := true }])) := fun k avant =>
    store_inside (b := fun _ => 0x47) (o := 1) avant
  obtain ⟨e₂, rendu, memes, -, -⟩ := @registres_rendus none 0 observe observe _ rfl rfl rend rfl rendus
  exact ⟨e₂, rendu, memes 5 (by decide)⟩

theorem commandem_lit {addr len : Entier} {p : Nat} {src : List Octet} (zone : lireZone e.inbuf = some (addr, len, p))
    (court : len.toNat * 2 ≤ bufmax) (plein : 0 < len.toNat) (taille : (adresses e.client len.toNat addr).length = len.toNat)
    (lus : (adresses e.client len.toNat addr).map e.client.octets = src) : ∃ e₂ frags,
      commandem e = .ok (e₂, .paquet frags) ∧ e₂.client = e.client ∧ e₂.params = e.params ∧
      decode 0x2a compte (corps frags) = src.flatMap chiffres := by
  have longueur : src.length = len.toNat := by rw [← lus, List.length_map, taille]
  have double : ¬ BitVec.ofNat 32 bufmax < len * 2 := by
    rw [BitVec.lt_def, BitVec.toNat_mul]
    change ¬ 400 < len.toNat * 2 % 2 ^ 32
    change len.toNat * 2 ≤ 400 at court
    omega
  have place : ¬ bufmax + 1 < len.toNat := by omega
  refine ⟨{ e with inbuf := store e.inbuf 0 src }, [{ data := (List.range (bufmax + 1)).map (store e.inbuf 0 src)
                                                      len := len.toNat
                                                      hexify := true }], ?_, rfl, rfl, ?_⟩
  · unfold commandem
    rw [zone]
    dsimp only
    rw [if_neg double, gdbCopyin_eq]
    dsimp only
    rw [taille, if_neg place, lus]
    simp
  · have lisible : Lisible [{ data := (List.range (bufmax + 1)).map (store e.inbuf 0 src), len := len.toNat, hexify := true }] := by
      simp [Lisible]
    have donnees : ((List.range (bufmax + 1)).map (store e.inbuf 0 src)).take len.toNat = src := by
      rw [← longueur]
      exact store_take (by omega)
    rw [(corps_code lisible).decode_eq]
    simp [texteFrags, texte, Outfrag.octets, Nat.pos_iff_ne_zero.mp plein, donnees]

theorem errpacket_ne_ok (errchar : Octet) : errpacket errchar ≠ ok := by
  rintro ⟨⟩

theorem commandeM_ok {addr len : Entier} {p : Nat} (zone : lireZone e.inbuf = some (addr, len, p))
    (ecrite : commandeM base e = .ok (e₁, ok)) :
    len.toNat * 2 ≤ bufmax ∧ (paires e.inbuf (p + 1) len.toNat).length = len.toNat ∧
      gdbCopyout e.client (paires e.inbuf (p + 1) len.toNat) addr = (e₁.client, true) := by
  have refuse : ∀ {x : Etat} {errchar : Octet}, (.ok (x, errpacket errchar) : ResultatCommande) ≠ .ok (e₁, ok) :=
    fun egal => errpacket_ne_ok _ (congrArg Prod.snd (Except.ok.inj egal))
  unfold commandeM at ecrite
  rw [zone] at ecrite
  dsimp only at ecrite
  rw [hex2bin_eq] at ecrite
  split at ecrite
  · exact absurd ecrite refuse
  · split at ecrite
    · exact absurd ecrite refuse
    · split at ecrite
      · split at ecrite
        · exact absurd ecrite refuse
        · cases ecrite
      · next place =>
          split at ecrite
          · exact absurd ecrite refuse
          · next juste =>
              have justes : (paires e.inbuf (p + 1) len.toNat).length = len.toNat := by simpa using juste
              have octets := store_range (b := fun _ => 0) (d := paires e.inbuf (p + 1) len.toNat)
              rw [justes] at octets
              refine ⟨by omega, justes, ?_⟩
              rw [octets] at ecrite
              have fin := Except.ok.inj ecrite
              unfold ecrireClient at fin
              rcases copie : gdbCopyout e.client (paires e.inbuf (p + 1) len.toNat) addr with ⟨client, complet⟩
              rw [copie] at fin
              cases complet with
              | false => exact absurd (congrArg Prod.snd fin) (errpacket_ne_ok _)
              | true =>
                  have memoire : e₁.client = client := (congrArg (fun x => x.1.client) fin).symm
                  rw [memoire]

/-- When `M` has answered OK for at least one byte, `m` on the same bytes answers, runs aside, the digits that `M`
was given, in lower case. The bytes written are distinct and are not those of the entries that translate them. -/
theorem ecriture_relue {addr len : Entier} {p p' : Nat} (lettre : (e.inbuf 0).toNat = 0x4d)
    (zone : lireZone e.inbuf = some (addr, len, p)) (plein : 0 < len.toNat) (ecrite : commande cb base e = .ok (e₁, ok))
    (hors : HorsTables e.client len.toNat addr) (distinctes : (adresses e.client len.toNat addr).Nodup) {e' : Etat}
    (meme : e'.client = e₁.client) (lettre' : (e'.inbuf 0).toNat = 0x6d)
    (zone' : lireZone e'.inbuf = some (addr, len, p')) : ∃ e₂ frags,
      commande cb base e' = .ok (e₂, .paquet frags) ∧ e₂.client = e'.client ∧ e₂.params = e'.params ∧
      decode 0x2a compte (corps frags) = (List.range' (p + 1) (2 * len.toNat)).map fun k => minuscule (e.inbuf k) := by
  have ecriteM : commandeM base e = .ok (e₁, ok) := by
    unfold commande at ecrite
    rwa [lettre] at ecrite
  obtain ⟨court, taille, ecrit⟩ := commandeM_ok zone ecriteM
  rw [← chiffres_paires taille]
  generalize paires e.inbuf (p + 1) len.toNat = src at taille ecrit ⊢
  rw [← taille] at hors distinctes
  have copie := copie_of_gdbCopyout hors.stable distinctes ecrit
  have memes : adresses e'.client len.toNat addr = adresses e.client src.length addr := by
    rw [meme, ← taille]
    exact copie.traduites
  have relus : (adresses e'.client len.toNat addr).map e'.client.octets = src := by
    rw [memes, meme]
    exact copie.relus
  obtain ⟨e₂, frags, repond, client, params, digits⟩ := commandem_lit zone' court plein
    (memes ▸ copie.complet.trans taille) relus
  refine ⟨e₂, frags, ?_, client, params, digits⟩
  unfold commande
  rw [lettre']
  exact repond

def paquetM : Etat := { arret with
  client := pagine
  inbuf := store (fun _ => 0) 0 [0x4d, 0x31, 0x66, 0x66, 0x66, 0x2c, 0x32, 0x3a, 0x61, 0x42, 0x63, 0x44] }

def paquetm : Etat := { arret with
  client := (gdbCopyout pagine [0xab, 0xcd] 0x1fff).1
  inbuf := store (fun _ => 0) 0 [0x6d, 0x31, 0x66, 0x66, 0x66, 0x2c, 0x32] }

theorem ecriture_relue_exemple : ∃ e₂ frags, commande none 0x1000 paquetm = .ok (e₂, .paquet frags) ∧
    decode 0x2a compte (corps frags) = [0x61, 0x62, 0x63, 0x64] := by
  have zone : lireZone paquetM.inbuf = some (0x1fff, 2, 7) := by decide
  have zone' : lireZone paquetm.inbuf = some (0x1fff, 2, 7) := by decide
  have ecrite : commande none 0x1000 paquetM = .ok ({ paquetM with client := paquetm.client }, ok) := rfl
  have distinctes : (adresses pagine 2 0x1fff).Nodup := by
    rw [adresses_pagine]
    decide
  obtain ⟨e₂, frags, repond, -, -, digits⟩ := @ecriture_relue none 0x1000 paquetM _ 0x1fff 2 7 7 rfl zone (by decide)
    ecrite pagine_hors distinctes paquetm rfl rfl zone'
  exact ⟨e₂, frags, repond, digits.trans (by decide)⟩

end Relecture

section Binaire

/-- The second list is the first with some bytes after a 0x7d and changed, at least those that are 0x7d. -/
inductive Quote : List Octet → List Octet → Prop
  | nil : Quote [] []
  | plain {c : Octet} {src d : List Octet} : c ≠ 0x7d → Quote src d → Quote (c :: src) (c :: d)
  | echappe {c : Octet} {src d : List Octet} : Quote src d → Quote (c :: src) (0x7d :: (c ^^^ 0x20) :: d)

theorem contient_cons {entree : Tampon} {i : Nat} {c : Octet} {d : List Octet} (lus : Contient entree i (c :: d)) :
    entree i = c ∧ Contient entree (i + 1) d := by
  obtain ⟨premier, suite⟩ := contient_append.mp (show Contient entree i ([c] ++ d) from lus)
  exact ⟨(Option.some.inj (premier 0 (by simp))).symm, suite⟩

theorem contient_update {entree : Tampon} {i o : Nat} {d : List Octet} (lus : Contient entree i d) (avant : o < i)
    (c : Octet) : Contient (Function.update entree o c) i d := by
  intro k dedans
  rw [Function.update_of_ne (by omega)]
  exact lus k dedans

theorem dequoter_eq {src d : List Octet} (quote : Quote src d) {fin tours : Nat} {inbuf : Tampon} {lu out : Nat}
    (lus : Contient inbuf lu d) (longueur : fin = lu + d.length) (assez : d.length ≤ tours) (ordre : out ≤ lu) :
    dequoter fin tours inbuf lu out = (store inbuf out src, out + src.length, true) := by
  induction quote generalizing tours inbuf lu out with
  | nil =>
      rw [List.length_nil, Nat.add_zero] at longueur
      cases tours with
      | zero => simp [dequoter]
      | succ tours =>
          rw [dequoter, if_neg (by omega)]
          simp
  | @plain c src d autre _ ih =>
      obtain ⟨tours, rfl⟩ : ∃ t, tours = t + 1 := ⟨tours - 1, by simp at assez; omega⟩
      rw [List.length_cons] at longueur assez
      obtain ⟨premier, suite⟩ := contient_cons lus
      rw [dequoter, if_pos (by omega), premier, if_neg autre,
        ih (contient_update suite (by omega) c) (by omega) (by omega) (by omega), store_cons, List.length_cons]
      refine Prod.ext rfl (Prod.ext ?_ rfl)
      dsimp only
      omega
  | @echappe c src d _ ih =>
      rw [List.length_cons, List.length_cons] at longueur assez
      obtain ⟨tours, rfl⟩ : ∃ t, tours = t + 1 := ⟨tours - 1, by omega⟩
      obtain ⟨premier, suite⟩ := contient_cons lus
      obtain ⟨second, suite⟩ := contient_cons suite
      have octet : (c ^^^ 0x20) ^^^ 0x20 = c := by rw [BitVec.xor_assoc, BitVec.xor_self, BitVec.xor_zero]
      rw [dequoter, if_pos (by omega), if_pos premier, if_neg (by omega), second, octet,
        ih (contient_update suite (by omega) c) (by omega) (by omega) (by omega), store_cons, List.length_cons]
      refine Prod.ext rfl (Prod.ext ?_ rfl)
      dsimp only
      omega

theorem commandeX_ecrit {addr len : Entier} {p : Nat} {src d : List Octet} (place : base.toNat + bufmax < 2 ^ 32)
    (zone : lireZone e.inbuf = some (addr, len, p)) (colon : e.inbuf p = 0x3a) (quote : Quote src d)
    (lus : Contient e.inbuf (p + 1) d) (longueur : d.length = len.toNat) (court : p + 1 + d.length ≤ bufmax) :
    commandeX base e = .ok (ecrireClient { e with inbuf := store e.inbuf 0 src } src addr) := by
  have adresse : (base + BitVec.ofNat 32 (p + 1)).toNat = base.toNat + (p + 1) := by
    rw [BitVec.toNat_add, BitVec.toNat_ofNat, Nat.mod_eq_of_lt (by omega : p + 1 < 2 ^ 32), Nat.mod_eq_of_lt (by omega)]
  have bout : (base + BitVec.ofNat 32 (p + 1) + len).toNat = base.toNat + (p + 1) + d.length := by
    rw [BitVec.toNat_add, adresse, ← longueur, Nat.mod_eq_of_lt (by omega)]
  have limite : (base + BitVec.ofNat 32 bufmax).toNat = base.toNat + bufmax := by
    rw [BitVec.toNat_add, BitVec.toNat_ofNat, Nat.mod_eq_of_lt (by omega : bufmax < 2 ^ 32), Nat.mod_eq_of_lt place]
  have dedans : ¬ base + BitVec.ofNat 32 bufmax < base + BitVec.ofNat 32 (p + 1) + len := by
    rw [BitVec.lt_def, limite, bout]
    omega
  have fin : (if base + BitVec.ofNat 32 (p + 1) < base + BitVec.ofNat 32 (p + 1) + len then p + 1 + len.toNat else p + 1) =
      p + 1 + d.length := by
    split
    · omega
    · next vide =>
        rw [BitVec.lt_def, adresse, bout] at vide
        omega
  unfold commandeX
  rw [zone]
  dsimp only
  rw [if_neg (not_not.mpr colon), if_neg dedans, fin, Nat.add_sub_cancel_left,
    dequoter_eq quote lus rfl le_rfl (Nat.zero_le _)]
  dsimp only
  rw [Nat.zero_add, store_range, if_neg (by simp)]

theorem commandeM_ecrit {addr len : Entier} {p : Nat} {src : List Octet} (place : base.toNat + bufmax < 2 ^ 32)
    (zone : lireZone e.inbuf = some (addr, len, p)) (colon : e.inbuf p = 0x3a)
    (lus : Contient (fun k => minuscule (e.inbuf k)) (p + 1) (src.flatMap chiffres)) (longueur : src.length = len.toNat)
    (court : p + 1 + 2 * src.length ≤ bufmax) : commandeM base e = .ok (ecrireClient e src addr) := by
  have dedans : ¬ base + BitVec.ofNat 32 bufmax < base + BitVec.ofNat 32 (p + 1) + len * 2 := by
    rw [BitVec.lt_def, BitVec.toNat_add, BitVec.toNat_ofNat, Nat.mod_eq_of_lt (by omega : bufmax < 2 ^ 32),
      Nat.mod_eq_of_lt place, BitVec.toNat_add, BitVec.toNat_add, BitVec.toNat_ofNat, BitVec.toNat_mul, ← longueur]
    change ¬ base.toNat + bufmax < ((base.toNat + (p + 1) % 2 ^ 32) % 2 ^ 32 + src.length * 2 % 2 ^ 32) % 2 ^ 32
    omega
  unfold commandeM
  rw [zone]
  dsimp only
  rw [if_neg (not_not.mpr colon), if_neg dedans, ← longueur, if_neg (by omega), hex2bin_chiffres lus]
  dsimp only
  rw [if_neg (by simp), store_range]

/-- `X` with bytes that stand for `src` does to the memory what `M` does with the digits of `src`, in either case, and
gives the same answer, when both packets fit in the buffer. -/
theorem ecritures_egales {eM eX : Etat} {addr len len' : Entier} {p p' : Nat} {src d : List Octet}
    (place : base.toNat + bufmax < 2 ^ 32) (meme : eX.client = eM.client)
    (lettre : (eM.inbuf 0).toNat = 0x4d) (zone : lireZone eM.inbuf = some (addr, len, p)) (colon : eM.inbuf p = 0x3a)
    (digits : Contient (fun k => minuscule (eM.inbuf k)) (p + 1) (src.flatMap chiffres)) (longueur : src.length = len.toNat)
    (court : p + 1 + 2 * src.length ≤ bufmax)
    (lettre' : (eX.inbuf 0).toNat = 0x58) (zone' : lireZone eX.inbuf = some (addr, len', p')) (colon' : eX.inbuf p' = 0x3a)
    (quote : Quote src d) (binaires : Contient eX.inbuf (p' + 1) d) (longueur' : d.length = len'.toNat)
    (court' : p' + 1 + d.length ≤ bufmax) : ∃ e₁ e₂ r,
      commande cb base eM = .ok (e₁, r) ∧ commande cb base eX = .ok (e₂, r) ∧ e₁.client = e₂.client ∧
      e₁.params = eM.params ∧ e₂.params = eX.params := by
  have ecritM := commandeM_ecrit place zone colon digits longueur court
  have ecritX := commandeX_ecrit place zone' colon' quote binaires longueur' court'
  have memoire : (ecrireClient { eX with inbuf := store eX.inbuf 0 src } src addr).1.client = (ecrireClient eM src addr).1.client ∧
      (ecrireClient { eX with inbuf := store eX.inbuf 0 src } src addr).2 = (ecrireClient eM src addr).2 := by
    unfold ecrireClient
    rw [meme]
    exact ⟨rfl, rfl⟩
  refine ⟨_, _, (ecrireClient eM src addr).2, ?_, ?_, memoire.1.symm, rfl, rfl⟩
  · unfold commande
    rw [lettre]
    exact ecritM
  · unfold commande
    rw [lettre']
    exact ecritX.trans (congrArg (fun r => Except.ok (_, r)) memoire.2)

def paquetM10 : Etat := { arret with
  inbuf := store (fun _ => 0) 0 [0x4d, 0x31, 0x30, 0x2c, 0x32, 0x3a, 0x31, 0x32, 0x33, 0x34] }

def paquetX : Etat := { arret with
  inbuf := store (fun _ => 0) 0 [0x58, 0x31, 0x30, 0x2c, 0x33, 0x3a, 0x7d, 0x32, 0x34] }

theorem ecritures_egales_exemple : ∃ e₁ e₂ r, commande none 0x1000 paquetM10 = .ok (e₁, r) ∧
    commande none 0x1000 paquetX = .ok (e₂, r) ∧ e₁.client = e₂.client := by
  have zone : lireZone paquetM10.inbuf = some (0x10, 2, 5) := by decide
  have zone' : lireZone paquetX.inbuf = some (0x10, 3, 5) := by decide
  have digits : Contient (fun k => minuscule (paquetM10.inbuf k)) (5 + 1) ([0x12, 0x34].flatMap chiffres) := by
    unfold Contient
    decide
  have binaires : Contient paquetX.inbuf (5 + 1) [0x7d, 0x12 ^^^ 0x20, 0x34] := by
    unfold Contient
    decide
  obtain ⟨e₁, e₂, r, unM, unX, meme, -, -⟩ := @ecritures_egales none 0x1000 paquetM10 paquetX 0x10 2 3 5 5 [0x12, 0x34]
    [0x7d, 0x12 ^^^ 0x20, 0x34] (by decide) rfl rfl zone rfl digits rfl (by decide) rfl zone' rfl
    (.echappe (.plain (by decide) .nil)) binaires rfl (by decide)
  exact ⟨e₁, e₂, r, unM, unX, meme⟩

end Binaire

end ProjetSysteme.Properties.GdbCommands
