/- Invariant/Paging
   source: kernel/page.c
   digest: The words of a page directory and of its tables, read as a two-level translation. -/

import ProjetSysteme.Kernel.Memory
import ProjetSysteme.Library.Outcome
import ProjetSysteme.Library.PageTable
import Mathlib.Tactic.Ring

set_option autoImplicit false
set_option relaxedAutoImplicit false

namespace ProjetSysteme.Invariant

open Kernel Library.Outcome Library.PageTable

/-- The blocks of `memalign` are 4 KiB aligned, and each is handed out once. -/
structure BlocsFrais (env : Env) : Prop where
  alignes : ∀ n a, env.memalign n = some a → a.toNat % 4096 = 0
  uniques : ∀ n n' a, env.memalign n = some a → env.memalign n' = some a → n = n'

section Bits

theorem isBitNTrue_iff (n : Nat) (adr : Mot) : isBitNTrue n adr = adr.toNat.testBit n := by
  rw [isBitNTrue]
  split
  · next hors =>
      have petit : adr.toNat < 2 ^ n := by
        refine lt_of_lt_of_le adr.isLt (Nat.pow_le_pow_right (by omega) ?_)
        omega
      rw [Nat.testBit_lt_two_pow petit]
  · next dans =>
      have borne : n < 32 := by omega
      rw [Int.toNat_natCast, ← BitVec.getLsbD, Bool.eq_iff_iff, bne_iff_ne, Ne,
        BitVec.eq_of_getLsbD_eq_iff]
      constructor
      · intro non
        by_contra faux
        refine non fun i hi => ?_
        simp only [BitVec.getLsbD_and, BitVec.getLsbD_shiftLeft]
        by_cases meme : i = n
        · subst meme
          simp [Bool.not_eq_true _ ▸ faux]
        · simp
          omega
      · intro vrai nul
        have bit := nul n borne
        rw [BitVec.getLsbD_eq_getElem borne] at vrai
        simp [borne, vrai] at bit

theorem getNBitsBoucle_eq (adr : Mot) (n i cpt : Nat) (num : Int) :
    getNBitsBoucle adr n i cpt num = num + (2 ^ cpt * (adr.toNat >>> i % 2 ^ n) : Nat) := by
  induction n generalizing i cpt num with
  | zero => simp [getNBitsBoucle, Nat.mod_one]
  | succ n ih =>
      have pas := ih (i + 1) (cpt + 1)
      rw [getNBitsBoucle]
      have suivant : ((i : Int) + 1) = ((i + 1 : Nat) : Int) := by omega
      rw [suivant, pas, isBitNTrue_iff, Nat.one_shiftLeft]
      have bits : adr.toNat >>> i % 2 ^ (n + 1) =
          adr.toNat >>> i % 2 + 2 * (adr.toNat >>> (i + 1) % 2 ^ n) := by
        rw [Nat.pow_succ', Nat.mod_mul, Nat.shiftRight_succ]
      have bit : adr.toNat >>> i % 2 = (adr.toNat.testBit i).toNat := by
        rw [Nat.testBit_eq_decide_div_mod_eq, Nat.shiftRight_eq_div_pow]
        rcases Nat.mod_two_eq_zero_or_one (adr.toNat / 2 ^ i) with h | h <;> simp [h]
      rw [bits, bit, Nat.pow_succ]
      cases adr.toNat.testBit i <;> push_cast <;> simp <;> ring

theorem getNBits_eq (adr : Mot) {fort faible : Nat} (ordre : faible ≤ fort) (borne : fort ≤ 31) :
    getNBits fort faible adr = (adr.toNat >>> faible % 2 ^ (fort - faible + 1) : Nat) := by
  rw [getNBits, if_neg (by omega), getNBitsBoucle_eq]
  have nombre : ((fort : Int) - faible + 1).toNat = fort - faible + 1 := by omega
  rw [nombre]
  simp

theorem drapeau_autre (e : Mot) {f g : Mot} (autre : f &&& g = 0) :
    (e ||| f) &&& g = e &&& g := by
  rw [BitVec.and_comm, BitVec.and_or_distrib_left, BitVec.and_comm, BitVec.and_comm g f, autre]
  exact BitVec.or_zero

theorem drapeau_mis (e : Mot) {f g : Mot} (dans : f &&& g = g) : (e ||| f) &&& g = g := by
  rw [BitVec.and_comm, BitVec.and_or_distrib_left, BitVec.and_comm g f, dans, BitVec.and_comm]
  ext i hi
  simp only [BitVec.getElem_or, BitVec.getElem_and]
  cases g[i] <;> simp

theorem adresse_alignee {a : Mot} (aligne : a.toNat % 4096 = 0) : a &&& kMskAdd = a := by
  have bas : a &&& 0xFFF = 0 := by
    apply BitVec.eq_of_toNat_eq
    rw [BitVec.toNat_and]
    change a.toNat &&& 2 ^ 12 - 1 = 0
    rw [Nat.and_two_pow_sub_one_eq_mod]
    exact aligne
  have somme : (a &&& kMskAdd) ||| (a &&& 0xFFF) = a &&& (kMskAdd ||| 0xFFF) :=
    BitVec.and_or_distrib_left.symm
  rw [bas] at somme
  exact BitVec.or_zero.symm.trans (somme.trans BitVec.and_allOnes)

end Bits

section Blocs

theorem caseTable_inj {a b : Mot} (alignA : a.toNat % 4096 = 0) (alignB : b.toNat % 4096 = 0)
    {i j : Fin 1024} (meme : caseTable a i = caseTable b j) : a = b ∧ i = j := by
  have adresse : ∀ {c : Mot} (l : Fin 1024), c.toNat % 4096 = 0 →
      (caseTable c l).toNat = c.toNat + 4 * l.val := by
    intro c l align
    rw [caseTable, BitVec.toNat_add, BitVec.toNat_ofNat]
    have borne := c.isLt
    omega
  have egal := congrArg BitVec.toNat meme
  rw [adresse i alignA, adresse j alignB] at egal
  refine ⟨BitVec.eq_of_toNat_eq ?_, Fin.ext ?_⟩ <;> omega

variable {env : Env}

theorem BlocsFrais.caseTable_ne (frais : BlocsFrais env) {n n' : Nat} {a b : Mot}
    (blocA : env.memalign n = some a) (blocB : env.memalign n' = some b) (autre : n ≠ n')
    (i j : Fin 1024) : caseTable a i ≠ caseTable b j := by
  intro meme
  obtain ⟨rfl, _⟩ := caseTable_inj (frais.alignes n a blocA) (frais.alignes n' b blocB) meme
  exact autre (frais.uniques n n' a blocA blocB)

theorem BlocsFrais.caseTable_self (frais : BlocsFrais env) {n : Nat} {a : Mot}
    (bloc : env.memalign n = some a) {i j : Fin 1024} (autre : i ≠ j) :
    caseTable a i ≠ caseTable a j := fun meme =>
  autre (caseTable_inj (frais.alignes n a bloc) (frais.alignes n a bloc) meme).2

theorem remplir_bloc (mots : Mot → Mot) {a : Mot} (f : Nat → Mot) (i : Fin 1024) :
    remplir mots a f (caseTable a i) = f i := by
  have difference : (caseTable a i - a).toNat = 4 * i.val := by
    rw [caseTable, BitVec.add_comm, BitVec.add_sub_cancel, BitVec.toNat_ofNat]
    omega
  rw [remplir]
  simp only [difference]
  rw [if_pos (by omega), show 4 * i.val / 4 = i.val by omega]

theorem remplir_hors (mots : Mot → Mot) {a b : Mot} (f : Nat → Mot)
    (hors : ∀ i : Fin 1024, b ≠ caseTable a i) : remplir mots a f b = mots b := by
  unfold remplir
  dsimp only
  split
  · next dans =>
      refine absurd ?_ (hors ⟨(b - a).toNat / 4, dans.2⟩)
      rw [caseTable]
      have quatre : 4 * ((b - a).toNat / 4) = (b - a).toNat := by omega
      rw [quatre, BitVec.ofNat_toNat, BitVec.setWidth_eq, BitVec.add_comm, BitVec.sub_add_cancel]
  · rfl

end Blocs

def MemesListes (m m' : Memoire) : Prop := m' = { m with mots := m'.mots, nbMemalign := m'.nbMemalign }

theorem MemesListes.trans {m m' m'' : Memoire} (un : MemesListes m m') (deux : MemesListes m' m'') :
    MemesListes m m'' := by
  rw [MemesListes, deux, un]

section Etapes

variable (env : Env)

def tablePresente (m : Memoire) (casePd : Mot) : Int × Memoire :=
  if m.mots casePd &&& kMskBitP = 0 then createPageTable env m casePd else (0, m)

def entreeAvec (e : Mot) (perm : Permission) : Mot :=
  (if perm = .write then e ||| kMskBitR else e) ||| kMskBitU

def entreePage (adrReel : Mot) (perm : Permission) : Mot :=
  (adrReel &&& kMskAdd) ||| kMskBitU ||| (if perm = .read then kMskBitP else kMskBitR ||| kMskBitP)

def indexRepertoire (v : Mot) : Fin 1024 := ⟨v.toNat >>> 22, by
  have borne := v.isLt
  rw [Nat.shiftRight_eq_div_pow]
  omega⟩

def indexTable (v : Mot) : Fin 1024 := ⟨v.toNat >>> 12 % 1024, Nat.mod_lt _ (by decide)⟩

theorem getNBits_repertoire (v : Mot) : getNBits 31 22 v = (indexRepertoire v).val := by
  have egal := @getNBits_eq v 31 22 (by decide) (by decide)
  exact egal.trans (congrArg Nat.cast (Nat.mod_eq_of_lt (indexRepertoire v).isLt))

theorem getNBits_table (v : Mot) : getNBits 21 12 v = (indexTable v).val :=
  @getNBits_eq v 21 12 (by decide) (by decide)

theorem createPageDirectory_listes (m : Memoire) : MemesListes m (createPageDirectory env m).2 := by
  unfold createPageDirectory
  split <;> rfl

theorem tablePresente_listes (m : Memoire) (casePd : Mot) :
    MemesListes m (tablePresente env m casePd).2 := by
  unfold tablePresente
  split
  · unfold createPageTable
    split <;> rfl
  · rfl

theorem entreeAvec_adresse (e : Mot) (perm : Permission) :
    entreeAvec e perm &&& kMskAdd = e &&& kMskAdd := by
  rw [entreeAvec, drapeau_autre _ (by decide)]
  split
  · exact drapeau_autre e (by decide)
  · rfl

theorem entreeAvec_presence (e : Mot) (perm : Permission) :
    entreeAvec e perm &&& kMskBitP = e &&& kMskBitP := by
  rw [entreeAvec, drapeau_autre _ (by decide)]
  split
  · exact drapeau_autre e (by decide)
  · rfl

theorem entreeAvec_ecriture (e : Mot) (perm : Permission) :
    (entreeAvec e perm &&& kMskBitR != 0) = ((e &&& kMskBitR != 0) || perm = .write) := by
  rw [entreeAvec, drapeau_autre _ (by decide)]
  split
  · next ecrit => rw [drapeau_mis e (by decide), decide_eq_true ecrit, Bool.or_true]; rfl
  · next lu => rw [decide_eq_false lu, Bool.or_false]

theorem entreePage_adresse (adrReel : Mot) (perm : Permission) :
    entreePage adrReel perm &&& kMskAdd = adrReel &&& kMskAdd := by
  have drapeaux : (if perm = .read then kMskBitP else kMskBitR ||| kMskBitP) &&& kMskAdd = 0 := by
    cases perm <;> decide
  rw [entreePage, drapeau_autre _ drapeaux, drapeau_autre _ (by decide), BitVec.and_assoc]
  congr 1

theorem entreePage_presence (adrReel : Mot) (perm : Permission) :
    entreePage adrReel perm &&& kMskBitP ≠ 0 := by
  have drapeaux : (if perm = .read then kMskBitP else kMskBitR ||| kMskBitP) &&& kMskBitP = kMskBitP := by
    cases perm <;> decide
  rw [entreePage, drapeau_mis _ drapeaux]
  decide

theorem entreePage_ecriture (adrReel : Mot) (perm : Permission) :
    (entreePage adrReel perm &&& kMskBitR != 0) = decide (perm = .write) := by
  have adresse : adrReel &&& kMskAdd &&& kMskBitR = 0 := by
    rw [BitVec.and_assoc]
    exact BitVec.and_zero
  cases perm with
  | read =>
      rw [entreePage, if_pos rfl, drapeau_autre _ (by decide), drapeau_autre _ (by decide), adresse]
      rfl
  | write =>
      rw [entreePage, if_neg (by decide), drapeau_mis _ (by decide)]
      rfl

theorem putAddressReel_eq (m : Memoire) (adrReel adrVirt : Mot) (perm : Permission) (pd : Mot) :
    putAddressReel env m adrReel adrVirt perm pd =
      if 64 ≤ (indexRepertoire adrVirt).val then
        let casePd := caseTable pd (indexRepertoire adrVirt)
        let r := tablePresente env m casePd
        if r.1 ≠ 0 then .ok (-1, r.2)
        else
          let mots := ecrire r.2.mots casePd (entreeAvec (r.2.mots casePd) perm)
          .ok (0, { r.2 with
            mots := ecrire mots (caseTable (r.2.mots casePd &&& kMskAdd) (indexTable adrVirt))
              (entreePage adrReel perm) })
      else .error .panique := by
  unfold putAddressReel
  rw [getNBits_repertoire, getNBits_table]
  by_cases haut : 64 ≤ (indexRepertoire adrVirt).val
  · rw [if_pos haut, if_pos (by omega)]
    simp only [Int.toNat_natCast]
    generalize caseTable pd (indexRepertoire adrVirt) = casePd
    change (if (tablePresente env m casePd).1 ≠ 0 then _ else _) = _
    have deux : ∀ mots : Mot → Mot,
        ecrire (if perm = .write then ecrire mots casePd (mots casePd ||| kMskBitR) else mots) casePd
          ((if perm = .write then ecrire mots casePd (mots casePd ||| kMskBitR) else mots) casePd |||
            kMskBitU) = ecrire mots casePd (entreeAvec (mots casePd) perm) := by
      intro mots
      funext a
      unfold entreeAvec
      by_cases ecrit : perm = .write
      · simp only [if_pos ecrit, ecrire]
        split <;> simp
      · simp only [if_neg ecrit]
    simp only [deux]
    split
    · rfl
    · congr 3
      have adresse := entreeAvec_adresse ((tablePresente env m casePd).2.mots casePd) perm
      change ecrire _ (caseTable (ecrire _ _ _ casePd &&& kMskAdd) _) _ = _
      simp only [ecrire, if_true] at adresse ⊢
      unfold tablePresente at adresse
      rw [adresse]
      rfl
  · rw [if_neg haut, if_neg (by omega)]

theorem putAddressReel_listes (m : Memoire) (adrReel adrVirt : Mot) (perm : Permission) (pd : Mot) :
    Sat (putAddressReel env m adrReel adrVirt perm pd) (fun r => MemesListes m r.2) fun _ => True := by
  rw [putAddressReel_eq]
  split
  · dsimp only
    have table := tablePresente_listes env m (caseTable pd (indexRepertoire adrVirt))
    split
    · exact table
    · refine table.trans ?_
      rfl
  · trivial

end Etapes

def lireTable (mots : Mot → Mot) (pt : Mot) : Table (Fin 1024) Mot := fun i =>
  let v := mots (caseTable pt i)
  if v &&& kMskBitP = 0 then none else some (v &&& kMskAdd, v &&& kMskBitR != 0)

def lireRepertoire (mots : Mot → Mot) (pd : Mot) : Directory (Fin 1024) (Fin 1024) Mot := fun d =>
  if d.val < 64 then none
  else
    let e := mots (caseTable pd d)
    if e &&& kMskBitP = 0 then none
    else some (e &&& kMskBitR != 0, lireTable mots (e &&& kMskAdd))

theorem lireRepertoire_absente {mots : Mot → Mot} {pd : Mot} {d : Fin 1024}
    (absente : mots (caseTable pd d) &&& kMskBitP = 0) : lireRepertoire mots pd d = none := by
  rw [lireRepertoire]
  split
  · rfl
  · exact if_pos absente

theorem lireRepertoire_presente {mots : Mot → Mot} {pd : Mot} {d : Fin 1024} (haut : 64 ≤ d.val)
    (presente : mots (caseTable pd d) &&& kMskBitP ≠ 0) : lireRepertoire mots pd d =
      some (mots (caseTable pd d) &&& kMskBitR != 0, lireTable mots (mots (caseTable pd d) &&& kMskAdd)) := by
  rw [lireRepertoire, if_neg (by omega)]
  exact if_neg presente

theorem lireTable_congr {mots mots' : Mot → Mot} {pt : Mot}
    (memes : ∀ i : Fin 1024, mots' (caseTable pt i) = mots (caseTable pt i)) :
    lireTable mots' pt = lireTable mots pt := by
  funext i
  rw [lireTable, lireTable, memes]

structure Ouverte (env : Env) (mots : Mot → Mot) (pd : Mot) (d : Fin 1024) (n : Nat) : Prop where
  haut : 64 ≤ d.val
  presente : mots (caseTable pd d) &&& kMskBitP ≠ 0
  bloc : env.memalign n = some (mots (caseTable pd d) &&& kMskAdd)

theorem Ouverte.congr {env : Env} {mots mots' : Mot → Mot} {pd : Mot} {d : Fin 1024} {n : Nat}
    (ouverte : Ouverte env mots pd d n) (meme : mots' (caseTable pd d) = mots (caseTable pd d)) :
    Ouverte env mots' pd d n := by
  refine ⟨ouverte.haut, ?_, ?_⟩
  · rw [meme]
    exact ouverte.presente
  · rw [meme]
    exact ouverte.bloc

/-- `pd` is a page directory of the block `n₀`, and each of its entries above those of the
kernel is unused or holds a page table of a later block of its own. -/
structure Bati (env : Env) (m : Memoire) (pd : Mot) (n₀ : Nat) : Prop where
  racine : env.memalign n₀ = some pd
  alloue : n₀ < m.nbMemalign
  tables : ∀ d : Fin 1024, 64 ≤ d.val → m.mots (caseTable pd d) &&& kMskBitP ≠ 0 →
    ∃ n, n₀ < n ∧ n < m.nbMemalign ∧ Ouverte env m.mots pd d n
  distinctes : ∀ d d' n, Ouverte env m.mots pd d n → Ouverte env m.mots pd d' n → d = d'

/-- Only words of the directory `pd`, above the entries of the kernel, and words of blocks
after `n₀` change. -/
structure Cadre (env : Env) (pd : Mot) (n₀ : Nat) (m m' : Memoire) : Prop where
  listes : MemesListes m m'
  memalign : m.nbMemalign ≤ m'.nbMemalign
  mots : ∀ a, (∀ d : Fin 1024, 64 ≤ d.val → a ≠ caseTable pd d) →
    (∀ n b, n₀ < n → n < m'.nbMemalign → env.memalign n = some b → ∀ i : Fin 1024, a ≠ caseTable b i) →
    m'.mots a = m.mots a

namespace Cadre

variable {env : Env} {pd : Mot} {n₀ : Nat} {m m' m'' : Memoire}

theorem refl (m : Memoire) : Cadre env pd n₀ m m := ⟨rfl, le_rfl, fun _ _ _ => rfl⟩

theorem trans (un : Cadre env pd n₀ m m') (deux : Cadre env pd n₀ m' m'') : Cadre env pd n₀ m m'' where
  listes := un.listes.trans deux.listes
  memalign := un.memalign.trans deux.memalign
  mots a horsPd horsTables := by
    refine (deux.mots a horsPd horsTables).trans (un.mots a horsPd fun n b apres avant => ?_)
    exact horsTables n b apres (lt_of_lt_of_le avant deux.memalign)

theorem ancien (cadre : Cadre env pd n₀ m m') (frais : BlocsFrais env) (racine : env.memalign n₀ = some pd)
    {n : Nat} {b : Mot} (bloc : env.memalign n = some b) (avant : n < n₀) (i : Fin 1024) :
    m'.mots (caseTable b i) = m.mots (caseTable b i) := by
  refine cadre.mots _ (fun d _ => ?_) fun n' b' apres _ bloc' j => ?_
  · exact frais.caseTable_ne bloc racine (by omega) i d
  · exact frais.caseTable_ne bloc bloc' (by omega) i j

theorem noyau (cadre : Cadre env pd n₀ m m') (frais : BlocsFrais env) (racine : env.memalign n₀ = some pd)
    {d : Fin 1024} (bas : d.val < 64) : m'.mots (caseTable pd d) = m.mots (caseTable pd d) := by
  refine cadre.mots _ (fun d' haut => ?_) fun n' b' apres _ bloc' j => ?_
  · refine frais.caseTable_self racine ?_
    rintro rfl
    omega
  · exact frais.caseTable_ne racine bloc' (by omega) d j

end Cadre

section Bati

variable {env : Env} {pd : Mot} {n₀ : Nat} {m m' : Memoire}

theorem Bati.transport (bati : Bati env m pd n₀) (memalign : m.nbMemalign ≤ m'.nbMemalign)
    (memes : ∀ n b, n < m.nbMemalign → env.memalign n = some b →
      ∀ i : Fin 1024, m'.mots (caseTable b i) = m.mots (caseTable b i)) :
    Bati env m' pd n₀ ∧ lireRepertoire m'.mots pd = lireRepertoire m.mots pd := by
  have entree : ∀ d : Fin 1024, m'.mots (caseTable pd d) = m.mots (caseTable pd d) :=
    memes n₀ pd bati.alloue bati.racine
  refine ⟨⟨bati.racine, bati.alloue.trans_le memalign, fun d haut presente => ?_,
    fun d d' n un deux => ?_⟩, ?_⟩
  · rw [entree] at presente
    obtain ⟨n, apres, avant, table⟩ := bati.tables d haut presente
    exact ⟨n, apres, avant.trans_le memalign, table.congr (entree d)⟩
  · exact bati.distinctes d d' n (un.congr (entree d).symm) (deux.congr (entree d').symm)
  · funext d
    unfold lireRepertoire
    by_cases bas : d.val < 64
    · rw [if_pos bas, if_pos bas]
    · rw [if_neg bas, if_neg bas]
      simp only [entree]
      split
      · rfl
      · next presente =>
          obtain ⟨n, _, avant, table⟩ := bati.tables d (by omega) presente
          rw [lireTable_congr (memes n _ avant table.bloc)]

theorem createPageDirectory_bati (frais : BlocsFrais env)
    (cree : createPageDirectory env m = (some pd, m')) :
    Bati env m' pd m.nbMemalign ∧ lireRepertoire m'.mots pd = (fun _ => none) ∧
      m'.nbMemalign = m.nbMemalign + 1 ∧
      (∀ d : Fin 1024, d.val < 64 → m'.mots (caseTable pd d) = env.pgdir d) ∧
      ∀ n b, n < m.nbMemalign → env.memalign n = some b →
        ∀ i : Fin 1024, m'.mots (caseTable b i) = m.mots (caseTable b i) := by
  unfold createPageDirectory at cree
  split at cree
  · cases cree
  · next racine =>
      cases cree
      have entree : ∀ d : Fin 1024, remplir m.mots pd (fun ii => if ii < 64 then env.pgdir ii else 0)
          (caseTable pd d) = if d.val < 64 then env.pgdir d else 0 := remplir_bloc _ _
      have vide : ∀ d : Fin 1024, 64 ≤ d.val → remplir m.mots pd
          (fun ii => if ii < 64 then env.pgdir ii else 0) (caseTable pd d) &&& kMskBitP = 0 := by
        intro d haut
        rw [entree, if_neg (by omega)]
        exact BitVec.zero_and
      refine ⟨⟨racine, Nat.lt_succ_self _, ?_, ?_⟩, ?_, rfl, fun d bas => ?_, fun n b avant bloc i => ?_⟩
      · exact fun d haut presente => absurd (vide d haut) presente
      · exact fun d d' n ouverte => absurd (vide d ouverte.haut) ouverte.presente
      · funext d
        by_cases bas : d.val < 64
        · rw [lireRepertoire, if_pos bas]
        · exact lireRepertoire_absente (vide d (by omega))
      · exact (entree d).trans (if_pos bas)
      · exact remplir_hors m.mots (fun ii => if ii < 64 then env.pgdir ii else 0)
          fun j => frais.caseTable_ne bloc racine (by omega) i j

theorem setBitN_presence (e : Mot) : setBitN 0 true e = e ||| kMskBitP := rfl

theorem nouvelleEntree {pt : Mot} (aligne : pt.toNat % 4096 = 0) :
    let e := setBitN 0 true ((pt &&& kMskAdd) ||| kMskBitU)
    e &&& kMskAdd = pt ∧ e &&& kMskBitP ≠ 0 ∧ (e &&& kMskBitR != 0) = false := by
  intro e
  have adresse := adresse_alignee aligne
  refine ⟨?_, ?_, ?_⟩
  · change setBitN 0 true ((pt &&& kMskAdd) ||| kMskBitU) &&& kMskAdd = pt
    rw [setBitN_presence, drapeau_autre _ (by decide), drapeau_autre _ (by decide), adresse, adresse]
  · change setBitN 0 true ((pt &&& kMskAdd) ||| kMskBitU) &&& kMskBitP ≠ 0
    rw [setBitN_presence, drapeau_mis _ (by decide)]
    decide
  · change (setBitN 0 true ((pt &&& kMskAdd) ||| kMskBitU) &&& kMskBitR != 0) = false
    have bas : pt &&& kMskAdd &&& kMskBitR = 0 := by
      rw [BitVec.and_assoc]
      exact BitVec.and_zero
    rw [setBitN_presence, drapeau_autre _ (by decide), drapeau_autre _ (by decide), bas]
    rfl

/-- What `put_address_reel` finds in the directory once the page table is there. -/
structure Preparee (env : Env) (m m' : Memoire) (pd : Mot) (n₀ : Nat) (d : Fin 1024) : Prop where
  bati : Bati env m' pd n₀
  cadre : Cadre env pd n₀ m m'
  presente : m'.mots (caseTable pd d) &&& kMskBitP ≠ 0
  lue : lireRepertoire m'.mots pd d = some (opened (lireRepertoire m.mots pd) d)
  autres : ∀ d', d' ≠ d → lireRepertoire m'.mots pd d' = lireRepertoire m.mots pd d'

structure Ajoutee (env : Env) (m m' : Memoire) (pd pt : Mot) (d : Fin 1024) : Prop where
  listes : MemesListes m m'
  memalign : m'.nbMemalign = m.nbMemalign + 1
  bloc : env.memalign m.nbMemalign = some pt
  absente : m.mots (caseTable pd d) &&& kMskBitP = 0
  adresse : m'.mots (caseTable pd d) &&& kMskAdd = pt
  presente : m'.mots (caseTable pd d) &&& kMskBitP ≠ 0
  lecture : (m'.mots (caseTable pd d) &&& kMskBitR != 0) = false
  contenu : ∀ i : Fin 1024, m'.mots (caseTable pt i) = 0
  hors : ∀ a, a ≠ caseTable pd d → (∀ i : Fin 1024, a ≠ caseTable pt i) → m'.mots a = m.mots a

theorem createPageTable_ajoutee (frais : BlocsFrais env) (bati : Bati env m pd n₀) {d : Fin 1024}
    (absente : m.mots (caseTable pd d) &&& kMskBitP = 0)
    (cree : createPageTable env m (caseTable pd d) = (0, m')) : ∃ pt, Ajoutee env m m' pd pt d := by
  unfold createPageTable at cree
  split at cree
  · cases cree
  · next pt bloc =>
      cases cree
      obtain ⟨adresse, presente, lecture⟩ := nouvelleEntree (frais.alignes _ pt bloc)
      refine ⟨pt, ⟨rfl, rfl, bloc, absente, ?_, ?_, ?_, fun i => ?_, fun a autre horsBloc => ?_⟩⟩
      · simp only [ecrire, if_true]
        exact adresse
      · simp only [ecrire, if_true]
        exact presente
      · simp only [ecrire, if_true]
        exact lecture
      · have autre := frais.caseTable_ne bloc bati.racine (Nat.ne_of_gt bati.alloue) i d
        exact (if_neg autre).trans (remplir_bloc m.mots (fun _ => 0) i)
      · exact (if_neg autre).trans (remplir_hors m.mots (fun _ => 0) horsBloc)

namespace Ajoutee

variable {pt : Mot} {d : Fin 1024}

theorem entree (ajoutee : Ajoutee env m m' pd pt d) (frais : BlocsFrais env)
    (bati : Bati env m pd n₀) {d' : Fin 1024} (autre : d' ≠ d) :
    m'.mots (caseTable pd d') = m.mots (caseTable pd d') :=
  ajoutee.hors _ (frais.caseTable_self bati.racine autre)
    fun i => frais.caseTable_ne bati.racine ajoutee.bloc (Nat.ne_of_lt bati.alloue) d' i

theorem numero_ne (ajoutee : Ajoutee env m m' pd pt d) (frais : BlocsFrais env)
    (bati : Bati env m pd n₀) {d' : Fin 1024} {n : Nat} (autre : d' ≠ d)
    (ouverte : Ouverte env m'.mots pd d' n) : n < m.nbMemalign := by
  have avant := ouverte.congr (ajoutee.entree frais bati autre).symm
  obtain ⟨n', _, borne, ouverte'⟩ := bati.tables d' avant.haut avant.presente
  rwa [frais.uniques n n' _ avant.bloc ouverte'.bloc]

theorem numero (ajoutee : Ajoutee env m m' pd pt d) (frais : BlocsFrais env) {n : Nat}
    (ouverte : Ouverte env m'.mots pd d n) : n = m.nbMemalign := by
  have bloc := ouverte.bloc
  rw [ajoutee.adresse] at bloc
  exact frais.uniques _ _ pt bloc ajoutee.bloc

theorem bati (ajoutee : Ajoutee env m m' pd pt d) (frais : BlocsFrais env) (bati : Bati env m pd n₀) :
    Bati env m' pd n₀ := by
  have suivant := ajoutee.memalign
  have alloue := bati.alloue
  refine ⟨bati.racine, by omega, fun d' haut presente => ?_, fun d₁ d₂ n un deux => ?_⟩
  · by_cases meme : d' = d
    · subst meme
      refine ⟨m.nbMemalign, bati.alloue, by omega, haut, presente, ?_⟩
      rw [ajoutee.adresse]
      exact ajoutee.bloc
    · have entree := ajoutee.entree frais bati meme
      rw [entree] at presente
      obtain ⟨n, apres, avant, ouverte⟩ := bati.tables d' haut presente
      exact ⟨n, apres, by omega, ouverte.congr entree⟩
  · by_cases meme₁ : d₁ = d
    · by_cases meme₂ : d₂ = d
      · rw [meme₁, meme₂]
      · have neuf := ajoutee.numero frais (meme₁ ▸ un)
        have ancien := ajoutee.numero_ne frais bati meme₂ deux
        omega
    · by_cases meme₂ : d₂ = d
      · have neuf := ajoutee.numero frais (meme₂ ▸ deux)
        have ancien := ajoutee.numero_ne frais bati meme₁ un
        omega
      · exact bati.distinctes d₁ d₂ n (un.congr (ajoutee.entree frais bati meme₁).symm)
          (deux.congr (ajoutee.entree frais bati meme₂).symm)

theorem cadre (ajoutee : Ajoutee env m m' pd pt d) (bati : Bati env m pd n₀) (haut : 64 ≤ d.val) :
    Cadre env pd n₀ m m' := by
  have suivant := ajoutee.memalign
  refine ⟨ajoutee.listes, by omega, fun a horsPd horsTables => ?_⟩
  exact ajoutee.hors a (horsPd d haut) (horsTables _ pt bati.alloue (by omega) ajoutee.bloc)

theorem lue (ajoutee : Ajoutee env m m' pd pt d) (haut : 64 ≤ d.val) :
    lireRepertoire m'.mots pd d = some (opened (lireRepertoire m.mots pd) d) := by
  have vide : lireTable m'.mots pt = fun _ => none := by
    funext i
    rw [lireTable, ajoutee.contenu]
    exact if_pos BitVec.zero_and
  rw [opened, lireRepertoire_absente ajoutee.absente, lireRepertoire_presente haut ajoutee.presente,
    ajoutee.lecture, ajoutee.adresse, vide]
  rfl

theorem autres (ajoutee : Ajoutee env m m' pd pt d) (frais : BlocsFrais env) (bati : Bati env m pd n₀)
    {d' : Fin 1024} (autre : d' ≠ d) :
    lireRepertoire m'.mots pd d' = lireRepertoire m.mots pd d' := by
  unfold lireRepertoire
  split
  · rfl
  · simp only [ajoutee.entree frais bati autre]
    split
    · rfl
    · next presente =>
        obtain ⟨n, apres, avant, ouverte⟩ := bati.tables d' (by omega) presente
        rw [lireTable_congr fun i => ajoutee.hors _
          (frais.caseTable_ne ouverte.bloc bati.racine (by omega) i d)
          fun j => frais.caseTable_ne ouverte.bloc ajoutee.bloc (by omega) i j]

end Ajoutee

theorem tablePresente_preparee (frais : BlocsFrais env) (bati : Bati env m pd n₀) {d : Fin 1024}
    (haut : 64 ≤ d.val) (cree : tablePresente env m (caseTable pd d) = (0, m')) :
    Preparee env m m' pd n₀ d := by
  unfold tablePresente at cree
  split at cree
  · next absente =>
      obtain ⟨pt, ajoutee⟩ := createPageTable_ajoutee frais bati absente cree
      exact ⟨ajoutee.bati frais bati, ajoutee.cadre bati haut, ajoutee.presente, ajoutee.lue haut,
        fun d' autre => ajoutee.autres frais bati autre⟩
  · next presente =>
      cases cree
      refine ⟨bati, .refl m, presente, ?_, fun _ _ => rfl⟩
      rw [opened, lireRepertoire_presente haut presente]
      rfl

structure Posee (m m' : Memoire) (pd t : Mot) (d i : Fin 1024) (adrReel : Mot) (perm : Permission) :
    Prop where
  listes : MemesListes m m'
  memalign : m'.nbMemalign = m.nbMemalign
  table : m.mots (caseTable pd d) &&& kMskAdd = t
  entree : m'.mots (caseTable pd d) = entreeAvec (m.mots (caseTable pd d)) perm
  page : m'.mots (caseTable t i) = entreePage adrReel perm
  hors : ∀ a, a ≠ caseTable pd d → a ≠ caseTable t i → m'.mots a = m.mots a

namespace Posee

variable {t : Mot} {d i : Fin 1024} {adrReel : Mot} {perm : Permission}

theorem autre_entree (posee : Posee m m' pd t d i adrReel perm) (frais : BlocsFrais env)
    (bati : Bati env m pd n₀) {n : Nat} (ouverte : Ouverte env m.mots pd d n) (apres : n₀ < n)
    {d' : Fin 1024} (autre : d' ≠ d) : m'.mots (caseTable pd d') = m.mots (caseTable pd d') := by
  have bloc := ouverte.bloc
  rw [posee.table] at bloc
  exact posee.hors _ (frais.caseTable_self bati.racine autre)
    (frais.caseTable_ne bati.racine bloc (Nat.ne_of_lt apres) d' i)

theorem ouverte_iff (posee : Posee m m' pd t d i adrReel perm) (frais : BlocsFrais env)
    (bati : Bati env m pd n₀) {n : Nat} (ouverte : Ouverte env m.mots pd d n) (apres : n₀ < n)
    (d' : Fin 1024) (n' : Nat) : Ouverte env m'.mots pd d' n' ↔ Ouverte env m.mots pd d' n' := by
  by_cases meme : d' = d
  · subst meme
    have presente := entreeAvec_presence (m.mots (caseTable pd d')) perm
    have adresse := entreeAvec_adresse (m.mots (caseTable pd d')) perm
    rw [← posee.entree] at presente adresse
    constructor
    · rintro ⟨haut, present, bloc⟩
      rw [presente] at present
      rw [adresse] at bloc
      exact ⟨haut, present, bloc⟩
    · rintro ⟨haut, present, bloc⟩
      rw [← presente] at present
      rw [← adresse] at bloc
      exact ⟨haut, present, bloc⟩
  · have entree := posee.autre_entree frais bati ouverte apres meme
    exact ⟨fun avant => avant.congr entree.symm, fun avant => avant.congr entree⟩

theorem bati (posee : Posee m m' pd t d i adrReel perm) (frais : BlocsFrais env)
    (bati : Bati env m pd n₀) {n : Nat} (ouverte : Ouverte env m.mots pd d n) (apres : n₀ < n) :
    Bati env m' pd n₀ := by
  have memes := posee.ouverte_iff frais bati ouverte apres
  have nombre := posee.memalign
  refine ⟨bati.racine, by rw [nombre]; exact bati.alloue, fun d' haut presente => ?_,
    fun d₁ d₂ n un deux => ?_⟩
  · have presente' : m.mots (caseTable pd d') &&& kMskBitP ≠ 0 := by
      by_cases meme : d' = d
      · exact meme ▸ ouverte.presente
      · rwa [posee.autre_entree frais bati ouverte apres meme] at presente
    obtain ⟨n', apres', avant, ouverte'⟩ := bati.tables d' haut presente'
    exact ⟨n', apres', by rw [nombre]; exact avant, (memes d' n').mpr ouverte'⟩
  · exact bati.distinctes d₁ d₂ n ((memes d₁ n).mp un) ((memes d₂ n).mp deux)

theorem cadre (posee : Posee m m' pd t d i adrReel perm) {n : Nat}
    (ouverte : Ouverte env m.mots pd d n) (apres : n₀ < n) (avant : n < m.nbMemalign) :
    Cadre env pd n₀ m m' := by
  have bloc := ouverte.bloc
  rw [posee.table] at bloc
  have nombre := posee.memalign
  refine ⟨posee.listes, by omega, fun a horsPd horsTables => ?_⟩
  exact posee.hors a (horsPd d ouverte.haut) (horsTables n t apres (by omega) bloc i)

theorem lue (posee : Posee m m' pd t d i adrReel perm) (frais : BlocsFrais env)
    (bati : Bati env m pd n₀) {n : Nat} (ouverte : Ouverte env m.mots pd d n) (apres : n₀ < n) :
    lireRepertoire m'.mots pd d = some ((m.mots (caseTable pd d) &&& kMskBitR != 0) || perm = .write,
      Function.update (lireTable m.mots t) i (some (adrReel &&& kMskAdd, perm = .write))) := by
  have bloc := ouverte.bloc
  rw [posee.table] at bloc
  have presente : m'.mots (caseTable pd d) &&& kMskBitP ≠ 0 := by
    rw [posee.entree, entreeAvec_presence]
    exact ouverte.presente
  rw [lireRepertoire_presente ouverte.haut presente, posee.entree, entreeAvec_adresse, posee.table,
    entreeAvec_ecriture]
  congr 2
  funext j
  by_cases meme : j = i
  · subst meme
    rw [Function.update_self, lireTable, posee.page]
    simp only [entreePage_presence, if_false, entreePage_adresse, entreePage_ecriture]
  · rw [Function.update_of_ne meme, lireTable, lireTable, posee.hors _
      (frais.caseTable_ne bloc bati.racine (Nat.ne_of_gt apres) j d) (frais.caseTable_self bloc meme)]

theorem autres (posee : Posee m m' pd t d i adrReel perm) (frais : BlocsFrais env)
    (bati : Bati env m pd n₀) {n : Nat} (ouverte : Ouverte env m.mots pd d n) (apres : n₀ < n)
    {d' : Fin 1024} (autre : d' ≠ d) :
    lireRepertoire m'.mots pd d' = lireRepertoire m.mots pd d' := by
  have bloc := ouverte.bloc
  rw [posee.table] at bloc
  unfold lireRepertoire
  split
  · rfl
  · simp only [posee.autre_entree frais bati ouverte apres autre]
    split
    · rfl
    · next presente =>
        obtain ⟨n', apres', _, ouverte'⟩ := bati.tables d' (by omega) presente
        have autreBloc : n' ≠ n := by
          rintro rfl
          exact autre (bati.distinctes d' d n' ouverte' ouverte)
        rw [lireTable_congr fun j => posee.hors _
          (frais.caseTable_ne ouverte'.bloc bati.racine (Nat.ne_of_gt apres') j d)
          (frais.caseTable_ne ouverte'.bloc bloc autreBloc j i)]

end Posee

theorem putAddressReel_bati (frais : BlocsFrais env) (bati : Bati env m pd n₀)
    {adrReel adrVirt : Mot} {perm : Permission}
    (place : putAddressReel env m adrReel adrVirt perm pd = .ok (0, m')) :
    64 ≤ (indexRepertoire adrVirt).val ∧ Bati env m' pd n₀ ∧ Cadre env pd n₀ m m' ∧
      lireRepertoire m'.mots pd = put (lireRepertoire m.mots pd)
        (indexRepertoire adrVirt, indexTable adrVirt) (adrReel &&& kMskAdd) (perm = .write) := by
  rw [putAddressReel_eq] at place
  split at place
  · next haut =>
      refine ⟨haut, ?_⟩
      set d := indexRepertoire adrVirt with defd
      set i := indexTable adrVirt with defi
      cases creee : tablePresente env m (caseTable pd d) with
      | mk r m₁ =>
          simp only [creee] at place
          split at place
          · cases place
          · next zero =>
              obtain rfl : r = 0 := by simpa using zero
              have preparee := tablePresente_preparee frais bati haut creee
              obtain ⟨n, apres, avant, ouverte⟩ := preparee.bati.tables d haut preparee.presente
              have autre := frais.caseTable_ne preparee.bati.racine ouverte.bloc (Nat.ne_of_lt apres) d i
              have posee : Posee m₁ m' pd (m₁.mots (caseTable pd d) &&& kMskAdd) d i adrReel perm := by
                cases place
                refine ⟨rfl, rfl, rfl, ?_, ?_, fun a horsEntree horsPage => ?_⟩
                · simp only [ecrire, if_neg autre, if_true]
                · simp only [ecrire, if_true]
                · simp only [ecrire, if_neg horsPage, if_neg horsEntree]
              refine ⟨posee.bati frais preparee.bati ouverte apres,
                preparee.cadre.trans (posee.cadre ouverte apres avant), ?_⟩
              funext d'
              by_cases meme : d' = d
              · subst meme
                have lue := preparee.lue
                rw [lireRepertoire_presente haut preparee.presente, Option.some.injEq, Prod.ext_iff] at lue
                rw [posee.lue frais preparee.bati ouverte apres, put, Function.update_self, ← lue.1, ← lue.2]
              · rw [posee.autres frais preparee.bati ouverte apres meme, preparee.autres d' meme, put,
                  Function.update_of_ne meme]
  · cases place

theorem putAddressReel_echec {r : Int} {adrReel adrVirt : Mot} {perm : Permission}
    (place : putAddressReel env m adrReel adrVirt perm pd = .ok (r, m')) (echec : r ≠ 0) :
    m'.mots = m.mots ∧ m.nbMemalign ≤ m'.nbMemalign := by
  rw [putAddressReel_eq] at place
  split at place
  · dsimp only at place
    split at place
    · next sans =>
        cases place
        unfold tablePresente at sans ⊢
        split
        · next absente =>
            rw [if_pos absente] at sans
            unfold createPageTable at sans ⊢
            split
            · exact ⟨rfl, Nat.le_succ _⟩
            · next bloc => simp [bloc] at sans
        · next presente =>
            rw [if_neg presente] at sans
            exact absurd rfl sans
    · cases place
      exact absurd rfl echec
  · cases place

end Bati

end ProjetSysteme.Invariant
