/- Properties/Readback
   source: kernel/page.c
   digest: What get_address_reel reads for a page that put_address_reel mapped. -/

import ProjetSysteme.Invariant.Entries
import ProjetSysteme.Properties.Translation

set_option autoImplicit false
set_option relaxedAutoImplicit false

namespace ProjetSysteme.Properties

open Kernel Invariant Library.PageTable

def motApres (mots : Mot → Mot) (pd v : Mot) (j : Nat) : Mot :=
  mots (caseTable (mots (caseTable pd (indexRepertoire v)) &&& kMskAdd) (indexTable v + j))

/-- The bits of the two words after the entry of `v` that a read shifted by one byte, or by
three when the directory entry grants writing, finds in place of the frame of `adrReel`. -/
def Coincide (mots : Mot → Mot) (pd v adrReel : Mot) : Prop :=
  if mots (caseTable pd (indexRepertoire v)) &&& kMskBitR = 0 then
    motApres mots pd v 1 >>> 20 = (adrReel >>> 12) &&& 0xFFF ∧
      motApres mots pd v 2 &&& 0xFF = adrReel >>> 24
  else (motApres mots pd v 2 >>> 4) &&& 0xFFFFF = adrReel >>> 12

instance (mots : Mot → Mot) (pd v adrReel : Mot) : Decidable (Coincide mots pd v adrReel) := by
  unfold Coincide
  infer_instance

section Lecture

theorem getNBits_repertoire_toNat (v : Mot) : (getNBits 31 22 v).toNat = indexRepertoire v := by
  rw [getNBits_repertoire, Int.toNat_natCast]

theorem getNBits_table_toNat (v : Mot) : (getNBits 21 12 v).toNat = indexTable v := by
  rw [getNBits_table, Int.toNat_natCast]

theorem lireMot_decale (mots : Mot → Mot) {pt : Mot} (aligne : pt.toNat % 4096 = 0) (i r : Nat)
    (borne : 0 < r ∧ r < 4) : lireMot mots (caseTable (pt + BitVec.ofNat 32 (4 + r)) i) =
      (mots (caseTable pt (i + 1)) >>> (8 * r)) ||| (mots (caseTable pt (i + 2)) <<< (32 - 8 * r)) := by
  have reste : (caseTable (pt + BitVec.ofNat 32 (4 + r)) i).toNat % 4 = r := by
    simp only [caseTable, BitVec.toNat_add, BitVec.toNat_ofNat]
    omega
  have base : caseTable (pt + BitVec.ofNat 32 (4 + r)) i - BitVec.ofNat 32 r = caseTable pt (i + 1) := by
    apply BitVec.eq_of_toNat_eq
    simp only [caseTable, BitVec.toNat_sub, BitVec.toNat_add, BitVec.toNat_ofNat]
    omega
  have suivante : caseTable pt (i + 1) + 4 = caseTable pt (i + 2) := by
    change caseTable pt (i + 1) + BitVec.ofNat 32 4 = _
    apply BitVec.eq_of_toNat_eq
    simp only [caseTable, BitVec.toNat_add, BitVec.toNat_ofNat]
    omega
  rw [lireMot]
  simp only [reste, base, suivante, if_neg (Nat.ne_of_gt borne.1)]

theorem drapeaux_ajoutes {pt f : Mot} (aligne : pt.toNat % 4096 = 0) (petit : f &&& 0xFFF = f) :
    pt ||| f = pt + f := by
  refine (BitVec.add_eq_or_of_and_eq_zero pt f ?_).symm
  have bas : pt &&& 0xFFF = 0 := by
    apply BitVec.eq_of_toNat_eq
    rw [BitVec.toNat_and]
    change pt.toNat &&& 2 ^ 12 - 1 = 0
    rwa [Nat.and_two_pow_sub_one_eq_mod]
  rw [← petit, ← BitVec.and_assoc, BitVec.and_comm pt f, BitVec.and_assoc, bas]
  exact BitVec.and_zero

theorem toNat_decale (w w' : Mot) {r : Nat} (borne : r < 4) :
    ((w >>> (8 * r)) ||| (w' <<< (32 - 8 * r))).toNat =
      2 ^ (32 - 8 * r) * (w'.toNat % 2 ^ (8 * r)) + w.toNat / 2 ^ (8 * r) := by
  have puissance : 2 ^ (32 - 8 * r) * 2 ^ (8 * r) = 2 ^ 32 := by
    rw [← Nat.pow_add]
    congr 1
    omega
  have petit : w.toNat / 2 ^ (8 * r) < 2 ^ (32 - 8 * r) := by
    refine Nat.div_lt_of_lt_mul ?_
    rw [Nat.mul_comm, puissance]
    exact w.isLt
  rw [Nat.two_pow_add_eq_or_of_lt petit, Nat.or_comm, BitVec.toNat_or, BitVec.toNat_ushiftRight,
    BitVec.toNat_shiftLeft, Nat.shiftRight_eq_div_pow, Nat.shiftLeft_eq, ← puissance, Nat.mul_comm w'.toNat,
    Nat.mul_mod_mul_left]

theorem frame_eq_iff (x y : Mot) : x >>> 12 = y >>> 12 ↔ x.toNat / 2 ^ 12 = y.toNat / 2 ^ 12 := by
  rw [← BitVec.toNat_inj, BitVec.toNat_ushiftRight, BitVec.toNat_ushiftRight,
    Nat.shiftRight_eq_div_pow, Nat.shiftRight_eq_div_pow]

theorem toNat_and_mask (x : Mot) {n : Nat} (borne : n < 32) :
    (x &&& BitVec.ofNat 32 (2 ^ n - 1)).toNat = x.toNat % 2 ^ n := by
  have petit : 2 ^ n - 1 < 2 ^ 32 :=
    lt_of_le_of_lt (Nat.sub_le _ 1) (Nat.pow_lt_pow_right (by decide) borne)
  rw [BitVec.toNat_and, BitVec.toNat_ofNat, Nat.mod_eq_of_lt petit, Nat.and_two_pow_sub_one_eq_mod]

theorem decale_un (w w' f : Mot) : ((w >>> (8 * 1)) ||| (w' <<< (32 - 8 * 1))) >>> 12 = f >>> 12 ↔
    w >>> 20 = (f >>> 12) &&& 0xFFF ∧ w' &&& 0xFF = f >>> 24 := by
  have un : w >>> 20 = (f >>> 12) &&& 0xFFF ↔ w.toNat / 2 ^ 20 = f.toNat / 2 ^ 12 % 2 ^ 12 := by
    rw [← BitVec.toNat_inj, BitVec.toNat_ushiftRight, Nat.shiftRight_eq_div_pow]
    have masque := toNat_and_mask (f >>> 12) (n := 12) (by decide)
    rw [BitVec.toNat_ushiftRight, Nat.shiftRight_eq_div_pow] at masque
    rw [← masque]
    rfl
  have deux : w' &&& 0xFF = f >>> 24 ↔ w'.toNat % 2 ^ 8 = f.toNat / 2 ^ 24 := by
    rw [← BitVec.toNat_inj, BitVec.toNat_ushiftRight, Nat.shiftRight_eq_div_pow,
      ← toNat_and_mask w' (n := 8) (by decide)]
    rfl
  rw [frame_eq_iff, toNat_decale w w' (by decide), un, deux]
  have bornes := And.intro w.isLt f.isLt
  omega

theorem decale_trois (w w' f : Mot) : ((w >>> (8 * 3)) ||| (w' <<< (32 - 8 * 3))) >>> 12 = f >>> 12 ↔
    (w' >>> 4) &&& 0xFFFFF = f >>> 12 := by
  have masque : (w' >>> 4) &&& 0xFFFFF = f >>> 12 ↔ w'.toNat / 2 ^ 4 % 2 ^ 20 = f.toNat / 2 ^ 12 := by
    have bits := toNat_and_mask (w' >>> 4) (n := 20) (by decide)
    rw [BitVec.toNat_ushiftRight, Nat.shiftRight_eq_div_pow] at bits
    rw [← BitVec.toNat_inj, BitVec.toNat_ushiftRight f, Nat.shiftRight_eq_div_pow, ← bits]
    rfl
  rw [frame_eq_iff, toNat_decale w w' (by decide), masque]
  have bornes := And.intro w.isLt f.isLt
  omega

end Lecture

theorem poser_entrees {env : Env} (frais : BlocsFrais env) {pd : Mot} {n₀ : Nat} (l : List Placement)
    {m m' : Memoire} (bati : Bati env m pd n₀) (drapeaux : Drapeaux m pd)
    (pose : poser env pd l m = some m') : Drapeaux m' pd ∧
      (∀ d : Fin 1024, m.mots (caseTable pd d) &&& kMskBitP ≠ 0 →
        m'.mots (caseTable pd d) &&& kMskBitP ≠ 0) ∧
      ∀ c ∈ l, 64 ≤ (indexRepertoire c.adrVirt).val ∧
        m'.mots (caseTable pd (indexRepertoire c.adrVirt)) &&& kMskBitP ≠ 0 := by
  induction l generalizing m with
  | nil =>
      cases pose
      exact ⟨drapeaux, fun _ => id, by simp⟩
  | cons c reste ih =>
      rw [poser] at pose
      split at pose
      · next m₁ place =>
          obtain ⟨haut, ⟨faux, -⟩ | ⟨-, posee⟩⟩ := putAddressReel_entree frais bati place
          · cases faux
          · obtain ⟨bati₁, -⟩ := putAddressReel_suite frais bati place
            obtain ⟨drapeaux', garde, presentes⟩ := ih bati₁ (drapeaux.posee frais posee) pose
            refine ⟨drapeaux', fun d presente => garde d ((posee.presente_iff frais d).mpr (.inl presente)),
              fun c' mem => ?_⟩
            rcases List.mem_cons.mp mem with rfl | mem
            · exact ⟨haut, garde _ ((posee.presente_iff frais _).mpr (.inr rfl))⟩
            · exact presentes c' mem
      · cases pose

/-- After any sequence of calls that return 0, `get_address_reel` gives the frame of the last
call for the page exactly when the words that follow its entry happen to hold it. -/
theorem relecture_iff (env : Env) (frais : BlocsFrais env) {m m₁ m' : Memoire} {pd v : Mot}
    {l : List Placement} {c : Placement} (cree : createPageDirectory env m = (some pd, m₁))
    (pose : poser env pd l m₁ = some m') (dernier : derniere l v = some c) :
    getAddressReel m' v pd >>> 12 = c.adrReel >>> 12 ↔ Coincide m'.mots pd v c.adrReel := by
  obtain ⟨bati, vide, -, -, -⟩ := createPageDirectory_bati frais cree
  have neuf : Drapeaux m₁ pd := by
    intro d haut presente
    cases (congrFun vide d).symm.trans (lireRepertoire_presente haut presente)
  obtain ⟨drapeaux, -, presentes⟩ := poser_entrees frais l bati neuf pose
  obtain ⟨bati', -, -⟩ := poser_bati frais l bati pose
  have mem := List.mem_reverse.mp (List.mem_of_find?_eq_some dernier)
  have memePage : c.adrVirt >>> 12 = v >>> 12 := by simpa using List.find?_some dernier
  obtain ⟨haut, presente⟩ := presentes c mem
  have index : indexRepertoire c.adrVirt = indexRepertoire v :=
    (Prod.ext_iff.mp ((memePage_iff c.adrVirt v).mpr memePage)).1
  rw [index] at haut presente
  obtain ⟨n, -, -, ouverte⟩ := bati'.tables _ haut presente
  set e := m'.mots (caseTable pd (indexRepertoire v)) with defe
  have aligne : (e &&& kMskAdd).toNat % 4096 = 0 := frais.alignes n _ ouverte.bloc
  have bas : e &&& kMskAdd &&& kMskBitR = 0 := by
    rw [BitVec.and_assoc]
    exact BitVec.and_zero
  have lecture : getAddressReel m' v pd = lireMot m'.mots (caseTable e (indexTable v)) := by
    rw [getAddressReel]
    simp only [getNBits_repertoire_toNat, getNBits_table_toNat, defe]
  unfold Coincide motApres
  rw [← defe, lecture]
  rcases drapeaux _ haut presente with cinq | sept
  · rw [← defe] at cinq
    have lecteur : e &&& kMskBitR = 0 := by
      rw [cinq, drapeau_autre _ (by decide), bas]
    have adresse : e = (e &&& kMskAdd) + BitVec.ofNat 32 (4 + 1) :=
      cinq.trans (drapeaux_ajoutes aligne (by decide))
    rw [if_pos lecteur, ← decale_un]
    nth_rewrite 1 [adresse]
    rw [lireMot_decale m'.mots aligne _ 1 (by decide)]
  · rw [← defe] at sept
    have ecrit : ¬ e &&& kMskBitR = 0 := by
      rw [sept, drapeau_mis _ (by decide)]
      decide
    have adresse : e = (e &&& kMskAdd) + BitVec.ofNat 32 (4 + 3) :=
      sept.trans (drapeaux_ajoutes aligne (by decide))
    rw [if_neg ecrit, ← decale_trois]
    nth_rewrite 1 [adresse]
    rw [lireMot_decale m'.mots aligne _ 3 (by decide)]

theorem poser_nouveau {l : List Placement} {T : (Mot → Mot) → Bool}
    (reussi : (poser envFrais 0x100000 l (createPageDirectory envFrais noyauVide.memoire).2).any
      (fun m : Memoire => T m.mots) = true) :
    ∃ m₁ m', createPageDirectory envFrais noyauVide.memoire = (some 0x100000, m₁) ∧
      poser envFrais 0x100000 l m₁ = some m' ∧ T m'.mots = true := by
  obtain ⟨m', pose, vrai⟩ := (Option.any_eq_true ..).mp reussi
  exact ⟨_, m', rfl, pose, vrai⟩

theorem relecture_exemple : ∃ m₁ m', createPageDirectory envFrais noyauVide.memoire = (some 0x100000, m₁) ∧
    poser envFrais 0x100000 [⟨0x05123000, 0x40000000, .read⟩, ⟨0x12300000, 0x40001000, .read⟩,
      ⟨0x9000, 0x40002000, .read⟩] m₁ = some m' ∧
    getAddressReel m' 0x40000000 0x100000 >>> 12 = 0x05123 := by
  obtain ⟨m₁, m', cree, pose, coincide⟩ := poser_nouveau
    (l := [⟨0x05123000, 0x40000000, .read⟩, ⟨0x12300000, 0x40001000, .read⟩,
      ⟨0x9000, 0x40002000, .read⟩])
    (T := fun mots => decide (Coincide mots 0x100000 0x40000000 0x05123000)) (by decide +kernel)
  exact ⟨m₁, m', cree, pose, (relecture_iff envFrais envFrais_blocs cree pose
    (c := ⟨0x05123000, 0x40000000, .read⟩) rfl).mpr (of_decide_eq_true coincide)⟩

/-- Of a single page, `get_address_reel` reads the entries of the next two. -/
theorem relecture_decalee : ¬ ∀ env : Env, BlocsFrais env → ∀ m m₁ m' pd v l c,
    createPageDirectory env m = (some pd, m₁) → poser env pd l m₁ = some m' →
    derniere l v = some c → getAddressReel m' v pd >>> 12 = c.adrReel >>> 12 := by
  intro toujours
  obtain ⟨m₁, m', cree, pose, zero⟩ := poser_nouveau (l := [⟨0x5000, 0x40000000, .read⟩])
    (T := fun mots => decide (lireMot mots (caseTable (mots (caseTable 0x100000 256)) 0) = 0))
    (by decide +kernel)
  have cadre := toujours envFrais envFrais_blocs _ m₁ m' 0x100000 0x40000000 _
    ⟨0x5000, 0x40000000, .read⟩ cree pose rfl
  have nul : getAddressReel m' 0x40000000 0x100000 = 0 := of_decide_eq_true zero
  rw [nul] at cadre
  exact absurd cadre (by decide)

end ProjetSysteme.Properties
