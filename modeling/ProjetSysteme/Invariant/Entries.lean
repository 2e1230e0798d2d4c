/- Invariant/Entries
   source: kernel/page.c
   digest: The entries of a page directory after calls of put_address_reel. -/

import ProjetSysteme.Invariant.Paging

set_option autoImplicit false
set_option relaxedAutoImplicit false

namespace ProjetSysteme.Invariant

open Kernel Library.PageTable

def entreeNeuve (pt : Mot) : Mot := setBitN 0 true ((pt &&& kMskAdd) ||| kMskBitU)

/-- A call that returned 0 changed one entry of the directory, after it created the page
table of this entry if there was none. -/
structure EntreePosee (env : Env) (m m' : Memoire) (pd : Mot) (d : Fin 1024) (perm : Permission) :
    Prop where
  autres : ∀ d', d' ≠ d → m'.mots (caseTable pd d') = m.mots (caseTable pd d')
  entree : (m.mots (caseTable pd d) &&& kMskBitP ≠ 0 ∧ m'.nbMemalign = m.nbMemalign ∧
      m'.mots (caseTable pd d) = entreeAvec (m.mots (caseTable pd d)) perm) ∨
    ∃ pt, m.mots (caseTable pd d) &&& kMskBitP = 0 ∧ env.memalign m.nbMemalign = some pt ∧
      m'.nbMemalign = m.nbMemalign + 1 ∧ m'.mots (caseTable pd d) = entreeAvec (entreeNeuve pt) perm

structure EntreeRefusee (env : Env) (m m' : Memoire) : Prop where
  mots : m'.mots = m.mots
  memalign : m'.nbMemalign = m.nbMemalign + 1
  bloc : env.memalign m.nbMemalign = none

section Appel

variable {env : Env} {pd : Mot} {n₀ : Nat} {m m' : Memoire}

theorem tablePresente_cas {r : Int} {d : Fin 1024} (frais : BlocsFrais env) (bati : Bati env m pd n₀)
    (cree : tablePresente env m (caseTable pd d) = (r, m')) :
    (r = -1 ∧ EntreeRefusee env m m') ∨ (r = 0 ∧
      (∀ d', d' ≠ d → m'.mots (caseTable pd d') = m.mots (caseTable pd d')) ∧
      ((m.mots (caseTable pd d) &&& kMskBitP ≠ 0 ∧ m' = m) ∨
        ∃ pt, m.mots (caseTable pd d) &&& kMskBitP = 0 ∧ env.memalign m.nbMemalign = some pt ∧
          m'.nbMemalign = m.nbMemalign + 1 ∧ m'.mots (caseTable pd d) = entreeNeuve pt)) := by
  unfold tablePresente at cree
  split at cree
  · next absente =>
      unfold createPageTable at cree
      split at cree
      · next echec =>
          cases cree
          exact .inl ⟨rfl, rfl, rfl, echec⟩
      · next pt bloc =>
          cases cree
          refine .inr ⟨rfl, fun d' autre => ?_, .inr ⟨pt, absente, bloc, rfl, ?_⟩⟩
          · simp only [ecrire, if_neg (frais.caseTable_self bati.racine autre)]
            exact remplir_hors m.mots _ fun i =>
              frais.caseTable_ne bati.racine bloc (Nat.ne_of_lt bati.alloue) d' i
          · simp only [ecrire, if_true]
            rfl
  · next presente =>
      cases cree
      exact .inr ⟨rfl, fun _ _ => rfl, .inl ⟨presente, rfl⟩⟩

theorem putAddressReel_entree (frais : BlocsFrais env) (bati : Bati env m pd n₀) {r : Int}
    {adrReel adrVirt : Mot} {perm : Permission}
    (place : putAddressReel env m adrReel adrVirt perm pd = .ok (r, m')) :
    64 ≤ (indexRepertoire adrVirt).val ∧ ((r = -1 ∧ EntreeRefusee env m m') ∨
      (r = 0 ∧ EntreePosee env m m' pd (indexRepertoire adrVirt) perm)) := by
  rw [putAddressReel_eq] at place
  split at place
  · next haut =>
      refine ⟨haut, ?_⟩
      set d := indexRepertoire adrVirt with defd
      cases creee : tablePresente env m (caseTable pd d) with
      | mk r₁ m₁ =>
          simp only [creee] at place
          rcases tablePresente_cas frais bati creee with ⟨rfl, refusee⟩ | ⟨rfl, autres, entree⟩
          · rw [if_pos (by decide)] at place
            cases place
            exact .inl ⟨rfl, refusee⟩
          · rw [if_neg (by decide)] at place
            have preparee := tablePresente_preparee frais bati haut creee
            obtain ⟨n, apres, -, ouverte⟩ := preparee.bati.tables d haut preparee.presente
            have horsPage : ∀ d' : Fin 1024, caseTable pd d' ≠
                caseTable (m₁.mots (caseTable pd d) &&& kMskAdd) (indexTable adrVirt) := fun d' =>
              frais.caseTable_ne bati.racine ouverte.bloc (Nat.ne_of_lt apres) d' _
            cases place
            refine .inr ⟨rfl, fun d' autre => ?_, ?_⟩
            · have horsEntree := frais.caseTable_self bati.racine autre
              simp only [ecrire, if_neg (horsPage d'), if_neg horsEntree]
              exact autres d' autre
            · simp only [ecrire, if_neg (horsPage d), if_true]
              rcases entree with ⟨presente, rfl⟩ | ⟨pt, absente, bloc, suivant, neuve⟩
              · exact .inl ⟨presente, rfl, rfl⟩
              · exact .inr ⟨pt, absente, bloc, suivant, by rw [neuve]⟩
  · cases place

theorem putAddressReel_suite (frais : BlocsFrais env) (bati : Bati env m pd n₀) {r : Int}
    {adrReel adrVirt : Mot} {perm : Permission}
    (place : putAddressReel env m adrReel adrVirt perm pd = .ok (r, m')) :
    Bati env m' pd n₀ ∧ Cadre env pd n₀ m m' := by
  obtain ⟨-, ⟨-, refusee⟩ | ⟨rfl, -⟩⟩ := putAddressReel_entree frais bati place
  · have mots := refusee.mots
    have plus : m.nbMemalign ≤ m'.nbMemalign := refusee.memalign ▸ Nat.le_succ _
    have listes := (putAddressReel_listes env m adrReel adrVirt perm pd).of_ok place
    refine ⟨(bati.transport plus fun _ _ _ _ _ => by rw [mots]).1, listes, plus, fun a _ _ => ?_⟩
    rw [mots]
  · obtain ⟨-, bati', cadre, -⟩ := putAddressReel_bati frais bati place
    exact ⟨bati', cadre⟩

variable {d : Fin 1024} {perm : Permission}

theorem entreeNeuve_presente (frais : BlocsFrais env) {n : Nat} {pt : Mot}
    (bloc : env.memalign n = some pt) :
    entreeNeuve pt &&& kMskAdd = pt ∧ entreeNeuve pt &&& kMskBitP ≠ 0 :=
  ⟨(nouvelleEntree (frais.alignes n pt bloc)).1, (nouvelleEntree (frais.alignes n pt bloc)).2.1⟩

theorem EntreePosee.presente_iff (posee : EntreePosee env m m' pd d perm) (frais : BlocsFrais env)
    (d' : Fin 1024) : m'.mots (caseTable pd d') &&& kMskBitP ≠ 0 ↔
      m.mots (caseTable pd d') &&& kMskBitP ≠ 0 ∨ d' = d := by
  by_cases meme : d' = d
  · subst meme
    refine iff_of_true ?_ (.inr rfl)
    rcases posee.entree with ⟨presente, -, entree⟩ | ⟨pt, -, bloc, -, entree⟩
    · rwa [entree, entreeAvec_presence]
    · rw [entree, entreeAvec_presence]
      exact (entreeNeuve_presente frais bloc).2
  · rw [posee.autres d' meme, or_iff_left meme]

theorem EntreePosee.ouverte (posee : EntreePosee env m m' pd d perm) {d' : Fin 1024} {n : Nat}
    (ouverte : Ouverte env m.mots pd d' n) : Ouverte env m'.mots pd d' n := by
  by_cases meme : d' = d
  · subst meme
    rcases posee.entree with ⟨presente, -, entree⟩ | ⟨pt, absente, -⟩
    · refine ⟨ouverte.haut, ?_, ?_⟩
      · rwa [entree, entreeAvec_presence]
      · rw [entree, entreeAvec_adresse]
        exact ouverte.bloc
    · exact absurd absente ouverte.presente
  · exact ouverte.congr (posee.autres d' meme)

/-- Every block that `memalign` gave since `n₀` is a page table of the directory. -/
def Complet (env : Env) (m : Memoire) (pd : Mot) (n₀ : Nat) : Prop :=
  ∀ n a, n₀ < n → n < m.nbMemalign → env.memalign n = some a → ∃ d, Ouverte env m.mots pd d n

theorem Complet.refusee (complet : Complet env m pd n₀) (refusee : EntreeRefusee env m m') :
    Complet env m' pd n₀ := by
  intro n a apres avant bloc
  rw [refusee.memalign] at avant
  rcases Nat.lt_succ_iff_lt_or_eq.mp avant with ancien | rfl
  · rw [refusee.mots]
    exact complet n a apres ancien bloc
  · cases bloc.symm.trans refusee.bloc

theorem Complet.posee (complet : Complet env m pd n₀) (frais : BlocsFrais env) (haut : 64 ≤ d.val)
    (posee : EntreePosee env m m' pd d perm) : Complet env m' pd n₀ := by
  intro n a apres avant bloc
  have garde : n < m.nbMemalign → ∃ d, Ouverte env m'.mots pd d n := by
    intro ancien
    obtain ⟨d', ouverte⟩ := complet n a apres ancien bloc
    exact ⟨d', posee.ouverte ouverte⟩
  rcases posee.entree with ⟨-, compte, -⟩ | ⟨pt, -, neuf, compte, entree⟩
  · rw [compte] at avant
    exact garde avant
  · rw [compte] at avant
    rcases Nat.lt_succ_iff_lt_or_eq.mp avant with ancien | rfl
    · exact garde ancien
    · obtain ⟨adresse, presente⟩ := entreeNeuve_presente frais neuf
      refine ⟨d, haut, ?_, ?_⟩
      · rwa [entree, entreeAvec_presence]
      · rw [entree, entreeAvec_adresse, adresse]
        exact neuf

/-- A present entry is the address of its table, with the user bit and maybe the write bit. -/
def Drapeaux (m : Memoire) (pd : Mot) : Prop :=
  ∀ d : Fin 1024, 64 ≤ d.val → m.mots (caseTable pd d) &&& kMskBitP ≠ 0 →
    m.mots (caseTable pd d) = m.mots (caseTable pd d) &&& kMskAdd ||| 5 ∨
      m.mots (caseTable pd d) = m.mots (caseTable pd d) &&& kMskAdd ||| 7

theorem entreeAvec_drapeaux {e a : Mot} (drapeaux : e = a ||| 5 ∨ e = a ||| 7) (perm : Permission) :
    entreeAvec e perm = a ||| 5 ∨ entreeAvec e perm = a ||| 7 := by
  have somme : ∀ x y : Mot, a ||| x ||| y = a ||| (x ||| y) := fun x y => BitVec.or_assoc a x y
  rcases drapeaux with rfl | rfl <;> cases perm
  · exact .inl (somme 5 4)
  · exact .inr ((congrArg (· ||| 4) (somme 5 2)).trans (somme 7 4))
  · exact .inr (somme 7 4)
  · exact .inr ((congrArg (· ||| 4) (somme 7 2)).trans (somme 7 4))

theorem Drapeaux.posee (drapeaux : Drapeaux m pd) (frais : BlocsFrais env)
    (posee : EntreePosee env m m' pd d perm) : Drapeaux m' pd := by
  intro d' haut presente
  by_cases meme : d' = d
  · subst meme
    rcases posee.entree with ⟨avant, -, entree⟩ | ⟨pt, -, bloc, -, entree⟩
    · rw [entree, entreeAvec_adresse]
      exact entreeAvec_drapeaux (drapeaux d' haut avant) perm
    · have adresse := (entreeNeuve_presente frais bloc).1
      have neuve : entreeNeuve pt = pt ||| 5 := by
        rw [entreeNeuve, setBitN_presence, adresse_alignee (frais.alignes _ pt bloc)]
        exact BitVec.or_assoc pt 4 1
      rw [entree, entreeAvec_adresse, adresse]
      exact entreeAvec_drapeaux (.inl neuve) perm
  · rw [posee.autres d' meme] at presente ⊢
    exact drapeaux d' haut presente

end Appel

end ProjetSysteme.Invariant
