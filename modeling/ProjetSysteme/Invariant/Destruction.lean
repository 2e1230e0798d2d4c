/- Invariant/Destruction
   digest: Effect of the child loops of definir_etat_processus, and that their recursion ends. -/

import ProjetSysteme.Invariant.Change
import Mathlib.Data.Finset.Card
import Mathlib.Data.Fintype.Card
import Mathlib.Data.List.TakeWhile

set_option autoImplicit false
set_option relaxedAutoImplicit false

namespace ProjetSysteme.Invariant

open Kernel Library.PriorityList

/-- `p'` differs from `p` at most in its identity, its state and its place in the forest. -/
def MemesDonnees (p p' : Processus) : Prop :=
  p' = { p with pid := p'.pid, etat := p'.etat, pere := p'.pere, fils := p'.fils }

theorem MemesDonnees.trans {p p' p'' : Processus} (un : MemesDonnees p p')
    (deux : MemesDonnees p' p'') : MemesDonnees p p'' := by
  unfold MemesDonnees at *
  rw [deux, un]

def Detruit (k k' : Noyau) (j : Indice) : Prop :=
  (k.table j).etat = .zombie ∧ (k'.table j).etat = .mort

def SousDetruit (p : Indice) (k k' : Noyau) (j : Indice) : Prop :=
  ∀ q, (k.table j).pere = some q → q = p ∨ Detruit k k' q

/-- Effect of the child loop of `p`, for a rank `r` that grows from fathers to
children: some zombies below `p` are destroyed, and the children of what is
destroyed lose their father. -/
structure Nettoie (r : Indice → Nat) (p : Indice) (k k' : Noyau) : Prop where
  noyau : k' = { k with table := k'.table }
  donnees : ∀ j, MemesDonnees (k.table j) (k'.table j)
  sort : ∀ j, ((k'.table j).pid = (k.table j).pid ∧ (k'.table j).etat = (k.table j).etat) ∨
    ((k'.table j).pid = none ∧ Detruit k k' j)
  pere : ∀ j, (k'.table j).pere = (k.table j).pere ∨
    ((k'.table j).pere = none ∧ SousDetruit p k k' j)
  detruit : ∀ j, Detruit k k' j → SousDetruit p k k' j ∧ r p < r j ∧
    ((k'.table j).pere = none ∨ (k'.table j).pere = some p)
  complet : ∀ q j, Detruit k k' q → (k.table j).etat ≠ .mort → (k.table j).pere = some q →
    (k'.table j).pere = none
  fils : ∀ q, q ≠ p → (k'.table q).fils = (k.table q).fils

namespace Nettoie

variable {r : Indice → Nat} {p : Indice} {k k' k'' : Noyau}

theorem etat (net : Nettoie r p k k') (j : Indice) :
    (k'.table j).etat = (k.table j).etat ∨ Detruit k k' j :=
  (net.sort j).imp And.right And.right

theorem refl (r : Indice → Nat) (p : Indice) (k : Noyau) : Nettoie r p k k where
  noyau := rfl
  donnees _ := rfl
  sort _ := .inl ⟨rfl, rfl⟩
  pere _ := .inl rfl
  detruit j := by
    rintro ⟨zombie, mort⟩
    rw [zombie] at mort
    cases mort
  complet q j := by
    rintro ⟨zombie, mort⟩
    rw [zombie] at mort
    cases mort
  fils _ _ := rfl

theorem mort (net : Nettoie r p k k') {j : Indice} (mort : (k.table j).etat = .mort) :
    (k'.table j).etat = .mort := by
  rcases net.etat j with meme | detruit
  · rw [meme, mort]
  · exact detruit.2

theorem vivant (net : Nettoie r p k k') {j : Indice} (vivant : (k'.table j).etat ≠ .mort) :
    (k.table j).etat ≠ .mort ∧ ¬ Detruit k k' j :=
  ⟨fun mort => vivant (net.mort mort), fun detruit => vivant detruit.2⟩

theorem pere_some (net : Nettoie r p k k') {j q : Indice} (pere : (k'.table j).pere = some q) :
    (k.table j).pere = some q := by
  rcases net.pere j with meme | ⟨perdu, _⟩
  · rw [← meme, pere]
  · rw [perdu] at pere
    cases pere

theorem detruit_trans (un : Nettoie r p k k') (deux : Nettoie r p k' k'') (j : Indice) :
    Detruit k k'' j ↔ Detruit k k' j ∨ Detruit k' k'' j := by
  constructor
  · rintro ⟨zombie, mort⟩
    rcases un.etat j with meme | detruit
    · exact .inr ⟨meme.trans zombie, mort⟩
    · exact .inl detruit
  · rintro (⟨zombie, mort⟩ | ⟨zombie, mort⟩)
    · exact ⟨zombie, deux.mort mort⟩
    · rcases un.etat j with meme | detruit
      · exact ⟨meme ▸ zombie, mort⟩
      · rw [detruit.2] at zombie
        cases zombie

theorem sousDetruit_trans (un : Nettoie r p k k') (deux : Nettoie r p k' k'') {j : Indice}
    (sous : SousDetruit p k' k'' j) : SousDetruit p k k'' j := by
  intro q pere
  rcases un.pere j with meme | ⟨_, sous'⟩
  · exact (sous q (meme.trans pere)).imp id fun d => (un.detruit_trans deux q).mpr (.inr d)
  · exact (sous' q pere).imp id fun d => (un.detruit_trans deux q).mpr (.inl d)

theorem trans (un : Nettoie r p k k') (deux : Nettoie r p k' k'') : Nettoie r p k k'' where
  noyau := by rw [deux.noyau, un.noyau]
  donnees j := (un.donnees j).trans (deux.donnees j)
  sort j := by
    rcases deux.sort j with ⟨pid, etat⟩ | ⟨pid, detruit⟩
    · rcases un.sort j with ⟨pid', etat'⟩ | ⟨pid', detruit'⟩
      · exact .inl ⟨pid.trans pid', etat.trans etat'⟩
      · exact .inr ⟨pid.trans pid', (un.detruit_trans deux j).mpr (.inl detruit')⟩
    · exact .inr ⟨pid, (un.detruit_trans deux j).mpr (.inr detruit)⟩
  pere j := by
    rcases deux.pere j with meme | ⟨perdu, sous⟩
    · rcases un.pere j with meme' | ⟨perdu', sous'⟩
      · exact .inl (meme.trans meme')
      · refine .inr ⟨meme.trans perdu', fun q pere => ?_⟩
        exact (sous' q pere).imp id fun d => (un.detruit_trans deux q).mpr (.inl d)
    · exact .inr ⟨perdu, un.sousDetruit_trans deux sous⟩
  detruit j detruit := by
    rcases (un.detruit_trans deux j).mp detruit with premier | second
    · obtain ⟨sous, loin, pere⟩ := un.detruit j premier
      refine ⟨fun q estPere => ?_, loin, ?_⟩
      · exact (sous q estPere).imp id fun d => (un.detruit_trans deux q).mpr (.inl d)
      · rcases deux.pere j with meme | ⟨perdu, _⟩
        · rw [meme]
          exact pere
        · exact .inl perdu
    · obtain ⟨sous, loin, pere⟩ := deux.detruit j second
      exact ⟨un.sousDetruit_trans deux sous, loin, pere⟩
  complet q j detruit vivant pere := by
    rcases (un.detruit_trans deux q).mp detruit with premier | second
    · have perdu := un.complet q j premier vivant pere
      rcases deux.pere j with meme | ⟨perdu', _⟩
      · rw [meme, perdu]
      · exact perdu'
    · rcases deux.pere j with meme | ⟨perdu, _⟩
      · rcases un.pere j with meme' | ⟨perdu', _⟩
        · rw [meme]
          by_cases mort : (k'.table j).etat = .mort
          · -- `j` was destroyed first, and kept no father but `p`, which is not destroyed
            have premier : Detruit k k' j := by
              rcases un.etat j with meme'' | d
              · exact absurd (meme'' ▸ mort) vivant
              · exact d
            rcases (un.detruit j premier).2.2 with perdu | racine
            · exact perdu
            · rw [meme', pere] at racine
              have := (deux.detruit q second).2.1
              rw [Option.some.inj racine] at this
              exact absurd this (lt_irrefl _)
          · rw [← meme]
            exact deux.complet q j second mort (meme'.trans pere)
        · rw [meme, perdu']
      · exact perdu
  fils q autre := (deux.fils q autre).trans (un.fils q autre)

end Nettoie

structure Dessous (r : Indice → Nat) (p : Indice) (k : Noyau) : Prop where
  pid_mort : ∀ j, (k.table j).pid = none ↔ (k.table j).etat = .mort
  rang : ∀ j q, (k.table j).etat ≠ .mort → (k.table j).pere = some q → r q < r j
  enfants : ∀ q, r p < r q → (k.table q).etat ≠ .mort → Enfants k q
  pere_vivant : ∀ j q, r p < r q → (k.table j).etat ≠ .mort → (k.table j).pere = some q →
    (k.table q).etat ≠ .mort

theorem Dessous.plus_bas {r : Indice → Nat} {p z : Indice} {k : Noyau} (dessous : Dessous r p k)
    (loin : r p < r z) : Dessous r z k where
  pid_mort := dessous.pid_mort
  rang := dessous.rang
  enfants q plus := dessous.enfants q (loin.trans plus)
  pere_vivant j q plus := dessous.pere_vivant j q (loin.trans plus)

theorem Nettoie.pere_garde {r : Indice → Nat} {p : Indice} {k k' : Noyau} (net : Nettoie r p k k')
    {j q : Indice} (pere : (k.table j).pere = some q) (autre : q ≠ p) (reste : ¬ Detruit k k' q) :
    (k'.table j).pere = some q := by
  rcases net.pere j with meme | ⟨_, sous⟩
  · rw [meme, pere]
  · exact absurd (sous q pere) (by simp [autre, reste])

theorem Nettoie.dessous {r : Indice → Nat} {p : Indice} {k k' : Noyau} (net : Nettoie r p k k')
    (dessous : Dessous r p k) : Dessous r p k' where
  pid_mort j := by
    rcases net.sort j with ⟨pid, etat⟩ | ⟨pid, detruit⟩
    · rw [pid, etat]
      exact dessous.pid_mort j
    · simp [pid, detruit.2]
  rang j q vivant pere := dessous.rang j q (net.vivant vivant).1 (net.pere_some pere)
  enfants q loin vivant := by
    have autre : q ≠ p := by
      rintro rfl
      exact lt_irrefl _ loin
    obtain ⟨vivant₀, reste⟩ := net.vivant vivant
    have enfants := dessous.enfants q loin vivant₀
    refine ⟨fun j => ?_, by rw [net.fils q autre]; exact enfants.nodup⟩
    rw [net.fils q autre, enfants.mem]
    constructor
    · rintro ⟨pere, vivantJ⟩
      refine ⟨net.pere_garde pere autre reste, fun mort => ?_⟩
      rcases net.etat j with meme | detruit
      · exact vivantJ (meme ▸ mort)
      · exact absurd ((net.detruit j detruit).1 q pere) (by simp [autre, reste])
    · rintro ⟨pere, vivantJ⟩
      exact ⟨net.pere_some pere, (net.vivant vivantJ).1⟩
  pere_vivant j q loin vivant pere mort := by
    have pere₀ := net.pere_some pere
    rcases net.etat q with meme | detruit
    · exact dessous.pere_vivant j q loin (net.vivant vivant).1 pere₀ (meme ▸ mort)
    · rw [net.complet q j detruit (net.vivant vivant).1 pere₀] at pere
      cases pere

/-- The number of slots whose rank is greater: it bounds the depth of the recursion below `p`. -/
def hauteur (r : Indice → Nat) (p : Indice) : Nat :=
  (Finset.univ.filter fun j => r p < r j).card

theorem hauteur_lt {r : Indice → Nat} {p z : Indice} (loin : r p < r z) :
    hauteur r z < hauteur r p := by
  refine Finset.card_lt_card ⟨fun j => ?_, fun inclus => ?_⟩
  · simp only [Finset.mem_filter, Finset.mem_univ, true_and]
    exact loin.trans
  · have := inclus (Finset.mem_filter.mpr ⟨Finset.mem_univ z, loin⟩)
    exact lt_irrefl _ (Finset.mem_filter.mp this).2

theorem hauteur_le (r : Indice → Nat) (p : Indice) : hauteur r p ≤ nbProc :=
  (Finset.card_le_univ _).trans (Fintype.card_fin _).le

theorem Enfants.length_le {k : Noyau} {p : Indice} (enfants : Enfants k p) :
    (k.table p).fils.length ≤ nbProc := by
  have := enfants.nodup.length_le_card
  rwa [Fintype.card_fin] at this

theorem suivantFils_ok {k : Noyau} {p c : Indice} {avant reste : List Indice}
    (fils : (k.table p).fils = avant ++ c :: reste) (nodup : (k.table p).fils.Nodup) :
    suivantFils k p c = .ok reste.head? := by
  have absent : c ∉ avant := by
    rw [fils] at nodup
    exact fun mem => (List.nodup_append.mp nodup).2.2 c mem c (List.mem_cons_self ..) rfl
  have saut : (avant ++ c :: reste).dropWhile (fun d => d ≠ c) = c :: reste := by
    rw [List.dropWhile_append_of_pos]
    · simp
    · intro d mem
      simp only [decide_eq_true_eq]
      rintro rfl
      exact absent mem
  rw [suivantFils, fils]
  simp only [ne_eq] at saut ⊢
  rw [saut]
  cases reste <;> rfl

theorem suivantFils_absent {k : Noyau} {p c : Indice} (absent : c ∉ (k.table p).fils) :
    suivantFils k p c = .error (.faute .maillonNul) := by
  have vide : (k.table p).fils.dropWhile (fun d => d ≠ c) = [] := by
    rw [List.dropWhile_eq_nil_iff]
    intro d mem
    simp only [decide_eq_true_eq]
    rintro rfl
    exact absent mem
  rw [suivantFils, vide]

def fermer (k : Noyau) (z : Indice) : Noyau :=
  { k with table := fun j =>
      if j = z then { k.table j with pid := none, etat := .mort }
      else if (k.table z).pere = some j then { k.table j with fils := (k.table j).fils.erase z }
      else k.table j }

def PereRetire (k : Noyau) (z : Indice) : Prop :=
  ∀ q, (k.table z).pere = some q → q ≠ z ∧ (k.table q).etat ≠ .mort ∧ z ∈ (k.table q).fils

theorem retirerDuPere_ok {k : Noyau} {z : Indice} (retire : PereRetire k z) :
    (retirerDuPere (k.modifie z fun p => { p with pid := none }) z >>= fun k =>
      .ok (k.modifie z fun p => { p with etat := .mort }) : Resultat) = .ok (fermer k z) := by
  cases pere : (k.table z).pere with
  | none =>
      simp only [retirerDuPere, Noyau.modifie_table_self, pere, bind, Except.bind, fermer]
      refine congrArg Except.ok (Noyau.eq_of_table rfl fun j => ?_)
      by_cases meme : j = z <;> simp [Noyau.modifie, meme]
  | some q =>
      obtain ⟨autre, vivant, mem⟩ := retire q pere
      have retirerOk : retirerDuPere (k.modifie z fun p => { p with pid := none }) z =
          .ok ((k.modifie z fun p => { p with pid := none }).modifie q fun p =>
            { p with fils := (k.table q).fils.erase z }) := by
        simp only [retirerDuPere, Noyau.modifie_table_self, pere, Noyau.modifie_table_ne k _ autre]
        rw [if_neg vivant, queueDel, if_pos mem]
        rfl
      rw [retirerOk]
      simp only [bind, Except.bind, fermer, pere]
      refine congrArg Except.ok (Noyau.eq_of_table rfl fun j => ?_)
      by_cases meme : j = z
      · subst meme
        simp [Noyau.modifie, Ne.symm autre]
      · by_cases estPere : j = q
        · subst estPere
          simp [Noyau.modifie, meme]
        · simp [Noyau.modifie, meme, estPere, Ne.symm estPere]

theorem fermer_etat (k : Noyau) (z j : Indice) :
    ((fermer k z).table j).etat = if j = z then .mort else (k.table j).etat := by
  simp only [fermer]
  split_ifs <;> rfl

theorem fermer_pere (k : Noyau) (z j : Indice) :
    ((fermer k z).table j).pere = (k.table j).pere := by
  simp only [fermer]
  split_ifs <;> rfl

theorem fermer_pid (k : Noyau) {z j : Indice} (autre : j ≠ z) :
    ((fermer k z).table j).pid = (k.table j).pid := by
  simp only [fermer, if_neg autre]
  split <;> rfl

theorem detruit_fermer {k k' : Noyau} {z q : Indice} (zombie : (k.table z).etat = .zombie)
    (fini : q = z ∨ Detruit k k' q) : Detruit k (fermer k' z) q := by
  by_cases meme : q = z
  · subst meme
    exact ⟨zombie, by rw [fermer_etat, if_pos rfl]⟩
  · have detruit := fini.resolve_left meme
    refine ⟨detruit.1, ?_⟩
    rw [fermer_etat, if_neg meme]
    exact detruit.2

theorem Detruit.of_fermer {k k' : Noyau} {z q : Indice} (autre : q ≠ z)
    (detruit : Detruit k (fermer k' z) q) : Detruit k k' q := by
  have mort := detruit.2
  rw [fermer_etat, if_neg autre] at mort
  exact ⟨detruit.1, mort⟩

theorem Nettoie.fermeture {r : Indice → Nat} {p z : Indice} {k k' : Noyau} (net : Nettoie r z k k')
    (zombie : (k.table z).etat = .zombie) (loin : r p < r z)
    (pereZ : ∀ q, (k.table z).pere = some q → q = p)
    (filsZ : (k'.table z).fils = (k.table z).fils)
    (orphelins : ∀ j, (k.table j).pere = some z → (k.table j).etat ≠ .mort →
      (k'.table j).pere = none) : Nettoie r p k (fermer k' z) where
  noyau := by rw [fermer, net.noyau]
  donnees j := by
    refine (net.donnees j).trans ?_
    simp only [fermer]
    split_ifs <;> rfl
  sort j := by
    by_cases meme : j = z
    · subst meme
      exact .inr ⟨by simp [fermer], detruit_fermer zombie (.inl rfl)⟩
    · rw [fermer_pid k' meme, fermer_etat, if_neg meme]
      exact (net.sort j).imp id fun ⟨pid, detruit⟩ => ⟨pid, detruit_fermer zombie (.inr detruit)⟩
  pere j := by
    rw [fermer_pere]
    refine (net.pere j).imp id fun ⟨perdu, sous⟩ => ⟨perdu, fun q estPere => ?_⟩
    exact .inr (detruit_fermer zombie (sous q estPere))
  detruit j detruit := by
    rw [fermer_pere]
    by_cases meme : j = z
    · subst meme
      refine ⟨fun q estPere => .inl (pereZ q estPere), loin, ?_⟩
      cases estPere : (k'.table j).pere with
      | none => exact .inl rfl
      | some q => exact .inr (by rw [pereZ q (net.pere_some estPere)])
    · obtain ⟨sous, plus, perePerdu⟩ := net.detruit j (detruit.of_fermer meme)
      refine ⟨fun q estPere => .inr (detruit_fermer zombie (sous q estPere)), loin.trans plus, ?_⟩
      rcases perePerdu with perdu | racine
      · exact .inl perdu
      · refine .inl (orphelins j (net.pere_some racine) ?_)
        rw [detruit.1]
        exact EtatProcessus.noConfusion
  complet q j detruit vivant estPere := by
    rw [fermer_pere]
    by_cases meme : q = z
    · exact orphelins j (meme ▸ estPere) vivant
    · exact net.complet q j (detruit.of_fermer meme) vivant estPere
  fils q ne := by
    simp only [fermer]
    split_ifs with meme estPere
    · rw [meme]
      exact filsZ
    · exact absurd (pereZ q (net.pere_some estPere)) ne
    · exact net.fils q meme

/-- The child loop of the case MORT, for the recursion bound `n`: it visits the
children `l` that remain, detaches them and destroys the zombies among them. -/
def BoucleMort (r : Indice → Nat) (n : Nat) : Prop :=
  ∀ (k : Noyau) (p : Indice) (avant l : List Indice), Dessous r p k →
    (k.table p).fils = avant ++ l → (k.table p).fils.Nodup →
    (∀ j ∈ l, (k.table j).pere = some p ∧ (k.table j).etat ≠ .mort) →
    3 * l.length + 1 + 50 * hauteur r p ≤ n →
    ∃ k', boucleFils n true k p l.head? = .ok (l, k') ∧ Nettoie r p k k' ∧
      (k'.table p).fils = (k.table p).fils ∧
      ∀ j ∈ l, (k'.table j).pere = none ∧
        ((k.table j).etat = .zombie → (k'.table j).etat = .mort)

theorem PereRetire.nettoie {r : Indice → Nat} {z : Indice} {k k' : Noyau} (net : Nettoie r z k k')
    (dessous : Dessous r z k) (vivant : (k.table z).etat ≠ .mort) (retire : PereRetire k z) :
    PereRetire k' z := by
  intro q pere
  have pere₀ := net.pere_some pere
  obtain ⟨autre, vivantQ, mem⟩ := retire q pere₀
  refine ⟨autre, fun mort => ?_, by rw [net.fils q autre]; exact mem⟩
  rcases net.etat q with meme | detruit
  · exact vivantQ (meme ▸ mort)
  · exact absurd (net.detruit q detruit).2.1 (dessous.rang z q vivant pere₀).asymm

theorem casEtat_mort {r : Indice → Nat} {n : Nat} (boucle : BoucleMort r n) {k : Noyau} {z : Indice}
    (dessous : Dessous r z k) (enfants : Enfants k z) (vivant : (k.table z).etat ≠ .mort)
    (retire : PereRetire k z) (assez : 46 + 50 * hauteur r z ≤ n) :
    ∃ k', boucleFils n true k z (k.table z).fils.head? = .ok ((k.table z).fils, k') ∧
      Nettoie r z k k' ∧ (k'.table z).fils = (k.table z).fils ∧
      (∀ j, (k.table j).pere = some z → (k.table j).etat ≠ .mort → (k'.table j).pere = none ∧
        ((k.table j).etat = .zombie → (k'.table j).etat = .mort)) ∧
      (casEtat (n + 1) k z .mort >>= fun k =>
        .ok (k.modifie z fun p => { p with etat := .mort }) : Resultat) = .ok (fermer k' z) := by
  have petit := enfants.length_le
  obtain ⟨k', run, net, fils, visites⟩ := boucle k z [] (k.table z).fils dessous rfl enfants.nodup
    (fun j mem => (enfants.mem j).mp mem) (by simp only [nbProc] at petit; omega)
  refine ⟨k', run, net, fils, fun j pere vivantJ => visites j ((enfants.mem j).mpr ⟨pere, vivantJ⟩),
    ?_⟩
  have fin := retirerDuPere_ok (retire.nettoie net dessous vivant)
  rw [casEtat]
  simp only [run, bind, Except.bind] at fin ⊢
  exact fin

theorem detruireZombie {r : Indice → Nat} {n : Nat} (boucle : BoucleMort r n) {k : Noyau}
    {z : Indice} (dessous : Dessous r z k) (enfants : Enfants k z)
    (zombie : (k.table z).etat = .zombie) (retire : PereRetire k z)
    (assez : 46 + 50 * hauteur r z ≤ n) :
    ∃ k', Nettoie r z k k' ∧ (k'.table z).fils = (k.table z).fils ∧
      (∀ j, (k.table j).pere = some z → (k.table j).etat ≠ .mort → (k'.table j).pere = none) ∧
      definirEtatProcessus (n + 2) k z .mort = .ok (fermer k' z) := by
  have vivant : (k.table z).etat ≠ .mort := by rw [zombie]; exact EtatProcessus.noConfusion
  have occupe : (k.table z).pid ≠ none := fun libre => vivant ((dessous.pid_mort z).mp libre)
  obtain ⟨k', -, net, fils, orphelins, cas⟩ :=
    casEtat_mort boucle dessous enfants vivant retire assez
  refine ⟨k', net, fils, fun j pere vivantJ => (orphelins j pere vivantJ).1, ?_⟩
  have quitterA : quitterActivables k z .mort = .ok k := by simp [quitterActivables, zombie]
  have quitterE : quitterEndormis k z = .ok k := by simp [quitterEndormis, zombie]
  rw [definirEtatProcessus, if_neg occupe, if_neg vivant, quitterA]
  simp only [bind, Except.bind, quitterE] at cas ⊢
  exact cas

theorem Nettoie.detacher {r : Indice → Nat} {p c : Indice} {k : Noyau}
    (pere : ∀ q, (k.table c).pere = some q → q = p) :
    Nettoie r p k (k.modifie c fun f => { f with pere := none }) := by
  have etat : ∀ j, ((k.modifie c fun f => { f with pere := none }).table j).etat =
      (k.table j).etat := by
    intro j
    rw [Noyau.modifie_table]
    split <;> rfl
  have aucun : ∀ j, ¬ Detruit k (k.modifie c fun f => { f with pere := none }) j := by
    rintro j ⟨zombie, mort⟩
    rw [etat, zombie] at mort
    cases mort
  refine ⟨rfl, fun j => ?_, fun j => .inl ⟨?_, etat j⟩, fun j => ?_, fun j d => absurd d (aucun j),
    fun q _ d => absurd d (aucun q), fun q _ => ?_⟩
  · rw [Noyau.modifie_table]
    split <;> rfl
  · rw [Noyau.modifie_table]
    split <;> rfl
  · by_cases meme : j = c
    · subst meme
      exact .inr ⟨by simp, fun q estPere => .inl (pere q estPere)⟩
    · exact .inl (by rw [Noyau.modifie_table_ne _ _ meme])
  · rw [Noyau.modifie_table]
    split <;> rfl

theorem Nettoie.frere {r : Indice → Nat} {p c : Indice} {k k' : Noyau} (net : Nettoie r c k k')
    (loin : r p < r c) {j : Indice} (pere : (k.table j).pere = some p) (autre : j ≠ c) :
    ((fermer k' c).table j).pere = some p ∧
      ((fermer k' c).table j).etat = (k.table j).etat := by
  have autreP : p ≠ c := by
    rintro rfl
    exact lt_irrefl _ loin
  have reste : ¬ Detruit k k' p := fun detruit => (net.detruit p detruit).2.1.asymm loin
  refine ⟨by rw [fermer_pere]; exact net.pere_garde pere autreP reste, ?_⟩
  rw [fermer_etat, if_neg autre]
  refine (net.etat j).resolve_right fun detruit => ?_
  exact absurd ((net.detruit j detruit).1 p pere) (by simp [autreP, reste])

theorem corpsFils_suite {r : Indice → Nat} {n : Nat} (boucle : BoucleMort r n) {k : Noyau}
    {p c : Indice} {avant reste : List Indice} (dessous : Dessous r p k)
    (fils : (k.table p).fils = avant ++ c :: reste) (nodup : (k.table p).fils.Nodup)
    (propres : ∀ j ∈ reste, (k.table j).pere = some p ∧ (k.table j).etat ≠ .mort)
    (pere : ∀ q, (k.table c).pere = some q → q = p) (autre : p ≠ c)
    (nonZombie : (k.table c).etat ≠ .zombie)
    (assez : 3 * reste.length + 1 + 50 * hauteur r p ≤ n) :
    ∃ k', corpsFils (n + 1) true k p c = .ok (reste, k') ∧ Nettoie r p k k' ∧
      (k'.table p).fils = (k.table p).fils ∧ (k'.table c).pere = none ∧
      ∀ j ∈ reste, (k'.table j).pere = none ∧
        ((k.table j).etat = .zombie → (k'.table j).etat = .mort) := by
  set k₀ := k.modifie c fun f => { f with pere := none } with defk₀
  have net₀ : Nettoie r p k k₀ := .detacher pere
  have fils₀ : (k₀.table p).fils = (k.table p).fils := by
    rw [defk₀, Noyau.modifie_table_ne _ _ autre]
  have absent : c ∉ reste := by
    rw [fils] at nodup
    exact (List.nodup_cons.mp (List.nodup_append.mp nodup).2.1).1
  have table₀ : ∀ j ∈ reste, k₀.table j = k.table j := by
    intro j mem
    refine Noyau.modifie_table_ne _ _ ?_
    rintro rfl
    exact absent mem
  obtain ⟨k', run, net, fils', visites⟩ := boucle k₀ p (avant ++ [c]) reste (net₀.dessous dessous)
    (by rw [fils₀, fils]; simp) (by rw [fils₀]; exact nodup)
    (fun j mem => by rw [table₀ j mem]; exact propres j mem) assez
  refine ⟨k', ?_, net₀.trans net, fils'.trans fils₀, ?_, fun j mem => ?_⟩
  · have nonZombie₀ : (k₀.table c).etat ≠ .zombie := by simpa [defk₀] using nonZombie
    rw [corpsFils]
    simp only [if_true, ← defk₀, if_neg nonZombie₀]
    rw [suivantFils_ok (fils₀.trans fils) (fils₀.symm ▸ nodup)]
    exact run
  · rcases net.pere c with meme | ⟨perdu, _⟩
    · rw [meme, defk₀, Noyau.modifie_table_self]
    · exact perdu
  · have := visites j mem
    rwa [table₀ j mem] at this

theorem detruireOrphelin {r : Indice → Nat} {n : Nat} (boucle : BoucleMort r n) {k : Noyau} {p c : Indice}
    (dessous : Dessous r p k) (pere : (k.table c).pere = some p) (zombie : (k.table c).etat = .zombie)
    (assez : 46 + 50 * hauteur r c ≤ n) :
    ∃ k', definirEtatProcessus (n + 2) (k.modifie c fun f => { f with pere := none }) c .mort = .ok k' ∧
      Nettoie r p k k' ∧ (k'.table p).fils = (k.table p).fils ∧ (k'.table c).pere = none ∧
      (k'.table c).etat = .mort ∧ ∀ j, j ≠ c → (k.table j).pere = some p →
        (k'.table j).pere = some p ∧ (k'.table j).etat = (k.table j).etat := by
  have loin : r p < r c := dessous.rang c p (by rw [zombie]; exact EtatProcessus.noConfusion) pere
  have autre : p ≠ c := by
    rintro rfl
    exact lt_irrefl _ loin
  set k₀ := k.modifie c fun f => { f with pere := none } with defk₀
  have net₀ : Nettoie r p k k₀ := .detacher fun q estPere => Option.some.inj (estPere.symm.trans pere)
  have dessous₀ := net₀.dessous dessous
  have pere₀ : (k₀.table c).pere = none := by rw [defk₀, Noyau.modifie_table_self]
  have zombie₀ : (k₀.table c).etat = .zombie := by rw [defk₀, Noyau.modifie_table_self, zombie]
  have sansPere : ∀ q, (k₀.table c).pere ≠ some q := fun q estPere => by
    rw [pere₀] at estPere
    cases estPere
  obtain ⟨k', net, filsC, orphelins, appel⟩ := detruireZombie boucle (dessous₀.plus_bas loin)
    (dessous₀.enfants c loin (by rw [zombie₀]; exact EtatProcessus.noConfusion)) zombie₀
    (fun q estPere => absurd estPere (sansPere q)) assez
  have net₁ : Nettoie r p k₀ (fermer k' c) := net.fermeture zombie₀ loin
    (fun q estPere => absurd estPere (sansPere q)) filsC orphelins
  have pere₁ : ((fermer k' c).table c).pere = none := by
    cases estPere : ((fermer k' c).table c).pere with
    | none => rfl
    | some q => exact absurd (net₁.pere_some estPere) (sansPere q)
  refine ⟨fermer k' c, appel, net₀.trans net₁, ?_, pere₁, by rw [fermer_etat, if_pos rfl],
    fun j ne estPere => ?_⟩
  · rw [fermer_pere] at pere₁
    simp only [fermer, if_neg autre, pere₁, reduceCtorEq, if_false]
    rw [net.fils p autre, defk₀, Noyau.modifie_table_ne _ _ autre]
  · have table₀ : k₀.table j = k.table j := Noyau.modifie_table_ne _ _ ne
    have frere := net.frere loin (j := j) (by rw [table₀, estPere]) ne
    rwa [table₀] at frere

theorem corpsFils_zombie {r : Indice → Nat} {n : Nat} (boucle : ∀ m ≤ n + 1, BoucleMort r m) {k : Noyau}
    {p c : Indice} {avant reste : List Indice} (dessous : Dessous r p k)
    (fils : (k.table p).fils = avant ++ c :: reste) (nodup : (k.table p).fils.Nodup)
    (propres : ∀ j ∈ reste, (k.table j).pere = some p ∧ (k.table j).etat ≠ .mort)
    (pere : (k.table c).pere = some p) (autre : p ≠ c) (zombie : (k.table c).etat = .zombie)
    (assezC : 46 + 50 * hauteur r c ≤ n) (assez : 3 * reste.length + 50 * hauteur r p ≤ n) :
    ∃ k', corpsFils (n + 3) true k p c = .ok (reste, k') ∧ Nettoie r p k k' ∧
      (k'.table p).fils = (k.table p).fils ∧ (k'.table c).pere = none ∧ (k'.table c).etat = .mort ∧
      ∀ j ∈ reste, (k'.table j).pere = none ∧
        ((k.table j).etat = .zombie → (k'.table j).etat = .mort) := by
  obtain ⟨k₁, appel, net₁, fils₁, pere₁, mort₁, garde⟩ :=
    detruireOrphelin (boucle n (by omega)) dessous pere zombie assezC
  have absent : c ∉ reste := by
    rw [fils] at nodup
    exact (List.nodup_cons.mp (List.nodup_append.mp nodup).2.1).1
  have corps : corpsFils (n + 3) true k p c =
      if reste = [] then .ok ([], k₁) else corpsFils (n + 2) true k₁ p c := by
    have fils₀ : ((k.modifie c fun f => { f with pere := none }).table p).fils = avant ++ c :: reste := by
      rw [Noyau.modifie_table_ne _ _ autre, fils]
    have nodup₀ : ((k.modifie c fun f => { f with pere := none }).table p).fils.Nodup := by
      rwa [fils₀, ← fils]
    rw [corpsFils]
    cases reste <;>
      simp only [if_true, if_false, Noyau.modifie_table_self, zombie, suivantFils_ok fils₀ nodup₀, bind,
        Except.bind, appel, List.head?_nil, List.head?_cons, reduceCtorEq]
  cases reste with
  | nil =>
      refine ⟨k₁, ?_, net₁, fils₁, pere₁, mort₁, fun j mem => absurd mem List.not_mem_nil⟩
      rw [corps, if_pos rfl]
  | cons d reste' =>
      have frere : ∀ j ∈ d :: reste', (k₁.table j).pere = some p ∧
          (k₁.table j).etat = (k.table j).etat := by
        intro j mem
        refine garde j ?_ (propres j mem).1
        rintro rfl
        exact absent mem
      obtain ⟨k₂, run, net₂, fils₂, pere₂, visites⟩ := corpsFils_suite (boucle (n + 1) le_rfl)
        (net₁.dessous dessous) (fils₁.trans fils) (fils₁ ▸ nodup)
        (fun j mem => ⟨(frere j mem).1, by
          rw [(frere j mem).2]
          exact (propres j mem).2⟩)
        (fun q estPere => by rw [pere₁] at estPere; cases estPere) autre
        (by rw [mort₁]; exact EtatProcessus.noConfusion) (by omega)
      refine ⟨k₂, ?_, net₁.trans net₂, fils₂.trans fils₁, pere₂, net₂.mort mort₁, fun j mem => ?_⟩
      · rw [corps, if_neg (List.cons_ne_nil d reste'), run]
      · rw [← (frere j mem).2]
        exact visites j mem

theorem boucleMort (r : Indice → Nat) (n : Nat) : BoucleMort r n := by
  induction n using Nat.strong_induction_on with
  | _ n ih =>
    intro k p avant l dessous fils nodup propres assez
    cases l with
    | nil =>
        obtain ⟨n, rfl⟩ : ∃ m, n = m + 1 := ⟨n - 1, by omega⟩
        exact ⟨k, by simp [boucleFils], .refl r p k, rfl, by simp⟩
    | cons c reste =>
        simp only [List.length_cons] at assez
        obtain ⟨n, rfl⟩ : ∃ m, n = m + 3 := ⟨n - 3, by omega⟩
        obtain ⟨pereC, vivantC⟩ := propres c (List.mem_cons_self ..)
        have loin : r p < r c := dessous.rang c p vivantC pereC
        have autre : p ≠ c := by
          rintro rfl
          exact lt_irrefl _ loin
        have propresReste := fun j mem => propres j (List.mem_cons_of_mem c mem)
        -- the child itself is visited by the body, the others by the loop that follows
        suffices corps : ∃ k', corpsFils (n + 2) true k p c = .ok (reste, k') ∧ Nettoie r p k k' ∧
            (k'.table p).fils = (k.table p).fils ∧ ((k'.table c).pere = none ∧
              ((k.table c).etat = .zombie → (k'.table c).etat = .mort)) ∧
            ∀ j ∈ reste, (k'.table j).pere = none ∧
              ((k.table j).etat = .zombie → (k'.table j).etat = .mort) by
          obtain ⟨k', run, net, fils', soi, visites⟩ := corps
          refine ⟨k', ?_, net, fils', fun j mem => ?_⟩
          · rw [List.head?_cons, boucleFils, run]
            rfl
          · rcases List.mem_cons.mp mem with rfl | mem
            · exact soi
            · exact visites j mem
        by_cases zombie : (k.table c).etat = .zombie
        · have plusBas := hauteur_lt loin
          obtain ⟨n, rfl⟩ : ∃ m, n = m + 1 := ⟨n - 1, by omega⟩
          obtain ⟨k', run, net, fils', pere', mort', visites⟩ := corpsFils_zombie (n := n)
            (fun m plusPetit => ih m (by omega)) dessous fils nodup propresReste pereC autre zombie
            (by omega) (by omega)
          exact ⟨k', run, net, fils', ⟨pere', fun _ => mort'⟩, visites⟩
        · obtain ⟨k', run, net, fils', pere', visites⟩ := corpsFils_suite (ih (n + 1) (by omega))
            dessous fils nodup propresReste
            (fun q estPere => Option.some.inj (estPere.symm.trans pereC)) autre zombie (by omega)
          exact ⟨k', run, net, fils', ⟨pere', fun estZombie => absurd estZombie zombie⟩, visites⟩

end ProjetSysteme.Invariant
