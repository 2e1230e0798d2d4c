/- Invariant/Termination
   digest: Effect of the end of a process on the table: the cases MORT and ZOMBIE. -/

import ProjetSysteme.Invariant.Destruction

set_option autoImplicit false
set_option relaxedAutoImplicit false

namespace ProjetSysteme.Invariant

open Kernel Library.PriorityList

/-- No ZOMBIE child of the list is followed by another child. -/
def DernierSeul (k : Noyau) (l : List Indice) : Prop :=
  ∀ j ∈ l.dropLast, (k.table j).etat ≠ .zombie

instance (k : Noyau) (l : List Indice) : Decidable (DernierSeul k l) :=
  inferInstanceAs (Decidable (∀ j ∈ l.dropLast, _))

theorem DernierSeul.of_cons {k : Noyau} {c d : Indice} {l : List Indice}
    (seul : DernierSeul k (c :: d :: l)) :
    (k.table c).etat ≠ .zombie ∧ DernierSeul k (d :: l) := by
  rw [DernierSeul, List.dropLast_cons_of_ne_nil (List.cons_ne_nil d l)] at seul
  exact ⟨seul c (List.mem_cons_self ..), fun j mem => seul j (List.mem_cons_of_mem c mem)⟩

/-- The recursive call on the zombie child `c` of `p` in the case ZOMBIE removes
`c` from the list that the loop of `p` runs through. -/
theorem detruireFils {r : Indice → Nat} {n : Nat} {k : Noyau} {p c : Indice}
    {avant reste : List Indice} (dessous : Dessous r p k) (vivant : (k.table p).etat ≠ .mort)
    (fils : (k.table p).fils = avant ++ c :: reste) (nodup : (k.table p).fils.Nodup)
    (pere : (k.table c).pere = some p) (zombie : (k.table c).etat = .zombie)
    (assez : 48 + 50 * hauteur r c ≤ n) :
    ∃ k', definirEtatProcessus n k c .mort = .ok k' ∧ Nettoie r p k k' ∧
      (k'.table c).etat = .mort ∧ (k'.table p).fils = avant ++ reste ∧
      ∀ j, (k.table j).pere = some p → (k'.table j).pere = some p := by
  have vivantC : (k.table c).etat ≠ .mort := by rw [zombie]; exact EtatProcessus.noConfusion
  have loin : r p < r c := dessous.rang c p vivantC pere
  have autre : p ≠ c := by
    rintro rfl
    exact lt_irrefl _ loin
  have retire : PereRetire k c := by
    intro q estPere
    rw [pere] at estPere
    rw [← Option.some.inj estPere]
    exact ⟨autre, vivant, by rw [fils]; simp⟩
  obtain ⟨n, rfl⟩ : ∃ m, n = m + 2 := ⟨n - 2, by omega⟩
  obtain ⟨k₁, net, filsC, orphelins, appel⟩ := detruireZombie (boucleMort r n)
    (dessous.plus_bas loin) (dessous.enfants c loin vivantC) zombie retire (by omega)
  have garde : ∀ j, (k.table j).pere = some p → (k₁.table j).pere = some p := by
    intro j pereJ
    exact net.pere_garde pereJ autre fun detruit => (net.detruit p detruit).2.1.asymm loin
  refine ⟨fermer k₁ c, appel, ?_, ?_, ?_, fun j pereJ => by rw [fermer_pere]; exact garde j pereJ⟩
  · refine net.fermeture zombie loin (fun q estPere => ?_) filsC orphelins
    rw [pere] at estPere
    exact (Option.some.inj estPere).symm
  · rw [fermer_etat, if_pos rfl]
  · rw [fermer]
    simp only [if_neg autre, garde c pere, if_true]
    rw [net.fils p autre, fils, List.erase_append_right, List.erase_cons_head]
    rw [fils] at nodup
    exact fun mem => (List.nodup_append.mp nodup).2.2 c mem c (List.mem_cons_self ..) rfl

theorem DernierSeul.cons_iff {k : Noyau} {c : Indice} (vif : (k.table c).etat ≠ .zombie)
    (reste : List Indice) : DernierSeul k (c :: reste) ↔ DernierSeul k reste := by
  cases reste with
  | nil => simp [DernierSeul]
  | cons d reste' =>
      refine ⟨fun seul => seul.of_cons.2, fun seul j mem => ?_⟩
      rw [List.dropLast_cons_of_ne_nil (List.cons_ne_nil d reste')] at mem
      rcases List.mem_cons.mp mem with rfl | mem
      · exact vif
      · exact seul j mem

theorem boucleZombie {r : Indice → Nat} {k : Noyau} {p : Indice} (dessous : Dessous r p k)
    (vivant : (k.table p).etat ≠ .mort) (nodup : (k.table p).fils.Nodup) (l : List Indice) :
    ∀ (n : Nat) (avant : List Indice), (k.table p).fils = avant ++ l →
    (∀ j ∈ l, (k.table j).pere = some p ∧ (k.table j).etat ≠ .mort) →
    3 * l.length + 1 + 50 * hauteur r p ≤ n →
    (DernierSeul k l → ∃ k', boucleFils n false k p l.head? = .ok (l, k') ∧ Nettoie r p k k' ∧
      (k'.table p).fils = avant ++ l.filter (fun j => (k.table j).etat ≠ .zombie) ∧
      (∀ j ∈ l, (k.table j).etat = .zombie → (k'.table j).etat = .mort) ∧
      ∀ j, (k.table j).pere = some p → (k'.table j).pere = some p) ∧
    (¬ DernierSeul k l → boucleFils n false k p l.head? = .error (.faute .maillonNul)) := by
  induction l with
  | nil =>
      intro n avant fils propres assez
      obtain ⟨n, rfl⟩ : ∃ m, n = m + 1 := ⟨n - 1, by omega⟩
      refine ⟨fun _ => ⟨k, by simp [boucleFils], .refl r p k, by simp [fils], by simp, fun _ => id⟩, ?_⟩
      intro plusieurs
      exact absurd (by simp [DernierSeul]) plusieurs
  | cons c reste ih =>
      intro n avant fils propres assez
      simp only [List.length_cons] at assez
      obtain ⟨n, rfl⟩ : ∃ m, n = m + 2 := ⟨n - 2, by omega⟩
      obtain ⟨pereC, vivantC⟩ := propres c (List.mem_cons_self ..)
      have suivant := suivantFils_ok fils nodup
      rw [List.head?_cons, boucleFils]
      by_cases zombie : (k.table c).etat = .zombie
      · have plusBas := hauteur_lt (dessous.rang c p vivantC pereC)
        obtain ⟨k', appel, net, mort, fils', garde⟩ := detruireFils (n := n) dessous vivant fils nodup
          pereC zombie (by omega)
        cases reste with
        | nil =>
            refine ⟨fun _ => ⟨k', ?_, net, ?_, ?_, garde⟩, ?_⟩
            · rw [corpsFils]
              simp only [Bool.false_eq_true, if_false, zombie, if_true, suivant, bind, Except.bind,
                appel, List.head?_nil]
            · simp [fils', zombie]
            · intro j mem _
              rw [List.mem_singleton.mp mem, mort]
            · intro plusieurs
              exact absurd (by simp [DernierSeul]) plusieurs
        | cons d reste' =>
            refine ⟨fun seul => absurd zombie seul.of_cons.1, fun _ => ?_⟩
            have absent : c ∉ (k'.table p).fils := by
              rw [fils] at nodup
              rw [fils']
              exact (List.nodup_cons.mp (List.nodup_middle.mp nodup)).1
            obtain ⟨n, rfl⟩ : ∃ m, n = m + 1 := ⟨n - 1, by omega⟩
            rw [corpsFils]
            simp only [Bool.false_eq_true, if_false, zombie, if_true, suivant, bind, Except.bind,
              appel, List.head?_cons]
            rw [corpsFils]
            simp [mort, suivantFils_absent absent, bind, Except.bind]
      · have corps : corpsFils (n + 1) false k p c = boucleFils n false k p reste.head? := by
          rw [corpsFils]
          simp [zombie, suivant, bind, Except.bind]
        obtain ⟨bon, mauvais⟩ := ih n (avant ++ [c]) (by rw [fils]; simp)
          (fun j mem => propres j (List.mem_cons_of_mem c mem)) (by omega)
        rw [DernierSeul.cons_iff zombie, corps]
        refine ⟨fun seul => ?_, fun plusieurs => by rw [mauvais plusieurs]; rfl⟩
        obtain ⟨k', run, net, fils', visites, garde⟩ := bon seul
        refine ⟨k', by rw [run]; rfl, net, by simp [fils', zombie], fun j mem z => ?_, garde⟩
        rcases List.mem_cons.mp mem with rfl | mem
        · exact absurd z zombie
        · exact visites j mem z

def Disparu (k k' : Noyau) (j : Indice) : Prop :=
  (k.table j).etat ≠ .mort ∧ (k'.table j).etat = .mort

structure Termine (z : Indice) (e : EtatProcessus) (k k' : Noyau) : Prop where
  noyau : k' = { k with
    table := k'.table, activables := k.activables.erase z, endormis := k.endormis.erase z }
  donnees : ∀ j, MemesDonnees (k.table j) (k'.table j)
  etat_soi : (k'.table z).etat = e
  pid_soi : (k'.table z).pid = if e = .mort then none else (k.table z).pid
  autres : ∀ j, j ≠ z →
    ((k'.table j).pid = (k.table j).pid ∧ (k'.table j).etat = (k.table j).etat) ∨
    ((k'.table j).pid = none ∧ Detruit k k' j)
  pere : ∀ j, (k'.table j).pere = (k.table j).pere ∨
    ((k'.table j).pere = none ∧ ∀ q, (k.table j).pere = some q → Disparu k k' q)
  sous : ∀ j, j ≠ z → Detruit k k' j → ∀ q, (k.table j).pere = some q → q = z ∨ Disparu k k' q
  complet : ∀ q j, Disparu k k' q → (k.table j).etat ≠ .mort → (k.table j).pere = some q →
    (k'.table j).pere = none
  fils : ∀ q, (k'.table q).etat ≠ .mort → ∀ j,
    j ∈ (k'.table q).fils ↔ j ∈ (k.table q).fils ∧ (k'.table j).etat ≠ .mort
  fils_sub : ∀ q, (k'.table q).fils.Sublist (k.table q).fils
  zombies : ∀ j, (k.table j).pere = some z → (k.table j).etat = .zombie →
    (k'.table j).etat = .mort

namespace Termine

variable {z : Indice} {e : EtatProcessus} {k k' : Noyau}

theorem etat (fin : Termine z e k k') {j : Indice} (autre : j ≠ z) :
    (k'.table j).etat = (k.table j).etat ∨ Detruit k k' j :=
  (fin.autres j autre).imp And.right And.right

theorem prio (fin : Termine z e k k') (j : Indice) : (k'.table j).prio = (k.table j).prio := by
  rw [fin.donnees j]

theorem activables (fin : Termine z e k k') : k'.activables = k.activables.erase z := by
  rw [fin.noyau]

theorem endormis (fin : Termine z e k k') : k'.endormis = k.endormis.erase z := by
  rw [fin.noyau]

theorem pidActif (fin : Termine z e k k') : k'.pidActif = k.pidActif := by
  rw [fin.noyau]

theorem pere_some (fin : Termine z e k k') {j q : Indice} (pere : (k'.table j).pere = some q) :
    (k.table j).pere = some q := by
  rcases fin.pere j with meme | ⟨perdu, _⟩
  · rw [← meme, pere]
  · rw [perdu] at pere
    cases pere

theorem etat_iff (fin : Termine z e k k') {s : EtatProcessus} (nonMort : s ≠ .mort)
    (nonZombie : s ≠ .zombie) {j : Indice} (autre : j ≠ z) :
    (k'.table j).etat = s ↔ (k.table j).etat = s := by
  rcases fin.etat autre with meme | ⟨zombie, mort⟩
  · rw [meme]
  · rw [zombie, mort]
    exact ⟨fun h => absurd h.symm nonMort, fun h => absurd h.symm nonZombie⟩

theorem etat_erase (fin : Termine z e k k') (sorte : e = .mort ∨ e = .zombie) {s : EtatProcessus}
    (nonMort : s ≠ .mort) (nonZombie : s ≠ .zombie) (j : Indice) :
    j ≠ z ∧ (k.table j).etat = s ↔ (k'.table j).etat = s := by
  by_cases meme : j = z
  · subst meme
    rw [fin.etat_soi]
    refine ⟨fun quitte => absurd rfl quitte.1, fun etat => ?_⟩
    rcases sorte with rfl | rfl
    · exact absurd etat.symm nonMort
    · exact absurd etat.symm nonZombie
  · rw [fin.etat_iff nonMort nonZombie meme]
    exact and_iff_right meme

theorem vivant (fin : Termine z e k k') (vivantZ : (k.table z).etat ≠ .mort) {j : Indice}
    (vivantJ : (k'.table j).etat ≠ .mort) : (k.table j).etat ≠ .mort := by
  by_cases meme : j = z
  · exact meme ▸ vivantZ
  · rcases fin.etat meme with meme | ⟨zombie, _⟩
    · exact meme ▸ vivantJ
    · rw [zombie]
      exact EtatProcessus.noConfusion

theorem coherent (fin : Termine z e k k') (coherent : Coherent k)
    (vivantZ : (k.table z).etat ≠ .mort) (sorte : e = .mort ∨ e = .zombie) : Coherent k' where
  pid_indice i := by
    by_cases meme : i = z
    · subst meme
      rw [fin.pid_soi]
      split
      · exact .inr rfl
      · exact coherent.pid_indice i
    · rcases fin.autres i meme with ⟨pid, _⟩ | ⟨pid, _⟩
      · rw [pid]
        exact coherent.pid_indice i
      · exact .inr pid
  pid_mort i := by
    by_cases meme : i = z
    · subst meme
      rw [fin.pid_soi, fin.etat_soi]
      split
      · next mort => simp [mort]
      · next nonMort => rw [coherent.pid_mort]; simp [vivantZ, nonMort]
    · rcases fin.autres i meme with ⟨pid, etat⟩ | ⟨pid, detruit⟩
      · rw [pid, etat]
        exact coherent.pid_mort i
      · simp [pid, detruit.2]
  activables_mem i := by
    rw [fin.activables, coherent.activables_nodup.mem_erase_iff, coherent.activables_mem]
    exact fin.etat_erase sorte (by simp) (by simp) i
  activables_nodup := by
    rw [fin.activables]
    exact coherent.activables_nodup.erase z
  activables_tries := by
    rw [fin.activables]
    exact (coherent.activables_tries.sublist _ List.erase_sublist).congr _
      fun i _ => (fin.prio i).symm
  endormis_mem i := by
    rw [fin.endormis, coherent.endormis_nodup.mem_erase_iff, coherent.endormis_mem]
    exact fin.etat_erase sorte (by simp) (by simp) i
  endormis_nodup := by
    rw [fin.endormis]
    exact coherent.endormis_nodup.erase z
  actif_seul i actif := by
    rw [fin.pidActif]
    exact coherent.actif_seul i ((fin.etat_erase sorte (by simp) (by simp) i).mpr actif).2

theorem famille (fin : Termine z e k k') (famille : Famille k)
    (vivantZ : (k.table z).etat ≠ .mort) : Famille k' where
  enfants p vivantP := by
    have enfants := famille.enfants p (fin.vivant vivantZ vivantP)
    refine ⟨fun j => ?_, enfants.nodup.sublist (fin.fils_sub p)⟩
    rw [fin.fils p vivantP, enfants.mem]
    constructor
    · rintro ⟨⟨pere, _⟩, vivantJ⟩
      refine ⟨?_, vivantJ⟩
      rcases fin.pere j with meme | ⟨_, disparu⟩
      · rw [meme, pere]
      · exact absurd (disparu p pere).2 vivantP
    · rintro ⟨pere, vivantJ⟩
      exact ⟨⟨fin.pere_some pere, fin.vivant vivantZ vivantJ⟩, vivantJ⟩
  pere_vivant j q vivantJ pere mort := by
    have pere₀ := fin.pere_some pere
    have vivantJ₀ := fin.vivant vivantZ vivantJ
    rw [fin.complet q j ⟨famille.pere_vivant j q vivantJ₀ pere₀, mort⟩ vivantJ₀ pere₀] at pere
    cases pere
  rang := by
    obtain ⟨r, croissant⟩ := famille.rang
    exact ⟨r, fun j q vivantJ pere => croissant j q (fin.vivant vivantZ vivantJ) (fin.pere_some pere)⟩

theorem valide (fin : Termine z e k k') (valide : Valide k) (vivantZ : (k.table z).etat ≠ .mort)
    (sorte : e = .mort ∨ e = .zombie) : Valide k' :=
  ⟨fin.coherent valide.coherent vivantZ sorte, fin.famille valide.famille vivantZ⟩

end Termine

def quitter (k : Noyau) (z : Indice) : Noyau :=
  { k with activables := k.activables.erase z, endormis := k.endormis.erase z }

theorem Valide.pereRetire {k : Noyau} (valide : Valide k) {z : Indice}
    (vivant : (k.table z).etat ≠ .mort) : PereRetire k z := by
  intro q pere
  have vivantQ := valide.famille.pere_vivant z q vivant pere
  refine ⟨?_, vivantQ, ((valide.famille.enfants q vivantQ).mem z).mpr ⟨pere, vivant⟩⟩
  rintro rfl
  obtain ⟨r, croissant⟩ := valide.famille.rang
  exact lt_irrefl _ (croissant q q vivant pere)

section Fermer

variable {r : Indice → Nat} {z : Indice} {k k₁ : Noyau} (vivant : (k.table z).etat ≠ .mort)
  (net : Nettoie r z (quitter k z) k₁)

include vivant in
theorem disparu_fermer {q : Indice} (fini : q = z ∨ Detruit k k₁ q) : Disparu k (fermer k₁ z) q := by
  rcases fini with rfl | detruit
  · exact ⟨vivant, by rw [fermer_etat, if_pos rfl]⟩
  · refine ⟨by rw [detruit.1]; exact EtatProcessus.noConfusion, ?_⟩
    rw [fermer_etat]
    split
    · rfl
    · exact detruit.2

include vivant in
theorem reste_fermer {q : Indice} (vivantQ : ((fermer k₁ z).table q).etat ≠ .mort) :
    q ≠ z ∧ ¬ Detruit k k₁ q :=
  ⟨fun meme => vivantQ (disparu_fermer vivant (.inl meme)).2,
    fun detruit => vivantQ (disparu_fermer vivant (.inr detruit)).2⟩

include net in
theorem fils_fermer {q : Indice} (enfants : Enfants k q) (autre : q ≠ z) (reste : ¬ Detruit k k₁ q)
    (j : Indice) : j ∈ ((fermer k₁ z).table q).fils ↔
      j ∈ (k.table q).fils ∧ ((fermer k₁ z).table j).etat ≠ .mort := by
  have fils : ((fermer k₁ z).table q).fils =
      if (k₁.table z).pere = some q then (k.table q).fils.erase z else (k.table q).fils := by
    have filsQ : (k₁.table q).fils = (k.table q).fils := net.fils q autre
    simp only [fermer, if_neg autre]
    split <;> simp [filsQ]
  have absent : z ∉ ((fermer k₁ z).table q).fils := by
    rw [fils]
    split
    · exact enfants.nodup.not_mem_erase
    · next nonPere =>
        intro mem
        exact nonPere (net.pere_garde ((enfants.mem z).mp mem).1 autre reste)
  have autres : ∀ j, j ≠ z → (j ∈ ((fermer k₁ z).table q).fils ↔ j ∈ (k.table q).fils) := by
    intro j ne
    rw [fils]
    split
    · exact List.mem_erase_of_ne ne
    · rfl
  by_cases meme : j = z
  · subst meme
    simp [absent, fermer_etat]
  · rw [autres j meme, fermer_etat, if_neg meme]
    refine ⟨fun mem => ⟨mem, fun mort => ?_⟩, And.left⟩
    rcases net.etat j with garde | detruit
    · exact ((enfants.mem j).mp mem).2 (garde.symm.trans mort)
    · exact ((net.detruit j detruit).1 q ((enfants.mem j).mp mem).1).elim autre reste

theorem Termine.of_fermer (valide : Valide k) (vivant : (k.table z).etat ≠ .mort)
    (net : Nettoie r z (quitter k z) k₁) (filsZ : (k₁.table z).fils = (k.table z).fils)
    (orphelins : ∀ j, (k.table j).pere = some z → (k.table j).etat ≠ .mort →
      (k₁.table j).pere = none ∧ ((k.table j).etat = .zombie → (k₁.table j).etat = .mort)) :
    Termine z .mort k (fermer k₁ z) where
  noyau := by rw [fermer, net.noyau, quitter]
  donnees j := by
    refine MemesDonnees.trans (net.donnees j) ?_
    simp only [fermer]
    split_ifs <;> rfl
  etat_soi := by rw [fermer_etat, if_pos rfl]
  pid_soi := by simp [fermer]
  autres j autre := by
    have pid : ((fermer k₁ z).table j).pid = (k₁.table j).pid := by
      simp only [fermer, if_neg autre]
      split <;> rfl
    rw [pid, fermer_etat, if_neg autre]
    refine (net.sort j).imp_right fun sort => ⟨sort.1, sort.2.1, ?_⟩
    rw [fermer_etat, if_neg autre]
    exact sort.2.2
  pere j := by
    rw [fermer_pere]
    exact (net.pere j).imp_right fun perdu =>
      ⟨perdu.1, fun q pere => disparu_fermer vivant (perdu.2 q pere)⟩
  sous j autre detruit q pere := by
    have mort := detruit.2
    rw [fermer_etat, if_neg autre] at mort
    exact .inr (disparu_fermer vivant ((net.detruit j ⟨detruit.1, mort⟩).1 q pere))
  complet q j disparu vivantJ pere := by
    rw [fermer_pere]
    by_cases meme : q = z
    · exact (orphelins j (meme ▸ pere) vivantJ).1
    · have mort := disparu.2
      rw [fermer_etat, if_neg meme] at mort
      rcases net.etat q with garde | detruit
      · exact absurd (garde.symm.trans mort) disparu.1
      · exact net.complet q j detruit vivantJ pere
  fils q vivantQ j := by
    obtain ⟨autre, reste⟩ := reste_fermer vivant vivantQ
    rw [fermer_etat, if_neg autre] at vivantQ
    exact fils_fermer net (valide.famille.enfants q (net.vivant vivantQ).1) autre reste j
  fils_sub q := by
    have filsQ : (k₁.table q).fils = (k.table q).fils := by
      by_cases meme : q = z
      · exact meme ▸ filsZ
      · exact net.fils q meme
    simp only [fermer]
    split_ifs
    · rw [filsQ]
    · rw [filsQ]
      exact List.erase_sublist
    · rw [filsQ]
  zombies j pere zombie := by
    rw [fermer_etat]
    split
    · rfl
    · exact (orphelins j pere (by rw [zombie]; exact EtatProcessus.noConfusion)).2 zombie

end Fermer

section Zombie

variable {r : Indice → Nat} {z : Indice} {k k₁ : Noyau} (net : Nettoie r z (quitter k z) k₁)

def enZombie (k : Noyau) (z : Indice) : Noyau := k.modifie z fun p => { p with etat := .zombie }

theorem enZombie_soi (k : Noyau) (z : Indice) :
    (enZombie k z).table z = { k.table z with etat := .zombie } := k.modifie_table_self z _

theorem enZombie_autre {j : Indice} (autre : j ≠ z) : (enZombie k z).table j = k.table j :=
  k.modifie_table_ne _ autre

theorem enZombie_pere (k : Noyau) (z j : Indice) :
    ((enZombie k z).table j).pere = (k.table j).pere := by
  rw [enZombie, Noyau.modifie_table]
  split <;> rfl

theorem enZombie_fils (k : Noyau) (z j : Indice) :
    ((enZombie k z).table j).fils = (k.table j).fils := by
  rw [enZombie, Noyau.modifie_table]
  split <;> rfl

include net

theorem detruit_ne {q : Indice} (detruit : Detruit k k₁ q) : q ≠ z := by
  rintro rfl
  exact lt_irrefl _ (net.detruit q detruit).2.1

theorem disparu_enZombie (q : Indice) : Disparu k (enZombie k₁ z) q ↔ Detruit k k₁ q := by
  constructor
  · intro disparu
    have autre : q ≠ z := by
      rintro rfl
      rw [Disparu, enZombie_soi] at disparu
      exact absurd disparu.2 EtatProcessus.noConfusion
    have mort := disparu.2
    rw [enZombie_autre autre] at mort
    exact (net.etat q).resolve_left fun garde => disparu.1 (garde.symm.trans mort)
  · intro detruit
    refine ⟨by rw [detruit.1]; exact EtatProcessus.noConfusion, ?_⟩
    rw [enZombie_autre (detruit_ne net detruit)]
    exact detruit.2

theorem fils_enZombie {q : Indice} (enfants : Enfants k q)
    (vivantQ : ((enZombie k₁ z).table q).etat ≠ .mort)
    (filsZ : (k₁.table z).fils = (k.table z).fils.filter fun j => (k.table j).etat ≠ .zombie)
    (zombies : ∀ j, (k.table j).pere = some z → (k.table j).etat = .zombie →
      (k₁.table j).etat = .mort) (j : Indice) :
    j ∈ (k₁.table q).fils ↔ j ∈ (k.table q).fils ∧ ((enZombie k₁ z).table j).etat ≠ .mort := by
  have disparu : ∀ q, Disparu k (enZombie k₁ z) q ↔ Detruit k k₁ q := disparu_enZombie net
  by_cases meme : q = z
  · subst meme
    rw [filsZ, List.mem_filter, decide_eq_true_eq]
    refine and_congr_right fun mem => ?_
    obtain ⟨pere, vivantJ⟩ := (enfants.mem j).mp mem
    constructor
    · intro nonZombie mort
      exact nonZombie ((disparu j).mp ⟨vivantJ, mort⟩).1
    · intro vivantJ' zombie
      exact vivantJ' ((disparu j).mpr ⟨zombie, zombies j pere zombie⟩).2
  · rw [net.fils q meme]
    refine ⟨fun mem => ⟨mem, fun mort => ?_⟩, And.left⟩
    obtain ⟨pere, vivantJ⟩ := (enfants.mem j).mp mem
    rcases (net.detruit j ((disparu j).mp ⟨vivantJ, mort⟩)).1 q pere with estZ | detruit
    · exact meme estZ
    · exact vivantQ ((disparu q).mpr detruit).2

omit net

theorem Termine.of_zombie (valide : Valide k) (vivant : (k.table z).etat ≠ .mort)
    (net : Nettoie r z (quitter k z) k₁)
    (filsZ : (k₁.table z).fils = (k.table z).fils.filter fun j => (k.table j).etat ≠ .zombie)
    (zombies : ∀ j, (k.table j).pere = some z → (k.table j).etat = .zombie →
      (k₁.table j).etat = .mort)
    (garde : ∀ j, (k.table j).pere = some z → (k₁.table j).pere = some z) :
    Termine z .zombie k (enZombie k₁ z) where
  noyau := by rw [enZombie, Noyau.modifie, net.noyau, quitter]
  donnees j := by
    refine MemesDonnees.trans (net.donnees j) ?_
    rw [enZombie, Noyau.modifie_table]
    split <;> rfl
  etat_soi := by rw [enZombie_soi]
  pid_soi := by
    rw [enZombie_soi]
    rcases net.sort z with ⟨pid, -⟩ | ⟨-, detruit⟩
    · exact pid
    · exact absurd rfl (detruit_ne net detruit)
  autres j autre := by
    rw [enZombie_autre autre]
    refine (net.sort j).imp_right fun sort => ⟨sort.1, sort.2.1, ?_⟩
    rw [enZombie_autre autre]
    exact sort.2.2
  pere j := by
    rw [enZombie_pere]
    refine (net.pere j).imp_right fun perdu => ⟨perdu.1, fun q pere => ?_⟩
    rcases perdu.2 q pere with rfl | detruit
    · cases (garde j pere).symm.trans perdu.1
    · exact (disparu_enZombie net q).mpr detruit
  sous j autre detruit q pere := by
    have mort := detruit.2
    rw [enZombie_autre autre] at mort
    exact ((net.detruit j ⟨detruit.1, mort⟩).1 q pere).imp id (disparu_enZombie net q).mpr
  complet q j disparu vivantJ pere := by
    rw [enZombie_pere]
    exact net.complet q j ((disparu_enZombie net q).mp disparu) vivantJ pere
  fils q vivantQ j := by
    have vivantQ₀ : (k.table q).etat ≠ .mort := by
      by_cases meme : q = z
      · exact meme ▸ vivant
      · rw [enZombie_autre meme] at vivantQ
        exact (net.vivant vivantQ).1
    rw [enZombie_fils]
    exact fils_enZombie net (valide.famille.enfants q vivantQ₀) vivantQ filsZ zombies j
  fils_sub q := by
    rw [enZombie_fils]
    by_cases meme : q = z
    · subst meme
      rw [filsZ]
      exact List.filter_sublist
    · rw [net.fils q meme]
      exact List.Sublist.refl _
  zombies j pere zombie :=
    ((disparu_enZombie net j).mpr ⟨zombie, zombies j pere zombie⟩).2

end Zombie

theorem Valide.dessous {k : Noyau} (valide : Valide k) :
    ∃ r, ∀ z, Dessous r z (quitter k z) := by
  obtain ⟨r, croissant⟩ := valide.famille.rang
  refine ⟨r, fun z => ⟨valide.coherent.pid_mort, croissant, fun q _ vivantQ => ?_,
    fun j q _ => valide.famille.pere_vivant j q⟩⟩
  have enfants := valide.famille.enfants q vivantQ
  exact ⟨enfants.mem, enfants.nodup⟩

theorem definirEtat_mort {k : Noyau} (valide : Valide k) {z : Indice}
    (vivant : (k.table z).etat ≠ .mort) :
    ∃ k₁ k', boucleFils 998 true (quitter k z) z (k.table z).fils.head? =
        .ok ((k.table z).fils, k₁) ∧
      definirEtat k z .mort = .ok k' ∧ Termine z .mort k k' := by
  obtain ⟨r, dessous⟩ := valide.dessous
  have enfants := valide.famille.enfants z vivant
  have assez := hauteur_le r z
  obtain ⟨k₁, run, net, filsZ, orphelins, cas⟩ := casEtat_mort (boucleMort r 998) (dessous z)
    ⟨enfants.mem, enfants.nodup⟩ vivant (valide.pereRetire vivant)
    (by simp only [nbProc] at assez; omega)
  refine ⟨k₁, fermer k₁ z, run, ?_, .of_fermer valide vivant net filsZ orphelins⟩
  rw [definirEtat_cas valide.coherent.toRangement (by simp) vivant vivant]
  exact cas

/-- `definir_etat_processus(z, ZOMBIE)` succeeds exactly when no zombie child of
`z` is followed by another child, and then visits every child. -/
theorem definirEtat_zombie {k : Noyau} (valide : Valide k) {z : Indice}
    (vivant : (k.table z).etat ≠ .mort) (nonZombie : (k.table z).etat ≠ .zombie) :
    (DernierSeul k (k.table z).fils →
      ∃ k₁ k', boucleFils 998 false (quitter k z) z (k.table z).fils.head? =
          .ok ((k.table z).fils, k₁) ∧
        definirEtat k z .zombie = .ok k' ∧ Termine z .zombie k k') ∧
    (¬ DernierSeul k (k.table z).fils →
      definirEtat k z .zombie = .error (.faute .maillonNul)) := by
  obtain ⟨r, dessous⟩ := valide.dessous
  have enfants := valide.famille.enfants z vivant
  have assez := hauteur_le r z
  have petit := enfants.length_le
  obtain ⟨bon, mauvais⟩ := boucleZombie (dessous z) vivant enfants.nodup (k.table z).fils 998 [] rfl
    (fun j mem => (enfants.mem j).mp mem) (by simp only [nbProc] at assez petit; omega)
  rw [definirEtat_cas valide.coherent.toRangement (by simp) vivant nonZombie, casEtat]
  refine ⟨fun seul => ?_, fun plusieurs => ?_⟩
  · obtain ⟨k₁, run, net, filsZ, visites, garde⟩ := bon seul
    refine ⟨k₁, _, run, ?_, .of_zombie valide vivant net filsZ (fun j pere zombie => ?_) garde⟩
    · simp only [quitter] at run
      simp only [bind, Except.bind, run]
      rfl
    · refine visites j ((enfants.mem j).mpr ⟨pere, ?_⟩) zombie
      rw [zombie]
      exact EtatProcessus.noConfusion
  · have run := mauvais plusieurs
    simp only [quitter] at run
    simp only [bind, Except.bind, run]

end ProjetSysteme.Invariant
