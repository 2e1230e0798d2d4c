/- Properties/PageSearch
   source: kernel/phy_mem_allocator.c
   digest: Page lookups by pid and index, and when they take the head of a list for an element. -/

import Mathlib.Data.List.Pairwise
import ProjetSysteme.Kernel.PageSearch
import ProjetSysteme.Kernel.Step

set_option autoImplicit false
set_option relaxedAutoImplicit false

namespace ProjetSysteme.Properties

open Kernel

section Recherche

variable {env : Env} {m : Memoire} {pid : Int}

theorem queueForEach_element {α : Type} {arret : Nat → α → Bool} {l : List α} {debut rang : Nat} {a : α}
    (trouve : queueForEach arret l debut = .element rang a) :
    arret rang a = true ∧ debut ≤ rang ∧ l[rang - debut]? = some a := by
  induction l generalizing debut with
  | nil => cases trouve
  | cons b reste ih =>
      unfold queueForEach at trouve
      split at trouve
      · next stop =>
          cases trouve
          refine ⟨stop, le_rfl, ?_⟩
          rw [Nat.sub_self]
          rfl
      · obtain ⟨stop, plus, ici⟩ := ih trouve
        refine ⟨stop, by omega, ?_⟩
        rw [show rang - debut = (rang - (debut + 1)) + 1 by omega]
        exact ici

theorem queueForEach_tete {α : Type} {arret : Nat → α → Bool} {l : List α} {debut : Nat}
    (rien : queueForEach arret l debut = .tete) {rang : Nat} {a : α} (ici : l[rang]? = some a) :
    arret (debut + rang) a = false := by
  induction l generalizing debut rang with
  | nil => cases ici
  | cons b reste ih =>
      unfold queueForEach at rien
      split at rien
      · cases rien
      · next passe =>
          cases rang with
          | zero =>
              cases ici
              exact Bool.eq_false_iff.mpr passe
          | succ rang =>
              have suite := ih rien ici
              rw [show debut + (rang + 1) = debut + 1 + rang by omega]
              exact suite

private theorem queueForEach_find {α : Type} (p : α → Bool) (l : List α) (debut : Nat) :
    l.find? p = match queueForEach (fun _ a => p a) l debut with
      | .element _ a => some a
      | .tete => none := by
  induction l generalizing debut with
  | nil => rfl
  | cons a reste ih =>
      unfold queueForEach
      cases stop : p a with
      | true => rw [List.find?_cons_of_pos stop, if_pos rfl]
      | false =>
          rw [List.find?_cons_of_neg (Bool.eq_false_iff.mp stop), if_neg Bool.false_ne_true]
          exact ih (debut + 1)

theorem trouverPage_cherche (env : Env) (m : Memoire) (pid : Int) :
    trouverPage env m pid = match cherchePid env m pid with
      | .vers page => { resultat := .ok (some page), teteLue := false }
      | .tete => { resultat := .error .teteDeListe, teteLue := true }
      | .aucun => { resultat := .ok none, teteLue := true } := by
  unfold trouverPage cherchePid
  rw [queueForEach_find _ _ 0]
  cases trouve : queueForEach (fun _ page => decide (page.pid = pid)) m.pagesAllouees 0 with
  | element rang page =>
      obtain ⟨stop, -⟩ := queueForEach_element trouve
      have egal : page.pid = pid := of_decide_eq_true stop
      simp only [if_pos egal]
  | tete =>
      by_cases lue : env.pidTete = pid
      · simp only [if_pos lue]
      · simp only [if_neg lue]

theorem observerNbPages_resultat (env : Env) (m : Memoire) (pid : Int) :
    (observerNbPages env m pid).resultat = getNbPages env m pid := by
  unfold observerNbPages getNbPages
  rw [trouverPage_cherche]
  cases cherchePid env m pid <;> rfl

theorem observerDesallocation_resultat (env : Env) (m : Memoire) (pid : Int) :
    (observerDesallocation env m pid).resultat = desallouePagesProcess env m pid := by
  unfold observerDesallocation desallouePagesProcess
  rw [trouverPage_cherche]
  cases cherchePid env m pid <;> rfl

theorem trouverPage_connu (env : Env) (connu : ∃ page ∈ m.pagesAllouees, page.pid = pid) :
    ∃ page ∈ m.pagesAllouees, page.pid = pid ∧
      trouverPage env m pid = { resultat := .ok (some page), teteLue := false } := by
  unfold trouverPage
  cases trouve : queueForEach (fun _ page => decide (page.pid = pid)) m.pagesAllouees 0 with
  | element rang page =>
      obtain ⟨stop, -, ici⟩ := queueForEach_element trouve
      have egal : page.pid = pid := of_decide_eq_true stop
      refine ⟨page, List.mem_of_getElem? ici, egal, ?_⟩
      simp only [if_pos egal]
  | tete =>
      obtain ⟨page, dans, egal⟩ := connu
      obtain ⟨rang, ici⟩ := List.mem_iff_getElem?.mp dans
      exact absurd egal (of_decide_eq_false (queueForEach_tete trouve ici))

theorem trouverPage_inconnu (inconnu : ¬ ∃ page ∈ m.pagesAllouees, page.pid = pid) :
    trouverPage env m pid =
      { resultat := if env.pidTete = pid then .error .teteDeListe else .ok none, teteLue := true } := by
  unfold trouverPage
  cases trouve : queueForEach (fun _ page => decide (page.pid = pid)) m.pagesAllouees 0 with
  | element rang page =>
      obtain ⟨stop, -, ici⟩ := queueForEach_element trouve
      exact absurd ⟨page, List.mem_of_getElem? ici, of_decide_eq_true stop⟩ inconnu
  | tete => rfl

theorem trouverAdresse_dans {page : PageAllouee} {rang : Nat} {adr : Adresse} (ici : page.adresses[rang]? = some adr) :
    trouverAdresse page rang = .element rang adr := by
  unfold trouverAdresse
  cases trouve : queueForEach (fun indexPage _ => decide ((indexPage : Int) = rang)) page.adresses 0 with
  | element rang' adr' =>
      obtain ⟨stop, -, ici'⟩ := queueForEach_element trouve
      obtain rfl : rang' = rang := Int.ofNat_inj.mp (of_decide_eq_true stop)
      rw [Nat.sub_zero, ici] at ici'
      cases ici'
      rfl
  | tete =>
      have passe := queueForEach_tete trouve ici
      rw [Nat.zero_add] at passe
      exact absurd rfl (of_decide_eq_false passe)

theorem trouverAdresse_dehors (page : PageAllouee) (i : Int) (dehors : ¬ (0 ≤ i ∧ i < page.adresses.length)) :
    trouverAdresse page i = .tete := by
  unfold trouverAdresse
  cases trouve : queueForEach (fun indexPage _ => decide ((indexPage : Int) = i)) page.adresses 0 with
  | element rang adr =>
      obtain ⟨stop, -, ici⟩ := queueForEach_element trouve
      have egal : (rang : Int) = i := of_decide_eq_true stop
      have borne := (List.getElem?_eq_some_iff.mp ici).1
      omega
  | tete => rfl

theorem observerAdr_resultat (noPage : Nat) :
    getAdr env m pid noPage = (observerAdr env m pid noPage).resultat.map fun
      | .nul => .aucun
      | .element _ adr => .vers adr
      | .tete => .tete := by
  unfold observerAdr getAdr
  rw [trouverPage_cherche]
  cases cherchePid env m pid with
  | tete => rfl
  | aucun => rfl
  | vers page =>
      cases ici : page.adresses[noPage]? with
      | some adr => simp only [Observation.puis, trouverAdresse_dans ici, ici, Except.map]
      | none =>
          have borne := List.getElem?_eq_none_iff.mp ici
          simp only [Observation.puis, trouverAdresse_dehors page noPage (by omega), ici, Except.map]

end Recherche

section Exactitude

variable {env : Env} {v : Voisinage} {m : Memoire} {pid i : Int}

/-- What the lookups of a pid and an index are to do. -/
structure LectureExacte (env : Env) (v : Voisinage) (m : Memoire) (pid i : Int) : Prop where
  nbPages : ∀ page ∈ m.pagesAllouees, page.pid = pid → (observerNbPages env m pid).resultat = .ok page.adresses.length
  nbInconnu : (∀ page ∈ m.pagesAllouees, page.pid ≠ pid) → (observerNbPages env m pid).resultat = .ok (-1)
  designe : ∀ page ∈ m.pagesAllouees, page.pid = pid → ∀ rang : Nat, (rang : Int) = i →
    ∀ adr, page.adresses[rang]? = some adr →
      (observerAdr env m pid i).resultat = .ok (.element rang adr) ∧
      (observerAdrPhy env v m pid i).resultat = .ok adr.adressePhy ∧
      (observerAdrVirt env v m pid i).resultat = .ok adr.adresseVirt
  nul : (∀ page ∈ m.pagesAllouees, page.pid = pid → ¬ (0 ≤ i ∧ i < page.adresses.length)) →
    (observerAdr env m pid i).resultat = .ok .nul ∧ (observerAdrPhy env v m pid i).resultat = .ok 0 ∧
      (observerAdrVirt env v m pid i).resultat = .ok 0
  teteNbPages : (observerNbPages env m pid).teteLue = false
  teteAdr : (observerAdr env m pid i).teteLue = false
  teteAdrPhy : (observerAdrPhy env v m pid i).teteLue = false
  teteAdrVirt : (observerAdrVirt env v m pid i).teteLue = false
  teteDesallocation : (∀ page ∈ m.pagesAllouees, page.pid ≠ pid) → (observerDesallocation env m pid).teteLue = false

theorem observer_inconnu (inconnu : ¬ ∃ page ∈ m.pagesAllouees, page.pid = pid) :
    (observerNbPages env m pid).teteLue = true ∧ (observerAdr env m pid i).teteLue = true ∧
      (observerAdrPhy env v m pid i).teteLue = true ∧ (observerAdrVirt env v m pid i).teteLue = true ∧
      (observerDesallocation env m pid).teteLue = true := by
  have page : trouverPage env m pid = _ := trouverPage_inconnu inconnu
  unfold observerNbPages observerAdr observerAdrPhy observerAdrVirt observerChamp observerDesallocation
  rw [page]
  by_cases lue : env.pidTete = pid
  · simp only [Observation.puis, if_pos lue, and_self]
  · simp only [Observation.puis, if_neg lue, Bool.true_or, and_self]

theorem observerAdr_dehors (connu : ∃ page ∈ m.pagesAllouees, page.pid = pid)
    (dehors : ∀ page ∈ m.pagesAllouees, page.pid = pid → ¬ (0 ≤ i ∧ i < page.adresses.length)) :
    (observerAdr env m pid i).resultat = .ok .tete := by
  obtain ⟨page, dans, egal, trouvee⟩ := trouverPage_connu env connu
  unfold observerAdr
  simp only [trouvee, Observation.puis, trouverAdresse_dehors page i (dehors page dans egal)]

/-- The lookups are exact for the pids that have an entry, at the indexes of its pages. -/
theorem page_lookups_exact_iff (uniques : m.pagesAllouees.Pairwise fun p q => p.pid ≠ q.pid) :
    LectureExacte env v m pid i ↔ ∃ page ∈ m.pagesAllouees, page.pid = pid ∧ 0 ≤ i ∧ i < page.adresses.length := by
  constructor
  · intro exacte
    by_contra rate
    have dehors : ∀ page ∈ m.pagesAllouees, page.pid = pid → ¬ (0 ≤ i ∧ i < page.adresses.length) :=
      fun page dans egal borne => rate ⟨page, dans, egal, borne⟩
    by_cases connu : ∃ page ∈ m.pagesAllouees, page.pid = pid
    · cases (observerAdr_dehors connu dehors).symm.trans (exacte.nul dehors).1
    · have lue : (observerNbPages env m pid).teteLue = true := (observer_inconnu (v := v) (i := i) connu).1
      exact Bool.false_ne_true (exacte.teteNbPages.symm.trans lue)
  · rintro ⟨entree, dansEntree, pidEntree, borne⟩
    obtain ⟨page, dans, egal, trouvee⟩ := trouverPage_connu env ⟨entree, dansEntree, pidEntree⟩
    have seule : ∀ autre ∈ m.pagesAllouees, autre.pid = pid → autre = page := by
      intro autre dansAutre pidAutre
      by_contra distincte
      have symetrique : Std.Symm fun p q : PageAllouee => p.pid ≠ q.pid := ⟨fun _ _ differents => differents.symm⟩
      exact uniques.forall dansAutre dans distincte (pidAutre.trans egal.symm)
    obtain rfl := seule entree dansEntree pidEntree
    obtain ⟨rang, rfl⟩ := Int.eq_ofNat_of_zero_le borne.1
    have adresse : ∃ adr, entree.adresses[rang]? = some adr := ⟨_, List.getElem?_eq_getElem (Int.ofNat_lt.mp borne.2)⟩
    obtain ⟨adr, ici⟩ := adresse
    have curseur := trouverAdresse_dans ici
    constructor
    · intro autre dansAutre pidAutre
      rw [seule autre dansAutre pidAutre]
      simp only [observerNbPages, trouvee, Observation.puis]
    · exact fun inconnu => absurd pidEntree (inconnu entree dansEntree)
    · intro autre dansAutre pidAutre rang' meme adr' ici'
      obtain rfl := seule autre dansAutre pidAutre
      obtain rfl : rang' = rang := Int.ofNat_inj.mp meme
      rw [ici] at ici'
      cases ici'
      refine ⟨?_, ?_, ?_⟩
      · simp only [observerAdr, trouvee, Observation.puis, curseur]
      · simp only [observerAdrPhy, observerChamp, trouvee, Observation.puis, curseur]
      · simp only [observerAdrVirt, observerChamp, trouvee, Observation.puis, curseur]
    · exact fun aucune => absurd borne (aucune entree dansEntree pidEntree)
    · simp only [observerNbPages, trouvee, Observation.puis, Bool.or_self]
    · simp only [observerAdr, trouvee, Observation.puis, curseur, Bool.or_self]
    · simp only [observerAdrPhy, observerChamp, trouvee, Observation.puis, curseur, Bool.or_self]
    · simp only [observerAdrVirt, observerChamp, trouvee, Observation.puis, curseur, Bool.or_self]
    · exact fun inconnu => absurd pidEntree (inconnu entree dansEntree)

/-- One entry, of the pid 3, with one page. -/
def memoireUnePage : Memoire :=
  { noyauVide.memoire with
    pagesAllouees := [{ bloc := 0, priorite := 0, perm := .write, pid := 3
                        adresses := [{ priorite := 0, adressePhy := 0x5000, adresseVirt := kBaseVirtAdr, perm := .write }] }] }

theorem page_lookups_exact_premiere :
    LectureExacte Env.exemple ⟨7, 8⟩ memoireUnePage 3 0 := by
  refine (page_lookups_exact_iff (List.pairwise_singleton ..)).mpr ⟨_, List.mem_singleton.mpr rfl, rfl, ?_⟩
  decide

/-- The pid 4 has no entry, and the entry of the pid 3 no page of index 1. -/
theorem page_lookups_counterexample :
    (memoireUnePage.pagesAllouees.Pairwise fun p q => p.pid ≠ q.pid) ∧
    (observerNbPages Env.exemple memoireUnePage 4).teteLue = true ∧
    ¬ LectureExacte Env.exemple ⟨7, 8⟩ memoireUnePage 4 0 ∧
    (observerAdr Env.exemple memoireUnePage 3 1).resultat = .ok .tete ∧
    (observerAdrPhy Env.exemple ⟨7, 8⟩ memoireUnePage 3 1).resultat = .ok 7 ∧
    ¬ LectureExacte Env.exemple ⟨7, 8⟩ memoireUnePage 3 1 := by
  refine ⟨List.pairwise_singleton .., rfl, ?_, rfl, rfl, ?_⟩
  · intro exacte
    exact Bool.noConfusion exacte.teteNbPages
  · intro exacte
    exact Bool.noConfusion exacte.teteAdrPhy

end Exactitude

end ProjetSysteme.Properties
