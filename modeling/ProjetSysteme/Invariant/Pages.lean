/- Invariant/Pages
   source: kernel/phy_mem_allocator.c
   digest: Pages move between the free list and the processes; none is lost, none is held twice. -/

import ProjetSysteme.Kernel.Memory
import ProjetSysteme.Library.Outcome

set_option autoImplicit false
set_option relaxedAutoImplicit false

namespace ProjetSysteme.Invariant

open Kernel Library.Outcome
open Library.PriorityList (place place_perm filter_place_of_neg split_last)

/-- The physical pages of an element of `pages_allouees`. -/
def pagesPhysiques (p : PageAllouee) : List Mot := p.adresses.map Adresse.adressePhy

/-- Addresses of the free pages. -/
def pagesLibres (m : Memoire) : List Mot := m.pagesVides.map PageVide.adr

/-- Every page of the manager, free or attached to a pid. -/
def toutesLesPages (m : Memoire) : List Mot :=
  pagesLibres m ++ m.pagesAllouees.flatMap pagesPhysiques

/-- The elements of `pages_allouees` of the given pid. -/
def entreesDe (pid : Int) (m : Memoire) : List PageAllouee :=
  m.pagesAllouees.filter fun p => p.pid = pid

def autresEntrees (pid : Int) (m : Memoire) : List PageAllouee :=
  m.pagesAllouees.filter fun p => p.pid ≠ pid

theorem mem_entreesDe {m : Memoire} {pid : Int} {p : PageAllouee} :
    p ∈ entreesDe pid m ↔ p ∈ m.pagesAllouees ∧ p.pid = pid := by
  rw [entreesDe, List.mem_filter, decide_eq_true_iff]

theorem mem_autresEntrees {m : Memoire} {pid : Int} {p : PageAllouee} :
    p ∈ autresEntrees pid m ↔ p ∈ m.pagesAllouees ∧ p.pid ≠ pid := by
  rw [autresEntrees, List.mem_filter, decide_eq_true_iff]

theorem entreesDe_of_autres {m m' : Memoire} {pid q : Int}
    (autres : autresEntrees pid m' = autresEntrees pid m) (autre : q ≠ pid) :
    entreesDe q m' = entreesDe q m := by
  have sous : ∀ m, entreesDe q m = (autresEntrees pid m).filter fun p => p.pid = q := by
    intro m
    rw [autresEntrees, List.filter_filter, entreesDe]
    refine List.filter_congr fun p _ => ?_
    by_cases de : p.pid = q
    · simp [de, autre]
    · simp [de]
  rw [sous, sous, autres]

structure BlocsDistincts (m : Memoire) : Prop where
  nodup : (m.pagesAllouees.map PageAllouee.bloc).Nodup
  alloues : ∀ p ∈ m.pagesAllouees, p.bloc < m.nbMalloc

structure Deplace (pid : Int) (m m' : Memoire) : Prop where
  noyau : m' = { m with
    pagesVides := m'.pagesVides, pagesAllouees := m'.pagesAllouees, nbMalloc := m'.nbMalloc }
  malloc : m.nbMalloc ≤ m'.nbMalloc
  pages : (toutesLesPages m').Perm (toutesLesPages m)
  blocs : BlocsDistincts m'
  autres : autresEntrees pid m' = autresEntrees pid m

namespace Deplace

variable {pid : Int} {m m' m'' : Memoire}

theorem refl (pid : Int) (blocs : BlocsDistincts m) : Deplace pid m m :=
  ⟨rfl, le_rfl, .refl _, blocs, rfl⟩

theorem trans (un : Deplace pid m m') (deux : Deplace pid m' m'') : Deplace pid m m'' where
  noyau := by rw [deux.noyau, un.noyau]
  malloc := un.malloc.trans deux.malloc
  pages := deux.pages.trans un.pages
  blocs := deux.blocs
  autres := deux.autres.trans un.autres

theorem mots (deplace : Deplace pid m m') : m'.mots = m.mots := by
  rw [deplace.noyau]

theorem nbMemalign (deplace : Deplace pid m m') : m'.nbMemalign = m.nbMemalign := by
  rw [deplace.noyau]

theorem entreesDe (deplace : Deplace pid m m') {q : Int} (autre : q ≠ pid) :
    entreesDe q m' = entreesDe q m :=
  entreesDe_of_autres deplace.autres autre

end Deplace

theorem cherchePid_vers {env : Env} {m : Memoire} {pid : Int} {page : PageAllouee}
    (trouve : cherchePid env m pid = .vers page) : (entreesDe pid m).head? = some page := by
  unfold cherchePid at trouve
  split at trouve
  · next premier =>
      cases trouve
      rw [entreesDe, List.head?_filter]
      exact premier
  · split at trouve <;> cases trouve

theorem cherchePid_autre {env : Env} {m : Memoire} {pid : Int}
    (absent : ∀ page, cherchePid env m pid ≠ .vers page) : entreesDe pid m = [] := by
  refine List.filter_eq_nil_iff.mpr fun p mem de => ?_
  cases trouve : m.pagesAllouees.find? fun page => page.pid = pid with
  | none => exact List.find?_eq_none.mp trouve p mem de
  | some page =>
      refine absent page ?_
      rw [cherchePid, trouve]

theorem getAdr_vers {env : Env} {m : Memoire} {pid : Int} {noPage : Nat} {adr : Adresse}
    (trouve : getAdr env m pid noPage = .ok (.vers adr)) :
    ∃ page, (entreesDe pid m).head? = some page ∧ adr ∈ page.adresses := by
  unfold getAdr at trouve
  split at trouve
  · next page premier =>
      split at trouve
      · next rang =>
          cases trouve
          exact ⟨page, cherchePid_vers premier, List.mem_of_getElem? rang⟩
      · cases trouve
  · cases trouve
  · cases trouve

theorem entree_split {pid : Int} {m : Memoire} {page : PageAllouee}
    (premier : (entreesDe pid m).head? = some page) : page.pid = pid ∧
      ∃ avant apres, m.pagesAllouees = avant ++ page :: apres ∧ ∀ p ∈ avant, p.pid ≠ pid := by
  rw [entreesDe, List.head?_filter, List.find?_eq_some_iff_append] at premier
  obtain ⟨de, avant, apres, liste, sans⟩ := premier
  exact ⟨by simpa using de, avant, apres, liste, fun p mem => by simpa using sans p mem⟩

theorem toutesLesPages_split {m : Memoire} {avant apres : List PageAllouee} {page : PageAllouee}
    (liste : m.pagesAllouees = avant ++ page :: apres) : (toutesLesPages m).Perm
      (pagesPhysiques page ++ pagesLibres m ++ (avant ++ apres).flatMap pagesPhysiques) := by
  rw [toutesLesPages, liste, List.append_assoc, List.flatMap_append, List.flatMap_cons,
    List.flatMap_append]
  refine .trans ?_ (List.perm_append_comm_assoc _ _ _)
  exact .append_left _ (List.perm_append_comm_assoc _ _ _)

section Operations

variable (env : Env)

theorem rendrePages_sat (l : List Adresse) (m : Memoire) :
    Sat (rendrePages env l m) (fun m' => m' = { m with
        pagesVides := m'.pagesVides, nbMalloc := m'.nbMalloc } ∧ m.nbMalloc ≤ m'.nbMalloc ∧
      (pagesLibres m').Perm (l.map Adresse.adressePhy ++ pagesLibres m)) fun _ => True := by
  induction l generalizing m with
  | nil => exact ⟨rfl, le_rfl, .refl _⟩
  | cons ad reste ih =>
      rw [rendrePages]
      split
      · refine (ih _).mono (fun m' ⟨noyau, malloc, libres⟩ => ⟨?_, ?_, ?_⟩) fun _ => id
        · rw [noyau]
        · exact (Nat.le_succ _).trans malloc
        · refine libres.trans ?_
          have placee := (place_perm PageVide.priorite
            ⟨env.indetermine m.nbMalloc, ad.adressePhy⟩ m.pagesVides).map PageVide.adr
          exact (placee.append_left _).trans List.perm_middle
      · trivial

theorem desalloue_sat (m : Memoire) (pid : Int) (blocs : BlocsDistincts m) :
    Sat (desallouePagesProcess env m pid) (fun m' => Deplace pid m m' ∧
      entreesDe pid m' = (entreesDe pid m).tail ∧
      (pagesLibres m').Perm ((entreesDe pid m).head?.elim [] pagesPhysiques ++ pagesLibres m))
      fun _ => True := by
  unfold desallouePagesProcess
  split
  · next aucun =>
      have vide := @cherchePid_autre env m pid (by simp [aucun])
      refine ⟨.refl pid blocs, ?_, ?_⟩ <;> simp [vide]
  · trivial
  · next page trouve =>
      obtain ⟨de, avant, apres, liste, sans⟩ := entree_split (cherchePid_vers trouve)
      refine (rendrePages_sat env _ m).bind fun m₁ ⟨noyau, malloc, libres⟩ => ?_
      have entrees₁ : m₁.pagesAllouees = avant ++ page :: apres := by rw [noyau, liste]
      have nodup := blocs.nodup
      rw [liste, List.map_append, List.map_cons, List.nodup_middle, List.nodup_cons] at nodup
      have retiree : m₁.pagesAllouees.eraseP (fun p => p.bloc = page.bloc) = avant ++ apres := by
        rw [entrees₁, List.eraseP_append_right, List.eraseP_cons_of_pos (by simp)]
        intro p mem bloc
        refine nodup.1 (List.mem_append_left _ ?_)
        exact List.mem_map.mpr ⟨p, mem, by simpa using bloc⟩
      rw [List.map_reverse] at libres
      have libres' := libres.trans (.append_right _ (List.reverse_perm _))
      have sansAvant : avant.filter (fun p => p.pid = pid) = [] :=
        List.filter_eq_nil_iff.mpr fun p mem => by simpa using sans p mem
      have entrees : entreesDe pid m = page :: apres.filter fun p => p.pid = pid := by
        rw [entreesDe, liste, List.filter_append, sansAvant, List.filter_cons_of_pos (by simpa using de)]
        rfl
      refine ⟨⟨?_, malloc, ?_, ⟨?_, ?_⟩, ?_⟩, ?_, ?_⟩
      · rw [noyau]
      · refine .trans ?_ (toutesLesPages_split liste).symm
        rw [toutesLesPages]
        simp only [retiree]
        exact .append_right _ libres'
      · simp only [retiree, List.map_append]
        exact nodup.2
      · intro p mem
        simp only [retiree] at mem
        refine lt_of_lt_of_le (blocs.alloues p ?_) malloc
        rw [liste]
        exact (List.sublist_cons_self page apres).append_left avant |>.subset mem
      · simp only [autresEntrees, retiree, liste]
        rw [List.filter_append, List.filter_append, List.filter_cons_of_neg (by simpa using de)]
      · rw [entrees]
        simp only [entreesDe, retiree]
        rw [List.filter_append, sansAvant]
        rfl
      · rw [entrees]
        exact libres'

def BlocDe (m : Memoire) (bloc : Nat) (pid : Int) : Prop :=
  ∃ p ∈ m.pagesAllouees, p.bloc = bloc ∧ p.pid = pid

theorem remplacer_bloc {l avant apres : List PageAllouee} {p : PageAllouee}
    (f : PageAllouee → PageAllouee) (liste : l = avant ++ p :: apres)
    (nodup : (l.map PageAllouee.bloc).Nodup) :
    l.map (fun q => if q.bloc = p.bloc then f q else q) = avant ++ f p :: apres := by
  rw [liste, List.map_append, List.map_cons, List.nodup_middle, List.nodup_cons] at nodup
  have garde : ∀ l : List PageAllouee, (∀ q ∈ l, q ∈ avant ++ apres) →
      l.map (fun q => if q.bloc = p.bloc then f q else q) = l := by
    intro l dans
    refine (List.map_congr_left fun q mem => if_neg fun meme => nodup.1 ?_).trans (List.map_id l)
    rw [← List.map_append]
    exact List.mem_map.mpr ⟨q, dans q mem, meme⟩
  rw [liste, List.map_append, List.map_cons, if_pos rfl,
    garde avant fun q => List.mem_append_left apres, garde apres fun q => List.mem_append_right avant]

theorem attacher_deplace {m : Memoire} {bloc : Nat} {pid : Int} {page : PageVide} (ad : Adresse)
    (blocs : BlocsDistincts m) (element : BlocDe m bloc pid)
    (dernier : m.pagesVides.getLast? = some page) (phy : ad.adressePhy = page.adr) {m' : Memoire}
    (attachee : m' = { m with
      nbMalloc := m.nbMalloc + 1
      pagesVides := m.pagesVides.dropLast
      pagesAllouees := m.pagesAllouees.map fun p =>
        if p.bloc = bloc then { p with adresses := place Adresse.priorite ad p.adresses } else p }) :
    Deplace pid m m' ∧ BlocDe m' bloc pid ∧ (entreesDe pid m').length = (entreesDe pid m).length := by
  obtain ⟨p, mem, rfl, de⟩ := element
  obtain ⟨avant, apres, liste⟩ := List.append_of_mem mem
  set p' : PageAllouee := { p with adresses := place Adresse.priorite ad p.adresses } with defp'
  have liste' : m'.pagesAllouees = avant ++ p' :: apres := by
    rw [attachee]
    exact remplacer_bloc (fun q => { q with adresses := place Adresse.priorite ad q.adresses }) liste
      blocs.nodup
  have memesBlocs : m'.pagesAllouees.map PageAllouee.bloc = m.pagesAllouees.map PageAllouee.bloc := by
    rw [liste, liste', List.map_append, List.map_append, List.map_cons, List.map_cons]
  have de' : p'.pid = pid := de
  refine ⟨⟨?_, ?_, ?_, ⟨?_, ?_⟩, ?_⟩, ⟨p', ?_, rfl, de'⟩, ?_⟩
  · rw [attachee]
  · rw [attachee]
    exact Nat.le_succ _
  · refine (toutesLesPages_split liste').trans (.trans ?_ (toutesLesPages_split liste).symm)
    refine .append_right _ ?_
    have placee : (pagesPhysiques p').Perm (page.adr :: pagesPhysiques p) := by
      have := (place_perm Adresse.priorite ad p.adresses).map Adresse.adressePhy
      rwa [List.map_cons, phy] at this
    have libres : (pagesLibres m).Perm (page.adr :: pagesLibres m') := by
      rw [pagesLibres, split_last dernier, attachee, List.map_append]
      exact List.perm_append_singleton _ _
    exact (placee.append_right _).trans (List.perm_middle.symm.trans (.append_left _ libres.symm))
  · rw [memesBlocs]
    exact blocs.nodup
  · intro q mem
    have ancien : q.bloc ∈ m.pagesAllouees.map PageAllouee.bloc :=
      memesBlocs ▸ List.mem_map_of_mem mem
    obtain ⟨r, dans, meme⟩ := List.mem_map.mp ancien
    rw [← meme, attachee]
    exact Nat.lt_succ_of_lt (blocs.alloues r dans)
  · rw [autresEntrees, autresEntrees, liste, liste', List.filter_append, List.filter_append,
      List.filter_cons_of_neg (by simpa using de), List.filter_cons_of_neg (by simpa using de')]
  · rw [liste']
    exact List.mem_append_right _ (List.mem_cons_self ..)
  · rw [entreesDe, entreesDe, liste, liste', List.filter_append, List.filter_append,
      List.filter_cons_of_pos (by simpa using de), List.filter_cons_of_pos (by simpa using de')]
    simp only [List.length_append, List.length_cons]

theorem allouerBoucle_sat (bloc : Nat) (pid : Int) (perm : Permission) (n i : Nat) (m : Memoire)
    (blocs : BlocsDistincts m) (element : BlocDe m bloc pid) :
    Sat (allouerBoucle env bloc pid perm n i m) (fun m' => Deplace pid m m' ∧
      (entreesDe pid m').length ≤ (entreesDe pid m).length) fun _ => True := by
  induction n generalizing i m with
  | zero => exact ⟨.refl pid blocs, le_rfl⟩
  | succ n ih =>
      rw [allouerBoucle]
      split
      · refine (desalloue_sat env m pid blocs).mono (fun m' ⟨deplace, reste, _⟩ => ⟨deplace, ?_⟩)
          fun _ => id
        rw [reste, List.length_tail]
        exact Nat.sub_le _ 1
      · next page dernier =>
          split
          · obtain ⟨un, element', compte⟩ := attacher_deplace
              ⟨env.indetermine m.nbMalloc, page.adr, kBaseVirtAdr + BitVec.ofNat 32 (i * k4KiB), perm⟩
              blocs element dernier rfl rfl
            refine (ih (i + 1) _ un.blocs element').mono (fun m' ⟨deux, reste⟩ => ⟨un.trans deux, ?_⟩)
              fun _ => id
            exact reste.trans compte.le
          · trivial

theorem chainer_deplace {m m' : Memoire} {page : PageAllouee} (blocs : BlocsDistincts m)
    (neuf : page.bloc = m.nbMalloc) (vide : page.adresses = [])
    (chainee : m' = { m with
      nbMalloc := m.nbMalloc + 1
      pagesAllouees := place PageAllouee.priorite page m.pagesAllouees }) :
    Deplace page.pid m m' ∧ page ∈ m'.pagesAllouees ∧
      (entreesDe page.pid m').Perm (page :: entreesDe page.pid m) := by
  have placee : m'.pagesAllouees.Perm (page :: m.pagesAllouees) := by
    rw [chainee]
    exact place_perm PageAllouee.priorite page m.pagesAllouees
  refine ⟨⟨?_, ?_, ?_, ⟨?_, ?_⟩, ?_⟩, placee.symm.subset (List.mem_cons_self ..), ?_⟩
  · rw [chainee]
  · rw [chainee]
    exact Nat.le_succ _
  · have libres : pagesLibres m' = pagesLibres m := by rw [chainee]; rfl
    rw [toutesLesPages, libres]
    refine .append_left _ ((placee.flatMap_right pagesPhysiques).trans ?_)
    rw [List.flatMap_cons, pagesPhysiques, vide]
    exact .refl _
  · refine (placee.map PageAllouee.bloc).nodup_iff.mpr (List.nodup_cons.mpr ⟨?_, blocs.nodup⟩)
    rw [neuf]
    intro mem
    obtain ⟨p, dans, meme⟩ := List.mem_map.mp mem
    exact absurd (blocs.alloues p dans) (by rw [meme]; exact lt_irrefl _)
  · intro p mem
    have borne : m'.nbMalloc = m.nbMalloc + 1 := by rw [chainee]
    rw [borne]
    rcases List.mem_cons.mp (placee.subset mem) with rfl | dans
    · rw [neuf]
      exact Nat.lt_succ_self _
    · exact Nat.lt_succ_of_lt (blocs.alloues p dans)
  · rw [autresEntrees, autresEntrees, chainee]
    exact filter_place_of_neg PageAllouee.priorite (by simp)
  · have filtre := placee.filter fun p => p.pid = page.pid
    rwa [List.filter_cons_of_pos (by simp)] at filtre

theorem alloue_sat (m : Memoire) (pid : Int) (nbPages : Nat) (perm : Permission)
    (blocs : BlocsDistincts m) :
    Sat (allouePagesProcess env m pid nbPages perm) (fun m' => Deplace pid m m' ∧
      (entreesDe pid m').length ≤ (entreesDe pid m).length + 1) fun _ => True := by
  unfold allouePagesProcess
  split
  · set page : PageAllouee :=
      { bloc := m.nbMalloc, priorite := env.indetermine m.nbMalloc, perm, pid, adresses := [] }
      with defpage
    set m₁ : Memoire := { m with
      nbMalloc := m.nbMalloc + 1
      pagesAllouees := place PageAllouee.priorite page m.pagesAllouees } with defm₁
    obtain ⟨un, mem, entrees⟩ := chainer_deplace blocs (rfl : page.bloc = m.nbMalloc) rfl defm₁
    refine (allouerBoucle_sat env m.nbMalloc pid perm nbPages 0 m₁ un.blocs ⟨page, mem, rfl, rfl⟩).mono
      (fun m' ⟨deux, reste⟩ => ⟨un.trans deux, ?_⟩) fun _ => id
    rw [entrees.length_eq] at reste
    exact reste
  · refine ⟨⟨rfl, Nat.le_succ _, .refl _, ⟨blocs.nodup, ?_⟩, rfl⟩, Nat.le_succ _⟩
    exact fun p mem => Nat.lt_succ_of_lt (blocs.alloues p mem)

theorem creerPagesVides_sat (n : Nat) (m : Memoire) :
    Sat (creerPagesVides env n m) (fun m' => m' = { m with
        pagesVides := m'.pagesVides, nbMalloc := m'.nbMalloc, nbMemalign := m.nbMemalign + n } ∧
      ∃ adrs : List Mot, (pagesLibres m').Perm (adrs ++ pagesLibres m) ∧
        adrs.map some = (List.range' m.nbMemalign n).map env.memalign) fun _ => True := by
  induction n generalizing m with
  | zero => exact ⟨rfl, [], .refl _, rfl⟩
  | succ n ih =>
      rw [creerPagesVides]
      split
      · split
        · trivial
        · next adr alloue =>
            refine (ih _).mono (fun m' ⟨noyau, adrs, libres, appels⟩ => ⟨?_, adr :: adrs, ?_, ?_⟩)
              fun _ => id
            · rw [noyau]
              simp only [Nat.add_assoc, Nat.add_comm 1 n]
            · refine libres.trans ?_
              have placee := (place_perm PageVide.priorite ⟨0, adr⟩ m.pagesVides).map PageVide.adr
              exact (placee.append_left _).trans List.perm_middle
            · rw [List.range'_succ, List.map_cons, List.map_cons, appels, alloue]
      · trivial

end Operations

end ProjetSysteme.Invariant
