/- Properties/Allocator
   source: kernel/phy_mem_allocator.c, shared/queue.h
   digest: Sequences of allocations and releases of physical pages. -/

import ProjetSysteme.Invariant.Pages
import ProjetSysteme.Kernel.Step

set_option autoImplicit false
set_option relaxedAutoImplicit false

namespace ProjetSysteme.Properties

open Kernel Invariant Library.Outcome
open Library.PriorityList (place place_perm)

/-- The calls of the physical page allocator. -/
inductive AppelPages
  | alloue (pid : Int) (nbPages : Nat) (perm : Permission)
  | desalloue (pid : Int)

def appelerPages (env : Env) (m : Memoire) : AppelPages → Except Faute Memoire
  | .alloue pid nbPages perm => allouePagesProcess env m pid nbPages perm
  | .desalloue pid => desallouePagesProcess env m pid

/-- An allocation is for a pid without entry, a release for a pid with one. -/
def AppelPages.Permise (m : Memoire) : AppelPages → Prop
  | .alloue pid _ _ => entreesDe pid m = []
  | .desalloue pid => entreesDe pid m ≠ []

/-- One call of a sequence. -/
def PagesAppelees (env : Env) (m m' : Memoire) : Prop :=
  ∃ op : AppelPages, op.Permise m ∧ appelerPages env m op = .ok m'

/-- The virtual addresses of `n` pages from the page of index `i`. -/
def adressesVirtuelles (i n : Nat) : List Mot :=
  (List.range' i n).map fun j => kBaseVirtAdr + BitVec.ofNat 32 (j * k4KiB)

section Appels

variable {env : Env} (malloc : ∀ n, env.malloc n = true)
include malloc

theorem rendrePages_ok (l : List Adresse) (m : Memoire) : ∃ m', rendrePages env l m = .ok m' := by
  induction l generalizing m with
  | nil => exact ⟨m, rfl⟩
  | cons ad reste ih =>
      rw [rendrePages, if_pos (malloc _)]
      exact ih _

theorem desalloue_ok {m : Memoire} {pid : Int} (entree : entreesDe pid m ≠ []) :
    ∃ m', desallouePagesProcess env m pid = .ok m' := by
  unfold desallouePagesProcess cherchePid
  cases trouve : m.pagesAllouees.find? fun page => page.pid = pid with
  | none =>
      refine absurd ?_ entree
      rw [entreesDe, ← List.head?_eq_none_iff, List.head?_filter]
      exact trouve
  | some page =>
      obtain ⟨m', run⟩ := rendrePages_ok malloc page.adresses.reverse m
      simp only [run, bind, Except.bind]
      exact ⟨_, rfl⟩

/-- The loop of `alloue_pages_process` attaches a page for each index, or has given back
all of them. -/
theorem allouerBoucle_ok (pid : Int) (perm : Permission) (n i : Nat) {m : Memoire} {p : PageAllouee}
    (blocs : BlocsDistincts m) (seule : entreesDe pid m = [p]) :
    ∃ m', allouerBoucle env p.bloc pid perm n i m = .ok m' ∧ Deplace pid m m' ∧
      (n ≤ m.pagesVides.length → ∃ p', entreesDe pid m' = [p'] ∧
        (p'.adresses.map Adresse.adresseVirt).Perm
          (adressesVirtuelles i n ++ p.adresses.map Adresse.adresseVirt)) ∧
      (m.pagesVides.length < n → entreesDe pid m' = []) := by
  induction n generalizing i m p with
  | zero =>
      exact ⟨m, rfl, .refl pid blocs, fun _ => ⟨p, seule, .refl _⟩, fun trop => absurd trop (Nat.not_lt_zero _)⟩
  | succ n ih =>
      rw [allouerBoucle]
      cases dernier : m.pagesVides.getLast? with
      | none =>
          have vide := List.getLast?_eq_none_iff.mp dernier
          have presente : entreesDe pid m ≠ [] := by simp [seule]
          obtain ⟨m', run⟩ := desalloue_ok malloc presente
          obtain ⟨deplace, reste, -⟩ := (desalloue_sat env m pid blocs).of_ok run
          refine ⟨m', run, deplace, fun assez => ?_, fun _ => by rw [reste, seule]; rfl⟩
          simp [vide] at assez
      | some page =>
          obtain ⟨mem, de⟩ := mem_entreesDe.mp (seule ▸ List.mem_singleton_self p)
          simp only [malloc, if_true]
          set ad : Adresse := ⟨env.indetermine m.nbMalloc, page.adr,
            kBaseVirtAdr + BitVec.ofNat 32 (i * k4KiB), perm⟩ with defad
          set m₁ : Memoire := { m with
            nbMalloc := m.nbMalloc + 1
            pagesVides := m.pagesVides.dropLast
            pagesAllouees := m.pagesAllouees.map fun q =>
              if q.bloc = p.bloc then { q with adresses := place Adresse.priorite ad q.adresses }
              else q } with defm₁
          obtain ⟨un, -⟩ := attacher_deplace ad blocs ⟨p, mem, rfl, de⟩ dernier rfl defm₁
          have seule₁ : entreesDe pid m₁ =
              [{ p with adresses := place Adresse.priorite ad p.adresses }] := by
            have filtre : entreesDe pid m₁ = (entreesDe pid m).map fun q => if q.bloc = p.bloc then
                { q with adresses := place Adresse.priorite ad q.adresses } else q := by
              rw [entreesDe, defm₁, List.filter_map]
              congr 1
              refine List.filter_congr fun q _ => ?_
              simp only [Function.comp]
              split <;> rfl
            rw [filtre, seule, List.map_singleton, if_pos rfl]
          obtain ⟨m', run, deux, assez, trop⟩ := ih (i + 1) un.blocs seule₁
          have courte : m₁.pagesVides.length + 1 = m.pagesVides.length := by
            rw [defm₁, List.length_dropLast]
            have nonVide : m.pagesVides ≠ [] := by
              rintro vide
              simp [vide] at dernier
            have := List.length_pos_iff.mpr nonVide
            omega
          refine ⟨m', run, un.trans deux, fun place => ?_, fun manque => trop (by omega)⟩
          obtain ⟨p', seule', virt⟩ := assez (by omega)
          refine ⟨p', seule', virt.trans ?_⟩
          have placee := (place_perm Adresse.priorite ad p.adresses).map Adresse.adresseVirt
          refine (placee.append_left _).trans ?_
          rw [List.map_cons, adressesVirtuelles, adressesVirtuelles, List.range'_succ, List.map_cons]
          exact List.perm_middle

theorem alloue_ok {m : Memoire} {pid : Int} (nbPages : Nat) (perm : Permission)
    (blocs : BlocsDistincts m) (sans : entreesDe pid m = []) :
    ∃ m', allouePagesProcess env m pid nbPages perm = .ok m' ∧ Deplace pid m m' ∧
      (nbPages ≤ m.pagesVides.length → ∃ p, entreesDe pid m' = [p] ∧
        (p.adresses.map Adresse.adresseVirt).Perm (adressesVirtuelles 0 nbPages)) ∧
      (m.pagesVides.length < nbPages → entreesDe pid m' = []) := by
  unfold allouePagesProcess
  simp only [malloc, if_true]
  set page : PageAllouee :=
    { bloc := m.nbMalloc, priorite := env.indetermine m.nbMalloc, perm, pid, adresses := [] }
    with defpage
  set m₁ : Memoire := { m with
    nbMalloc := m.nbMalloc + 1
    pagesAllouees := place PageAllouee.priorite page m.pagesAllouees } with defm₁
  obtain ⟨un, -, entrees⟩ := chainer_deplace blocs (rfl : page.bloc = m.nbMalloc) rfl defm₁
  have seule : entreesDe pid m₁ = [page] := by
    refine List.perm_singleton.mp (entrees.trans ?_)
    rw [sans]
  obtain ⟨m', run, deux, assez, trop⟩ := allouerBoucle_ok malloc pid perm nbPages 0 un.blocs seule
  refine ⟨m', run, un.trans deux, fun place => ?_, trop⟩
  obtain ⟨p, seule', virt⟩ := assez place
  exact ⟨p, seule', by simpa [defpage] using virt⟩

theorem appelerPages_ok {m : Memoire} (blocs : BlocsDistincts m) {op : AppelPages} (permise : op.Permise m) :
    ∃ m', appelerPages env m op = .ok m' ∧ BlocsDistincts m' ∧ (toutesLesPages m').Perm (toutesLesPages m) := by
  cases op with
  | alloue pid nbPages perm =>
      obtain ⟨m', run, deplace, -⟩ := alloue_ok malloc nbPages perm blocs permise
      exact ⟨m', run, deplace.blocs, deplace.pages⟩
  | desalloue pid =>
      obtain ⟨m', run⟩ := desalloue_ok malloc permise
      obtain ⟨deplace, -⟩ := (desalloue_sat env m pid blocs).of_ok run
      exact ⟨m', run, deplace.blocs, deplace.pages⟩

theorem appels_pages {m₀ m : Memoire} (blocs : BlocsDistincts m₀)
    (suite : Relation.ReflTransGen (PagesAppelees env) m₀ m) :
    BlocsDistincts m ∧ (toutesLesPages m).Perm (toutesLesPages m₀) := by
  induction suite with
  | refl => exact ⟨blocs, .refl _⟩
  | tail _ etape ih =>
      obtain ⟨op, permise, run⟩ := etape
      obtain ⟨m', run', blocs', pages⟩ := appelerPages_ok malloc ih.1 permise
      cases run.symm.trans run'
      exact ⟨blocs', pages.trans ih.2⟩

end Appels

theorem toutesLesPages_pid (pid : Int) (m : Memoire) : (toutesLesPages m).Perm
    ((pagesLibres m ++ (entreesDe pid m).flatMap pagesPhysiques) ++
      (autresEntrees pid m).flatMap pagesPhysiques) := by
  rw [List.append_assoc, ← List.flatMap_append]
  refine .append_left _ (List.Perm.flatMap_right pagesPhysiques ?_)
  have parts := List.filter_append_perm (fun p : PageAllouee => decide (p.pid = pid)) m.pagesAllouees
  simpa only [entreesDe, autresEntrees, ne_eq, decide_not] using parts.symm

theorem deplace_libres {pid : Int} {m m' : Memoire} (deplace : Deplace pid m m') :
    (pagesLibres m' ++ (entreesDe pid m').flatMap pagesPhysiques).Perm
      (pagesLibres m ++ (entreesDe pid m).flatMap pagesPhysiques) := by
  have pages := ((toutesLesPages_pid pid m').symm.trans deplace.pages).trans (toutesLesPages_pid pid m)
  rw [deplace.autres] at pages
  exact (List.perm_append_right_iff _).mp pages

theorem createListPagesVides_pages {env : Env} {m₀ : Memoire}
    (boot : createListPagesVides env noyauVide.memoire = .ok m₀) :
    BlocsDistincts m₀ ∧ toutesLesPages m₀ = pagesLibres m₀ ∧ ∃ adrs : List Mot,
      (pagesLibres m₀).Perm adrs ∧ adrs.map some = (List.range 1000).map env.memalign := by
  obtain ⟨noyau, adrs, libres, appels⟩ := (creerPagesVides_sat env 1000 _).of_ok boot
  have vide : m₀.pagesAllouees = [] := by
    rw [noyau]
    rfl
  refine ⟨⟨by simp [vide], by simp [vide]⟩, by simp [toutesLesPages, vide], adrs, ?_, ?_⟩
  · simpa [pagesLibres, noyauVide] using libres
  · rw [appels, List.range_eq_range']
    rfl

theorem adressesVirtuelles_nodup {n : Nat} (borne : n ≤ 1000) : (adressesVirtuelles 0 n).Nodup := by
  refine List.Nodup.map_on (fun i memI j memJ meme => ?_) List.nodup_range'
  have iBorne := (List.mem_range'_1.mp memI).2
  have jBorne := (List.mem_range'_1.mp memJ).2
  have nats := congrArg BitVec.toNat ((BitVec.add_right_inj _).mp meme)
  simp only [BitVec.toNat_ofNat, k4KiB] at nats
  omega

/-- After any sequence of allocations for pids without entry and releases for pids with one,
the pages are those of boot, each once; each such call ends; an allocation attaches to the
pid as many free pages as it asks for, at the consecutive virtual addresses, or, if there are
too few, none. -/
theorem allocateur_conserve (env : Env) (malloc : ∀ n, env.malloc n = true)
    (distinctes : ∀ i < 1000, ∀ j < 1000, ∀ adr, env.memalign i = some adr →
      env.memalign j = some adr → i = j)
    {m₀ m : Memoire} (boot : createListPagesVides env noyauVide.memoire = .ok m₀)
    (suite : Relation.ReflTransGen (PagesAppelees env) m₀ m) :
    (toutesLesPages m).Perm (pagesLibres m₀) ∧ (toutesLesPages m).Nodup ∧
    (∀ op : AppelPages, op.Permise m → ∃ m', appelerPages env m op = .ok m') ∧
    ∀ pid nbPages perm m', entreesDe pid m = [] →
      allouePagesProcess env m pid nbPages perm = .ok m' →
      (nbPages ≤ m.pagesVides.length → ∃ p, entreesDe pid m' = [p] ∧
        (p.adresses.map Adresse.adresseVirt).Perm (adressesVirtuelles 0 nbPages) ∧
        (p.adresses.map Adresse.adresseVirt).Nodup ∧
        (pagesLibres m).Perm (pagesPhysiques p ++ pagesLibres m')) ∧
      (m.pagesVides.length < nbPages →
        entreesDe pid m' = [] ∧ (pagesLibres m').Perm (pagesLibres m)) := by
  obtain ⟨blocs₀, toutes, adrs, initiales, appels⟩ := createListPagesVides_pages boot
  obtain ⟨blocs, pages⟩ := appels_pages malloc blocs₀ suite
  rw [toutes] at pages
  have nodup : adrs.Nodup := by
    refine List.Nodup.of_map some ?_
    rw [appels]
    refine List.Nodup.map_on (fun i memI j memJ meme => ?_) List.nodup_range
    have rang : env.memalign i ∈ adrs.map some := by
      rw [appels]
      exact List.mem_map_of_mem memI
    obtain ⟨adr, -, alloue⟩ := List.mem_map.mp rang
    exact distinctes i (List.mem_range.mp memI) j (List.mem_range.mp memJ) adr alloue.symm
      (meme ▸ alloue.symm)
  have nombre : m.pagesVides.length ≤ 1000 := by
    have total := (pages.trans initiales).length_eq
    have mille := congrArg List.length appels
    rw [List.length_map, List.length_map, List.length_range] at mille
    rw [toutesLesPages, List.length_append, pagesLibres, List.length_map, mille] at total
    omega
  refine ⟨pages, (pages.trans initiales).nodup_iff.mpr nodup, fun op permise => ?_,
    fun pid nbPages perm m' sans run => ?_⟩
  · obtain ⟨m', run, -⟩ := appelerPages_ok malloc blocs permise
    exact ⟨m', run⟩
  · obtain ⟨m₁, run₁, deplace, assez, trop⟩ := alloue_ok malloc nbPages perm blocs sans
    cases run.symm.trans run₁
    have libres := deplace_libres deplace
    rw [sans, List.flatMap_nil, List.append_nil] at libres
    constructor
    · intro place
      obtain ⟨p, seule, virt⟩ := assez place
      rw [seule, List.flatMap_singleton] at libres
      exact ⟨p, seule, virt, virt.nodup_iff.mpr (adressesVirtuelles_nodup (place.trans nombre)),
        (libres.symm.trans List.perm_append_comm)⟩
    · intro manque
      have vide := trop manque
      rw [vide, List.flatMap_nil, List.append_nil] at libres
      exact ⟨vide, libres⟩

theorem ok_of_toOption {m : Memoire} {r : Except Faute Memoire} (valeur : r.toOption = some m) :
    r = .ok m := by
  cases r with
  | error e => cases valeur
  | ok m' => exact congrArg Except.ok (Option.some.inj valeur)

theorem allocateur_conserve_exemple : ∃ m₀ m, createListPagesVides Env.exemple noyauVide.memoire = .ok m₀ ∧
    Relation.ReflTransGen (PagesAppelees Env.exemple) m₀ m ∧ m.pagesVides.length = 998 ∧
    (toutesLesPages m).Perm (pagesLibres m₀) ∧ (toutesLesPages m).Nodup ∧
    ∃ m', allouePagesProcess Env.exemple m 4 999 .write = .ok m' ∧ entreesDe 4 m' = [] := by
  have run : (createListPagesVides Env.exemple noyauVide.memoire).toOption.any (fun m₀ =>
      decide (entreesDe 3 m₀ = []) &&
      (appelerPages Env.exemple m₀ (.alloue 3 2 .read)).toOption.any fun m =>
        decide (entreesDe 4 m = [] ∧ m.pagesVides.length = 998)) = true := by
    decide +kernel
  obtain ⟨m₀, boot, run⟩ := (Option.any_eq_true ..).mp run
  obtain ⟨test₀, run⟩ := Bool.and_eq_true_iff.mp run
  obtain ⟨m, alloue, test⟩ := (Option.any_eq_true ..).mp run
  have sans := of_decide_eq_true test₀
  obtain ⟨sans', pages⟩ := of_decide_eq_true test
  have boot := ok_of_toOption boot
  have suite : Relation.ReflTransGen (PagesAppelees Env.exemple) m₀ m :=
    .single ⟨.alloue 3 2 .read, sans, ok_of_toOption alloue⟩
  have distinctes : ∀ i < 1000, ∀ j < 1000, ∀ adr, Env.exemple.memalign i = some adr →
      Env.exemple.memalign j = some adr → i = j := by
    intro i iBorne j jBorne adr un deux
    have nats := congrArg BitVec.toNat (Option.some.inj (un.trans deux.symm))
    simp only [BitVec.toNat_ofNat] at nats
    omega
  obtain ⟨perm, nodup, finit, effet⟩ := allocateur_conserve Env.exemple (fun _ => rfl) distinctes boot suite
  obtain ⟨m', run'⟩ := finit (.alloue 4 999 .write) sans'
  exact ⟨m₀, m, boot, suite, pages, perm, nodup, m', run',
    ((effet 4 999 .write m' sans' run').2 (by omega)).1⟩

end ProjetSysteme.Properties
