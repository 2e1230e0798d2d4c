/- Properties/QueueAllocation
   source: kernel/file.c
   digest: Queue identifiers are allocated without clash or leak. -/

import Mathlib.Data.Fintype.Card
import ProjetSysteme.Properties.QueueIds

set_option autoImplicit false
set_option relaxedAutoImplicit false

namespace ProjetSysteme.Properties

open Kernel Invariant

/-- The queues whose `statut` is not 0. -/
def ouvertes (k : Noyau) : Finset IndiceFile := Finset.univ.filter fun f => (k.files f).statut = true

theorem mem_ouvertes {k : Noyau} {f : IndiceFile} : f ∈ ouvertes k ↔ (k.files f).statut = true := by
  unfold ouvertes
  rw [Finset.mem_filter]
  exact and_iff_right (Finset.mem_univ f)

/-- A call on the table of queues. -/
inductive OperationFiles
  | pcreate (count : Int)
  | pdelete (fid : IndiceFile)
  | preset (fid : IndiceFile)
  deriving DecidableEq, Repr

/-- The call made by process `actif`. -/
def executerFiles (env : Env) (k : Noyau) (actif : Indice) : OperationFiles → Resultat
  | .pcreate count => pcreate k actif count
  | .pdelete fid => pdelete env k actif (fid.val : Int)
  | .preset fid => preset env k actif (fid.val : Int)

structure FileVide (f : FileMessage) : Prop where
  nbelem : f.nbelem = 0
  nbprocEnvoi : f.nbprocEnvoi = 0
  nbprocRecep : f.nbprocRecep = 0
  file : f.file = []
  reception : f.listeProcBloqueReception = []
  envoi : f.listeProcBloqueEnvoi = []

theorem FileVide.remise {f : FileMessage} (vide : FileVide f) :
    { f with nbelem := 0, file := [], nbprocEnvoi := 0, nbprocRecep := 0 } = f := by
  obtain ⟨nbelem, nbprocEnvoi, nbprocRecep, file, -, -⟩ := vide
  rw [← nbelem]
  cases f
  simp only at nbelem nbprocEnvoi nbprocRecep file
  simp only [nbelem, nbprocEnvoi, nbprocRecep, file]

structure TableFiles (k : Noyau) : Prop where
  vides : ∀ f, FileVide (k.files f)
  compte : k.nbFiles = (ouvertes k).card

theorem TableFiles.of_zero {k : Noyau} (files : k.files = noyauVide.files) (compte : k.nbFiles = 0) : TableFiles k where
  vides := by
    intro f
    rw [files]
    exact ⟨rfl, rfl, rfl, rfl, rfl, rfl⟩
  compte := by
    have aucune : ouvertes k = ∅ := by
      refine Finset.filter_eq_empty_iff.mpr fun f _ => ?_
      rw [files]
      exact Bool.false_ne_true
    rw [compte, aucune]
    rfl

private theorem ouvertes_ouvrir {k k' : Noyau} {fid : IndiceFile} {g : FileMessage → FileMessage}
    (files : k'.files = (k.modifieFile fid g).files) (statut : (g (k.files fid)).statut = true) :
    ouvertes k' = insert fid (ouvertes k) := by
  ext f
  rw [mem_ouvertes, Finset.mem_insert, mem_ouvertes, files]
  by_cases meme : f = fid
  · subst meme
    rw [Noyau.modifieFile_files_self]
    exact iff_of_true statut (.inl rfl)
  · rw [Noyau.modifieFile_files_ne k g meme]
    exact (or_iff_right meme).symm

private theorem ouvertes_fermer {k k' : Noyau} {fid : IndiceFile} {g : FileMessage → FileMessage}
    (files : k'.files = (k.modifieFile fid g).files) (statut : (g (k.files fid)).statut = false) :
    ouvertes k' = (ouvertes k).erase fid := by
  ext f
  rw [mem_ouvertes, Finset.mem_erase, mem_ouvertes, files]
  by_cases meme : f = fid
  · subst meme
    rw [Noyau.modifieFile_files_self, statut]
    exact iff_of_false Bool.false_ne_true fun autre => autre.1 rfl
  · rw [Noyau.modifieFile_files_ne k g meme]
    exact (and_iff_right meme).symm

private theorem vides_modifie {k k' : Noyau} {fid : IndiceFile} {g : FileMessage → FileMessage}
    (files : k'.files = (k.modifieFile fid g).files) (vides : ∀ f, FileVide (k.files f))
    (vide : FileVide (g (k.files fid))) (f : IndiceFile) : FileVide (k'.files f) := by
  rw [files]
  by_cases meme : f = fid
  · subst meme
    rw [Noyau.modifieFile_files_self]
    exact vide
  · rw [Noyau.modifieFile_files_ne k g meme]
    exact vides f

private theorem reinitialiser_vide {k : Noyau} {f : IndiceFile} (vide : FileVide (k.files f)) :
    ∃ k', reinitialiser k f = .ok k' ∧ k'.files = k.files ∧ k'.nbFiles = k.nbFiles := by
  let k₁ := (k.modifieFile f fun f => { f with file := [], nbelem := 0 }).noter (.rejet f (k.files f).file)
  have meme : (k₁.modifieFile f fun f => { f with nbprocEnvoi := 0, nbprocRecep := 0 }).files = k.files := by
    funext g
    by_cases ici : g = f
    · subst ici
      rw [Noyau.modifieFile_files_self, Noyau.noter_files, Noyau.modifieFile_files_self]
      exact vide.remise
    · rw [Noyau.modifieFile_files_ne _ _ ici, Noyau.noter_files, Noyau.modifieFile_files_ne _ _ ici]
  have listes : (k₁.files f).listeProcBloqueReception = [] ∧ (k₁.files f).listeProcBloqueEnvoi = [] := by
    rw [Noyau.noter_files, Noyau.modifieFile_files_self]
    exact ⟨vide.reception, vide.envoi⟩
  refine ⟨k₁.modifieFile f fun f => { f with nbprocEnvoi := 0, nbprocRecep := 0 }, ?_, meme, rfl⟩
  change (do
    let k ← libererBloques .bloqueSurReception (retirerReception f) (k₁.files f).listeProcBloqueReception.reverse k₁
    let k ← libererBloques .bloqueSurEnvoi (retirerEnvoi f) (k.files f).listeProcBloqueEnvoi.reverse k
    .ok (k.modifieFile f fun f => { f with nbprocEnvoi := 0, nbprocRecep := 0 })) = _
  simp only [listes, List.reverse_nil, libererBloques, bind, Except.bind]

private theorem gardePreset_indice (env : Env) (k : Noyau) (f : IndiceFile) :
    gardePreset env k (f.val : Int) = .ok (if (k.files f).statut then some f else none) := by
  have borne := f.isLt
  unfold gardePreset
  rw [if_neg (by omega), fileOuverte?, indiceFile_val]

theorem preset_table (env : Env) {k : Noyau} (table : TableFiles k) (actif : Indice) (f : IndiceFile) :
    ∃ k', preset env k actif (f.val : Int) = .ok k' ∧ k'.files = k.files ∧ k'.nbFiles = k.nbFiles := by
  cases statut : (k.files f).statut with
  | false =>
      refine ⟨k.renvoie actif (-1), ?_, rfl, rfl⟩
      simp only [preset, gardePreset_indice, statut, bind, Except.bind, Bool.false_eq_true, if_false]
  | true =>
      obtain ⟨k', run, files, compte⟩ := reinitialiser_vide (table.vides f)
      refine ⟨k'.renvoie actif 0, ?_, files, compte⟩
      simp only [preset, gardePreset_indice, statut, run, bind, Except.bind, if_true]

theorem pdelete_table {env : Env} {k : Noyau} (table : TableFiles k) (actif : Indice) (f : IndiceFile) :
    ∃ k', pdelete env k actif (f.val : Int) = .ok k' ∧
      (k'.table actif).suite = .retour (if (k.files f).statut then 0 else -1) ∧ TableFiles k' ∧
      ouvertes k' = (ouvertes k).erase f ∧ ∀ g ≠ f, k'.files g = k.files g := by
  cases statut : (k.files f).statut with
  | false =>
      have dehors : f ∉ ouvertes k := by
        rw [mem_ouvertes, statut]
        exact Bool.false_ne_true
      refine ⟨k.renvoie actif (-1), ?_, ?_, ⟨table.vides, table.compte⟩, (Finset.erase_eq_of_notMem dehors).symm,
        fun _ _ => rfl⟩
      · simp only [pdelete, gardePreset_indice, statut, bind, Except.bind, Bool.false_eq_true, if_false]
      · rw [Noyau.renvoie, Noyau.suspend_table_self]
        rfl
  | true =>
      obtain ⟨k', run, files, compte⟩ := reinitialiser_vide (table.vides f)
      let ferme : FileMessage → FileMessage := fun g => { g with size := 0, statut := false }
      have dans : f ∈ ouvertes k := mem_ouvertes.mpr statut
      have toutes : ouvertes k' = ouvertes k := by
        unfold ouvertes
        rw [files]
      let k₂ := k'.modifieFile f ferme
      have moins : ouvertes (({ k₂ with nbFiles := k₂.nbFiles - 1 }.noter (.destruction f)).renvoie actif 0) =
          (ouvertes k).erase f := toutes ▸ ouvertes_fermer (g := ferme) rfl rfl
      refine ⟨({ k₂ with nbFiles := k₂.nbFiles - 1 }.noter (.destruction f)).renvoie actif 0, ?_, ?_, ⟨?_, ?_⟩, moins, ?_⟩
      · simp only [pdelete, gardePreset_indice, statut, run, bind, Except.bind, if_true]
        rfl
      · rw [Noyau.renvoie, Noyau.suspend_table_self]
        rfl
      · refine vides_modifie (k := k') (g := ferme) rfl (fun g => files ▸ table.vides g) ?_
        obtain ⟨nbelem, nbprocEnvoi, nbprocRecep, file, reception, envoi⟩ := table.vides f
        rw [files]
        exact ⟨nbelem, nbprocEnvoi, nbprocRecep, file, reception, envoi⟩
      · have positif : 0 < (ouvertes k).card := Finset.card_pos.mpr ⟨f, dans⟩
        have avant : k₂.nbFiles = (ouvertes k).card := compte.trans table.compte
        rw [moins, Finset.card_erase_of_mem dans]
        change k₂.nbFiles - 1 = _
        omega
      · intro g autre
        change k₂.files g = k.files g
        rw [Noyau.modifieFile_files_ne k' ferme autre, files]

private theorem chercher_libre_premier {k : Noyau} {f : IndiceFile} (libre : (k.files f).statut = false)
    (avant : ∀ g < f, (k.files g).statut = true) (tours : Nat) {i : Nat} (debut : i ≤ f.val) (assez : f.val < i + tours) :
    chercherLibre k tours (i : Int) = .ok (f.val : Int) := by
  induction tours generalizing i with
  | zero => omega
  | succ tours ih =>
      have borne := f.isLt
      have indice : indiceFile? (i : Int) = some ⟨i, by omega⟩ := indiceFile_val ⟨i, by omega⟩
      unfold chercherLibre
      rw [indice]
      rcases Nat.eq_or_lt_of_le debut with ici | plus
      · subst ici
        simp only [Fin.eta, libre, Bool.false_eq_true, false_and, if_false]
      · have occupee := avant ⟨i, by omega⟩ plus
        have pasFin : (i : Int) ≠ nbQueue := by omega
        simp only [occupee, pasFin, ne_eq, not_false_eq_true, and_self, if_true]
        exact ih (i := i + 1) plus (by omega)

private theorem chercher_libre_plein {k : Noyau} (occupees : ∀ f, (k.files f).statut = true) (tours : Nat) {i : Nat}
    (debut : i ≤ nbQueue) (assez : nbQueue < i + tours) : chercherLibre k tours (i : Int) = .error .horsTable := by
  induction tours generalizing i with
  | zero => omega
  | succ tours ih =>
      unfold chercherLibre
      rcases Nat.eq_or_lt_of_le debut with fin | plus
      · have dehors : indiceFile? (i : Int) = none := dif_neg (by omega)
        rw [dehors]
      · have indice : indiceFile? (i : Int) = some ⟨i, plus⟩ := indiceFile_val ⟨i, plus⟩
        have pasFin : (i : Int) ≠ nbQueue := by omega
        rw [indice]
        simp only [occupees, pasFin, ne_eq, not_false_eq_true, and_self, if_true]
        exact ih (i := i + 1) plus (by omega)

private theorem premiere_of_find {k : Noyau} {f : IndiceFile}
    (recherche : (List.finRange nbQueue).find? (fun f => ¬ (k.files f).statut) = some f) :
    (k.files f).statut = false ∧ ∀ g < f, (k.files g).statut = true := by
  obtain ⟨libre, i, borne, place, avant⟩ := List.find?_eq_some_iff_getElem.mp recherche
  refine ⟨by simpa using libre, ?_⟩
  intro g plus
  have ici : i = f.val := by
    rw [← place, List.getElem_finRange]
    rfl
  have occupee := avant g.val (ici ▸ plus)
  simpa using occupee

private theorem occupees_of_find {k : Noyau}
    (recherche : (List.finRange nbQueue).find? (fun f => ¬ (k.files f).statut) = none) (f : IndiceFile) :
    (k.files f).statut = true := by
  have occupee := List.find?_eq_none.mp recherche f (List.mem_finRange f)
  simpa using occupee

theorem pcreate_chercher (k : Noyau) (actif : Indice) (count : Int) :
    pcreate k actif count =
      if k.nbFiles ≥ nbQueue ∨ count ≤ 0 ∨ count > tailleMaxFile then .ok (k.renvoie actif (-1))
      else match chercherLibre k (nbQueue + 1) 0 with
        | .error faute => .error (.faute faute)
        | .ok i => match indiceFile? i with
          | none => .ok (k.renvoie actif (-1))
          | some f =>
            let k := k.modifieFile f (nouvelleFile count)
            .ok (({ k with nbFiles := k.nbFiles + 1 }.noter (.creation f)).renvoie actif i) := by
  unfold pcreate
  split
  · rfl
  · cases recherche : (List.finRange nbQueue).find? (fun f => ¬ (k.files f).statut) with
    | none =>
        have boucle := chercher_libre_plein (occupees_of_find recherche) (nbQueue + 1) (i := 0) (Nat.zero_le _) (by omega)
        rw [Int.natCast_zero] at boucle
        rw [boucle]
    | some f =>
        obtain ⟨libre, avant⟩ := premiere_of_find recherche
        have boucle := chercher_libre_premier libre avant (nbQueue + 1) (i := 0) (Nat.zero_le _) (by omega)
        rw [Int.natCast_zero] at boucle
        rw [boucle]
        simp only [indiceFile_val]

theorem premiere_libre {k : Noyau} (place : (ouvertes k).card < nbQueue) :
    ∃ f, (List.finRange nbQueue).find? (fun f => ¬ (k.files f).statut) = some f := by
  cases recherche : (List.finRange nbQueue).find? (fun f => ¬ (k.files f).statut) with
  | none =>
      have toutes : ouvertes k = Finset.univ :=
        Finset.eq_univ_of_forall fun f => mem_ouvertes.mpr (occupees_of_find recherche f)
      rw [toutes, Finset.card_univ, Fintype.card_fin] at place
      exact absurd place (Nat.lt_irrefl _)
  | some f => exact ⟨f, rfl⟩

theorem pcreate_libre {k : Noyau} (table : TableFiles k) (actif : Indice) {count : Int}
    (place : (ouvertes k).card < nbQueue) (positif : 1 ≤ count) (borne : count ≤ tailleMaxFile) :
    ∃ f k', pcreate k actif count = .ok k' ∧ (k'.table actif).suite = .retour (f.val : Int) ∧
      (k.files f).statut = false ∧ chercherLibre k (nbQueue + 1) 0 = .ok (f.val : Int) ∧
      k'.files = (k.modifieFile f (nouvelleFile count)).files ∧ k'.nbFiles = k.nbFiles + 1 := by
  obtain ⟨f, recherche⟩ := premiere_libre place
  obtain ⟨libre, avant⟩ := premiere_of_find recherche
  have garde : ¬ (k.nbFiles ≥ nbQueue ∨ count ≤ 0 ∨ count > tailleMaxFile) := by
    have compte := table.compte
    omega
  have trouve := chercher_libre_premier libre avant (nbQueue + 1) (i := 0) (Nat.zero_le _) (by omega)
  have run : pcreate k actif count =
      .ok (({ k.modifieFile f (nouvelleFile count) with nbFiles := k.nbFiles + 1 }.noter (.creation f)).renvoie
        actif (f.val : Int)) := by
    unfold pcreate
    rw [if_neg garde, recherche]
    rfl
  refine ⟨f, _, run, ?_, libre, trouve, rfl, rfl⟩
  rw [Noyau.renvoie, Noyau.suspend_table_self]

theorem pcreate_refus {k : Noyau} (table : TableFiles k) (actif : Indice) {count : Int}
    (impossible : ¬ (1 ≤ count ∧ count ≤ tailleMaxFile ∧ (ouvertes k).card < nbQueue)) :
    pcreate k actif count = .ok (k.renvoie actif (-1)) := by
  have garde : k.nbFiles ≥ nbQueue ∨ count ≤ 0 ∨ count > tailleMaxFile := by
    have compte := table.compte
    omega
  exact if_pos garde

theorem executer_files_table (env : Env) {k : Noyau} (table : TableFiles k) (actif : Indice) (op : OperationFiles) :
    ∃ k', executerFiles env k actif op = .ok k' ∧ TableFiles k' := by
  cases op with
  | pcreate count =>
      by_cases possible : 1 ≤ count ∧ count ≤ tailleMaxFile ∧ (ouvertes k).card < nbQueue
      · obtain ⟨f, k', run, -, libre, -, files, compte⟩ := pcreate_libre table actif possible.2.2 possible.1 possible.2.1
        have plus : ouvertes k' = insert f (ouvertes k) := ouvertes_ouvrir files rfl
        have absente : f ∉ ouvertes k := by
          rw [mem_ouvertes, libre]
          exact Bool.false_ne_true
        refine ⟨k', run, vides_modifie files table.vides ⟨rfl, rfl, rfl, (table.vides f).file, rfl, rfl⟩, ?_⟩
        rw [compte, table.compte, plus, Finset.card_insert_of_notMem absente]
        rfl
      · exact ⟨_, pcreate_refus table actif possible, table.vides, table.compte⟩
  | pdelete fid =>
      obtain ⟨k', run, -, table', -⟩ := pdelete_table table actif fid
      exact ⟨k', run, table'⟩
  | preset fid =>
      obtain ⟨k', run, files, compte⟩ := preset_table env table actif fid
      refine ⟨k', run, fun g => files ▸ table.vides g, ?_⟩
      have memes : ouvertes k' = ouvertes k := by
        unfold ouvertes
        rw [files]
      rw [compte, memes]
      exact table.compte

theorem suite_files_table (env : Env) {k : Noyau} (table : TableFiles k) (ops : List (Indice × OperationFiles)) :
    ∃ k', ops.foldlM (fun k op => executerFiles env k op.1 op.2) k = .ok k' ∧ TableFiles k' := by
  induction ops generalizing k with
  | nil => exact ⟨k, rfl, table⟩
  | cons op ops ih =>
      obtain ⟨k₁, run, table₁⟩ := executer_files_table env table op.1 op.2
      obtain ⟨k', reste, table'⟩ := ih table₁
      refine ⟨k', ?_, table'⟩
      rw [List.foldlM_cons, run]
      exact reste

/-- After every history of the three calls the search of `pcreate` stays in the table,
as it never gives `horsTable`, and `pdelete` gives its queue back. -/
theorem queue_ids_allocated (env : Env) {k₀ : Noyau} (files : k₀.files = noyauVide.files) (compte : k₀.nbFiles = 0)
    (ops : List (Indice × OperationFiles)) :
    ∃ k, ops.foldlM (fun k op => executerFiles env k op.1 op.2) k₀ = .ok k ∧ k.nbFiles = (ouvertes k).card ∧
      (∀ (actif : Indice) (count : Int),
        (1 ≤ count ∧ count ≤ tailleMaxFile ∧ (ouvertes k).card < nbQueue →
          ∃ f k', pcreate k actif count = .ok k' ∧ (k'.table actif).suite = .retour (f.val : Int) ∧
            (k.files f).statut = false ∧ chercherLibre k (nbQueue + 1) 0 = .ok (f.val : Int) ∧
            k'.files f =
              { statut := true, size := count, nbelem := 0, nbprocEnvoi := 0, nbprocRecep := 0, file := []
                listeProcBloqueReception := [], listeProcBloqueEnvoi := [] } ∧
            ∀ g ≠ f, k'.files g = k.files g) ∧
        (¬ (1 ≤ count ∧ count ≤ tailleMaxFile ∧ (ouvertes k).card < nbQueue) →
          pcreate k actif count = .ok (k.renvoie actif (-1)))) ∧
      ∀ (actif : Indice) (f : IndiceFile), ∃ k', pdelete env k actif (f.val : Int) = .ok k' ∧
        (k'.table actif).suite = .retour (if (k.files f).statut then 0 else -1) ∧
        ouvertes k' = (ouvertes k).erase f ∧ ∀ g ≠ f, k'.files g = k.files g := by
  obtain ⟨k, run, table⟩ := suite_files_table env (.of_zero files compte) ops
  refine ⟨k, run, table.compte, fun actif count => ⟨?_, pcreate_refus table actif⟩, fun actif f => ?_⟩
  case refine_2 =>
    obtain ⟨k', supprime, retour, -, reste⟩ := pdelete_table table actif f
    exact ⟨k', supprime, retour, reste⟩
  rintro ⟨positif, borne, place⟩
  obtain ⟨f, k', cree, retour, libre, trouve, change, -⟩ := pcreate_libre table actif place positif borne
  refine ⟨f, k', cree, retour, libre, trouve, ?_, ?_⟩
  · rw [change, Noyau.modifieFile_files_self, nouvelleFile, (table.vides f).file]
  · intro g autre
    rw [change, Noyau.modifieFile_files_ne _ _ autre]

theorem queue_ids_allocated_boot :
    ∃ k, [((1 : Indice), OperationFiles.pcreate 3), (1, .pcreate 512), (2, .pdelete 0), (2, .pcreate 513)].foldlM
        (fun k op => executerFiles Env.exemple k op.1 op.2) noyauVide = .ok k ∧
      k.nbFiles = (ouvertes k).card ∧ ∃ f k', pcreate k 1 7 = .ok k' ∧ (k'.table 1).suite = .retour (f : IndiceFile).val := by
  obtain ⟨k, run, compte, cree, -⟩ := @queue_ids_allocated Env.exemple noyauVide rfl rfl
    [(1, .pcreate 3), (1, .pcreate 512), (2, .pdelete 0), (2, .pcreate 513)]
  refine ⟨k, run, compte, ?_⟩
  have une : k.nbFiles = 1 := by
    cases run
    rfl
  have place : (ouvertes k).card < nbQueue := by
    have borne : (1 : Int) < nbQueue := by decide
    omega
  obtain ⟨f, k', creation, retour, -⟩ := (cree 1 7).1 ⟨by decide, by decide, place⟩
  exact ⟨f, k', creation, retour⟩

end ProjetSysteme.Properties
