/- Invariant/Health
   digest: The invariant Sain holds in every state of a run whose kills spare the blocked processes. -/

import ProjetSysteme.Invariant.Frame

set_option autoImplicit false
set_option relaxedAutoImplicit false

namespace ProjetSysteme.Invariant

open Kernel Library Library.PriorityList Library.Outcome

/-- The two lists of the queue hold each process once, and its counters count. -/
structure FileExacte (f : FileMessage) : Prop where
  recepteurs : (f.listeProcBloqueReception.map ProcessBloque.pid).Nodup
  emetteurs : (f.listeProcBloqueEnvoi.map ProcessBloque.pid).Nodup
  nbprocRecep : f.nbprocRecep = f.listeProcBloqueReception.length
  nbprocEnvoi : f.nbprocEnvoi = f.listeProcBloqueEnvoi.length
  nbelem : f.nbelem = f.file.length

theorem FilesSaines.exacte {k : Noyau} (files : FilesSaines k) (fid : IndiceFile) :
    FileExacte (k.files fid) :=
  ⟨files.recepteurs_nodup fid, files.emetteurs_nodup fid, files.nbprocRecep fid,
    files.nbprocEnvoi fid, files.nbelem fid⟩

theorem FilesSaines.of_exacte {k : Noyau} (regles : (canaux k).Wf)
    (exacte : ∀ fid, FileExacte (k.files fid)) : FilesSaines k :=
  ⟨regles, fun fid => (exacte fid).recepteurs, fun fid => (exacte fid).emetteurs,
    fun fid => (exacte fid).nbprocRecep, fun fid => (exacte fid).nbprocEnvoi,
    fun fid => (exacte fid).nbelem⟩

/-- A blocked list after an event: nodes have left it, or the running process has entered it. -/
def SuitListe (k : Noyau) (l l' : List ProcessBloque) : Prop :=
  l'.Sublist l ∨ ∃ a, k.pidActif = some a ∧ l' = place ProcessBloque.prio (noeud k a) l

theorem SuitListe.refl (k : Noyau) (l : List ProcessBloque) : SuitListe k l l :=
  .inl (List.Sublist.refl l)

theorem SuitListe.nil (k : Noyau) (l : List ProcessBloque) : SuitListe k l [] :=
  .inl (List.nil_sublist l)

theorem SuitListe.dropLast (k : Noyau) (l : List ProcessBloque) : SuitListe k l l.dropLast :=
  .inl (List.dropLast_sublist l)

theorem SuitListe.place {k : Noyau} {a : Indice} (actif : k.pidActif = some a)
    (l : List ProcessBloque) : SuitListe k l (place ProcessBloque.prio (noeud k a) l) :=
  .inr ⟨a, actif, rfl⟩

structure FileSuivie (k : Noyau) (f f' : FileMessage) : Prop where
  exacte : FileExacte f'
  receptions : SuitListe k f.listeProcBloqueReception f'.listeProcBloqueReception
  envois : SuitListe k f.listeProcBloqueEnvoi f'.listeProcBloqueEnvoi

theorem fileVidee_suivie (k : Noyau) (f : FileMessage) : FileSuivie k f (fileVidee f) :=
  ⟨⟨List.nodup_nil, List.nodup_nil, rfl, rfl, rfl⟩, .nil k _, .nil k _⟩

theorem FilesSaines.suivie {k : Noyau} (files : FilesSaines k) (fid : IndiceFile) :
    FileSuivie k (k.files fid) (k.files fid) :=
  ⟨files.exacte fid, .refl k _, .refl k _⟩

theorem suivie_modifieFile {k k' : Noyau} (files : FilesSaines k) {fid : IndiceFile}
    {f : FileMessage → FileMessage} (meme : k'.files = (k.modifieFile fid f).files)
    (suivie : FileSuivie k (k.files fid) (f (k.files fid))) (g : IndiceFile) :
    FileSuivie k (k.files g) (k'.files g) := by
  rw [meme]
  by_cases cible : g = fid
  · rw [cible, Noyau.modifieFile_files_self]
    exact suivie
  · rw [Noyau.modifieFile_files_ne _ _ cible]
    exact files.suivie g

theorem modifieFile_deux {k k₁ : Noyau} {fid : IndiceFile} {f : FileMessage → FileMessage}
    (meme : k₁.files = (k.modifieFile fid f).files) (g : FileMessage → FileMessage) :
    (k₁.modifieFile fid g).files = (k.modifieFile fid fun x => g (f x)).files := by
  rw [← Noyau.modifieFile_modifieFile k fid f g]
  change (fun h => if h = fid then g (k₁.files h) else k₁.files h) = _
  rw [meme]
  rfl

theorem nodup_place {n : ProcessBloque} {l : List ProcessBloque}
    (nodup : (l.map ProcessBloque.pid).Nodup) (absent : ∀ m ∈ l, m.pid ≠ n.pid) :
    ((place ProcessBloque.prio n l).map ProcessBloque.pid).Nodup := by
  rw [((place_perm ProcessBloque.prio n l).map ProcessBloque.pid).nodup_iff, List.map_cons,
    List.nodup_cons]
  refine ⟨fun mem => ?_, nodup⟩
  obtain ⟨m, mem, meme⟩ := List.mem_map.mp mem
  exact absent m mem meme

theorem nodup_dropLast {l : List ProcessBloque} (nodup : (l.map ProcessBloque.pid).Nodup) :
    (l.dropLast.map ProcessBloque.pid).Nodup :=
  nodup.sublist ((List.dropLast_sublist l).map _)

theorem length_dropLast_of_last {l : List ProcessBloque} {q : ProcessBloque}
    (dernier : l.getLast? = some q) : (l.length : Int) - 1 = l.dropLast.length := by
  have positif := List.length_pos_of_mem (last_mem dernier)
  rw [List.length_dropLast]
  omega

theorem EffetFile.suivie {e : Evenement} {k k' : Noyau} (sain : Sain k) (effet : EffetFile e k k')
    (g : IndiceFile) : FileSuivie k (k.files g) (k'.files g) := by
  have files := sain.files
  cases effet with
  | @creer a fid count nbFiles actif avant appel positif libre =>
      have stored : (k.files fid).file = [] := files.regles.stored_of_closed libre
      refine suivie_modifieFile files (f := nouvelleFile count) rfl ?_ g
      exact ⟨⟨List.nodup_nil, List.nodup_nil, rfl, rfl, by simp [nouvelleFile, stored]⟩, .nil k _,
        .nil k _⟩
  | @bloquerReception k₁ a fid actif nonZero appel vide drapeau change =>
      have exacte := files.exacte fid
      have absent : ∀ m ∈ (k.files fid).listeProcBloqueReception, m.pid ≠ (noeud k a).pid :=
        fun m mem => sain.recepteur_passif actif mem
      refine suivie_modifieFile files (modifieFile_deux (change.files.trans (Noyau.suspend_files ..)) _) ?_ g
      exact ⟨⟨nodup_place exacte.recepteurs absent, exacte.emetteurs,
        by simp [place_length, exacte.nbprocRecep], exacte.nbprocEnvoi, exacte.nbelem⟩,
        .place actif _, .refl k _⟩
  | @bloquerEnvoi k₁ a fid message actif nonZero appel neuf plein drapeau change =>
      have exacte := files.exacte fid
      have absent : ∀ m ∈ (k.files fid).listeProcBloqueEnvoi, m.pid ≠ (noeud k a).pid :=
        fun m mem => sain.emetteur_passif actif mem
      refine suivie_modifieFile files (modifieFile_deux (change.files.trans (Noyau.suspend_files ..)) _) ?_ g
      exact ⟨⟨exacte.recepteurs, nodup_place exacte.emetteurs absent, exacte.nbprocRecep,
        by simp [place_length, exacte.nbprocEnvoi], exacte.nbelem⟩, .refl k _, .place actif _⟩
  | @prendre a fid message reste actif appel drapeau tete sans =>
      have exacte := files.exacte fid
      have nbelem := exacte.nbelem
      rw [tete, List.length_cons] at nbelem
      refine suivie_modifieFile files (f := fun f => { f with file := reste, nbelem := f.nbelem - 1 })
        rfl ⟨⟨exacte.recepteurs, exacte.emetteurs, exacte.nbprocRecep, exacte.nbprocEnvoi, ?_⟩,
          .refl k _, .refl k _⟩ g
      simp only [nbelem]
      omega
  | @prendreReveil k₁ a fid message reste q actif nonZero appel drapeau tete plein dernier change =>
      have exacte := files.exacte fid
      have nbelem := exacte.nbelem
      rw [tete, List.length_cons] at nbelem
      refine suivie_modifieFile files (modifieFile_deux (change.files.trans
        ((Noyau.suspend_files ..).trans (Noyau.noter_files ..))) _) ?_ g
      refine ⟨⟨exacte.recepteurs, nodup_dropLast exacte.emetteurs, exacte.nbprocRecep, ?_, ?_⟩,
        .refl k _, .dropLast k _⟩
      · simp only [exacte.nbprocEnvoi]
        exact length_dropLast_of_last dernier
      · simp only [nbelem]
        omega
  | @deposer a fid message actif appel place drapeau sans =>
      have exacte := files.exacte fid
      refine suivie_modifieFile files (f := fun f =>
        { f with file := f.file ++ [message], nbelem := f.nbelem + 1 }) rfl ?_ g
      exact ⟨⟨exacte.recepteurs, exacte.emetteurs, exacte.nbprocRecep, exacte.nbprocEnvoi,
        by simp [exacte.nbelem]⟩, .refl k _, .refl k _⟩
  | @deposerReveil k₁ a fid message q actif appel place drapeau vide dernier change =>
      have exacte := files.exacte fid
      change FileSuivie k _
        ((k₁.modifieFile fid fun f => { f with nbprocRecep := f.nbprocRecep - 1 }).files g)
      refine suivie_modifieFile files (modifieFile_deux (change.files.trans (Noyau.noter_files ..)) _) ?_ g
      refine ⟨⟨nodup_dropLast exacte.recepteurs, exacte.emetteurs, ?_, exacte.nbprocEnvoi,
        by simp [exacte.nbelem]⟩, .dropLast k _, .refl k _⟩
      simp only [exacte.nbprocRecep]
      exact length_dropLast_of_last dernier
  | @refuser a fid actif appel drapeau => exact files.suivie g
  | @abandonner a fid message actif reprise suite plein => exact files.suivie g
  | @vider k₁ a fid n actif avant appel ouverte vide =>
      exact suivie_modifieFile files vide.files (fileVidee_suivie k _) g
  | @supprimer k₁ a fid n nbFiles actif avant appel ouverte vide =>
      change FileSuivie k _
        ((k₁.modifieFile fid fun f => { f with size := 0, statut := false }).files g)
      refine suivie_modifieFile files (modifieFile_deux vide.files _) ?_ g
      exact ⟨⟨List.nodup_nil, List.nodup_nil, rfl, rfl, rfl⟩, .nil k _, .nil k _⟩

theorem Effet.simule {e : Evenement} {k k' : Noyau} (sain : Sain k) (propre : KillPropre k e)
    (enregistre : Enregistre k e) (effet : Effet e k k') :
    ∃ act, Channel.Step (canaux k) act (canaux k') ∧ Etiquette k e act := by
  cases effet with
  | processus effet => exact effet.simule sain propre
  | file effet => exact effet.simule sain enregistre

theorem Effet.bilan {e : Evenement} {k k' : Noyau} (sain : Sain k) (propre : KillPropre k e)
    (effet : Effet e k k') : Bilan e k k' := by
  cases effet with
  | processus effet => exact effet.bilan sain propre
  | file effet => exact effet.bilan sain

theorem Effet.postures {e : Evenement} {k k' : Noyau} (sain : Sain k) (effet : Effet e k k') :
    Postures k' := by
  cases effet with
  | processus effet => exact effet.postures sain
  | file effet => exact effet.postures sain

theorem Effet.suivie {e : Evenement} {k k' : Noyau} (sain : Sain k) (effet : Effet e k k')
    (fid : IndiceFile) : FileSuivie k (k.files fid) (k'.files fid) := by
  cases effet with
  | processus effet =>
      have files : k'.files = k.files := by
        rcases effet.epargne sain with epargne | ⟨i, retire⟩
        · exact epargne.files
        · exact retire.epargne.files
      rw [files]
      exact sain.files.suivie fid
  | file effet => exact effet.suivie sain fid

theorem Effet.files {e : Evenement} {k k' : Noyau} (sain : Sain k) (propre : KillPropre k e)
    (enregistre : Enregistre k e) (effet : Effet e k k') : FilesSaines k' := by
  obtain ⟨act, pas, _⟩ := effet.simule sain propre enregistre
  exact .of_exacte (pas.wf sain.files.regles) fun fid => (effet.suivie sain fid).exacte

section Recording

variable (k : Noyau) (e : Evenement)

theorem enregistrer_cas : enregistrer k e = k ∨
    ∃ a x, e = .appel x ∧ k.pidActif = some a ∧ enregistrer k e = k.noter (.appel a x) := by
  unfold enregistrer
  split
  · next x a actif => exact .inr ⟨a, x, rfl, actif, rfl⟩
  · exact .inl rfl

theorem enregistrer_files : (enregistrer k e).files = k.files := by
  rcases enregistrer_cas k e with meme | ⟨a, x, _, _, note⟩
  · rw [meme]
  · rw [note]
    rfl

theorem enregistrer_console : (enregistrer k e).console = k.console := by
  rcases enregistrer_cas k e with meme | ⟨a, x, _, _, note⟩
  · rw [meme]
  · rw [note]
    rfl

variable {k e}

theorem KillPropre.enregistrer (propre : KillPropre k e) : KillPropre (enregistrer k e) e := by
  unfold KillPropre HorsListes at propre ⊢
  rw [enregistrer_files, lecteurs_congr (congrArg Console.attente (enregistrer_console k e))]
  exact propre

theorem emet_enregistrer {a : Indice} {fid : IndiceFile} {message : Int} :
    Emet (enregistrer k e) e a fid message ↔ Emet k e a fid message := by
  simp only [Emet, fileOuverte?, enregistrer_files, enregistrer_table]

theorem recoit_enregistrer {a : Indice} {fid : IndiceFile} :
    Recoit (enregistrer k e) e a fid ↔ Recoit k e a fid := by
  simp only [Recoit, fileOuverte?, enregistrer_files, enregistrer_table]

theorem enregistre_of_permis (autorise : permis k e = true) : Enregistre (enregistrer k e) e := by
  rintro a x rfl actif
  rw [enregistrer_pidActif] at actif
  simp only [permis, actif, Bool.and_eq_true, decide_eq_true_eq] at autorise
  rw [enregistrer_table]
  refine ⟨autorise.1, k.journal, ?_⟩
  simp [enregistrer, actif, Noyau.noter]

end Recording

theorem Etape.suivie {e : Evenement} {k k' : Noyau} (sain : Sain k) (etape : Etape e k k')
    (fid : IndiceFile) : FileSuivie k (k.files fid) (k'.files fid) := by
  obtain ⟨k₁, effet, fin⟩ := etape
  have files : k'.files = k₁.files := by
    rcases fin with rfl | ord
    · rfl
    · rw [ord.noyau]
  obtain ⟨exacte, receptions, envois⟩ := effet.suivie (sain.enregistrer e) fid
  rw [files]
  simp only [SuitListe, enregistrer_files, enregistrer_pidActif, noeud, getprio, enregistrer_table]
    at receptions envois
  exact ⟨exacte, receptions, envois⟩

theorem Etape.simule {e : Evenement} {k k' : Noyau} (sain : Sain k) (autorise : permis k e = true)
    (propre : KillPropre k e) (etape : Etape e k k') :
    (canaux (enregistrer k e) = canaux k ∨
      ∃ a, Channel.Step (canaux k) (.call a) (canaux (enregistrer k e))) ∧
    ∃ act, Channel.Step (canaux (enregistrer k e)) act (canaux k') ∧
      Etiquette (enregistrer k e) e act := by
  constructor
  · rcases enregistrer_cas k e with meme | ⟨a, x, rfl, actif, note⟩
    · exact .inl (by rw [meme])
    · refine .inr ⟨a, ?_⟩
      have fait : evenementDe (.appel a x) = some (.called a) := rfl
      rw [note, canaux_noter k fait]
      simp only [permis, actif, Bool.and_eq_true, decide_eq_true_eq] at autorise
      refine .call (phase_horsFile ?_)
      rw [autorise.1]
      trivial
  · obtain ⟨k₁, effet, fin⟩ := etape
    obtain ⟨act, pas, etiquette⟩ :=
      effet.simule (sain.enregistrer e) propre.enregistrer (enregistre_of_permis autorise)
    refine ⟨act, ?_, etiquette⟩
    rcases fin with rfl | ord
    · exact pas
    · rwa [canaux_ordonnance ord]

theorem Ordonnance.sain {k k' : Noyau} (ord : Ordonnance k k') (stable : Stable k')
    (tenu : ∀ a, k.pidActif = some a → (k.table a).etat ≠ .activable) (postures : Postures k)
    (valeurs : Valeurs k) (drapeau : ∀ i, (k.table i).valresetfile = 0 ∨ (k.table i).valresetfile = 1)
    (files : FilesSaines k) (console : ConsoleSaine k) : Sain k' where
  stable := stable
  actif a actif := by
    by_cases vide : k.activables = []
    · rcases stable with depart | ⟨b, cours⟩
      · rw [depart.pidActif] at actif
        cases actif
      · have meme : b = a := Option.some.inj (cours.pidActif.symm.trans actif)
        subst meme
        refine cours.courant.resolve_right fun activable => ?_
        rw [ord.vide vide] at actif activable
        exact tenu b actif activable
    · obtain ⟨b, elu, etat⟩ := ord.elu vide
      rw [← Option.some.inj (elu.symm.trans actif)]
      exact etat
  posture i := (postures i).ordonnance ord
  valeurs c vivant := by
    have vivant₀ : (k.table c).etat ≠ .mort := mt (ord.etat_iff (by simp) (by simp) c).mpr vivant
    rw [ord.champs, ord.noyau]
    exact valeurs c vivant₀
  drapeau i := by
    rw [ord.champs]
    exact drapeau i
  files := by
    have meme : k'.files = k.files := by rw [ord.noyau]
    refine .of_exacte ?_ fun fid => ?_
    · rw [canaux_ordonnance ord]
      exact files.regles
    · rw [meme]
      exact files.exacte fid
  console := by
    have meme : k'.console = k.console := by rw [ord.noyau]
    have liste : lecteurs k' = lecteurs k := lecteurs_congr (by rw [meme])
    refine ⟨by rw [liste, meme]; exact console.chainee, fun i mem => ?_⟩
    exact (ord.etat_iff (by simp) (by simp) i).mpr (console.bloques i (liste ▸ mem))

theorem Etape.sain {e : Evenement} {k k' : Noyau} (sain : Sain k) (autorise : permis k e = true)
    (propre : KillPropre k e) (etape : Etape e k k') (stable : Stable k') : Sain k' := by
  obtain ⟨k₁, effet, fin⟩ := etape
  have sain₀ := sain.enregistrer e
  have enregistre := enregistre_of_permis autorise
  have bilan := effet.bilan sain₀ propre.enregistrer
  have postures := effet.postures sain₀
  have files := effet.files sain₀ propre.enregistrer enregistre
  have tenu : ∀ a, k₁.pidActif = some a → (k₁.table a).etat ≠ .activable := fun a actif =>
    (bilan.tenu a).actif (bilan.pidActif ▸ actif)
  rcases fin with rfl | ord
  · refine ⟨stable, fun a actif => ?_, postures, fun c => (bilan.tenu c).valeur,
      fun i => (bilan.tenu i).drapeau, files, bilan.console⟩
    rcases stable with depart | ⟨b, cours⟩
    · rw [depart.pidActif] at actif
      cases actif
    · have meme : b = a := Option.some.inj (cours.pidActif.symm.trans actif)
      subst meme
      exact cours.courant.resolve_right (tenu b actif)
  · exact ord.sain stable tenu postures (fun c => (bilan.tenu c).valeur)
      (fun i => (bilan.tenu i).drapeau) files bilan.console

theorem sain_of_boot (env : Env) {k₀ : Noyau} (boot : initialiserGestionDesProcessus env = .ok k₀) :
    Sain k₀ := by
  have depart := initialiser_depart env boot
  obtain ⟨memoire, _, valeur⟩ := bind_ok boot
  cases valeur
  refine ⟨.inl depart, fun a actif => ?_, fun i => .of_fin (.inl rfl), fun c vivant => ?_,
    fun _ => .inl rfl, .of_exacte ⟨?_, ?_, ?_, ?_⟩ ?_, ?_, ?_⟩
  · rw [depart.pidActif] at actif
    cases actif
  · exact absurd rfl vivant
  · intro fid p mem
    simp [canaux, canalDe, noyauVide] at mem
  · intro fid p mem
    simp [canaux, canalDe, noyauVide] at mem
  · intro fid
    simp [canaux, canalDe, noyauVide]
  · intro fid _
    simp [canaux, canalDe, noyauVide]
  · intro fid
    exact ⟨List.nodup_nil, List.nodup_nil, rfl, rfl, rfl⟩
  · exact (lecteurs_of_chainee (k := { noyauVide with memoire := memoire }) .boot).symm ▸ .boot
  · intro i mem
    rw [lecteurs_of_chainee .boot] at mem
    cases mem

theorem Sain.pas (env : Env) {k k' : Noyau} {e : Evenement} (sain : Sain k)
    (autorise : permis k e = true) (propre : KillPropre k e) (resultat : pas env k e = .ok k') :
    Etape e k k' ∧ Sain k' := by
  have etape := (pas_ok env sain autorise).of_ok resultat
  have stable := ((pas_sat env sain.stable autorise).of_ok resultat).1
  exact ⟨etape, etape.sain sain autorise propre stable⟩

/-- The invariant holds in every state of a run in which no kill reaches a process
chained on a queue. -/
theorem sain_of_atteint (env : Env) {C : Noyau → Evenement → Prop}
    (propre : ∀ k e, Sain k → C k e → KillPropre k e) {k : Noyau} (atteint : Atteint env C k) :
    Sain k := by
  refine Atteint.induction env (fun k₀ boot => sain_of_boot env boot) ?_ atteint
  intro k e k' _ sain autorise condition resultat
  exact (sain.pas env autorise (propre k e sain condition) resultat).2

end ProjetSysteme.Invariant
