/- Invariant/Release
   digest: The loops of preset, and the processes that preset and pdelete release. -/

import ProjetSysteme.Invariant.Inversion

set_option autoImplicit false
set_option relaxedAutoImplicit false

namespace ProjetSysteme.Invariant

open Kernel Library.PriorityList Library.Outcome

variable {e : Evenement} {k : Noyau} {a : Indice}

/-- Effect of one of the two loops of `preset` over the nodes `l`, when every node is
that of a process in the state that the loop expects. -/
structure Liberation (g : (IndiceFile → FileMessage) → IndiceFile → FileMessage) (k : Noyau)
    (l : List ProcessBloque) (k' : Noyau) : Prop where
  noyau : k' = { k with
    table := k'.table, activables := k'.activables, endormis := k'.endormis
    files := g^[l.length] k.files }
  valide : Valide k'
  reveille : ∀ i, (∃ n ∈ l, n.pid = i) →
    k'.table i = { k.table i with etat := .activable, valresetfile := 1 }
  autres : ∀ i, (∀ n ∈ l, n.pid ≠ i) → k'.table i = k.table i

/-- One turn of a loop of `preset`, on the node `q` of a process in the state it expects. -/
structure Tour (g : (IndiceFile → FileMessage) → IndiceFile → FileMessage) (k : Noyau)
    (q : ProcessBloque) (k' : Noyau) : Prop where
  noyau : k' = { k with
    table := k'.table, activables := k'.activables, endormis := k'.endormis, files := g k.files }
  valide : Valide k'
  soi : k'.table q.pid = { k.table q.pid with etat := .activable, valresetfile := 1 }
  autres : ∀ i, i ≠ q.pid → k'.table i = k.table i

section Loops

variable {bloque : EtatProcessus} {retirer : Noyau → Noyau}
  {g : (IndiceFile → FileMessage) → IndiceFile → FileMessage}

theorem libererBloques_tour (valide : Valide k) (nonMort : bloque ≠ .mort)
    (retire : ∀ k, retirer k = { k with files := g k.files }) {q : ProcessBloque}
    (etat : (k.table q.pid).etat = bloque) (reste : List ProcessBloque) :
    ∃ k', Tour g k q k' ∧
      libererBloques bloque retirer (q :: reste) k = libererBloques bloque retirer reste k' := by
  obtain ⟨k₁, run, change, valide₁⟩ := definirEtat_vivant valide q.pid simple_activable
    (by rw [etat]; exact nonMort)
  set k₂ := k₁.modifie q.pid fun p => { p with valresetfile := 1 } with defk₂
  have sans : MemeVue k₂ (retirer k₂) := by
    rw [retire]
    exact .of_table rfl rfl rfl rfl
  have vue : MemeVue k₁ (retirer k₂) := by
    refine MemeVue.trans (.modifie k₁ q.pid ?_) sans
    exact fun _ => ⟨rfl, rfl, rfl, rfl, rfl⟩
  have table : (retirer k₂).table = k₂.table := by rw [retire]
  refine ⟨retirer k₂, ⟨?_, valide₁.transport vue, ?_, fun i autre => ?_⟩, ?_⟩
  · rw [retire, defk₂, change.noyau]
    rfl
  · rw [table, defk₂, Noyau.modifie_table_self, change.champs, change.etat, if_pos rfl]
  · rw [table, defk₂, Noyau.modifie_table_ne _ _ autre, change.champs, change.etat, if_neg autre]
  · rw [libererBloques, if_pos etat]
    simp only [run, bind, Except.bind]
    rfl

variable (bloque retirer g)

theorem libererBloques_ok (valide : Valide k) (nonMort : bloque ≠ .mort)
    (retire : ∀ k, retirer k = { k with files := g k.files }) (l : List ProcessBloque)
    (bloques : ∀ n ∈ l, (k.table n.pid).etat = bloque) (nodup : (l.map ProcessBloque.pid).Nodup) :
    ∃ k', libererBloques bloque retirer l k = .ok k' ∧ Liberation g k l k' := by
  induction l generalizing k with
  | nil => exact ⟨k, rfl, rfl, valide, by simp, fun _ _ => rfl⟩
  | cons q reste ih =>
      obtain ⟨absent, nodup'⟩ := List.nodup_cons.mp nodup
      have distinct : ∀ n ∈ reste, n.pid ≠ q.pid := fun n mem meme =>
        absent (meme ▸ List.mem_map_of_mem mem)
      obtain ⟨k₁, tour, suite⟩ :=
        libererBloques_tour valide nonMort retire (bloques q (List.mem_cons_self ..)) reste
      obtain ⟨k', run, libere⟩ := ih tour.valide (fun n mem => by
        rw [tour.autres n.pid (distinct n mem)]
        exact bloques n (List.mem_cons_of_mem q mem)) nodup'
      refine ⟨k', suite.trans run, ?_, libere.valide, ?_, ?_⟩
      · rw [libere.noyau, tour.noyau]
        rfl
      · rintro i ⟨n, mem, rfl⟩
        by_cases meme : n.pid = q.pid
        · rw [meme, libere.autres _ distinct, tour.soi]
        · rcases List.mem_cons.mp mem with rfl | mem
          · exact absurd rfl meme
          · rw [libere.reveille _ ⟨n, mem, rfl⟩, tour.autres _ meme]
      · intro i absents
        rw [libere.autres i fun n mem => absents n (List.mem_cons_of_mem q mem),
          tour.autres i (absents q (List.mem_cons_self ..)).symm]

end Loops

theorem gardePreset_ok (env : Env) (k : Noyau) (fid : Int) :
    Sat (gardePreset env k fid) (fun r => ∀ f, r = some f → fileOuverte? k fid = some f) EstFaute := by
  unfold gardePreset
  split
  · split
    · exact ⟨_, rfl⟩
    · rintro f ⟨⟩
  · exact fun _ => id

/-- The nodes of the two lists of `fid` are those of processes blocked for them, each once. -/
structure NoeudsBloques (k : Noyau) (fid : IndiceFile) : Prop where
  recepteurs : ∀ n ∈ (k.files fid).listeProcBloqueReception,
    (k.table n.pid).etat = .bloqueSurReception
  recepteurs_nodup : ((k.files fid).listeProcBloqueReception.map ProcessBloque.pid).Nodup
  emetteurs : ∀ n ∈ (k.files fid).listeProcBloqueEnvoi, (k.table n.pid).etat = .bloqueSurEnvoi
  emetteurs_nodup : ((k.files fid).listeProcBloqueEnvoi.map ProcessBloque.pid).Nodup

theorem FilesSaines.noeuds (files : FilesSaines k) (fid : IndiceFile) : NoeudsBloques k fid :=
  ⟨fun n mem => (files.recepteurs fid n mem).1, files.recepteurs_nodup fid,
    fun n mem => (files.emetteurs fid n mem).1, files.emetteurs_nodup fid⟩

def sansMessages (k : Noyau) (fid : IndiceFile) : Noyau :=
  (k.modifieFile fid fun f => { f with file := [], nbelem := 0 }).noter
    (.rejet fid (k.files fid).file)

theorem sansMessages_listes (k : Noyau) (fid : IndiceFile) :
    ((sansMessages k fid).files fid).listeProcBloqueReception =
        (k.files fid).listeProcBloqueReception ∧
      ((sansMessages k fid).files fid).listeProcBloqueEnvoi =
        (k.files fid).listeProcBloqueEnvoi := by
  rw [sansMessages, Noyau.noter_files, Noyau.modifieFile_files_self]
  exact ⟨rfl, rfl⟩

/-- The first loop of `preset` ends when the nodes of the receivers are in order; what
is left is the second loop. -/
theorem reinitialiser_recepteurs (valide : Valide k) {fid : IndiceFile}
    (recepteurs : ∀ n ∈ (k.files fid).listeProcBloqueReception,
      (k.table n.pid).etat = .bloqueSurReception)
    (nodup : ((k.files fid).listeProcBloqueReception.map ProcessBloque.pid).Nodup) :
    ∃ k₁, Liberation (sansReception fid) (sansMessages k fid)
        (k.files fid).listeProcBloqueReception.reverse k₁ ∧
      reinitialiser k fid =
        (libererBloques .bloqueSurEnvoi (retirerEnvoi fid)
          (k.files fid).listeProcBloqueEnvoi.reverse k₁).bind fun k =>
            .ok (k.modifieFile fid fun f => { f with nbprocEnvoi := 0, nbprocRecep := 0 }) := by
  obtain ⟨recep₀, envoi₀⟩ := sansMessages_listes k fid
  have valide₀ : Valide (sansMessages k fid) := valide.of_table rfl rfl rfl rfl
  obtain ⟨k₁, run₁, un⟩ := libererBloques_ok .bloqueSurReception (retirerReception fid)
    (sansReception fid) valide₀ (by simp) (fun _ => rfl)
    (k.files fid).listeProcBloqueReception.reverse
    (fun n mem => recepteurs n (List.mem_reverse.mp mem))
    (by rw [List.map_reverse, List.nodup_reverse]; exact nodup)
  have envoi₁ : (k₁.files fid).listeProcBloqueEnvoi = (k.files fid).listeProcBloqueEnvoi := by
    rw [un.noyau]
    simp only [sansReception_iterate, if_true]
    exact envoi₀
  refine ⟨k₁, un, ?_⟩
  unfold reinitialiser
  rw [← sansMessages]
  simp only [recep₀, run₁, bind, Except.bind, envoi₁]

/-- `preset` on an open queue empties both of its lists, if every node of them is that of
a process blocked in the call the list is for. -/
theorem reinitialiser_ok (cours : EnCours k a) {fid : IndiceFile} (noeuds : NoeudsBloques k fid) :
    ∃ k', reinitialiser k fid = .ok k' ∧ Vide fid k k' := by
  have files : ∀ k', reinitialiser k fid = .ok k' →
      k'.files = (k.modifieFile fid fileVidee).files := fun k' run =>
    ((reinitialiser_sat cours fid).of_ok run).2.1
  obtain ⟨k₁, un, reste⟩ := reinitialiser_recepteurs cours.interne.valide noeuds.recepteurs
    noeuds.recepteurs_nodup
  set recep := (k.files fid).listeProcBloqueReception with defRecep
  set envoi := (k.files fid).listeProcBloqueEnvoi with defEnvoi
  -- a sender is not on the list of the receivers
  have separes : ∀ n ∈ envoi, ∀ m ∈ recep, m.pid ≠ n.pid := by
    intro n memN m memM meme
    have recepteur := noeuds.recepteurs m memM
    rw [meme, noeuds.emetteurs n memN] at recepteur
    cases recepteur
  obtain ⟨k₂, run₂, deux⟩ := libererBloques_ok .bloqueSurEnvoi (retirerEnvoi fid)
    (sansEnvoi fid) un.valide (by simp) (fun _ => rfl) envoi.reverse
    (fun n mem => by
      rw [List.mem_reverse] at mem
      rw [un.autres n.pid fun m memM => separes n mem m (List.mem_reverse.mp memM)]
      exact noeuds.emetteurs n mem)
    (by rw [List.map_reverse, List.nodup_reverse]; exact noeuds.emetteurs_nodup)
  have run : reinitialiser k fid =
      .ok (k₂.modifieFile fid fun f => { f with nbprocEnvoi := 0, nbprocRecep := 0 }) := by
    rw [reste, run₂]
    rfl
  refine ⟨_, run, ?_, files _ run, fun i present => ?_, fun i absent => ?_⟩
  · rw [deux.noyau, un.noyau]
    rfl
  · obtain ⟨n, mem, rfl⟩ := present
    rw [Noyau.modifieFile_table]
    rcases List.mem_append.mp mem with mem | mem
    · rw [deux.autres n.pid fun m memM => (separes m (List.mem_reverse.mp memM) n mem).symm,
        un.reveille n.pid ⟨n, List.mem_reverse.mpr mem, rfl⟩]
      rfl
    · rw [deux.reveille n.pid ⟨n, List.mem_reverse.mpr mem, rfl⟩,
        un.autres n.pid fun m memM => separes n mem m (List.mem_reverse.mp memM)]
      rfl
  · rw [Noyau.modifieFile_table,
      deux.autres i fun n mem => absent n (List.mem_append_right _ (List.mem_reverse.mp mem)),
      un.autres i fun n mem => absent n (List.mem_append_left _ (List.mem_reverse.mp mem))]
    rfl

theorem gardePreset_ouverte (env : Env) {n : Int} {fid : IndiceFile}
    (ouverte : fileOuverte? k n = some fid) : gardePreset env k n = .ok (some fid) := by
  have dedans : n ≠ nbQueue := by
    rintro rfl
    simp [fileOuverte?, indiceFile?] at ouverte
  rw [gardePreset, if_neg dedans, ouverte]

theorem preset_ouverte (env : Env) (sain : Sain k) (actif : k.pidActif = some a) {n : Int}
    {fid : IndiceFile} (ouverte : fileOuverte? k n = some fid) :
    ∃ k', preset env k a n = .ok (k'.renvoie a 0) ∧ Vide fid k k' := by
  obtain ⟨k', run, vide⟩ := reinitialiser_ok (sain.enCours actif) (sain.files.noeuds fid)
  refine ⟨k', ?_, vide⟩
  simp only [preset, gardePreset_ouverte env ouverte, run, bind, Except.bind]

theorem preset_ok (env : Env) (sain : Sain k) (actif : k.pidActif = some a)
    (avant : HorsFile (k.table a).suite) (fid : Int) :
    Sat (preset env k a fid) (Suivant (.appel (.preset fid)) k) EstFaute := by
  cases ouverte : fileOuverte? k fid with
  | some f =>
      obtain ⟨k', run, vide⟩ := preset_ouverte env sain actif ouverte
      exact .of_eq run (.effet (.file (.vider fid actif avant rfl ouverte vide)))
  | none =>
      unfold preset
      refine (gardePreset_ok env k fid).bind fun r garde => ?_
      cases r with
      | none => exact renvoie_suivant actif avant _
      | some f => cases ouverte.symm.trans (garde f rfl)

theorem pdelete_ouverte (env : Env) (sain : Sain k) (actif : k.pidActif = some a) {n : Int}
    {fid : IndiceFile} (ouverte : fileOuverte? k n = some fid) :
    ∃ k', Vide fid k k' ∧ pdelete env k a n =
      .ok ((({ k'.modifieFile fid (fun f => { f with size := 0, statut := false }) with
        nbFiles := k'.nbFiles - 1 } : Noyau).noter (.destruction fid)).renvoie a 0) := by
  obtain ⟨k', run, vide⟩ := reinitialiser_ok (sain.enCours actif) (sain.files.noeuds fid)
  refine ⟨k', vide, ?_⟩
  simp only [pdelete, gardePreset_ouverte env ouverte, run, bind, Except.bind]
  rfl

theorem pdelete_ok (env : Env) (sain : Sain k) (actif : k.pidActif = some a)
    (avant : HorsFile (k.table a).suite) (fid : Int) :
    Sat (pdelete env k a fid) (Suivant (.appel (.pdelete fid)) k) EstFaute := by
  cases ouverte : fileOuverte? k fid with
  | some f =>
      obtain ⟨k', vide, run⟩ := pdelete_ouverte env sain actif ouverte
      exact .of_eq run (.effet (.file (.supprimer fid _ actif avant rfl ouverte vide)))
  | none =>
      unfold pdelete
      refine (gardePreset_ok env k fid).bind fun r garde => ?_
      cases r with
      | none => exact renvoie_suivant actif avant _
      | some f => cases ouverte.symm.trans (garde f rfl)

end ProjetSysteme.Invariant
