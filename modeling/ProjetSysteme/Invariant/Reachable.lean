/- Invariant/Reachable
   digest: Message queues, console and clock keep the invariant of Stability; it holds in every run. -/

import ProjetSysteme.Invariant.Preservation

set_option autoImplicit false
set_option relaxedAutoImplicit false

namespace ProjetSysteme.Invariant

open Kernel Library.PriorityList Library.Outcome

/-- A `psend` that stores now wakes no process of priority greater than its caller. -/
def EnvoiLibre (k : Noyau) (a : Indice) (fid : IndiceFile) : Prop :=
  (k.files fid).nbelem = 0 → (k.files fid).size ≠ 0 → (k.table a).valresetfile = 0 →
    ∀ q ∈ (k.files fid).listeProcBloqueReception.getLast?,
      (k.table q.pid).prio ≤ (k.table a).prio

/-- No process on a blocked list of the queue has a priority greater than the caller. -/
def ResetLibre (k : Noyau) (a : Indice) (fid : IndiceFile) : Prop :=
  ∀ q ∈ (k.files fid).listeProcBloqueReception ++ (k.files fid).listeProcBloqueEnvoi,
    (k.table q.pid).prio ≤ (k.table a).prio

instance (k : Noyau) (a : Indice) (fid : IndiceFile) : Decidable (EnvoiLibre k a fid) :=
  inferInstanceAs (Decidable (_ → _ → _ → ∀ q ∈ (k.files fid).listeProcBloqueReception.getLast?, _))

instance (k : Noyau) (a : Indice) (fid : IndiceFile) : Decidable (ResetLibre k a fid) :=
  inferInstanceAs (Decidable (∀ q ∈ _ ++ _, _))

theorem EnCours.modifieFile {k : Noyau} {a : Indice} (cours : EnCours k a) (fid : IndiceFile)
    (f : FileMessage → FileMessage) : EnCours (k.modifieFile fid f) a :=
  cours.of_table rfl rfl rfl rfl

theorem Interne.modifieFile {k : Noyau} (interne : Interne k) (fid : IndiceFile)
    (f : FileMessage → FileMessage) : Interne (k.modifieFile fid f) :=
  interne.of_table rfl rfl rfl rfl

theorem Change.prio {k k' : Noyau} {pr : Indice} {e : EtatProcessus} (change : Change k pr e k')
    (j : Indice) : (k'.table j).prio = (k.table j).prio := by
  rw [change.champs]

theorem Change.prioritaire {k k' : Noyau} {pr a : Indice} (change : Change k pr .activable k')
    (actif : k.pidActif = some a) (prioritaire : Prioritaire k)
    (libre : (k.table pr).prio ≤ (k.table a).prio) : Prioritaire k' := by
  intro a' j actif' enFile
  rw [change.pidActif, actif] at actif'
  rw [change.prio, change.prio, ← Option.some.inj actif']
  rw [change.etat] at enFile
  split at enFile
  · next meme => exact meme ▸ libre
  · exact prioritaire a j actif enFile

theorem finAppelFile_enCours {k : Noyau} {a : Indice} (cours : EnCours k a) (v : Int) :
    EnCours (finAppelFile k a v) a := by
  refine EnCours.renvoie (EnCours.modifie cours a ?_ ?_) a v
  · exact fun _ => ⟨rfl, rfl, rfl, rfl, rfl⟩
  · exact fun _ _ suite => suite

theorem finAppelFile_vue (k : Noyau) (a : Indice) (v : Int) : MemeVue k (finAppelFile k a v) := by
  refine MemeVue.trans (.modifie k a ?_) (.renvoie _ a v)
  exact fun _ => ⟨rfl, rfl, rfl, rfl, rfl⟩

theorem pcreate_sat {k : Noyau} {a : Indice} (cours : EnCours k a) (count : Int) :
    Sat (pcreate k a count) (Issue k True) Permis := by
  unfold pcreate
  split
  · exact (cours.renvoie a _).issue (.renvoie k a _)
  · split
    · exact Faute.noConfusion
    · next f _ =>
        refine EnCours.issue (EnCours.renvoie (cours.of_table ?_ ?_ ?_ ?_) a _)
          (MemeVue.trans (.of_table ?_ ?_ ?_ ?_) (.renvoie _ _ _)) <;> rfl

theorem blocageFile_sat {k : Noyau} {a : Indice} (cours : EnCours k a) (nonZero : a ≠ 0)
    (fid : IndiceFile) (f g : FileMessage → FileMessage) (s : Suite) {e : EtatProcessus}
    (simple : Simple e) :
    Sat (definirEtat ((k.modifieFile fid f).suspend a s) a e >>= fun k =>
      ordonnancer (k.modifieFile fid g)) (Issue k True) Permis := by
  have avant := (cours.modifieFile fid f).suspend a (s := s) fun zero => absurd zero nonZero
  refine (blocage_sat avant.interne nonZero simple).bind fun k' change => ?_
  exact (ordonnancer_stable (change.2.modifieFile fid g)).mono (fun _ => Ordonne.issue) fun _ => id

theorem reveillerEmetteur_sat {k₀ k : Noyau} {a : Indice} (vue : MemeVue k₀ k) (cours : EnCours k a)
    (nonZero : a ≠ 0) (fid : IndiceFile) :
    Sat (reveillerEmetteur k a fid) (Issue k₀ True) Permis := by
  have simple : Issue k₀ True (finAppelFile k a 0) :=
    (finAppelFile_enCours cours 0).issue (vue.trans (finAppelFile_vue k a 0))
  unfold reveillerEmetteur
  split
  · split
    · exact simple
    · next q _ =>
        have avant := ((cours.modifieFile fid fun f => { f with
          listeProcBloqueEnvoi := f.listeProcBloqueEnvoi.dropLast }).suspend a
            (s := .preceiveFin) fun zero => absurd zero nonZero)
        refine (reveil_sat avant.interne q.pid).bind fun k' change => ?_
        exact (ordonnancer_stable (change.2.modifieFile fid _)).mono (fun _ => Ordonne.issue)
          fun _ => id
  · exact simple

theorem preceiveBoucle_sat {k : Noyau} {a : Indice} (cours : EnCours k a) (nonZero : a ≠ 0)
    (fid : IndiceFile) : Sat (preceiveBoucle k a fid) (Issue k True) Permis := by
  unfold preceiveBoucle
  split
  · exact blocageFile_sat cours nonZero fid _ _ _ ⟨by simp, by simp, by simp⟩
  · split
    · split
      · exact Faute.noConfusion
      · refine reveillerEmetteur_sat ?_ (EnCours.noter (cours.modifieFile fid _) _) nonZero fid
        exact (MemeVue.modifieFile k fid _).trans (.noter _ _)
    · exact (finAppelFile_enCours cours _).issue (finAppelFile_vue k a _)

theorem preceive_sat {k : Noyau} {a : Indice} (cours : EnCours k a) (nonZero : a ≠ 0) (fid : Int) :
    Sat (preceive k a fid) (Issue k True) Permis := by
  unfold preceive
  split
  · exact (cours.renvoie a _).issue (.renvoie k a _)
  · exact preceiveBoucle_sat cours nonZero _

theorem reveillerRecepteur_sat {k : Noyau} {a : Indice} (cours : EnCours k a) (fid : IndiceFile) :
    Sat (reveillerRecepteur k fid) (fun k' => EnCours k' a ∧ (Prioritaire k →
      ((k.files fid).nbelem = 1 → ∀ q, (k.files fid).listeProcBloqueReception.getLast? = some q →
        (k.table q.pid).prio ≤ (k.table a).prio) → Prioritaire k')) Permis := by
  unfold reveillerRecepteur
  split
  · next premier =>
      split
      · exact ⟨cours, fun prioritaire _ => prioritaire⟩
      · next q dernier =>
          refine (reveil_sat (cours.modifieFile fid _).interne q.pid).bind fun k' change => ?_
          refine ⟨(change.1.enCours (cours.modifieFile fid _)).modifieFile fid _, ?_⟩
          intro prioritaire libre
          exact (change.1.prioritaire cours.pidActif prioritaire (libre premier q dernier)).transport
            (.modifieFile k' fid _)
  · exact ⟨cours, fun prioritaire _ => prioritaire⟩

theorem psendBoucle_sat {k : Noyau} {a : Indice} (cours : EnCours k a) (nonZero : a ≠ 0)
    (fid : IndiceFile) (message : Int) :
    Sat (psendBoucle k a fid message) (Issue k (EnvoiLibre k a fid)) Permis := by
  unfold psendBoucle
  split
  · exact (blocageFile_sat cours nonZero fid _ _ _ ⟨by simp, by simp, by simp⟩).mono
      (fun _ issue => ⟨issue.1, fun prioritaire _ => issue.2 prioritaire trivial⟩) fun _ => id
  · next place =>
      split
      · next valreset =>
          have cours₁ := EnCours.noter (cours.modifieFile fid fun f =>
            { f with file := f.file ++ [message], nbelem := f.nbelem + 1 }) (.envoi a fid message)
          refine (reveillerRecepteur_sat cours₁ fid).bind fun k' ⟨cours', prioritaire'⟩ => ?_
          refine ⟨.inr ⟨a, finAppelFile_enCours cours' 0⟩, fun prioritaire libre => ?_⟩
          refine (prioritaire' (prioritaire.transport ((MemeVue.modifieFile k fid _).trans
            (.noter _ _))) fun premier q dernier => ?_).transport (finAppelFile_vue k' a 0)
          simp only [Noyau.noter, Noyau.modifieFile, if_true] at premier dernier
          have vide : (k.files fid).nbelem = 0 := by omega
          refine libre vide (fun zero => place ⟨vide.trans zero.symm, valreset⟩) valreset q dernier
      · exact (finAppelFile_enCours cours _).issue (finAppelFile_vue k a _)

theorem psend_sat {k : Noyau} {a : Indice} (cours : EnCours k a) (nonZero : a ≠ 0)
    (fid message : Int) :
    Sat (psend k a fid message)
      (Issue k (∀ f, fileOuverte? k fid = some f → EnvoiLibre k a f)) Permis := by
  unfold psend
  split
  · exact (cours.renvoie a _).issue (.renvoie k a _)
  · next f ouverte =>
      exact (psendBoucle_sat cours nonZero f message).mono
        (fun _ issue => ⟨issue.1, fun prioritaire libre => issue.2 prioritaire (libre f ouverte)⟩)
        fun _ => id

theorem psendReprise_sat {k : Noyau} {a : Indice} (cours : EnCours k a) (nonZero : a ≠ 0)
    (fid : IndiceFile) (message : Int) :
    Sat (psendReprise k a fid message) (Issue k (EnvoiLibre k a fid)) Permis := by
  unfold psendReprise
  split
  · exact (cours.renvoie a _).issue (.renvoie k a _)
  · exact psendBoucle_sat cours nonZero fid message

/-- Effect of one of the two loops of `preset` over the nodes `l`, with `g` the
update of the table of queues that removes a node. -/
structure Libere (g : (IndiceFile → FileMessage) → IndiceFile → FileMessage) (k : Noyau)
    (a : Indice) (l : List ProcessBloque) (k' : Noyau) : Prop where
  cours : EnCours k' a
  prio : ∀ j, (k'.table j).prio = (k.table j).prio
  files : k'.files = g^[l.length] k.files
  prioritaire : Prioritaire k → (∀ q ∈ l, (k.table q.pid).prio ≤ (k.table a).prio) → Prioritaire k'

theorem Change.files {k k' : Noyau} {pr : Indice} {e : EtatProcessus} (change : Change k pr e k') :
    k'.files = k.files := by
  obtain ⟨_, ⟨_, rfl⟩ | ⟨_, rfl⟩⟩ := change <;> rfl

theorem libererBloques_sat {k : Noyau} {a : Indice} (cours : EnCours k a) (bloque : EtatProcessus)
    (retirer : Noyau → Noyau) {g : (IndiceFile → FileMessage) → IndiceFile → FileMessage}
    (retire : ∀ k, retirer k = { k with files := g k.files }) (l : List ProcessBloque) :
    Sat (libererBloques bloque retirer l k) (Libere g k a l) Permis := by
  induction l generalizing k with
  | nil => exact ⟨cours, fun _ => rfl, rfl, fun prioritaire _ => prioritaire⟩
  | cons q reste ih =>
      rw [libererBloques]
      split
      · refine (reveil_sat cours.interne q.pid).bind fun k₁ change => ?_
        have cours₁ := change.1.enCours cours
        set k₂ := k₁.modifie q.pid fun p => { p with valresetfile := 1 } with defk₂
        have vue₂ : MemeVue k₁ k₂ := .modifie k₁ q.pid fun _ => ⟨rfl, rfl, rfl, rfl, rfl⟩
        have cours₂ : EnCours k₂ a := by
          refine cours₁.modifie q.pid ?_ ?_
          · exact fun _ => ⟨rfl, rfl, rfl, rfl, rfl⟩
          · exact fun _ _ suite => suite
        have vue₃ : MemeVue k₂ (retirer k₂) := by
          rw [retire]
          exact .of_table rfl rfl rfl rfl
        have cours₃ : EnCours (retirer k₂) a := by
          rw [retire]
          exact cours₂.of_table rfl rfl rfl rfl
        have vue := vue₂.trans vue₃
        refine (ih cours₃).mono (fun k' libere => ⟨libere.cours, fun j => ?_, ?_, ?_⟩) fun _ => id
        · rw [libere.prio, vue.prio, change.1.prio]
        · have files₃ : (retirer k₂).files = g k.files := by
            rw [retire, ← change.1.files]
            rfl
          rw [libere.files, files₃]
          rfl
        · intro prioritaire libre
          refine libere.prioritaire ((change.1.prioritaire cours.pidActif prioritaire
            (libre q (List.mem_cons_self ..))).transport vue) fun q' mem => ?_
          rw [vue.prio, vue.prio, change.1.prio, change.1.prio]
          exact libre q' (List.mem_cons_of_mem q mem)
      · exact Faute.noConfusion

def sansReception (fid : IndiceFile) (files : IndiceFile → FileMessage) : IndiceFile → FileMessage :=
  fun f => if f = fid then { files f with
    listeProcBloqueReception := (files f).listeProcBloqueReception.dropLast } else files f

def sansEnvoi (fid : IndiceFile) (files : IndiceFile → FileMessage) : IndiceFile → FileMessage :=
  fun f => if f = fid then { files f with
    listeProcBloqueEnvoi := (files f).listeProcBloqueEnvoi.dropLast } else files f

private theorem dropLast_iterate {α : Type} (n : Nat) (l : List α) :
    List.dropLast^[n] l = l.take (l.length - n) := by
  induction n generalizing l with
  | zero => simp
  | succ n ih =>
      rw [Function.iterate_succ_apply, ih, List.length_dropLast, List.dropLast_eq_take,
        List.take_take]
      congr 1
      omega

theorem sansReception_iterate (fid : IndiceFile) (files : IndiceFile → FileMessage) (n : Nat) :
    (sansReception fid)^[n] files = fun f => if f = fid then { files f with
      listeProcBloqueReception := List.dropLast^[n] (files f).listeProcBloqueReception }
      else files f := by
  induction n generalizing files with
  | zero =>
      funext f
      simp
  | succ n ih =>
      rw [Function.iterate_succ_apply, ih]
      funext f
      simp only [sansReception, Function.iterate_succ_apply]
      split <;> rfl

theorem sansEnvoi_iterate (fid : IndiceFile) (files : IndiceFile → FileMessage) (n : Nat) :
    (sansEnvoi fid)^[n] files = fun f => if f = fid then { files f with
      listeProcBloqueEnvoi := List.dropLast^[n] (files f).listeProcBloqueEnvoi }
      else files f := by
  induction n generalizing files with
  | zero =>
      funext f
      simp
  | succ n ih =>
      rw [Function.iterate_succ_apply, ih]
      funext f
      simp only [sansEnvoi, Function.iterate_succ_apply]
      split <;> rfl

def fileVidee (f : FileMessage) : FileMessage :=
  { f with
    file := [], nbelem := 0, nbprocEnvoi := 0, nbprocRecep := 0
    listeProcBloqueReception := [], listeProcBloqueEnvoi := [] }

theorem reinitialiser_sat {k : Noyau} {a : Indice} (cours : EnCours k a) (fid : IndiceFile) :
    Sat (reinitialiser k fid) (fun k' => EnCours k' a ∧
      k'.files = (k.modifieFile fid fileVidee).files ∧
      (Prioritaire k → ResetLibre k a fid → Prioritaire k')) Permis := by
  unfold reinitialiser
  set k₀ := (k.modifieFile fid fun f => { f with file := [], nbelem := 0 }).noter
    (.rejet fid (k.files fid).file) with defk₀
  have cours₀ : EnCours k₀ a := (cours.modifieFile fid _).noter _
  have vue₀ : MemeVue k k₀ := (MemeVue.modifieFile k fid _).trans (.noter _ _)
  have files₀ : k₀.files = fun f => if f = fid then { k.files f with file := [], nbelem := 0 }
    else k.files f := rfl
  refine (libererBloques_sat cours₀ .bloqueSurReception (retirerReception fid)
    (g := sansReception fid) (fun _ => rfl) _).bind fun k₁ un => ?_
  have files₁ := un.files
  rw [sansReception_iterate, List.length_reverse] at files₁
  refine (libererBloques_sat un.cours .bloqueSurEnvoi (retirerEnvoi fid)
    (g := sansEnvoi fid) (fun _ => rfl) _).bind fun k₂ deux => ?_
  have files₂ := deux.files
  rw [sansEnvoi_iterate, List.length_reverse] at files₂
  refine ⟨deux.cours.modifieFile fid _, ?_, fun prioritaire libre => ?_⟩
  · funext f
    simp only [Noyau.modifieFile, files₂, files₁, files₀, dropLast_iterate]
    by_cases meme : f = fid
    · subst meme
      simp [fileVidee]
    · simp [meme]
  · refine (deux.prioritaire (un.prioritaire (prioritaire.transport vue₀) fun q mem => ?_)
      fun q mem => ?_).transport (.modifieFile k₂ fid _)
    · rw [vue₀.prio, vue₀.prio]
      refine libre q (List.mem_append_left _ ?_)
      simpa [files₀] using mem
    · rw [un.prio, un.prio, vue₀.prio, vue₀.prio]
      refine libre q (List.mem_append_right _ ?_)
      simpa [files₁, files₀] using mem

theorem gardePreset_sat (env : Env) (k : Noyau) (fid : Int) :
    Sat (gardePreset env k fid) (fun r => ∀ f, r = some f → fileOuverte? k fid = some f) Permis := by
  unfold gardePreset
  split
  · split
    · exact Faute.noConfusion
    · rintro f ⟨⟩
  · exact fun _ => id

theorem preset_sat (env : Env) {k : Noyau} {a : Indice} (cours : EnCours k a) (fid : Int) :
    Sat (preset env k a fid)
      (Issue k (∀ f, fileOuverte? k fid = some f → ResetLibre k a f)) Permis := by
  unfold preset
  refine (gardePreset_sat env k fid).bind fun r ouverte => ?_
  cases r with
  | none => exact (cours.renvoie a _).issue (.renvoie k a _)
  | some f =>
      refine (reinitialiser_sat cours f).bind fun k' ⟨cours', _, prioritaire'⟩ => ?_
      refine ⟨.inr ⟨a, cours'.renvoie a 0⟩, fun prioritaire libre => ?_⟩
      exact (prioritaire' prioritaire (libre f (ouverte f rfl))).transport (.renvoie k' a 0)

theorem pdelete_sat (env : Env) {k : Noyau} {a : Indice} (cours : EnCours k a) (fid : Int) :
    Sat (pdelete env k a fid)
      (Issue k (∀ f, fileOuverte? k fid = some f → ResetLibre k a f)) Permis := by
  unfold pdelete
  refine (gardePreset_sat env k fid).bind fun r ouverte => ?_
  cases r with
  | none => exact (cours.renvoie a _).issue (.renvoie k a _)
  | some f =>
      refine (reinitialiser_sat cours f).bind fun k' ⟨cours', _, prioritaire'⟩ => ?_
      refine ⟨.inr ⟨a, EnCours.renvoie (cours'.of_table ?_ ?_ ?_ ?_) a 0⟩,
        fun prioritaire libre => ?_⟩
      iterate 4 rfl
      refine (prioritaire' prioritaire (libre f (ouverte f rfl))).transport
        (MemeVue.trans (.of_table ?_ ?_ ?_ ?_) (.renvoie _ a 0)) <;> rfl

theorem pcount_sat {k : Noyau} {a : Indice} (cours : EnCours k a) (fid : Int) (count : Bool) :
    Sat (pcount k a fid count) (Issue k True) Permis := by
  unfold pcount
  split
  · exact (cours.renvoie a _).issue (.renvoie k a _)
  · split
    · split
      · exact Faute.noConfusion
      · exact ((cours.noter _).renvoie a _).issue ((MemeVue.noter k _).trans (.renvoie _ a _))
    · exact (cours.renvoie a _).issue (.renvoie k a _)

/-- The ways in which an event may stop: the one link assertion that may fail is
that of `cons_read`, when the links of a chained slot were cleared by `start`. -/
def Admis (e : Evenement) : Arret → Prop
  | .faute f => f = .assertionMaillon → ∃ length, e = .appel (.consRead length)
  | .confirme k => Interne k ∨ k.pidActif = none

theorem Permis.admis {s : Arret} (permis : Permis s) (e : Evenement) : Admis e s := by
  cases s with
  | faute f => exact fun maillon => absurd maillon permis
  | confirme k => exact permis

theorem consRead_sat {k : Noyau} {a : Indice} (cours : EnCours k a) (nonZero : a ≠ 0)
    (length : UInt32) :
    Sat (consRead k a length) (Issue k True) (Admis (.appel (.consRead length))) := by
  unfold consRead
  split
  · refine Sat.bind (Q := fun _ => True) ?_ fun attente _ => ?_
    · unfold entrerConsRead Noyau.avecMemoire
      split
      · trivial
      · exact fun _ => ⟨length, rfl⟩
    · have avant : Interne (({ k with
          console := { k.console with indexFinLigne := 0, attente := attente } } : Noyau).suspend a
            (.consReadAttente length)) := by
        refine Interne.suspend (cours.interne.of_table ?_ ?_ ?_ ?_) a fun zero => absurd zero nonZero
        iterate 4 rfl
      refine ((blocage_sat avant nonZero (e := .bloqueSurEntreeSortie)
        ⟨by simp, by simp, by simp⟩).mono (fun _ => id) fun _ p => p.admis _).bind fun k' change => ?_
      exact (ordonnancer_stable change.2).mono (fun _ => Ordonne.issue) fun _ p => p.admis _
  · exact (cours.renvoie a _).issue (.renvoie k a _)

theorem consReadReprise_sat {k : Noyau} {a : Indice} (cours : EnCours k a) (length : UInt32) :
    Sat (consReadReprise k a length) (Issue k True) Permis := by
  unfold consReadReprise
  split
  · exact .inl cours.interne
  · refine EnCours.issue (EnCours.renvoie (EnCours.noter (cours.of_table ?_ ?_ ?_ ?_) _) a _)
      ((MemeVue.of_table ?_ ?_ ?_ ?_).trans ((MemeVue.noter _ _).trans (.renvoie _ a _)))
    iterate 8 rfl

theorem Stable.of_table {k k' : Noyau} (stable : Stable k) (table : k'.table = k.table)
    (activables : k'.activables = k.activables) (endormis : k'.endormis = k.endormis)
    (pidActif : k'.pidActif = k.pidActif) : Stable k' := by
  rcases stable with depart | ⟨a, cours⟩
  · refine .inl ⟨depart.valide.transport (.of_table table activables endormis pidActif),
      pidActif.trans depart.pidActif, fun i => ?_⟩
    rw [table]
    exact depart.mort i
  · exact .inr ⟨a, cours.of_table table activables endormis pidActif⟩

theorem reveilStable_sat {k : Noyau} (stable : Stable k) (pr : Indice) :
    Sat (definirEtat k pr .activable) Stable Permis := by
  rcases stable with depart | ⟨a, cours⟩
  · rw [definirEtat_mort_confirme depart.valide.coherent.toRangement (depart.mort pr)]
    exact .inr depart.pidActif
  · exact (reveil_sat cours.interne pr).mono (fun _ change => .inr ⟨a, change.1.enCours cours⟩)
      fun _ => id

theorem suivre_sans (a : Option MaillonConsRead) : SansMaillon (Maillons.suivre a) := by
  cases a with
  | none => exact Faute.noConfusion
  | some a => trivial

theorem queueOut_sans (m : Library.Ring.Links MaillonConsRead) (head : MaillonConsRead) :
    SansMaillon (Maillons.queueOut m head) := by
  unfold Maillons.queueOut
  split
  · trivial
  · exact (suivre_sans _).bind fun _ _ => (suivre_sans _).bind fun _ _ => trivial

theorem keyboardData_sat {k : Noyau} (stable : Stable k) (c : Int8) :
    Sat (keyboardData k c) Stable Permis := by
  unfold keyboardData
  split
  · refine Sat.bind (Q := fun r => Stable r.2) ?_ fun ⟨premier, k₁⟩ stable₁ => ?_
    · refine Sat.bind (avecMemoire_sat (queueOut_sans k.console.attente .tete)) fun ⟨liens, r⟩ _ => ?_
      match r with
      | none => exact stable.of_table rfl rfl rfl rfl
      | some (.processus p) => exact stable.of_table rfl rfl rfl rfl
      | some .tete => exact Faute.noConfusion
    · refine Sat.bind (Q := Stable) ?_ fun k₂ stable₂ => stable₂.of_table rfl rfl rfl rfl
      cases premier with
      | none => exact stable₁
      | some p => exact reveilStable_sat stable₁ p
  · split_ifs
    all_goals first
      | exact stable
      | exact stable.of_table rfl rfl rfl rfl

theorem parcourEndormis_sat {k : Noyau} (stable : Stable k) (n : Nat)
    (assez : k.endormis.length ≤ n) :
    Sat (parcourEndormis n k) Stable fun _ => False := by
  induction n generalizing k with
  | zero =>
      rw [parcourEndormis, List.eq_nil_of_length_eq_zero (Nat.le_zero.mp assez)]
      exact stable
  | succ n ih =>
      rw [parcourEndormis]
      split
      · exact stable
      · next attend trouve =>
          have range := stable.valide.coherent.toRangement
          have mem := List.mem_of_find?_eq_some trouve
          have endormi := (range.endormis_mem attend).mp mem
          have run : definirEtat k attend .activable = .ok (changeEtat k attend .activable) :=
            definirEtat_change range simple_activable (by simp [endormi]) (by simp [endormi])
          have stable' : Stable (changeEtat k attend .activable) :=
            (reveilStable_sat stable attend).of_ok run
          rw [run]
          refine ih stable' ?_
          have reste : (changeEtat k attend .activable).endormis = k.endormis.erase attend := by
            simp [changeEtat, Noyau.modifie]
          rw [reste, List.length_erase_of_mem mem]
          omega

theorem ordonnancer_depart {k : Noyau} (depart : Depart k) : ordonnancer k = .ok k := by
  have vide : k.activables = [] := by
    rw [List.eq_nil_iff_forall_not_mem]
    intro i mem
    have := (depart.valide.coherent.activables_mem i).mp mem
    rw [depart.mort i] at this
    cases this
  rw [ordonnancer, vide]
  rfl

theorem ticPIT_sat {k : Noyau} (stable : Stable k) : Sat (ticPIT k) (Issue k True) Permis := by
  unfold ticPIT
  refine ((parcourEndormis_sat (k := { k with horloge := k.horloge + 1 })
    (stable.of_table rfl rfl rfl rfl) _ le_rfl).mono (fun _ => id) fun _ => False.elim).bind
    fun k₁ stable₁ => ?_
  rcases stable₁ with depart | ⟨a, cours⟩
  · rw [ordonnancer_depart depart]
    refine ⟨.inl depart, fun _ _ a j actif _ => ?_⟩
    rw [depart.pidActif] at actif
    cases actif
  · exact (ordonnancer_stable cours.interne).mono (fun _ => Ordonne.issue) fun _ => id

/-- The event wakes, without a call of `ordonnancer`, no process whose priority is
greater than that of the running one. -/
def PrioriteLibre (k : Noyau) : Evenement → Prop
  | .touche _ => False
  | .appel (.psend fid _) => ∀ a ∈ k.pidActif, ∀ f ∈ fileOuverte? k fid, EnvoiLibre k a f
  | .appel (.preset fid) | .appel (.pdelete fid) =>
    ∀ a ∈ k.pidActif, ∀ f ∈ fileOuverte? k fid, ResetLibre k a f
  | .reprise =>
    ∀ a ∈ k.pidActif,
      match (k.table a).suite with
      | .psendAttente f _ => EnvoiLibre k a f
      | _ => True
  | _ => True

theorem Issue.mono {k k' : Noyau} {libre libre' : Prop} (issue : Issue k libre k')
    (implique : libre' → libre) : Issue k libre' k' :=
  ⟨issue.1, fun prioritaire l => issue.2 prioritaire (implique l)⟩

variable (env : Env)

theorem appeler_sat {k : Noyau} {a : Indice} (cours : EnCours k a) (appel : Appel)
    (veille : a = 0 → appel.estStart = true) :
    Sat (appeler env k a appel) (Issue k (PrioriteLibre k (.appel appel))) (Admis (.appel appel)) := by
  have actif := cours.pidActif
  have nonZero : appel.estStart = false → a ≠ 0 := by
    intro autre zero
    rw [veille zero] at autre
    cases autre
  have libre : ∀ {r : Resultat} {l : Prop}, Sat r (Issue k l) Permis →
      (PrioriteLibre k (.appel appel) → l) →
      Sat r (Issue k (PrioriteLibre k (.appel appel))) (Admis (.appel appel)) := fun sat implique =>
    sat.mono (fun _ issue => issue.mono implique) fun _ p => p.admis _
  cases appel with
  | start nom ssize prio args =>
      exact libre (start_sat env (.inr ⟨a, cours⟩) nom ssize prio args) fun _ => trivial
  | exit retval =>
      exact libre ((exit_sat env cours (nonZero rfl) retval .exitFin).mono
        (fun _ => Ordonne.issue (l := True)) fun _ => id) fun _ => trivial
  | finCode retval =>
      exact libre ((exit_sat env cours (nonZero rfl) retval .termine).mono
        (fun _ => Ordonne.issue (l := True)) fun _ => id) fun _ => trivial
  | kill pid => exact libre (kill_sat env cours pid) fun _ => trivial
  | waitpid pid retvalp => exact libre (waitpid_sat cours (nonZero rfl) pid retvalp) fun _ => trivial
  | chprio pid newprio => exact libre (chprio_sat cours pid newprio) fun _ => trivial
  | getprio pid =>
      exact libre (r := .ok _) (l := True) ((cours.renvoie a _).issue (.renvoie k a _)) fun _ => trivial
  | waitClock clock =>
      exact libre ((waitClock_sat (.inl cours.interne) clock (.retour 0)).mono
        (fun _ => Ordonne.issue (l := True)) fun _ => id) fun _ => trivial
  | pcreate count => exact libre (pcreate_sat cours count) fun _ => trivial
  | psend fid message => exact libre (psend_sat cours (nonZero rfl) fid message) fun l => l a actif
  | preceive fid => exact libre (preceive_sat cours (nonZero rfl) fid) fun _ => trivial
  | preset fid => exact libre (preset_sat env cours fid) fun l => l a actif
  | pdelete fid => exact libre (pdelete_sat env cours fid) fun l => l a actif
  | pcount fid count => exact libre (pcount_sat cours fid count) fun _ => trivial
  | consRead length =>
      exact (consRead_sat cours (nonZero rfl) length).mono
        (fun _ issue => issue.mono fun _ => trivial) fun _ => id
  | consEcho on =>
      refine libre (r := .ok _) (l := True) (EnCours.issue (EnCours.renvoie (cours.of_table ?_ ?_ ?_ ?_) a 0)
        (MemeVue.trans (.of_table ?_ ?_ ?_ ?_) (.renvoie _ a 0))) fun _ => trivial
      iterate 8 rfl

theorem reprendre_sat {k : Noyau} {a : Indice} (cours : EnCours k a) :
    Sat (reprendre env k a) (Issue k (PrioriteLibre k .reprise)) Permis := by
  have simple : ∀ {r : Resultat}, Sat r Ordonne Permis →
      Sat r (Issue k (PrioriteLibre k .reprise)) Permis := fun sat =>
    sat.mono (fun _ => Ordonne.issue) fun _ => id
  have nonZero : ∀ s, (k.table a).suite = s → ¬ VeilleSuite s → a ≠ 0 := by
    rintro s suite autre rfl
    exact autre (suite ▸ cours.interne.suite)
  unfold reprendre
  split
  · exact cours.issue (.refl k)
  · exact (cours.suspend a (s := .execution) fun _ => trivial).issue (.suspend k a _)
  · exact ((cours.noter _).suspend a (s := .execution) fun _ => trivial).issue
      ((MemeVue.noter k _).trans (.suspend _ a _))
  · next suite => exact simple (finActif_sat env cours (nonZero _ suite id) .termine)
  · exact .inl cours.interne
  · exact Faute.noConfusion
  · exact simple (waitpidReprise_sat cours _)
  · exact simple (waitpidRepriseFils_sat cours _ _)
  · next fid suite =>
      exact (preceiveBoucle_sat cours (nonZero _ suite id) fid).mono
        (fun _ issue => issue.mono fun _ => trivial) fun _ => id
  · exact (finAppelFile_enCours cours 0).issue (finAppelFile_vue k a 0)
  · next fid message suite =>
      exact (psendReprise_sat cours (nonZero _ suite id) fid message).mono
        (fun _ issue => issue.mono fun l => by simpa only [suite] using l a cours.pidActif) fun _ => id
  · exact (consReadReprise_sat cours _).mono (fun _ issue => issue.mono fun _ => trivial) fun _ => id

theorem executer_sat {k : Noyau} (stable : Stable k) {e : Evenement} (autorise : permis k e = true) :
    Sat (executer env k e) (Issue k (PrioriteLibre k e)) (Admis e) := by
  cases e with
  | tic =>
      exact (ticPIT_sat stable).mono (fun _ issue => issue.mono fun _ => trivial) fun _ p => p.admis _
  | touche c =>
      exact (keyboardData_sat stable c).mono (fun k' stable' => ⟨stable', fun _ libre => libre.elim⟩)
        fun _ p => p.admis _
  | appel appel =>
      rcases stable with depart | ⟨a, cours⟩
      · cases appel with
        | start nom ssize prio args =>
            simp only [executer, depart.pidActif]
            exact (start_sat env (.inl depart) nom ssize prio args).mono
              (fun _ issue => issue.mono fun _ => trivial) fun _ p => p.admis _
        | _ =>
            simp only [executer, depart.pidActif]
            exact Permis.admis (s := .faute .horsTable) Faute.noConfusion _
      · have veille : a = 0 → appel.estStart = true := by
          rintro rfl
          simp only [permis, cours.pidActif, Bool.and_eq_true] at autorise
          simpa using autorise.2
        have run : executer env k (.appel appel) = appeler env (k.noter (.appel a appel)) a appel := by
          simp only [executer, cours.pidActif]
        rw [run]
        refine (appeler_sat env (cours.noter (.appel a appel)) appel veille).mono
          (fun k' issue => ⟨issue.1, fun prioritaire libre => ?_⟩) fun _ => id
        exact issue.2 (prioritaire.transport (.noter k _)) libre
  | reprise =>
      rcases stable with depart | ⟨a, cours⟩
      · simp only [executer, depart.pidActif]
        exact Permis.admis (s := .faute .horsTable) Faute.noConfusion _
      · simp only [executer, cours.pidActif]
        exact (reprendre_sat env cours).mono (fun _ => id) fun _ p => p.admis _

theorem pas_sat {k : Noyau} (stable : Stable k) {e : Evenement} (autorise : permis k e = true) :
    Sat (pas env k e) (Issue k (PrioriteLibre k e)) (Admis e) := by
  have sat := executer_sat env stable autorise
  unfold pas
  split
  · next k' echec =>
      refine (echecConfirme_sat (sat.of_error echec)).mono (fun _ => Ordonne.issue) fun _ p => p.admis _
  · exact sat

theorem initialiser_depart {k₀ : Noyau} (boot : initialiserGestionDesProcessus env = .ok k₀) :
    Depart k₀ := by
  obtain ⟨memoire, _, valeur⟩ := bind_ok boot
  cases valeur
  have mort : ∀ i, (noyauVide.table i).etat = .mort := fun _ => rfl
  refine ⟨⟨⟨⟨?_, ?_, ?_, ?_, ?_, ?_, ?_⟩, ?_⟩, ⟨?_, ?_, ?_⟩⟩, rfl, mort⟩
  · exact fun _ => .inr rfl
  · exact fun _ => ⟨fun _ => rfl, fun _ => rfl⟩
  · simp [noyauVide]
  · exact List.nodup_nil
  · exact List.Pairwise.nil
  · simp [noyauVide]
  · exact List.nodup_nil
  · simp [noyauVide]
  · exact fun p vivant => absurd (mort p) vivant
  · exact fun j _ vivant => absurd (mort j) vivant
  · exact ⟨fun _ => 0, fun j _ vivant => absurd (mort j) vivant⟩

theorem stable_of_atteint {C : Noyau → Evenement → Prop} {k : Noyau} (atteint : Atteint env C k) :
    Stable k := by
  refine Atteint.induction env (fun k₀ boot => .inl (initialiser_depart env boot)) ?_ atteint
  intro k e k' _ stable autorise _ resultat
  exact ((pas_sat env stable autorise).of_ok resultat).1

theorem enCours_of_atteint {C : Noyau → Evenement → Prop} {k : Noyau} {a : Indice}
    (atteint : Atteint env C k) (actif : k.pidActif = some a) : EnCours k a := by
  rcases stable_of_atteint env atteint with depart | ⟨b, cours⟩
  · cases depart.pidActif.symm.trans actif
  · cases cours.pidActif.symm.trans actif
    exact cours

end ProjetSysteme.Invariant
