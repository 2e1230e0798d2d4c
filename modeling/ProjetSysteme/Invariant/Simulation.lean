/- Invariant/Simulation
   digest: Every event of the kernel is a step of the channels that its message queues stand for. -/

import ProjetSysteme.Invariant.Event

set_option autoImplicit false
set_option relaxedAutoImplicit false

namespace ProjetSysteme.Invariant

open Kernel Library Library.PriorityList Library.Channel.State

section Updates

variable (k : Noyau) (i : Indice) (fid : IndiceFile)

theorem canaux_noter {f : Fait} {ev : Channel.Event Indice IndiceFile Int}
    (concerne : evenementDe f = some ev) : canaux (k.noter f) = (canaux k).note ev := by
  simp [canaux, Noyau.noter, note, concerne]

theorem canaux_modifieFile (f : FileMessage → FileMessage) :
    canaux (k.modifieFile fid f) = (canaux k).setChan fid (canalDe (f (k.files fid))) := by
  refine Channel.State.ext (funext fun g => ?_) rfl rfl rfl
  rw [setChan_chan]
  simp only [canaux, Noyau.modifieFile]
  split
  · next meme => rw [meme]
  · rfl

theorem canaux_modifieFile_meme {f : FileMessage → FileMessage}
    (meme : ∀ x, canalDe (f x) = canalDe x) : canaux (k.modifieFile fid f) = canaux k := by
  rw [canaux_modifieFile, meme]
  exact setChan_self ..

theorem canaux_modifie {f : Processus → Processus}
    (drapeau : drapeauDe (f (k.table i)) = drapeauDe (k.table i)) :
    canaux (k.modifie i f) = (canaux k).setPhase i (phaseDe (f (k.table i))) := by
  refine Channel.State.ext rfl (funext fun j => ?_) (funext fun j => ?_) rfl
  · rw [setPhase_phase]
    simp only [canaux, Noyau.modifie_table]
    split
    · next meme => rw [meme]
    · rfl
  · simp only [canaux, Noyau.modifie_table, setPhase_flag]
    split
    · next meme => rw [meme, drapeau]
    · rfl

theorem canaux_suspend (s : Suite) : canaux (k.suspend i s) =
    (canaux k).setPhase i (phaseDe { k.table i with suite := s }) :=
  canaux_modifie k i rfl

theorem canaux_finAppelFile (v : Int) :
    canaux (finAppelFile k i v) = ((canaux k).setPhase i .idle).setFlag i false := by
  refine Channel.State.ext rfl (funext fun j => ?_) (funext fun j => ?_) rfl
  · simp only [setFlag_phase, setPhase_phase, canaux, finAppelFile, Noyau.renvoie, Noyau.suspend,
      Noyau.modifie_table]
    split
    · exact phaseDe_idle (.inr (.inr trivial))
    · rfl
  · simp only [setFlag_flag, setPhase_flag, canaux, finAppelFile, Noyau.renvoie, Noyau.suspend,
      Noyau.modifie_table]
    split <;> rfl

theorem canaux_finAppelFile_baisse (baisse : (k.table i).valresetfile = 0) (v : Int) :
    canaux (finAppelFile k i v) = (canaux k).setPhase i .idle := by
  have clear : ((canaux k).setPhase i .idle).flag i = false := by
    simp [canaux, drapeauDe, baisse]
  rw [canaux_finAppelFile, ← clear, setFlag_self]

theorem canaux_change {k k' : Noyau} {pr : Indice} {e : EtatProcessus} (change : Change k pr e k') :
    canaux k' = (canaux k).setPhase pr (phaseDe { k.table pr with etat := e }) := by
  have table : ∀ j, k'.table j = if j = pr then { k.table pr with etat := e } else k.table j := by
    intro j
    rw [change.champs, change.etat]
    split
    · next meme => rw [meme]
    · rfl
  refine Channel.State.ext ?_ (funext fun j => ?_) (funext fun j => ?_) ?_
  · simp only [canaux, change.files, setPhase]
  · rw [setPhase_phase]
    simp only [canaux, table]
    split <;> rfl
  · simp only [canaux, table, setPhase_flag]
    split
    · next meme => rw [meme]; rfl
    · rfl
  · simp only [canaux, setPhase_history]
    rw [change.noyau]

theorem canaux_bloque {k k' : Noyau} {a : Indice} {s : Suite} {e : EtatProcessus}
    (change : Change (k.suspend a s) a e k') :
    canaux k' = (canaux k).setPhase a (phaseDe { k.table a with suite := s, etat := e }) := by
  rw [canaux_change change, canaux_suspend, setPhase_setPhase, Noyau.suspend,
    Noyau.modifie_table_self]

end Updates

/-- The running process makes a call from its own code, and the call is recorded. -/
def Enregistre (k : Noyau) (e : Evenement) : Prop :=
  ∀ a x, e = .appel x → k.pidActif = some a →
    (k.table a).suite = .execution ∧ ∃ reste, k.journal = .appel a x :: reste

/-- What an event has to do with the action of the channels that it amounts to. -/
def Etiquette (k : Noyau) (e : Evenement) : Channel.Action Indice IndiceFile Int → Prop
  | .tick => True
  | .call _ => False
  | .leave i => ∃ pid, e = .appel (.kill pid) ∧ indice? pid = some i
  | .create _ => ∃ count, e = .appel (.pcreate count)
  | .blockReceive a fid | .receive a fid _ => k.pidActif = some a ∧ Recoit k e a fid
  | .blockSend a fid message | .send a fid message =>
    k.pidActif = some a ∧ Emet k e a fid message
  | .refuse a => k.pidActif = some a ∧ (k.table a).valresetfile ≠ 0
  | .giveUp a fid => k.pidActif = some a ∧ e = .reprise ∧
    (∃ message, (k.table a).suite = .psendAttente fid message) ∧
    (k.files fid).nbelem = (k.files fid).size
  | .reset fid => ∃ n, e = .appel (.preset n) ∧ fileOuverte? k n = some fid
  | .delete fid => ∃ n, e = .appel (.pdelete n) ∧ fileOuverte? k n = some fid

theorem statut_of_ouverte {k : Noyau} {n : Int} {fid : IndiceFile}
    (ouverte : fileOuverte? k n = some fid) : (k.files fid).statut = true := by
  unfold fileOuverte? at ouverte
  split at ouverte
  · cases ouverte
  · split at ouverte
    · next statut =>
        rw [← Option.some.inj ouverte]
        exact statut
    · cases ouverte

section Tests

variable {k : Noyau} {e : Evenement} {a : Indice} {fid : IndiceFile}

theorem fresh_of_appel (enregistre : Enregistre k e) (actif : k.pidActif = some a) {x : Appel}
    (appel : e = .appel x) {n : Int} (ouverte : fileOuverte? k n = some fid) :
    (canaux k).Fresh a fid := by
  obtain ⟨suite, reste, journal⟩ := enregistre a x appel actif
  refine ⟨phaseDe_idle (.inr (.inr ?_)), statut_of_ouverte ouverte, ?_⟩
  · rw [suite]
    trivial
  · simp [canaux, journal, evenementDe]

theorem Recoit.receiving (sain : Sain k) (enregistre : Enregistre k e)
    (actif : k.pidActif = some a) (recoit : Recoit k e a fid) : (canaux k).Receiving a fid := by
  rcases recoit with ⟨n, appel, ouverte⟩ | ⟨_, suite⟩
  · exact .inr (fresh_of_appel enregistre actif appel ouverte)
  · refine .inl (phaseDe_wokenReceive.mpr ⟨suite, ?_⟩)
    simp [sain.actif a actif]

theorem Emet.sending (sain : Sain k) (enregistre : Enregistre k e) (actif : k.pidActif = some a)
    {message : Int} (emet : Emet k e a fid message) : (canaux k).Sending a fid message := by
  rcases emet with ⟨n, appel, ouverte⟩ | ⟨_, suite⟩
  · exact .inr (fresh_of_appel enregistre actif appel ouverte)
  · refine .inl (phaseDe_wokenSend.mpr ⟨suite, ?_⟩)
    simp [sain.actif a actif]

theorem drapeau_baisse (baisse : (k.table a).valresetfile = 0) : (canaux k).flag a = false := by
  simp [canaux, drapeauDe, baisse]

theorem Sain.stored_length (sain : Sain k) (fid : IndiceFile) :
    (((canaux k).chan fid).stored.length : ℤ) = (k.files fid).nbelem :=
  (sain.files.nbelem fid).symm

theorem phaseDe_retour (p : Processus) (v : Int) : phaseDe { p with suite := .retour v } = .idle :=
  phaseDe_idle (.inr (.inr trivial))

theorem canaux_renvoie (avant : HorsFile (k.table a).suite) (v : Int) :
    canaux (k.renvoie a v) = canaux k := by
  have apres : phaseDe { k.table a with suite := .retour v } = (canaux k).phase a := by
    exact (phaseDe_retour _ v).trans (phaseDe_idle (.inr (.inr avant))).symm
  rw [Noyau.renvoie, canaux_suspend, apres, setPhase_self]

end Tests

theorem toFinset_place (n : ProcessBloque) (l : List ProcessBloque) :
    ((place ProcessBloque.prio n l).map ProcessBloque.pid).toFinset =
      insert n.pid (l.map ProcessBloque.pid).toFinset := by
  ext i
  simp [eq_comm]

theorem toFinset_dropLast {l : List ProcessBloque} {q : ProcessBloque}
    (nodup : (l.map ProcessBloque.pid).Nodup) (dernier : l.getLast? = some q) :
    (l.dropLast.map ProcessBloque.pid).toFinset =
      (l.map ProcessBloque.pid).toFinset.erase q.pid := by
  have dernier' : (l.map ProcessBloque.pid).getLast? = some q.pid := by
    rw [List.getLast?_map, dernier]
    rfl
  ext i
  rw [List.map_dropLast, Finset.mem_erase, List.mem_toFinset, List.mem_toFinset,
    mem_dropLast nodup dernier']
  exact and_comm

section Files

variable {f : FileMessage} {p : Processus} {fid : IndiceFile} {message : Int} {q : ProcessBloque}

theorem canalDe_attend_reception (n : ProcessBloque) : canalDe { f with
      listeProcBloqueReception := place ProcessBloque.prio n f.listeProcBloqueReception } =
    { canalDe f with receivers := insert n.pid (canalDe f).receivers } := by
  simp only [canalDe, toFinset_place]

theorem canalDe_attend_envoi (n : ProcessBloque) : canalDe { f with
      listeProcBloqueEnvoi := place ProcessBloque.prio n f.listeProcBloqueEnvoi } =
    { canalDe f with senders := insert n.pid (canalDe f).senders } := by
  simp only [canalDe, toFinset_place]

theorem canalDe_sort_emetteur (nodup : (f.listeProcBloqueEnvoi.map ProcessBloque.pid).Nodup)
    (dernier : f.listeProcBloqueEnvoi.getLast? = some q) (reste : List Int) (nbelem : Int) :
    canalDe { f with
      file := reste, nbelem := nbelem, listeProcBloqueEnvoi := f.listeProcBloqueEnvoi.dropLast } =
    { canalDe f with stored := reste, senders := (canalDe f).senders.erase q.pid } := by
  simp only [canalDe, toFinset_dropLast nodup dernier]

theorem canalDe_sort_recepteur (nodup : (f.listeProcBloqueReception.map ProcessBloque.pid).Nodup)
    (dernier : f.listeProcBloqueReception.getLast? = some q) (file : List Int) (nbelem : Int) :
    canalDe { f with
      file := file, nbelem := nbelem
      listeProcBloqueReception := f.listeProcBloqueReception.dropLast } =
    { canalDe f with stored := file, receivers := (canalDe f).receivers.erase q.pid } := by
  simp only [canalDe, toFinset_dropLast nodup dernier]

theorem phaseDe_reveil_recepteur (etat : p.etat = .bloqueSurReception)
    (suite : p.suite = .preceiveAttente fid) :
    phaseDe { p with etat := .activable } = (phaseDe p).wake := by
  rw [phaseDe_blockedReceive.mpr ⟨etat, suite⟩]
  exact phaseDe_wokenReceive.mpr ⟨suite, by simp⟩

theorem phaseDe_reveil_emetteur (etat : p.etat = .bloqueSurEnvoi)
    (suite : p.suite = .psendAttente fid message) :
    phaseDe { p with etat := .activable } = (phaseDe p).wake := by
  rw [phaseDe_blockedSend.mpr ⟨etat, suite⟩]
  exact phaseDe_wokenSend.mpr ⟨suite, by simp⟩

end Files

theorem canaux_vide {k k' : Noyau} {fid : IndiceFile} (vide : Vide fid k k')
    (files : FilesSaines k) : canaux k' = (canaux k).release fid := by
  have appartient : ∀ i, i ∈ (canaux k).waiting fid ↔ ∃ n ∈ (k.files fid).listeProcBloqueReception ++
      (k.files fid).listeProcBloqueEnvoi, n.pid = i := by
    intro i
    simp only [mem_waiting, canaux, canalDe, List.mem_toFinset, List.mem_map, List.mem_append,
      or_and_right, exists_or]
  refine Channel.State.ext (funext fun g => ?_) (funext fun i => ?_) (funext fun i => ?_) ?_
  · rw [release_chan]
    simp only [canaux, vide.files, Noyau.modifieFile]
    split
    · next meme => rw [meme]; rfl
    · rfl
  · rw [release_phase]
    split
    · next attend =>
        obtain ⟨n, mem, rfl⟩ := (appartient i).mp attend
        simp only [canaux, vide.reveille _ ⟨n, mem, rfl⟩]
        rcases List.mem_append.mp mem with mem | mem
        · obtain ⟨etat, suite⟩ := files.recepteurs fid n mem
          rw [phaseDe_blockedReceive.mpr ⟨etat, suite⟩]
          exact phaseDe_wokenReceive.mpr ⟨suite, by simp⟩
        · obtain ⟨etat, message, suite⟩ := files.emetteurs fid n mem
          rw [phaseDe_blockedSend.mpr ⟨etat, suite⟩]
          exact phaseDe_wokenSend.mpr ⟨suite, by simp⟩
    · next absent =>
        rw [appartient] at absent
        push Not at absent
        simp only [canaux, vide.autres i absent]
  · rw [release_flag]
    split
    · next attend => simp only [canaux, vide.reveille i ((appartient i).mp attend)]; rfl
    · next absent =>
        rw [appartient] at absent
        push Not at absent
        simp only [canaux, vide.autres i absent]
  · rw [release_history, vide.noyau]
    rfl

theorem Vide.appelant {k k' : Noyau} {fid : IndiceFile} (vide : Vide fid k k') (sain : Sain k)
    {a : Indice} (actif : k.pidActif = some a) : k'.table a = k.table a := by
  refine vide.autres a fun n mem meme => ?_
  have etat := sain.actif a actif
  rw [← meme] at etat
  rcases List.mem_append.mp mem with mem | mem
  · rw [(sain.files.recepteurs fid n mem).1] at etat
    cases etat
  · rw [(sain.files.emetteurs fid n mem).1] at etat
    cases etat

section Effets

variable {e : Evenement} {k k₁ : Noyau} {a : Indice} {fid : IndiceFile} {message : Int} {reste : List Int} {q : ProcessBloque}

theorem simule_creer {count nbFiles : Int} (avant : HorsFile (k.table a).suite) (positif : 0 < count)
    (libre : (k.files fid).statut = false) :
    Channel.Step (canaux k) (.create fid) (canaux ((({ k.modifieFile fid (nouvelleFile count) with
      nbFiles := nbFiles } : Noyau).noter (.creation fid)).renvoie a (fid.val : Int))) := by
  set k₂ : Noyau := { k.modifieFile fid (nouvelleFile count) with nbFiles := nbFiles }
  have retour : canaux ((k₂.noter (.creation fid)).renvoie a (fid.val : Int)) = canaux (k₂.noter (.creation fid)) :=
    canaux_renvoie (k := k₂.noter (.creation fid)) avant _
  have creation : canaux (k₂.noter (.creation fid)) =
      (canaux (k.modifieFile fid (nouvelleFile count))).note (.created fid) := rfl
  rw [retour, creation, canaux_modifieFile]
  exact .create count libre positif

theorem simule_bloquerReception (sain : Sain k) (enregistre : Enregistre k e) (actif : k.pidActif = some a)
    (appel : Recoit k e a fid) (vide : (k.files fid).nbelem = 0) (drapeau : (k.table a).valresetfile = 0)
    (change : Change ((k.modifieFile fid fun f =>
      { f with
        listeProcBloqueReception := place ProcessBloque.prio (noeud k a) f.listeProcBloqueReception }).suspend a
      (.preceiveAttente fid)) a .bloqueSurReception k₁) :
    Channel.Step (canaux k) (.blockReceive a fid)
      (canaux (k₁.modifieFile fid fun f => { f with nbprocRecep := f.nbprocRecep + 1 })) := by
  have vide' : ((canaux k).chan fid).stored = [] := by
    have longueur := sain.stored_length fid
    rw [vide] at longueur
    exact List.eq_nil_of_length_eq_zero (by omega)
  have phase : phaseDe { k.table a with
      suite := .preceiveAttente fid, etat := .bloqueSurReception } = .blockedReceive fid :=
    phaseDe_blockedReceive.mpr ⟨rfl, rfl⟩
  rw [canaux_modifieFile_meme k₁ fid, canaux_bloque change, canaux_modifieFile,
    Noyau.modifieFile_table, phase, canalDe_attend_reception (noeud k a)]
  · exact .blockReceive (appel.receiving sain enregistre actif) vide' (drapeau_baisse drapeau)
  · exact fun _ => rfl

theorem simule_bloquerEnvoi (sain : Sain k) (enregistre : Enregistre k e) (actif : k.pidActif = some a)
    (appel : Emet k e a fid message) (neuf : HorsFile (k.table a).suite)
    (plein : (k.files fid).nbelem = (k.files fid).size) (drapeau : (k.table a).valresetfile = 0)
    (change : Change ((k.modifieFile fid fun f =>
      { f with listeProcBloqueEnvoi := place ProcessBloque.prio (noeud k a) f.listeProcBloqueEnvoi }).suspend a
      (.psendAttente fid message)) a .bloqueSurEnvoi k₁) :
    Channel.Step (canaux k) (.blockSend a fid message)
      (canaux (k₁.modifieFile fid fun f => { f with nbprocEnvoi := f.nbprocEnvoi + 1 })) := by
  have fresh : (canaux k).Fresh a fid := by
    refine (appel.sending sain enregistre actif).resolve_left fun woken => ?_
    rw [show (canaux k).phase a = .idle from phaseDe_idle (.inr (.inr neuf))] at woken
    cases woken
  have phase : phaseDe { k.table a with
      suite := .psendAttente fid message, etat := .bloqueSurEnvoi } = .blockedSend fid message :=
    phaseDe_blockedSend.mpr ⟨rfl, rfl⟩
  rw [canaux_modifieFile_meme k₁ fid, canaux_bloque change, canaux_modifieFile,
    Noyau.modifieFile_table, phase, canalDe_attend_envoi (noeud k a)]
  · exact .blockSend fresh ((sain.stored_length fid).trans plein) (drapeau_baisse drapeau)
  · exact fun _ => rfl

theorem simule_prendre (sain : Sain k) (enregistre : Enregistre k e) (actif : k.pidActif = some a)
    (appel : Recoit k e a fid) (drapeau : (k.table a).valresetfile = 0) (tete : (k.files fid).file = message :: reste)
    (sans : (k.files fid).nbelem = (k.files fid).size → (k.files fid).listeProcBloqueEnvoi = []) :
    Channel.Step (canaux k) (.receive a fid message) (canaux (finAppelFile ((k.modifieFile fid fun f =>
      { f with file := reste, nbelem := f.nbelem - 1 }).noter (.reception a fid message)) a 0)) := by
  have fait : evenementDe (.reception a fid message) = some (.received a fid message) := rfl
  rw [canaux_finAppelFile_baisse, canaux_noter _ fait, canaux_modifieFile]
  · refine .receive (appel.receiving sain enregistre actif) (drapeau_baisse drapeau) tete ?_
    intro plein
    rw [sain.stored_length] at plein
    simp [canaux, canalDe, sans plein]
  · exact drapeau

theorem simule_prendreReveil (sain : Sain k) (enregistre : Enregistre k e) (actif : k.pidActif = some a)
    (appel : Recoit k e a fid) (drapeau : (k.table a).valresetfile = 0) (tete : (k.files fid).file = message :: reste)
    (plein : (k.files fid).nbelem = (k.files fid).size)
    (dernier : (k.files fid).listeProcBloqueEnvoi.getLast? = some q)
    (change : Change (((k.modifieFile fid fun f =>
      { f with
        file := reste, nbelem := f.nbelem - 1
        listeProcBloqueEnvoi := f.listeProcBloqueEnvoi.dropLast }).noter
      (.reception a fid message)).suspend a .preceiveFin) q.pid .activable k₁) :
    Channel.Step (canaux k) (.receive a fid message)
      (canaux (k₁.modifieFile fid fun f => { f with nbprocEnvoi := f.nbprocEnvoi - 1 })) := by
  obtain ⟨etat, m, suite⟩ := sain.files.emetteurs fid q (last_mem dernier)
  have autre : q.pid ≠ a := sain.emetteur_passif actif (last_mem dernier)
  have fait : evenementDe (.reception a fid message) = some (.received a fid message) := rfl
  have fin : phaseDe { k.table a with suite := .preceiveFin } = .idle :=
    phaseDe_idle (.inr (.inr trivial))
  rw [canaux_modifieFile_meme k₁ fid, canaux_change change, canaux_suspend,
    canaux_noter _ fait, canaux_modifieFile]
  · have inchange : (((k.modifieFile fid fun f =>
        { f with
          file := reste, nbelem := f.nbelem - 1
          listeProcBloqueEnvoi := f.listeProcBloqueEnvoi.dropLast }).noter
        (.reception a fid message)).suspend a .preceiveFin).table q.pid = k.table q.pid :=
      Noyau.modifie_table_ne _ _ autre
    rw [inchange, phaseDe_reveil_emetteur etat suite,
      canalDe_sort_emetteur (sain.files.emetteurs_nodup fid) dernier, Noyau.noter_table,
      Noyau.modifieFile_table, fin]
    refine .receiveWake (appel.receiving sain enregistre actif) (drapeau_baisse drapeau) tete
      ((sain.stored_length fid).trans plein) ?_
    exact List.mem_toFinset.mpr (List.mem_map_of_mem (last_mem dernier))
  · exact fun _ => rfl

theorem simule_deposer (sain : Sain k) (enregistre : Enregistre k e) (actif : k.pidActif = some a)
    (appel : Emet k e a fid message) (place : (k.files fid).nbelem ≠ (k.files fid).size)
    (drapeau : (k.table a).valresetfile = 0)
    (sans : (k.files fid).nbelem = 0 → (k.files fid).listeProcBloqueReception = []) :
    Channel.Step (canaux k) (.send a fid message) (canaux (finAppelFile ((k.modifieFile fid fun f =>
      { f with file := f.file ++ [message], nbelem := f.nbelem + 1 }).noter (.envoi a fid message)) a 0)) := by
  have fait : evenementDe (.envoi a fid message) = some (.sent a fid message) := rfl
  rw [canaux_finAppelFile_baisse, canaux_noter _ fait, canaux_modifieFile]
  · refine .send (appel.sending sain enregistre actif) (drapeau_baisse drapeau) ?_ ?_
    · rw [sain.stored_length]
      exact place
    · intro vide
      have longueur := sain.stored_length fid
      rw [vide] at longueur
      simp [canaux, canalDe, sans longueur.symm]
  · exact drapeau

theorem simule_deposerReveil (sain : Sain k) (enregistre : Enregistre k e) (actif : k.pidActif = some a)
    (appel : Emet k e a fid message) (place : (k.files fid).nbelem ≠ (k.files fid).size)
    (drapeau : (k.table a).valresetfile = 0) (vide : (k.files fid).nbelem = 0)
    (dernier : (k.files fid).listeProcBloqueReception.getLast? = some q)
    (change : Change ((k.modifieFile fid fun f =>
      { f with
        file := f.file ++ [message], nbelem := f.nbelem + 1
        listeProcBloqueReception := f.listeProcBloqueReception.dropLast }).noter
      (.envoi a fid message)) q.pid .activable k₁) :
    Channel.Step (canaux k) (.send a fid message) (canaux (finAppelFile (k₁.modifieFile fid fun f =>
      { f with nbprocRecep := f.nbprocRecep - 1 }) a 0)) := by
  obtain ⟨etat, suite⟩ := sain.files.recepteurs fid q (last_mem dernier)
  have autre : q.pid ≠ a := sain.recepteur_passif actif (last_mem dernier)
  have fait : evenementDe (.envoi a fid message) = some (.sent a fid message) := rfl
  have longueur := sain.stored_length fid
  have garde : (k₁.table a).valresetfile = 0 := by
    rw [change.champs]
    exact drapeau
  rw [canaux_finAppelFile_baisse, canaux_modifieFile_meme k₁ fid, canaux_change change,
    Noyau.noter_table, Noyau.modifieFile_table, phaseDe_reveil_recepteur etat suite,
    canaux_noter _ fait, canaux_modifieFile,
    canalDe_sort_recepteur (sain.files.recepteurs_nodup fid) dernier, setPhase_comm _ _ _ autre]
  · refine .sendWake (appel.sending sain enregistre actif) (drapeau_baisse drapeau) ?_ ?_ ?_
    · rw [longueur]
      exact place
    · rw [vide] at longueur
      exact List.eq_nil_of_length_eq_zero (by omega)
    · exact List.mem_toFinset.mpr (List.mem_map_of_mem (last_mem dernier))
  · exact fun _ => rfl
  · exact garde

theorem simule_refuser (sain : Sain k) (enregistre : Enregistre k e) (actif : k.pidActif = some a)
    (appel : Recoit k e a fid ∨ ∃ message, Emet k e a fid message ∧
      (e = .reprise → (k.files fid).nbelem ≠ (k.files fid).size)) (drapeau : (k.table a).valresetfile ≠ 0) :
    Channel.Step (canaux k) (.refuse a) (canaux (finAppelFile k a (-1))) := by
  rw [canaux_finAppelFile]
  refine .refuse ?_ (by simp [canaux, drapeauDe, drapeau])
  rcases appel with recoit | ⟨message, emet, _⟩
  · rcases recoit.receiving sain enregistre actif with woken | ⟨idle, _⟩
    · exact .inl (by rw [woken]; trivial)
    · exact .inr idle
  · rcases emet.sending sain enregistre actif with woken | ⟨idle, _⟩
    · exact .inl (by rw [woken]; trivial)
    · exact .inr idle

theorem simule_abandonner (sain : Sain k) (actif : k.pidActif = some a)
    (suite : (k.table a).suite = .psendAttente fid message) (plein : (k.files fid).nbelem = (k.files fid).size) :
    Channel.Step (canaux k) (.giveUp a fid) (canaux (k.renvoie a (-1))) := by
  rw [Noyau.renvoie, canaux_suspend, phaseDe_retour]
  refine .giveUp (m := message) (phaseDe_wokenSend.mpr ⟨suite, ?_⟩) ((sain.stored_length fid).trans plein)
  simp [sain.actif a actif]

theorem simule_vider {n : Int} (sain : Sain k) (actif : k.pidActif = some a) (avant : HorsFile (k.table a).suite)
    (ouverte : fileOuverte? k n = some fid) (vide : Vide fid k k₁) :
    Channel.Step (canaux k) (.reset fid) (canaux (k₁.renvoie a 0)) := by
  rw [canaux_renvoie, canaux_vide vide sain.files]
  · exact .reset (statut_of_ouverte ouverte)
  · rw [vide.appelant sain actif]
    exact avant

theorem simule_supprimer {n nbFiles : Int} (sain : Sain k) (actif : k.pidActif = some a)
    (avant : HorsFile (k.table a).suite) (ouverte : fileOuverte? k n = some fid) (vide : Vide fid k k₁) :
    Channel.Step (canaux k) (.delete fid) (canaux
      ((({ k₁.modifieFile fid (fun f => { f with size := 0, statut := false }) with
        nbFiles := nbFiles } : Noyau).noter (.destruction fid)).renvoie a 0)) := by
  set k₂ : Noyau := { k₁.modifieFile fid fun f => { f with size := 0, statut := false } with nbFiles := nbFiles }
  have avant₂ : HorsFile ((k₂.noter (.destruction fid)).table a).suite := by
    rw [show (k₂.noter (.destruction fid)).table = k₁.table from rfl, vide.appelant sain actif]
    exact avant
  have destruction : canaux (k₂.noter (.destruction fid)) =
      (canaux (k₁.modifieFile fid fun f => { f with size := 0, statut := false })).note (.deleted fid) := rfl
  have canal : canalDe { k₁.files fid with size := 0, statut := false } =
      { isOpen := false, size := 0, stored := [], receivers := ∅, senders := ∅ } := by
    rw [vide.files, Noyau.modifieFile_files_self]
    rfl
  rw [canaux_renvoie avant₂, destruction, canaux_modifieFile, canal, canaux_vide vide sain.files]
  exact .delete (statut_of_ouverte ouverte)

end Effets

theorem EffetFile.simule {e : Evenement} {k k' : Noyau} (sain : Sain k)
    (enregistre : Enregistre k e) (effet : EffetFile e k k') :
    ∃ act, Channel.Step (canaux k) act (canaux k') ∧ Etiquette k e act := by
  cases effet with
  | creer count nbFiles actif avant appel positif libre =>
      exact ⟨.create _, simule_creer avant positif libre, count, appel⟩
  | bloquerReception actif nonZero appel vide drapeau change =>
      exact ⟨.blockReceive .., simule_bloquerReception sain enregistre actif appel vide drapeau change, actif, appel⟩
  | bloquerEnvoi actif nonZero appel neuf plein drapeau change =>
      exact ⟨.blockSend .., simule_bloquerEnvoi sain enregistre actif appel neuf plein drapeau change, actif, appel⟩
  | prendre actif appel drapeau tete sans =>
      exact ⟨.receive .., simule_prendre sain enregistre actif appel drapeau tete sans, actif, appel⟩
  | prendreReveil actif nonZero appel drapeau tete plein dernier change =>
      exact ⟨.receive .., simule_prendreReveil sain enregistre actif appel drapeau tete plein dernier change, actif, appel⟩
  | deposer actif appel place drapeau sans =>
      exact ⟨.send .., simule_deposer sain enregistre actif appel place drapeau sans, actif, appel⟩
  | deposerReveil actif appel place drapeau vide dernier change =>
      exact ⟨.send .., simule_deposerReveil sain enregistre actif appel place drapeau vide dernier change, actif, appel⟩
  | refuser actif appel drapeau =>
      exact ⟨.refuse _, simule_refuser sain enregistre actif appel drapeau, actif, drapeau⟩
  | abandonner actif reprise suite plein =>
      exact ⟨.giveUp .., simule_abandonner sain actif suite plein, actif, reprise, ⟨_, suite⟩, plein⟩
  | vider n actif avant appel ouverte vide =>
      exact ⟨.reset _, simule_vider sain actif avant ouverte vide, n, appel, ouverte⟩
  | supprimer n nbFiles actif avant appel ouverte vide =>
      exact ⟨.delete _, simule_supprimer sain actif avant ouverte vide, n, appel, ouverte⟩

end ProjetSysteme.Invariant
