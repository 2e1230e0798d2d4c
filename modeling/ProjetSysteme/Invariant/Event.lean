/- Invariant/Event
   digest: Message queues, console and clock: every event of a run has one of the effects of Effect. -/

import ProjetSysteme.Invariant.Release

set_option autoImplicit false
set_option relaxedAutoImplicit false

namespace ProjetSysteme.Invariant

open Kernel Library.PriorityList Library.Outcome

section Files

variable {e : Evenement} {k : Noyau} {a : Indice}

theorem chprio_ok (sain : Sain k) (actif : k.pidActif = some a) (avant : HorsFile (k.table a).suite)
    (pid newprio : Int) : Sat (chprio k a pid newprio) (Suivant e k) EstFaute := by
  unfold chprio
  split
  · exact renvoie_suivant actif avant _
  · next pr _ =>
      split
      · exact renvoie_suivant actif avant _
      · next garde =>
          simp only [not_or] at garde
          split
          · exact renvoie_suivant actif avant _
          · obtain ⟨k₁, run, reclasse, valide₁⟩ := replacerActivable_ok sain.valide pr newprio
            have effet : Effet e k (k₁.renvoie a (k.table pr).prio) :=
              .processus (.reclasser newprio _ actif avant garde.2.1 reclasse)
            have cours := (reclasse.enCours valide₁ (sain.enCours actif)).renvoie a (k.table pr).prio
            have etat : (k₁.table a).etat = .actif := by
              rw [reclasse.champs]
              exact sain.actif a actif
            simp only [run]
            unfold cederAuPlusPrioritaire
            simp only [bind, Except.bind]
            split
            · exact .effet effet
            · split
              · obtain ⟨k', run', ord⟩ := ordonnancer_ok cours.interne.valide.coherent
                  (fun b actif' => by
                    rw [← Option.some.inj (cours.pidActif.symm.trans actif'),
                      (MemeVue.renvoie k₁ a _).etat, etat]
                    exact EtatProcessus.noConfusion)
                exact .of_eq run' (.ordonnance effet ord)
              · exact .effet effet

theorem pcreate_ok (actif : k.pidActif = some a) (avant : HorsFile (k.table a).suite) (count : Int) :
    Sat (pcreate k a count) (Suivant (.appel (.pcreate count)) k) EstFaute := by
  unfold pcreate
  split
  · exact renvoie_suivant actif avant _
  · next garde =>
      split
      · exact ⟨_, rfl⟩
      · next fid trouve =>
          have libre := List.find?_some trouve
          simp only [not_or, not_le] at garde
          exact .effet (.file (.creer count _ actif avant rfl garde.2.1 (by simpa using libre)))

theorem blocageFile_ok (sain : Sain k) (actif : k.pidActif = some a) (fid : IndiceFile)
    (f g : FileMessage → FileMessage) (s : Suite) {bloque : EtatProcessus} (simple : Simple bloque)
    (autre : bloque ≠ .activable)
    (effet : ∀ k', Change ((k.modifieFile fid f).suspend a s) a bloque k' →
      EffetFile e k (k'.modifieFile fid g)) :
    Sat (definirEtat ((k.modifieFile fid f).suspend a s) a bloque >>= fun k =>
      ordonnancer (k.modifieFile fid g)) (SuivantFile e k) EstFaute := by
  have vue : MemeVue k ((k.modifieFile fid f).suspend a s) :=
    (MemeVue.modifieFile k fid f).trans (.suspend _ a s)
  obtain ⟨k₁, k', run, run', change, ord⟩ := bloquer_ok (sain.valide.transport vue) actif simple
    autre (by rw [vue.etat]; exact sain.vivant actif) (·.modifieFile fid g) (.modifieFile · fid g)
  rw [run]
  exact .of_eq run' (.ordonnance (effet k₁ change) ord)

theorem reveillerEmetteur_ok (sain : Sain k) (actif : k.pidActif = some a) (nonZero : a ≠ 0)
    {fid : IndiceFile} (appel : Recoit k e a fid) (drapeau : (k.table a).valresetfile = 0)
    {message : Int} {reste : List Int} (tete : (k.files fid).file = message :: reste) :
    Sat (reveillerEmetteur ((k.modifieFile fid fun f =>
        { f with file := reste, nbelem := f.nbelem - 1 }).noter (.reception a fid message)) a fid)
      (SuivantFile e k) EstFaute := by
  unfold reveillerEmetteur
  simp only [Noyau.noter_files, Noyau.modifieFile_files_self]
  split
  · next plein =>
      split
      · next sans =>
          exact .effet (.prendre actif appel drapeau tete fun _ => List.getLast?_eq_none_iff.mp sans)
      · next q dernier =>
          set k₁ := (((k.modifieFile fid fun f =>
            { f with
              file := reste, nbelem := f.nbelem - 1
              listeProcBloqueEnvoi := f.listeProcBloqueEnvoi.dropLast }).noter
            (.reception a fid message)).suspend a .preceiveFin) with defk₁
          have meme : (((k.modifieFile fid fun f =>
              { f with file := reste, nbelem := f.nbelem - 1 }).noter
              (.reception a fid message)).modifieFile fid fun f =>
              { f with listeProcBloqueEnvoi := f.listeProcBloqueEnvoi.dropLast }).suspend a
              .preceiveFin = k₁ := by
            rw [defk₁, Noyau.modifieFile_noter, Noyau.modifieFile_modifieFile]
          have vue : MemeVue k k₁ := by
            refine MemeVue.trans ?_ (.suspend _ a _)
            exact (MemeVue.modifieFile k fid _).trans (.noter _ _)
          have emetteur := (sain.files.emetteurs fid q (last_mem dernier)).1
          obtain ⟨k₂, run, change, valide₂⟩ := definirEtat_vivant (sain.valide.transport vue)
            q.pid simple_activable (by simp [vue.etat, emetteur])
          have valide₃ : Valide (k₂.modifieFile fid fun f => { f with nbprocEnvoi := f.nbprocEnvoi - 1 }) :=
            valide₂.of_table rfl rfl rfl rfl
          obtain ⟨k', run', ord⟩ := ordonnancer_ok valide₃.coherent (fun b actif' => by
            have estA : b = a := Option.some.inj
              ((show k₂.pidActif = some b from actif').symm.trans (change.pidActif.trans actif))
            have autre : a ≠ q.pid := by
              intro estQ
              rw [← estQ, sain.actif a actif] at emetteur
              cases emetteur
            rw [estA, Noyau.modifieFile_table, change.etat, if_neg autre, vue.etat,
              sain.actif a actif]
            exact EtatProcessus.noConfusion)
          rw [meme, run]
          exact .of_eq run' (.ordonnance
            (.prendreReveil actif nonZero appel drapeau tete (by omega) dernier change) ord)
  · next place =>
      exact .effet (.prendre actif appel drapeau tete fun plein => absurd (by omega) place)

theorem preceiveBoucle_ok (sain : Sain k) (actif : k.pidActif = some a) (nonZero : a ≠ 0)
    {fid : IndiceFile} (appel : Recoit k e a fid) :
    Sat (preceiveBoucle k a fid) (SuivantFile e k) EstFaute := by
  unfold preceiveBoucle
  split
  · next vide =>
      exact blocageFile_ok sain actif fid _ _ _ ⟨by simp, by simp, by simp⟩ (by simp)
        fun k' change => .bloquerReception actif nonZero appel vide.1 vide.2 change
  · split
    · next drapeau =>
        split
        · exact ⟨_, rfl⟩
        · next message reste tete =>
            exact reveillerEmetteur_ok sain actif nonZero appel drapeau tete
    · next drapeau => exact .effet (.refuser actif (.inl appel) drapeau)

theorem reveillerRecepteur_ok (sain : Sain k) (actif : k.pidActif = some a) {fid : IndiceFile}
    {message : Int} (appel : Emet k e a fid message)
    (place : (k.files fid).nbelem ≠ (k.files fid).size) (drapeau : (k.table a).valresetfile = 0) :
    Sat (reveillerRecepteur ((k.modifieFile fid fun f =>
        { f with file := f.file ++ [message], nbelem := f.nbelem + 1 }).noter
        (.envoi a fid message)) fid >>= fun k => .ok (finAppelFile k a 0)) (SuivantFile e k) EstFaute := by
  unfold reveillerRecepteur
  simp only [Noyau.noter_files, Noyau.modifieFile_files_self]
  split
  · next premier =>
      split
      · next sans =>
          exact .effet (.deposer actif appel place drapeau fun _ => List.getLast?_eq_none_iff.mp sans)
      · next q dernier =>
          set k₁ := (k.modifieFile fid fun f =>
            { f with
              file := f.file ++ [message], nbelem := f.nbelem + 1
              listeProcBloqueReception := f.listeProcBloqueReception.dropLast }).noter
            (.envoi a fid message) with defk₁
          have meme : ((k.modifieFile fid fun f =>
              { f with file := f.file ++ [message], nbelem := f.nbelem + 1 }).noter
              (.envoi a fid message)).modifieFile fid (fun f =>
              { f with listeProcBloqueReception := f.listeProcBloqueReception.dropLast }) = k₁ := by
            rw [defk₁, Noyau.modifieFile_noter, Noyau.modifieFile_modifieFile]
          have vue : MemeVue k k₁ := (MemeVue.modifieFile k fid _).trans (.noter _ _)
          have recepteur := (sain.files.recepteurs fid q (last_mem dernier)).1
          obtain ⟨k₂, run, change, _⟩ := definirEtat_vivant (sain.valide.transport vue)
            q.pid simple_activable (by simp [vue.etat, recepteur])
          rw [meme, run]
          exact .effet (.deposerReveil actif appel place drapeau (by omega) dernier change)
  · next plusieurs =>
      exact .effet (.deposer actif appel place drapeau fun vide => absurd (by omega) plusieurs)

theorem psendBoucle_ok (sain : Sain k) (actif : k.pidActif = some a) (nonZero : a ≠ 0)
    {fid : IndiceFile} {message : Int} (appel : Emet k e a fid message)
    (neuf : HorsFile (k.table a).suite ∨ (k.files fid).nbelem ≠ (k.files fid).size) :
    Sat (psendBoucle k a fid message) (SuivantFile e k) EstFaute := by
  unfold psendBoucle
  split
  · next plein =>
      exact blocageFile_ok sain actif fid _ _ _ ⟨by simp, by simp, by simp⟩ (by simp)
        fun k' change => .bloquerEnvoi actif nonZero appel
          (neuf.resolve_right fun place => place plein.1) plein.1 plein.2 change
  · next libre =>
      split
      · next drapeau =>
          exact reveillerRecepteur_ok sain actif appel (fun plein => libre ⟨plein, drapeau⟩) drapeau
      · next drapeau =>
          refine .effet (.refuser actif (.inr ⟨message, appel, fun reprise => ?_⟩) drapeau)
          refine neuf.resolve_left fun hors => ?_
          rcases appel with ⟨n, appel, _⟩ | ⟨_, suite⟩
          · rw [reprise] at appel
            cases appel
          · rw [suite] at hors
            exact hors

theorem psendReprise_ok (sain : Sain k) (actif : k.pidActif = some a) {fid : IndiceFile}
    {message : Int} (suite : (k.table a).suite = .psendAttente fid message) :
    Sat (psendReprise k a fid message) (SuivantFile .reprise k) EstFaute := by
  unfold psendReprise
  split
  · next plein => exact .effet (.abandonner actif rfl suite plein)
  · next place =>
      exact psendBoucle_ok sain actif (sain.nonZero actif suite id) (.inr ⟨rfl, suite⟩) (.inr place)

theorem pcount_ok (actif : k.pidActif = some a) (avant : HorsFile (k.table a).suite) (fid : Int)
    (count : Bool) : Sat (pcount k a fid count) (Suivant e k) EstFaute := by
  unfold pcount
  split
  · exact renvoie_suivant actif avant _
  · split
    · split
      · exact ⟨_, rfl⟩
      · exact .effet (.processus (.rendre actif avant trivial
          ⟨rfl, rfl, rfl, rfl, rfl, rfl, rfl, .inr ⟨_, rfl, trivial⟩⟩))
    · exact renvoie_suivant actif avant _

theorem entrerConsRead_ok (sain : Sain k) (actif : k.pidActif = some a) (m : Noyau)
    (attente : m.console.attente = k.console.attente) :
    ∃ liens l, entrerConsRead m a = .ok liens ∧ Chainee liens l ∧ l.Perm (a :: lecteurs k) := by
  have absent : a ∉ lecteurs k := fun mem => sain.lecteur_passif actif mem rfl
  obtain ⟨liens, run, chainee⟩ := sain.console.chainee.entrer (prioLecteur m) absent
  refine ⟨liens, _, ?_, chainee, place_perm _ a _⟩
  rw [entrerConsRead, attente, run]
  rfl

theorem sortirConsRead_ok (sain : Sain k) :
    (lecteurs k = [] ∧ sortirConsRead k = .ok (none, k)) ∨
    ∃ p liens l, lecteurs k = l ++ [p] ∧ Chainee liens l ∧
      sortirConsRead k = .ok (some p, { k with console := { k.console with attente := liens } }) := by
  have chainee := sain.console.chainee
  cases dernier : (lecteurs k).getLast? with
  | none =>
      have vide := List.getLast?_eq_none_iff.mp dernier
      rw [vide] at chainee
      refine .inl ⟨vide, ?_⟩
      rw [sortirConsRead, chainee.sortir_vide]
      rfl
  | some p =>
      obtain ⟨liens, run, reste⟩ := chainee.sortir dernier
      refine .inr ⟨p, liens, _, split_last dernier, reste, ?_⟩
      rw [sortirConsRead, run]
      rfl

theorem consRead_ok (sain : Sain k) (actif : k.pidActif = some a) (nonZero : a ≠ 0)
    (avant : HorsFile (k.table a).suite) (length : UInt32) :
    Sat (consRead k a length) (Suivant (.appel (.consRead length)) k) EstFaute := by
  unfold consRead
  split
  · set k₁ : Noyau := { k with console := { k.console with indexFinLigne := 0 } } with defk₁
    obtain ⟨liens, l, entree, chainee, perm⟩ := entrerConsRead_ok sain actif k₁ rfl
    simp only [entree]
    set console : Console := { k₁.console with attente := liens } with defConsole
    have vue₁ : MemeVue k { k₁ with console := console } := .of_table rfl rfl rfl rfl
    have vue := vue₁.trans (.suspend _ a (.consReadAttente length))
    obtain ⟨k₂, k', run, run', change, ord⟩ := bloquer_ok (sain.valide.transport vue) actif
      (e := .bloqueSurEntreeSortie) ⟨by simp, by simp, by simp⟩ (by simp)
      (by rw [vue.etat]; exact sain.vivant actif) id .refl
    simp only [bind, Except.bind]
    rw [run]
    exact .of_eq run' (.ordonnance
      (.processus (.entrerConsole length actif nonZero rfl avant ⟨console, l, rfl, chainee, perm⟩ change)) ord)
  · exact renvoie_suivant actif avant _

theorem consReadReprise_ok (sain : Sain k) (actif : k.pidActif = some a) {length : UInt32}
    (suite : (k.table a).suite = .consReadAttente length) :
    Sat (consReadReprise k a length) (Suivant e k) EstFaute := by
  unfold consReadReprise
  rw [if_neg (by simp [sain.actif a actif])]
  exact .effet (.processus (.rendre actif (by rw [suite]; trivial) trivial
    ⟨rfl, rfl, rfl, rfl, rfl, rfl, rfl, .inr ⟨_, rfl, trivial⟩⟩))

theorem keyboardData_ok (sain : Sain k)
    (avant : ∀ a, k.pidActif = some a → HorsFile (k.table a).suite) (c : Int8) :
    Sat (keyboardData k c) (Suivant e k) EstFaute := by
  unfold keyboardData
  split
  · rcases sortirConsRead_ok sain with ⟨_, run⟩ | ⟨p, liens, l, queue, chainee, run⟩
    · rw [run]
      exact .effet (.processus (.neutre avant ⟨rfl, rfl, rfl, rfl, rfl, rfl, rfl, .inl rfl⟩))
    · set k₁ : Noyau := { k with console := { k.console with attente := liens } } with defk₁
      have etat := sain.console.bloques p (queue ▸ List.mem_append_right l (List.mem_singleton.mpr rfl))
      have valide₁ : Valide k₁ := sain.valide.of_table rfl rfl rfl rfl
      obtain ⟨k₂, reveil, change, _⟩ := definirEtat_vivant valide₁ p simple_activable
        (by rw [show k₁.table = k.table from rfl, etat]; exact EtatProcessus.noConfusion)
      rw [run]
      simp only [bind, Except.bind, reveillerLecteur, reveil]
      exact .effet (.processus (.sortirConsole avant ⟨_, l, rfl, chainee, queue⟩ change
        ⟨rfl, rfl, rfl, rfl, rfl, rfl, rfl, .inl rfl⟩))
  · split_ifs
    all_goals exact .effet (.processus (.neutre avant ⟨rfl, rfl, rfl, rfl, rfl, rfl, rfl, .inl rfl⟩))

theorem parcourEndormis_ok {k : Noyau} (valide : Valide k) (n : Nat) :
    Sat (parcourEndormis n k) (fun k' => Reveils k k' ∧ Valide k') EstFaute := by
  induction n generalizing k with
  | zero =>
      rw [parcourEndormis]
      split
      · exact ⟨.fin k, valide⟩
      · exact ⟨_, rfl⟩
  | succ n ih =>
      rw [parcourEndormis]
      split
      · exact ⟨.fin k, valide⟩
      · next attend trouve =>
          have endormi := (valide.coherent.endormis_mem attend).mp (List.mem_of_find?_eq_some trouve)
          obtain ⟨k₁, run, change, valide₁⟩ := definirEtat_vivant valide attend
            simple_activable (by simp [endormi])
          rw [run]
          exact (ih valide₁).mono (fun _ reste => ⟨.suivant endormi change reste.1, reste.2⟩)
            fun _ => id

theorem Reveils.pidActif {k k' : Noyau} (reveils : Reveils k k') : k'.pidActif = k.pidActif := by
  induction reveils with
  | fin => rfl
  | suivant _ change _ ih => exact ih.trans change.pidActif

theorem Reveils.actif {k k' : Noyau} (reveils : Reveils k k') {i : Indice}
    (actif : (k.table i).etat = .actif) : (k'.table i).etat = .actif := by
  induction reveils with
  | fin => exact actif
  | @suivant k k₁ _ j endormi change _ ih =>
      refine ih ?_
      have autre : i ≠ j := by
        rintro rfl
        rw [actif] at endormi
        cases endormi
      rw [change.etat, if_neg autre, actif]

theorem ticPIT_ok (sain : Sain k)
    (avant : ∀ a, k.pidActif = some a → HorsFile (k.table a).suite) :
    Sat (ticPIT k) (Suivant .tic k) EstFaute := by
  unfold ticPIT
  have valide : Valide { k with horloge := k.horloge + 1 } := sain.valide.of_table rfl rfl rfl rfl
  refine (parcourEndormis_ok valide _).bind fun k₁ ⟨reveils, valide₁⟩ => ?_
  obtain ⟨k', run, ord⟩ := ordonnancer_ok valide₁.coherent (fun b actif => by
    rw [reveils.pidActif] at actif
    rw [reveils.actif (sain.actif b actif)]
    exact EtatProcessus.noConfusion)
  exact .of_eq run (.ordonnance (.processus (.tic _ rfl avant reveils)) ord)

end Files

variable (env : Env)

theorem appeler_ok {k : Noyau} {a : Indice} (sain : Sain k) (actif : k.pidActif = some a)
    (suite : (k.table a).suite = .execution) (appel : Appel)
    (veille : a = 0 → appel.estStart = true) :
    Sat (appeler env k a appel) (Suivant (.appel appel) k)
      fun s => EstFaute s ∨ s = .confirme k := by
  have avant : HorsFile (k.table a).suite := by
    rw [suite]
    trivial
  have nonZero : appel.estStart = false → a ≠ 0 := by
    intro autre zero
    rw [veille zero] at autre
    cases autre
  have faute : ∀ {r : Resultat}, Sat r (Suivant (.appel appel) k) EstFaute →
      Sat r (Suivant (.appel appel) k) fun s => EstFaute s ∨ s = .confirme k := fun sat =>
    sat.mono (fun _ => id) fun _ => .inl
  cases appel with
  | start nom ssize prio args =>
      refine faute (start_ok env sain (fun b actif' => ?_) nom ssize prio args)
      rwa [← Option.some.inj (actif.symm.trans actif')]
  | exit retval => exact faute (exit_ok env sain actif (nonZero rfl) avant retval (.inl ⟨rfl, rfl⟩))
  | finCode retval => exact faute (exit_ok env sain actif (nonZero rfl) avant retval (.inr ⟨rfl, rfl⟩))
  | kill pid => exact faute (kill_ok env sain actif avant pid)
  | waitpid pid retvalp => exact waitpid_ok sain actif (nonZero rfl) avant pid retvalp
  | chprio pid newprio => exact faute (chprio_ok sain actif avant pid newprio)
  | getprio pid => exact renvoie_suivant actif avant _
  | waitClock clock =>
      refine faute (waitClock_ok sain (fun b actif' => ?_) clock (.inl ⟨0, rfl⟩))
      rwa [← Option.some.inj (actif.symm.trans actif')]
  | pcreate count => exact faute (pcreate_ok actif avant count)
  | psend fid message =>
      refine faute ?_
      change Sat (psend k a fid message) _ _
      unfold psend
      split
      · exact renvoie_suivant actif avant _
      · next f ouverte =>
          exact (psendBoucle_ok sain actif (nonZero rfl) (.inl ⟨fid, rfl, ouverte⟩) (.inl avant)).mono
            (fun _ => SuivantFile.suivant) fun _ => id
  | preceive fid =>
      refine faute ?_
      change Sat (preceive k a fid) _ _
      unfold preceive
      split
      · exact renvoie_suivant actif avant _
      · next f ouverte =>
          exact (preceiveBoucle_ok sain actif (nonZero rfl) (.inl ⟨fid, rfl, ouverte⟩)).mono
            (fun _ => SuivantFile.suivant) fun _ => id
  | preset fid => exact faute (preset_ok env sain actif avant fid)
  | pdelete fid => exact faute (pdelete_ok env sain actif avant fid)
  | pcount fid count => exact faute (pcount_ok actif avant fid count)
  | consRead length => exact faute (consRead_ok sain actif (nonZero rfl) avant length)
  | consEcho on =>
      exact Suivant.effet (.processus (.rendre actif avant trivial
        ⟨rfl, rfl, rfl, rfl, rfl, rfl, rfl, .inl rfl⟩))

theorem reprendre_ok {k : Noyau} {a : Indice} (sain : Sain k) (actif : k.pidActif = some a)
    (suspendu : (k.table a).suite ≠ .execution) :
    Sat (reprendre env k a) (Suivant .reprise k) EstFaute := by
  have etat := sain.actif a actif
  have reprise := (Posture.of_courant (.inl etat)).mp (sain.posture a)
  rw [Reprise] at reprise
  unfold reprendre
  split
  · next suite => exact absurd suite suspendu
  · next suite =>
      exact .effet (.processus (.rendre actif (by rw [suite]; trivial) trivial
        ⟨rfl, rfl, rfl, rfl, rfl, rfl, rfl, .inl rfl⟩))
  · next suite =>
      exact .effet (.processus (.rendre (s := .execution) actif (by rw [suite]; trivial) trivial
        ⟨rfl, rfl, rfl, rfl, rfl, rfl, rfl, .inr ⟨_, rfl, trivial⟩⟩))
  · next suite => exact finConfirme_ok env sain actif suite
  · next suite =>
      rw [suite] at reprise
      exact reprise.elim
  · exact ⟨_, rfl⟩
  · next suite => exact (waitpidReprise_ok sain actif suite).mono (fun _ => And.left) fun _ => id
  · next suite => exact (waitpidRepriseFils_ok sain actif suite).mono (fun _ => And.left) fun _ => id
  · next suite =>
      exact (preceiveBoucle_ok sain actif (sain.nonZero actif suite id) (.inr ⟨rfl, suite⟩)).mono
        (fun _ => SuivantFile.suivant) fun _ => id
  · next suite => exact .effet (.processus (.finReception actif suite))
  · next suite =>
      exact (psendReprise_ok sain actif suite).mono (fun _ => SuivantFile.suivant) fun _ => id
  · next suite => exact consReadReprise_ok sain actif suite

theorem enregistrer_table (k : Noyau) (e : Evenement) : (enregistrer k e).table = k.table := by
  unfold enregistrer
  split <;> rfl

theorem enregistrer_pidActif (k : Noyau) (e : Evenement) :
    (enregistrer k e).pidActif = k.pidActif := by
  unfold enregistrer
  split <;> rfl

theorem Sain.enregistrer {k : Noyau} (sain : Sain k) (e : Evenement) : Sain (enregistrer k e) := by
  unfold Invariant.enregistrer
  split
  · exact sain.noter_appel _ _
  · exact sain

theorem executer_ok {k : Noyau} (sain : Sain k) {e : Evenement} (autorise : permis k e = true) :
    Sat (executer env k e) (Etape e k) fun s => EstFaute s ∨
      s = .confirme (enregistrer k e) ∧ ∀ a, k.pidActif = some a → HorsFile (k.table a).suite := by
  have interruption : (∀ a, k.pidActif = some a → (k.table a).suite = .execution) →
      ∀ a, k.pidActif = some a → HorsFile (k.table a).suite := by
    intro libre a actif
    rw [libre a actif]
    trivial
  cases e with
  | tic =>
      refine (ticPIT_ok sain (interruption fun a actif => ?_)).mono (fun _ => id) fun _ => .inl
      simpa [permis, actif] using autorise
  | touche c =>
      refine (keyboardData_ok sain (interruption fun a actif => ?_) c).mono (fun _ => id) fun _ => .inl
      simpa [permis, actif] using autorise
  | appel appel =>
      cases actif : k.pidActif with
      | none =>
          have meme : enregistrer k (.appel appel) = k := by
            simp only [enregistrer, actif]
          rw [show Etape (.appel appel) k = Suivant (.appel appel) k by unfold Etape; rw [meme]]
          simp only [executer, actif]
          split
          · refine (start_ok env sain (fun a actif' => ?_) _ _ _ _).mono (fun _ => id) fun _ => .inl
            rw [actif] at actif'
            cases actif'
          · exact .inl ⟨_, rfl⟩
      | some a =>
          have meme : enregistrer k (.appel appel) = k.noter (.appel a appel) := by
            simp only [enregistrer, actif]
          simp only [permis, actif, Bool.and_eq_true, decide_eq_true_eq] at autorise
          rw [show Etape (.appel appel) k = Suivant (.appel appel) (k.noter (.appel a appel)) by
            unfold Etape; rw [meme], meme]
          simp only [executer, actif]
          refine (appeler_ok env (sain.noter_appel a appel) actif autorise.1 appel fun zero => ?_).mono
            (fun _ => id) fun s arret => arret.imp id fun echec => ⟨echec, fun b actif' => ?_⟩
          · simpa [zero] using autorise.2
          · rw [← Option.some.inj actif', autorise.1]
            trivial
  | reprise =>
      cases actif : k.pidActif with
      | none =>
          simp only [executer, actif]
          exact .inl ⟨_, rfl⟩
      | some a =>
          simp only [permis, actif, ne_eq, decide_not, Bool.not_eq_true', decide_eq_false_iff_not]
            at autorise
          simp only [executer, actif]
          exact (reprendre_ok env sain actif autorise).mono (fun _ => id) fun _ => .inl

/-- An event leads to a state by one of the effects of `Effet`, or stops the kernel
with a fault. -/
theorem pas_ok {k : Noyau} (sain : Sain k) {e : Evenement} (autorise : permis k e = true) :
    Sat (pas env k e) (Etape e k) EstFaute := by
  have sat := executer_ok env sain autorise
  unfold pas
  split
  · next k' echec =>
      rcases sat.of_error echec with ⟨f, faute⟩ | ⟨meme, avant⟩
      · cases faute
      · cases meme
        refine waitClock_ok (sain.enregistrer e) (fun a actif => ?_) _ (.inr rfl)
        rw [enregistrer_pidActif] at actif
        rw [enregistrer_table]
        exact avant a actif
  · next sans =>
      cases run : executer env k e with
      | ok k' => exact sat.of_ok run
      | error s =>
          rcases sat.of_error run with faute | ⟨rfl, _⟩
          · exact faute
          · exact absurd run (sans _)

theorem pas_sans_confirme {k k' : Noyau} {e : Evenement} {Q : Noyau → Prop}
    (sat : Sat (executer env k e) Q EstFaute) (resultat : pas env k e = .ok k') : Q k' := by
  rw [pas] at resultat
  split at resultat
  · next echec =>
      obtain ⟨f, faute⟩ := sat.of_error echec
      cases faute
  · exact sat.of_ok resultat

end ProjetSysteme.Invariant
