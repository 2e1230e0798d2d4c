/- Invariant/Outcomes
   digest: What a call of psend or preceive returns, and what it then does to the messages. -/

import ProjetSysteme.Invariant.Event

set_option autoImplicit false
set_option relaxedAutoImplicit false

namespace ProjetSysteme.Invariant

open Kernel Library.Outcome

structure Inerte (k k' : Noyau) : Prop where
  files : ∀ g, (k'.files g).file = (k.files g).file
  journal : k'.journal = k.journal

/-- A call of psend by `a` blocks, fails with its flag set or on a queue that is full
when it resumes, or stores its message and returns 0. -/
inductive IssueEnvoi (e : Evenement) (a : Indice) (fid : IndiceFile) (message : Int)
    (k k' : Noyau) : Prop
  | attend (suite : (k'.table a).suite = .psendAttente fid message) (inerte : Inerte k k') :
      IssueEnvoi e a fid message k k'
  | echec (suite : (k'.table a).suite = .retour (-1)) (inerte : Inerte k k')
      (cause : (k.table a).valresetfile ≠ 0 ∨
        e = .reprise ∧ (k.files fid).nbelem = (k.files fid).size) : IssueEnvoi e a fid message k k'
  | depot (suite : (k'.table a).suite = .retour 0)
      (file : (k'.files fid).file = (k.files fid).file ++ [message])
      (autres : ∀ g, g ≠ fid → (k'.files g).file = (k.files g).file)
      (journal : k'.journal = .envoi a fid message :: k.journal) : IssueEnvoi e a fid message k k'

/-- A call of preceive by `a` blocks, fails with its flag set, or takes the first message
and returns 0, perhaps after it gave up the processor. -/
inductive IssueReception (a : Indice) (fid : IndiceFile) (k k' : Noyau) : Prop
  | attend (suite : (k'.table a).suite = .preceiveAttente fid) (inerte : Inerte k k') :
      IssueReception a fid k k'
  | echec (suite : (k'.table a).suite = .retour (-1)) (inerte : Inerte k k')
      (cause : (k.table a).valresetfile ≠ 0) : IssueReception a fid k k'
  | prise (message : Int)
      (suite : (k'.table a).suite = .retour 0 ∨ (k'.table a).suite = .preceiveFin)
      (file : (k.files fid).file = message :: (k'.files fid).file)
      (autres : ∀ g, g ≠ fid → (k'.files g).file = (k.files g).file)
      (journal : k'.journal = .reception a fid message :: k.journal) : IssueReception a fid k k'

section Ordonnance

variable {e : Evenement} {a : Indice} {fid : IndiceFile} {k k₁ k' : Noyau}

theorem Inerte.ordonnance (inerte : Inerte k k₁) (ord : Ordonnance k₁ k') : Inerte k k' := by
  obtain ⟨files, journal⟩ := inerte
  constructor <;> rw [ord.noyau]
  · exact files
  · exact journal

theorem IssueEnvoi.ordonnance {message : Int} (issue : IssueEnvoi e a fid message k k₁)
    (ord : Ordonnance k₁ k') : IssueEnvoi e a fid message k k' := by
  have suite' : (k'.table a).suite = (k₁.table a).suite := by rw [ord.champs]
  cases issue with
  | attend suite inerte => exact .attend (suite'.trans suite) (inerte.ordonnance ord)
  | echec suite inerte cause => exact .echec (suite'.trans suite) (inerte.ordonnance ord) cause
  | depot suite file autres journal =>
      refine .depot (suite'.trans suite) ?_ ?_ ?_ <;> rw [ord.noyau]
      · exact file
      · exact autres
      · exact journal

theorem IssueReception.ordonnance (issue : IssueReception a fid k k₁) (ord : Ordonnance k₁ k') :
    IssueReception a fid k k' := by
  have suite' : (k'.table a).suite = (k₁.table a).suite := by rw [ord.champs]
  cases issue with
  | attend suite inerte => exact .attend (suite'.trans suite) (inerte.ordonnance ord)
  | echec suite inerte cause => exact .echec (suite'.trans suite) (inerte.ordonnance ord) cause
  | prise message suite file autres journal =>
      rw [← suite'] at suite
      refine .prise message suite ?_ ?_ ?_ <;> rw [ord.noyau]
      · exact file
      · exact autres
      · exact journal

end Ordonnance

theorem Emet.unique {k : Noyau} {e : Evenement} {a : Indice} {f g : IndiceFile} {m n : Int}
    (un : Emet k e a f m) (deux : Emet k e a g n) : f = g ∧ m = n := by
  rcases un with ⟨p, rfl, ouverte⟩ | ⟨rfl, suite⟩
  · rcases deux with ⟨q, meme, ouverte'⟩ | ⟨meme, _⟩
    · cases meme
      exact ⟨Option.some.inj (ouverte.symm.trans ouverte'), rfl⟩
    · cases meme
  · rcases deux with ⟨q, meme, _⟩ | ⟨_, suite'⟩
    · cases meme
    · cases suite.symm.trans suite'
      exact ⟨rfl, rfl⟩

theorem Recoit.unique {k : Noyau} {e : Evenement} {a : Indice} {f g : IndiceFile}
    (un : Recoit k e a f) (deux : Recoit k e a g) : f = g := by
  rcases un with ⟨p, rfl, ouverte⟩ | ⟨rfl, suite⟩
  · rcases deux with ⟨q, meme, ouverte'⟩ | ⟨meme, _⟩
    · cases meme
      exact Option.some.inj (ouverte.symm.trans ouverte')
    · cases meme
  · rcases deux with ⟨q, meme, _⟩ | ⟨_, suite'⟩
    · cases meme
    · cases suite.symm.trans suite'
      rfl

theorem Emet.non_recoit {k : Noyau} {e : Evenement} {a : Indice} {f g : IndiceFile} {m : Int}
    (emet : Emet k e a f m) : ¬ Recoit k e a g := by
  rintro (⟨q, meme, _⟩ | ⟨meme, suite'⟩)
  · rcases emet with ⟨p, rfl, _⟩ | ⟨rfl, _⟩ <;> cases meme
  · rcases emet with ⟨p, rfl, _⟩ | ⟨rfl, suite⟩
    · cases meme
    · cases suite.symm.trans suite'

theorem Emet.non_appel {k : Noyau} {e : Evenement} {a : Indice} {f : IndiceFile} {m : Int} {x : Appel}
    (emet : Emet k e a f m) (appel : e = .appel x) : ∃ n, x = .psend n m := by
  rcases emet with ⟨p, rfl, _⟩ | ⟨rfl, _⟩
  · cases appel
    exact ⟨p, rfl⟩
  · cases appel

theorem Recoit.non_appel {k : Noyau} {e : Evenement} {a : Indice} {f : IndiceFile} {x : Appel}
    (recoit : Recoit k e a f) (appel : e = .appel x) : ∃ n, x = .preceive n := by
  rcases recoit with ⟨p, rfl, _⟩ | ⟨rfl, _⟩
  · cases appel
    exact ⟨p, rfl⟩
  · cases appel

theorem finAppelFile_suite (k : Noyau) (a : Indice) (v : Int) :
    ((finAppelFile k a v).table a).suite = .retour v := by
  simp [finAppelFile, Noyau.renvoie]

theorem finAppelFile_files (k : Noyau) (a : Indice) (v : Int) : (finAppelFile k a v).files = k.files :=
  rfl

theorem Inerte.of_finAppelFile (k : Noyau) (a : Indice) (v : Int) : Inerte k (finAppelFile k a v) :=
  ⟨fun _ => rfl, rfl⟩

theorem Inerte.of_bloque {k k₁ : Noyau} {a : Indice} {s : Suite} {etat : EtatProcessus}
    {fid : IndiceFile} {f g : FileMessage → FileMessage}
    (change : Change ((k.modifieFile fid f).suspend a s) a etat k₁)
    (memeF : ∀ x, (f x).file = x.file) (memeG : ∀ x, (g x).file = x.file) :
    Inerte k (k₁.modifieFile fid g) := by
  refine ⟨fun h => ?_, ?_⟩
  · have files := change.files
    by_cases meme : h = fid
    · rw [meme, Noyau.modifieFile_files_self, memeG, files, Noyau.suspend_files,
        Noyau.modifieFile_files_self, memeF]
    · rw [Noyau.modifieFile_files_ne _ _ meme, files, Noyau.suspend_files,
        Noyau.modifieFile_files_ne _ _ meme]
  · rw [show (k₁.modifieFile fid g).journal = k₁.journal from rfl, change.noyau]
    rfl

theorem Change.suite {k k' : Noyau} {pr : Indice} {e : EtatProcessus} (change : Change k pr e k')
    (j : Indice) : (k'.table j).suite = (k.table j).suite := by
  rw [change.champs]

theorem SuivantFile.issueEnvoi {e : Evenement} {k k' : Noyau} {a : Indice} {fid : IndiceFile}
    {message : Int} (suivant : SuivantFile e k k') (actif : k.pidActif = some a)
    (emet : Emet k e a fid message) : IssueEnvoi e a fid message k k' := by
  obtain ⟨k₁, effet, fin⟩ := suivant
  suffices issue : IssueEnvoi e a fid message k k₁ by
    rcases fin with rfl | ord
    · exact issue
    · exact issue.ordonnance ord
  have soi : ∀ {b : Indice}, k.pidActif = some b → b = a := fun autre =>
    Option.some.inj (autre.symm.trans actif)
  cases effet with
  | creer count nbFiles _ avant appel =>
      obtain ⟨n, meme⟩ := emet.non_appel appel
      cases meme
  | bloquerReception actif' nonZero appel => exact absurd (soi actif' ▸ appel) emet.non_recoit
  | @bloquerEnvoi k₂ b g m actif' nonZero appel neuf plein drapeau change =>
      obtain rfl := soi actif'
      obtain ⟨rfl, rfl⟩ := appel.unique emet
      refine .attend ?_ (.of_bloque change (fun _ => rfl) fun _ => rfl)
      rw [Noyau.modifieFile_table, change.suite, Noyau.suspend_table_self]
  | prendre actif' appel => exact absurd (soi actif' ▸ appel) emet.non_recoit
  | prendreReveil actif' nonZero appel => exact absurd (soi actif' ▸ appel) emet.non_recoit
  | @deposer b g m actif' appel place drapeau sans =>
      obtain rfl := soi actif'
      obtain ⟨rfl, rfl⟩ := appel.unique emet
      refine .depot (finAppelFile_suite ..) ?_ (fun h autre => ?_) rfl
      · rw [finAppelFile_files, Noyau.noter_files, Noyau.modifieFile_files_self]
      · rw [finAppelFile_files, Noyau.noter_files, Noyau.modifieFile_files_ne _ _ autre]
  | @deposerReveil k₂ b g m q actif' appel place drapeau vide dernier change =>
      obtain rfl := soi actif'
      obtain ⟨rfl, rfl⟩ := appel.unique emet
      refine .depot (finAppelFile_suite ..) ?_ (fun h autre => ?_) ?_
      · rw [finAppelFile_files, Noyau.modifieFile_files_self, change.files, Noyau.noter_files, Noyau.modifieFile_files_self]
      · rw [finAppelFile_files, Noyau.modifieFile_files_ne _ _ autre, change.files, Noyau.noter_files,
          Noyau.modifieFile_files_ne _ _ autre]
      · change k₂.journal = _
        rw [change.noyau]
        rfl
  | @refuser b g actif' appel drapeau =>
      obtain rfl := soi actif'
      exact .echec (finAppelFile_suite ..) (.of_finAppelFile ..) (.inl drapeau)
  | @abandonner b g m actif' reprise suite plein =>
      obtain rfl := soi actif'
      obtain ⟨rfl, rfl⟩ := Emet.unique (.inr ⟨reprise, suite⟩) emet
      exact .echec (by simp [Noyau.renvoie]) ⟨fun _ => rfl, rfl⟩ (.inr ⟨reprise, plein⟩)
  | vider n _ avant appel =>
      obtain ⟨n, meme⟩ := emet.non_appel appel
      cases meme
  | supprimer n nbFiles _ avant appel =>
      obtain ⟨n, meme⟩ := emet.non_appel appel
      cases meme

theorem SuivantFile.issueReception {e : Evenement} {k k' : Noyau} {a : Indice} {fid : IndiceFile}
    (suivant : SuivantFile e k k') (actif : k.pidActif = some a) (recoit : Recoit k e a fid) :
    IssueReception a fid k k' := by
  obtain ⟨k₁, effet, fin⟩ := suivant
  suffices issue : IssueReception a fid k k₁ by
    rcases fin with rfl | ord
    · exact issue
    · exact issue.ordonnance ord
  have soi : ∀ {b : Indice}, k.pidActif = some b → b = a := fun autre =>
    Option.some.inj (autre.symm.trans actif)
  cases effet with
  | creer count nbFiles _ avant appel =>
      obtain ⟨n, meme⟩ := recoit.non_appel appel
      cases meme
  | @bloquerReception k₂ b g actif' nonZero appel vide drapeau change =>
      obtain rfl := soi actif'
      obtain rfl := appel.unique recoit
      refine .attend ?_ (.of_bloque change (fun _ => rfl) fun _ => rfl)
      rw [Noyau.modifieFile_table, change.suite, Noyau.suspend_table_self]
  | bloquerEnvoi actif' nonZero appel => exact absurd (soi actif' ▸ recoit) appel.non_recoit
  | @prendre b g m reste actif' appel drapeau tete sans =>
      obtain rfl := soi actif'
      obtain rfl := appel.unique recoit
      refine .prise m (.inl (finAppelFile_suite ..)) ?_ (fun h autre => ?_) rfl
      · rw [finAppelFile_files, Noyau.noter_files, Noyau.modifieFile_files_self, tete]
      · rw [finAppelFile_files, Noyau.noter_files, Noyau.modifieFile_files_ne _ _ autre]
  | @prendreReveil k₂ b g m reste q actif' nonZero appel drapeau tete plein dernier change =>
      obtain rfl := soi actif'
      obtain rfl := appel.unique recoit
      refine .prise m (.inr ?_) ?_ (fun h autre => ?_) ?_
      · rw [Noyau.modifieFile_table, change.suite, Noyau.suspend_table_self]
      · rw [Noyau.modifieFile_files_self, change.files, Noyau.suspend_files, Noyau.noter_files,
          Noyau.modifieFile_files_self, tete]
      · rw [Noyau.modifieFile_files_ne _ _ autre, change.files, Noyau.suspend_files,
          Noyau.noter_files, Noyau.modifieFile_files_ne _ _ autre]
      · change k₂.journal = _
        rw [change.noyau]
        rfl
  | deposer actif' appel => exact absurd (soi actif' ▸ recoit) appel.non_recoit
  | deposerReveil actif' appel => exact absurd (soi actif' ▸ recoit) appel.non_recoit
  | @refuser b g actif' appel drapeau =>
      obtain rfl := soi actif'
      exact .echec (finAppelFile_suite ..) (.of_finAppelFile ..) drapeau
  | @abandonner b g m actif' reprise suite plein =>
      obtain rfl := soi actif'
      exact absurd recoit (Emet.non_recoit (.inr ⟨reprise, suite⟩))
  | vider n _ avant appel =>
      obtain ⟨n, meme⟩ := recoit.non_appel appel
      cases meme
  | supprimer n nbFiles _ avant appel =>
      obtain ⟨n, meme⟩ := recoit.non_appel appel
      cases meme

/-- The call in progress of process `i` is on the queue `fid`. -/
def EnAppel (k : Noyau) (fid : IndiceFile) (i : Indice) : Prop :=
  (k.table i).suite = .preceiveAttente fid ∨ ∃ message, (k.table i).suite = .psendAttente fid message

instance (k : Noyau) (fid : IndiceFile) (i : Indice) : Decidable (EnAppel k fid i) := by
  unfold EnAppel
  cases (k.table i).suite
  case psendAttente g message =>
    exact decidable_of_iff (g = fid) (by simp)
  all_goals exact decidable_of_iff _ (or_iff_left (by simp)).symm

theorem preceive_averti {k : Noyau} {a : Indice} {fid : IndiceFile}
    (leve : (k.table a).valresetfile ≠ 0) :
    preceiveBoucle k a fid = .ok (finAppelFile k a (-1)) := by
  simp [preceiveBoucle, leve]

theorem psend_leve {k : Noyau} {a : Indice} {fid : IndiceFile} {message : Int}
    (leve : (k.table a).valresetfile ≠ 0) :
    psendBoucle k a fid message = .ok (finAppelFile k a (-1)) := by
  simp [psendBoucle, leve]

theorem psend_averti {k : Noyau} {a : Indice} {fid : IndiceFile} (message : Int)
    (averti : (k.table a).valresetfile ≠ 0 ∨ (k.files fid).nbelem = (k.files fid).size) :
    ∃ k', psendReprise k a fid message = .ok k' ∧ (k'.table a).suite = .retour (-1) := by
  unfold psendReprise
  split
  · exact ⟨_, rfl, by simp [Noyau.renvoie]⟩
  · next place =>
      have leve := averti.resolve_right place
      exact ⟨finAppelFile k a (-1), psend_leve leve, finAppelFile_suite ..⟩

section Runs

variable (env : Env) {k k' : Noyau} {e : Evenement} {a : Indice} {fid : IndiceFile}

theorem enregistrer_appel (actif : k.pidActif = some a) (x : Appel) :
    enregistrer k (.appel x) = k.noter (.appel a x) := by
  simp only [enregistrer, actif]

theorem nonZero_of_permis (actif : k.pidActif = some a) {x : Appel} (autre : x.estStart = false)
    (autorise : permis k (.appel x) = true) : a ≠ 0 := by
  simp only [permis, actif, autre, Bool.and_eq_true, Bool.or_false, decide_eq_true_eq] at autorise
  exact autorise.2

theorem executer_psend (actif : k.pidActif = some a) {n message : Int}
    (ouverte : fileOuverte? k n = some fid) : executer env k (.appel (.psend n message)) =
      psendBoucle (k.noter (.appel a (.psend n message))) a fid message := by
  simp only [executer, actif, appeler, psend,
    show fileOuverte? (k.noter (.appel a (.psend n message))) n = some fid from ouverte]

theorem executer_preceive (actif : k.pidActif = some a) {n : Int}
    (ouverte : fileOuverte? k n = some fid) : executer env k (.appel (.preceive n)) =
      preceiveBoucle (k.noter (.appel a (.preceive n))) a fid := by
  simp only [executer, actif, appeler, preceive,
    show fileOuverte? (k.noter (.appel a (.preceive n))) n = some fid from ouverte]

theorem executer_psendReprise (actif : k.pidActif = some a) {message : Int}
    (suite : (k.table a).suite = .psendAttente fid message) :
    executer env k .reprise = psendReprise k a fid message := by
  simp only [executer, actif, reprendre, suite]

theorem executer_preceiveReprise (actif : k.pidActif = some a)
    (suite : (k.table a).suite = .preceiveAttente fid) :
    executer env k .reprise = preceiveBoucle k a fid := by
  simp only [executer, actif, reprendre, suite]

theorem pas_of_ok {k₁ : Noyau} (execute : executer env k e = .ok k₁) (resultat : pas env k e = .ok k') :
    k' = k₁ := by
  simp only [pas, execute] at resultat
  exact (Except.ok.inj resultat).symm

theorem pas_preceive_averti (actif : k.pidActif = some a)
    (suite : (k.table a).suite = .preceiveAttente fid) (leve : (k.table a).valresetfile ≠ 0)
    (resultat : pas env k .reprise = .ok k') : (k'.table a).suite = .retour (-1) := by
  have execute := executer_preceiveReprise env actif suite
  rw [preceive_averti leve] at execute
  rw [pas_of_ok env execute resultat]
  exact finAppelFile_suite ..

theorem pas_psend_averti (actif : k.pidActif = some a) {message : Int}
    (suite : (k.table a).suite = .psendAttente fid message)
    (averti : (k.table a).valresetfile ≠ 0 ∨ (k.files fid).nbelem = (k.files fid).size)
    (resultat : pas env k .reprise = .ok k') : (k'.table a).suite = .retour (-1) := by
  obtain ⟨k₁, run, retour⟩ := psend_averti message averti
  rw [pas_of_ok env ((executer_psendReprise env actif suite).trans run) resultat]
  exact retour

theorem pas_psend (sain : Sain k) (autorise : permis k e = true) (actif : k.pidActif = some a)
    {message : Int} (emet : Emet k e a fid message) (resultat : pas env k e = .ok k') :
    IssueEnvoi e a fid message (enregistrer k e) k' := by
  rcases emet with ⟨n, rfl, ouverte⟩ | ⟨rfl, suite⟩
  · rw [enregistrer_appel actif]
    have sain₀ := sain.noter_appel a (.psend n message)
    have emet₀ : Emet (k.noter (.appel a (.psend n message))) (.appel (.psend n message)) a fid
        message := .inl ⟨n, rfl, ouverte⟩
    have avant : HorsFile ((k.noter (.appel a (.psend n message))).table a).suite := by
      simp only [permis, actif, Bool.and_eq_true, decide_eq_true_eq] at autorise
      rw [Noyau.noter_table, autorise.1]
      trivial
    have sat := psendBoucle_ok sain₀ actif (nonZero_of_permis actif rfl autorise) emet₀ (.inl avant)
    rw [← executer_psend env actif ouverte] at sat
    exact (pas_sans_confirme env sat resultat).issueEnvoi actif emet₀
  · have sat := psendReprise_ok sain actif suite
    rw [← executer_psendReprise env actif suite] at sat
    exact (pas_sans_confirme env sat resultat).issueEnvoi actif (.inr ⟨rfl, suite⟩)

theorem pas_preceive (sain : Sain k) (autorise : permis k e = true) (actif : k.pidActif = some a)
    (recoit : Recoit k e a fid) (resultat : pas env k e = .ok k') :
    IssueReception a fid (enregistrer k e) k' := by
  rcases recoit with ⟨n, rfl, ouverte⟩ | ⟨rfl, suite⟩
  · rw [enregistrer_appel actif]
    have recoit₀ : Recoit (k.noter (.appel a (.preceive n))) (.appel (.preceive n)) a fid :=
      .inl ⟨n, rfl, ouverte⟩
    have sat := preceiveBoucle_ok (sain.noter_appel a (.preceive n)) actif
      (nonZero_of_permis actif rfl autorise) recoit₀
    rw [← executer_preceive env actif ouverte] at sat
    exact (pas_sans_confirme env sat resultat).issueReception actif recoit₀
  · have sat := preceiveBoucle_ok sain actif (sain.nonZero actif suite id)
      (Or.inr ⟨rfl, suite⟩ : Recoit k .reprise a fid)
    rw [← executer_preceiveReprise env actif suite] at sat
    exact (pas_sans_confirme env sat resultat).issueReception actif (.inr ⟨rfl, suite⟩)

end Runs

end ProjetSysteme.Invariant
