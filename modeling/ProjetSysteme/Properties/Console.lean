/- Properties/Console
   source: kernel/console.c
   digest: Lines typed on the keyboard and lines that cons_read returns. -/

import ProjetSysteme.Invariant.ConsoleRuns

set_option autoImplicit false
set_option relaxedAutoImplicit false

namespace ProjetSysteme.Properties

open Kernel Invariant Library.PriorityList

def lectureDe : Suite → Option UInt32
  | .consReadAttente length => some length
  | _ => none

/-- Process `j` has left the queue of cons_read, where it got a line, and has not resumed. -/
def Reveille (k : Noyau) (j : Indice) : Prop :=
  (lectureDe (k.table j).suite).isSome = true ∧ Survit k j ∧ j ∉ lecteurs k

instance (k : Noyau) : DecidablePred (Reveille k) := fun _ => inferInstanceAs (Decidable (_ ∧ _))

def nReveilles (k : Noyau) : Nat := (Finset.univ.filter (Reveille k)).card

def ligneEnCours (k : Noyau) : List Int8 := (List.range k.console.index).map k.console.tampon

def ligneTapee (k : Noyau) (e : Evenement) : List (List Int8) :=
  if e = .touche 13 then [ligneEnCours k] else []

/-- Runs whose steps all satisfy `C`, with the lines typed so far. -/
inductive Session (env : Env) (C : Noyau → Evenement → Prop) : Noyau → List (List Int8) → Prop
  | boot {k : Noyau} (depart : initialiserGestionDesProcessus env = .ok k) : Session env C k []
  | pas {k k' : Noyau} {lignes : List (List Int8)} {e : Evenement} (avant : Session env C k lignes)
      (autorise : permis k e = true) (condition : C k e) (resultat : Kernel.pas env k e = .ok k') :
      Session env C k' (lignes ++ ligneTapee k e)

/-- The lines read are the first lines typed.  Of the others each woken reader has one to get, no
reader waits while there are more, and a reader that resumes gets the first of them. -/
def Livrees (env : Env) (k : Noyau) (lignes : List (List Int8)) : Prop :=
  ∃ restantes, lignes = lectures k ++ restantes ∧ nReveilles k ≤ restantes.length ∧
    (nReveilles k < restantes.length → lecteurs k = []) ∧
    ∀ a n, k.pidActif = some a → (k.table a).suite = .consReadAttente n →
      ∃ ligne reste k', restantes = ligne :: reste ∧ pas env k .reprise = .ok k' ∧
        lectures k' = lectures k ++ [ligne]

def caractereRange (k : Noyau) (c : Int8) : Int8 := if k.console.echo = 1 ∧ c < 32 then c + 64 else c

/-- The line goes to a reader that waits for one and has room for it, and as long as a woken
reader has not copied its line, the buffer keeps it. -/
def SaisieSure (k : Noyau) : Evenement → Prop
  | .touche c =>
    if c = 13 then
      (∃ i ∈ (lecteurs k).getLast?, ∃ n ∈ lectureDe (k.table i).suite, k.console.index ≤ n.toNat) ∧
      (nReveilles k = 0 ∨ k.console.index = k.console.indexFinLigne)
    else
      c = 127 ∨ nbrMaxBuff ≤ k.console.index ∨ nReveilles k = 0 ∨
      k.console.indexFinLigne ≤ k.console.index ∨
      k.console.tampon k.console.index = caractereRange k c
  | .appel (.consRead length) => length = 0 ∨ nReveilles k = 0 ∨ k.console.indexFinLigne = 0
  | e => sansKill e = true

instance (k : Noyau) (e : Evenement) : Decidable (SaisieSure k e) := by
  induction e using Evenement.casesOn with
  | appel a => induction a using Appel.casesOn <;> (unfold SaisieSure; infer_instance)
  | _ => unfold SaisieSure; infer_instance

theorem SaisieSure.sansKill {k : Noyau} {e : Evenement} (sure : SaisieSure k e) : sansKill e = true := by
  unfold SaisieSure at sure
  split at sure
  · rfl
  · rfl
  · exact sure

/-- The line that the woken readers are to copy. -/
def contenu (k : Noyau) : List Int8 := (List.range k.console.indexFinLigne).map k.console.tampon

/-- The lines not read yet are those of the woken readers, and they are all in the buffer. -/
structure Saisie (k : Noyau) (lignes : List (List Int8)) : Prop where
  lignes : lignes = lectures k ++ List.replicate (nReveilles k) (contenu k)
  courtes : ∀ j n, EnLecture k j n → j ∉ lecteurs k → k.console.indexFinLigne ≤ n.toNat

section Pas

variable {env : Env} {e : Evenement} {k k' : Noyau} {lignes : List (List Int8)}

theorem lectureDe_eq {s : Suite} {n : UInt32} (lecture : lectureDe s = some n) : s = .consReadAttente n := by
  unfold lectureDe at lecture
  split at lecture
  · cases lecture
    rfl
  · cases lecture

theorem reveille_iff {j : Indice} : Reveille k j ↔ (∃ n, EnLecture k j n) ∧ j ∉ lecteurs k := by
  constructor
  · rintro ⟨dedans, survit, dehors⟩
    obtain ⟨n, lecture⟩ := Option.isSome_iff_exists.mp dedans
    exact ⟨⟨n, lectureDe_eq lecture, survit⟩, dehors⟩
  · rintro ⟨⟨n, suite, survit⟩, dehors⟩
    exact ⟨by rw [suite]; rfl, survit, dehors⟩

theorem nReveilles_congr (memes : ∀ j, Reveille k' j ↔ Reveille k j) : nReveilles k' = nReveilles k :=
  congrArg Finset.card (Finset.filter_congr fun j _ => memes j)

theorem nReveilles_insert {a : Indice} (nouveau : ¬ Reveille k a)
    (tous : ∀ j, Reveille k' j ↔ j = a ∨ Reveille k j) : nReveilles k' = nReveilles k + 1 := by
  have ensemble : Finset.univ.filter (Reveille k') = insert a (Finset.univ.filter (Reveille k)) := by
    ext j
    simp only [Finset.mem_filter, Finset.mem_univ, true_and, Finset.mem_insert]
    exact tous j
  rw [nReveilles, ensemble, Finset.card_insert_of_notMem (by simpa using nouveau), nReveilles]

theorem nReveilles_pos {j : Indice} (reveille : Reveille k j) : 0 < nReveilles k :=
  Finset.card_pos.mpr ⟨j, by simpa using reveille⟩

theorem keyboardData_console {c : Int8} (autre : c ≠ 13) (frappe : keyboardData k c = .ok k') :
    lecteurs k' = lecteurs k ∧ k'.console.indexFinLigne = k.console.indexFinLigne ∧
    (k'.console.tampon = k.console.tampon ∨ c ≠ 127 ∧ k.console.index < nbrMaxBuff ∧
      k'.console.tampon = fun j => if j = k.console.index then caractereRange k c else k.console.tampon j) := by
  unfold keyboardData at frappe
  rw [if_neg autre] at frappe
  split at frappe
  · split at frappe
    · cases frappe
      exact ⟨rfl, rfl, .inl rfl⟩
    · cases frappe
      exact ⟨rfl, rfl, .inl rfl⟩
  · next pasEfface =>
      split at frappe
      · next place =>
          cases frappe
          exact ⟨rfl, rfl, .inr ⟨pasEfface, place, rfl⟩⟩
      · cases frappe
        exact ⟨rfl, rfl, .inl rfl⟩

theorem Saisie.entrer (saisie : Saisie k lignes) {a : Indice} {length : UInt32} (positif : length > 0)
    (sure : SaisieSure k (.appel (.consRead length))) (hors : ∀ n, ¬ EnLecture k a n)
    (fin : k'.console.indexFinLigne = 0) (attente : ∀ j, j ∈ lecteurs k' ↔ j = a ∨ j ∈ lecteurs k)
    (lues : lectures k' = lectures k) (lecture : ∀ j n, j ≠ a → (EnLecture k' j n ↔ EnLecture k j n)) :
    Saisie k' lignes := by
  have nombre : nReveilles k' = nReveilles k := nReveilles_congr fun j => by
    simp only [reveille_iff, attente, not_or]
    by_cases soi : j = a
    · simp [soi, hors]
    · simp [soi, lecture]
  have contenu' : List.replicate (nReveilles k) (contenu k') = List.replicate (nReveilles k) (contenu k) := by
    rcases sure with nulle | personne | vide
    · rw [nulle] at positif
      cases positif
    · rw [personne]
      rfl
    · rw [contenu, contenu, fin, vide]
      rfl
  refine ⟨?_, fun j n _ _ => by rw [fin]; exact Nat.zero_le _⟩
  rw [lues, nombre, contenu']
  exact saisie.lignes

theorem Saisie.valider (saisie : Saisie k lignes) (sain : Sain k) (sure : SaisieSure k (.touche 13))
    (fin : k'.console.indexFinLigne = k.console.index) (tampon : k'.console.tampon = k.console.tampon)
    (attente : lecteurs k' = (lecteurs k).dropLast) (lues : lectures k' = lectures k)
    (lecture : ∀ j n, EnLecture k' j n ↔ EnLecture k j n) : Saisie k' (lignes ++ [ligneEnCours k]) := by
  rw [SaisieSure, if_pos rfl] at sure
  obtain ⟨⟨p, queue, n, demande, assez⟩, meme⟩ := sure
  have suite := lectureDe_eq demande
  have survit : Survit k p := by
    rw [Survit, sain.console.bloques p (last_mem queue)]
    decide
  have servi : p ∈ lecteurs k := last_mem queue
  have reste : ∀ j, j ∉ (lecteurs k).dropLast ↔ j = p ∨ j ∉ lecteurs k := by
    intro j
    rw [mem_dropLast (l := lecteurs k) sain.console.chainee.nodup queue]
    by_cases soi : j = p
    · simp [soi]
    · simp [soi]
  have nombre : nReveilles k' = nReveilles k + 1 := by
    refine nReveilles_insert (a := p) ?_ fun j => ?_
    · rw [reveille_iff]
      exact fun reveille => reveille.2 servi
    · simp only [reveille_iff, lecture, attente, reste]
      constructor
      · rintro ⟨dedans, soi | dehors⟩
        · exact .inl soi
        · exact .inr ⟨dedans, dehors⟩
      · rintro (soi | ⟨dedans, dehors⟩)
        · exact ⟨⟨n, soi ▸ ⟨suite, survit⟩⟩, .inl soi⟩
        · exact ⟨dedans, .inr dehors⟩
  have contenu' : contenu k' = ligneEnCours k := by
    rw [contenu, ligneEnCours, fin, tampon]
  have anciennes : List.replicate (nReveilles k) (contenu k) =
      List.replicate (nReveilles k) (ligneEnCours k) := by
    rcases meme with personne | egales
    · rw [personne]
      rfl
    · rw [contenu, ligneEnCours, egales]
  refine ⟨?_, fun j n' dedans dehors => ?_⟩
  · rw [lues, nombre, contenu', List.replicate_succ', ← anciennes, ← List.append_assoc, ← saisie.lignes]
  · rw [lecture] at dedans
    rw [attente, reste] at dehors
    rw [fin]
    rcases dehors with soi | dehors
    · have egale : n = n' := by
        rw [EnLecture, soi, suite] at dedans
        exact Suite.consReadAttente.inj dedans.1
      exact egale ▸ assez
    · have reveille : Reveille k j := reveille_iff.mpr ⟨⟨n', dedans⟩, dehors⟩
      rw [meme.resolve_left (Nat.ne_of_gt (nReveilles_pos reveille))]
      exact saisie.courtes j n' dedans dehors

theorem Saisie.frapper (saisie : Saisie k lignes) {c : Int8} (autre : c ≠ 13)
    (sure : SaisieSure k (.touche c)) (frappe : keyboardData k c = .ok k') (lues : lectures k' = lectures k)
    (lecture : ∀ j n, EnLecture k' j n ↔ EnLecture k j n) : Saisie k' lignes := by
  obtain ⟨procs, fin, tampon⟩ := keyboardData_console autre frappe
  have nombre : nReveilles k' = nReveilles k := nReveilles_congr fun j => by
    simp only [reveille_iff, lecture, procs]
  have contenu' : List.replicate (nReveilles k) (contenu k') = List.replicate (nReveilles k) (contenu k) := by
    rcases tampon with meme | ⟨pasEfface, place, range⟩
    · rw [contenu, contenu, fin, meme]
    · rw [SaisieSure, if_neg autre] at sure
      rcases sure with efface | plein | personne | apres | egal
      · exact absurd efface pasEfface
      · omega
      · rw [personne]
        rfl
      · rw [contenu, contenu, fin, range]
        refine congrArg _ (List.map_congr_left fun i avant => if_neg ?_)
        have := List.mem_range.mp avant
        omega
      · rw [contenu, contenu, fin, range]
        refine congrArg _ (List.map_congr_left fun i _ => ?_)
        by_cases ici : i = k.console.index
        · rw [if_pos ici, ici, egal]
        · exact if_neg ici
  refine ⟨?_, fun j n dedans dehors => ?_⟩
  · rw [lues, nombre, contenu']
    exact saisie.lignes
  · rw [fin]
    exact saisie.courtes j n ((lecture j n).mp dedans) (procs ▸ dehors)

theorem Saisie.lire (saisie : Saisie k lignes) {a : Indice} {length : UInt32} (lecteur : EnLecture k a length)
    (servi : a ∉ lecteurs k)
    (fin : k'.console.indexFinLigne = min k.console.indexFinLigne length.toNat)
    (tampon : k'.console.tampon = k.console.tampon) (attente : lecteurs k' = lecteurs k)
    (lues : lectures k' = lectures k ++
      [(List.range (min k.console.indexFinLigne length.toNat)).map k.console.tampon])
    (lecture : ∀ j n, EnLecture k' j n ↔ EnLecture k j n ∧ j ≠ a) : Saisie k' lignes := by
  have court : min k.console.indexFinLigne length.toNat = k.console.indexFinLigne :=
    Nat.min_eq_left (saisie.courtes a length lecteur servi)
  rw [court] at fin lues
  have nombre : nReveilles k = nReveilles k' + 1 := by
    refine nReveilles_insert (a := a) ?_ fun j => ?_
    · simp [reveille_iff, lecture]
    · simp only [reveille_iff, lecture, attente]
      by_cases soi : j = a
      · simp only [soi, true_or, iff_true]
        exact ⟨⟨length, lecteur⟩, servi⟩
      · simp [soi]
  have contenu' : contenu k' = contenu k := by
    rw [contenu, contenu, fin, tampon]
  refine ⟨?_, fun j n dedans dehors => ?_⟩
  · rw [lues, contenu', List.append_assoc]
    change _ = lectures k ++ (contenu k :: List.replicate (nReveilles k') (contenu k))
    rw [← List.replicate_succ, ← nombre]
    exact saisie.lignes
  · rw [fin]
    exact saisie.courtes j n ((lecture j n).mp dedans).1 (attente ▸ dehors)

theorem Saisie.calme (saisie : Saisie k lignes) (egale : saisieDe k'.console = saisieDe k.console)
    (lues : lectures k' = lectures k) (lecture : ∀ j n, EnLecture k' j n ↔ EnLecture k j n) :
    Saisie k' lignes := by
  simp only [saisieDe, Prod.mk.injEq] at egale
  obtain ⟨-, fin, tampon, procs⟩ := egale
  have procs' : lecteurs k' = lecteurs k := lecteurs_congr procs
  have nombre : nReveilles k' = nReveilles k := nReveilles_congr fun j => by
    simp only [reveille_iff, lecture, procs']
  have contenu' : contenu k' = contenu k := by
    rw [contenu, contenu, fin, tampon]
  refine ⟨?_, fun j n dedans dehors => ?_⟩
  · rw [lues, nombre, contenu']
    exact saisie.lignes
  · rw [fin]
    exact saisie.courtes j n ((lecture j n).mp dedans) (procs' ▸ dehors)

theorem Saisie.pas (sain : Sain k) (sure : SaisieSure k e) (clavier : Clavier e k k')
    (saisie : Saisie k lignes) : Saisie k' (lignes ++ ligneTapee k e) := by
  have rien : e ≠ .touche 13 → lignes ++ ligneTapee k e = lignes := fun autre => by
    rw [ligneTapee, if_neg autre, List.append_nil]
  cases clavier with
  | calme sansTouche egale lues lecture =>
      rw [rien (sansTouche 13)]
      exact saisie.calme egale lues lecture
  | entrer appel positif hors fin index tampon attente lues lecture =>
      subst appel
      rw [rien (by simp)]
      exact saisie.entrer positif sure hors fin attente lues lecture
  | valider touche fin index tampon attente lues lecture =>
      subst touche
      rw [ligneTapee, if_pos rfl]
      exact saisie.valider sain sure fin tampon attente lues lecture
  | frapper touche autre frappe lues lecture =>
      subst touche
      rw [rien fun egale => autre (Evenement.touche.inj egale)]
      exact saisie.frapper autre sure frappe lues lecture
  | lire reprise lecteur servi fin index tampon attente lues lecture =>
      subst reprise
      rw [rien (by simp)]
      exact saisie.lire lecteur servi fin tampon attente lues lecture

end Pas

section Sessions

variable {env : Env} {k : Noyau} {lignes : List (List Int8)}

theorem ligneTapee_enregistrer (k : Noyau) (e : Evenement) : ligneTapee (enregistrer k e) e = ligneTapee k e := by
  rcases enregistrer_cas k e with meme | ⟨a, x, _, _, note⟩
  · rw [meme]
  · rw [note]
    rfl

theorem Session.sain (session : Session env SaisieSure k lignes) : Sain k ∧ Saisie k lignes := by
  induction session with
  | boot depart =>
      obtain ⟨memoire, _, valeur⟩ := Library.Outcome.bind_ok depart
      cases valeur
      have morts : ∀ j, ¬ Survit { noyauVide with memoire := memoire } j := fun j survit => survit.1 rfl
      have personne : nReveilles { noyauVide with memoire := memoire } = 0 :=
        Finset.card_eq_zero.mpr (Finset.filter_eq_empty_iff.mpr fun j _ reveille => morts j reveille.2.1)
      refine ⟨sain_of_boot env depart, ?_, fun j n dedans _ => absurd dedans.2 (morts j)⟩
      rw [personne]
      rfl
  | @pas k k' lignes e avant autorise sure resultat ih =>
      obtain ⟨sain, saisie⟩ := ih
      have sain' := (sain.pas env autorise (killPropre_of_sansKill sure.sansKill) resultat).2
      refine ⟨sain', ?_⟩
      rw [← ligneTapee_enregistrer]
      have clavier := pas_clavier sain autorise sure.sansKill resultat
      rcases enregistrer_cas k e with meme | ⟨a, x, _, _, note⟩
      · rw [meme] at clavier ⊢
        exact saisie.pas sain sure clavier
      · have sain₁ := sain.enregistrer e
        rw [note] at clavier sain₁ ⊢
        exact Saisie.pas (k := k.noter (.appel a x)) sain₁ sure clavier ⟨saisie.lignes, saisie.courtes⟩

/-- In a session whose steps are all safe, every line typed is read once, whole and in its turn. -/
theorem lignes_livrees (session : Session env SaisieSure k lignes) : Livrees env k lignes := by
  obtain ⟨sain, saisie⟩ := session.sain
  refine ⟨_, saisie.lignes, (List.length_replicate ..).ge, fun moins => ?_, fun a n actif suite => ?_⟩
  · rw [List.length_replicate] at moins
    exact absurd moins (lt_irrefl _)
  · have etat := sain.actif a actif
    obtain ⟨survit, servi⟩ := sain.actif_servi actif
    obtain ⟨reste, nombre⟩ : ∃ reste, nReveilles k = reste + 1 :=
      Nat.exists_eq_succ_of_ne_zero (Nat.ne_of_gt (nReveilles_pos (reveille_iff.mpr ⟨⟨n, suite, survit⟩, servi⟩)))
    refine ⟨contenu k, List.replicate reste (contenu k), _, by rw [nombre, List.replicate_succ],
      (reprise_lit actif suite etat).trans (consReadReprise_lit etat), ?_⟩
    rw [Nat.min_eq_left (saisie.courtes a n ⟨suite, survit⟩ servi), lectures, lectures, ← List.reverse_cons]
    rfl

end Sessions

section Essais

variable (env : Env) (C : Noyau → Evenement → Prop) [∀ k, DecidablePred (C k)]

def jouer : Noyau → List (List Int8) → List Evenement → Option (Noyau × List (List Int8))
  | k, lignes, [] => some (k, lignes)
  | k, lignes, e :: reste =>
    if permis k e = true ∧ C k e then
      match pas env k e with
      | .ok k' => jouer k' (lignes ++ ligneTapee k e) reste
      | .error _ => none
    else none

/-- The session of the events `l` from boot ends in a state that passes the test. -/
def essayer (l : List Evenement) (test : Noyau → List (List Int8) → Bool) : Bool :=
  match initialiserGestionDesProcessus env with
  | .error _ => false
  | .ok k =>
    match jouer env C k [] l with
    | none => false
    | some (k', lignes) => test k' lignes

theorem Session.of_jouer {k k' : Noyau} {lignes lignes' : List (List Int8)} {l : List Evenement}
    (session : Session env C k lignes) (jeu : jouer env C k lignes l = some (k', lignes')) :
    Session env C k' lignes' := by
  induction l generalizing k lignes with
  | nil =>
      cases jeu
      exact session
  | cons e reste ih =>
      rw [jouer] at jeu
      split at jeu
      · next autorise =>
          split at jeu
          · next k₁ resultat => exact ih (session.pas autorise.1 autorise.2 resultat) jeu
          · cases jeu
      · cases jeu

theorem Session.of_essayer {l : List Evenement} {T : Noyau → List (List Int8) → Bool}
    (essai : essayer env C l T = true) : ∃ k lignes, Session env C k lignes ∧ T k lignes = true := by
  unfold essayer at essai
  split at essai
  · cases essai
  · next k₀ depart =>
      split at essai
      · cases essai
      · next k lignes jeu => exact ⟨k, lignes, .of_jouer env C (.boot depart) jeu, essai⟩

end Essais

def ligneAttendue : List Evenement :=
  [demarrer 0, .reprise, demarrer 1, .reprise, .appel (.consRead 100), .reprise, .touche 104, .touche 105,
    .touche 13, .tic, .reprise]

theorem lignes_livrees_exemple : ∃ k, Session Env.exemple SaisieSure k [[104, 105]] ∧
    lectures k = [[104, 105]] ∧ Livrees Env.exemple k [[104, 105]] := by
  obtain ⟨k, lignes, session, test⟩ := Session.of_essayer Env.exemple SaisieSure (l := ligneAttendue)
    (T := fun k lignes => decide (lignes = [[104, 105]] ∧ lectures k = [[104, 105]])) (by decide +kernel)
  obtain ⟨rfl, lues⟩ := of_decide_eq_true test
  exact ⟨k, session, lues, lignes_livrees session⟩

def ligneAnticipee : List Evenement :=
  [demarrer 0, .reprise, demarrer 1, .reprise, .touche 97, .touche 13, .appel (.consRead 100)]

theorem ligne_perdue : ¬ ∀ k lignes, Session Env.exemple (fun _ e => sansKill e = true) k lignes →
    Livrees Env.exemple k lignes := by
  intro toujours
  obtain ⟨k, lignes, session, test⟩ := Session.of_essayer Env.exemple (fun _ e => sansKill e = true)
    (l := ligneAnticipee) (T := fun k lignes => decide (lignes = [[97]] ∧ lectures k = [] ∧ nReveilles k = 0 ∧
      (lecteurs k).length = 1)) (by decide +kernel)
  obtain ⟨rfl, lues, personne, attend⟩ := of_decide_eq_true test
  obtain ⟨restantes, egales, -, gardee, -⟩ := toujours k _ session
  rw [lues, List.nil_append] at egales
  rw [← egales, personne] at gardee
  rw [gardee (by decide)] at attend
  cases attend

end ProjetSysteme.Properties
