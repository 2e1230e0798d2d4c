/- Invariant/Inversion
   digest: Every event of a run has one of the effects of Effect, or stops the kernel. -/

import ProjetSysteme.Invariant.Effect

set_option autoImplicit false
set_option relaxedAutoImplicit false

namespace ProjetSysteme.Invariant

open Kernel Library.PriorityList Library.Outcome

def EstFaute (s : Arret) : Prop := ∃ f, s = .faute f

theorem Suivant.effet {e : Evenement} {k k' : Noyau} (effet : Effet e k k') : Suivant e k k' :=
  ⟨k', effet, .inl rfl⟩

theorem Suivant.ordonnance {e : Evenement} {k k₁ k' : Noyau} (effet : Effet e k k₁)
    (ord : Ordonnance k₁ k') : Suivant e k k' := ⟨k₁, effet, .inr ord⟩

theorem SuivantFile.effet {e : Evenement} {k k' : Noyau} (effet : EffetFile e k k') :
    SuivantFile e k k' :=
  ⟨k', effet, .inl rfl⟩

theorem SuivantFile.ordonnance {e : Evenement} {k k₁ k' : Noyau} (effet : EffetFile e k k₁)
    (ord : Ordonnance k₁ k') : SuivantFile e k k' := ⟨k₁, effet, .inr ord⟩

theorem SuivantFile.suivant {e : Evenement} {k k' : Noyau} (suite : SuivantFile e k k') :
    Suivant e k k' :=
  suite.imp fun _ effet => ⟨.file effet.1, effet.2⟩

theorem definirEtat_vivant {k : Noyau} (valide : Valide k) (pr : Indice) {e : EtatProcessus}
    (simple : Simple e) (vivant : (k.table pr).etat ≠ .mort) :
    ∃ k', definirEtat k pr e = .ok k' ∧ Change k pr e k' ∧ Valide k' := by
  have sat := definirEtat_simple valide.coherent.toRangement pr simple
  cases run : definirEtat k pr e with
  | ok k' =>
      have change := sat.of_ok run
      exact ⟨k', rfl, change, change.valide simple valide⟩
  | error s => exact absurd (sat.of_error run).2 vivant

theorem ordonnancer_ok {k : Noyau} (coherent : Coherent k)
    (horsFile : ∀ a, k.pidActif = some a → (k.table a).etat ≠ .activable) :
    ∃ k', ordonnancer k = .ok k' ∧ Ordonnance k k' := by
  have sat := ordonnancer_sat coherent
  cases run : ordonnancer k with
  | ok k' => exact ⟨k', rfl, sat.of_ok run⟩
  | error s =>
      obtain ⟨_, _, auto⟩ := sat.of_error run
      obtain ⟨pr, actif, activable⟩ := auto.soi
      exact absurd activable (horsFile pr actif)

theorem bloquer_ok {k : Noyau} (valide : Valide k) {a : Indice} (actif : k.pidActif = some a)
    {e : EtatProcessus} (simple : Simple e) (bloque : e ≠ .activable)
    (vivant : (k.table a).etat ≠ .mort) (g : Noyau → Noyau)
    (vue : ∀ k, MemeVue k (g k)) :
    ∃ k₁ k', definirEtat k a e = .ok k₁ ∧ ordonnancer (g k₁) = .ok k' ∧ Change k a e k₁ ∧
      Ordonnance (g k₁) k' := by
  obtain ⟨k₁, run, change, valide₁⟩ := definirEtat_vivant valide a simple vivant
  obtain ⟨k', run', ord⟩ := ordonnancer_ok ((valide₁.transport (vue k₁)).coherent) (by
    intro b actif'
    rw [(vue k₁).pidActif, change.pidActif, actif] at actif'
    rw [(vue k₁).etat, change.etat, if_pos (Option.some.inj actif').symm]
    exact bloque)
  exact ⟨k₁, k', run, run', change, ord⟩

theorem Change.noyau {k k' : Noyau} {pr : Indice} {e : EtatProcessus} (change : Change k pr e k') :
    k' = { k with table := k'.table, activables := k'.activables, endormis := k'.endormis } := by
  obtain ⟨_, ⟨_, rfl⟩ | ⟨_, rfl⟩⟩ := change <;> rfl

theorem avecMemoire_faute {α : Type} (r : Except Faute α) :
    Sat (Noyau.avecMemoire r) (fun _ => True) EstFaute := by
  cases r with
  | ok a => trivial
  | error f => exact ⟨f, rfl⟩

theorem DernierSeul.congr {k k' : Noyau} {l : List Indice}
    (meme : ∀ j, (k'.table j).etat = .zombie ↔ (k.table j).etat = .zombie) :
    DernierSeul k' l ↔ DernierSeul k l := by
  unfold DernierSeul
  refine forall₂_congr fun j _ => ?_
  rw [Ne, Ne, meme]

theorem Termine.non_activable {e : EtatProcessus} {k k' : Noyau} {pr a : Indice}
    (fin : Termine pr e k k') (sorte : e = .mort ∨ e = .zombie)
    (etat : (k.table a).etat = .actif) : (k'.table a).etat ≠ .activable := by
  by_cases soi : a = pr
  · rw [soi, fin.etat_soi]
    rcases sorte with rfl | rfl <;> exact EtatProcessus.noConfusion
  · rw [(fin.etat_iff (by simp) (by simp) soi).mpr etat]
    exact EtatProcessus.noConfusion

theorem PereReveille.actif {k k' : Noyau} {p pr a : Indice} (reveille : PereReveille k p pr k')
    (etat : (k.table a).etat = .actif) : (k'.table a).etat = .actif := by
  by_cases estPere : a = p
  · subst estPere
    rcases reveille.reveil with ⟨meme, _⟩ | ⟨bloque, _⟩
    · rw [meme, etat]
    · rw [etat] at bloque
      cases bloque
  · rw [reveille.autres a estPere, etat]

/-- The end of `terminaisonProcessus`: the pages are given back, the end is noted, and the
scheduler chooses the next process. -/
theorem rendre_ordonnancer_ok (env : Env) {k : Noyau} (valide : Valide k) {a pr : Indice}
    (actif : k.pidActif = some a) (etat : (k.table a).etat ≠ .activable) :
    Sat (libererMemoire env k pr >>= fun k => ordonnancer (k.noter (.terminaison pr)))
      (fun k' => ∃ m, Ordonnance (({ k with memoire := m } : Noyau).noter (.terminaison pr)) k')
      EstFaute := by
  refine Sat.bind (Q := fun k' => ∃ m, k' = { k with memoire := m }) ?_ ?_
  · exact (avecMemoire_faute _).bind fun _ _ => ⟨_, rfl⟩
  · rintro _ ⟨m, rfl⟩
    have valide₁ : Valide (({ k with memoire := m } : Noyau).noter (.terminaison pr)) :=
      valide.of_table rfl rfl rfl rfl
    obtain ⟨k', run, ord⟩ := ordonnancer_ok valide₁.coherent (fun b actif' => by
      rw [show b = a from Option.some.inj (actif'.symm.trans actif)]
      exact etat)
    rw [run]
    exact ⟨m, ord⟩

theorem terminaison_ok (env : Env) {k : Noyau} (valide : Valide k) {a pr : Indice}
    (actif : k.pidActif = some a) (etat : (k.table a).etat = .actif) (nonZero : pr ≠ 0)
    (vivant : (k.table pr).etat ≠ .mort) (nonZombie : (k.table pr).etat ≠ .zombie) :
    Sat (terminaisonProcessus env k pr)
      (fun k' => ∃ k₁, Terminaison k pr k₁ ∧ Ordonnance k₁ k') EstFaute := by
  have pid := valide.coherent.pid_vivant vivant
  have garde : ¬ ((k.table pr).pid = none ∨ (k.table pr).pid = some 0) := by
    rw [pid]
    simp [nonZero]
  unfold terminaisonProcessus
  rw [if_neg garde]
  unfold finirProcessus
  cases pere : (k.table pr).pere with
  | none =>
      obtain ⟨_, k₂, _, run, fin⟩ := definirEtat_mort valide vivant
      simp only [run]
      refine (rendre_ordonnancer_ok env (fin.valide valide vivant (.inl rfl))
        (fin.pidActif.trans actif) (fin.non_activable (.inl rfl) etat)).mono ?_ fun _ => id
      rintro k' ⟨m, ord⟩
      exact ⟨_, .mort pere fin, ord⟩
  | some p =>
      obtain ⟨k₁, run₁, reveille, valide₁⟩ := reveillerPere_ok valide p pr
      have table : k₁.table pr = k.table pr := reveille.autres pr (valide.pere_ne vivant pere).symm
      have seul_iff : DernierSeul k₁ (k₁.table pr).fils ↔ DernierSeul k (k.table pr).fils := by
        rw [table]
        exact DernierSeul.congr (Vif.of_pereReveille reveille).zombie
      obtain ⟨bon, mauvais⟩ := definirEtat_zombie valide₁ (z := pr) (by rwa [table]) (by rwa [table])
      simp only [run₁]
      by_cases seul : DernierSeul k (k.table pr).fils
      · obtain ⟨_, k₂, _, run, fin⟩ := bon (seul_iff.mpr seul)
        have actif₂ : k₂.pidActif = some a := by
          rw [fin.pidActif, reveille.noyau]
          exact actif
        simp only [bind, Except.bind, run]
        refine (rendre_ordonnancer_ok env (fin.valide valide₁ (by rwa [table]) (.inr rfl)) actif₂
          (fin.non_activable (.inr rfl) (reveille.actif etat))).mono ?_ fun _ => id
        rintro k' ⟨m, ord⟩
        exact ⟨_, .zombie pere reveille seul fin, ord⟩
      · simp only [bind, Except.bind, mauvais (mt seul_iff.mp seul)]
        exact ⟨_, rfl⟩

theorem Sain.valide {k : Noyau} (sain : Sain k) : Valide k := sain.stable.valide

theorem Sain.vivant {k : Noyau} (sain : Sain k) {a : Indice} (actif : k.pidActif = some a) :
    (k.table a).etat ≠ .mort := by
  rw [sain.actif a actif]
  exact EtatProcessus.noConfusion

theorem Sain.enCours {k : Noyau} (sain : Sain k) {a : Indice} (actif : k.pidActif = some a) :
    EnCours k a := by
  rcases sain.stable with depart | ⟨b, cours⟩
  · rw [depart.pidActif] at actif
    cases actif
  · rw [← Option.some.inj (cours.pidActif.symm.trans actif)]
    exact cours

theorem Sain.nonZero {k : Noyau} (sain : Sain k) {a : Indice} (actif : k.pidActif = some a)
    {s : Suite} (suite : (k.table a).suite = s) (autre : ¬ VeilleSuite s) : a ≠ 0 := by
  rintro rfl
  exact autre (suite ▸ (sain.enCours actif).interne.suite)

theorem Sain.noter_appel {k : Noyau} (sain : Sain k) (i : Indice) (a : Appel) :
    Sain (k.noter (.appel i a)) where
  stable := sain.stable.of_table rfl rfl rfl rfl
  actif := sain.actif
  posture := sain.posture
  valeurs := sain.valeurs
  drapeau := sain.drapeau
  files :=
    have regles := sain.files.regles
    { sain.files with
      regles := ⟨regles.receivers, regles.senders, regles.bound, regles.closed⟩ }
  console := ⟨sain.console.chainee, sain.console.bloques⟩

section Preparation

/-- Only the journal and the entry of `a` differ, in nothing that the lists are about. -/
structure Prepare (k : Noyau) (a : Indice) (k' : Noyau) : Prop where
  noyau : k' = { k with table := k'.table, journal := k'.journal }
  vue : MemeVue k k'
  autres : ∀ j, j ≠ a → k'.table j = k.table j

theorem Prepare.trans {k k' k'' : Noyau} {a : Indice} (un : Prepare k a k') (deux : Prepare k' a k'') :
    Prepare k a k'' where
  noyau := by rw [deux.noyau, un.noyau]
  vue := un.vue.trans deux.vue
  autres j autre := (deux.autres j autre).trans (un.autres j autre)

theorem Prepare.suspend (k : Noyau) (a : Indice) (s : Suite) : Prepare k a (k.suspend a s) :=
  ⟨rfl, .suspend k a s, fun _ => k.suspend_table_ne s⟩

theorem Prepare.noter (k : Noyau) (a : Indice) (f : Fait) : Prepare k a (k.noter f) :=
  ⟨rfl, .noter k f, fun _ _ => rfl⟩

theorem Prepare.modifie (k : Noyau) (a : Indice) {f : Processus → Processus}
    (garde : ∀ p, (f p).pid = p.pid ∧ (f p).etat = p.etat ∧ (f p).prio = p.prio ∧
      (f p).pere = p.pere ∧ (f p).fils = p.fils) : Prepare k a (k.modifie a f) :=
  ⟨rfl, .modifie k a garde, fun _ => k.modifie_table_ne f⟩

variable (k : Noyau) (a : Indice)

theorem sortie_prepare (v : Int) (s : Suite) :
    Prepare k a (((k.modifie a fun p => { p with retval := v }).noter (.fin a v)).suspend a s) := by
  refine Prepare.trans (.modifie k a ?_) (.trans (.noter _ a (.fin a v)) (.suspend _ a s))
  exact fun _ => ⟨rfl, rfl, rfl, rfl, rfl⟩

theorem sortie_soi (v : Int) (s : Suite) :
    (((k.modifie a fun p => { p with retval := v }).noter (.fin a v)).suspend a s).table a =
      { k.table a with retval := v, suite := s } := by
  rw [Noyau.suspend_table_self, Noyau.noter_table, Noyau.modifie_table_self]

def avantRecolte (k₁ : Noyau) (a c : Indice) (retvalp : Bool) (retval : Int) : Noyau :=
  (if retvalp then k₁.noter (.recuperation a c retval) else k₁).renvoie a (c.val : Int)

variable {k a} {k₁ : Noyau} (attend : k₁ = k ∨ k₁ = k.modifie a fun p => { p with attendFils := .aucun })
  (c : Indice) (retvalp : Bool) (retval : Int)

include attend

theorem recolte_prepare : Prepare k a (avantRecolte k₁ a c retvalp retval) := by
  have libere : Prepare k a k₁ := by
    rcases attend with rfl | rfl
    · exact ⟨rfl, .refl _, fun _ _ => rfl⟩
    · exact .modifie k a fun _ => ⟨rfl, rfl, rfl, rfl, rfl⟩
  refine libere.trans (Prepare.trans ?_ (.suspend _ a _))
  split
  · exact .noter k₁ a _
  · exact ⟨rfl, .refl k₁, fun _ _ => rfl⟩

theorem recolte_soi : (avantRecolte k₁ a c retvalp retval).table a = { k.table a with
    attendFils := (k₁.table a).attendFils, suite := .retour (c.val : Int) } := by
  rw [avantRecolte, Noyau.renvoie, Noyau.suspend_table_self]
  split
  · rw [Noyau.noter_table]
    rcases attend with rfl | rfl
    · rfl
    · rw [Noyau.modifie_table_self]
  · rcases attend with rfl | rfl
    · rfl
    · rw [Noyau.modifie_table_self]

theorem recolte_journal : (avantRecolte k₁ a c retvalp retval).journal =
    if retvalp then .recuperation a c retval :: k.journal else k.journal := by
  have journal : k₁.journal = k.journal := by
    rcases attend with rfl | rfl <;> rfl
  rw [← journal, avantRecolte]
  split <;> rfl

end Preparation

section Demarrage

theorem renvoieActif_table_ne (k : Noyau) {j : Indice} (v : Int) (autre : k.pidActif ≠ some j) :
    (k.renvoieActif v).table j = k.table j := by
  unfold Noyau.renvoieActif
  split
  · rfl
  · next a actif => exact k.suspend_table_ne _ fun meme => autre (by rw [actif, meme])

variable {k : Noyau} {pid : Indice}

theorem Sain.libre (sain : Sain k) (libre : pidLibre k = some pid) :
    (k.table pid).etat = .mort ∧ k.pidActif ≠ some pid := by
  have mort := pidLibre_mort sain.valide.coherent libre
  exact ⟨mort, fun actif => sain.vivant actif mort⟩

variable (prio : Int) (args code pageDirectory : Mot) (m : Memoire) (f : Fait) (v : Int)

theorem demarrage_soi (autre : k.pidActif ≠ some pid) :
    (((installerProcessus k pid prio args code pageDirectory m).noter f).renvoieActif v).table pid =
      nouveauProcessus pid prio k.pidActif args code pageDirectory := by
  rw [renvoieActif_table_ne, Noyau.noter_table, installerProcessus_table_self k _ _ _ _ _ autre]
  exact (installerProcessus_pidActif k pid prio args code pageDirectory m) ▸ autre

theorem demarrage_autre {j : Indice} (autre : j ≠ pid) :
    (((((installerProcessus k pid prio args code pageDirectory m).noter f).renvoieActif v).table
      j).etat = (k.table j).etat) ∧
    ((((installerProcessus k pid prio args code pageDirectory m).noter f).renvoieActif v).table
      j).pere = (k.table j).pere := by
  have vue := MemeVue.renvoieActif ((installerProcessus k pid prio args code pageDirectory m).noter f) v
  rw [vue.etat, vue.pere, Noyau.noter_table,
    installerProcessus_table_ne k prio args code pageDirectory m autre]
  exact ⟨rfl, rfl⟩

end Demarrage

section Primitives

variable (env : Env) {e : Evenement} {k : Noyau} {a : Indice}

theorem renvoie_suivant (actif : k.pidActif = some a) (avant : HorsFile (k.table a).suite) (v : Int) :
    Suivant e k (k.renvoie a v) :=
  .effet (.processus (.rendre actif avant trivial ⟨rfl, rfl, rfl, rfl, rfl, rfl, rfl, .inl rfl⟩))

theorem waitClock_ok (sain : Sain k) (avant : ∀ a, k.pidActif = some a → HorsFile (k.table a).suite)
    (clock : UInt32) {s : Suite} (apres : (∃ v, s = .retour v) ∨ s = .finConfirme) :
    Sat (waitClock k clock s) (Suivant e k) EstFaute := by
  unfold waitClock
  split
  · exact ⟨_, rfl⟩
  · next a actif =>
      split
      · exact ⟨_, rfl⟩
      · next nonZero =>
          have vue : MemeVue k ((k.modifie a fun p =>
              { p with waitIemeInterruptionClock := clock }).suspend a s) :=
            .prepare k a s fun _ => ⟨rfl, rfl, rfl, rfl, rfl⟩
          obtain ⟨k₁, k', run, run', change, ord⟩ := bloquer_ok (sain.valide.transport vue) actif
            (e := .bloqueSurSemaphore) ⟨by simp, by simp, by simp⟩ (by simp)
            (by rw [vue.etat]; exact sain.vivant actif) id .refl
          simp only [run]
          refine Sat.of_eq run' ?_
          exact .ordonnance (.processus (.dormir clock actif nonZero (avant a actif) apres change)) ord

theorem start_ok (sain : Sain k) (avant : ∀ a, k.pidActif = some a → HorsFile (k.table a).suite)
    (nom : String) (ssize : UInt32) (prio : Int) (args : Mot) :
    Sat (start env k nom ssize prio args) (Suivant e k) EstFaute := by
  unfold start
  split
  · unfold Noyau.renvoieActif
    split
    · exact .effet (.processus (.neutre avant ⟨rfl, rfl, rfl, rfl, rfl, rfl, rfl, .inl rfl⟩))
    · next a actif => exact renvoie_suivant actif (avant a actif) _
  · next pid libre =>
      split
      · exact waitClock_ok sain avant _ (.inl ⟨_, rfl⟩)
      · next code _ =>
          split
          · exact ⟨_, rfl⟩
          · refine Sat.bind (avecMemoire_faute _) ?_
            rintro ⟨pageDirectory, memoire⟩ _
            obtain ⟨k₁, run, change, interne⟩ := start_installe sain.stable libre prio args code
              pageDirectory memoire (.demarrage k.pidActif pid)
            have horsFile : ∀ b, k₁.pidActif = some b → (k₁.table b).etat ≠ .activable := by
              intro b actif
              rw [change.pidActif, (MemeVue.renvoieActif _ _).pidActif] at actif
              have actif₀ : k.pidActif = some b :=
                (installerProcessus_pidActif k pid prio args code pageDirectory memoire).symm.trans
                  actif
              have autre : b ≠ pid := by
                rintro rfl
                exact sain.vivant actif₀ (pidLibre_mort sain.valide.coherent libre)
              rw [change.etat, if_neg autre, (MemeVue.renvoieActif _ _).etat, Noyau.noter_table,
                installerProcessus_table_ne k prio args code pageDirectory memoire autre,
                sain.actif b actif₀]
              exact EtatProcessus.noConfusion
            obtain ⟨k', run', ord⟩ := ordonnancer_ok interne.valide.coherent horsFile
            simp only [installerProcessus_pidActif, run]
            refine Sat.of_eq run' ?_
            exact .ordonnance (.processus (.demarrer prio args code pageDirectory memoire avant libre change)) ord

theorem terminerActif_ok (sain : Sain k) (actif : k.pidActif = some a) (nonZero : a ≠ 0)
    {k₁ : Noyau} (vue : MemeVue k k₁) :
    Sat (terminaisonProcessus env k₁ a) (fun k' => ∃ k₂, Terminaison k₁ a k₂ ∧ Ordonnance k₂ k')
      EstFaute := by
  have etat : (k₁.table a).etat = .actif := by rw [vue.etat, sain.actif a actif]
  exact terminaison_ok env (sain.valide.transport vue) (vue.pidActif.trans actif) etat nonZero
    (by simp [etat]) (by simp [etat])

theorem exit_ok (sain : Sain k) (actif : k.pidActif = some a) (nonZero : a ≠ 0)
    (avant : HorsFile (k.table a).suite) (v : Int) {s : Suite}
    (apres : e = .appel (.exit v) ∧ s = .exitFin ∨ e = .appel (.finCode v) ∧ s = .termine) :
    Sat (terminaisonProcessus env (((k.modifie a fun p => { p with retval := v }).noter
      (.fin a v)).suspend a s) a) (Suivant e k) EstFaute := by
  have vue : MemeVue k (((k.modifie a fun p => { p with retval := v }).noter (.fin a v)).suspend
      a s) := by
    refine MemeVue.trans (.modifie k a ?_) ((MemeVue.noter _ _).trans (.suspend _ a s))
    exact fun _ => ⟨rfl, rfl, rfl, rfl, rfl⟩
  refine (terminerActif_ok env sain actif nonZero vue).mono ?_ fun _ => id
  rintro k' ⟨k₂, fin, ord⟩
  exact .ordonnance (.processus (.sortir v actif nonZero avant apres fin)) ord

theorem finConfirme_ok (sain : Sain k) (actif : k.pidActif = some a)
    (suite : (k.table a).suite = .finConfirme) :
    Sat (terminaisonProcessus env (k.suspend a .termine) a) (Suivant .reprise k) EstFaute := by
  have nonZero := sain.nonZero actif suite id
  refine (terminerActif_ok env sain actif nonZero (.suspend k a .termine)).mono ?_ fun _ => id
  rintro k' ⟨k₂, fin, ord⟩
  exact .ordonnance (.processus (.achever actif nonZero rfl suite fin)) ord

theorem kill_termine (sain : Sain k) (actif : k.pidActif = some a) (pid : Int) :
    Sat (kill env k a pid) (fun k' => k' = k.renvoie a (-1) ∨
      ∃ pr k₁, indice? pid = some pr ∧ pr ≠ 0 ∧ (k.table pr).etat ≠ .mort ∧
        (k.table pr).etat ≠ .zombie ∧ Terminaison (k.renvoie a 0) pr k₁ ∧ Ordonnance k₁ k')
      EstFaute := by
  unfold kill
  split
  · exact .inl rfl
  · next pr cible =>
      split
      · exact .inl rfl
      · next garde =>
          simp only [not_or] at garde
          obtain ⟨nonZero, occupe, nonZombie⟩ := garde
          have vivant : (k.table pr).etat ≠ .mort := fun mort =>
            occupe ((sain.valide.coherent.pid_mort pr).mpr mort)
          have vue := MemeVue.renvoie k a 0
          refine (terminaison_ok env (sain.valide.transport vue) actif
            (by rw [vue.etat, sain.actif a actif]) nonZero (by rwa [vue.etat])
            (by rwa [vue.etat])).mono ?_ fun _ => id
          rintro k' ⟨k₁, fin, ord⟩
          exact .inr ⟨pr, k₁, cible, nonZero, vivant, nonZombie, fin, ord⟩

theorem kill_ok (sain : Sain k) (actif : k.pidActif = some a) (avant : HorsFile (k.table a).suite)
    (pid : Int) :
    Sat (kill env k a pid) (Suivant (.appel (.kill pid)) k) EstFaute := by
  refine (kill_termine env sain actif pid).mono ?_ fun _ => id
  rintro k' (rfl | ⟨pr, k₁, cible, nonZero, vivant, nonZombie, fin, ord⟩)
  · exact renvoie_suivant actif avant _
  · exact .ordonnance (.processus (.tuer actif avant rfl cible nonZero vivant nonZombie fin)) ord

theorem chercherZombie_ok (l : List Indice) (vivants : ∀ c ∈ l, (k.table c).etat ≠ .mort) :
    (∃ c ∈ l, chercherZombie k l = .ok (some c) ∧ (k.table c).etat = .zombie) ∨
    (chercherZombie k l = .ok none ∧ ∀ c ∈ l, (k.table c).etat ≠ .zombie) := by
  induction l with
  | nil => exact .inr ⟨rfl, by simp⟩
  | cons c reste ih =>
      rw [chercherZombie]
      by_cases zombie : (k.table c).etat = .zombie
      · rw [if_pos zombie]
        exact .inl ⟨c, List.mem_cons_self .., rfl, zombie⟩
      · rw [if_neg zombie, if_neg (vivants c (List.mem_cons_self ..))]
        rcases ih fun d mem => vivants d (List.mem_cons_of_mem c mem) with
          ⟨d, mem, run, etat⟩ | ⟨run, aucun⟩
        · exact .inl ⟨d, List.mem_cons_of_mem c mem, run, etat⟩
        · refine .inr ⟨run, fun d mem => ?_⟩
          rcases List.mem_cons.mp mem with rfl | mem
          · exact zombie
          · exact aucun d mem

/-- The value of the child `c` was stored through `retvalp`, if that is not null. -/
def Recupere (a c : Indice) (retvalp : Bool) (k k' : Noyau) : Prop :=
  k'.journal = if retvalp then .recuperation a c (k.table c).retval :: k.journal else k.journal

theorem waitpidFin_termine (sain : Sain k) (actif : k.pidActif = some a) {c : Indice}
    (retvalp : Bool) (zombie : (k.table c).etat = .zombie) {k₁ : Noyau}
    (attend : k₁ = k ∨ k₁ = k.modifie a fun p => { p with attendFils := .aucun }) :
    ∃ k₃ k', waitpidFin k₁ a c retvalp = .ok k' ∧
      Termine c .mort (avantRecolte k₁ a c retvalp (k.table c).retval) k₃ ∧ Ordonnance k₃ k' := by
  have vue₁ : MemeVue k k₁ := by
    rcases attend with rfl | rfl
    · exact .refl k₁
    · exact .modifie k a fun _ => ⟨rfl, rfl, rfl, rfl, rfl⟩
  have retval : (k₁.table c).retval = (k.table c).retval := by
    rcases attend with rfl | rfl
    · rfl
    · rw [Noyau.modifie_table]
      split <;> rfl
  unfold waitpidFin
  rw [if_neg (by rw [vue₁.etat, zombie]; simp), retval]
  simp only
  rw [← avantRecolte]
  set k₂ := avantRecolte k₁ a c retvalp (k.table c).retval with defk₂
  have vue₂ : MemeVue k k₂ := (recolte_prepare attend c retvalp _).vue
  have valide₂ := sain.valide.transport vue₂
  have zombie₂ : (k₂.table c).etat = .zombie := by rw [vue₂.etat, zombie]
  have autre : a ≠ c := (sain.passif actif zombie (by decide)).symm
  obtain ⟨_, k₃, _, run, fin⟩ := definirEtat_mort valide₂ (z := c) (by simp [zombie₂])
  have valide₃ := fin.valide valide₂ (by simp [zombie₂]) (.inl rfl)
  obtain ⟨k', run', ord⟩ := ordonnancer_ok valide₃.coherent (fun b actif' => by
    rw [fin.pidActif, vue₂.pidActif, actif] at actif'
    rw [← Option.some.inj actif', (fin.etat_iff (s := .actif) (by simp) (by simp) autre).mpr
      (by rw [vue₂.etat, sain.actif a actif])]
    exact EtatProcessus.noConfusion)
  refine ⟨k₃, k', ?_, fin, ord⟩
  simp only [run]
  exact run'

theorem waitpidFin_ok (sain : Sain k) (actif : k.pidActif = some a)
    (avant : HorsFile (k.table a).suite) {c : Indice} (retvalp : Bool)
    (pere : (k.table c).pere = some a) (zombie : (k.table c).etat = .zombie) {k₁ : Noyau}
    (attend : k₁ = k ∨ k₁ = k.modifie a fun p => { p with attendFils := .aucun }) :
    Sat (waitpidFin k₁ a c retvalp) (fun k' => Suivant e k k' ∧ Recupere a c retvalp k k')
      EstFaute := by
  obtain ⟨k₃, k', run, fin, ord⟩ := waitpidFin_termine sain actif retvalp zombie attend
  have recupere : Recupere a c retvalp k k' := by
    rw [Recupere, ord.noyau, fin.noyau]
    exact recolte_journal attend c retvalp _
  exact .of_eq run
    ⟨.ordonnance (.processus (.recuperer retvalp actif avant pere zombie attend fin)) ord, recupere⟩

theorem waitpidReprise_ok (sain : Sain k) (actif : k.pidActif = some a) {retvalp : Bool}
    (suite : (k.table a).suite = .waitpidAttente retvalp) :
    Sat (waitpidReprise k a retvalp) (fun k' => Suivant e k k' ∧
      ∀ c, (k.table a).attendFils = .fils c → Recupere a c retvalp k k') EstFaute := by
  have etat := sain.actif a actif
  have reprise := (Posture.of_courant (.inl etat)).mp (sain.posture a)
  rw [Reprise, suite] at reprise
  obtain ⟨c, attend, pere, zombie⟩ := reprise
  unfold waitpidReprise
  rw [if_neg (by simp [etat])]
  simp only [attend]
  refine (waitpidFin_ok sain actif (by rw [suite]; trivial) retvalp pere zombie (.inr rfl)).mono
    (fun k' fin => ⟨fin.1, fun d attend' => ?_⟩) fun _ => id
  rw [← AttendFils.fils.inj attend']
  exact fin.2

theorem waitpidRepriseFils_ok (sain : Sain k) (actif : k.pidActif = some a) {c : Indice}
    {retvalp : Bool} (suite : (k.table a).suite = .waitpidAttenteFils c retvalp) :
    Sat (waitpidRepriseFils k a c retvalp) (fun k' => Suivant e k k' ∧ Recupere a c retvalp k k')
      EstFaute := by
  have etat := sain.actif a actif
  have reprise := (Posture.of_courant (.inl etat)).mp (sain.posture a)
  rw [Reprise, suite] at reprise
  unfold waitpidRepriseFils
  rw [if_neg (by simp [etat])]
  exact waitpidFin_ok sain actif (by rw [suite]; trivial) retvalp reprise.1 reprise.2 (.inr rfl)

theorem attendre_bloque (sain : Sain k) (actif : k.pidActif = some a) (attend : AttendFils)
    (s : Suite) :
    ∃ k₁ k', (definirEtat ((k.modifie a fun p => { p with attendFils := attend }).suspend a s) a
      .bloqueSurAttenteDUnFils >>= ordonnancer) = .ok k' ∧
      Change ((k.modifie a fun p => { p with attendFils := attend }).suspend a s) a
        .bloqueSurAttenteDUnFils k₁ ∧ Ordonnance k₁ k' := by
  have vue : MemeVue k ((k.modifie a fun p => { p with attendFils := attend }).suspend a s) :=
    .prepare k a s fun _ => ⟨rfl, rfl, rfl, rfl, rfl⟩
  obtain ⟨k₁, k', run, run', change, ord⟩ := bloquer_ok (sain.valide.transport vue) actif
    (e := .bloqueSurAttenteDUnFils) ⟨by simp, by simp, by simp⟩ (by simp)
    (by rw [vue.etat]; exact sain.vivant actif) id .refl
  exact ⟨k₁, k', by rw [run]; exact run', change, ord⟩

/-- Process `c` is a child of `a` that is not destroyed. -/
def EstFils (k : Noyau) (a c : Indice) : Prop :=
  (k.table c).pere = some a ∧ (k.table c).etat ≠ .mort

/-- The child `c` of `a` is one that `waitpid` may collect for the argument `pid`. -/
def Attendu (k : Noyau) (a : Indice) (pid : Int) (c : Indice) : Prop :=
  EstFils k a c ∧ (pid < 0 ∨ indice? pid = some c)

/-- The argument `pid` names the slot of a destroyed child of `a`, and `a` has another child. -/
def AncienFils (k : Noyau) (a : Indice) (pid : Int) : Prop :=
  ∃ c, indice? pid = some c ∧ (k.table c).pere = some a ∧ (k.table c).etat = .mort ∧
    ∃ d, EstFils k a d

inductive IssueWaitpid (k : Noyau) (a : Indice) (pid : Int) (retvalp : Bool) : Resultat → Prop
  | echec (aucun : ∀ c, ¬ Attendu k a pid c) : IssueWaitpid k a pid retvalp (.ok (k.renvoie a (-1)))
  | recolte {c : Indice} {k₃ k' : Noyau} (attendu : Attendu k a pid c)
      (zombie : (k.table c).etat = .zombie)
      (fin : Termine c .mort (avantRecolte k a c retvalp (k.table c).retval) k₃)
      (ord : Ordonnance k₃ k') : IssueWaitpid k a pid retvalp (.ok k')
  | attente {k₁ k' : Noyau} (negatif : pid < 0) (fils : (k.table a).fils ≠ [])
      (aucun : ∀ c ∈ (k.table a).fils, (k.table c).etat ≠ .zombie)
      (change : Change ((k.modifie a fun p => { p with attendFils := .nImporteLequel }).suspend a
        (.waitpidAttente retvalp)) a .bloqueSurAttenteDUnFils k₁)
      (ord : Ordonnance k₁ k') : IssueWaitpid k a pid retvalp (.ok k')
  | attenteFils {c : Indice} {k₁ k' : Noyau} (attendu : EstFils k a c) (designe : indice? pid = some c)
      (nonZombie : (k.table c).etat ≠ .zombie)
      (change : Change ((k.modifie a fun p => { p with attendFils := .fils c }).suspend a
        (.waitpidAttenteFils c retvalp)) a .bloqueSurAttenteDUnFils k₁)
      (ord : Ordonnance k₁ k') : IssueWaitpid k a pid retvalp (.ok k')
  | ancien (ancien : AncienFils k a pid) : IssueWaitpid k a pid retvalp (.error (.confirme k))

theorem indice_negatif {pid : Int} {c : Indice} (designe : indice? pid = some c) : ¬ pid < 0 := by
  unfold indice? at designe
  split at designe
  · next borne => exact not_lt.mpr borne.1
  · cases designe

theorem indice_val {a c : Indice} (designe : indice? (a.val : Int) = some c) : c = a := by
  unfold indice? at designe
  split at designe
  · exact (Option.some.inj designe).symm.trans (Fin.ext (Int.toNat_natCast a.val))
  · cases designe

theorem nonFils_soi (sain : Sain k) (a : Indice) : ¬ EstFils k a a := by
  rintro ⟨pere, vivant⟩
  obtain ⟨r, decroit⟩ := sain.valide.famille.rang
  exact lt_irrefl _ (decroit a a vivant pere)

theorem issue_recolte (sain : Sain k) (actif : k.pidActif = some a) {pid : Int} {retvalp : Bool}
    {c : Indice} (attendu : Attendu k a pid c) (zombie : (k.table c).etat = .zombie) :
    IssueWaitpid k a pid retvalp (waitpidFin k a c retvalp) := by
  obtain ⟨k₃, k', run, fin, ord⟩ := waitpidFin_termine sain actif retvalp zombie (.inl rfl)
  rw [run]
  exact .recolte attendu zombie fin ord

theorem issue_designe (sain : Sain k) (actif : k.pidActif = some a) {pid : Int} {retvalp : Bool}
    {c d : Indice} (designe : indice? pid = some c) (pere : (k.table c).pere = some a)
    (autre : EstFils k a d) :
    IssueWaitpid k a pid retvalp (if (k.table c).etat = .mort then .error (.confirme k)
      else if (k.table c).etat ≠ .zombie then
        definirEtat ((k.modifie a fun p => { p with attendFils := .ofPid (k.table c).pid }).suspend a
          (.waitpidAttenteFils c retvalp)) a .bloqueSurAttenteDUnFils >>= ordonnancer
      else waitpidFin k a c retvalp) := by
  split
  · next mort => exact .ancien ⟨c, designe, pere, mort, d, autre⟩
  · next vivant =>
      split
      · next nonZombie =>
          obtain ⟨k₁, k', run, change, ord⟩ :=
            attendre_bloque sain actif (.fils c) (.waitpidAttenteFils c retvalp)
          rw [sain.valide.coherent.pid_vivant vivant]
          change IssueWaitpid k a pid retvalp (definirEtat ((k.modifie a fun p =>
            { p with attendFils := .fils c }).suspend a (.waitpidAttenteFils c retvalp)) a
              .bloqueSurAttenteDUnFils >>= ordonnancer)
          rw [run]
          exact .attenteFils ⟨pere, vivant⟩ designe nonZombie change ord
      · next zombie =>
          rw [ne_eq, not_not] at zombie
          exact issue_recolte sain actif ⟨⟨pere, vivant⟩, .inr designe⟩ zombie

theorem waitpid_cas (sain : Sain k) (actif : k.pidActif = some a) (pid : Int) (retvalp : Bool) :
    IssueWaitpid k a pid retvalp (waitpid k a pid retvalp) := by
  have enfants := sain.valide.famille.enfants a (sain.vivant actif)
  unfold waitpid
  split
  · next garde =>
      refine .echec fun c => ?_
      rintro ⟨fils, vise⟩
      rcases garde with vide | rfl
      · have mem := (enfants.mem c).mpr fils
        rw [vide] at mem
        cases mem
      · rcases vise with negatif | designe
        · omega
        · rw [indice_val designe] at fils
          exact nonFils_soi sain a fils
  · next garde =>
      simp only [not_or] at garde
      split
      · next negatif =>
          rcases chercherZombie_ok (k := k) (k.table a).fils fun c mem => ((enfants.mem c).mp mem).2 with
            ⟨c, mem, run, zombie⟩ | ⟨run, aucun⟩
          · rw [run]
            exact issue_recolte sain actif ⟨(enfants.mem c).mp mem, .inl negatif⟩ zombie
          · obtain ⟨k₁, k', run', change, ord⟩ :=
              attendre_bloque sain actif .nImporteLequel (.waitpidAttente retvalp)
            rw [run]
            change IssueWaitpid k a pid retvalp (definirEtat ((k.modifie a fun p =>
              { p with attendFils := .nImporteLequel }).suspend a (.waitpidAttente retvalp)) a
              .bloqueSurAttenteDUnFils >>= ordonnancer)
            rw [run']
            exact .attente negatif garde.1 aucun change ord
      · next positif =>
          split
          · next horsTable =>
              refine .echec fun c => ?_
              rintro ⟨_, negatif | designe⟩
              · exact positif negatif
              · cases horsTable.symm.trans designe
          · next c designe =>
              split
              · next pere =>
                  refine .echec fun d => ?_
                  rintro ⟨fils, negatif | designe'⟩
                  · exact positif negatif
                  · rw [Option.some.inj (designe.symm.trans designe')] at pere
                    exact pere fils.1
              · next pere =>
                  rw [ne_eq, not_not] at pere
                  obtain ⟨d, mem⟩ := List.exists_mem_of_ne_nil _ garde.1
                  exact issue_designe sain actif designe pere ((enfants.mem d).mp mem)

/-- The one `confirme` of the primitives that can fail: `waitpid` of a pid whose
slot still names the caller as father of a process that was destroyed. -/
theorem waitpid_ok (sain : Sain k) (actif : k.pidActif = some a) (nonZero : a ≠ 0)
    (avant : HorsFile (k.table a).suite) (pid : Int) (retvalp : Bool) :
    Sat (waitpid k a pid retvalp) (Suivant e k) fun s => EstFaute s ∨ s = .confirme k := by
  generalize resultat : waitpid k a pid retvalp = r
  have issue := resultat ▸ waitpid_cas sain actif pid retvalp
  cases issue with
  | echec aucun => exact renvoie_suivant actif avant _
  | recolte attendu zombie fin ord =>
      exact .ordonnance (.processus (.recuperer retvalp actif avant attendu.1.1 zombie (.inl rfl) fin)) ord
  | attente negatif fils aucun change ord =>
      exact .ordonnance (.processus (.attendre retvalp actif nonZero avant fils aucun change)) ord
  | attenteFils attendu designe nonZombie change ord =>
      exact .ordonnance (.processus (.attendreFils retvalp actif nonZero avant attendu.1 attendu.2
        nonZombie change)) ord
  | ancien ancien => exact .inr rfl

end Primitives

end ProjetSysteme.Invariant
