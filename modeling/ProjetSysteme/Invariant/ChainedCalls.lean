/- Invariant/ChainedCalls
   digest: The calls of process.c and of the clock on the rings in memory simulate those on lists. -/

import ProjetSysteme.Invariant.Chained
import ProjetSysteme.Invariant.Stability
import ProjetSysteme.Kernel.ChainedCalls

set_option autoImplicit false
set_option relaxedAutoImplicit false

namespace ProjetSysteme.Invariant.Chaine

open Kernel Kernel.Chaine Library.PriorityList Library.Ring

variable {H : Indice → Prop} {k k' : Noyau} {kc : NoyauChaine} {pr i actif : Indice}

theorem Simule.lire {α β : Type} {r : Except Faute α} {g : β → Noyau} {next : α → Except Arret β}
    {nextc : α → ResultatChaine} (suite : ∀ a, r = .ok a → Simule H g (next a) (nextc a)) :
    Simule H g (Noyau.avecMemoire r >>= next) (Kernel.Chaine.lire r >>= nextc) := by
  cases r with
  | error f => trivial
  | ok a => exact suite a rfl

theorem Represente.table (represente : Represente H k kc) (i : Indice) :
    kc.noyau.table i = { k.table i with fils := [] } := by
  rw [represente.noyau]
  rfl

theorem Represente.noter (represente : Represente H k kc) (f : Fait) :
    Represente H (k.noter f) (kc.noter f) :=
  represente.change (fun n => n.noter f) (fun _ => rfl) rfl rfl rfl

theorem Represente.suspend (represente : Represente H k kc) (i : Indice) (s : Suite) :
    Represente H (k.suspend i s) (kc.suspend i s) :=
  represente.modifie i (fun _ => rfl) (fun _ => rfl) (represente.vivants i)

theorem Represente.renvoie (represente : Represente H k kc) (i : Indice) (v : Int) :
    Represente H (k.renvoie i v) (kc.renvoie i v) := represente.suspend i _

theorem Represente.renvoieActif (represente : Represente H k kc) (v : Int) :
    Represente H (k.renvoieActif v) (kc.renvoieActif v) := by
  rw [Noyau.renvoieActif, NoyauChaine.renvoieActif, represente.pidActif]
  cases k.pidActif with
  | none => exact represente
  | some actif => exact represente.renvoie actif v

variable (represente : Represente H k kc)

include represente

theorem waitClock_simule (clock : UInt32) (s : Suite) :
    Simule H id (Kernel.waitClock k clock s) (Kernel.Chaine.waitClock kc clock s) := by
  rw [Kernel.waitClock, Kernel.Chaine.waitClock, represente.pidActif]
  cases k.pidActif with
  | none => trivial
  | some actif =>
      refine Simule.ite Iff.rfl (fun _ => trivial) fun _ => ?_
      have represente₁ := (represente.modifie (f := fun p => { p with waitIemeInterruptionClock := clock }) actif
        (fun _ => rfl) (fun _ => rfl) (represente.vivants actif)).suspend actif s
      exact (definirEtat_simule represente₁ actif .bloqueSurSemaphore).bind
        fun k₂ kc₂ _ (represente₂ : Represente H k₂ kc₂) => ordonnancer_simule represente₂

theorem echecConfirme_simule :
    Simule H id (Kernel.echecConfirme k) (Kernel.Chaine.echecConfirme kc) := by
  rw [Kernel.echecConfirme, Kernel.Chaine.echecConfirme, represente.noyau]
  exact waitClock_simule represente _ _

theorem reveillerPere_simule (pere pr : Indice) :
    Simule H id (Kernel.reveillerPere k pere pr) (Kernel.Chaine.reveillerPere kc pere pr) := by
  unfold Kernel.reveillerPere Kernel.Chaine.reveillerPere
  simp only [represente.table]
  refine Simule.ite Iff.rfl (fun _ => ?_) fun _ => .ok represente
  by_cases quelconque : (k.table pere).attendFils = .nImporteLequel
  · rw [if_pos quelconque, if_pos quelconque]
    exact definirEtat_simule (represente.modifie (f := fun p => { p with attendFils := .ofPid (k.table pr).pid })
      pere (fun _ => rfl) (fun _ => rfl) (represente.vivants pere)) pere .activable
  · rw [if_neg quelconque, if_neg quelconque]
    exact definirEtat_simule represente pere .activable

theorem finirProcessus_simule (pr : Indice) :
    Simule H id (Kernel.finirProcessus k pr) (Kernel.Chaine.finirProcessus kc pr) := by
  unfold Kernel.finirProcessus Kernel.Chaine.finirProcessus
  rw [represente.pere]
  cases (k.table pr).pere with
  | none => exact definirEtat_simule represente pr .mort
  | some pere =>
      exact (reveillerPere_simule represente pere pr).bind
        fun k₁ kc₁ _ (represente₁ : Represente H k₁ kc₁) => definirEtat_simule represente₁ pr .zombie

theorem libererMemoire_simule (env : Env) (pr : Indice) :
    Simule H id (Kernel.libererMemoire env k pr) (Kernel.Chaine.libererMemoire env kc pr) := by
  unfold Kernel.libererMemoire Kernel.Chaine.libererMemoire
  rw [represente.table, represente.noyau]
  refine Simule.lire fun memoire _ => Simule.ok ?_
  exact represente.change (fun n => { n with memoire := freePage memoire (k.table pr).pageDirectory })
    (fun _ => rfl) rfl rfl rfl

theorem terminaisonProcessus_simule (env : Env) (pr : Indice) :
    Simule H id (Kernel.terminaisonProcessus env k pr) (Kernel.Chaine.terminaisonProcessus env kc pr) := by
  unfold Kernel.terminaisonProcessus Kernel.Chaine.terminaisonProcessus
  refine Simule.ite (by rw [represente.pid]) (fun _ => ⟨kc, rfl, represente⟩) fun _ => ?_
  refine (finirProcessus_simule represente pr).bind
    fun k₁ kc₁ _ (represente₁ : Represente H k₁ kc₁) => ?_
  refine (libererMemoire_simule represente₁ env pr).bind
    fun k₂ kc₂ _ (represente₂ : Represente H k₂ kc₂) => ?_
  exact ordonnancer_simule (represente₂.noter _)

theorem kill_simule (env : Env) (actif : Indice) (pid : Int) :
    Simule H id (Kernel.kill env k actif pid) (Kernel.Chaine.kill env kc actif pid) := by
  unfold Kernel.kill Kernel.Chaine.kill
  cases indice? pid with
  | none => exact .ok (represente.renvoie actif _)
  | some pr =>
      exact Simule.ite (by rw [represente.pid, represente.etat]) (fun _ => .ok (represente.renvoie actif _))
        fun _ => terminaisonProcessus_simule (represente.renvoie actif 0) env pr

theorem finir_simule (env : Env) (actif : Indice) (retval : Int) (s : Suite) :
    Simule H id (Kernel.terminaisonProcessus env (((k.modifie actif fun p => { p with retval := retval }).noter
      (.fin actif retval)).suspend actif s) actif) (Kernel.Chaine.finir env kc actif retval s) :=
  terminaisonProcessus_simule (((represente.modifie (f := fun p => { p with retval := retval }) actif
    (fun _ => rfl) (fun _ => rfl) (represente.vivants actif)).noter _).suspend actif s) env actif

theorem waitpidFin_simule (actif fils : Indice) (retvalp : Bool) :
    Simule H id (Kernel.waitpidFin k actif fils retvalp) (Kernel.Chaine.waitpidFin kc actif fils retvalp) := by
  unfold Kernel.waitpidFin Kernel.Chaine.waitpidFin
  refine Simule.ite (by rw [represente.etat]) (fun _ => ⟨kc, rfl, represente⟩) fun _ => ?_
  have represente₁ : Represente H
      (if retvalp then k.noter (.recuperation actif fils (k.table fils).retval) else k)
      (if retvalp then kc.noter (.recuperation actif fils (kc.noyau.table fils).retval) else kc) := by
    rw [represente.table]
    cases retvalp with
    | false => exact represente
    | true => exact represente.noter _
  exact (definirEtat_simule (represente₁.renvoie actif _) fils .mort).bind
    fun k₂ kc₂ _ (represente₂ : Represente H k₂ kc₂) => ordonnancer_simule represente₂

theorem waitpidReprise_simule (actif : Indice) (retvalp : Bool) :
    Simule H id (Kernel.waitpidReprise k actif retvalp) (Kernel.Chaine.waitpidReprise kc actif retvalp) := by
  unfold Kernel.waitpidReprise Kernel.Chaine.waitpidReprise
  simp only [represente.table]
  have represente₁ := represente.modifie (f := fun p => { p with attendFils := .aucun }) actif
    (fun _ => rfl) (fun _ => rfl) (represente.vivants actif)
  refine Simule.ite Iff.rfl (fun _ => ⟨kc, rfl, represente⟩) fun _ => ?_
  cases (k.table actif).attendFils with
  | fils fils => exact waitpidFin_simule represente₁ actif fils retvalp
  | aucun => exact ⟨_, rfl, represente₁⟩
  | nImporteLequel => exact ⟨_, rfl, represente₁⟩

theorem waitpidRepriseFils_simule (actif fils : Indice) (retvalp : Bool) :
    Simule H id (Kernel.waitpidRepriseFils k actif fils retvalp)
      (Kernel.Chaine.waitpidRepriseFils kc actif fils retvalp) := by
  unfold Kernel.waitpidRepriseFils Kernel.Chaine.waitpidRepriseFils
  refine Simule.ite (by rw [represente.etat]) (fun _ => ⟨kc, rfl, represente⟩) fun _ => ?_
  exact waitpidFin_simule (represente.modifie (f := fun p => { p with attendFils := .aucun }) actif
    (fun _ => rfl) (fun _ => rfl) (represente.vivants actif)) actif fils retvalp

theorem chercherZombie_simule (l : List Indice) {next : Option Indice → Resultat}
    {nextc : Option Indice → ResultatChaine} (suite : ∀ z, Simule H id (next z) (nextc z)) :
    Simule H id (Kernel.chercherZombie k l >>= next) (Kernel.Chaine.chercherZombie kc (l.map .fils) >>= nextc) := by
  induction l with
  | nil => exact suite none
  | cons fils reste ih =>
      rw [Kernel.chercherZombie, List.map_cons, Kernel.Chaine.chercherZombie, represente.etat]
      by_cases zombie : (k.table fils).etat = .zombie
      · rw [if_pos zombie, if_pos zombie]
        exact suite (some fils)
      · rw [if_neg zombie, if_neg zombie]
        by_cases mort : (k.table fils).etat = .mort
        · rw [if_pos mort, if_pos mort]
          exact ⟨kc, rfl, represente⟩
        · rw [if_neg mort, if_neg mort]
          exact ih

theorem waitpid_simule (vivant : H actif) (pid : Int) (retvalp : Bool) :
    Simule H id (Kernel.waitpid k actif pid retvalp) (Kernel.Chaine.waitpid kc actif pid retvalp) := by
  have ring := represente.anneaux.ring (.teteFils actif) vivant
  have vide : Maillons.queueEmpty kc.liens (.teteFils actif) = true ↔ (k.table actif).fils = [] := by
    rw [queueEmpty_eq ring]
    exact List.map_eq_nil_iff
  have elements : Maillons.queueForEach kc.liens tours (.teteFils actif) =
      .ok ((k.table actif).fils.map .fils) := by
    have estTete : tete H (.teteFils actif) := vivant
    exact queueForEach_eq ring (represente.borne (c := .fils) estTete rfl)
  unfold Kernel.waitpid Kernel.Chaine.waitpid
  refine Simule.ite (or_congr vide Iff.rfl) (fun _ => .ok (represente.renvoie actif _)) fun _ => ?_
  refine Simule.ite Iff.rfl (fun _ => ?_) fun _ => ?_
  · rw [elements]
    refine chercherZombie_simule represente _ fun pidFils => ?_
    cases pidFils with
    | some fils => exact waitpidFin_simule represente actif fils retvalp
    | none =>
        have represente₁ := (represente.modifie (f := fun p => { p with attendFils := .nImporteLequel }) actif
          (fun _ => rfl) (fun _ => rfl) (represente.vivants actif)).suspend actif (.waitpidAttente retvalp)
        exact (definirEtat_simule represente₁ actif .bloqueSurAttenteDUnFils).bind
          fun k₂ kc₂ _ (represente₂ : Represente H k₂ kc₂) => ordonnancer_simule represente₂
  · cases indice? pid with
    | none => exact .ok (represente.renvoie actif _)
    | some fils =>
        refine Simule.ite (by rw [represente.pere]) (fun _ => .ok (represente.renvoie actif _)) fun _ => ?_
        refine Simule.ite (by rw [represente.etat]) (fun _ => ⟨kc, rfl, represente⟩) fun _ => ?_
        refine Simule.ite (by rw [represente.etat]) (fun _ => ?_) fun _ =>
          waitpidFin_simule represente actif fils retvalp
        rw [represente.pid]
        have represente₁ := (represente.modifie (f := fun p => { p with attendFils := .ofPid (k.table fils).pid })
          actif (fun _ => rfl) (fun _ => rfl) (represente.vivants actif)).suspend actif
          (.waitpidAttenteFils fils retvalp)
        exact (definirEtat_simule represente₁ actif .bloqueSurAttenteDUnFils).bind
          fun k₂ kc₂ _ (represente₂ : Represente H k₂ kc₂) => ordonnancer_simule represente₂

theorem replacerActivable_simule (pr : Indice) :
    Simule H id (Kernel.replacerActivable k pr) (Kernel.Chaine.replacerActivable kc pr) := by
  unfold Kernel.replacerActivable Kernel.Chaine.replacerActivable
  refine Simule.ite (by rw [represente.etat]) (fun _ => ?_) fun _ => .ok represente
  have sorte := Sorte.activables H k
  rw [Kernel.queueDel]
  split
  · next mem =>
      obtain ⟨m, sortie, anneaux⟩ := represente.retirer sorte.tete sorte.liste sorte.injective mem
      have represente₁ := represente.remplacerActivables anneaux
      rw [sortie]
      exact entrerActivables_simule represente₁ pr
  · trivial

theorem cederAuPlusPrioritaire_simule (actif : Indice) :
    Simule H id (Kernel.cederAuPlusPrioritaire k actif) (Kernel.Chaine.cederAuPlusPrioritaire kc actif) := by
  unfold Kernel.cederAuPlusPrioritaire Kernel.Chaine.cederAuPlusPrioritaire
  rw [represente.premier]
  cases k.activables.getLast? with
  | none => exact .ok represente
  | some premier =>
      exact Simule.ite (by rw [represente.prio, represente.prio]) (fun _ => ordonnancer_simule represente)
        fun _ => .ok represente

theorem chprio_simule (actif : Indice) (pid newprio : Int) :
    Simule H id (Kernel.chprio k actif pid newprio) (Kernel.Chaine.chprio kc actif pid newprio) := by
  unfold Kernel.chprio Kernel.Chaine.chprio
  cases indice? pid with
  | none => exact .ok (represente.renvoie actif _)
  | some pr =>
      refine Simule.ite (by rw [represente.etat]) (fun _ => .ok (represente.renvoie actif _)) fun _ => ?_
      refine Simule.ite (by rw [represente.prio]) (fun _ => .ok (represente.renvoie actif _)) fun _ => ?_
      rw [represente.prio]
      have represente₁ := represente.modifie (f := fun p => { p with prio := newprio }) pr (fun _ => rfl)
        (fun _ => rfl) (represente.vivants pr)
      exact (replacerActivable_simule represente₁ pr).bind fun k₂ kc₂ _ (represente₂ : Represente H k₂ kc₂) =>
        cederAuPlusPrioritaire_simule (represente₂.renvoie actif _) actif

omit represente in
theorem hors_contenu {V : Indice → Prop} {pid : Indice} (activables : pid ∉ k.activables)
    (endormis : pid ∉ k.endormis) (fils : ∀ q, V q → pid ∉ (k.table q).fils) :
    ∀ h, tete V h → .activable pid ∉ contenu k h ∧ .fils pid ∉ contenu k h ∧ .endormi pid ∉ contenu k h ∧
      .teteFils pid ∉ contenu k h := by
  intro h estTete
  cases h with
  | teteActivables => simpa [contenu] using activables
  | teteEndormis => simpa [contenu] using endormis
  | teteFils q => simpa [contenu] using fils q estTete
  | _ => simp [contenu]

/-- The rings after the links of a free slot are initialised: it has no child, its link among the
children of its father is null, and the rings of dead fathers are forgotten. -/
theorem initialiser_anneaux (valide : Valide k) {pid : Indice} (mort : (k.table pid).etat = .mort) :
    Rings (initialiserMaillons kc.liens pid) (tete fun i => (k.table i).etat ≠ .mort ∨ i = pid)
      (fun m => propre m ∨ m = .fils pid) (Function.update (contenu k) (.teteFils pid) []) := by
  have hors := hors_contenu (V := fun i => (k.table i).etat ≠ .mort) (k := k)
    (fun mem => by
      rw [valide.coherent.activables_mem, mort] at mem
      cases mem)
    (fun mem => by
      rw [valide.coherent.endormis_mem, mort] at mem
      cases mem)
    (fun q vivant mem => (((valide.famille.enfants q vivant).mem pid).mp mem).2 mort)
  have anneaux₀ : Rings kc.liens (tete fun i => (k.table i).etat ≠ .mort) propre (contenu k) := by
    refine represente.anneaux.mono (fun h estTete => ?_) (fun _ => id) fun x estPropre _ absent => ?_
    · cases h with
      | teteFils i => exact represente.vivants i (.inl estTete)
      | _ => exact estTete
    · cases x with
      | activable i =>
          refine ⟨id, fun h _ => ?_⟩
          cases h with
          | teteActivables => exact absent .teteActivables trivial
          | _ => simp [contenu]
      | endormi i =>
          refine ⟨id, fun h _ => ?_⟩
          cases h with
          | teteEndormis => exact absent .teteEndormis trivial
          | _ => simp [contenu]
      | _ => exact estPropre.elim
  have anneaux₁ := (((anneaux₀.clear (x := .activable pid) id fun h estTete => (hors h estTete).1).clear
    (x := .fils pid) id fun h estTete => (hors h estTete).2.1).clear
    (x := .endormi pid) id fun h estTete => (hors h estTete).2.2.1).begin
    (x := .teteFils pid) (fun vivant => vivant mort) fun h estTete => (hors h estTete).2.2.2
  refine anneaux₁.mono (fun h estTete => ?_) (fun x estPropre => ?_) fun x estPropre nonTete absent => ?_
  · cases h with
    | teteFils i => exact estTete.imp_right (congrArg Maillon.teteFils)
    | _ => exact .inl estTete
  · rcases estPropre with estPropre | rfl
    · exact .inl (.inl (.inl estPropre))
    · exact .inl (.inr rfl)
  · have memeTete : ∀ h, tete (fun i => (k.table i).etat ≠ .mort) h ∨ h = .teteFils pid →
        tete (fun i => (k.table i).etat ≠ .mort ∨ i = pid) h := by
      rintro h (estTete | rfl)
      · cases h with
        | teteFils i => exact .inl estTete
        | _ => exact estTete
      · exact .inr rfl
    exact ⟨fun estTete => nonTete (memeTete x estTete), fun h estTete => absent h (memeTete h estTete)⟩

section Inscrire

variable (pid : Indice) (prio : Int) (args code pageDirectory : Mot) (memoire : Memoire)

def inscrire (n : Noyau) : Noyau :=
  ({ n with
    memoire := memoire
    console := { n.console with attente := Maillons.initLink n.console.attente (.processus pid) } } : Noyau).modifie pid
      fun _ => nouveauProcessus pid prio n.pidActif args code pageDirectory

variable {pid}

omit represente in
theorem contenu_inscrire : contenu (inscrire pid prio args code pageDirectory memoire k) =
    Function.update (contenu k) (.teteFils pid) [] := by
  funext h
  cases h with
  | teteFils j =>
      by_cases same : j = pid
      · subst same
        simp [contenu, inscrire, nouveauProcessus]
      · simp [contenu, inscrire, Noyau.modifie_table, same]
  | _ => rfl

theorem inscrire_represente (valide : Valide k) (mort : (k.table pid).etat = .mort) :
    Represente (fun i => (k.table i).etat ≠ .mort ∨ i = pid)
        (inscrire pid prio args code pageDirectory memoire k)
        { noyau := inscrire pid prio args code pageDirectory memoire kc.noyau
          liens := initialiserMaillons kc.liens pid } ∧
      Rings (initialiserMaillons kc.liens pid) (tete fun i => (k.table i).etat ≠ .mort ∨ i = pid)
        (fun m => propre m ∨ m = .fils pid)
        (contenu (inscrire pid prio args code pageDirectory memoire k)) := by
  have anneaux := initialiser_anneaux represente valide mort
  rw [← contenu_inscrire prio args code pageDirectory memoire] at anneaux
  refine ⟨⟨?_, anneaux.mono (fun _ => id) (fun _ => .inl) fun x estPropre nonTete absent => ⟨nonTete, absent⟩,
    fun i => ?_⟩, anneaux⟩
  · rw [represente.noyau]
    simp only [inscrire, sansListes, Noyau.modifie]
    congr 1
    funext j
    split <;> rfl
  · by_cases same : i = pid
    · exact fun _ => .inr same
    · rw [inscrire, Noyau.modifie_table_ne _ _ same]
      rintro (vivant | attribue)
      · exact .inl vivant
      · exact .inl fun estMort => attribue ((valide.coherent.pid_mort i).mpr estMort)

omit represente in
theorem installer_boot (sans : k.pidActif = none) :
    Kernel.installerProcessus k pid prio args code pageDirectory memoire =
      inscrire pid prio args code pageDirectory memoire k := by
  unfold Kernel.installerProcessus
  dsimp only
  split
  · rfl
  · next estActif => exact absurd (sans.symm.trans estActif) (Option.some_ne_none _).symm

omit represente in
theorem installer_fils (avec : k.pidActif = some actif) :
    Kernel.installerProcessus k pid prio args code pageDirectory memoire =
      (inscrire pid prio args code pageDirectory memoire k).modifie actif fun p =>
        { p with fils := place (inscrire pid prio args code pageDirectory memoire k).prioDe pid p.fils } := by
  unfold Kernel.installerProcessus
  dsimp only
  split
  · next sans => exact absurd (avec.symm.trans sans) (Option.some_ne_none _)
  · next estActif =>
      obtain rfl := Option.some.inj (avec.symm.trans estActif)
      rfl

omit represente in
theorem installer_boot_chaine (sans : kc.noyau.pidActif = none) :
    Kernel.Chaine.installerProcessus kc pid prio args code pageDirectory memoire =
      .ok { noyau := inscrire pid prio args code pageDirectory memoire kc.noyau
            liens := initialiserMaillons kc.liens pid } := by
  unfold Kernel.Chaine.installerProcessus
  dsimp only
  split
  · rfl
  · next estActif => exact absurd (sans.symm.trans estActif) (Option.some_ne_none _).symm

omit represente in
theorem installer_fils_chaine (avec : kc.noyau.pidActif = some actif) :
    Kernel.Chaine.installerProcessus kc pid prio args code pageDirectory memoire =
      NoyauChaine.chainer { noyau := inscrire pid prio args code pageDirectory memoire kc.noyau
                            liens := initialiserMaillons kc.liens pid }
        (Maillons.queueAdd (initialiserMaillons kc.liens pid)
          (Kernel.Chaine.prioDe (inscrire pid prio args code pageDirectory memoire kc.noyau)) tours (.fils pid)
          (.teteFils actif)) := by
  unfold Kernel.Chaine.installerProcessus
  dsimp only
  split
  · next sans => exact absurd (avec.symm.trans sans) (Option.some_ne_none _)
  · next estActif =>
      obtain rfl := Option.some.inj (avec.symm.trans estActif)
      rfl

theorem installerProcessus_represente (valide : Valide k) (mort : (k.table pid).etat = .mort)
    (vivant : ∀ a, k.pidActif = some a → (k.table a).etat ≠ .mort) :
    ∃ kc₁, Kernel.Chaine.installerProcessus kc pid prio args code pageDirectory memoire = .ok kc₁ ∧
      Represente (fun i => (k.table i).etat ≠ .mort ∨ i = pid)
        (Kernel.installerProcessus k pid prio args code pageDirectory memoire) kc₁ := by
  obtain ⟨represente₁, anneaux⟩ := inscrire_represente represente prio args code pageDirectory memoire valide mort
  cases courant : k.pidActif with
  | none =>
      rw [installer_boot prio args code pageDirectory memoire courant,
        installer_boot_chaine prio args code pageDirectory memoire (represente.pidActif.trans courant)]
      exact ⟨_, rfl, represente₁⟩
  | some actif =>
      rw [installer_fils prio args code pageDirectory memoire courant,
        installer_fils_chaine prio args code pageDirectory memoire (represente.pidActif.trans courant)]
      have vif := vivant actif courant
      have autre : actif ≠ pid := by
        rintro rfl
        exact vif mort
      have liste : ((inscrire pid prio args code pageDirectory memoire k).table actif).fils =
          (k.table actif).fils := by
        rw [inscrire, Noyau.modifie_table_ne _ _ autre]
      have absent : ∀ h, tete (fun i => (k.table i).etat ≠ .mort ∨ i = pid) h →
          .fils pid ∉ contenu (inscrire pid prio args code pageDirectory memoire k) h := by
        intro h estTete mem
        rw [contenu_inscrire] at mem
        by_cases same : h = .teteFils pid
        · rw [same, Function.update_self] at mem
          cases mem
        · rw [Function.update_of_ne same] at mem
          cases h with
          | teteFils q =>
              have vifQ := estTete.resolve_right fun meme => same (congrArg Maillon.teteFils meme)
              rw [contenu, List.mem_map_of_injective fun _ _ => Maillon.fils.inj] at mem
              exact (((valide.famille.enfants q vifQ).mem pid).mp mem).2 mort
          | _ => simp [contenu] at mem
      have estTete : tete (fun i => (k.table i).etat ≠ .mort ∨ i = pid) (.teteFils actif) := .inl vif
      obtain ⟨m, ajout, anneaux₂⟩ := queueAdd_anneaux anneaux estTete
        (Kernel.Chaine.prioDe (inscrire pid prio args code pageDirectory memoire kc.noyau)) (x := .fils pid) id
        (.inr rfl) absent (represente₁.borne (c := .fils) estTete rfl)
      rw [ajout]
      refine ⟨_, rfl, ?_⟩
      have memePrio : ∀ j, Kernel.Chaine.prioDe (inscrire pid prio args code pageDirectory memoire kc.noyau)
          (.fils j) = (inscrire pid prio args code pageDirectory memoire k).prioDe j := represente₁.prio
      rw [contenu, ← map_place _ memePrio] at anneaux₂
      have represente₂ := represente₁.remplacerFils (anneaux₂.mono (fun _ => id) (fun _ => .inl)
        fun x estPropre nonTete dehors => ⟨nonTete, dehors⟩)
      have meme : ∀ n : Noyau, n.modifie actif (fun p => { p with fils := place n.prioDe pid (n.table actif).fils }) =
          n.modifie actif fun p => { p with fils := place n.prioDe pid p.fils } := by
        intro n
        unfold Noyau.modifie
        congr 1
        funext j
        split
        · next same => rw [same]
        · rfl
      rw [← meme]
      exact represente₂

end Inscrire

theorem start_simule (env : Env) (valide : Valide k)
    (vivant : ∀ a, k.pidActif = some a → (k.table a).etat ≠ .mort) (nom : String) (ssize : UInt32) (prio : Int)
    (args : Mot) :
    ∃ V, Simule V id (Kernel.start env k nom ssize prio args) (Kernel.Chaine.start env kc nom ssize prio args) := by
  have libreMeme : pidLibre kc.noyau = pidLibre k := by
    rw [represente.noyau]
    rfl
  have memoireMeme : kc.noyau.memoire = k.memoire := by
    rw [represente.noyau]
    rfl
  unfold Kernel.start Kernel.Chaine.start
  rw [libreMeme, memoireMeme]
  cases libre : pidLibre k with
  | none => exact ⟨H, .ok (represente.renvoieActif _)⟩
  | some pid =>
      have mort : (k.table pid).etat = .mort :=
        (valide.coherent.pid_mort pid).mp (by simpa using List.find?_some libre)
      cases env.programmes nom with
      | none =>
          refine ⟨H, ?_⟩
          have horloge : currentClock kc.noyau = currentClock k := by
            rw [represente.noyau]
            rfl
          simp only [horloge]
          exact waitClock_simule represente _ _
      | some code =>
          by_cases nul : code = 0
          · refine ⟨H, ?_⟩
            simp only [if_pos nul]
            trivial
          · simp only [if_neg nul]
            cases creerMemoireProcessus env k.memoire (pidInt (some pid)) ((ssize / 4096).toNat + 1) with
            | error f => exact ⟨H, trivial⟩
            | ok r =>
                obtain ⟨pageDirectory, memoire⟩ := r
                obtain ⟨kc₁, installe, represente₁⟩ := installerProcessus_represente represente prio args code
                  pageDirectory memoire valide mort vivant
                refine ⟨fun i => (k.table i).etat ≠ .mort ∨ i = pid, ?_⟩
                simp only [Noyau.avecMemoire, Kernel.Chaine.lire, bind, Except.bind, installe, represente₁.pidActif]
                exact (definirEtat_simule ((represente₁.noter _).renvoieActif _) pid .activable).bind
                  fun k₂ kc₂ _ (represente₂ : Represente _ k₂ kc₂) => ordonnancer_simule represente₂

theorem appeler_simule (env : Env) (valide : Valide k)
    (vivant : ∀ a, k.pidActif = some a → (k.table a).etat ≠ .mort) (actif : Indice)
    (courant : (k.table actif).etat ≠ .mort) (a : Appel) {r : ResultatChaine}
    (traite : Kernel.Chaine.appeler env kc actif a = some r) :
    ∃ V, Simule V id (Kernel.appeler env k actif a) r := by
  cases a with
  | start nom ssize prio args =>
      cases traite
      exact start_simule represente env valide vivant nom ssize prio args
  | exit retval =>
      cases traite
      exact ⟨H, finir_simule represente env actif retval .exitFin⟩
  | finCode retval =>
      cases traite
      exact ⟨H, finir_simule represente env actif retval .termine⟩
  | kill pid =>
      cases traite
      exact ⟨H, kill_simule represente env actif pid⟩
  | waitpid pid retvalp =>
      cases traite
      exact ⟨H, waitpid_simule represente (represente.vivants actif (.inl courant)) pid retvalp⟩
  | chprio pid newprio =>
      cases traite
      exact ⟨H, chprio_simule represente actif pid newprio⟩
  | getprio pid =>
      cases traite
      have meme : getprio kc.noyau pid = getprio k pid := by
        rw [represente.noyau]
        rfl
      rw [meme]
      exact ⟨H, Simule.ok (represente.renvoie actif _)⟩
  | waitClock clock =>
      cases traite
      exact ⟨H, waitClock_simule represente clock _⟩
  | _ => cases traite

theorem reprendre_simule (env : Env) (actif : Indice) {r : ResultatChaine}
    (traite : Kernel.Chaine.reprendre env kc actif = some r) :
    Simule H id (Kernel.reprendre env k actif) r := by
  unfold Kernel.Chaine.reprendre at traite
  unfold Kernel.reprendre
  rw [represente.table] at traite
  dsimp only at traite
  cases suite : (k.table actif).suite with
  | execution =>
      rw [suite] at traite
      cases traite
      exact .ok represente
  | debut =>
      rw [suite] at traite
      cases traite
      exact .ok (represente.suspend actif _)
  | retour v =>
      rw [suite] at traite
      cases traite
      exact .ok ((represente.noter _).suspend actif _)
  | finConfirme =>
      rw [suite] at traite
      cases traite
      exact terminaisonProcessus_simule (represente.suspend actif _) env actif
  | exitFin =>
      rw [suite] at traite
      cases traite
      exact ⟨kc, rfl, represente⟩
  | termine => trivial
  | waitpidAttente retvalp =>
      rw [suite] at traite
      cases traite
      exact waitpidReprise_simule represente actif retvalp
  | waitpidAttenteFils fils retvalp =>
      rw [suite] at traite
      cases traite
      exact waitpidRepriseFils_simule represente actif fils retvalp
  | _ =>
      rw [suite] at traite
      cases traite

theorem executer_simule (env : Env) (valide : Valide k)
    (vivant : ∀ a, k.pidActif = some a → (k.table a).etat ≠ .mort) (e : Evenement) {r : ResultatChaine}
    (traite : Kernel.Chaine.executer env kc e = some r) :
    ∃ V, Simule V id (Kernel.executer env k e) r := by
  cases e with
  | tic =>
      cases traite
      exact ⟨H, ticPIT_simule represente⟩
  | touche c => cases traite
  | appel a =>
      unfold Kernel.Chaine.executer at traite
      unfold Kernel.executer
      dsimp only at traite ⊢
      rw [represente.pidActif] at traite
      cases courant : k.pidActif with
      | some actif =>
          rw [courant] at traite
          exact appeler_simule (represente.noter _) env (valide.transport (.noter k _)) vivant actif
            (vivant actif courant) a traite
      | none =>
          rw [courant] at traite
          cases a with
          | start nom ssize prio args =>
              cases traite
              exact start_simule represente env valide vivant nom ssize prio args
          | _ => exact ⟨H, trivial⟩
  | reprise =>
      unfold Kernel.Chaine.executer at traite
      unfold Kernel.executer
      dsimp only at traite ⊢
      rw [represente.pidActif] at traite
      cases courant : k.pidActif with
      | some actif =>
          rw [courant] at traite
          exact ⟨H, reprendre_simule represente env actif traite⟩
      | none => exact ⟨H, trivial⟩

theorem pas_simule (env : Env) (valide : Valide k)
    (vivant : ∀ a, k.pidActif = some a → (k.table a).etat ≠ .mort) (e : Evenement) {r : ResultatChaine}
    (traite : Kernel.Chaine.pas env kc e = some r) : ∃ V, Simule V id (Kernel.pas env k e) r := by
  obtain ⟨r₁, traite₁, fin⟩ := Option.map_eq_some_iff.mp traite
  obtain ⟨V, simule⟩ := executer_simule represente env valide vivant e traite₁
  refine ⟨V, ?_⟩
  rw [Kernel.pas]
  revert simule
  rcases Kernel.executer env k e with (f | k₁) | k₁
  · intro simule
    trivial
  · rintro ⟨kc₁, rfl, represente₁⟩
    subst fin
    exact echecConfirme_simule represente₁
  · rintro ⟨kc₁, rfl, represente₁⟩
    subst fin
    exact .ok represente₁

end ProjetSysteme.Invariant.Chaine
