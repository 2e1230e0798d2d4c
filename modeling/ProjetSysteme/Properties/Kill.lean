/- Properties/Kill
   source: kernel/process.c, kernel/file.c
   digest: The traces of a killed process on the waiting structures of the kernel. -/

import ProjetSysteme.Invariant.History

set_option autoImplicit false
set_option relaxedAutoImplicit false

namespace ProjetSysteme.Properties

open Kernel Invariant Library.Outcome

/-- Process `i` is on no waiting structure. -/
structure Parti (k : Noyau) (i : Indice) : Prop where
  activables : i ∉ k.activables
  endormis : i ∉ k.endormis
  listes : HorsListes k i

/-- Every waiting structure holds processes that wait there now, by the call that they
are suspended in, and the counters of the message queues count them. -/
structure Attentes (k : Noyau) : Prop where
  activables : ∀ i, i ∈ k.activables ↔ (k.table i).etat = .activable
  endormis : ∀ i, i ∈ k.endormis ↔ (k.table i).etat = .bloqueSurSemaphore
  console : ∀ i ∈ lecteurs k, (k.table i).etat = .bloqueSurEntreeSortie ∧
    ∃ length, (k.table i).suite = .consReadAttente length
  maillons : ∀ i, i ∉ lecteurs k → k.console.attente.prev (.processus i) = none ∧
    k.console.attente.next (.processus i) = none
  receptions : ∀ fid, ∀ n ∈ (k.files fid).listeProcBloqueReception,
    (k.table n.pid).etat = .bloqueSurReception ∧ (k.table n.pid).suite = .preceiveAttente fid
  envois : ∀ fid, ∀ n ∈ (k.files fid).listeProcBloqueEnvoi,
    (k.table n.pid).etat = .bloqueSurEnvoi ∧
      ∃ message, (k.table n.pid).suite = .psendAttente fid message
  nbprocRecep : ∀ fid, (k.files fid).nbprocRecep = (k.files fid).listeProcBloqueReception.length
  nbprocEnvoi : ∀ fid, (k.files fid).nbprocEnvoi = (k.files fid).listeProcBloqueEnvoi.length

theorem attentes_of_sain {k : Noyau} (sain : Sain k) : Attentes k where
  activables := sain.valide.coherent.activables_mem
  endormis := sain.valide.coherent.endormis_mem
  console i mem := by
    have etat := sain.console.bloques i mem
    have posture := sain.posture i
    rw [Posture, etat] at posture
    exact ⟨etat, posture⟩
  maillons _ := sain.console.chainee.libre
  receptions := sain.files.recepteurs
  envois := sain.files.emetteurs
  nbprocRecep := sain.files.nbprocRecep
  nbprocEnvoi := sain.files.nbprocEnvoi

theorem Attentes.parti {k : Noyau} (attentes : Attentes k) {i : Indice} (fini : ¬ Survit k i) :
    Parti k i := by
  have etat : (k.table i).etat = .mort ∨ (k.table i).etat = .zombie := by
    simpa [Survit, or_iff_not_imp_left] using fini
  refine ⟨fun mem => ?_, fun mem => ?_, fun fid => ⟨?_, ?_⟩, ?_⟩
  · rcases etat with etat | etat <;> simp [(attentes.activables i).mp mem] at etat
  · rcases etat with etat | etat <;> simp [(attentes.endormis i).mp mem] at etat
  · rintro n mem rfl
    rcases etat with etat | etat <;> simp [(attentes.receptions fid n mem).1] at etat
  · rintro n mem rfl
    rcases etat with etat | etat <;> simp [(attentes.envois fid n mem).1] at etat
  · intro mem
    rcases etat with etat | etat <;> simp [(attentes.console i mem).1] at etat

/-- The call of kill on `pid` returns 0 to the running process. -/
def Tue (env : Env) (k : Noyau) (pid : Int) (k' : Noyau) : Prop :=
  permis k (.appel (.kill pid)) = true ∧ pas env k (.appel (.kill pid)) = .ok k' ∧
    ∀ a, k.pidActif = some a → (k'.table a).suite = .retour 0

theorem tue_termine {env : Env} {k k' : Noyau} {pid : Int} {pr : Indice} (sain : Sain k)
    (tue : Tue env k pid k') (cible : indice? pid = some pr) :
    ¬ Survit k' pr ∧ k'.files = k.files ∧ k'.console = k.console := by
  obtain ⟨autorise, resultat, zero⟩ := tue
  cases actif : k.pidActif with
  | none => simp [permis, actif, Appel.estStart] at autorise
  | some a =>
      have sat := kill_termine env (sain.noter_appel a (.kill pid)) actif pid
      have execute : executer env k (.appel (.kill pid)) =
          kill env (k.noter (.appel a (.kill pid))) a pid := by
        simp only [executer, actif, appeler]
      rw [← execute] at sat
      rcases pas_sans_confirme env sat resultat with rfl | ⟨z, k₁, cible', _, _, _, fin, ord⟩
      · have echec := zero a actif
        simp [Noyau.renvoie] at echec
      · obtain rfl : z = pr := Option.some.inj (cible'.symm.trans cible)
        obtain ⟨files, console⟩ := fin.listes
        refine ⟨?_, by rw [ord.noyau]; exact files, by rw [ord.noyau]; exact console⟩
        have mort := ord.etat_iff (s := .mort) (by simp) (by simp) z
        have zombie := ord.etat_iff (s := .zombie) (by simp) (by simp) z
        rw [Survit, Ne, mort, Ne, zombie]
        rcases fin.soi with etat | etat <;> simp [etat]

/-- The continuation of a run leaves a process that has terminated, or starts one in its
slot. -/
theorem course_fini (env : Env) {k k' : Noyau} (sain : Sain k)
    (course : Relation.ReflTransGen (Transition env KillPropre) k k') (i : Indice) :
    Sain k' ∧ demarrages i k.journal ≤ demarrages i k'.journal ∧
      (¬ Survit k i → ¬ Survit k' i ∨ demarrages i k.journal < demarrages i k'.journal) := by
  induction course with
  | refl => exact ⟨sain, le_rfl, .inl⟩
  | @tail k₁ k₂ _ pas ih =>
      obtain ⟨e, autorise, propre, resultat⟩ := pas
      obtain ⟨sain₁, plus₁, reste₁⟩ := ih
      obtain ⟨etape, sain₂⟩ := sain₁.pas env autorise propre resultat
      obtain ⟨plus₂, reste₂⟩ := etape.fini sain₁ i
      refine ⟨sain₂, plus₁.trans plus₂, fun fini => ?_⟩
      rcases reste₁ fini with fini₁ | demarre
      · exact (reste₂ fini₁).imp id fun demarre => lt_of_le_of_lt plus₁ demarre
      · exact .inr (lt_of_lt_of_le demarre plus₂)

/-- In every run in which kill reaches no process blocked in psend, preceive or cons_read,
the waiting structures hold processes by their own waits; a kill that returns 0 leaves
its target on none of them exactly when it was on no list of a message queue or of the
console; and a process that has terminated stays so, and off them, until a process is
started in its slot. -/
theorem tue_parti (env : Env) {k : Noyau} (atteint : Atteint env KillPropre k) :
    Attentes k ∧
    (∀ pid pr k', Tue env k pid k' → indice? pid = some pr →
      ¬ Survit k' pr ∧ (Parti k' pr ↔ HorsListes k pr)) ∧
    ∀ k' i, Relation.ReflTransGen (Transition env KillPropre) k k' → ¬ Survit k i →
      (¬ Survit k' i ∧ Parti k' i) ∨ demarrages i k.journal < demarrages i k'.journal := by
  have sain := sain_of_atteint env (fun _ _ _ => id) atteint
  refine ⟨attentes_of_sain sain, fun pid pr k' tue cible => ?_, fun k' i course fini => ?_⟩
  · obtain ⟨fini, files, console⟩ := tue_termine sain tue cible
    refine ⟨fini, fun parti => ?_, fun hors => ?_⟩
    · have hors := parti.listes
      rwa [HorsListes, files, lecteurs_congr (congrArg Console.attente console)] at hors
    · have propre : KillPropre k (.appel (.kill pid)) := by
        intro i mem
        rwa [← Option.some.inj (cible.symm.trans mem)]
      exact (attentes_of_sain (sain.pas env tue.1 propre tue.2.1).2).parti fini
  · obtain ⟨sain', _, reste⟩ := course_fini env sain course i
    exact (reste fini).imp (fun fini' => ⟨fini', (attentes_of_sain sain').parti fini'⟩) id

instance (k : Noyau) (i : Indice) : Decidable (HorsListes k i) :=
  decidable_of_iff ((∀ fid, (∀ n ∈ (k.files fid).listeProcBloqueReception, n.pid ≠ i) ∧
      ∀ n ∈ (k.files fid).listeProcBloqueEnvoi, n.pid ≠ i) ∧ (lecteurs k).all (fun j => j ≠ i) = true)
    (and_congr_right' (List.all_eq_true.trans
      ⟨fun autres mem => of_decide_eq_true (autres i mem) rfl, fun absent _ mem => decide_eq_true fun same => absent (same ▸ mem)⟩))

instance (k : Noyau) (e : Evenement) : Decidable (KillPropre k e) := by
  induction e using Evenement.casesOn with
  | appel a => induction a using Appel.casesOn <;> (unfold KillPropre; infer_instance)
  | _ => exact isTrue trivial

theorem tue_parti_exemple : ∃ k k', Atteint Env.exemple KillPropre k ∧ Tue Env.exemple k 2 k' ∧
    ¬ Survit k' 2 ∧ Parti k' 2 ∧ Attentes k' := by
  obtain ⟨k, atteint, test⟩ := Atteint.of_verifier Env.exemple (C := fun k e => decide (KillPropre k e))
    (l := [demarrer 0, .reprise, demarrer 1, .reprise, demarrer 2, .reprise,
      .appel (.waitClock 5), .reprise])
    (T := fun k => verifierPas Env.exemple k (.appel (.kill 2)) fun k' =>
      decide (permis k (.appel (.kill 2)) = true ∧
          (∀ a, k.pidActif = some a → (k'.table a).suite = .retour 0) ∧ HorsListes k 2))
    (by decide +kernel)
  have atteint := atteint.mono Env.exemple fun _ _ => of_decide_eq_true
  obtain ⟨k', resultat, test⟩ := pas_of_verifierPas Env.exemple test
  obtain ⟨autorise, zero, hors⟩ := of_decide_eq_true test
  have tue : Tue Env.exemple k 2 k' := ⟨autorise, resultat, zero⟩
  obtain ⟨_, mort, _⟩ := tue_parti Env.exemple atteint
  obtain ⟨fini, parti⟩ := mort 2 2 k' tue rfl
  have propre : KillPropre k (.appel (.kill 2)) := by
    intro i mem
    cases mem
    exact hors
  have suite : Atteint Env.exemple KillPropre k' := by
    obtain ⟨k₀, boot, course⟩ := atteint
    exact ⟨k₀, boot, course.tail ⟨_, autorise, propre, resultat⟩⟩
  exact ⟨k, k', atteint, tue, fini, parti.mpr hors, (tue_parti Env.exemple suite).1⟩

/-- Process 2 is killed in preceive, and the next psend makes it ready again. -/
theorem tue_revient : ∃ k k' k'', Atteint Env.exemple (fun _ _ => True) k ∧
    Tue Env.exemple k 2 k' ∧ ¬ Parti k' 2 ∧
    Relation.ReflTransGen (Transition Env.exemple fun _ _ => True) k' k'' ∧
    demarrages 2 k''.journal = demarrages 2 k'.journal ∧ (k''.table 2).etat = .activable := by
  obtain ⟨k, atteint, test⟩ := Atteint.of_verifier Env.exemple (C := fun _ _ => true)
    (l := [demarrer 0, .reprise, demarrer 1, .reprise, .appel (.pcreate 1), .reprise, demarrer 2,
      .reprise, .appel (.preceive 0), .reprise])
    (T := fun k => verifierPas Env.exemple k (.appel (.kill 2)) fun k' =>
      (derouler Env.exemple (fun _ _ => true) k' [.reprise, .appel (.psend 0 7)]).any fun k'' : Noyau =>
        decide (permis k (.appel (.kill 2)) = true ∧
          (∀ a, k.pidActif = some a → (k'.table a).suite = .retour 0) ∧ ¬ HorsListes k' 2 ∧
          demarrages 2 k''.journal = demarrages 2 k'.journal ∧ (k''.table 2).etat = .activable))
    (by decide +kernel)
  obtain ⟨k', resultat, test⟩ := pas_of_verifierPas Env.exemple test
  obtain ⟨k'', course, test⟩ := (Option.any_eq_true ..).mp test
  obtain ⟨autorise, zero, liste, meme, activable⟩ := of_decide_eq_true test
  refine ⟨k, k', k'', atteint.mono Env.exemple fun _ _ _ => trivial, ⟨autorise, resultat, zero⟩,
    fun parti => liste parti.listes, ?_, meme, activable⟩
  refine Relation.ReflTransGen.mono ?_ _ _ (derouler_course Env.exemple course)
  rintro b c ⟨e, autorise, _, pas⟩
  exact ⟨e, autorise, trivial, pas⟩

end ProjetSysteme.Properties
