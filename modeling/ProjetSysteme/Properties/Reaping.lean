/- Properties/Reaping
   source: kernel/process.c
   digest: When waitpid fails, and what becomes of the child that it returns. -/

import ProjetSysteme.Invariant.ChannelRuns
import ProjetSysteme.Invariant.History

set_option autoImplicit false
set_option relaxedAutoImplicit false

namespace ProjetSysteme.Properties

open Kernel Invariant

/-- The call of process `a` returns a negative value, and nothing else changed. -/
def Echoue (k : Noyau) (a : Indice) (r : Resultat) : Prop :=
  ∃ v : Int, v < 0 ∧ r = .ok (k.renvoie a v)

/-- The call of process `a` returns the pid of its zombie child `c`, which is destroyed. -/
structure Recolte (k : Noyau) (a c : Indice) (k' : Noyau) : Prop where
  fils : EstFils k a c
  zombie : (k.table c).etat = .zombie
  retour : (k'.table a).suite = .retour c.val
  detruit : (k'.table c).etat = .mort

def AttendDansWaitpid (k' : Noyau) (a : Indice) (pid : Int) (retvalp : Bool) : Prop :=
  (k'.table a).etat = .bloqueSurAttenteDUnFils ∧
    (pid < 0 ∧ (k'.table a).suite = .waitpidAttente retvalp ∨
      ∃ c, indice? pid = some c ∧ (k'.table a).suite = .waitpidAttenteFils c retvalp)

/-- A call of `waitpid` fails when there is no child to wait for, and only then; otherwise it
collects one or blocks. -/
structure WaitpidJuste (k : Noyau) (a : Indice) (pid : Int) (retvalp : Bool) : Prop where
  echec : Echoue k a (waitpid k a pid retvalp) ↔ ¬ ∃ c, Attendu k a pid c
  issue : (∃ c, Attendu k a pid c) → ∃ k', waitpid k a pid retvalp = .ok k' ∧
    ((∃ c, Attendu k a pid c ∧ Recolte k a c k') ∨ AttendDansWaitpid k' a pid retvalp)

/-- `waitpid` resumes and returns the pid of a child, that of its argument if it had one. -/
def RepriseJuste (env : Env) (k : Noyau) (a : Indice) : Prop :=
  ∀ retvalp,
    ((k.table a).suite = .waitpidAttente retvalp →
      ∃ k' c, reprendre env k a = .ok k' ∧ Recolte k a c k') ∧
    ∀ c, (k.table a).suite = .waitpidAttenteFils c retvalp →
      ∃ k', reprendre env k a = .ok k' ∧ Recolte k a c k'

section Calls

variable {k : Noyau} {a : Indice}

theorem attendu_unique {pid : Int} {c d : Indice} (attendu : Attendu k a pid d)
    (designe : indice? pid = some c) : d = c := by
  rcases attendu.2 with negatif | designe'
  · exact absurd negatif (indice_negatif designe)
  · exact Option.some.inj (designe'.symm.trans designe)

theorem recolte_of_termine {c : Indice} {retvalp : Bool} {v : Int} {k₁ k₃ k' : Noyau}
    (fils : EstFils k a c) (zombie : (k.table c).etat = .zombie)
    (fin : Termine c .mort (avantRecolte k₁ a c retvalp v) k₃) (ord : Ordonnance k₃ k') :
    Recolte k a c k' := by
  refine ⟨fils, zombie, ?_, ?_⟩
  · rw [ord.champs, fin.donnees]
    simp [avantRecolte, Noyau.renvoie]
  · exact (ord.etat_iff (by simp) (by simp) c).mpr fin.etat_soi

theorem attend_of_change {k₁ k' : Noyau} {attend : AttendFils} {s : Suite}
    (change : Change ((k.modifie a fun p => { p with attendFils := attend }).suspend a s) a
      .bloqueSurAttenteDUnFils k₁) (ord : Ordonnance k₁ k') :
    (k'.table a).etat = .bloqueSurAttenteDUnFils ∧ (k'.table a).suite = s := by
  constructor
  · rw [ord.etat_iff (by simp) (by simp), change.etat, if_pos rfl]
  · rw [ord.champs, change.champs]
    simp

theorem waitpid_ancien (sain : Sain k) (actif : k.pidActif = some a) {pid : Int}
    (ancien : AncienFils k a pid) (retvalp : Bool) :
    waitpid k a pid retvalp = .error (.confirme k) := by
  obtain ⟨c, designe, pere, mort, d, fils⟩ := ancien
  have enfants := sain.valide.famille.enfants a (sain.vivant actif)
  have garde : ¬ ((k.table a).fils = [] ∨ (a.val : Int) = pid) := by
    rintro (vide | rfl)
    · have mem := (enfants.mem d).mpr fils
      rw [vide] at mem
      cases mem
    · rw [indice_val designe] at mort
      exact sain.vivant actif mort
  unfold waitpid
  rw [if_neg garde, if_neg (indice_negatif designe), designe]
  simp only [pere, mort, ne_eq, not_true_eq_false, if_true, if_false]

/-- A call of `waitpid` does what it is for, unless its argument names the slot of a
destroyed child and another child is there. -/
theorem waitpid_juste_iff (sain : Sain k) (actif : k.pidActif = some a) (pid : Int)
    (retvalp : Bool) : WaitpidJuste k a pid retvalp ↔ ¬ AncienFils k a pid := by
  have issue := waitpid_cas sain actif pid retvalp
  generalize resultat : waitpid k a pid retvalp = r at issue
  have non_echec : ∀ {k' : Noyau}, r = .ok k' → (∀ v : Int, v < 0 → (k'.table a).suite ≠ .retour v) →
      ¬ Echoue k a (waitpid k a pid retvalp) := by
    rintro k' rfl autre ⟨v, negatif, echec⟩
    cases resultat.symm.trans echec
    exact autre v negatif (by simp [Noyau.renvoie])
  cases issue with
  | echec aucun =>
      have sans : ¬ ∃ c, Attendu k a pid c := not_exists.mpr aucun
      refine iff_of_true ⟨iff_of_true ⟨-1, by decide, resultat⟩ sans, fun avec => absurd avec sans⟩ ?_
      intro ancien
      cases resultat.symm.trans (waitpid_ancien sain actif ancien retvalp)
  | @recolte c k₃ k' attendu zombie fin ord =>
      have recolte := recolte_of_termine attendu.1 zombie fin ord
      refine iff_of_true ⟨iff_of_false (non_echec rfl fun v negatif suite => ?_) fun sans =>
        sans ⟨c, attendu⟩, fun _ => ⟨k', resultat, .inl ⟨c, attendu, recolte⟩⟩⟩ ?_
      · have valeur := recolte.retour.symm.trans suite
        simp only [Suite.retour.injEq] at valeur
        omega
      · rintro ⟨d, designe, _, mort, _⟩
        rw [attendu_unique attendu designe, mort] at zombie
        cases zombie
  | @attente k₁ k' negatif fils aucun change ord =>
      obtain ⟨etat, suite⟩ := attend_of_change change ord
      obtain ⟨c, mem⟩ := List.exists_mem_of_ne_nil _ fils
      have enfant := ((sain.valide.famille.enfants a (sain.vivant actif)).mem c).mp mem
      refine iff_of_true ⟨iff_of_false (non_echec rfl fun v _ retour => ?_) fun sans =>
        sans ⟨c, enfant, .inl negatif⟩, fun _ => ⟨k', resultat, .inr ⟨etat, .inl ⟨negatif, suite⟩⟩⟩⟩ ?_
      · cases suite.symm.trans retour
      · rintro ⟨d, designe, _⟩
        exact indice_negatif designe negatif
  | @attenteFils c k₁ k' enfant designe nonZombie change ord =>
      obtain ⟨etat, suite⟩ := attend_of_change change ord
      refine iff_of_true ⟨iff_of_false (non_echec rfl fun v _ retour => ?_) fun sans =>
        sans ⟨c, enfant, .inr designe⟩,
        fun _ => ⟨k', resultat, .inr ⟨etat, .inr ⟨c, designe, suite⟩⟩⟩⟩ ?_
      · cases suite.symm.trans retour
      · rintro ⟨d, designe', _, mort, _⟩
        rw [Option.some.inj (designe'.symm.trans designe)] at mort
        exact enfant.2 mort
  | ancien ancien =>
      refine iff_of_false (fun juste => ?_) (not_not.mpr ancien)
      obtain ⟨c, designe, _, mort, _⟩ := ancien
      have sans : ¬ ∃ d, Attendu k a pid d := by
        rintro ⟨d, attendu⟩
        rw [attendu_unique attendu designe] at attendu
        exact attendu.1.2 mort
      obtain ⟨v, _, echec⟩ := juste.echec.mpr sans
      cases resultat.symm.trans echec

theorem reprise_juste (env : Env) (sain : Sain k) (actif : k.pidActif = some a) :
    RepriseJuste env k a := by
  have etat := sain.actif a actif
  have reprise := (Posture.of_courant (.inl etat)).mp (sain.posture a)
  rw [Reprise] at reprise
  intro retvalp
  constructor
  · intro suite
    rw [suite] at reprise
    obtain ⟨c, attend, pere, zombie⟩ := reprise
    obtain ⟨k₃, k', run, fin, ord⟩ := waitpidFin_termine sain actif retvalp zombie (.inr rfl)
    refine ⟨k', c, ?_, recolte_of_termine ⟨pere, by simp [zombie]⟩ zombie fin ord⟩
    rw [reprendre, suite]
    simp only [waitpidReprise]
    rw [if_neg (by simp [etat]), attend]
    exact run
  · intro c suite
    rw [suite] at reprise
    obtain ⟨pere, zombie⟩ := reprise
    obtain ⟨k₃, k', run, fin, ord⟩ := waitpidFin_termine sain actif retvalp zombie (.inr rfl)
    refine ⟨k', ?_, recolte_of_termine ⟨pere, by simp [zombie]⟩ zombie fin ord⟩
    rw [reprendre, suite]
    simp only [waitpidRepriseFils]
    rw [if_neg (by simp [etat])]
    exact run

end Calls

theorem course_detruit (env : Env) {k k' : Noyau} {i : Indice} (sain : Sain k)
    (course : Relation.ReflTransGen (Transition env KillPropre) k k')
    (mort : (k.table i).etat = .mort) :
    Sain k' ∧ demarrages i k.journal ≤ demarrages i k'.journal ∧
      ((k'.table i).etat = .mort ∨ demarrages i k.journal < demarrages i k'.journal) := by
  induction course with
  | refl => exact ⟨sain, le_rfl, .inl mort⟩
  | @tail k₁ k₂ _ pas ih =>
      obtain ⟨e, autorise, propre, resultat⟩ := pas
      obtain ⟨sain₁, plus₁, reste₁⟩ := ih
      obtain ⟨etape, sain₂⟩ := sain₁.pas env autorise propre resultat
      have plus₂ := (etape.fini sain₁ i).1
      refine ⟨sain₂, plus₁.trans plus₂, ?_⟩
      rcases reste₁ with mort₁ | demarre
      · exact (etape.detruit sain₁ mort₁).imp id fun demarre => lt_of_le_of_lt plus₁ demarre
      · exact .inr (lt_of_lt_of_le demarre plus₂)

/-- In every run in which kill reaches no process blocked in psend, preceive or cons_read,
a call of waitpid fails exactly when there is no child to wait for, unless its argument is
the pid of a destroyed child of a caller with another child; a call that waits returns the
pid of a child; and a child that was destroyed is no child any more, until a process is
started in its slot. -/
theorem waitpid_echecs (env : Env) {k : Noyau} (atteint : Atteint env KillPropre k) :
    (∀ a pid retvalp, k.pidActif = some a →
      (WaitpidJuste k a pid retvalp ↔ ¬ AncienFils k a pid)) ∧
    (∀ a, k.pidActif = some a → RepriseJuste env k a) ∧
    ∀ k' a c, Relation.ReflTransGen (Transition env KillPropre) k k' → (k.table c).etat = .mort →
      ¬ EstFils k' a c ∨ demarrages c k.journal < demarrages c k'.journal := by
  have sain := sain_of_atteint env (fun _ _ _ => id) atteint
  refine ⟨fun a pid retvalp actif => waitpid_juste_iff sain actif pid retvalp,
    fun a actif => reprise_juste env sain actif, fun k' a c course mort => ?_⟩
  obtain ⟨_, _, reste⟩ := course_detruit env sain course mort
  exact reste.imp (fun mort' enfant => enfant.2 mort') id

instance (k : Noyau) (a : Indice) (pid : Int) : Decidable (AncienFils k a pid) := by
  unfold AncienFils EstFils
  infer_instance

def unFilsSurDeux : List Evenement :=
  [demarrer 0, .reprise, demarrer 1, .reprise, demarrer 2, .reprise, .appel (.exit 5), .reprise,
    demarrer 0, .reprise, .appel (.waitpid 2 true), .reprise]

theorem waitpid_echecs_exemple : ∃ k, Atteint Env.exemple KillPropre k ∧
    WaitpidJuste k 1 3 true ∧ WaitpidJuste k 1 (-1) true ∧ WaitpidJuste k 1 1 true := by
  obtain ⟨k, atteint, test⟩ := Atteint.of_verifier Env.exemple (C := fun _ e => sansKill e)
    (l := unFilsSurDeux)
    (T := fun k => decide (k.pidActif = some 1 ∧ ¬ AncienFils k 1 3 ∧ ¬ AncienFils k 1 (-1) ∧
      ¬ AncienFils k 1 1)) (by decide +kernel)
  have propre : Atteint Env.exemple KillPropre k :=
    atteint.mono Env.exemple fun _ _ => killPropre_of_sansKill
  obtain ⟨actif, trois, tous, soi⟩ := of_decide_eq_true test
  obtain ⟨appel, _⟩ := waitpid_echecs Env.exemple propre
  exact ⟨k, propre, (appel 1 3 true actif).mpr trois, (appel 1 (-1) true actif).mpr tous,
    (appel 1 1 true actif).mpr soi⟩

/-- A second waitpid for the child that was collected terminates the father. -/
theorem waitpid_termine_pere : ¬ ∀ k, Atteint Env.exemple (fun _ _ => True) k →
    ∀ a pid retvalp, k.pidActif = some a → WaitpidJuste k a pid retvalp := by
  intro toujours
  obtain ⟨k, atteint, test⟩ := Atteint.of_verifier Env.exemple (C := fun _ e => sansKill e)
    (l := unFilsSurDeux) (T := fun k => decide (k.pidActif = some 1 ∧ AncienFils k 1 2))
    (by decide +kernel)
  obtain ⟨actif, ancien⟩ := of_decide_eq_true test
  have sain := sain_of_atteint Env.exemple
    (fun _ _ _ sans => killPropre_of_sansKill sans) atteint
  exact (waitpid_juste_iff sain actif 2 true).mp
    (toujours k (atteint.mono Env.exemple fun _ _ _ => trivial) 1 2 true actif) ancien

end ProjetSysteme.Properties
