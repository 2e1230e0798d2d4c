/- Properties/Waiters
   source: kernel/file.c, shared/queue.h
   digest: The counters, the lists and the states of the processes blocked on the message queues agree. -/

import ProjetSysteme.Properties.QueueIds
import ProjetSysteme.Properties.Reset

set_option autoImplicit false
set_option relaxedAutoImplicit false

namespace ProjetSysteme.Properties

open Kernel Invariant Library.PriorityList

/-- The nodes of the two blocked lists of a queue. -/
def noeuds (f : FileMessage) : List ProcessBloque :=
  f.listeProcBloqueReception ++ f.listeProcBloqueEnvoi

def inscrits (k : Noyau) : List Indice :=
  (List.finRange nbQueue).flatMap fun fid => (noeuds (k.files fid)).map ProcessBloque.pid

/-- With each process, the number of the event at which it last joined a blocked list, when
event `t` leads from `k` to `k'`. -/
def dater (t : Nat) (k k' : Noyau) (arrivee : Indice → Nat) : Indice → Nat := fun i =>
  if (inscrits k').contains i ∧ ¬ (inscrits k).contains i then t else arrivee i

/-- A run of `t` events whose kills reach no process blocked in psend, preceive or cons_read,
with the arrivals on the blocked lists. -/
inductive Chronique (env : Env) : Nat → Noyau → (Indice → Nat) → Prop
  | depart {k₀ : Noyau} (boot : initialiserGestionDesProcessus env = .ok k₀) :
      Chronique env 0 k₀ fun _ => 0
  | suite {t : Nat} {k k' : Noyau} {e : Evenement} {arrivee : Indice → Nat}
      (avant : Chronique env t k arrivee) (autorise : permis k e = true) (propre : KillPropre k e)
      (resultat : pas env k e = .ok k') : Chronique env (t + 1) k' (dater t k k' arrivee)

def Devance (arrivee : Indice → Nat) (m n : ProcessBloque) : Prop :=
  m.prio < n.prio ∨ m.prio = n.prio ∧ arrivee n.pid < arrivee m.pid

/-- The waiters of every queue, open or not, are accounted for.  The end of a list, from which
psend and preceive serve, comes first. -/
structure Tenue (env : Env) (k : Noyau) (arrivee : Indice → Nat) : Prop where
  nbprocRecep : ∀ fid, (k.files fid).nbprocRecep = (k.files fid).listeProcBloqueReception.length
  nbprocEnvoi : ∀ fid, (k.files fid).nbprocEnvoi = (k.files fid).listeProcBloqueEnvoi.length
  recepteurs : ∀ fid, ∀ n ∈ (k.files fid).listeProcBloqueReception,
    (k.table n.pid).etat = .bloqueSurReception
  emetteurs : ∀ fid, ∀ n ∈ (k.files fid).listeProcBloqueEnvoi,
    (k.table n.pid).etat = .bloqueSurEnvoi
  distincts : (inscrits k).Nodup
  receptions : ∀ fid, (k.files fid).listeProcBloqueReception.Pairwise (Devance arrivee)
  envois : ∀ fid, (k.files fid).listeProcBloqueEnvoi.Pairwise (Devance arrivee)
  comptage : ∀ a fid, k.pidActif = some a →
    pas env k (.appel (.pcount (fid.val : Int) true)) =
      .ok (((k.noter (.appel a (.pcount (fid.val : Int) true))).noter (.comptage a fid
        ((k.files fid).file.length + (k.files fid).listeProcBloqueEnvoi.length -
          (k.files fid).listeProcBloqueReception.length))).renvoie a 0)

section Listes

variable {k k' : Noyau} {t : Nat} {arrivee : Indice → Nat} {fid : IndiceFile} {i : Indice}

theorem mem_inscrits : i ∈ inscrits k ↔ ∃ fid, Bloque k fid i := by
  simp only [inscrits, List.mem_flatMap, List.mem_finRange, true_and, List.mem_map]
  rfl

theorem inscrit_of_mem {n : ProcessBloque} (mem : n ∈ noeuds (k.files fid)) : n.pid ∈ inscrits k :=
  mem_inscrits.mpr ⟨fid, n, mem, rfl⟩

theorem inscrit_actif (sain : Sain k) (actif : k.pidActif = some i) : i ∉ inscrits k := by
  rw [mem_inscrits]
  rintro ⟨fid, bloque⟩
  exact (bloque.appel sain.files).2 (sain.actif i actif)

theorem enAppel_unique {g : IndiceFile} (un : EnAppel k fid i) (deux : EnAppel k g i) : fid = g := by
  rcases un with suite | ⟨message, suite⟩ <;> rcases deux with suite' | ⟨message', suite'⟩ <;>
    cases suite.symm.trans suite' <;> rfl

theorem noeuds_nodup (sain : Sain k) (fid : IndiceFile) :
    ((noeuds (k.files fid)).map ProcessBloque.pid).Nodup := by
  rw [noeuds, List.map_append, List.nodup_append]
  refine ⟨sain.files.recepteurs_nodup fid, sain.files.emetteurs_nodup fid, ?_⟩
  intro i recoit j emet meme
  obtain ⟨m, memM, rfl⟩ := List.mem_map.mp recoit
  obtain ⟨n, memN, rfl⟩ := List.mem_map.mp emet
  have etat := (sain.files.recepteurs fid m memM).1
  rw [meme, (sain.files.emetteurs fid n memN).1] at etat
  cases etat

theorem inscrits_nodup (sain : Sain k) : (inscrits k).Nodup := by
  refine List.nodup_flatMap.mpr ⟨fun fid _ => noeuds_nodup sain fid, ?_⟩
  refine (List.nodup_finRange nbQueue).imp fun {fid g} autre i un deux => ?_
  obtain ⟨m, memM, rfl⟩ := List.mem_map.mp un
  obtain ⟨n, memN, meme⟩ := List.mem_map.mp deux
  have appel := (Bloque.appel ⟨m, memM, rfl⟩ sain.files).1
  have appel' := (Bloque.appel ⟨n, memN, meme⟩ sain.files).1
  exact autre (enAppel_unique appel appel')

theorem dater_inscrit (attend : i ∈ inscrits k) : dater t k k' arrivee i = arrivee i :=
  if_neg fun nouveau => nouveau.2 (List.contains_iff_mem.mpr attend)

theorem dater_nouveau (attend : i ∈ inscrits k') (absent : i ∉ inscrits k) :
    dater t k k' arrivee i = t :=
  if_pos ⟨List.contains_iff_mem.mpr attend, mt List.contains_iff_mem.mp absent⟩

theorem suitListe_devance {l l' : List ProcessBloque} (sain : Sain k) (suit : SuitListe k l l')
    (avant : ∀ n ∈ l, n.pid ∈ inscrits k) (apres : ∀ n ∈ l', n.pid ∈ inscrits k')
    (passe : ∀ i ∈ inscrits k, arrivee i < t) (trie : l.Pairwise (Devance arrivee)) :
    l'.Pairwise (Devance (dater t k k' arrivee)) := by
  have garde : l.Pairwise (Devance (dater t k k' arrivee)) := by
    refine trie.imp_of_mem fun {m n} memM memN devance => ?_
    rw [Devance, dater_inscrit (avant m memM), dater_inscrit (avant n memN)]
    exact devance
  rcases suit with sous | ⟨a, actif, entree⟩
  · exact garde.sublist sous
  · subst entree
    have nouveau : dater t k k' arrivee a = t :=
      dater_nouveau (apres (noeud k a) ((mem_place _).mpr (.inl rfl))) (inscrit_actif sain actif)
    refine place_pairwise ProcessBloque.prio (trie.imp fun devance => ?_) garde
      (fun n mem plus => .inl plus) fun n mem moins => ?_
    · rcases devance with plus | ⟨meme, -⟩
      · exact plus.le
      · exact meme.le
    · rcases moins.lt_or_eq with plus | meme
      · exact .inl plus
      · refine .inr ⟨meme, ?_⟩
        rw [dater_inscrit (avant n mem), show (noeud k a).pid = a from rfl, nouveau]
        exact passe n.pid (avant n mem)

end Listes

structure Ordonnees (t : Nat) (k : Noyau) (arrivee : Indice → Nat) : Prop where
  passe : ∀ i ∈ inscrits k, arrivee i < t
  receptions : ∀ fid, (k.files fid).listeProcBloqueReception.Pairwise (Devance arrivee)
  envois : ∀ fid, (k.files fid).listeProcBloqueEnvoi.Pairwise (Devance arrivee)

theorem Ordonnees.etape {t : Nat} {k k' : Noyau} {e : Evenement} {arrivee : Indice → Nat}
    (ordonnees : Ordonnees t k arrivee) (sain : Sain k) (etape : Etape e k k') :
    Ordonnees (t + 1) k' (dater t k k' arrivee) := by
  have suivie := etape.suivie sain
  refine ⟨fun i attend => ?_, fun fid => ?_, fun fid => ?_⟩
  · by_cases attendait : i ∈ inscrits k
    · rw [dater_inscrit attendait]
      exact Nat.lt_succ_of_lt (ordonnees.passe i attendait)
    · rw [dater_nouveau attend attendait]
      exact Nat.lt_succ_self t
  · exact suitListe_devance sain (suivie fid).receptions
      (fun n mem => inscrit_of_mem (List.mem_append_left _ mem))
      (fun n mem => inscrit_of_mem (List.mem_append_left _ mem)) ordonnees.passe
      (ordonnees.receptions fid)
  · exact suitListe_devance sain (suivie fid).envois
      (fun n mem => inscrit_of_mem (List.mem_append_right _ mem))
      (fun n mem => inscrit_of_mem (List.mem_append_right _ mem)) ordonnees.passe
      (ordonnees.envois fid)

theorem Chronique.ordonnees {env : Env} {t : Nat} {k : Noyau} {arrivee : Indice → Nat}
    (chronique : Chronique env t k arrivee) : Sain k ∧ Ordonnees t k arrivee := by
  induction chronique with
  | @depart k₀ boot =>
      have sain := sain_of_boot env boot
      obtain ⟨memoire, -, valeur⟩ := Library.Outcome.bind_ok boot
      cases valeur
      exact ⟨sain, ⟨fun i attend => (by simp [inscrits, noeuds, noyauVide] at attend),
        fun fid => List.Pairwise.nil, fun fid => List.Pairwise.nil⟩⟩
  | suite avant autorise propre resultat ih =>
      obtain ⟨sain, ordonnees⟩ := ih
      obtain ⟨etape, sain'⟩ := sain.pas env autorise propre resultat
      exact ⟨sain', ordonnees.etape sain etape⟩

theorem pas_pcount (env : Env) {k : Noyau} {a : Indice} (sain : Sain k) (actif : k.pidActif = some a)
    (fid : IndiceFile) :
    pas env k (.appel (.pcount (fid.val : Int) true)) =
      .ok (((k.noter (.appel a (.pcount (fid.val : Int) true))).noter (.comptage a fid
        ((k.files fid).file.length + (k.files fid).listeProcBloqueEnvoi.length -
          (k.files fid).listeProcBloqueReception.length))).renvoie a 0) := by
  have borne := fid.isLt
  have valeur : -(k.files fid).nbprocRecep + (k.files fid).nbelem + (k.files fid).nbprocEnvoi =
      (k.files fid).file.length + (k.files fid).listeProcBloqueEnvoi.length -
        (k.files fid).listeProcBloqueReception.length := by
    rw [sain.files.nbprocRecep, sain.files.nbelem, sain.files.nbprocEnvoi]
    omega
  have appel : executer env k (.appel (.pcount (fid.val : Int) true)) =
      pcount (k.noter (.appel a (.pcount (fid.val : Int) true))) a fid.val true := by
    simp only [executer, actif, appeler]
  rw [pas, appel, pcount, if_neg (by omega), if_pos rfl, indiceFile_val]
  simp only [Noyau.noter_files, valeur]

/-- In every run whose kills reach no process blocked in psend, preceive or cons_read, so in
every run without kill, the waiters of the message queues are accounted for. -/
theorem attente_tenue (env : Env) {k : Noyau} (atteint : Atteint env KillPropre k) :
    (∃ t arrivee, Chronique env t k arrivee) ∧
      ∀ t arrivee, Chronique env t k arrivee → Tenue env k arrivee := by
  refine ⟨?_, fun t arrivee chronique => ?_⟩
  · refine Atteint.induction env (P := fun k => ∃ t arrivee, Chronique env t k arrivee)
      (fun k₀ boot => ⟨0, _, .depart boot⟩) ?_ atteint
    rintro k e k' - ⟨t, arrivee, avant⟩ autorise propre resultat
    exact ⟨t + 1, _, .suite avant autorise propre resultat⟩
  · obtain ⟨sain, ordonnees⟩ := chronique.ordonnees
    exact ⟨sain.files.nbprocRecep, sain.files.nbprocEnvoi,
      fun fid n mem => (sain.files.recepteurs fid n mem).1,
      fun fid n mem => (sain.files.emetteurs fid n mem).1, inscrits_nodup sain,
      ordonnees.receptions, ordonnees.envois, fun a fid actif => pas_pcount env sain actif fid⟩

theorem attente_tenue_exemple : ∃ k t arrivee, Chronique Env.exemple t k arrivee ∧
    (k.files 0).listeProcBloqueReception = [⟨4, 2⟩, ⟨2, 2⟩, ⟨3, 4⟩] ∧
    (k.files 0).nbprocRecep = 3 ∧ arrivee 2 < arrivee 4 := by
  obtain ⟨k, atteint, test⟩ := Atteint.of_verifier Env.exemple
    (C := fun _ e => sansKill e)
    (l := [demarrer 0, .reprise, demarrer 1, .reprise, .appel (.pcreate 5), .reprise,
      demarrer 2, .reprise, .appel (.preceive 0), .reprise,
      demarrer 4, .reprise, .appel (.preceive 0), .reprise,
      demarrer 2, .reprise, .appel (.preceive 0)])
    (T := fun k => decide ((k.files 0).listeProcBloqueReception = [⟨4, 2⟩, ⟨2, 2⟩, ⟨3, 4⟩]))
    (by decide +kernel)
  have liste := of_decide_eq_true test
  obtain ⟨⟨t, arrivee, chronique⟩, tenues⟩ :=
    attente_tenue Env.exemple (atteint.mono Env.exemple fun _ _ => killPropre_of_sansKill)
  have tenue := tenues t arrivee chronique
  have compteur := tenue.nbprocRecep 0
  have ordre := tenue.receptions 0
  rw [liste] at compteur ordre
  refine ⟨k, t, arrivee, chronique, liste, compteur, ?_⟩
  rcases (List.pairwise_cons.mp ordre).1 ⟨2, 2⟩ (List.mem_cons_self ..) with plus | ⟨-, avant⟩
  · exact absurd plus (lt_irrefl 2)
  · exact avant

end ProjetSysteme.Properties
