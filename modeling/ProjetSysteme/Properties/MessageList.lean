/- Properties/MessageList
   digest: The chain of messages is never used after free. -/

import ProjetSysteme.Kernel.MessageList

set_option autoImplicit false
set_option relaxedAutoImplicit false

namespace ProjetSysteme.Properties

open Kernel
open Library.Blocks (Chain Heap Owns Pointer)

/-- The blocks of `l` are those of `noeuds`, no other block is live, and `fin`
points to the last of them when there is one. -/
structure Chaine (t : TasMessages) (l : FileInterne) (noeuds : List (Pointer Mot × Int)) : Prop where
  owns : Owns t l.debut noeuds
  fin : ∀ noeud ∈ noeuds.getLast?, l.fin = some noeud.1

/-- The chain holds the messages of a list, which is what a queue of the kernel model has. -/
def Contient (t : TasMessages) (l : FileInterne) (messages : List Int) : Prop :=
  ∃ noeuds, Chaine t l noeuds ∧ noeuds.map Prod.snd = messages

theorem Chaine.debut_nul {t : TasMessages} {l : FileInterne} {noeuds : List (Pointer Mot × Int)}
    (chaine : Chaine t l noeuds) : l.debut = none ↔ noeuds = [] :=
  chaine.owns.chain.start_eq_none

theorem Contient.debut_nul {t : TasMessages} {l : FileInterne} {messages : List Int}
    (contient : Contient t l messages) : l.debut = none ↔ messages = [] := by
  obtain ⟨noeuds, chaine, rfl⟩ := contient
  exact chaine.debut_nul.trans List.map_eq_nil_iff.symm

private theorem premier {t : TasMessages} {l : FileInterne} {p : Pointer Mot} {v : Int}
    {reste : List (Pointer Mot × Int)} (chaine : Chaine t l ((p, v) :: reste)) :
    ∃ next, l.debut = some p ∧ t.load p = some ⟨v, next⟩ ∧ Chain t next reste := by
  obtain ⟨owns, fin⟩ := chaine
  have chain := owns.chain
  cases debut : l.debut with
  | none =>
      rw [debut] at chain
      nomatch chain
  | some q =>
      rw [debut] at chain
      cases chain with
      | cons load suite => exact ⟨_, rfl, load, suite⟩

private theorem add_message_vide {t : TasMessages} {l : FileInterne} (adresse : Mot) (val : Int)
    (chaine : Chaine t l []) :
    ∃ t' l' noeuds, addMessage t adresse val l = .ok (t', l') ∧ Chaine t' l' noeuds ∧
      noeuds.map Prod.snd = [val] ∧ t'.allocated = t.allocated + 1 := by
  have vide : l.debut = none := chaine.debut_nul.mpr rfl
  have owns : Owns t none [] := vide ▸ chaine.owns
  have ecrit := ecrireMessage_some (Heap.load_alloc_self t adresse ⟨0, none⟩) fun m => { m with value := val }
  rw [Heap.store_alloc] at ecrit
  refine ⟨_, { debut := some (t.pointer adresse), fin := some (t.pointer adresse) }, _,
    ?_, ⟨owns.singleton (a := adresse), ?_⟩, rfl, rfl⟩
  · unfold addMessage
    simp only [vide, ecrit]
    rfl
  · intro noeud dernier
    cases dernier
    rfl

private theorem add_message_suite {t : TasMessages} {l : FileInterne} {adresse : Mot} (val : Int)
    {avant : List (Pointer Mot × Int)} {p : Pointer Mot} {v : Int} (chaine : Chaine t l (avant ++ [(p, v)]))
    (neuf : t.Fresh adresse) :
    ∃ t' l' noeuds, addMessage t adresse val l = .ok (t', l') ∧ Chaine t' l' noeuds ∧
      noeuds.map Prod.snd = (avant ++ [(p, v)]).map Prod.snd ++ [val] ∧ t'.allocated = t.allocated + 1 := by
  have plein : l.debut ≠ none := by
    intro nul
    exact List.append_ne_nil_of_right_ne_nil avant (List.cons_ne_nil _ _) (chaine.debut_nul.mp nul)
  have fin : l.fin = some p := chaine.fin (p, v) List.getLast?_concat
  have dernier := chaine.owns.chain.load_last
  -- the three stores, one after the other
  have ecrit := ecrireMessage_some (Heap.load_alloc_self t adresse ⟨0, none⟩) fun m => { m with value := val }
  rw [Heap.store_alloc] at ecrit
  have relie := ecrireMessage_some (Heap.load_alloc ⟨val, none⟩ neuf dernier)
    fun m => { m with next := some (t.pointer adresse) }
  have owns : Owns ((t.alloc adresse ⟨val, none⟩).store p ⟨v, some (t.pointer adresse)⟩) l.debut
      (avant ++ [(p, v), (t.pointer adresse, val)]) := chaine.owns.snoc neuf
  have nouveau : ((t.alloc adresse ⟨val, none⟩).store p ⟨v, some (t.pointer adresse)⟩).load
      (t.pointer adresse) = some ⟨val, none⟩ := by
    have chaine' := owns.chain
    rw [List.append_cons] at chaine'
    exact chaine'.load_last
  have termine := ecrireMessage_some nouveau fun m => { m with next := none }
  rw [Heap.store_same nouveau] at termine
  refine ⟨_, { l with fin := some (t.pointer adresse) }, _, ?_, ⟨owns, ?_⟩, ?_, rfl⟩
  · unfold addMessage
    simp only [ecrit, fin, relie, termine, if_neg plein, bind, Except.bind]
    rfl
  · intro noeud atFin
    rw [List.append_cons, List.getLast?_concat] at atFin
    cases atFin
    rfl
  · simp only [List.map_append, List.map_cons, List.map_nil, List.append_assoc, List.cons_append, List.nil_append]

theorem add_message_contient {t : TasMessages} {l : FileInterne} {messages : List Int} {adresse : Mot} (val : Int)
    (contient : Contient t l messages) (neuf : t.Fresh adresse) :
    ∃ t' l', addMessage t adresse val l = .ok (t', l') ∧ Contient t' l' (messages ++ [val]) ∧
      t'.allocated = t.allocated + 1 := by
  obtain ⟨noeuds, chaine, rfl⟩ := contient
  rcases List.eq_nil_or_concat noeuds with vide | ⟨avant, ⟨p, v⟩, suite⟩
  · subst vide
    obtain ⟨t', l', noeuds', ajoute, chaine', valeurs, compte⟩ := add_message_vide adresse val chaine
    exact ⟨t', l', ajoute, ⟨noeuds', chaine', valeurs⟩, compte⟩
  · rw [List.concat_eq_append] at suite
    subst suite
    obtain ⟨t', l', noeuds', ajoute, chaine', valeurs, compte⟩ := add_message_suite val chaine neuf
    exact ⟨t', l', ajoute, ⟨noeuds', chaine', valeurs⟩, compte⟩

theorem read_message_contient {t : TasMessages} {l : FileInterne} {message : Int} {reste : List Int}
    (contient : Contient t l (message :: reste)) :
    ∃ t' l', readMessage t l = .ok (t', l', message) ∧ Contient t' l' reste ∧ t'.allocated = t.allocated := by
  obtain ⟨noeuds, ⟨owns, fin⟩, valeurs⟩ := contient
  obtain ⟨⟨p, v⟩, suite, rfl, rfl, rfl⟩ := List.map_eq_cons_iff.mp valeurs
  obtain ⟨next, debut, load, -⟩ := premier ⟨owns, fin⟩
  rw [debut] at owns
  refine ⟨t.free p, { l with debut := next }, ?_, ⟨suite, ⟨owns.tail load, ?_⟩, rfl⟩, rfl⟩
  · unfold readMessage
    simp only [debut, lireMessage_some load, libererMessage_some load, bind, Except.bind]
    rfl
  · intro noeud dernier
    exact fin noeud (List.mem_getLast?_cons dernier)

private theorem pas_fin {t : TasMessages} {l : FileInterne} {p : Pointer Mot} {v : Int} {noeud : Pointer Mot × Int}
    {suite : List (Pointer Mot × Int)} (chaine : Chaine t l ((p, v) :: noeud :: suite)) :
    memeMessage (some p) l.fin = false := by
  have atFin : (noeud :: suite).getLast? = some ((noeud :: suite).getLast (List.cons_ne_nil _ _)) :=
    List.getLast?_eq_some_getLast _
  have fin := chaine.fin _ (List.mem_getLast?_cons atFin)
  have later := List.getLast_mem (List.cons_ne_nil noeud suite)
  rw [fin]
  refine decide_eq_false ?_
  intro same
  have meme := chaine.owns.address_injective List.mem_cons_self (List.mem_cons_of_mem _ later) (Option.some.inj same)
  have distinct := List.nodup_cons.mp chaine.owns.nodup
  exact distinct.1 (List.mem_map.mpr ⟨_, later, meme.symm⟩)

/-- Before the last block the addresses of `p` and of `fin` differ and `next` is
not NULL; the loop leaves one block, which is the last. -/
private theorem reset_boucle_fin {t : TasMessages} (fin : Message) {p : Pointer Mot} {v : Int}
    {suite : List (Pointer Mot × Int)} (chaine : Chaine t { debut := some p, fin := fin } ((p, v) :: suite)) :
    ∃ t' q w, Chaine t' { debut := some q, fin := fin } [(q, w)] ∧ t'.allocated = t.allocated ∧
      ∀ tours, suite.length < tours → resetBoucle tours t fin (some p) = .ok (t', some q) := by
  induction suite generalizing t p v with
  | nil =>
      refine ⟨t, p, v, chaine, rfl, ?_⟩
      intro tours assez
      obtain ⟨tours, rfl⟩ := Nat.exists_eq_succ_of_ne_zero (Nat.ne_of_gt assez)
      have fini : fin = some p := chaine.fin (p, v) rfl
      unfold resetBoucle
      exact if_pos (by rw [fini]; exact decide_eq_true rfl)
  | cons noeud suite ih =>
      obtain ⟨p', v'⟩ := noeud
      obtain ⟨next, -, load, chain⟩ := premier chaine
      obtain ⟨owns, dernier⟩ := chaine
      have suivant : next = some p' := by
        cases chain
        rfl
      subst suivant
      have libre : Chaine (t.free p) { debut := some p', fin := fin } ((p', v') :: suite) := by
        refine ⟨owns.tail load, ?_⟩
        intro noeud atFin
        exact dernier noeud (List.mem_getLast?_cons atFin)
      obtain ⟨t', q, w, chaine', compte, boucle⟩ := ih libre
      refine ⟨t', q, w, chaine', compte, ?_⟩
      intro tours assez
      obtain ⟨tours, rfl⟩ := Nat.exists_eq_succ_of_ne_zero (Nat.ne_of_gt (Nat.zero_lt_of_lt assez))
      have autre : memeMessage (some p) fin = false := pas_fin ⟨owns, dernier⟩
      unfold resetBoucle
      rw [if_neg (by rw [autre]; exact Bool.false_ne_true), lireMessage_some load]
      simp only [libererMessage_some load, bind, Except.bind]
      exact boucle tours (Nat.lt_of_succ_lt_succ assez)

theorem reset_file_contient {t : TasMessages} {l : FileInterne} {messages : List Int}
    (contient : Contient t l messages) :
    ∃ t' l', (∀ tours, messages.length ≤ tours → resetFile tours t l = .ok (t', l')) ∧ Contient t' l' [] ∧
      t'.allocated = t.allocated := by
  obtain ⟨noeuds, chaine, rfl⟩ := contient
  have videNul : ∀ noeud ∈ ([] : List (Pointer Mot × Int)).getLast?, (none : Message) = some noeud.1 := nofun
  match noeuds, chaine with
  | [], chaine =>
      have vide : l.debut = none := chaine.debut_nul.mpr rfl
      refine ⟨t, { debut := none, fin := none }, fun tours _ => ?_, ⟨[], ⟨vide ▸ chaine.owns, videNul⟩, rfl⟩, rfl⟩
      unfold resetFile
      exact if_pos vide
  | (p, v) :: suite, chaine =>
      obtain ⟨next, debut, load, -⟩ := premier chaine
      obtain ⟨owns, fin⟩ := chaine
      rw [debut] at owns
      obtain ⟨t', q, w, seul, compte, boucle⟩ := reset_boucle_fin l.fin ⟨owns, fin⟩
      obtain ⟨next', debut', load', rien⟩ := premier seul
      cases rien
      refine ⟨t'.free q, { debut := none, fin := none }, ?_, ⟨[], ⟨seul.owns.tail load', videNul⟩, rfl⟩, compte⟩
      intro tours assez
      rw [List.length_map] at assez
      unfold resetFile
      rw [debut]
      simp only [reduceCtorEq, if_false, boucle tours assez, libererMessage_some load', bind, Except.bind]
      rfl

/-- A call on one queue; `adresse` is the block that `mem_alloc` gives. -/
inductive OperationListe
  | ajout (adresse : Mot) (val : Int)
  | lecture
  | remise
  deriving DecidableEq, Repr

structure EtatListe where
  tas : TasMessages
  file : FileInterne

def executerListe (tours : Nat) (s : EtatListe) : OperationListe → Except FauteMessage (EtatListe × Option Int)
  | .ajout adresse val => do
      let (t, l) ← addMessage s.tas adresse val s.file
      return (⟨t, l⟩, none)
  | .lecture => do
      let (t, l, i) ← readMessage s.tas s.file
      return (⟨t, l⟩, some i)
  | .remise => do
      let (t, l) ← resetFile tours s.tas s.file
      return (⟨t, l⟩, none)

/-- `mem_alloc` gives an address that no live block has, and only a list with a message is read. -/
def PermiseListe (s : EtatListe) : OperationListe → Prop
  | .ajout adresse _ => s.tas.Fresh adresse
  | .lecture => s.file.debut ≠ none
  | .remise => True

/-- The call returns, whatever number of turns of the loop is allowed from some number on. -/
def Rend (s : EtatListe) (op : OperationListe) (s' : EtatListe) (r : Option Int) : Prop :=
  ∃ n, ∀ tours, n ≤ tours → executerListe tours s op = .ok (s', r)

/-- Calls made one after the other on a list that starts empty; `fin` may hold anything. -/
inductive SuiteListe (fin : Message) : List OperationListe → EtatListe → Prop
  | debut : SuiteListe fin [] ⟨Heap.empty, { debut := none, fin := fin }⟩
  | appel {ops : List OperationListe} {s s' : EtatListe} {op : OperationListe} {r : Option Int} :
      SuiteListe fin ops s → PermiseListe s op → Rend s op s' r → SuiteListe fin (ops ++ [op]) s'

def messagesApres (messages : List Int) : OperationListe → List Int
  | .ajout _ val => messages ++ [val]
  | .lecture => messages.tail
  | .remise => []

/-- The messages added and neither read nor reset, oldest first. -/
def messagesAttendus (ops : List OperationListe) : List Int := ops.foldl messagesApres []

def reponseAttendue (messages : List Int) : OperationListe → Option Int
  | .lecture => messages.head?
  | _ => none

def OperationListe.estAjout : OperationListe → Bool
  | .ajout _ _ => true
  | _ => false

theorem Rend.unique {s s' s'' : EtatListe} {op : OperationListe} {r r' : Option Int} (rend : Rend s op s' r)
    (rend' : Rend s op s'' r') : s' = s'' ∧ r = r' := by
  obtain ⟨n, run⟩ := rend
  obtain ⟨m, run'⟩ := rend'
  have same := (run (max n m) (Nat.le_max_left ..)).symm.trans (run' (max n m) (Nat.le_max_right ..))
  cases same
  exact ⟨rfl, rfl⟩

theorem executer_liste_contient {s : EtatListe} {messages : List Int} {op : OperationListe}
    (contient : Contient s.tas s.file messages) (permise : PermiseListe s op) :
    ∃ s', Rend s op s' (reponseAttendue messages op) ∧ Contient s'.tas s'.file (messagesApres messages op) ∧
      s'.tas.allocated = s.tas.allocated + if op.estAjout then 1 else 0 := by
  cases op with
  | ajout adresse val =>
      obtain ⟨t', l', run, suite, compte⟩ := add_message_contient val contient permise
      refine ⟨⟨t', l'⟩, ⟨0, fun tours _ => ?_⟩, suite, compte⟩
      simp only [executerListe, run, bind, Except.bind]
      rfl
  | lecture =>
      cases messages with
      | nil => exact absurd (contient.debut_nul.mpr rfl) permise
      | cons message reste =>
          obtain ⟨t', l', run, suite, compte⟩ := read_message_contient contient
          refine ⟨⟨t', l'⟩, ⟨0, fun tours _ => ?_⟩, suite, compte⟩
          simp only [executerListe, run, bind, Except.bind]
          rfl
  | remise =>
      obtain ⟨t', l', run, suite, compte⟩ := reset_file_contient contient
      refine ⟨⟨t', l'⟩, ⟨messages.length, fun tours assez => ?_⟩, suite, compte⟩
      simp only [executerListe, run tours assez, bind, Except.bind]
      rfl

theorem suite_liste_contient {fin : Message} {ops : List OperationListe} {s : EtatListe}
    (suite : SuiteListe fin ops s) :
    Contient s.tas s.file (messagesAttendus ops) ∧ s.tas.allocated = (ops.filter OperationListe.estAjout).length := by
  induction suite with
  | debut => exact ⟨⟨[], ⟨Owns.empty, nofun⟩, rfl⟩, rfl⟩
  | @appel ops s s' op r _ permise rend ih =>
      obtain ⟨contient, compte⟩ := ih
      obtain ⟨s'', rend', suite, compte'⟩ := executer_liste_contient contient permise
      obtain ⟨rfl, -⟩ := rend.unique rend'
      refine ⟨?_, ?_⟩
      · unfold messagesAttendus
        rw [List.foldl_append]
        exact suite
      · rw [compte', compte, List.filter_append, List.length_append]
        cases op <;> rfl

/-- A freed block is never read, written or freed again, as `lireMessage` would fail. -/
theorem message_list_never_used_after_free {fin : Message} {ops : List OperationListe} {s : EtatListe}
    (suite : SuiteListe fin ops s) :
    ∃ noeuds : List (Pointer Mot × Int),
      Chain s.tas s.file.debut noeuds ∧ noeuds.map Prod.snd = messagesAttendus ops ∧
      (∀ noeud ∈ noeuds.getLast?, s.file.fin = some noeud.1 ∧ s.tas.load noeud.1 = some ⟨noeud.2, none⟩) ∧
      s.tas.freed ++ noeuds.map (fun noeud => noeud.1.rank) = List.range s.tas.allocated ∧
      s.tas.allocated = (ops.filter OperationListe.estAjout).length ∧
      (∀ a rank m, s.tas.live a = some (rank, m) → ∃ noeud ∈ noeuds, noeud.1 = ⟨a, rank⟩) ∧
      ∀ op, PermiseListe s op →
        ∃ s', Rend s op s' (reponseAttendue (messagesAttendus ops) op) ∧
          (op = .remise → s'.file.debut = none ∧ s'.tas.freed = List.range s.tas.allocated ∧
            ∀ a, s'.tas.live a = none) := by
  obtain ⟨contient, compte⟩ := suite_liste_contient suite
  obtain ⟨noeuds, chaine, valeurs⟩ := contient
  refine ⟨noeuds, chaine.owns.chain, valeurs, ?_, chaine.owns.ranks, compte, chaine.owns.only, ?_⟩
  · intro noeud dernier
    refine ⟨chaine.fin noeud dernier, ?_⟩
    obtain ⟨avant, rfl⟩ := List.getLast?_eq_some_iff.mp dernier
    exact chaine.owns.chain.load_last
  · intro op permise
    obtain ⟨s', rend, suivant, compte'⟩ := executer_liste_contient ⟨noeuds, chaine, valeurs⟩ permise
    refine ⟨s', rend, ?_⟩
    rintro rfl
    obtain ⟨noeuds', chaine', vide⟩ := suivant
    obtain rfl := List.map_eq_nil_iff.mp vide
    obtain ⟨freed, live⟩ := chaine'.owns.freed_of_nil
    exact ⟨chaine'.debut_nul.mpr rfl, freed.trans (congrArg List.range compte'), live⟩

theorem message_list_block_given_again :
    ∃ s : EtatListe, SuiteListe none [.ajout 16 7, .lecture, .ajout 16 8, .ajout 32 9] s ∧
      ∃ noeuds : List (Pointer Mot × Int), Chain s.tas s.file.debut noeuds ∧ noeuds.map Prod.snd = [8, 9] ∧
        s.tas.freed ++ noeuds.map (fun noeud => noeud.1.rank) = [0, 1, 2] := by
  have premier : SuiteListe none [.ajout 16 7] _ := .appel .debut rfl ⟨0, fun _ _ => rfl⟩
  have lu : SuiteListe none [.ajout 16 7, .lecture] _ := .appel premier (Option.some_ne_none _) ⟨0, fun _ _ => rfl⟩
  have encore : SuiteListe none [.ajout 16 7, .lecture, .ajout 16 8] _ := .appel lu rfl ⟨0, fun _ _ => rfl⟩
  have suite : SuiteListe none [.ajout 16 7, .lecture, .ajout 16 8, .ajout 32 9] _ :=
    .appel encore rfl ⟨0, fun _ _ => rfl⟩
  obtain ⟨noeuds, chain, valeurs, -, ranks, compte, -⟩ := message_list_never_used_after_free suite
  rw [compte] at ranks
  exact ⟨_, suite, noeuds, chain, valeurs, ranks⟩

end ProjetSysteme.Properties
