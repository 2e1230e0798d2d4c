/- Properties/HashFailure
   source: kernel/hash.c
   digest: What a refused request leaves of the hash table. -/

import ProjetSysteme.Properties.Hash

set_option autoImplicit false
set_option relaxedAutoImplicit false

namespace ProjetSysteme.Properties

open Kernel Invariant Library.Probing Library.Outcome

/-- The value of a key, read from the active slots alone. -/
def contenuTable (map : HashT) (key : Mot) : Option Mot :=
  (map.table.find? fun s => s.mode = .active ∧ map.cmp s.key key ≠ 0).map HashSlot.value

/-- `hash_set` and `hash_del`. -/
def Operation.ecrit : Operation → Bool
  | .set _ _ => true
  | .del _ => true
  | _ => false

def AppelFinit (a : Allocateur) (map : HashT) (tas : Tas) (op : Operation) : Prop :=
  ∃ n r, ∀ tours, n ≤ tours → appelerHash a tours map tas op = .ok r

/-- A run in which every `hash_set` and `hash_del` that returns -1 left the map as it
was, and in every state of which every call ends. -/
inductive ExecutionSure (f : ModeHachage) (a : Allocateur) : HashT → Tas → List (Operation × Reponse) → Prop
  | init {vierge map : HashT} {tas : Tas} (run : hashInit a [] vierge f.hfunc f.cmp = (0, map, tas))
      (finit : ∀ op, AppelFinit a map tas op) : ExecutionSure f a map tas []
  | appel {map map' : HashT} {tas tas' : Tas} {l : List (Operation × Reponse)} {op : Operation}
      {reponse : Reponse} {tours : Nat} (avant : ExecutionSure f a map tas l)
      (run : appelerHash a tours map tas op = .ok (reponse, some map', tas'))
      (intacte : op.ecrit = true → reponse = .code (-1) → ∀ key, contenuTable map' key = contenuTable map key)
      (finit : ∀ op, AppelFinit a map' tas' op) : ExecutionSure f a map' tas' ((op, reponse) :: l)

section Refus

variable {f : ModeHachage} {a : Allocateur} {map : HashT} {tas : Tas} {l : List (Operation × Reponse)}

theorem ExecutionSure.execution (sure : ExecutionSure f a map tas l) : Execution f a map tas l := by
  induction sure with
  | init run finit => exact .init run
  | appel avant run intacte finit ih => exact ih.appel run

theorem contenuTable_eq {k : Nat} {M : Contenu f} (rep : Represente f k map M) (key : Mot) :
    contenuTable map key = M ⟦key⟧ := by
  unfold contenuTable
  rw [rep.cmp]
  cases recherche : map.table.find? fun s => s.mode = .active ∧ f.cmp s.key key ≠ 0 with
  | none =>
      refine (rep.contenu.content.absent fun key' value mem egale => ?_).symm
      obtain ⟨s, dans, vu⟩ := List.mem_map.mp mem
      obtain ⟨mode, rfl, -⟩ := vue_eq_active vu
      have autre := List.find?_eq_none.mp recherche s dans
      exact autre (decide_eq_true ⟨mode, egale⟩)
  | some s =>
      have active := List.find?_some recherche
      obtain ⟨mode, egale⟩ : s.mode = .active ∧ f.cmp s.key key ≠ 0 := of_decide_eq_true active
      have dans := List.mem_of_find?_eq_some recherche
      exact ((rep.contenu.content key s.value).mpr ⟨s.key, vue_active mode ▸ List.mem_map_of_mem dans, egale⟩).symm

private theorem hashUpdate_refus {tours : Nat} {code : Int} {map' : HashT} {tas' : Tas}
    (run : hashUpdate a tours tas map = .ok (code, map', tas')) (accordees : Accordees tas) :
    Accordees tas' ∨ code = -1 ∧ map' = map := by
  have redimension : ∀ oldSize newSize, redimensionner a tours tas map oldSize newSize = .ok (code, map', tas') →
      Accordees tas' ∨ code = -1 ∧ map' = map := by
    intro oldSize newSize fait
    unfold redimensionner hashInitialize memAlloc at fait
    cases accorde : a.accorde tas (BitVec.ofInt 32 (newSize * kHashSlot)) with
    | false =>
        simp only [accorde] at fait
        cases fait
        exact .inr ⟨rfl, rfl⟩
    | true =>
        simp only [accorde] at fait
        obtain ⟨copie, -, rendu⟩ := bind_ok fait
        cases rendu
        exact .inl (List.forall_mem_cons.mpr ⟨rfl, accordees⟩)
  have meme : ∀ {code' : Int}, (.ok (code', map, tas) : Except Faute _) = .ok (code, map', tas') →
      Accordees tas' ∨ code = -1 ∧ map' = map := by
    intro code' fait
    cases fait
    exact .inl accordees
  unfold hashUpdate at run
  dsimp only at run
  split at run
  · split at run
    · exact meme run
    · exact redimension _ _ run
  · split at run
    · exact redimension _ _ run
    · exact meme run

/-- A refused request is a `hash_set` or a `hash_del` that returned -1 after it
had stored or removed its key. -/
private theorem refus_visible {M : Contenu f} (etablie : Etablie f map M) {tours : Nat} {op : Operation}
    {reponse : Reponse} {map' : HashT} {tas' : Tas}
    (run : appelerHash a tours map tas op = .ok (reponse, some map', tas')) (accordees : Accordees tas)
    (refus : ¬ Accordees tas') :
    op.ecrit = true ∧ reponse = .code (-1) ∧ ∃ key, contenuTable map' key ≠ contenuTable map key := by
  have assez := appelerHash_steady a tas map op tours (max tours (7 + 2 ^ 23)) _ (Nat.le_max_left ..) run
  obtain ⟨k, rep, -⟩ := id etablie
  cases appelerHash_cas a tas etablie (Nat.le_max_right tours (7 + 2 ^ 23)) op with
  | direct fini =>
      cases fini.symm.trans assez
      exact absurd accordees refus
  | reporte rep' charge report attendue key change =>
      obtain ⟨⟨code, pose, tas₁⟩, miseAJour, rendu⟩ := bind_ok (report.symm.trans assez)
      cases rendu
      have ecrit : op.ecrit = true := by
        cases op with
        | set _ _ | del _ => rfl
        | get _ _ | isset _ => exact absurd rfl change
      rcases hashUpdate_refus miseAJour accordees with accord | ⟨rfl, rfl⟩
      · exact absurd accord refus
      · refine ⟨ecrit, rfl, key, ?_⟩
        rw [contenuTable_eq rep', contenuTable_eq rep]
        exact change

theorem ExecutionSure.accordees (sure : ExecutionSure f a map tas l) : Accordees tas := by
  induction sure with
  | init run finit => exact (hashInit_reussit run).2
  | appel avant run intacte finit ih =>
      obtain ⟨-, etablie⟩ := avant.execution.exactes ih
      by_contra refus
      obtain ⟨ecrit, echec, key, autre⟩ := refus_visible etablie run ih refus
      exact autre (intacte ecrit echec key)

private theorem attendue_ecrit {M : Contenu f} {op : Operation} (ecrit : op.ecrit = true) :
    op.attendue M ≠ .code (-1) := by
  cases op with
  | set key value => exact fun egal => nomatch egal
  | del key => exact fun egal => nomatch egal
  | get key defaultValue => cases ecrit
  | isset key => cases ecrit

private theorem appel_finit {M : Contenu f} (etablie : Etablie f map M) (op : Operation) : AppelFinit a map tas op := by
  obtain ⟨reponse, map', tas', run, -⟩ := appelerHash_conforme a tas etablie le_rfl op
  exact ⟨7 + 2 ^ 23, _, fun tours assez => appelerHash_steady a tas map op _ _ _ assez run⟩

theorem Execution.sure (execution : Execution f a map tas l) (accordees : Accordees tas) :
    ExecutionSure f a map tas l := by
  have finit : ∀ op, AppelFinit a map tas op := appel_finit (execution.exactes accordees).2
  induction execution with
  | init run => exact .init run finit
  | @appel map map' tas tas' l op reponse tours avant run ih =>
      have suffixe := (appelerHash_suffixe a tas map op).of_ok run
      have accordeesAvant : Accordees tas := fun demande mem => accordees demande (suffixe.subset mem)
      have juste := ((avant.appel run).exactes accordees).1.1
      refine .appel (ih accordeesAvant (appel_finit (avant.exactes accordeesAvant).2)) run ?_ finit
      intro ecrit echec
      exact absurd (juste.symm.trans echec) (attendue_ecrit ecrit)

/-- The property fails at the first request that is refused, and not before. -/
theorem hash_sure_iff (execution : Execution f a map tas l) : ExecutionSure f a map tas l ↔ Accordees tas :=
  ⟨fun sure => sure.accordees, fun accordees => execution.sure accordees⟩

end Refus

theorem lookupBoucle_sans_vide {map : HashT} {key hash : Mot} (dedans : map.mask.toNat < map.table.length)
    (pleine : ∀ s ∈ map.table, s.mode ≠ .empty ∧ ¬ (s.mode = .active ∧ trouve map key hash s = true))
    (tours : Nat) {index perturb : Mot} {slot : Nat} {freeslot : Option Nat} (borne : slot < map.table.length) :
    lookupBoucle map key hash tours index perturb slot freeslot = .error .boucle := by
  induction tours generalizing index perturb slot freeslot with
  | zero => rfl
  | succ tours ih =>
      obtain ⟨plein, autre⟩ := pleine _ (List.getElem_mem borne)
      have suivant : ((5 * index + perturb + 1) &&& map.mask).toNat < map.table.length := by
        rw [BitVec.toNat_and]
        exact lt_of_le_of_lt Nat.and_le_right dedans
      rw [lookupBoucle_suivant (List.getElem?_eq_getElem borne) plein autre]
      exact ih suivant

/-- A heap that grants the table of `hash_init` and nothing more. -/
def tasUnique : Allocateur where
  accorde := fun tas longueur => tas.isEmpty && decide (longueur.toNat ≤ 0x4000000)
  borne := fun _ _ accorde => of_decide_eq_true (Bool.and_eq_true_iff.mp accorde).2

/-- The table of 8 slots with the keys under `n`, each of value 1. -/
def tableDesCles (n : Nat) : HashT where
  fill := n
  count := n
  mask := 7
  table := (List.range 8).map fun i =>
    if i < n then { key := BitVec.ofNat 32 i, value := 1, hash := BitVec.ofNat 32 i, mode := .active } else .nul .empty
  hfunc := hashDirectHfunc
  cmp := hashDirectCmp

/-- The sixth key is in the table although its `hash_set` returned -1; with two more
keys the table is full and the search for a ninth never ends. -/
theorem hash_failure_counterexample :
    (∃ tas tas' l, Execution modeDirect tasUnique (tableDesCles 5) tas l ∧
      appelerHash tasUnique 20 (tableDesCles 5) tas (.set 5 1) = .ok (.code (-1), some (tableDesCles 6), tas') ∧
      contenuTable (tableDesCles 5) 5 = none ∧ contenuTable (tableDesCles 6) 5 = some 1) ∧
    ∃ tas l, Execution modeDirect tasUnique (tableDesCles 8) tas l ∧
      (∀ tours, appelerHash tasUnique tours (tableDesCles 8) tas (.get 8 0) = .error .boucle) ∧
      ¬ ExecutionSure modeDirect tasUnique (tableDesCles 8) tas l := by
  have zero : Execution modeDirect tasUnique (tableDesCles 0) _ [] :=
    .direct (rfl : hashInitDirect tasUnique [] ⟨0, 0, 0, [], fun _ => 0, fun _ _ => 0⟩ = (0, _, _))
  have un : Execution modeDirect tasUnique (tableDesCles 1) _ _ :=
    zero.appel (rfl : appelerHash tasUnique 20 _ _ (.set 0 1) = .ok (.code 0, some (tableDesCles 1), _))
  have deux : Execution modeDirect tasUnique (tableDesCles 2) _ _ :=
    un.appel (rfl : appelerHash tasUnique 20 _ _ (.set 1 1) = .ok (.code 0, some (tableDesCles 2), _))
  have trois : Execution modeDirect tasUnique (tableDesCles 3) _ _ :=
    deux.appel (rfl : appelerHash tasUnique 20 _ _ (.set 2 1) = .ok (.code 0, some (tableDesCles 3), _))
  have quatre : Execution modeDirect tasUnique (tableDesCles 4) _ _ :=
    trois.appel (rfl : appelerHash tasUnique 20 _ _ (.set 3 1) = .ok (.code 0, some (tableDesCles 4), _))
  have cinq : Execution modeDirect tasUnique (tableDesCles 5) _ _ :=
    quatre.appel (rfl : appelerHash tasUnique 20 _ _ (.set 4 1) = .ok (.code 0, some (tableDesCles 5), _))
  -- the heap refuses the larger table from here on
  have six : Execution modeDirect tasUnique (tableDesCles 6) _ _ :=
    cinq.appel (rfl : appelerHash tasUnique 20 _ _ (.set 5 1) = .ok (.code (-1), some (tableDesCles 6), _))
  have sept : Execution modeDirect tasUnique (tableDesCles 7) _ _ :=
    six.appel (rfl : appelerHash tasUnique 20 _ _ (.set 6 1) = .ok (.code (-1), some (tableDesCles 7), _))
  have huit : Execution modeDirect tasUnique (tableDesCles 8) _ _ :=
    sept.appel (rfl : appelerHash tasUnique 20 _ _ (.set 7 1) = .ok (.code (-1), some (tableDesCles 8), _))
  have sansFin : ∀ tours tas, appelerHash tasUnique tours (tableDesCles 8) tas (.get 8 0) = .error .boucle := by
    intro tours tas
    have recherche : hashLookup tours (tableDesCles 8) 8 ((tableDesCles 8).hfunc 8) = .error .boucle :=
      lookupBoucle_sans_vide (by decide) (by decide) tours (by decide)
    simp only [appelerHash, hashGet, recherche, bind, Except.bind]
  refine ⟨⟨_, _, _, cinq, rfl, rfl, rfl⟩, _, _, huit, fun tours => sansFin tours _, fun sure => ?_⟩
  have fini : ∀ {tas l}, ExecutionSure modeDirect tasUnique (tableDesCles 8) tas l →
      AppelFinit tasUnique (tableDesCles 8) tas (.get 8 0) := by
    intro tas l sure
    cases sure with
    | init run finit => exact finit (.get 8 0)
    | appel avant run intacte finit => exact finit (.get 8 0)
  obtain ⟨n, r, rend⟩ := fini sure
  cases (sansFin n _).symm.trans (rend n le_rfl)

theorem hash_sure_exemple : ∃ map tas l, Execution modeDirect tasEntier map tas l ∧ ExecutionSure modeDirect tasEntier map tas l := by
  have un : Execution modeDirect tasEntier _ _ [] :=
    .direct (rfl : hashInitDirect tasEntier [] ⟨0, 0, 0, [], fun _ => 0, fun _ _ => 0⟩ = (0, _, _))
  have deux := un.appel (rfl : appelerHash tasEntier 20 _ _ (.set 3 5) = .ok (_, some _, _))
  have accordees : Accordees [(BitVec.ofInt 32 (kHashMinsize * kHashSlot), true)] := by
    intro demande mem
    rw [List.mem_singleton.mp mem]
  exact ⟨_, _, _, deux, (hash_sure_iff deux).mpr accordees⟩

end ProjetSysteme.Properties
