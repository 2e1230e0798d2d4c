/- Properties/Hash
   source: kernel/hash.c, kernel/hash.h
   digest: The hash table is a finite map. -/

import ProjetSysteme.Invariant.Hash

set_option autoImplicit false
set_option relaxedAutoImplicit false

namespace ProjetSysteme.Properties

open Kernel Invariant Library.Probing Library.Outcome

inductive Operation
  | set (key value : Mot)
  | del (key : Mot)
  | get (key defaultValue : Mot)
  | isset (key : Mot)
  deriving DecidableEq, Repr

inductive Reponse
  | code (r : Int)
  | valeur (v : Mot)
  deriving DecidableEq, Repr

/-- The value that the call returns, the table and the heap. -/
def appelerHash (a : Allocateur) (tours : Nat) (map : HashT) (tas : Tas) :
    Operation → Except Faute (Reponse × Option HashT × Tas)
  | .set key value => do
    let (r, map, tas) ← hashSet a tours tas (some map) key value
    return (.code r, map, tas)
  | .del key => do
    let (r, map, tas) ← hashDel a tours tas (some map) key
    return (.code r, map, tas)
  | .get key defaultValue => do
    let v ← hashGet tours (some map) key defaultValue
    return (.valeur v, some map, tas)
  | .isset key => do
    let r ← hashIsset tours (some map) key
    return (.code r, some map, tas)

section Specification

variable (f : ModeHachage)

abbrev Contenu := Quotient f.cles → Option Mot

variable {f}

open scoped Classical in
noncomputable def Operation.effet (M : Contenu f) : Operation → Contenu f
  | .set key value => Function.update M ⟦key⟧ (some value)
  | .del key => Function.update M ⟦key⟧ none
  | _ => M

def Operation.attendue (M : Contenu f) : Operation → Reponse
  | .get key defaultValue => .valeur ((M ⟦key⟧).getD defaultValue)
  | .isset key => .code (if (M ⟦key⟧).isSome then 1 else 0)
  | _ => .code 0

variable (f)

/-- The map after the calls of the list, the last one first. -/
noncomputable def contenuApres : List (Operation × Reponse) → Contenu f
  | [] => fun _ => none
  | (op, _) :: l => op.effet (contenuApres l)

/-- Every call of the list returned what it was to return. -/
def Exactes : List (Operation × Reponse) → Prop
  | [] => True
  | (op, reponse) :: l => reponse = op.attendue (contenuApres f l) ∧ Exactes l

/-- Calls after `hash_init`, the last one first, with what they returned. -/
inductive Execution (a : Allocateur) : HashT → Tas → List (Operation × Reponse) → Prop
  | init {vierge map : HashT} {tas : Tas}
      (run : hashInit a [] vierge f.hfunc f.cmp = (0, map, tas)) : Execution a map tas []
  | appel {map map' : HashT} {tas tas' : Tas} {l : List (Operation × Reponse)} {op : Operation}
      {reponse : Reponse} {tours : Nat} (avant : Execution a map tas l)
      (run : appelerHash a tours map tas op = .ok (reponse, some map', tas')) :
      Execution a map' tas' ((op, reponse) :: l)

end Specification

section Pas

variable {f : ModeHachage} {map : HashT} {M : Contenu f} (a : Allocateur) (tas : Tas) {tours : Nat}

/-- The call ends as its specification says, if the heap gives what is asked for. -/
def Conforme (f : ModeHachage) (M : Contenu f) (tas : Tas) (op : Operation)
    (r : Except Faute (Reponse × Option HashT × Tas)) : Prop :=
  ∃ reponse map' tas', r = .ok (reponse, some map', tas') ∧ tas <:+ tas' ∧
    (Accordees tas' → reponse = op.attendue M ∧ Etablie f map' (op.effet M))

/-- A call on a table in which searches end: the heap stays as it is, or a key is
stored or removed and the rest is left to `hash_update`. -/
inductive AppelHash (a : Allocateur) (tours : Nat) (M : Contenu f) (map : HashT) (tas : Tas) (op : Operation) : Prop
  | direct {map' : HashT} (run : appelerHash a tours map tas op = .ok (op.attendue M, some map', tas))
      (etablie : Etablie f map' (op.effet M)) : AppelHash a tours M map tas op
  | reporte {k : Nat} {map' : HashT} (rep : Represente f k map' (op.effet M))
      (charge : 3 * map'.fill < 2 * map'.table.length + 3)
      (run : appelerHash a tours map tas op =
        hashUpdate a tours tas map' >>= fun x => .ok (.code x.1, some x.2.1, x.2.2))
      (attendue : op.attendue M = .code 0) (key : Mot) (change : op.effet M ⟦key⟧ ≠ M ⟦key⟧) :
      AppelHash a tours M map tas op

variable (etablie : Etablie f map M) (assez : 7 + 2 ^ 23 ≤ tours)

include etablie assez

theorem appelerHash_cherche (key : Mot) : ∃ k, ∃ rep : Represente f k map M, ∃ p s,
    hashLookup tours map key (map.hfunc key) = .ok p ∧ map.table[p]? = some s ∧ Cherche rep key p s := by
  obtain ⟨k, rep, charge⟩ := etablie
  have petit := rep.petit
  have puissance : 2 ^ k ≤ 2 ^ 23 := puissance_borne (by omega)
  exact ⟨k, rep, hashLookup_rend rep (by omega) (by omega) key⟩

open scoped Classical in
theorem appelerHash_set (key value : Mot) : AppelHash a tours M map tas (.set key value) := by
  obtain ⟨-, -, charge⟩ := id etablie
  obtain ⟨k, rep, p, s, run, ici, issue⟩ := appelerHash_cherche etablie assez key
  cases issue with
  | presente mode egale valeur =>
      refine .direct ?_ ⟨k, rep.remplacer value ici mode egale valeur, ?_⟩
      · simp only [appelerHash, hashSet, run, lire_ok ici, mode, bind, Except.bind, if_true]
        rfl
      · change 3 * map.fill < 2 * ((map.table.set p _).length : Nat)
        rw [List.length_set]
        exact charge
  | absente fin m mode rien recherche avant place libre =>
      subst place
      have rep' := rep.inserer { key := key, value := value, hash := map.hfunc key, mode := .active }
        recherche avant libre ici rfl rfl (congrFun rep.hfunc key)
      refine .reporte rep' ?_ ?_ rfl key ?_
      · simp only [List.length_set]
        split <;> omega
      · simp only [appelerHash, hashSet, run, lire_ok ici, mode, bind, Except.bind, if_false]
        cases hashUpdate a tours tas _ <;> rfl
      · rw [Operation.effet, Function.update_self, rien]
        exact Option.some_ne_none value

open scoped Classical in
theorem appelerHash_del (key : Mot) : AppelHash a tours M map tas (.del key) := by
  obtain ⟨-, -, charge⟩ := id etablie
  obtain ⟨k, rep, p, s, run, ici, issue⟩ := appelerHash_cherche etablie assez key
  cases issue with
  | presente mode egale valeur =>
      refine .reporte (rep.supprimer ici mode egale valeur) ?_ ?_ rfl key ?_
      · simp only [List.length_set]
        omega
      · simp only [appelerHash, hashDel, run, lire_ok ici, mode, bind, Except.bind, ne_eq, not_true, if_false]
        cases hashUpdate a tours tas _ <;> rfl
      · rw [Operation.effet, Function.update_self, valeur]
        exact (Option.some_ne_none _).symm
  | absente fin m mode rien recherche avant place libre =>
      have inchangee : Function.update M ⟦key⟧ none = M := by
        rw [← rien]
        exact Function.update_eq_self _ M
      refine .direct ?_ (show Etablie f map (Function.update M ⟦key⟧ none) from inchangee.symm ▸ etablie)
      simp only [appelerHash, hashDel, run, lire_ok ici, mode, bind, Except.bind, ne_eq, not_false_iff, if_true]
      rfl

theorem appelerHash_get (key defaultValue : Mot) : AppelHash a tours M map tas (.get key defaultValue) := by
  obtain ⟨k, rep, p, s, run, ici, issue⟩ := appelerHash_cherche etablie assez key
  have rendue : (if s.mode = .active then s.value else defaultValue) = (M ⟦key⟧).getD defaultValue := by
    rw [issue.contenu]
    split <;> rfl
  refine .direct ?_ etablie
  simp only [appelerHash, hashGet, run, lire_ok ici, bind, Except.bind, pure, Except.pure, rendue]
  rfl

theorem appelerHash_isset (key : Mot) : AppelHash a tours M map tas (.isset key) := by
  obtain ⟨k, rep, p, s, run, ici, issue⟩ := appelerHash_cherche etablie assez key
  have rendue : (if s.mode = .active then (1 : Int) else 0) = if (M ⟦key⟧).isSome then 1 else 0 := by
    rw [issue.contenu]
    split <;> rfl
  refine .direct ?_ etablie
  simp only [appelerHash, hashIsset, run, lire_ok ici, bind, Except.bind, pure, Except.pure, rendue]
  rfl

theorem appelerHash_cas (op : Operation) : AppelHash a tours M map tas op := by
  cases op with
  | set key value => exact appelerHash_set a tas etablie assez key value
  | del key => exact appelerHash_del a tas etablie assez key
  | get key defaultValue => exact appelerHash_get a tas etablie assez key defaultValue
  | isset key => exact appelerHash_isset a tas etablie assez key

theorem appelerHash_conforme (op : Operation) : Conforme f M tas op (appelerHash a tours map tas op) := by
  cases appelerHash_cas a tas etablie assez op with
  | direct run fini => exact ⟨_, _, tas, run, List.suffix_refl _, fun _ => ⟨rfl, fini⟩⟩
  | @reporte k pose rep charge run attendue key change =>
      obtain ⟨code, map', tas', update, suffixe, fin⟩ := hashUpdate_reussit rep a tas assez charge
      refine ⟨.code code, map', tas', ?_, suffixe, fun accordees => ?_⟩
      · rw [run, update]
        rfl
      · obtain ⟨zero, fini⟩ := fin accordees
        rw [attendue, zero]
        exact ⟨rfl, fini⟩

omit etablie assez

theorem appelerHash_steady (map : HashT) (op : Operation) : Steady fun tours => appelerHash a tours map tas op := by
  cases op with
  | set _ _ | del _ =>
      refine Steady.bind ?_ fun _ => .const _
      refine (hashLookup_steady map _ _).bind fun slot => (Steady.const _).bind fun s => .ite (.const _) ?_
      exact (hashUpdate_steady a tas _).bind fun _ => .const _
  | get _ _ | isset _ =>
      refine Steady.bind ?_ fun _ => .const _
      exact (hashLookup_steady map _ _).bind fun slot => (Steady.const _).bind fun s => .const _

theorem appelerHash_suffixe (map : HashT) (op : Operation) :
    Sat (appelerHash a tours map tas op) (fun x => tas <:+ x.2.2) fun _ => True := by
  have rien : ∀ {α : Type} (r : Except Faute α), Sat r (fun _ => True) fun _ => True := fun r => by
    cases r <;> trivial
  cases op with
  | set _ _ | del _ =>
      refine Sat.bind (Q := fun x : Int × Option HashT × Tas => tas <:+ x.2.2) ?_
        fun x suffixe => suffixe
      refine (rien _).bind fun slot _ => (rien _).bind fun s _ => ?_
      split
      · exact List.suffix_refl tas
      · exact (hashUpdate_suffixe a tas _).bind fun x suffixe => suffixe
  | get _ _ | isset _ => exact (rien _).bind fun _ _ => List.suffix_refl tas

end Pas

section Parcours

variable {f : ModeHachage} {a : Allocateur} {map : HashT} {tas : Tas} {l : List (Operation × Reponse)}

theorem hashInit_reussit {vierge : HashT} (run : hashInit a [] vierge f.hfunc f.cmp = (0, map, tas)) :
    Etablie f map (fun _ => none) ∧ Accordees tas := by
  obtain ⟨longueur, refus | ⟨-, accord⟩⟩ := hashInitialize_cas a [] vierge (show 3 ≤ 23 by decide)
  · change hashInitialize a [] vierge kHashMinsize = _ at refus
    simp only [hashInit, refus] at run
    cases run
  · change hashInitialize a [] vierge kHashMinsize = _ at accord
    simp only [hashInit, accord] at run
    cases run
    exact ⟨⟨3, represente_neuve (by decide) rfl rfl rfl rfl rfl rfl, by norm_num⟩, List.forall_mem_singleton.mpr rfl⟩

theorem Execution.exactes (execution : Execution f a map tas l) (accordees : Accordees tas) :
    Exactes f l ∧ Etablie f map (contenuApres f l) := by
  induction execution with
  | init run => exact ⟨trivial, (hashInit_reussit run).1⟩
  | @appel map map' tas tas' l op reponse tours avant run ih =>
      have assez := appelerHash_steady a tas map op tours (max tours (7 + 2 ^ 23)) _ (Nat.le_max_left ..) run
      have avantAccordees : Accordees tas := fun demande mem =>
        accordees demande (((appelerHash_suffixe a tas map op).of_ok run).subset mem)
      obtain ⟨exactes, etablie⟩ := ih avantAccordees
      obtain ⟨reponse', map'', tas'', run', suffixe, fin⟩ :=
        appelerHash_conforme a tas etablie (Nat.le_max_right tours (7 + 2 ^ 23)) op
      cases assez.symm.trans run'
      obtain ⟨juste, etablie'⟩ := fin accordees
      exact ⟨⟨juste, exactes⟩, etablie'⟩

/-- The table is a finite map. -/
theorem hash_fonction_finie (execution : Execution f a map tas l) (accordees : Accordees tas) :
    Exactes f l ∧ map.count = (keys (contenuApres f l)).ncard ∧
    map.fill = (map.table.countP fun s => s.mode ≠ .empty) ∧ (∃ s ∈ map.table, s.mode = .empty) ∧
    ∀ op, ∃ n r, ∀ tours, n ≤ tours → appelerHash a tours map tas op = .ok r := by
  obtain ⟨exactes, k, rep, charge⟩ := execution.exactes accordees
  refine ⟨exactes, rep.count, rep.fill, rep.trou (by omega), fun op => ?_⟩
  obtain ⟨reponse, map', tas', run, -⟩ := appelerHash_conforme a tas ⟨k, rep, charge⟩ le_rfl op
  exact ⟨7 + 2 ^ 23, _, fun tours assez => appelerHash_steady a tas map op _ _ _ assez run⟩

end Parcours

theorem equivalence_of_valeur {β : Type} {valeur : Mot → β} {cmp : Mot → Mot → Int}
    (egales : ∀ key1 key2, cmp key1 key2 ≠ 0 ↔ valeur key1 = valeur key2) :
    Equivalence fun key1 key2 => cmp key1 key2 ≠ 0 where
  refl := fun key => (egales key key).mpr rfl
  symm := fun un => (egales _ _).mpr ((egales _ _).mp un).symm
  trans := fun un deux => (egales _ _).mpr (((egales _ _).mp un).trans ((egales _ _).mp deux))

/-- The functions of `hash_init_direct`: keys are equal when they are the same pointer. -/
def modeDirect : ModeHachage where
  hfunc := hashDirectHfunc
  cmp := hashDirectCmp
  equivalence := equivalence_of_valeur fun key1 key2 => show _ ↔ id key1 = id key2 by simp [hashDirectCmp]
  hache := by
    intro key1 key2 egales
    simpa [hashDirectCmp, hashDirectHfunc] using egales

/-- The functions of `hash_init_string`: keys are equal when they point to the same characters. -/
def modeChaines (chaines : Chaines) : ModeHachage where
  hfunc := hashStringHfunc chaines
  cmp := hashStringCmp chaines
  equivalence := equivalence_of_valeur fun key1 key2 => show _ ↔ chaines key1 = chaines key2 by simp [hashStringCmp]
  hache := by
    intro key1 key2 egales
    have memes : chaines key1 = chaines key2 := by simpa [hashStringCmp] using egales
    rw [hashStringHfunc, hashStringHfunc, memes]

theorem Execution.direct {a : Allocateur} {vierge map : HashT} {tas : Tas}
    (run : hashInitDirect a [] vierge = (0, map, tas)) : Execution modeDirect a map tas [] :=
  .init run

theorem Execution.chaines {a : Allocateur} {vierge map : HashT} {tas : Tas} {chaines : Chaines}
    (run : hashInitString a [] vierge chaines = (0, map, tas)) :
    Execution (modeChaines chaines) a map tas [] :=
  .init run

def tasEntier : Allocateur where
  accorde := fun _ longueur => decide (longueur.toNat ≤ 0x4000000)
  borne := fun _ _ => of_decide_eq_true

theorem hash_fonction_finie_exemple : ∃ map tas, Execution modeDirect tasEntier map tas
      [(.get 11 0, .valeur 7), (.del 3, .code 0), (.set 11 7, .code 0), (.set 3 5, .code 0)] ∧
    map.count = (keys (contenuApres modeDirect
      [(.get 11 0, .valeur 7), (.del 3, .code 0), (.set 11 7, .code 0), (.set 3 5, .code 0)])).ncard ∧
    ∃ s ∈ map.table, s.mode = .empty := by
  have un : Execution modeDirect tasEntier _ _ [] :=
    .direct (rfl : hashInitDirect tasEntier [] ⟨0, 0, 0, [], fun _ => 0, fun _ _ => 0⟩ = (0, _, _))
  have deux := un.appel (rfl : appelerHash tasEntier 20 _ _ (.set 3 5) = .ok (_, some _, _))
  have trois := deux.appel (rfl : appelerHash tasEntier 20 _ _ (.set 11 7) = .ok (_, some _, _))
  have quatre := trois.appel (rfl : appelerHash tasEntier 20 _ _ (.del 3) = .ok (_, some _, _))
  have cinq := quatre.appel (rfl : appelerHash tasEntier 20 _ _ (.get 11 0) = .ok (_, some _, _))
  have accordees : Accordees [(BitVec.ofInt 32 (kHashMinsize * kHashSlot), true)] := by
    intro demande mem
    rw [List.mem_singleton.mp mem]
  obtain ⟨-, count, -, trou, -⟩ := hash_fonction_finie cinq accordees
  exact ⟨_, _, cinq, count, trou⟩

end ProjetSysteme.Properties
