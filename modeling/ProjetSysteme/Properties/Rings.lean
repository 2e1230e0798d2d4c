/- Properties/Rings
   source: shared/queue.h
   digest: Runs of the queue macros on any number of rings are runs on lists. -/

import Mathlib.Data.Fintype.Card
import Mathlib.Data.Fintype.List
import ProjetSysteme.Invariant.Links

set_option autoImplicit false
set_option relaxedAutoImplicit false

namespace ProjetSysteme.Properties.Rings

open Kernel Kernel.Maillons Invariant Library.PriorityList Library.Ring

universe u v

variable {L : Type u} [DecidableEq L]

def anneauDe (tetes : List L) (c : L → List L) (x : L) : Option L := tetes.find? fun h => x ∈ c h

/-- A use of the macros on the lists of the elements, the first being the one after the head. -/
def appliquerListes (tetes : List L) (c : L → List L) : Usage L → Except Faute ((L → List L) × Option L)
  | .add prio x h =>
    if (anneauDe tetes c x).isSome then .error .assertionMaillon
    else .ok (Function.update c h (place prio x (c h)), none)
  | .del x =>
    match anneauDe tetes c x with
    | none => .error .assertionMaillon
    | some h => .ok (Function.update c h ((c h).erase x), none)
  | .out h =>
    match (c h).getLast? with
    | none => .ok (c, none)
    | some x => .ok (Function.update c h (c h).dropLast, some x)
  | .top h => .ok (c, (c h).getLast?)
  | .bottom h => .ok (c, (c h).head?)

def deroulerListes (tetes : List L) :
    (L → List L) → List (Usage L) → Except Faute ((L → List L) × List (Option L))
  | c, [] => .ok (c, [])
  | c, op :: reste => do
    let (c, r) ← appliquerListes tetes c op
    let (c, rs) ← deroulerListes tetes c reste
    .ok (c, r :: rs)

/-- Heads are used as heads and elements as elements. -/
def BienForme (tetes : List L) : Usage L → Prop
  | .add _ x h => h ∈ tetes ∧ x ∉ tetes
  | .del x => x ∉ tetes
  | .out h | .top h | .bottom h => h ∈ tetes

/-- The links hold these lists, and every other element has null links. -/
abbrev Contient (tetes : List L) (m : Links L) (c : L → List L) : Prop :=
  Rings m (· ∈ tetes) (fun _ => True) c

/-- Both computations end with the same fault, or with the same result and in states that agree. -/
inductive Accord {β : Type u} (tetes : List L) :
    Except Faute ((L → List L) × β) → Except Faute (Links L × β) → Prop
  | faute (f : Faute) : Accord tetes (.error f) (.error f)
  | fin {c : L → List L} {m : Links L} (r : β) : Contient tetes m c → Accord tetes (.ok (c, r)) (.ok (m, r))

variable {tetes : List L} {m : Links L} {c : L → List L} {tours : Nat}

theorem anneauDe_some {x h : L} (trouve : anneauDe tetes c x = some h) : h ∈ tetes ∧ x ∈ c h := by
  refine ⟨List.mem_of_find?_eq_some trouve, ?_⟩
  simpa using List.find?_some trouve

theorem anneauDe_none {x : L} (absent : anneauDe tetes c x = none) : ∀ h ∈ tetes, x ∉ c h := by
  simpa [anneauDe] using absent

theorem appliquer_accord [Fintype L] (contient : Contient tetes m c) (assez : Fintype.card L ≤ tours)
    {op : Usage L} (forme : BienForme tetes op) :
    Accord tetes (appliquerListes tetes c op) (appliquer tours m op) := by
  have borne : ∀ h ∈ tetes, (c h).length < tours := by
    intro h tete
    have nodup := (contient.ring h tete).nodup.length_le_card
    rw [List.length_cons] at nodup
    omega
  cases op with
  | add prio x h =>
      obtain ⟨tete, nonTete⟩ := forme
      rw [appliquerListes, appliquer]
      split
      · next dedans =>
          obtain ⟨g, trouve⟩ := Option.isSome_iff_exists.mp dedans
          obtain ⟨teteG, mem⟩ := anneauDe_some trouve
          rw [queueAdd_chaine prio (contient.linked teteG mem).1]
          exact .faute _
      · next dehors =>
          have absent := anneauDe_none (Option.not_isSome_iff_eq_none.mp dehors)
          obtain ⟨m', resultat, contient'⟩ := queueAdd_anneaux contient tete prio nonTete trivial absent
            (borne h tete)
          rw [resultat]
          exact .fin none contient'
  | del x =>
      rw [appliquerListes, appliquer]
      split
      · next absent =>
          rw [queueDel_libre (contient.free x trivial forme (anneauDe_none absent)).1]
          exact .faute _
      · next h trouve =>
          obtain ⟨tete, mem⟩ := anneauDe_some trouve
          obtain ⟨m', resultat, contient'⟩ := queueDel_anneaux contient tete mem
          rw [resultat]
          exact .fin none contient'
  | out h =>
      rw [appliquerListes, appliquer]
      split
      · next vide =>
          have ring := contient.ring h forme
          rw [List.getLast?_eq_none_iff.mp vide] at ring
          rw [queueOut_vide ring]
          exact .fin none contient
      · next x dernier =>
          obtain ⟨m', resultat, contient'⟩ := queueOut_anneaux contient forme dernier
          rw [resultat]
          exact .fin (some x) contient'
  | top h =>
      rw [appliquerListes, appliquer, queueTop_eq (contient.ring h forme)]
      exact .fin _ contient
  | bottom h =>
      rw [appliquerListes, appliquer, queueBottom_eq (contient.ring h forme)]
      exact .fin _ contient

theorem derouler_accord [Fintype L] (assez : Fintype.card L ≤ tours) (contient : Contient tetes m c)
    {ops : List (Usage L)} (formes : ∀ op ∈ ops, BienForme tetes op) :
    Accord tetes (deroulerListes tetes c ops) (Maillons.derouler tours m ops) := by
  induction ops generalizing m c with
  | nil => exact .fin [] contient
  | cons op reste ih =>
      have premier := appliquer_accord contient assez (formes op (List.mem_cons_self ..))
      rw [deroulerListes, Maillons.derouler]
      revert premier
      generalize appliquerListes tetes c op = listes
      generalize appliquer tours m op = liens
      rintro (f | ⟨r, contient'⟩)
      · exact .faute f
      · have suite := ih contient' fun op mem => formes op (List.mem_cons_of_mem _ mem)
        simp only [bind, Except.bind]
        revert suite
        generalize deroulerListes tetes _ reste = listes
        generalize Maillons.derouler tours _ reste = liens
        rintro (f | ⟨rs, contient''⟩)
        · exact .faute f
        · exact .fin (r :: rs) contient''

/-- The memory in which the heads have been initialised, and nothing has been chained. -/
def demarrage (tetes : List L) : Links L :=
  tetes.foldl initListHead { prev := fun _ => none, next := fun _ => none }

theorem foldl_initListHead (tetes : List L) (m : Links L) (a : L) :
    (tetes.foldl initListHead m).next a = (if a ∈ tetes then some a else m.next a) ∧
      (tetes.foldl initListHead m).prev a = if a ∈ tetes then some a else m.prev a := by
  induction tetes generalizing m with
  | nil => simp
  | cons h tetes ih =>
      obtain ⟨next, prev⟩ := ih (initListHead m h)
      rw [List.foldl_cons, next, prev]
      by_cases dans : a ∈ tetes
      · simp [dans]
      · by_cases same : a = h
        · subst same
          simp [dans, initListHead, ecrirePrev, ecrireNext]
        · simp [dans, same, initListHead, ecrirePrev, ecrireNext]

theorem demarrage_contient (tetes : List L) : Contient tetes (demarrage tetes) fun _ => [] where
  ring := by
    intro h tete
    obtain ⟨next, prev⟩ := foldl_initListHead tetes { prev := fun _ => none, next := fun _ => none } h
    rw [if_pos tete] at next prev
    exact ⟨⟨next, prev⟩, List.nodup_singleton h⟩
  node := by simp
  apart := by simp
  free := by
    intro x _ nonTete _
    obtain ⟨next, prev⟩ := foldl_initListHead tetes { prev := fun _ => none, next := fun _ => none } x
    rw [if_neg nonTete] at next prev
    exact ⟨prev, next⟩

/-- From initialised heads on, any run of the macros fails on the links exactly when it fails on
the lists. Otherwise it gives the same pointers, each ring holds its list in both directions, and
the elements that are in no list have null links. -/
theorem macros_raffinent_listes [Fintype L] (tetes : List L) (ops : List (Usage L))
    (formes : ∀ op ∈ ops, BienForme tetes op) :
    (∀ f, deroulerListes tetes (fun _ => []) ops = .error f →
      Maillons.derouler (Fintype.card L) (demarrage tetes) ops = .error f) ∧
    ∀ c rs, deroulerListes tetes (fun _ => []) ops = .ok (c, rs) →
      ∃ m, Maillons.derouler (Fintype.card L) (demarrage tetes) ops = .ok (m, rs) ∧
        (∀ h ∈ tetes, Maillons.queueForEach m (Fintype.card L) h = .ok (c h) ∧
          queueForEachPrev m (Fintype.card L) h = .ok (c h).reverse) ∧
        ∀ x ∉ tetes, (∀ h ∈ tetes, x ∉ c h) → m.prev x = none ∧ m.next x = none := by
  have accord := derouler_accord le_rfl (demarrage_contient tetes) formes
  revert accord
  generalize deroulerListes tetes (fun _ => []) ops = listes
  generalize Maillons.derouler (Fintype.card L) (demarrage tetes) ops = liens
  rintro (f | @⟨c, m, rs, contient⟩)
  · constructor
    · rintro f' ⟨⟩
      rfl
    · rintro c' rs' ⟨⟩
  · constructor
    · rintro f' ⟨⟩
    rintro c' rs' ⟨⟩
    refine ⟨_, rfl, fun h tete => ?_, fun x nonTete absent => contient.free x trivial nonTete absent⟩
    have ring := contient.ring h tete
    have borne : (c h).length < Fintype.card L := by
      have nodup := ring.nodup.length_le_card
      rw [List.length_cons] at nodup
      omega
    exact ⟨queueForEach_eq ring borne, queueForEachPrev_eq ring borne⟩

def echange : List (Usage (Fin 6)) :=
  [.add (fun x => x.val) 4 0, .add (fun x => x.val) 2 0, .add (fun x => x.val) 3 1, .out 0,
    .add (fun x => x.val) 4 1, .top 1, .bottom 1, .del 3]

theorem echange_formes : ∀ op ∈ echange, BienForme [0, 1] op := by
  simp [echange, BienForme]

theorem macros_raffinent_listes_exemple : ∃ (c : Fin 6 → List (Fin 6)) (m : Links (Fin 6)),
    Maillons.derouler 6 (demarrage [0, 1]) echange =
      .ok (m, [none, none, none, some 4, none, some 4, some 3, none]) ∧
    c 0 = [2] ∧ c 1 = [4] ∧ Maillons.queueForEach m 6 0 = .ok [2] ∧ queueForEachPrev m 6 1 = .ok [4] := by
  have listes : ∃ c : Fin 6 → List (Fin 6), deroulerListes [0, 1] (fun _ => []) echange =
      .ok (c, [none, none, none, some 4, none, some 4, some 3, none]) ∧ c 0 = [2] ∧ c 1 = [4] :=
    ⟨_, rfl, rfl, rfl⟩
  obtain ⟨c, course, premier, second⟩ := listes
  obtain ⟨m, liens, parcours, -⟩ := (macros_raffinent_listes [0, 1] echange echange_formes).2 c _ course
  refine ⟨c, m, liens, premier, second, ?_, ?_⟩
  · exact premier ▸ (parcours 0 (by simp)).1
  · exact (parcours 1 (by simp)).2.trans (by rw [second]; rfl)

section Arrivees

variable {κ : Type v} [LinearOrder κ]

/-- A use of the macros on the elements of each ring in order of arrival: the element served is
the one that has waited longest among those of greatest priority. -/
def appliquerArrivees (prio : L → κ) (tetes : List L) (a : L → List L) :
    Usage L → Except Faute ((L → List L) × Option L)
  | .add _ x h =>
    if (anneauDe tetes a x).isSome then .error .assertionMaillon
    else .ok (Function.update a h (a h ++ [x]), none)
  | .del x =>
    match anneauDe tetes a x with
    | none => .error .assertionMaillon
    | some h => .ok (Function.update a h ((a h).erase x), none)
  | .out h =>
    match (a h).argmax prio with
    | none => .ok (a, none)
    | some x => .ok (Function.update a h ((a h).erase x), some x)
  | .top h => .ok (a, (a h).argmax prio)
  | .bottom h => .ok (a, (a h).reverse.argmin prio)

def deroulerArrivees (prio : L → κ) (tetes : List L) :
    (L → List L) → List (Usage L) → Except Faute ((L → List L) × List (Option L))
  | a, [] => .ok (a, [])
  | a, op :: reste => do
    let (a, r) ← appliquerArrivees prio tetes a op
    let (a, rs) ← deroulerArrivees prio tetes a reste
    .ok (a, r :: rs)

/-- The priorities read by the insertions are `prio`. -/
def SelonPrio (prio : L → Int) : Usage L → Prop
  | .add prio' _ _ => prio' = prio
  | _ => True

variable {prio : L → Int} {a : L → List L}

structure Range (tetes : List L) (prio : L → Int) (a c : L → List L) : Prop where
  liste : ∀ h, c h = arrange prio (a h)
  nodup : ∀ h ∈ tetes, (a h).Nodup

inductive AccordArrivees {β : Type u} (tetes : List L) (prio : L → Int) :
    Except Faute ((L → List L) × β) → Except Faute ((L → List L) × β) → Prop
  | faute (f : Faute) : AccordArrivees tetes prio (.error f) (.error f)
  | fin {a c : L → List L} (r : β) : Range tetes prio a c → AccordArrivees tetes prio (.ok (a, r)) (.ok (c, r))

omit [DecidableEq L] in
theorem Range.mem (range : Range tetes prio a c) (h x : L) : x ∈ c h ↔ x ∈ a h := by
  rw [range.liste]
  exact (arrange_perm prio (a h)).mem_iff

theorem Range.anneauDe (range : Range tetes prio a c) (x : L) :
    anneauDe tetes c x = anneauDe tetes a x := by
  unfold Rings.anneauDe
  congr 1
  funext h
  rw [decide_eq_decide]
  exact range.mem h x

theorem Range.update (range : Range tetes prio a c) {h : L} {p : List L} (nodup : p.Nodup) :
    Range tetes prio (Function.update a h p) (Function.update c h (arrange prio p)) where
  liste := by
    intro g
    by_cases same : g = h
    · subst same
      simp
    · simp [same, range.liste]
  nodup := by
    intro g tete
    by_cases same : g = h
    · subst same
      simpa using nodup
    · simpa [same] using range.nodup g tete

theorem appliquer_accordArrivees (range : Range tetes prio a c) {op : Usage L}
    (forme : BienForme tetes op) (selon : SelonPrio prio op) :
    AccordArrivees tetes prio (appliquerArrivees prio tetes a op) (appliquerListes tetes c op) := by
  cases op with
  | add prio' x h =>
      obtain ⟨tete, -⟩ := forme
      obtain rfl : prio' = prio := selon
      rw [appliquerArrivees, appliquerListes, range.anneauDe]
      split
      · exact .faute _
      · next dehors =>
          have absent := anneauDe_none (Option.not_isSome_iff_eq_none.mp dehors) h tete
          rw [range.liste, ← arrange_concat]
          refine .fin none (range.update (List.nodup_append.mpr ⟨range.nodup h tete, List.nodup_singleton x, ?_⟩))
          rintro y mem z dernier rfl
          exact absent (List.mem_singleton.mp dernier ▸ mem)
  | del x =>
      rw [appliquerArrivees, appliquerListes, range.anneauDe]
      split
      · exact .faute _
      · next h trouve =>
          have tete := (anneauDe_some trouve).1
          rw [range.liste, arrange_erase prio x (range.nodup h tete)]
          exact .fin none (range.update ((range.nodup h tete).erase x))
  | out h =>
      have nodup := range.nodup h forme
      have dernier := arrange_getLast? prio (a h)
      rw [appliquerArrivees, appliquerListes, range.liste, dernier]
      cases choisi : (a h).argmax prio with
      | none => exact .fin none range
      | some x =>
          rw [choisi] at dernier
          have sans : (arrange prio (a h)).dropLast = (arrange prio (a h)).erase x := by
            have split := split_last dernier
            have distinct : ((arrange prio (a h)).dropLast ++ [x]).Nodup :=
              split ▸ (arrange_perm prio (a h)).nodup_iff.mpr nodup
            have absent : x ∉ (arrange prio (a h)).dropLast := fun mem =>
              (List.nodup_append.mp distinct).2.2 x mem x (List.mem_singleton_self x) rfl
            conv_rhs => rw [split]
            rw [List.erase_append_right _ absent, List.erase_cons_head, List.append_nil]
          rw [sans, arrange_erase prio x nodup]
          exact .fin (some x) (range.update (nodup.erase x))
  | top h =>
      rw [appliquerArrivees, appliquerListes, range.liste, arrange_getLast?]
      exact .fin _ range
  | bottom h =>
      rw [appliquerArrivees, appliquerListes, range.liste, arrange_head?]
      exact .fin _ range

theorem derouler_accordArrivees (range : Range tetes prio a c) {ops : List (Usage L)}
    (formes : ∀ op ∈ ops, BienForme tetes op) (selon : ∀ op ∈ ops, SelonPrio prio op) :
    AccordArrivees tetes prio (deroulerArrivees prio tetes a ops) (deroulerListes tetes c ops) := by
  induction ops generalizing a c with
  | nil => exact .fin [] range
  | cons op reste ih =>
      have premier := appliquer_accordArrivees range (formes op (List.mem_cons_self ..))
        (selon op (List.mem_cons_self ..))
      rw [deroulerArrivees, deroulerListes]
      revert premier
      generalize appliquerArrivees prio tetes a op = arrivees
      generalize appliquerListes tetes c op = listes
      rintro (f | ⟨r, range'⟩)
      · exact .faute f
      · have suite := ih range' (fun op mem => formes op (List.mem_cons_of_mem _ mem))
          fun op mem => selon op (List.mem_cons_of_mem _ mem)
        simp only [bind, Except.bind]
        revert suite
        generalize deroulerArrivees prio tetes _ reste = arrivees
        generalize deroulerListes tetes _ reste = listes
        rintro (f | ⟨rs, range''⟩)
        · exact .faute f
        · exact .fin (r :: rs) range''

/-- While priorities do not change, every pointer given by a run of the macros on the links is the
one that the order of priorities, then of arrivals, gives. -/
theorem macros_servent_par_priorite [Fintype L] (tetes : List L) (prio : L → Int)
    (ops : List (Usage L)) (formes : ∀ op ∈ ops, BienForme tetes op)
    (selon : ∀ op ∈ ops, SelonPrio prio op) :
    (Maillons.derouler (Fintype.card L) (demarrage tetes) ops).map Prod.snd =
      (deroulerArrivees prio tetes (fun _ => []) ops).map Prod.snd := by
  have liens := derouler_accord le_rfl (demarrage_contient tetes) formes
  have range : Range tetes prio (fun _ => []) fun _ => [] := ⟨fun _ => rfl, fun _ _ => List.nodup_nil⟩
  have arrivees := derouler_accordArrivees range formes selon
  revert liens arrivees
  generalize Maillons.derouler (Fintype.card L) (demarrage tetes) ops = x
  generalize deroulerListes tetes (fun _ => []) ops = y
  generalize deroulerArrivees prio tetes (fun _ => []) ops = z
  rintro (f | ⟨rs, -⟩) arrivees
  · cases arrivees
    rfl
  · cases arrivees
    rfl

theorem macros_servent_par_priorite_exemple :
    (Maillons.derouler 6 (demarrage [0]) [.add (fun _ => 1) 4 0, .add (fun _ => 1) 3 0, .out 0, .out (0 : Fin 6)]).map
      Prod.snd = .ok [none, none, some 4, some 3] :=
  macros_servent_par_priorite [0] (fun _ => 1) _ (by simp [BienForme]) (by simp [SelonPrio])

end Arrivees

end ProjetSysteme.Properties.Rings
