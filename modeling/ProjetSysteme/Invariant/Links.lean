/- Invariant/Links
   digest: What each macro of queue.h does to the rings in memory. -/

import Mathlib.Data.Fintype.Card
import Mathlib.Data.List.Induction
import ProjetSysteme.Kernel.Queue

set_option autoImplicit false
set_option relaxedAutoImplicit false

namespace ProjetSysteme.Invariant

open Kernel Kernel.Maillons Library.PriorityList Library.Ring

universe u

variable {L : Type u} [DecidableEq L] {m : Links L} {head clean : L → Prop} {content : L → List L}
variable {h x : L} {l front back : List L} {tours : Nat}

omit [DecidableEq L] in
theorem place_split (prio : L → Int) (x : L) (l : List L) :
    place prio x l = l.takeWhile (fun b => prio b < prio x) ++ x :: l.dropWhile (fun b => prio b < prio x) := by
  rw [place, List.orderedInsert_eq_take_drop]
  simp only [not_le]

theorem avancer_eq (prio : L → Int) (ring : IsRing m h (front ++ back)) (assez : back.length < tours) :
    avancer m prio h x tours (front.getLastD h) =
      .ok ((back.dropWhile fun b => prio b < prio x).headD h) := by
  induction back generalizing front tours with
  | nil =>
      obtain ⟨tours, rfl⟩ : ∃ n, tours = n + 1 := ⟨tours - 1, by simp at assez; omega⟩
      have link := (Path.linked ring.path).1
      rw [avancer, link]
      exact if_neg fun both => both.1 rfl
  | cons d back ih =>
      obtain ⟨tours, rfl⟩ : ∃ n, tours = n + 1 := ⟨tours - 1, by simp at assez; omega⟩
      have link := (Path.linked ring.path).1
      have autre : d ≠ h := by
        rintro rfl
        exact (List.nodup_cons.mp ring.nodup).1 (by simp)
      rw [avancer, link]
      change (if d ≠ h ∧ prio d < prio x then avancer m prio h x tours d else .ok d) = _
      by_cases plusPetit : prio d < prio x
      · rw [if_pos ⟨autre, plusPetit⟩, List.dropWhile_cons_of_pos (by simpa using plusPetit)]
        rw [List.append_cons] at ring
        have suite := ih ring (show back.length < tours by simp at assez; omega)
        simpa using suite
      · rw [if_neg fun both => plusPetit both.2, List.dropWhile_cons_of_neg (by simpa using plusPetit)]
        rfl

theorem queueAdd_eq (prio : L → Int) (ring : IsRing m h l) (fresh : x ∉ h :: l)
    (libre : m.prev x = none ∧ m.next x = none) (assez : l.length < tours)
    (avant : l.takeWhile (fun b => prio b < prio x) = front)
    (apres : l.dropWhile (fun b => prio b < prio x) = back) :
    queueAdd m prio tours x h = .ok (m.insert (front.getLastD h) x (back.headD h)) := by
  have split : l = front ++ back := by
    rw [← avant, ← apres, List.takeWhile_append_dropWhile]
  have cherche := avancer_eq (x := x) prio (show IsRing m h ([] ++ l) from ring) assez
  rw [apres] at cherche
  have autre : back.headD h ≠ x := fun same => fresh (same ▸ (neighbours split).2)
  rw [split] at ring
  have lien := (Path.linked ring.path).2
  rw [Maillons.queueAdd, if_pos libre]
  change avancer m prio h x tours h = _ at cherche
  simp only [cherche, bind, Except.bind, ecrireNext, ecrirePrev, Function.update_of_ne autre, lien, suivre,
    Links.insert]

theorem queueAdd_chaine (prio : L → Int) (lie : m.prev x ≠ none) :
    queueAdd m prio tours x h = .error .assertionMaillon :=
  if_neg fun both => lie both.1

theorem queueDel_eq (ring : IsRing m h (front ++ x :: back)) :
    queueDel m x = .ok (m.remove (front.getLastD h) x (back.headD h)) := by
  have precedent := ring.prev_node
  have suivant := ring.next_node
  have unique : x ∉ front ∧ x ∉ back ∧ x ≠ h := by
    have nodup := ring.nodup
    simp only [List.nodup_cons, List.nodup_append, List.mem_append, List.mem_cons, not_or] at nodup
    obtain ⟨⟨-, tete, -⟩, -, ⟨arriere, -⟩, distincts⟩ := nodup
    exact ⟨fun mem => distincts x mem x (.inl rfl) rfl, arriere, Ne.symm tete⟩
  have nonAvant : front.getLastD h ≠ x := by
    intro same
    rcases List.mem_cons.mp (getLastD_mem front h) with tete | mem
    · exact unique.2.2 (same.symm.trans tete)
    · exact unique.1 (same ▸ mem)
  have nonApres : back.headD h ≠ x := by
    intro same
    rcases List.mem_append.mp (headD_mem back h) with mem | tete
    · exact unique.2.1 (same ▸ mem)
    · exact unique.2.2 (same.symm.trans (List.mem_singleton.mp tete))
  rw [Maillons.queueDel, if_pos (by simp [precedent, suivant])]
  simp only [precedent, suivant, bind, Except.bind, ecrireNext, ecrirePrev, suivre,
    Function.update_of_ne nonAvant.symm, Links.remove]

theorem queueDel_libre (libre : m.prev x = none) : queueDel m x = .error .assertionMaillon :=
  if_neg fun both => both.1 libre

theorem queueEmpty_eq (ring : IsRing m h l) : queueEmpty m h = true ↔ l = [] := by
  rw [queueEmpty, decide_eq_true_iff, ring.next_eq_head]

theorem queueOut_eq (ring : IsRing m h (front ++ [x])) :
    queueOut m h = .ok (m.remove (front.getLastD h) x h, some x) := by
  have dernier := ring.prev_head
  rw [List.getLastD_concat] at dernier
  have precedent := ring.prev_node
  have autre : x ≠ h := by
    rintro rfl
    exact (List.nodup_cons.mp ring.nodup).1 (by simp)
  have nonVide : ¬ queueEmpty m h = true := by
    rw [queueEmpty_eq ring]
    simp
  rw [queueOut, if_neg nonVide]
  simp only [dernier, precedent, bind, Except.bind, ecrireNext, ecrirePrev, suivre, Function.update_self,
    Links.remove]

theorem queueOut_vide (ring : IsRing m h []) : queueOut m h = .ok (m, none) :=
  if_pos ((queueEmpty_eq ring).mpr rfl)

theorem queueTop_eq (ring : IsRing m h l) : queueTop m h = .ok l.getLast? := by
  rw [queueTop]
  split
  · next vide =>
      rw [(queueEmpty_eq ring).mp vide]
      rfl
  · next nonVide =>
      have existe : l ≠ [] := fun vide => nonVide ((queueEmpty_eq ring).mpr vide)
      rw [ring.prev_head, List.getLastD_eq_getLast?, List.getLast?_eq_some_getLast existe]
      rfl

theorem queueBottom_eq (ring : IsRing m h l) : queueBottom m h = .ok l.head? := by
  rw [queueBottom]
  split
  · next vide =>
      rw [(queueEmpty_eq ring).mp vide]
      rfl
  · next nonVide =>
      have existe : l ≠ [] := fun vide => nonVide ((queueEmpty_eq ring).mpr vide)
      rw [ring.next_head]
      cases l with
      | nil => exact absurd rfl existe
      | cons c l => rfl

theorem queueForEach_eq (ring : IsRing m h l) (assez : l.length < tours) :
    queueForEach m tours h = .ok l := by
  suffices general : ∀ front back : List L, IsRing m h (front ++ back) → ∀ tours, back.length < tours →
      parcourir m.next h tours (front.getLastD h) = .ok back from general [] l ring tours assez
  intro front back
  induction back generalizing front with
  | nil =>
      intro ring tours assez
      obtain ⟨tours, rfl⟩ : ∃ n, tours = n + 1 := ⟨tours - 1, by simp at assez; omega⟩
      rw [parcourir, (Path.linked ring.path).1]
      exact if_pos rfl
  | cons d back ih =>
      intro ring tours assez
      obtain ⟨tours, rfl⟩ : ∃ n, tours = n + 1 := ⟨tours - 1, by simp at assez; omega⟩
      have autre : d ≠ h := by
        rintro rfl
        exact (List.nodup_cons.mp ring.nodup).1 (by simp)
      have suite := ih (front ++ [d]) (by simpa using ring) tours (by simp at assez; omega)
      rw [List.getLastD_concat] at suite
      rw [parcourir, (Path.linked ring.path).1]
      simp only [suivre, List.headD_cons, bind, Except.bind, if_neg autre, suite]

theorem queueForEachPrev_eq (ring : IsRing m h l) (assez : l.length < tours) :
    queueForEachPrev m tours h = .ok l.reverse := by
  suffices general : ∀ front back : List L, IsRing m h (front ++ back) → ∀ tours, front.length < tours →
      parcourir m.prev h tours (back.headD h) = .ok front.reverse from
    general l [] (by rwa [List.append_nil]) tours assez
  intro front
  induction front using List.reverseRecOn with
  | nil =>
      intro back ring tours assez
      obtain ⟨tours, rfl⟩ : ∃ n, tours = n + 1 := ⟨tours - 1, by simp at assez; omega⟩
      rw [parcourir, (Path.linked ring.path).2]
      exact if_pos rfl
  | append_singleton front d ih =>
      intro back ring tours assez
      obtain ⟨tours, rfl⟩ : ∃ n, tours = n + 1 := ⟨tours - 1, by simp at assez; omega⟩
      have autre : d ≠ h := by
        rintro rfl
        exact (List.nodup_cons.mp ring.nodup).1 (by simp)
      have suite := ih (d :: back) (by simpa using ring) tours (by simp at assez; omega)
      rw [List.headD_cons] at suite
      rw [parcourir, (Path.linked ring.path).2, List.getLastD_concat]
      simp only [suivre, bind, Except.bind, if_neg autre, suite, List.reverse_append, List.reverse_singleton,
        List.singleton_append]

section Anneaux

variable (anneaux : Rings m head clean content) (tete : head h)

include anneaux tete

theorem queueAdd_anneaux (prio : L → Int) (nonTete : ¬ head x) (propre : clean x)
    (absent : ∀ h, head h → x ∉ content h) (assez : (content h).length < tours) :
    ∃ m', queueAdd m prio tours x h = .ok m' ∧
      Rings m' head clean (Function.update content h (place prio x (content h))) := by
  have fresh : x ∉ h :: content h := by
    intro mem
    rcases List.mem_cons.mp mem with rfl | dans
    · exact nonTete tete
    · exact absent h tete dans
  refine ⟨_, queueAdd_eq prio (anneaux.ring h tete) fresh (anneaux.free x propre nonTete absent) assez
    rfl rfl, ?_⟩
  rw [place_split]
  exact anneaux.insert tete nonTete absent (List.takeWhile_append_dropWhile ..).symm

theorem queueDel_anneaux (mem : x ∈ content h) :
    ∃ m', queueDel m x = .ok m' ∧
      Rings m' head clean (Function.update content h ((content h).erase x)) := by
  obtain ⟨front, back, split⟩ := List.append_of_mem mem
  have ring := anneaux.ring h tete
  rw [split] at ring
  have nonAvant : x ∉ front := fun dans =>
    (List.nodup_append.mp (List.nodup_cons.mp ring.nodup).2).2.2 x dans x (List.mem_cons_self ..) rfl
  have sans : (content h).erase x = front ++ back := by
    rw [split, List.erase_append_right _ nonAvant, List.erase_cons_head]
  rw [sans]
  exact ⟨_, queueDel_eq ring, anneaux.remove tete split⟩

theorem queueOut_anneaux (dernier : (content h).getLast? = some x) :
    ∃ m', queueOut m h = .ok (m', some x) ∧
      Rings m' head clean (Function.update content h (content h).dropLast) := by
  have split := split_last dernier
  have ring := anneaux.ring h tete
  rw [split] at ring
  have fin := anneaux.remove tete split
  rw [List.append_nil] at fin
  exact ⟨_, queueOut_eq ring, fin⟩

end Anneaux

section Tours

variable {cur : L} {prio : L → Int} {n : Nat}

def FinitEn (m : Links L) (prio : L → Int) (h x : L) (n : Nat) (cur : L) : Prop :=
  avancer m prio h x n cur ≠ .error .boucle ∧ ∀ k, k < n → avancer m prio h x k cur = .error .boucle

theorem avancer_suite (encore : avancer m prio h x 1 cur = .error .boucle) :
    ∃ c, ∀ k, avancer m prio h x (k + 1) cur = avancer m prio h x k c := by
  rw [avancer] at encore
  cases suivant : m.next cur with
  | none =>
      rw [suivant] at encore
      cases encore
  | some c =>
      rw [suivant] at encore
      change (if c ≠ h ∧ prio c < prio x then avancer m prio h x 0 c else .ok c) = _ at encore
      split at encore
      · next avance =>
          refine ⟨c, fun k => ?_⟩
          rw [avancer, suivant]
          exact if_pos avance
      · cases encore

theorem avancer_plus (fini : avancer m prio h x n cur ≠ .error .boucle) (k : Nat) :
    avancer m prio h x (n + k) cur = avancer m prio h x n cur := by
  induction n generalizing cur with
  | zero => exact absurd rfl fini
  | succ n ih =>
      rw [Nat.add_right_comm, avancer, avancer]
      cases suivant : m.next cur with
      | none => rfl
      | some c =>
          change (if _ then _ else _) = (if _ then _ else _)
          rw [avancer, suivant] at fini
          change (if c ≠ h ∧ prio c < prio x then avancer m prio h x n c else .ok c) ≠ _ at fini
          split
          · next avance =>
              rw [if_pos avance] at fini
              exact ih fini
          · rfl

theorem FinitEn.chaine (finit : FinitEn m prio h x n cur) :
    ∃ l : List L, l.length = n ∧ l.Nodup ∧ ∀ y ∈ l, ∃ k, k ≤ n ∧ FinitEn m prio h x k y := by
  induction n generalizing cur with
  | zero => exact ⟨[], rfl, List.nodup_nil, fun y mem => absurd mem List.not_mem_nil⟩
  | succ n ih =>
      by_cases premier : n = 0
      · subst premier
        refine ⟨[cur], rfl, List.nodup_singleton cur, fun y mem => ⟨1, le_rfl, ?_⟩⟩
        rwa [List.mem_singleton.mp mem]
      · obtain ⟨c, suite⟩ := avancer_suite (finit.2 1 (by omega))
        have finitC : FinitEn m prio h x n c :=
          ⟨suite n ▸ finit.1, fun k avant => suite k ▸ finit.2 (k + 1) (by omega)⟩
        obtain ⟨l, longueur, nodup, distances⟩ := ih finitC
        have absent : cur ∉ l := by
          intro mem
          obtain ⟨k, court, finitK⟩ := distances cur mem
          exact finitK.1 (finit.2 k (by omega))
        refine ⟨cur :: l, by rw [List.length_cons, longueur], List.nodup_cons.mpr ⟨absent, nodup⟩, ?_⟩
        intro y mem
        rcases List.mem_cons.mp mem with rfl | mem
        · exact ⟨n + 1, le_rfl, finit⟩
        · obtain ⟨k, court, finitK⟩ := distances y mem
          exact ⟨k, by omega, finitK⟩

theorem avancer_assez [Fintype L] (assez : Fintype.card L ≤ tours) :
    avancer m prio h x tours cur = avancer m prio h x (Fintype.card L) cur := by
  by_cases fini : ∃ n, avancer m prio h x n cur ≠ .error .boucle
  · have finit : FinitEn m prio h x (Nat.find fini) cur :=
      ⟨Nat.find_spec fini, fun k avant => not_not.mp (Nat.find_min fini avant)⟩
    obtain ⟨l, longueur, nodup, -⟩ := finit.chaine
    have court : Nat.find fini ≤ Fintype.card L := longueur ▸ nodup.length_le_card
    rw [← Nat.add_sub_cancel' court, ← Nat.add_sub_cancel' (court.trans assez), avancer_plus finit.1, avancer_plus finit.1]
  · rw [not_exists] at fini
    rw [not_not.mp (fini tours), not_not.mp (fini (Fintype.card L))]

theorem queueAdd_assez [Fintype L] (assez : Fintype.card L ≤ tours) :
    queueAdd m prio tours x h = queueAdd m prio (Fintype.card L) x h := by
  rw [Maillons.queueAdd, Maillons.queueAdd, avancer_assez assez]

end Tours

end ProjetSysteme.Invariant
