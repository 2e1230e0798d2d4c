/- Invariant/Chained
   digest: The kernel on the rings in memory simulates the kernel on lists. -/

import Mathlib.Data.Fintype.Card
import ProjetSysteme.Invariant.Destruction
import ProjetSysteme.Invariant.Links
import ProjetSysteme.Kernel.Chained

set_option autoImplicit false
set_option relaxedAutoImplicit false

namespace ProjetSysteme.Invariant.Chaine

open Kernel Kernel.Chaine Library.PriorityList Library.Ring

def sansListes (k : Noyau) : Noyau :=
  { k with activables := [], endormis := [], table := fun i => { k.table i with fils := [] } }

variable (H : Indice → Prop)

/-- The heads in use, with the lists of children of the processes of `H`. -/
def tete : Maillon → Prop
  | .teteActivables | .teteEndormis => True
  | .teteFils i => H i
  | _ => False

def propre : Maillon → Prop
  | .activable _ | .endormi _ => True
  | _ => False

def contenu (k : Noyau) : Maillon → List Maillon
  | .teteActivables => k.activables.map .activable
  | .teteEndormis => k.endormis.map .endormi
  | .teteFils i => (k.table i).fils.map .fils
  | _ => []

/-- The rings of `kc` hold the lists of `k`, and `kc` agrees with `k` on all the rest. -/
structure Represente (k : Noyau) (kc : NoyauChaine) : Prop where
  noyau : kc.noyau = sansListes k
  anneaux : Rings kc.liens (tete H) propre (contenu k)
  vivants : ∀ i, (k.table i).etat ≠ .mort ∨ (k.table i).pid ≠ none → H i

/-- The kernel on rings ends as the kernel on lists does, unless the latter ends with a fault. -/
def Simule {α : Type} (f : α → Noyau) (r : Except Arret α) (rc : ResultatChaine) : Prop :=
  match r with
  | .ok a => ∃ kc, rc = .ok kc ∧ Represente H (f a) kc
  | .error (.confirme k) => ∃ kc, rc = .error (.confirme kc) ∧ Represente H k kc
  | .error (.faute _) => True

variable {H} {k k' : Noyau} {kc : NoyauChaine} {pr i : Indice} {e : EtatProcessus}

namespace Simule

variable {α β : Type} {f : α → Noyau} {g : β → Noyau} {r : Except Arret α} {rc : ResultatChaine}

theorem bind {next : α → Except Arret β} {nextc : NoyauChaine → ResultatChaine} (premier : Simule H f r rc)
    (suite : ∀ a kc, r = .ok a → Represente H (f a) kc → Simule H g (next a) (nextc kc)) :
    Simule H g (r >>= next) (rc >>= nextc) := by
  rcases r with (faute | k) | a
  · trivial
  · obtain ⟨kc, rfl, represente⟩ := premier
    exact ⟨kc, rfl, represente⟩
  · obtain ⟨kc, rfl, represente⟩ := premier
    exact suite a kc rfl represente

theorem suite {next : α → β} (premier : Simule H f r rc)
    (meme : ∀ a kc, Represente H (f a) kc → Represente H (g (next a)) kc) :
    Simule H g (r >>= fun a => .ok (next a)) rc := by
  rcases r with (faute | k) | a
  · trivial
  · exact premier
  · obtain ⟨kc, rfl, represente⟩ := premier
    exact ⟨kc, rfl, meme a kc represente⟩

theorem ok {a : α} (represente : Represente H (f a) kc) : Simule H f (.ok a) (.ok kc) :=
  ⟨kc, rfl, represente⟩

theorem ite {c c' : Prop} [Decidable c] [Decidable c'] (memeTest : c' ↔ c) {r' : Except Arret α}
    {rc' : ResultatChaine} (oui : c → Simule H f r rc) (non : ¬ c → Simule H f r' rc') :
    Simule H f (if c then r else r') (if c' then rc else rc') := by
  by_cases test : c
  · rw [if_pos test, if_pos (memeTest.mpr test)]
    exact oui test
  · rw [if_neg test, if_neg fun test' => test (memeTest.mp test')]
    exact non test

end Simule

namespace Represente

variable (represente : Represente H k kc)

include represente

theorem etat (i : Indice) : (kc.noyau.table i).etat = (k.table i).etat := by
  rw [represente.noyau]
  rfl

theorem pid (i : Indice) : (kc.noyau.table i).pid = (k.table i).pid := by
  rw [represente.noyau]
  rfl

theorem pere (i : Indice) : (kc.noyau.table i).pere = (k.table i).pere := by
  rw [represente.noyau]
  rfl

theorem prio (i : Indice) : (kc.noyau.table i).prio = (k.table i).prio := by
  rw [represente.noyau]
  rfl

theorem pidActif : kc.noyau.pidActif = k.pidActif := by
  rw [represente.noyau]
  rfl

theorem modifie (i : Indice) {f : Processus → Processus} (garde : ∀ p, (f p).fils = p.fils)
    (efface : ∀ p, f { p with fils := [] } = { f p with fils := [] })
    (vivant : (f (k.table i)).etat ≠ .mort ∨ (f (k.table i)).pid ≠ none → H i) :
    Represente H (k.modifie i f) (kc.modifie i f) where
  noyau := by
    rw [NoyauChaine.modifie, represente.noyau]
    simp only [Noyau.modifie, sansListes]
    congr 1
    funext j
    split
    · exact efface _
    · rfl
  anneaux := by
    have meme : contenu (k.modifie i f) = contenu k := by
      funext m
      cases m with
      | teteFils j =>
          simp only [contenu, Noyau.modifie_table]
          split <;> simp [garde]
      | _ => rfl
    rw [meme]
    exact represente.anneaux
  vivants := by
    intro j nonMort
    rw [Noyau.modifie_table] at nonMort
    split at nonMort
    · next same =>
        rw [same] at nonMort ⊢
        exact vivant nonMort
    · exact represente.vivants j nonMort

end Represente

/-- The links `c i` of the processes `i` of the list `l` make the ring of head `t`, and no link
`c i` is in another ring. -/
structure Sorte (H : Indice → Prop) (k : Noyau) (t : Maillon) (c : Indice → Maillon) (l : List Indice) :
    Prop where
  tete : tete H t
  liste : contenu k t = l.map c
  injective : Function.Injective c
  nonTete : ∀ i, ¬ Chaine.tete H (c i)
  propre : ∀ i, propre (c i)
  prio : ∀ k i, Kernel.Chaine.prioDe k (c i) = (k.table i).prio
  ailleurs : ∀ h, h ≠ t → ∀ i, c i ∉ contenu k h

theorem Sorte.activables (H : Indice → Prop) (k : Noyau) :
    Sorte H k .teteActivables .activable k.activables where
  tete := trivial
  liste := rfl
  injective := fun _ _ same => Maillon.activable.inj same
  nonTete := fun _ => id
  propre := fun _ => trivial
  prio := fun _ _ => rfl
  ailleurs := by
    intro h autre i
    cases h <;> simp [contenu] at autre ⊢

theorem Sorte.endormis (H : Indice → Prop) (k : Noyau) :
    Sorte H k .teteEndormis .endormi k.endormis where
  tete := trivial
  liste := rfl
  injective := fun _ _ same => Maillon.endormi.inj same
  nonTete := fun _ => id
  propre := fun _ => trivial
  prio := fun _ _ => rfl
  ailleurs := by
    intro h autre i
    cases h <;> simp [contenu] at autre ⊢

section Listes

variable {t : Maillon} {c : Indice → Maillon} {l : List Indice}

theorem Represente.borne (represente : Represente H k kc) (estTete : tete H t) (liste : contenu k t = l.map c) :
    (contenu k t).length < tours := by
  have nodup := (List.nodup_cons.mp (represente.anneaux.ring t estTete).nodup).2
  rw [liste] at nodup ⊢
  have court := (List.Nodup.of_map c nodup).length_le_card
  rw [Fintype.card_fin] at court
  rw [List.length_map]
  exact Nat.lt_succ_of_le court

theorem Sorte.ajouter (sorte : Sorte H k t c l) (represente : Represente H k kc) (absent : pr ∉ l) :
    ∃ m, Maillons.queueAdd kc.liens (Kernel.Chaine.prioDe kc.noyau) tours (c pr) t = .ok m ∧
      Rings m (Chaine.tete H) Chaine.propre
        (Function.update (contenu k) t ((place k.prioDe pr l).map c)) := by
  have meme : ∀ j, Kernel.Chaine.prioDe kc.noyau (c j) = k.prioDe j := by
    intro j
    rw [sorte.prio, represente.prio]
    rfl
  obtain ⟨m, resultat, anneaux⟩ := queueAdd_anneaux (x := c pr) represente.anneaux sorte.tete
    (Kernel.Chaine.prioDe kc.noyau) (sorte.nonTete pr) (sorte.propre pr) (by
      intro h estTete mem
      by_cases same : h = t
      · rw [same, sorte.liste, List.mem_map_of_injective sorte.injective] at mem
        exact absent mem
      · exact sorte.ailleurs h same pr mem)
    (represente.borne sorte.tete sorte.liste)
  refine ⟨m, resultat, ?_⟩
  rw [sorte.liste, ← map_place k.prioDe meme] at anneaux
  exact anneaux

theorem Represente.retirer (represente : Represente H k kc) (estTete : tete H t)
    (liste : contenu k t = l.map c) (injective : Function.Injective c) (mem : pr ∈ l) :
    ∃ m, Maillons.queueDel kc.liens (c pr) = .ok m ∧
      Rings m (Chaine.tete H) propre (Function.update (contenu k) t ((l.erase pr).map c)) := by
  have dedans : c pr ∈ contenu k t := by
    rw [liste]
    exact List.mem_map_of_mem mem
  obtain ⟨m, resultat, anneaux⟩ := queueDel_anneaux represente.anneaux estTete dedans
  rw [liste, ← List.map_erase injective] at anneaux
  exact ⟨m, resultat, anneaux⟩

end Listes

theorem Represente.remplacerActivables (represente : Represente H k kc) {l : List Indice} {m : Links Maillon}
    (anneaux : Rings m (tete H) propre (Function.update (contenu k) .teteActivables (l.map .activable))) :
    Represente H { k with activables := l } { kc with liens := m } where
  noyau := represente.noyau
  anneaux := by
    have meme : contenu { k with activables := l } =
        Function.update (contenu k) .teteActivables (l.map .activable) := by
      funext h
      cases h <;> simp [contenu]
    rw [meme]
    exact anneaux
  vivants := represente.vivants

theorem Represente.remplacerEndormis (represente : Represente H k kc) {l : List Indice} {m : Links Maillon}
    (anneaux : Rings m (tete H) propre (Function.update (contenu k) .teteEndormis (l.map .endormi))) :
    Represente H { k with endormis := l } { kc with liens := m } where
  noyau := represente.noyau
  anneaux := by
    have meme : contenu { k with endormis := l } =
        Function.update (contenu k) .teteEndormis (l.map .endormi) := by
      funext h
      cases h <;> simp [contenu]
    rw [meme]
    exact anneaux
  vivants := represente.vivants

theorem Represente.remplacerFils (represente : Represente H k kc) {p : Indice} {l : List Indice}
    {m : Links Maillon}
    (anneaux : Rings m (tete H) propre (Function.update (contenu k) (.teteFils p) (l.map .fils))) :
    Represente H (k.modifie p fun q => { q with fils := l }) { kc with liens := m } where
  noyau := by
    rw [represente.noyau]
    simp only [Noyau.modifie, sansListes]
    congr 1
    funext j
    split <;> rfl
  anneaux := by
    have meme : contenu (k.modifie p fun q => { q with fils := l }) =
        Function.update (contenu k) (.teteFils p) (l.map .fils) := by
      funext h
      cases h with
      | teteFils j =>
          by_cases same : j = p
          · subst same
            simp [contenu]
          · simp [contenu, Noyau.modifie_table, same]
      | _ => rfl
    rw [meme]
    exact anneaux
  vivants := by
    intro j vivant
    refine represente.vivants j ?_
    rw [Noyau.modifie_table] at vivant
    split at vivant <;> exact vivant

section Files

variable (represente : Represente H k kc)

include represente

theorem entrerActivables_simule (pr : Indice) :
    Simule H id (Kernel.entrerActivables k pr) (Kernel.Chaine.entrerActivables kc pr) := by
  unfold Kernel.entrerActivables Kernel.queueAdd
  split
  · trivial
  · next absent =>
      obtain ⟨m, resultat, anneaux⟩ := (Sorte.activables H k).ajouter represente absent
      rw [Kernel.Chaine.entrerActivables, resultat]
      exact Simule.ok (represente.remplacerActivables anneaux)

theorem entrerEndormis_simule (pr : Indice) :
    Simule H id (Kernel.entrerEndormis k pr) (Kernel.Chaine.entrerEndormis kc pr) := by
  unfold Kernel.entrerEndormis Kernel.queueAdd
  split
  · trivial
  · next absent =>
      obtain ⟨m, resultat, anneaux⟩ := (Sorte.endormis H k).ajouter represente absent
      rw [Kernel.Chaine.entrerEndormis, resultat]
      exact Simule.ok (represente.remplacerEndormis anneaux)

theorem quitterActivables_simule (pr : Indice) (e : EtatProcessus) :
    Simule H id (Kernel.quitterActivables k pr e) (Kernel.Chaine.quitterActivables kc pr e) := by
  unfold Kernel.quitterActivables Kernel.Chaine.quitterActivables Kernel.queueDel
  refine Simule.ite (by rw [represente.etat]) (fun _ => ?_) fun _ => .ok represente
  split
  · next mem =>
      have sorte := Sorte.activables H k
      obtain ⟨m, resultat, anneaux⟩ := represente.retirer sorte.tete sorte.liste sorte.injective mem
      rw [resultat]
      exact Simule.ok (represente.remplacerActivables anneaux)
  · trivial

theorem quitterEndormis_simule (pr : Indice) :
    Simule H id (Kernel.quitterEndormis k pr) (Kernel.Chaine.quitterEndormis kc pr) := by
  unfold Kernel.quitterEndormis Kernel.Chaine.quitterEndormis Kernel.queueDel
  refine Simule.ite (by rw [represente.etat]) (fun _ => ?_) fun _ => .ok represente
  split
  · next mem =>
      have sorte := Sorte.endormis H k
      obtain ⟨m, resultat, anneaux⟩ := represente.retirer sorte.tete sorte.liste sorte.injective mem
      rw [resultat]
      exact Simule.ok (represente.remplacerEndormis anneaux)
  · trivial

theorem retirerDuPere_simule (pr : Indice) :
    Simule H id (Kernel.retirerDuPere k pr) (Kernel.Chaine.retirerDuPere kc pr) := by
  unfold Kernel.retirerDuPere Kernel.Chaine.retirerDuPere
  rw [represente.pere]
  cases pere : (k.table pr).pere with
  | none => exact .ok represente
  | some p =>
      refine Simule.ite (by rw [represente.etat]) (fun _ => .ok represente) fun vivant => ?_
      unfold Kernel.queueDel
      split
      · next mem =>
          obtain ⟨m, resultat, anneaux⟩ := represente.retirer (t := .teteFils p) (c := .fils)
            (represente.vivants p (.inl vivant)) rfl (fun _ _ same => Maillon.fils.inj same) mem
          rw [resultat]
          exact Simule.ok (represente.remplacerFils anneaux)
      · trivial

theorem prendreLaMain_simule (pr : Indice) :
    Simule H id (Kernel.prendreLaMain k pr) (Kernel.Chaine.prendreLaMain kc pr) := by
  unfold Kernel.prendreLaMain Kernel.Chaine.prendreLaMain
  refine Simule.ite (by rw [represente.etat]) (fun _ => Simule.ok ?_) fun _ => ⟨kc, rfl, represente⟩
  refine ⟨?_, represente.anneaux, represente.vivants⟩
  rw [represente.pid, represente.noyau]
  rfl

theorem filsApres_tete {p : Indice} (dans : H p) :
    filsApres kc p (.teteFils p) = .ok (k.table p).fils.head? := by
  have suivant := (represente.anneaux.ring (.teteFils p) dans).next_head
  cases liste : (k.table p).fils with
  | nil =>
      simp only [contenu, liste] at suivant
      rw [filsApres, suivant]
      exact if_pos rfl
  | cons f reste =>
      simp only [contenu, liste, List.map_cons, List.headD_cons] at suivant
      rw [filsApres, suivant]
      rfl

theorem filsApres_fils {p f : Indice} (dans : H p) {avant apres : List Indice}
    (liste : (k.table p).fils = avant ++ f :: apres) :
    filsApres kc p (.fils f) = .ok apres.head? := by
  have ring := represente.anneaux.ring (.teteFils p) dans
  have contient : contenu k (.teteFils p) = avant.map .fils ++ .fils f :: apres.map .fils := by
    simp [contenu, liste]
  rw [contient] at ring
  have suivant := ring.next_node
  cases apres with
  | nil =>
      rw [filsApres, suivant]
      exact if_pos rfl
  | cons g reste =>
      rw [List.map_cons, List.headD_cons] at suivant
      rw [filsApres, suivant]
      rfl

end Files

structure SimuleRecursion (H : Indice → Prop) (n : Nat) : Prop where
  definir : ∀ k kc pr e, Represente H k kc →
    Simule H id (Kernel.definirEtatProcessus n k pr e) (Kernel.Chaine.definirEtatProcessus n kc pr e)
  cas : ∀ k kc pr e, Represente H k kc → H pr →
    Simule H id (Kernel.casEtat n k pr e) (Kernel.Chaine.casEtat n kc pr e)
  boucle : ∀ detache k kc pr fils, Represente H k kc → H pr →
    Simule H Prod.snd (Kernel.boucleFils n detache k pr fils) (Kernel.Chaine.boucleFils n detache kc pr fils)
  corps : ∀ detache k kc pr fils, Represente H k kc → H pr →
    Simule H Prod.snd (Kernel.corpsFils n detache k pr fils) (Kernel.Chaine.corpsFils n detache kc pr fils)

theorem definirEtatProcessus_simule {n : Nat} (rang : SimuleRecursion H n) (represente : Represente H k kc)
    (pr : Indice) (e : EtatProcessus) :
    Simule H id (Kernel.definirEtatProcessus (n + 1) k pr e)
      (Kernel.Chaine.definirEtatProcessus (n + 1) kc pr e) := by
  rw [Kernel.definirEtatProcessus, Kernel.Chaine.definirEtatProcessus]
  refine Simule.ite (by rw [represente.pid]) (fun _ => ⟨kc, rfl, represente⟩) fun attribue => ?_
  have dans : H pr := represente.vivants pr (.inr attribue)
  refine Simule.ite (by rw [represente.etat]) (fun _ => .ok represente) fun _ => ?_
  refine (quitterActivables_simule represente pr e).bind fun k₁ kc₁ _ represente₁ => ?_
  refine (quitterEndormis_simule represente₁ pr).bind fun k₂ kc₂ _ represente₂ => ?_
  refine (rang.cas k₂ kc₂ pr e represente₂ dans).bind fun k₃ kc₃ _ represente₃ => ?_
  exact .ok (represente₃.modifie pr (fun _ => rfl) (fun _ => rfl) fun _ => dans)

theorem casEtat_simule {n : Nat} (rang : SimuleRecursion H n) (represente : Represente H k kc) (dans : H pr)
    (e : EtatProcessus) :
    Simule H id (Kernel.casEtat (n + 1) k pr e) (Kernel.Chaine.casEtat (n + 1) kc pr e) := by
  have premier := filsApres_tete represente dans
  cases e with
  | activable => exact entrerActivables_simule represente pr
  | actif => exact prendreLaMain_simule represente pr
  | mort =>
      rw [Kernel.casEtat, Kernel.Chaine.casEtat, premier]
      refine (rang.boucle true k kc pr _ represente dans).bind fun x kc₁ _ represente₁ => ?_
      have sansPid := represente₁.modifie (f := fun p => { p with pid := none }) pr (fun _ => rfl)
        (fun _ => rfl) fun _ => dans
      exact retirerDuPere_simule sansPid pr
  | zombie =>
      rw [Kernel.casEtat, Kernel.Chaine.casEtat, premier]
      exact (rang.boucle false k kc pr _ represente dans).suite fun x kc₁ represente₁ => represente₁
  | bloqueSurSemaphore => exact entrerEndormis_simule represente pr
  | _ => exact .ok represente

theorem corpsFils_simule {n : Nat} (rang : SimuleRecursion H n) (detache : Bool) (fils : Indice)
    (represente : Represente H k kc) (dans : H pr) :
    Simule H Prod.snd (Kernel.corpsFils (n + 1) detache k pr fils)
      (Kernel.Chaine.corpsFils (n + 1) detache kc pr fils) := by
  rw [Kernel.corpsFils, Kernel.Chaine.corpsFils]
  have represente₁ : Represente H (if detache then k.modifie fils fun p => { p with pere := none } else k)
      (if detache then kc.modifie fils fun p => { p with pere := none } else kc) := by
    cases detache with
    | false => exact represente
    | true =>
        exact represente.modifie (f := fun p => { p with pere := none }) fils (fun _ => rfl) (fun _ => rfl)
          (represente.vivants fils)
  revert represente₁
  generalize (if detache then k.modifie fils fun p => { p with pere := none } else k) = k₁
  generalize (if detache then kc.modifie fils fun p => { p with pere := none } else kc) = kc₁
  intro represente₁
  have nodup : (k₁.table pr).fils.Nodup :=
    List.Nodup.of_map _ (List.nodup_cons.mp (represente₁.anneaux.ring (.teteFils pr) dans).nodup).2
  by_cases mem : fils ∈ (k₁.table pr).fils
  · obtain ⟨avant, apres, liste⟩ := List.append_of_mem mem
    rw [suivantFils_ok liste nodup, filsApres_fils represente₁ dans liste]
    refine Simule.ite (by rw [represente₁.etat]) (fun _ => ?_) fun _ => ?_
    · refine (rang.definir k₁ kc₁ fils .mort represente₁).bind fun k₂ kc₂ _ represente₂ => ?_
      cases apres.head? with
      | none => exact Simule.ok represente₂
      | some _ => exact rang.corps detache k₂ kc₂ pr fils represente₂ dans
    · exact rang.boucle detache k₁ kc₁ pr apres.head? represente₁ dans
  · rw [suivantFils_absent mem]
    refine Simule.ite (by rw [represente₁.etat]) (fun _ => trivial) fun _ => trivial

theorem simuleRecursion (H : Indice → Prop) (n : Nat) : SimuleRecursion H n := by
  induction n with
  | zero => exact ⟨fun _ _ _ _ _ => trivial, fun _ _ _ _ _ _ => trivial, fun _ _ _ _ _ _ _ => trivial,
      fun _ _ _ _ _ _ _ => trivial⟩
  | succ n ih =>
      refine ⟨fun k kc pr e represente => definirEtatProcessus_simule ih represente pr e,
        fun k kc pr e represente dans => casEtat_simule ih represente dans e, ?_,
        fun detache k kc pr fils represente dans => corpsFils_simule ih detache fils represente dans⟩
      intro detache k kc pr fils represente dans
      cases fils with
      | none => exact Simule.ok represente
      | some fils =>
          exact (ih.corps detache k kc pr fils represente dans).suite fun x kc₁ represente₁ => represente₁

theorem definirEtat_simule (represente : Represente H k kc) (pr : Indice) (e : EtatProcessus) :
    Simule H id (Kernel.definirEtat k pr e) (Kernel.Chaine.definirEtat kc pr e) :=
  (simuleRecursion H limite).definir k kc pr e represente

theorem Represente.change (represente : Represente H k kc) (f : Noyau → Noyau)
    (efface : ∀ k, f (sansListes k) = sansListes (f k)) (table : (f k).table = k.table)
    (activables : (f k).activables = k.activables) (endormis : (f k).endormis = k.endormis) :
    Represente H (f k) { kc with noyau := f kc.noyau } where
  noyau := by rw [represente.noyau, efface]
  anneaux := by
    have meme : contenu (f k) = contenu k := by
      funext m
      cases m <;> simp [contenu, table, activables, endormis]
    rw [meme]
    exact represente.anneaux
  vivants := by
    rw [table]
    exact represente.vivants

theorem cederLaMain_simule (represente : Represente H k kc) (actif : Option Indice) :
    Simule H id (Kernel.cederLaMain k actif) (Kernel.Chaine.cederLaMain kc actif) := by
  cases actif with
  | none => exact .ok represente
  | some a =>
      exact Simule.ite (by rw [represente.etat]) (fun _ => definirEtat_simule represente a .activable)
        fun _ => .ok represente

theorem Represente.resteActif (represente : Represente H k kc) (pr : Indice) :
    resteActif kc.noyau pr = resteActif k pr := by
  rw [represente.noyau]
  rfl

theorem Represente.premier (represente : Represente H k kc) :
    Maillons.queueTop kc.liens .teteActivables = .ok (k.activables.getLast?.map .activable) := by
  rw [queueTop_eq (represente.anneaux.ring .teteActivables trivial)]
  simp [contenu, List.getLast?_map]

theorem ordonnancer_simule (represente : Represente H k kc) :
    Simule H id (Kernel.ordonnancer k) (Kernel.Chaine.ordonnancer kc) := by
  unfold Kernel.ordonnancer Kernel.Chaine.ordonnancer
  rw [represente.premier]
  cases dernier : k.activables.getLast? with
  | none => exact .ok represente
  | some pr =>
      refine Simule.ite (by rw [represente.resteActif]) (fun _ => .ok represente) fun _ => ?_
      have bout : (contenu k .teteActivables).getLast? = some (.activable pr) := by
        simp [contenu, List.getLast?_map, dernier]
      have estTete : tete H .teteActivables := trivial
      obtain ⟨m, sortie, anneaux⟩ := queueOut_anneaux represente.anneaux estTete bout
      have meme : (contenu k .teteActivables).dropLast = k.activables.dropLast.map .activable :=
        (List.map_dropLast ..).symm
      rw [meme] at anneaux
      have represente₁ := represente.remplacerActivables anneaux
      rw [sortie]
      refine (definirEtat_simule represente₁ pr .actif).bind
        fun k₂ kc₂ _ (represente₂ : Represente H k₂ kc₂) => ?_
      refine Simule.ite (by rw [represente₂.pid, represente₂.pidActif]) (fun _ => ⟨kc₂, rfl, represente₂⟩)
        fun _ => ?_
      rw [represente.pidActif]
      refine (cederLaMain_simule represente₂ k.pidActif).bind fun k₃ kc₃ _ represente₃ => ?_
      exact Simule.ite Iff.rfl (fun _ => ⟨kc₃, rfl, represente₃⟩) fun _ => .ok represente₃

theorem Represente.endormisMemoire (represente : Represente H k kc) :
    Maillons.queueForEach kc.liens tours .teteEndormis = .ok (k.endormis.map .endormi) := by
  have sorte := Sorte.endormis H k
  exact queueForEach_eq (represente.anneaux.ring .teteEndormis trivial)
    (represente.borne sorte.tete sorte.liste)

theorem Represente.premierDu (represente : Represente H k kc) :
    (k.endormis.map Maillon.endormi).find? (estDu kc.noyau) =
      (k.endormis.find? fun i => (k.table i).waitIemeInterruptionClock ≤ k.horloge).map .endormi := by
  rw [List.find?_map, represente.noyau]
  rfl

theorem parcourEndormis_simule (n : Nat) (represente : Represente H k kc) :
    Simule H id (Kernel.parcourEndormis n k) (Kernel.Chaine.parcourEndormis n kc) := by
  have lecture : lire (Maillons.queueForEach kc.liens tours .teteEndormis) = .ok (k.endormis.map .endormi) := by
    rw [represente.endormisMemoire]
    rfl
  induction n generalizing k kc with
  | zero =>
      unfold Kernel.parcourEndormis Kernel.Chaine.parcourEndormis
      rw [lecture]
      simp only [bind, Except.bind, represente.premierDu]
      cases k.endormis.find? fun i => (k.table i).waitIemeInterruptionClock ≤ k.horloge with
      | none => exact .ok represente
      | some attend => trivial
  | succ n ih =>
      unfold Kernel.parcourEndormis Kernel.Chaine.parcourEndormis
      rw [lecture]
      simp only [bind, Except.bind, represente.premierDu]
      cases k.endormis.find? fun i => (k.table i).waitIemeInterruptionClock ≤ k.horloge with
      | none => exact .ok represente
      | some attend =>
          refine (definirEtat_simule represente attend .activable).bind
            fun k₂ kc₂ _ (represente₂ : Represente H k₂ kc₂) => ih represente₂ ?_
          rw [represente₂.endormisMemoire]
          rfl

theorem ticPIT_simule (represente : Represente H k kc) :
    Simule H id (Kernel.ticPIT k) (Kernel.Chaine.ticPIT kc) := by
  have represente₁ := represente.change (fun n => { n with horloge := n.horloge + 1 }) (fun _ => rfl) rfl rfl rfl
  unfold Kernel.ticPIT Kernel.Chaine.ticPIT
  have elements := represente₁.endormisMemoire
  simp only [elements, bind, Except.bind, lire, List.length_map]
  exact (parcourEndormis_simule _ represente₁).bind fun k₂ kc₂ _ (represente₂ : Represente H k₂ kc₂) =>
    ordonnancer_simule represente₂

end ProjetSysteme.Invariant.Chaine
