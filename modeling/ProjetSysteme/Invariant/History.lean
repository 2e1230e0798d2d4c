/- Invariant/History
   digest: Starts, ends and collections of processes, as an event records them. -/

import ProjetSysteme.Invariant.Health

set_option autoImplicit false
set_option relaxedAutoImplicit false

namespace ProjetSysteme.Invariant

open Kernel Library.PriorityList

def estVital : Fait → Bool
  | .demarrage .. | .fin .. | .terminaison _ | .recuperation .. => true
  | _ => false

def vitaux (k : Noyau) : List Fait := k.journal.filter estVital

theorem vitaux_noter {k : Noyau} {f : Fait} (autre : estVital f = false) :
    vitaux (k.noter f) = vitaux k := by
  simp [vitaux, Noyau.noter, autre]

theorem vitaux_noter_vital {k : Noyau} {f : Fait} (vital : estVital f = true) :
    vitaux (k.noter f) = f :: vitaux k := by
  simp [vitaux, Noyau.noter, vital]

theorem vitaux_congr {k k' : Noyau} (journal : k'.journal = k.journal) : vitaux k' = vitaux k := by
  rw [vitaux, journal, vitaux]

theorem vitaux_renvoieActif (k : Noyau) (v : Int) : vitaux (k.renvoieActif v) = vitaux k := by
  unfold Noyau.renvoieActif
  split <;> rfl

theorem Neutre.vitaux {k k' : Noyau} (neutre : Neutre k k') : vitaux k' = vitaux k := by
  rcases neutre.journal with meme | ⟨f, plus, sorte⟩
  · exact vitaux_congr meme
  · have autre : estVital f = false := by
      cases f <;> first | rfl | exact sorte.elim
    rw [Invariant.vitaux, plus, List.filter_cons_of_neg (by simp [autre]), Invariant.vitaux]

theorem Change.vitaux {k k' : Noyau} {pr : Indice} {e : EtatProcessus} (change : Change k pr e k') :
    vitaux k' = vitaux k := vitaux_congr (by rw [change.noyau])

theorem Vide.vitaux {k k' : Noyau} {fid : IndiceFile} (vide : Vide fid k k') :
    vitaux k' = vitaux k := by
  rw [Invariant.vitaux, vide.noyau]
  rfl

/-- The process has not terminated. -/
def Survit (k : Noyau) (i : Indice) : Prop :=
  (k.table i).etat ≠ .mort ∧ (k.table i).etat ≠ .zombie

instance (k : Noyau) (i : Indice) : Decidable (Survit k i) := inferInstanceAs (Decidable (_ ∧ _))

theorem Vif.survit {k k' : Noyau} (vif : Vif k k') (i : Indice) : Survit k' i ↔ Survit k i := by
  rw [Survit, Ne, vif.mort, Ne, vif.zombie, Survit]

/-- The event asks for the end of process `z`: by its own call, by a call of kill, or
after a failed `confirme`. -/
def Mourant (k : Noyau) (z : Indice) : Evenement → Prop
  | .appel (.exit _) | .appel (.finCode _) => k.pidActif = some z
  | .appel (.kill pid) => indice? pid = some z
  | .reprise => k.pidActif = some z ∧ (k.table z).suite = .finConfirme
  | _ => False

instance (k : Noyau) (z : Indice) (e : Evenement) : Decidable (Mourant k z e) := by
  induction e using Evenement.casesOn with
  | appel a => induction a using Appel.casesOn <;> (unfold Mourant; infer_instance)
  | _ => unfold Mourant; infer_instance

inductive Filiation (e : Evenement) (k : Noyau) : Noyau → Prop
  | stable {k' : Noyau} (vif : Vif k k') (faits : vitaux k' = vitaux k) : Filiation e k k'
  | naissance {k' : Noyau} {pid : Indice} (mort : (k.table pid).etat = .mort)
      (vivant : (k'.table pid).etat ≠ .mort ∧ (k'.table pid).etat ≠ .zombie)
      (pere : (k'.table pid).pere = k.pidActif)
      (autres : ∀ j, j ≠ pid → (k'.table j).pere = (k.table j).pere ∧
        (k'.table j).etat = (k.table j).etat)
      (faits : vitaux k' = .demarrage k.pidActif pid :: vitaux k) : Filiation e k k'
  | fin {k₁ k' : Noyau} {z : Indice} (mourant : Mourant k z e) (vif : Vif k k₁)
      (vivant : (k.table z).etat ≠ .mort) (nonZombie : (k.table z).etat ≠ .zombie)
      (fin : Terminaison k₁ z k') (faits : vitaux k' = .terminaison z :: vitaux k ∨
        ∃ v, vitaux k' = .terminaison z :: .fin z v :: vitaux k) : Filiation e k k'
  | recolte {k₁ k' : Noyau} {a c : Indice} (vif : Vif k k₁) (pere : (k.table c).pere = some a)
      (zombie : (k.table c).etat = .zombie) (fin : Termine c .mort k₁ k')
      (faits : vitaux k' = vitaux k ∨
        vitaux k' = .recuperation a c (k.table c).retval :: vitaux k) : Filiation e k k'

theorem Terminaison.vitaux {k k' : Noyau} {pr : Indice} (fin : Terminaison k pr k') :
    vitaux k' = .terminaison pr :: vitaux k := by
  cases fin with
  | @mort k₁ m pere fin =>
      rw [vitaux_noter_vital rfl, fin.noyau]
      rfl
  | @zombie k₁ k₂ m p pere reveille seul fin =>
      rw [vitaux_noter_vital rfl, fin.noyau, reveille.noyau]
      rfl

theorem Reveils.vif {k k' : Noyau} (reveils : Reveils k k') :
    Vif k k' ∧ vitaux k' = vitaux k := by
  induction reveils with
  | fin k => exact ⟨.of_vue (.refl k), rfl⟩
  | suivant endormi change reste ih =>
      have vif := Vif.of_change change (by simp [endormi]) simple_activable
      exact ⟨vif.trans ih.1, ih.2.trans change.vitaux⟩

theorem Filiation.bloque {e : Evenement} {k k₁ k' : Noyau} {a : Indice} {etat : EtatProcessus}
    (change : Change k₁ a etat k') (sain : Sain k) (actif : k.pidActif = some a)
    (simple : Simple etat) (vue : MemeVue k k₁) (journal : k₁.journal = k.journal) :
    Filiation e k k' :=
  .stable (.of_bloque vue change simple (sain.actif a actif))
    (change.vitaux.trans (vitaux_congr journal))

theorem EffetProcessus.filiation {e : Evenement} {k k' : Noyau} (sain : Sain k)
    (effet : EffetProcessus e k k') : Filiation e k k' := by
  cases effet with
  | neutre avant neutre =>
      exact .stable (.of_vue (.of_table neutre.table neutre.activables neutre.endormis neutre.pidActif))
        neutre.vitaux
  | @rendre k₁ a s actif avant apres neutre =>
      refine .stable (.of_vue (MemeVue.trans ?_ (.suspend k₁ a s))) neutre.vitaux
      exact .of_table neutre.table neutre.activables neutre.endormis neutre.pidActif
  | @dormir _ a s clock actif nonZero avant apres change =>
      exact .bloque change sain actif ⟨by simp, by simp, by simp⟩
        (.prepare k a s fun _ => ⟨rfl, rfl, rfl, rfl, rfl⟩) rfl
  | @demarrer _ pid prio args code pageDirectory m avant libre change =>
      obtain ⟨mort, autre⟩ := sain.libre libre
      have etat : (k'.table pid).etat = .activable := by rw [change.etat, if_pos rfl]
      refine .naissance mort (by simp [etat]) ?_ (fun j autreJ => ?_) ?_
      · rw [change.champs, demarrage_soi _ _ _ _ _ _ _ autre]
        rfl
      · rw [change.table_ne autreJ]
        exact (demarrage_autre _ _ _ _ _ _ _ autreJ).symm
      · rw [change.vitaux, vitaux_renvoieActif, vitaux_noter_vital rfl,
          vitaux_congr (k := k) (by rw [installerProcessus_noyau])]
  | @tuer _ a pr pid actif avant appel cible nonZero vivant nonZombie fin =>
      subst appel
      exact .fin cible (.of_vue (.renvoie k a 0)) vivant nonZombie fin (.inl fin.vitaux)
  | @sortir _ a s v actif nonZero avant apres fin =>
      have actifA := sain.actif a actif
      have mourant : Mourant k a e := by
        rcases apres with ⟨rfl, _⟩ | ⟨rfl, _⟩ <;> exact actif
      exact .fin mourant (.of_vue (sortie_prepare k a v s).vue) (by simp [actifA]) (by simp [actifA]) fin
        (.inr ⟨v, fin.vitaux⟩)
  | @achever _ a actif nonZero reprise suite fin =>
      have actifA := sain.actif a actif
      subst reprise
      exact .fin ⟨actif, suite⟩ (.of_vue (.suspend k a _)) (by simp [actifA]) (by simp [actifA]) fin
        (.inl fin.vitaux)
  | @attendre _ a retvalp actif nonZero avant fils aucun change =>
      exact .bloque change sain actif ⟨by simp, by simp, by simp⟩
        (.prepare k a _ fun _ => ⟨rfl, rfl, rfl, rfl, rfl⟩) rfl
  | @attendreFils _ a c retvalp actif nonZero avant pere vivant nonZombie change =>
      exact .bloque change sain actif ⟨by simp, by simp, by simp⟩
        (.prepare k a _ fun _ => ⟨rfl, rfl, rfl, rfl, rfl⟩) rfl
  | @recuperer k₁ _ a c retvalp actif avant pere zombie attend fin =>
      have recolte := recolte_prepare attend c retvalp (k.table c).retval
      refine .recolte (.of_vue recolte.vue) pere zombie fin ?_
      have journal : k'.journal = if retvalp then
          .recuperation a c (k.table c).retval :: k.journal else k.journal := by
        rw [fin.noyau]
        exact recolte_journal attend c retvalp _
      cases retvalp with
      | true => exact .inr ((vitaux_congr journal).trans (vitaux_noter_vital rfl))
      | false => exact .inl (vitaux_congr journal)
  | @reclasser k₁ a pr prio oldprio actif avant vivant reclasse =>
      exact .stable ((Vif.of_reclasse reclasse).trans (.of_vue (.renvoie k₁ a oldprio)))
        (vitaux_congr (by rw [Noyau.renvoie, Noyau.suspend, Noyau.modifie, reclasse.noyau]))
  | tic horloge appel avant reveils =>
      obtain ⟨vif, faits⟩ := reveils.vif
      exact .stable ⟨vif.pere, vif.mort, vif.zombie⟩ faits
  | @entrerConsole k₁ _ a length actif nonZero appel avant entree change =>
      obtain ⟨console, _, rfl, _⟩ := entree
      have vue : MemeVue k { k with console := console } := .of_table rfl rfl rfl rfl
      exact .bloque change sain actif ⟨by simp, by simp, by simp⟩ (vue.trans (.suspend _ a _)) rfl
  | @sortirConsole k₁ k₂ _ p avant sortie change neutre =>
      obtain ⟨console, _, rfl, _, queue⟩ := sortie
      have lecteur := sain.console.bloques p (by simp [queue])
      have vif : Vif { k with console := console } k₂ :=
        .of_change change (by simp [lecteur]) simple_activable
      have vif' : Vif k₂ k' :=
        .of_vue (.of_table neutre.table neutre.activables neutre.endormis neutre.pidActif)
      have suite := vif.trans vif'
      exact .stable ⟨suite.pere, suite.mort, suite.zombie⟩ (neutre.vitaux.trans change.vitaux)
  | @finReception a actif suite => exact .stable (.of_vue (finAppelFile_vue k a 0)) rfl

theorem Filiation.finAppelFile {e : Evenement} {k k₁ : Noyau} (a : Indice) (v : Int) (vif : Vif k k₁)
    (faits : vitaux k₁ = vitaux k) : Filiation e k (finAppelFile k₁ a v) :=
  .stable (vif.trans (.of_vue (finAppelFile_vue k₁ a v))) faits

theorem EffetFile.filiation {e : Evenement} {k k' : Noyau} (sain : Sain k) (effet : EffetFile e k k') :
    Filiation e k k' := by
  have table : ∀ {k₁ : Noyau}, k₁.table = k.table → Vif k k₁ := fun meme =>
    ⟨fun j => by rw [meme], fun j => by rw [meme], fun j => by rw [meme]⟩
  cases effet with
  | @creer a fid count nbFiles actif avant appel positif libre =>
      refine .stable (Vif.trans ?_ (.of_vue (.renvoie _ a _))) rfl
      exact table rfl
  | @bloquerReception k₁ a fid actif nonZero appel vide drapeau change =>
      have bloque : Vif k k₁ := .of_bloque ((MemeVue.modifieFile k fid _).trans (.suspend _ a _))
        change ⟨by simp, by simp, by simp⟩ (sain.actif a actif)
      exact .stable ⟨bloque.pere, bloque.mort, bloque.zombie⟩ change.vitaux
  | @bloquerEnvoi k₁ a fid message actif nonZero appel neuf plein drapeau change =>
      have bloque : Vif k k₁ := .of_bloque ((MemeVue.modifieFile k fid _).trans (.suspend _ a _))
        change ⟨by simp, by simp, by simp⟩ (sain.actif a actif)
      exact .stable ⟨bloque.pere, bloque.mort, bloque.zombie⟩ change.vitaux
  | @prendre a fid message reste actif appel drapeau tete sans =>
      exact .finAppelFile a 0 (table rfl) (vitaux_noter rfl)
  | @prendreReveil k₁ a fid message reste q actif nonZero appel drapeau tete plein dernier change =>
      have etat := (sain.files.emetteurs fid q (last_mem dernier)).1
      have eveil : Vif k k₁ := by
        refine Vif.trans ?_ (.of_change change ?_ simple_activable)
        · exact .of_vue (((MemeVue.modifieFile k fid _).trans (.noter _ _)).trans (.suspend _ a _))
        · rw [(MemeVue.suspend _ a _).etat, Noyau.noter_table, Noyau.modifieFile_table, etat]
          exact EtatProcessus.noConfusion
      exact .stable ⟨eveil.pere, eveil.mort, eveil.zombie⟩ (change.vitaux.trans (vitaux_noter rfl))
  | @deposer a fid message actif appel place drapeau sans =>
      exact .finAppelFile a 0 (table rfl) (vitaux_noter rfl)
  | @deposerReveil k₁ a fid message q actif appel place drapeau vide dernier change =>
      have etat := (sain.files.recepteurs fid q (last_mem dernier)).1
      have eveil : Vif k k₁ := by
        refine Vif.trans ?_ (.of_change change ?_ simple_activable)
        · exact .of_vue ((MemeVue.modifieFile k fid _).trans (.noter _ _))
        · rw [Noyau.noter_table, Noyau.modifieFile_table, etat]
          exact EtatProcessus.noConfusion
      exact .finAppelFile a 0 ⟨eveil.pere, eveil.mort, eveil.zombie⟩
        (change.vitaux.trans (vitaux_noter rfl))
  | @refuser a fid actif appel drapeau => exact .finAppelFile a (-1) (table rfl) rfl
  | @abandonner a fid message actif reprise suite plein => exact .stable (.of_vue (.renvoie k a _)) rfl
  | @vider k₁ a fid n actif avant appel ouverte vide =>
      exact .stable ((vide.vif sain.files).trans (.of_vue (.renvoie k₁ a 0))) vide.vitaux
  | @supprimer k₁ a fid n nbFiles actif avant appel ouverte vide =>
      have vif := vide.vif sain.files
      have supprimee : Vif k (({ k₁.modifieFile fid (fun f => { f with size := 0, statut := false }) with
          nbFiles := nbFiles } : Noyau).noter (.destruction fid)) := ⟨vif.pere, vif.mort, vif.zombie⟩
      exact .stable (supprimee.trans (.of_vue (.renvoie _ a 0))) vide.vitaux

theorem Effet.filiation {e : Evenement} {k k' : Noyau} (sain : Sain k) (effet : Effet e k k') :
    Filiation e k k' := by
  cases effet with
  | processus effet => exact effet.filiation sain
  | file effet => exact effet.filiation sain

theorem vitaux_enregistrer (k : Noyau) (e : Evenement) : vitaux (enregistrer k e) = vitaux k := by
  rcases enregistrer_cas k e with meme | ⟨a, x, _, _, note⟩
  · rw [meme]
  · rw [note, vitaux_noter rfl]

/-- The number of processes that were started in the slot `i`. -/
def demarrages (i : Indice) (l : List Fait) : Nat :=
  l.countP fun f => match f with
    | .demarrage _ j => j = i
    | _ => false

theorem demarrages_vitaux (i : Indice) (k : Noyau) : demarrages i (vitaux k) = demarrages i k.journal := by
  unfold demarrages vitaux
  rw [List.countP_filter]
  refine List.countP_congr fun f _ => ?_
  cases f <;> simp [estVital]

theorem Filiation.demarrages_le {e : Evenement} {k k' : Noyau} (filiation : Filiation e k k')
    (i : Indice) : demarrages i (vitaux k) ≤ demarrages i (vitaux k') := by
  refine List.Sublist.countP_le ?_
  cases filiation with
  | stable vif faits => simp [faits]
  | naissance mort vivant pere autres faits => simp [faits]
  | fin mourant vif vivant nonZombie fin faits =>
      rcases faits with faits | ⟨v, faits⟩
      · simp [faits]
      · rw [faits]
        exact (List.sublist_cons_self ..).trans (List.sublist_cons_self ..)
  | recolte vif pere zombie fin faits =>
      rcases faits with faits | faits <;> simp [faits]

theorem Termine.non_survit {k k' : Noyau} {z i : Indice} {e : EtatProcessus} (fin : Termine z e k k')
    (autre : i ≠ z) (fini : ¬ Survit k i) : ¬ Survit k' i := by
  rcases fin.etat autre with etat | ⟨_, mort⟩
  · rwa [Survit, etat]
  · simp [Survit, mort]

theorem Termine.mort_garde {k k' : Noyau} {z i : Indice} {e : EtatProcessus} (fin : Termine z e k k')
    (autre : i ≠ z) (mort : (k.table i).etat = .mort) : (k'.table i).etat = .mort := by
  rcases fin.etat autre with etat | ⟨_, mort'⟩
  · rw [etat, mort]
  · exact mort'

theorem Filiation.fini {e : Evenement} {k k' : Noyau} (filiation : Filiation e k k') {i : Indice}
    (fini : ¬ Survit k i) :
    ¬ Survit k' i ∨ demarrages i (vitaux k) < demarrages i (vitaux k') := by
  cases filiation with
  | stable vif faits => exact .inl (mt (vif.survit i).mp fini)
  | @naissance _ pid mort vivant pere autres faits =>
      by_cases nouveau : i = pid
      · right
        rw [faits, demarrages, demarrages, List.countP_cons_of_pos (by simp [nouveau])]
        exact Nat.lt_succ_self _
      · rw [Survit, (autres i nouveau).2]
        exact .inl fini
  | @fin k₁ _ z mourant vif vivant nonZombie fin faits =>
      left
      have autre : i ≠ z := by
        rintro rfl
        exact fini ⟨vivant, nonZombie⟩
      cases fin with
      | mort pere fin => exact fin.non_survit autre (mt (vif.survit i).mp fini)
      | zombie pere reveille seul fin =>
          have vif₂ := vif.trans (.of_pereReveille reveille)
          exact fin.non_survit autre (mt (vif₂.survit i).mp fini)
  | @recolte k₁ _ a c vif pere zombie fin faits =>
      left
      by_cases meme : i = c
      · simp [Survit, meme, fin.etat_soi]
      · exact fin.non_survit meme (mt (vif.survit i).mp fini)

theorem Filiation.detruit {e : Evenement} {k k' : Noyau} (filiation : Filiation e k k') {i : Indice}
    (mort : (k.table i).etat = .mort) :
    (k'.table i).etat = .mort ∨ demarrages i (vitaux k) < demarrages i (vitaux k') := by
  have fini : ¬ Survit k i := fun survit => survit.1 mort
  cases filiation with
  | stable vif faits => exact .inl ((vif.mort i).mpr mort)
  | @naissance _ pid libre vivant pere autres faits =>
      refine (Filiation.fini (e := e) (.naissance libre vivant pere autres faits) fini).imp
        (fun fini' => ?_) id
      by_cases nouveau : i = pid
      · rw [nouveau] at fini'
        exact absurd vivant fini'
      · rw [(autres i nouveau).2]
        exact mort
  | @fin k₁ _ z mourant vif vivant nonZombie fin faits =>
      left
      have autre : i ≠ z := by
        rintro rfl
        exact vivant mort
      cases fin with
      | mort pere fin => exact fin.mort_garde autre ((vif.mort i).mpr mort)
      | zombie pere reveille seul fin =>
          exact fin.mort_garde autre (((vif.trans (.of_pereReveille reveille)).mort i).mpr mort)
  | @recolte k₁ _ a c vif pere zombie fin faits =>
      left
      by_cases meme : i = c
      · rw [meme, fin.etat_soi]
      · exact fin.mort_garde meme ((vif.mort i).mpr mort)

theorem Etape.filiation {e : Evenement} {k k' : Noyau} (etape : Etape e k k') (sain : Sain k) :
    ∃ k₁, Filiation e (enregistrer k e) k₁ ∧ Vif k₁ k' ∧ vitaux k' = vitaux k₁ := by
  obtain ⟨k₁, effet, fin⟩ := etape
  refine ⟨k₁, effet.filiation (sain.enregistrer e), ?_⟩
  rcases fin with rfl | ord
  · exact ⟨.of_vue (.refl _), rfl⟩
  · exact ⟨.of_ordonnance ord, vitaux_congr (by rw [ord.noyau])⟩

theorem Etape.fini {e : Evenement} {k k' : Noyau} (etape : Etape e k k') (sain : Sain k)
    (i : Indice) : demarrages i k.journal ≤ demarrages i k'.journal ∧
      (¬ Survit k i → ¬ Survit k' i ∨ demarrages i k.journal < demarrages i k'.journal) := by
  obtain ⟨k₁, filiation, vif, faits⟩ := etape.filiation sain
  have survit : Survit (enregistrer k e) i ↔ Survit k i := by
    rw [Survit, enregistrer_table, Survit]
  simp only [← demarrages_vitaux, faits, vif.survit i, ← survit, ← vitaux_enregistrer k e]
  exact ⟨filiation.demarrages_le i, filiation.fini⟩

theorem Etape.detruit {e : Evenement} {k k' : Noyau} (etape : Etape e k k') (sain : Sain k)
    {i : Indice} (mort : (k.table i).etat = .mort) :
    (k'.table i).etat = .mort ∨ demarrages i k.journal < demarrages i k'.journal := by
  obtain ⟨k₁, filiation, vif, faits⟩ := etape.filiation sain
  simp only [← demarrages_vitaux, faits, vif.mort i, ← vitaux_enregistrer k e]
  exact filiation.detruit (by rw [enregistrer_table, mort])

end ProjetSysteme.Invariant
