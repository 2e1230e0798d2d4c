/- Properties/Screen
   source: kernel/print.c
   digest: The console shows the last 25 lines of a page without bottom. -/

import ProjetSysteme.Kernel.Print
import ProjetSysteme.Library.Terminal

set_option autoImplicit false
set_option relaxedAutoImplicit false

namespace ProjetSysteme.Properties

open Kernel Library.Terminal

/-- The cell written, then the column `col`, or the next line once it is past the last. -/
def avancer (ecrit : Option (Nat × UInt16)) (col : Nat) : Stroke UInt16 :=
  if col ≥ nbColonnes then { write := ecrit, column := 0, down := true }
  else { write := ecrit, column := col, down := false }

/-- The rule of each character, for a cursor at a column: carriage return and backspace
erase the cell they go to, and the last column is followed by the next line. -/
def regle (couleur : UInt16) (c : Int8) (col : Nat) : Stroke UInt16 :=
  if c = 13 then { write := some (0, caseEcran couleur 32), column := 0, down := false }
  else if c = 10 then { write := none, column := 0, down := true }
  else if c = 9 then avancer none (col + 8)
  else if c = 8 then { write := some (col - 1, caseEcran couleur 32), column := col - 1, down := false }
  else avancer (some (col, caseEcran couleur c)) (col + 1)

def pageDe (e : Ecran) : Page UInt16 :=
  { cell := fun l c => if l < nbLignes then e.memoire (ptrMem l c) else 0
    line := e.ligneCurseur
    column := e.colonneCurseur }

def vueEcran (t : Trace) : Page UInt16 :=
  { cell := fun l c => t.ecran.memoire (ptrMem l c), line := t.lig, column := t.col }

private theorem colonnes_pos : 0 < nbColonnes := by decide

section Regle

private theorem avancer_fits {ecrit : Option (Nat × UInt16)} (col : Nat)
    (dedans : ∀ colonne a, ecrit = some (colonne, a) → colonne < nbColonnes) : (avancer ecrit col).Fits nbColonnes := by
  unfold avancer
  split
  · exact ⟨dedans, colonnes_pos⟩
  · next petit => exact ⟨dedans, Nat.not_le.mp petit⟩

private theorem fits_ecrit {col : Nat} {a : UInt16} (dedans : col < nbColonnes) :
    ∀ colonne b, some (col, a) = some (colonne, b) → colonne < nbColonnes := by
  intro colonne b meme
  cases meme
  exact dedans

theorem regle_fits (couleur : UInt16) (c : Int8) {col : Nat} (dedans : col < nbColonnes) :
    (regle couleur c col).Fits nbColonnes := by
  have avant : col - 1 < nbColonnes := Nat.lt_of_le_of_lt (Nat.sub_le ..) dedans
  have rien : ∀ (colonne : Nat) (a : UInt16), none = some (colonne, a) → colonne < nbColonnes := nofun
  unfold regle
  split
  · exact ⟨fits_ecrit colonnes_pos, colonnes_pos⟩
  · split
    · exact ⟨rien, colonnes_pos⟩
    · split
      · exact avancer_fits _ rien
      · split
        · exact ⟨fits_ecrit avant, avant⟩
        · exact avancer_fits _ (fits_ecrit dedans)

end Regle

/-- Between two states of the screen: the cells written are on it, and no other word
of the video memory changes. -/
structure EcritDedans (e e' : Ecran) : Prop where
  ecritures : ∃ ajoutees, e'.ecritures = e.ecritures ++ ajoutees ∧ ∀ x ∈ ajoutees, x.1 < nbLignes ∧ x.2 < nbColonnes
  reste : ∀ w, nbLignes * nbColonnes ≤ w → e'.memoire w = e.memoire w

namespace EcritDedans

theorem refl (e : Ecran) : EcritDedans e e where
  ecritures := ⟨[], (List.append_nil _).symm, nofun⟩
  reste := fun _ _ => rfl

theorem trans {e e' e'' : Ecran} (avant : EcritDedans e e') (apres : EcritDedans e' e'') : EcritDedans e e'' where
  ecritures := by
    obtain ⟨premieres, ajout, dedans⟩ := avant.ecritures
    obtain ⟨dernieres, ajout', dedans'⟩ := apres.ecritures
    refine ⟨premieres ++ dernieres, ?_, ?_⟩
    · rw [ajout', ajout, List.append_assoc]
    · intro x membre
      rcases List.mem_append.mp membre with premier | dernier
      · exact dedans x premier
      · exact dedans' x dernier
  reste := fun w dehors => (apres.reste w dehors).trans (avant.reste w dehors)

theorem ecrit_car (e : Ecran) {lig col : Nat} (c : Int8) (ligne : lig < nbLignes) (colonne : col < nbColonnes) :
    EcritDedans e (ecritCar e lig col c) where
  ecritures := by
    refine ⟨[(lig, col)], rfl, ?_⟩
    intro x membre
    cases List.mem_singleton.mp membre
    exact ⟨ligne, colonne⟩
  reste := by
    intro w dehors
    refine if_neg ?_
    unfold ptrMem nbLignes nbColonnes at *
    omega

end EcritDedans

private theorem cases_depuis_dedans {debut nombre : Nat} (borne : debut + nombre ≤ nbLignes * nbColonnes) :
    ∀ x ∈ casesDepuis debut nombre, x.1 < nbLignes ∧ x.2 < nbColonnes := by
  intro x membre
  obtain ⟨w, dans, rfl⟩ := List.mem_map.mp membre
  obtain ⟨-, haut⟩ := List.mem_range'_1.mp dans
  exact ⟨Nat.div_lt_of_lt_mul (by rw [Nat.mul_comm]; omega), Nat.mod_lt _ colonnes_pos⟩

private theorem dedans_mots {e e' : Ecran} {debut nombre : Nat} (borne : debut + nombre ≤ nbLignes * nbColonnes)
    (ajout : e'.ecritures = e.ecritures ++ casesDepuis debut nombre)
    (reste : ∀ w, ¬ (debut ≤ w ∧ w < debut + nombre) → e'.memoire w = e.memoire w) : EcritDedans e e' where
  ecritures := ⟨_, ajout, cases_depuis_dedans borne⟩
  reste := by
    intro w dehors
    exact reste w (by omega)

private theorem defilement_eq (e : Ecran) :
    defilement e =
      memset (memmove { e with defilements := e.defilements + 1, ligneCurseur := e.ligneCurseur - 1 } 0 nbColonnes
        (nbColonnes * nbLignes)) (24 * nbColonnes) nbColonnes := by
  unfold defilement
  by_cases haut : e.ligneCurseur > 0
  · simp only [if_pos haut]
  · have nul : e.ligneCurseur - 1 = e.ligneCurseur := by omega
    simp only [if_neg haut, nul]

private theorem defilement_dedans (e : Ecran) : EcritDedans e (defilement e) := by
  have copie (e : Ecran) : EcritDedans e (memmove e 0 nbColonnes (nbColonnes * nbLignes)) :=
    dedans_mots (by decide) rfl fun _ dehors => if_neg dehors
  have efface (e : Ecran) : EcritDedans e (memset e (24 * nbColonnes) nbColonnes) :=
    dedans_mots (by decide) rfl fun _ dehors => if_neg dehors
  have globales : EcritDedans e { e with defilements := e.defilements + 1, ligneCurseur := e.ligneCurseur - 1 } :=
    ⟨(EcritDedans.refl e).ecritures, fun _ _ => rfl⟩
  rw [defilement_eq]
  exact (globales.trans (copie _)).trans (efface _)

/-- `defilement` is the scroll of the screen: the copy also moves the line below the
screen into the last line, which is cleared then. -/
private theorem defilement_cellule (e : Ecran) {l c : Nat} (ligne : l < nbLignes) (colonne : c < nbColonnes) :
    (defilement e).memoire (ptrMem l c) = if l + 1 = nbLignes then 0 else e.memoire (ptrMem (l + 1) c) := by
  rw [defilement_eq]
  show (if 24 * nbColonnes ≤ ptrMem l c ∧ ptrMem l c < 24 * nbColonnes + nbColonnes then 0
    else if 0 ≤ ptrMem l c ∧ ptrMem l c < 0 + nbColonnes * nbLignes then e.memoire (nbColonnes + (ptrMem l c - 0))
    else e.memoire (ptrMem l c)) = _
  unfold ptrMem nbColonnes nbLignes at *
  by_cases derniere : l + 1 = 25
  · rw [if_pos (by omega), if_pos derniere]
  · have suivante : 80 + (l * 80 + c - 0) = (l + 1) * 80 + c := by omega
    rw [if_neg (by omega), if_pos (by omega), if_neg derniere, suivante]

structure Dessine (t t' : Trace) (s : Stroke UInt16) : Prop where
  lig : t'.lig = t.lig + s.down.toNat
  col : t'.col = s.column
  cellule : ∀ l, ∀ c < nbColonnes, t'.ecran.memoire (ptrMem l c) = Page.put (vueEcran t).cell t.lig s.write l c
  couleur : t'.ecran.couleurEcritureEcrant = t.ecran.couleurEcritureEcrant
  defilements : t'.ecran.defilements = t.ecran.defilements
  dedans : t.lig < nbLignes → EcritDedans t.ecran t'.ecran

private theorem dessine_rien (t : Trace) (suite : Nat) (bas : Bool) :
    Dessine t { t with lig := t.lig + bas.toNat, col := suite } { write := none, column := suite, down := bas } where
  lig := rfl
  col := rfl
  cellule := fun _ _ _ => rfl
  couleur := rfl
  defilements := rfl
  dedans := fun _ => .refl t.ecran

private theorem dessine_ecrit (t : Trace) {col : Nat} (dedans : col < nbColonnes) (c : Int8) (suite : Nat) (bas : Bool) :
    Dessine t { ecran := ecritCar t.ecran t.lig col c, lig := t.lig + bas.toNat, col := suite }
      { write := some (col, caseEcran t.ecran.couleurEcritureEcrant c), column := suite, down := bas } where
  lig := rfl
  col := rfl
  cellule := by
    intro l colonne inside
    have meme : ptrMem l colonne = ptrMem t.lig col ↔ l = t.lig ∧ colonne = col := by
      unfold ptrMem nbColonnes at *
      omega
    show (if ptrMem l colonne = ptrMem t.lig col then _ else _) = if l = t.lig ∧ colonne = col then _ else _
    simp only [meme]
    rfl
  couleur := rfl
  defilements := rfl
  dedans := fun ligne => .ecrit_car t.ecran c ligne dedans

private theorem dessine_replier {t : Trace} {e : Ecran} {ecrit : Option (Nat × UInt16)} {suite : Nat}
    (dessine : ∀ (suite : Nat) (bas : Bool), Dessine t { ecran := e, lig := t.lig + bas.toNat, col := suite }
      { write := ecrit, column := suite, down := bas }) :
    Dessine t (replier { ecran := e, lig := t.lig, col := suite }) (avancer ecrit suite) := by
  unfold replier avancer
  split
  · exact dessine 0 true
  · exact dessine suite false

private theorem replier_dedans {t : Trace} (dedans : t.col < nbColonnes) : replier t = t :=
  if_neg (Nat.not_le.mpr dedans)

theorem dessine_caractere {t : Trace} (c : Int8) (dedans : t.col < nbColonnes) :
    Dessine t (replier (ecrireCaractere t c)) (regle t.ecran.couleurEcritureEcrant c t.col) := by
  unfold ecrireCaractere regle
  split
  · rw [replier_dedans colonnes_pos]
    exact dessine_ecrit t colonnes_pos 32 0 false
  · split
    · rw [replier_dedans colonnes_pos]
      exact dessine_rien t 0 true
    · split
      · exact dessine_replier fun suite bas => dessine_rien t suite bas
      · split
        · have avant : t.col - 1 < nbColonnes := Nat.lt_of_le_of_lt (Nat.sub_le ..) dedans
          have recule : (if t.col ≠ 0 then t.col - 1 else t.col) = t.col - 1 := by split <;> omega
          simp only [recule]
          rw [replier_dedans avant]
          exact dessine_ecrit t avant 32 (t.col - 1) false
        · exact dessine_replier fun suite bas => dessine_ecrit t dedans c suite bas

structure EcranTenu (e : Ecran) (t : Trace) : Prop where
  dedans : EcritDedans e t.ecran
  couleur : t.ecran.couleurEcritureEcrant = e.couleurEcritureEcrant

theorem tour_draws {e : Ecran} {t : Trace} (c : Int8) (tenu : EcranTenu e t) (ligne : t.lig < nbLignes)
    (colonne : t.col < nbColonnes) :
    Page.Draws nbLignes nbColonnes 0 (regle e.couleurEcritureEcrant) vueEcran (fun t => t.ecran.defilements) (EcranTenu e) c t
      (tourPutbytes t c) := by
  have dessine := dessine_caractere c colonne
  have dedans := tenu.dedans.trans (dessine.dedans ligne)
  have couleur := dessine.couleur.trans tenu.couleur
  rw [tenu.couleur] at dessine
  have plein : (replier (ecrireCaractere t c)).lig = nbLignes ↔
      (vueEcran t).line + (regle e.couleurEcritureEcrant c (vueEcran t).column).down.toNat = nbLignes := by
    rw [dessine.lig]
    exact Iff.rfl
  unfold tourPutbytes
  by_cases bas : (vueEcran t).line + (regle e.couleurEcritureEcrant c (vueEcran t).column).down.toNat = nbLignes
  · rw [if_pos (plein.mpr bas)]
    constructor
    · rw [Page.drawWithin, if_pos bas]
      refine ⟨?_, congrArg (· - 1) dessine.lig, dessine.col⟩
      intro l dessous col dedans
      refine (defilement_cellule _ dessous dedans).trans ?_
      rw [dessine.cellule (l + 1) col dedans]
      rfl
    · show (defilement _).defilements = _
      rw [defilement_eq, Page.scrolls, decide_eq_true bas]
      exact congrArg (· + 1) dessine.defilements
    · refine ⟨dedans.trans (defilement_dedans _), ?_⟩
      show (defilement _).couleurEcritureEcrant = _
      rw [defilement_eq]
      exact couleur
  · rw [if_neg (mt plein.mp bas)]
    constructor
    · rw [Page.drawWithin, if_neg bas]
      exact ⟨fun l _ col dedans => dessine.cellule l col dedans, dessine.lig, dessine.col⟩
    · rw [Page.scrolls, decide_eq_false bas]
      exact dessine.defilements
    · exact ⟨dedans, couleur⟩

private theorem fenetre_debut {e : Ecran} (ligne : e.ligneCurseur < nbLignes) (colonne : e.colonneCurseur < nbColonnes) :
    Page.Window nbLignes nbColonnes 0 0 (pageDe e) (vueEcran { ecran := e, lig := e.ligneCurseur, col := e.colonneCurseur }) where
  cell := fun _ dedans _ _ => (if_pos dedans).symm
  below := fun _ dessous _ _ => if_neg (Nat.not_lt.mpr dessous)
  line := rfl
  column := rfl
  lineInside := ligne
  columnInside := colonne

/-- Only the lines from the number of calls of `defilement` on are left on the screen. -/
theorem console_putbytes_window (e : Ecran) (chaine : List Int8) (ligne : e.ligneCurseur < nbLignes)
    (colonne : e.colonneCurseur < nbColonnes) :
    let f := consolePutbytes e chaine
    let page := (pageDe e).write (regle e.couleurEcritureEcrant) chaine
    let descente := f.defilements - e.defilements
    (∃ ecrites, f.ecritures = e.ecritures ++ ecrites ∧ ∀ x ∈ ecrites, x.1 < nbLignes ∧ x.2 < nbColonnes) ∧
      (∀ w, nbLignes * nbColonnes ≤ w → f.memoire w = e.memoire w) ∧
      f.ligneCurseur < nbLignes ∧ f.colonneCurseur < nbColonnes ∧ e.defilements ≤ f.defilements ∧
      f.ligneCurseur + descente = page.line ∧ f.colonneCurseur = page.column ∧
      ∀ l < nbLignes, ∀ c < nbColonnes, f.memoire (ptrMem l c) = page.cell (l + descente) c := by
  intro f page descente
  have traits : ∀ t c, EcranTenu e t → (vueEcran t).line < nbLignes → (vueEcran t).column < nbColonnes →
      Page.Draws nbLignes nbColonnes 0 (regle e.couleurEcritureEcrant) vueEcran (fun t => t.ecran.defilements) (EcranTenu e) c t
        (tourPutbytes t c) := fun _ c => tour_draws c
  obtain ⟨decalage, tenu, compte, fenetre⟩ := Page.Window.run
    (fun c _ dedans => regle_fits e.couleurEcritureEcrant c dedans) traits chaine ⟨.refl e, rfl⟩ rfl
    (fenetre_debut ligne colonne)
  have compte : f.defilements = e.defilements + decalage := compte
  have descend : descente = decalage := by omega
  rw [descend]
  exact ⟨tenu.dedans.ecritures, tenu.dedans.reste, fenetre.lineInside, fenetre.columnInside, by omega, fenetre.line,
    fenetre.column, fenetre.cell⟩

/-- The cursor at the end of the last line, on cells that hold their own rank. -/
def ecranBas : Ecran :=
  { memoire := UInt16.ofNat
    couleurEcritureEcrant := 0x0F00
    ligneCurseur := 24
    colonneCurseur := 79
    ports := []
    ecritures := []
    defilements := 0 }

theorem console_putbytes_window_bas :
    let f := consolePutbytes ecranBas [65, 10, 66]
    let page := (pageDe ecranBas).write (regle 0x0F00) [65, 10, 66]
    f.defilements = 2 ∧ page.line = 26 ∧ f.memoire (ptrMem 22 79) = 0x0F41 ∧ f.memoire (ptrMem 24 0) = 0x0F42 ∧
      ∀ l < nbLignes, ∀ c < nbColonnes, f.memoire (ptrMem l c) = page.cell (l + 2) c := by
  obtain ⟨-, -, -, -, -, -, -, cellules⟩ := console_putbytes_window ecranBas [65, 10, 66] (by decide) (by decide)
  exact ⟨rfl, rfl, rfl, rfl, cellules⟩

end ProjetSysteme.Properties
