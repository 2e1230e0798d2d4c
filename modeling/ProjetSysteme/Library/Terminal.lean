/- Library/Terminal
   digest: A page without bottom and the scrolling window that shows its last lines. -/

import Mathlib.Tactic.Common

set_option autoImplicit false
set_option relaxedAutoImplicit false

namespace ProjetSysteme.Library.Terminal

universe u v w

structure Page (A : Type u) where
  cell : Nat → Nat → A
  line : Nat
  column : Nat

/-- What one character does on the line of the cursor: at most one cell written, the
column it goes to, and whether it goes to the next line. -/
structure Stroke (A : Type u) where
  write : Option (Nat × A)
  column : Nat
  down : Bool

variable {A : Type u} {C : Type v}

structure Stroke.Fits (width : Nat) (s : Stroke A) : Prop where
  write : ∀ column a, s.write = some (column, a) → column < width
  column : s.column < width

namespace Page

def put (cell : Nat → Nat → A) (line : Nat) : Option (Nat × A) → Nat → Nat → A
  | none => cell
  | some (column, a) => fun l c => if l = line ∧ c = column then a else cell l c

theorem put_of_ne {cell : Nat → Nat → A} {line l : Nat} (write : Option (Nat × A)) (c : Nat) (other : l ≠ line) :
    put cell line write l c = cell l c := by
  cases write with
  | none => rfl
  | some written => exact if_neg fun at_ => other at_.1

def draw (s : Stroke A) (p : Page A) : Page A :=
  { cell := put p.cell p.line s.write, line := p.line + s.down.toNat, column := s.column }

/-- The lines move up by one, and the last of `height` becomes blank. -/
def scroll (height : Nat) (blank : A) (p : Page A) : Page A :=
  { p with cell := fun l c => if l + 1 = height then blank else p.cell (l + 1) c, line := p.line - 1 }

/-- A stroke on a screen of `height` lines, which scrolls when the cursor leaves it. -/
def drawWithin (height : Nat) (blank : A) (s : Stroke A) (p : Page A) : Page A :=
  if p.line + s.down.toNat = height then (p.draw s).scroll height blank else p.draw s

def scrolls (height : Nat) (s : Stroke A) (p : Page A) : Bool := decide (p.line + s.down.toNat = height)

/-- The page once a text is written, each character by its rule at the column it finds. -/
def write (rule : C → Nat → Stroke A) (text : List C) (p : Page A) : Page A :=
  text.foldl (fun p c => p.draw (rule c p.column)) p

/-- Two pages with the same cursor and the same cells in `height` lines and `width` columns. -/
structure Agree (height width : Nat) (p q : Page A) : Prop where
  cell : ∀ l < height, ∀ c < width, p.cell l c = q.cell l c
  line : p.line = q.line
  column : p.column = q.column

/-- The screen is the window on the page from its line `offset`, and the page is
blank below it. -/
structure Window (height width : Nat) (blank : A) (offset : Nat) (page screen : Page A) : Prop where
  cell : ∀ l < height, ∀ c < width, screen.cell l c = page.cell (l + offset) c
  below : ∀ l, height + offset ≤ l → ∀ c < width, page.cell l c = blank
  line : screen.line + offset = page.line
  column : screen.column = page.column
  lineInside : screen.line < height
  columnInside : screen.column < width

namespace Window

variable {height width : Nat} {blank : A} {offset : Nat} {page screen screen' : Page A}

theorem congr (window : Window height width blank offset page screen) (agree : Agree height width screen' screen) :
    Window height width blank offset page screen' where
  cell := fun l inside c inside' => (agree.cell l inside c inside').trans (window.cell l inside c inside')
  below := window.below
  line := (congrArg (· + offset) agree.line).trans window.line
  column := agree.column.trans window.column
  lineInside := agree.line ▸ window.lineInside
  columnInside := agree.column ▸ window.columnInside

private theorem put_cell (window : Window height width blank offset page screen) (write : Option (Nat × A)) {l c : Nat}
    (inside : l < height) (inside' : c < width) :
    put screen.cell screen.line write l c = put page.cell page.line write (l + offset) c := by
  have here := window.cell l inside c inside'
  have same : l = screen.line ↔ l + offset = page.line := by
    have line := window.line
    omega
  cases write with
  | none => exact here
  | some written =>
      show (if l = screen.line ∧ c = written.1 then written.2 else screen.cell l c) =
        if l + offset = page.line ∧ c = written.1 then written.2 else page.cell (l + offset) c
      simp only [same, here]

private theorem put_below (window : Window height width blank offset page screen) (write : Option (Nat × A)) {l c : Nat}
    (under : height + offset ≤ l) (inside : c < width) : put page.cell page.line write l c = blank := by
  have line := window.line
  have lineInside := window.lineInside
  rw [put_of_ne write c (by omega)]
  exact window.below l under c inside

private theorem draw_inside (window : Window height width blank offset page screen) {s : Stroke A} (fits : s.Fits width)
    (stays : screen.line + s.down.toNat ≠ height) :
    Window height width blank offset (page.draw s) (screen.draw s) where
  cell := fun _ inside _ inside' => window.put_cell s.write inside inside'
  below := fun _ under _ inside => window.put_below s.write under inside
  line := by
    show screen.line + s.down.toNat + offset = page.line + s.down.toNat
    have line := window.line
    omega
  column := rfl
  lineInside := by
    show screen.line + s.down.toNat < height
    have lineInside := window.lineInside
    have one := Bool.toNat_le s.down
    omega
  columnInside := fits.column

private theorem draw_scroll (window : Window height width blank offset page screen) {s : Stroke A} (fits : s.Fits width)
    (leaves : screen.line + s.down.toNat = height) :
    Window height width blank (offset + 1) (page.draw s) ((screen.draw s).scroll height blank) where
  cell := by
    intro l inside c inside'
    show (if l + 1 = height then blank else put screen.cell screen.line s.write (l + 1) c) =
      put page.cell page.line s.write (l + (offset + 1)) c
    have next : l + (offset + 1) = l + 1 + offset := by omega
    rw [next]
    split
    · next last => exact (window.put_below s.write (by omega) inside').symm
    · next notLast => exact window.put_cell s.write (by omega) inside'
  below := fun _ under _ inside => window.put_below s.write (by omega) inside
  line := by
    show screen.line + s.down.toNat - 1 + (offset + 1) = page.line + s.down.toNat
    have line := window.line
    have lineInside := window.lineInside
    omega
  column := rfl
  lineInside := by
    show screen.line + s.down.toNat - 1 < height
    have lineInside := window.lineInside
    omega
  columnInside := fits.column

theorem draw (window : Window height width blank offset page screen) {s : Stroke A} (fits : s.Fits width) :
    Window height width blank (offset + (screen.scrolls height s).toNat) (page.draw s)
      (screen.drawWithin height blank s) := by
  unfold drawWithin scrolls
  split
  · next leaves =>
      rw [decide_eq_true leaves]
      exact window.draw_scroll fits leaves
  · next stays =>
      rw [decide_eq_false stays]
      exact window.draw_inside fits stays

end Window

section Run

variable {S : Type w} {height width : Nat} {blank : A} {rule : C → Nat → Stroke A}
  {view : S → Page A} {count : S → Nat} {step : S → C → S} {Keeps : S → Prop}

/-- What a step of a machine does when it draws the stroke of the rule on its screen,
counts when it scrolls and keeps its invariant. -/
structure Draws (height width : Nat) (blank : A) (rule : C → Nat → Stroke A) (view : S → Page A) (count : S → Nat)
    (Keeps : S → Prop) (c : C) (s s' : S) : Prop where
  agree : Agree height width (view s') ((view s).drawWithin height blank (rule c (view s).column))
  count : count s' = count s + ((view s).scrolls height (rule c (view s).column)).toNat
  keeps : Keeps s'

theorem Window.run (fits : ∀ c column, column < width → (rule c column).Fits width)
    (draws : ∀ s c, Keeps s → (view s).line < height → (view s).column < width →
      Draws height width blank rule view count Keeps c s (step s c))
    (text : List C) {s : S} {page : Page A} {offset base : Nat} (keeps : Keeps s) (counted : count s = base + offset)
    (window : Window height width blank offset page (view s)) :
    ∃ offset', Keeps (text.foldl step s) ∧ count (text.foldl step s) = base + offset' ∧
      Window height width blank offset' (page.write rule text) (view (text.foldl step s)) := by
  induction text generalizing s page offset with
  | nil => exact ⟨offset, keeps, counted, window⟩
  | cons c text ih =>
      have drawn := draws s c keeps window.lineInside window.columnInside
      have next := (window.draw (fits c _ window.columnInside)).congr drawn.agree
      have scrolled := drawn.count
      rw [window.column] at next scrolled
      refine ih drawn.keeps ?_ next
      rw [scrolled, counted, Nat.add_assoc]

end Run

end Page

end ProjetSysteme.Library.Terminal
