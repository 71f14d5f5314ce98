import ClusterConsole.Screen.Style
import ClusterConsole.Text.Blank
import ClusterConsole.Text.Width

/-!
# Strips of cells

A line of the screen is a strip of cells, each with a text of one character, its
colours and whether it is bold. Text is painted from left to right as far as the
strip reaches. A strip is read as runs: stretches of cells that look the same,
their blanks drawn together and the blank ones left out.
-/

namespace ClusterConsole.Screen

structure Cell where
  text : String
  fg : Color
  bg : Color
  bold : Bool
  deriving DecidableEq, Repr, Inhabited

namespace Cell

/-- A cell without text in the terminal's own colours. -/
def blank : Cell := ⟨" ", .standard, .standard, false⟩

end Cell

/-- What painting changes in a cell; a colour that is not given stays. -/
structure Paint where
  fg : Option Color
  bg : Option Color
  bold : Bool
  deriving DecidableEq, Repr, Inhabited

namespace Paint

def text (fg : Color) : Paint := ⟨some fg, none, false⟩

def of (fg bg : Color) : Paint := ⟨some fg, some bg, false⟩

def strong (fg bg : Color) : Paint := ⟨some fg, some bg, true⟩

/-- The cell with this paint. -/
def cover (p : Paint) (c : Cell) : Cell :=
  { c with fg := p.fg.getD c.fg, bg := p.bg.getD c.bg, bold := c.bold || p.bold }

end Paint

/-- The cells of one line. -/
abbrev Strip := List Cell

namespace Strip

/-- A blank strip in one colour. -/
def ofWidth (width : Nat) (p : Paint) : Strip := List.replicate width (p.cover Cell.blank)

/-- Paints the cells from a place on, so many of them. -/
def cover (s : Strip) (start width : Nat) (p : Paint) : Strip :=
  s.mapIdx fun i c => if start ≤ i ∧ i < start + width then p.cover c else c

/-- Sets one cell. -/
def set (s : Strip) (i : Nat) (f : Cell → Cell) : Strip := s.modify i f

/-- How glyphs that do not take just one cell are painted. -/
inductive Manner where
  /-- As running text: the cell that a wide glyph covers stays as it was, and a
  glyph without a width is left out. -/
  | running
  /-- As a label: the cell that a wide glyph covers is cleared, and a glyph without
  a width joins the cell before. -/
  | label
  deriving DecidableEq, Repr, Inhabited

/-- The glyphs painted from a place on, and the place behind them. What does not fit
before `limit` is left out. -/
def writeFrom (m : Manner) (limit : Nat) (p : Paint) :
    List (List Char) → Nat → Strip → Strip × Nat
  | [], x, s => (s, x)
  | g :: gs, x, s =>
      match Text.glyphWidth g with
      | 0 =>
          let join (cell : Cell) : Cell :=
            { p.cover cell with text := cell.text ++ String.ofList g }
          writeFrom m limit p gs x (if m = .label ∧ 0 < x then set s (x - 1) join else s)
      | width =>
          if x + width > limit then (s, limit)
          else
            let s := set s x fun cell => { p.cover cell with text := String.ofList g }
            let s :=
              if m = .label ∧ width = 2 then set s (x + 1) fun _ => Cell.blank else s
            writeFrom m limit p gs (x + width) s

/-- A text painted from a place on, with the place behind it. -/
def write (s : Strip) (m : Manner) (x limit : Nat) (p : Paint) (text : List Char) : Strip × Nat :=
  writeFrom m limit p (Text.glyphs text) x s

/-! ## Reading -/

/-- A stretch of cells that look the same. -/
structure Run where
  text : String
  fg : Color
  bg : Color
  bold : Bool
  deriving DecidableEq, Repr, Inhabited

/-- Whether the cell looks like those of the run. -/
def Run.takes (r : Run) (c : Cell) : Bool := r.fg == c.fg && r.bg == c.bg && r.bold == c.bold

/-- The runs of all cells, the text as it is. -/
def allRuns : Strip → List Run
  | [] => []
  | c :: cs =>
      match allRuns cs with
      | r :: rs =>
          if r.takes c then { r with text := c.text ++ r.text } :: rs
          else ⟨c.text, c.fg, c.bg, c.bold⟩ :: r :: rs
      | [] => [⟨c.text, c.fg, c.bg, c.bold⟩]

/-- The runs that show something, their blanks drawn together. -/
def runs (s : Strip) : List Run :=
  (allRuns s).filterMap fun r =>
    match Text.words r.text with
    | [] => none
    | ws => some { r with text := Text.join " " ws }

end Strip

end ClusterConsole.Screen
