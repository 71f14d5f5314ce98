import ClusterConsole.Text.Blank
import ClusterConsole.Text.Width

/-!
# Wrapping

A long line is cut between words so that no part is wider than the limit; a word
that is wider itself is cut where the limit is reached. Blanks at a cut are
dropped as far as they would have fit, others stay. What is counted are glyphs.
-/

namespace ClusterConsole.Screen.Wrap

/-- A glyph, of which a line is made up. -/
abbrev Glyph := List Char

/-- The width of glyphs. -/
def width (gs : List Glyph) : Nat := gs.foldr (fun g n => Text.glyphWidth g + n) 0

/-- Whether a line may be cut at the glyph: it is blank and does not forbid that. -/
def isGap (g : Glyph) : Bool := g == ['\u200B'] || (g.all Text.isBlank && g != ['\u00A0'])

/-- The lines that are finished, the open line, and behind it the open blanks and
the open word. -/
structure State where
  finished : List (List Glyph)
  line : List Glyph
  blanks : List Glyph
  word : List Glyph
  afterWord : Bool
  deriving Repr

namespace State

def start : State := ⟨[], [], [], [], false⟩

/-- The open blanks and the open word put on the line. -/
def commit (s : State) : State :=
  { s with line := s.line ++ s.blanks ++ s.word, blanks := [], word := [] }

/-- The blanks that are left when those are dropped that fit in `room`. -/
def dropFitting : Nat → List Glyph → List Glyph
  | _, [] => []
  | room, g :: gs =>
      if Text.glyphWidth g ≤ room then dropFitting (room - Text.glyphWidth g) gs else g :: gs

/-- One more glyph. -/
def push (limit : Nat) (s : State) (g : Glyph) : State :=
  let w := Text.glyphWidth g
  if w > limit then s
  else
    let gap := isGap g
    let overflow := s.line.isEmpty && decide (width s.word + width s.blanks + w > limit)
    let s := if (s.afterWord && gap) || overflow then s.commit else s
    let full :=
      width s.line ≥ limit ∨ (w > 0 ∧ width s.line + width s.blanks + width s.word ≥ limit)
    let blanks := if full then dropFitting (limit - width s.line) s.blanks else s.blanks
    let s := if full then
        { s with finished := s.finished ++ [s.line], line := [], blanks := blanks }
      else s
    if full ∧ gap ∧ blanks = [] then s
    else if gap then { s with blanks := s.blanks ++ [g], afterWord := false }
    else { s with word := s.word ++ [g], afterWord := true }

/-- All lines, the open one included. -/
def finish (s : State) : List (List Glyph) :=
  let extra := if s.line = [] ∧ s.word = [] ∧ s.blanks ≠ [] then [[]] else []
  let last := s.line ++ s.blanks ++ s.word
  let all := s.finished ++ extra ++ (if last = [] then [] else [last])
  if all = [] then [[]] else all

end State

/-- The parts of a line. -/
def line (limit : Nat) (gs : List Glyph) : List (List Glyph) :=
  (gs.foldl (State.push limit) State.start).finish

end ClusterConsole.Screen.Wrap
