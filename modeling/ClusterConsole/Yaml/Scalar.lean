import ClusterConsole.Yaml.Cursor

/-!
# Scalars

The text of a scalar in each of its styles: plain, in single or double quotes,
and as a block. Within a scalar a single line break between texts is folded into
a space, and blank lines stand for line breaks; literal blocks keep their lines.

Each reader takes a cursor and gives the text with the cursor behind the scalar,
or nothing if the text is no scalar of that style.
-/

namespace ClusterConsole.Yaml

/-- The styles of scalars that readers of values tell apart. -/
inductive Style where
  | plain
  | quoted
  | literal
  | folded
  deriving DecidableEq, Repr, Inhabited

/-- Blanks between two parts of a scalar: spaces within a line, or the first
break and those after it. -/
structure Gap where
  spaces : List Char
  firstBreak : List Char
  laterBreaks : List Char
  /-- Whether a break, or an escaped break, was passed. -/
  broken : Bool
  deriving Inhabited

namespace Gap

def none : Gap := ⟨[], [], [], false⟩

/-- What the gap is folded into. -/
def fold (g : Gap) : List Char :=
  if g.broken then
    if g.firstBreak.head? = some '\n' then
      if g.laterBreaks = [] then [' '] else g.laterBreaks
    else g.firstBreak ++ g.laterBreaks
  else g.spaces

/-- The gap with one more break. -/
def addBreak (g : Gap) (b : List Char) : Gap :=
  if g.broken then { g with laterBreaks := g.laterBreaks ++ b }
  else { g with spaces := [], firstBreak := b, broken := true }

/-- The gap with one more space, which counts within a line only. -/
def addSpace (g : Gap) (x : Char) : Gap :=
  if g.broken then g else { g with spaces := g.spaces ++ [x] }

end Gap

/-- Reads spaces and breaks into a gap. A tab in front of the column `indent` on
a later line is refused. -/
def readGap (indent : Nat) : Nat → Gap → Cursor → Option (Gap × Cursor)
  | 0, g, c => some (g, c)
  | fuel + 1, g, c =>
      match c.head? with
      | some x =>
          if isSpace x then
            if g.broken ∧ c.column < indent ∧ x = '\t' then none
            else readGap indent fuel (g.addSpace x) c.skip
          else if isBreak x then
            let (b, c) := c.readBreak
            readGap indent fuel (g.addBreak b) c
          else some (g, c)
      | .none => some (g, c)

/-! ## Plain scalars -/

/-- Whether a plain scalar ends at the cursor; within brackets more characters
end it. -/
def endsPlain (flow : Bool) (c : Cursor) : Bool :=
  match c.head? with
  | .none => true
  | some x =>
      isSpace x || isBreak x || (x == ':' && c.blankAt 1) ||
        (flow && (x == ',' || x == '[' || x == ']' || x == '{' || x == '}'))

/-- Whether a colon stands at the cursor, within brackets, where it is refused. -/
def strayColon (flow : Bool) (c : Cursor) : Bool :=
  flow && c.sees ':' && (c.ahead? 1).any fun x =>
    x == ',' || x == '?' || x == '[' || x == ']' || x == '{' || x == '}'

/-- Reads the rest of a plain scalar: `gap` is what lies between `text` and the
cursor. The last component tells whether the scalar ended after a break. -/
def readPlain (flow : Bool) (indent : Nat) :
    Nat → List Char → Gap → Cursor → Option (List Char × Cursor × Bool)
  | 0, text, gap, c => some (text, c, gap.broken)
  | fuel + 1, text, gap, c =>
      if c.seesMarker || c.sees '#' then some (text, c, gap.broken)
      else readPart fuel text gap c
where
  /-- Reads characters up to the next gap, and the gap. -/
  readPart : Nat → List Char → Gap → Cursor → Option (List Char × Cursor × Bool)
    | 0, text, gap, c => some (text, c, gap.broken)
    | fuel + 1, text, gap, c =>
        if strayColon flow c then none
        else if endsPlain flow c then
          if c.seesSpace || c.seesBreak then
            match readGap indent (c.rest.length + 1) gap c with
            | .none => none
            | some (gap, c) =>
                if !flow && c.column < indent then some (text, c, gap.broken)
                else if c.seesMarker || c.sees '#' then some (text, c, gap.broken)
                else if endsPlain flow c && !strayColon flow c then some (text, c, gap.broken)
                else readPart fuel text gap c
          else some (text, c, gap.broken)
        else
          match c.head? with
          | .none => some (text, c, gap.broken)
          | some x => readPart fuel (text ++ gap.fold ++ [x]) Gap.none c.skip

/-! ## Quoted scalars -/

/-- What a single character after a backslash stands for. -/
def simpleEscape? : Char → Option Char
  | '0' => some '\x00'
  | 'a' => some '\x07'
  | 'b' => some '\x08'
  | 't' => some '\t'
  | '\t' => some '\t'
  | 'n' => some '\n'
  | 'v' => some '\x0B'
  | 'f' => some '\x0C'
  | 'r' => some '\r'
  | 'e' => some '\x1B'
  | ' ' => some ' '
  | '"' => some '"'
  | '/' => some '/'
  | '\\' => some '\\'
  | 'N' => some '\u0085'
  | '_' => some '\u00A0'
  | 'L' => some '\u2028'
  | 'P' => some '\u2029'
  | _ => none

/-- The number of hexadecimal digits that follow an escape. -/
def escapeWidth? : Char → Option Nat
  | 'x' => some 2
  | 'u' => some 4
  | 'U' => some 8
  | _ => none

/-- The value of hexadecimal digits. -/
def hexNumber? (cs : List Char) : Option Nat :=
  cs.foldl (fun acc c => acc.bind fun n => (Number.hexValue? c).map fun d => n * 16 + d) (some 0)

/-- The character with that number, if it is one. -/
def charOf? (n : Nat) : Option Char :=
  if n < 0xD800 ∨ (0xDFFF < n ∧ n ≤ 0x10FFFF) then some (Char.ofNat n) else none

/-- The character an escape stands for; the cursor is behind the backslash. -/
def readEscape (c : Cursor) : Option (Char × Cursor) :=
  c.head?.bind fun x =>
    match escapeWidth? x with
    | some width =>
        let ds := (c.rest.drop 1).take width
        if ds.length < width then none
        else (hexNumber? ds).bind fun n => (charOf? n).map fun ch => (ch, c.skipBy (width + 1))
    | .none => (simpleEscape? x).map fun ch => (ch, c.skip)

/-- Reads a quoted scalar to its closing quote; the cursor is behind the opening
one, and `gap` lies between `text` and the cursor. -/
def readQuoted (single : Bool) : Nat → List Char → Gap → Cursor → Option (List Char × Cursor)
  | 0, _, _, _ => none
  | fuel + 1, text, gap, c =>
      let quote := if single then '\'' else '"'
      if c.seesMarker then none
      else
        match c.head? with
        | .none => none
        | some x =>
            if isSpace x then readQuoted single fuel text (gap.addSpace x) c.skip
            else if isBreak x then
              let (b, c) := c.readBreak
              readQuoted single fuel text (gap.addBreak b) c
            else
              let text := text ++ gap.fold
              if single ∧ x = '\'' ∧ c.ahead? 1 = some '\'' then
                readQuoted single fuel (text ++ ['\'']) Gap.none (c.skipBy 2)
              else if x = quote then some (text, c.skip)
              else if !single ∧ x = '\\' then
                if (c.ahead? 1).any isBreak then
                  let (_, c) := c.skip.readBreak
                  readQuoted single fuel text ⟨[], [], [], true⟩ c
                else
                  match readEscape c.skip with
                  | .none => none
                  | some (ch, c) => readQuoted single fuel (text ++ [ch]) Gap.none c
              else readQuoted single fuel (text ++ [x]) Gap.none c.skip

/-! ## Block scalars -/

/-- What becomes of the breaks at the end of a block. -/
inductive Chomp where
  | strip
  | clip
  | keep
  deriving DecidableEq, Repr, Inhabited

/-- The header of a block: its chomping and its explicit indentation, in either
order. -/
def readBlockHeader (c : Cursor) : Option (Chomp × Option Nat × Cursor) :=
  let chomp? (c : Cursor) : Option Chomp :=
    if c.sees '+' then some .keep else if c.sees '-' then some .strip else none
  let digit? (c : Cursor) : Option Nat := (c.head?.filter Char.isDigit).map fun x => x.toNat - 48
  match chomp? c with
  | some chomp =>
      let c := c.skip
      match digit? c with
      | some n => if n = 0 then none else some (chomp, some n, c.skip)
      | .none => some (chomp, none, c)
  | .none =>
      match digit? c with
      | some n =>
          if n = 0 then none
          else
            let c := c.skip
            match chomp? c with
            | some chomp => some (chomp, some n, c.skip)
            | .none => some (.clip, some n, c)
      | .none => some (.clip, none, c)

/-- Reads the breaks in front of a line of a block and finds the column of its
text. With no `indent` yet, it becomes the deepest column that spaces reach, and
at least `least`. -/
def readBlockBreaks (least : Nat) :
    Nat → Option Nat → Nat → List Char → Cursor → Option (Nat × List Char × Cursor)
  | 0, indent, deepest, breaks, c => some (indent.getD (max least deepest), breaks, c)
  | fuel + 1, indent, deepest, breaks, c =>
      let below : Bool := match indent with
        | some n => decide (c.column < n)
        | .none => true
      if below && c.sees ' ' then
        readBlockBreaks least fuel indent (max deepest (c.column + 1)) breaks c.skip
      else if below && c.sees '\t' then none
      else if c.seesBreak then
        let (b, c) := c.readBreak
        readBlockBreaks least fuel indent deepest (breaks ++ b) c
      else some (indent.getD (max least deepest), breaks, c)

/-- Reads the lines of a block at the column `indent`. `first` is the break
behind the last line, `later` are those after it, and `spaced` tells whether the
last line began with a blank. -/
def readBlockLines (literal : Bool) (chomp : Chomp) (least indent : Nat) :
    Nat → List Char → List Char → List Char → Bool → Cursor → Option (List Char × Cursor)
  | 0, _, _, _, _, _ => none
  | fuel + 1, text, first, later, spaced, c =>
      if c.column = indent ∧ !c.atEnd then
        let blank := c.seesSpace
        let joint :=
          if !literal ∧ first.head? = some '\n' ∧ !spaced ∧ !blank then
            if later = [] then [' '] else []
          else first
        let (line, c) := c.takeRun fun x => !isBreak x
        let (first, c) := if c.seesBreak then c.readBreak else ([], c)
        match readBlockBreaks least (c.rest.length + 1) (some indent) 0 [] c with
        | .none => none
        | some (_, breaks, c) =>
            readBlockLines literal chomp least indent fuel (text ++ joint ++ later ++ line)
              first breaks blank c
      else
        match chomp with
        | .strip => some (text, c)
        | .clip => some (text ++ first, c)
        | .keep => some (text ++ first ++ later, c)

/-- Reads a block; the cursor is behind its indicator, and `parent` is the column
of the block around it, if there is one. -/
def readBlock (literal : Bool) (parent : Option Nat) (c : Cursor) : Option (List Char × Cursor) :=
  (readBlockHeader c).bind fun (chomp, explicit, c) =>
    let c := c.skipSpaces
    let c := if c.sees '#' then c.skipLine else c
    if !c.atEnd ∧ !c.seesBreak then none
    else
      let c := if c.seesBreak then c.readBreak.2 else c
      let least := max 1 ((parent.map (· + 1)).getD 0)
      let indent := explicit.map fun n => n + parent.getD 0
      (readBlockBreaks least (c.rest.length + 1) indent 0 [] c).bind fun (indent, breaks, c) =>
        readBlockLines literal chomp least indent (c.rest.length + 2) [] [] breaks false c

end ClusterConsole.Yaml
