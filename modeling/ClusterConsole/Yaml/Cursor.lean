import ClusterConsole.Number.Decimal

/-!
# A place in a YAML text

A cursor is what is left of a text, with the line and the column of its first
character. Line breaks are the six that YAML 1.1 knows; they all end a line, and
all but two of them are read as a line feed.
-/

namespace ClusterConsole.Yaml

/-- What is left of the text and where it starts. `index` counts characters. -/
structure Cursor where
  rest : List Char
  index : Nat
  line : Nat
  column : Nat
  deriving DecidableEq, Repr, Inhabited

namespace Cursor

/-- The start of a text; a byte order mark there is no part of it. -/
def start (cs : List Char) : Cursor :=
  match cs with
  | '\uFEFF' :: cs => ⟨cs, 0, 0, 0⟩
  | cs => ⟨cs, 0, 0, 0⟩

end Cursor

/-- Whether a character may stand in a YAML text. -/
def printable (c : Char) : Bool :=
  let n := c.toNat
  n == 9 || n == 10 || n == 13 || (0x20 ≤ n && n ≤ 0x7E) || n == 0x85 ||
    (0xA0 ≤ n && n ≤ 0xD7FF) || (0xE000 ≤ n && n ≤ 0xFFFD && n != 0xFEFF) || 0x10000 ≤ n

def isBreak (c : Char) : Bool :=
  c == '\n' || c == '\r' || c == '\u0085' || c == '\u2028' || c == '\u2029'

def isSpace (c : Char) : Bool := c == ' ' || c == '\t'

/-- The characters of names of anchors, directives and tag handles. -/
def isWordChar (c : Char) : Bool := c.isAlphanum || c == '_' || c == '-'

namespace Cursor

def head? (c : Cursor) : Option Char := c.rest.head?

/-- The character so many places ahead. -/
def ahead? (c : Cursor) (n : Nat) : Option Char := c.rest[n]?

def atEnd (c : Cursor) : Bool := c.rest.isEmpty

/-- Whether the next character is that one. -/
def sees (c : Cursor) (x : Char) : Bool := c.head? == some x

/-- Whether the next character is a break. -/
def seesBreak (c : Cursor) : Bool := c.head?.any isBreak

/-- Whether the next character is a space or a tab. -/
def seesSpace (c : Cursor) : Bool := c.head?.any isSpace

/-- Whether the character so many places ahead is a space, a break or the end. -/
def blankAt (c : Cursor) (n : Nat) : Bool :=
  match c.ahead? n with
  | none => true
  | some x => isSpace x || isBreak x

/-- The cursor behind the next character, which is no break. -/
def skip (c : Cursor) : Cursor :=
  { c with rest := c.rest.drop 1, index := c.index + 1, column := c.column + 1 }

/-- The cursor so many characters on, none of which is a break. -/
def skipBy (c : Cursor) (n : Nat) : Cursor :=
  { c with rest := c.rest.drop n, index := c.index + n, column := c.column + n }

/-- The break at the cursor as it is read, and the cursor behind it. -/
def readBreak (c : Cursor) : List Char × Cursor :=
  let next (n : Nat) : Cursor :=
    { rest := c.rest.drop n, index := c.index + n, line := c.line + 1, column := 0 }
  match c.rest with
  | '\r' :: '\n' :: _ => (['\n'], next 2)
  | '\u2028' :: _ => (['\u2028'], next 1)
  | '\u2029' :: _ => (['\u2029'], next 1)
  | _ => (['\n'], next 1)

/-- Whether a line at the cursor starts with a document marker. -/
def seesMarker (c : Cursor) : Bool :=
  c.column == 0 && (c.rest.take 3 == ['-', '-', '-'] || c.rest.take 3 == ['.', '.', '.']) &&
    c.blankAt 3

/-- The run of characters of a class at the cursor, and the cursor behind it. -/
def takeRun (p : Char → Bool) (c : Cursor) : List Char × Cursor :=
  let run := c.rest.takeWhile p
  (run, c.skipBy run.length)

/-- The cursor behind all that is not a break. -/
def skipLine (c : Cursor) : Cursor := (c.takeRun fun x => !isBreak x).2

/-- The cursor behind spaces and tabs. -/
def skipSpaces (c : Cursor) : Cursor := (c.takeRun isSpace).2

end Cursor

end ClusterConsole.Yaml
