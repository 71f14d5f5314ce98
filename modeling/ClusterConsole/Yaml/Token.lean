import ClusterConsole.Yaml.Scalar

/-!
# Tokens

The tokens of a YAML text. Indentation is made explicit: a block starts with a
token of its own and ends with `blockEnd`. A key without a question mark is known
as a key only at its colon, so its token is put in where the key began; the place
is kept as a `Candidate` for as long as the key may still turn out to be one,
which is on one line and for at most 1024 characters.
-/

namespace ClusterConsole.Yaml

inductive Token where
  | versionDirective (major minor : Nat)
  | tagDirective (handle head : String)
  | documentStart
  | documentEnd
  | blockSequence
  | blockMapping
  | blockEnd
  | flowSequence
  | flowSequenceEnd
  | flowMapping
  | flowMappingEnd
  | blockEntry
  | flowEntry
  | key
  | value
  | alias (name : String)
  | anchor (name : String)
  | tag (handle suffix : String)
  | scalar (text : String) (style : Style)
  deriving DecidableEq, Repr, Inhabited

/-- A place where a key may have begun. -/
structure Candidate where
  /-- The number of tokens before it. -/
  place : Nat
  index : Nat
  line : Nat
  column : Nat
  /-- Whether the block's indentation allows nothing but a key there. -/
  required : Bool
  deriving DecidableEq, Repr, Inhabited

/-- How far the tokens have been read. `tokens` has the last one first; `indents`
holds the columns of the open blocks, the innermost first, and `candidates` one
place for the present block and each open bracket. -/
structure Tokens where
  cursor : Cursor
  tokens : List Token
  indents : List Nat
  candidates : List (Option Candidate)
  keyAllowed : Bool
  deriving Inhabited

namespace Tokens

def start (cs : List Char) : Tokens := ⟨Cursor.start cs, [], [], [none], true⟩

/-- The number of open brackets. -/
def depth (t : Tokens) : Nat := t.candidates.length - 1

def inFlow (t : Tokens) : Bool := t.depth > 0

/-- The column of the innermost block. -/
def indent? (t : Tokens) : Option Nat := t.indents.head?

/-- Whether a column is deeper than the innermost block. -/
def deeper (t : Tokens) (column : Nat) : Bool :=
  match t.indent? with
  | none => true
  | some n => n < column

def push (t : Tokens) (x : Token) : Tokens := { t with tokens := x :: t.tokens }

/-- A token put in behind the first `place` tokens. -/
def insertAt (t : Tokens) (place : Nat) (x : Token) : Tokens :=
  let n := t.tokens.length - place
  { t with tokens := t.tokens.take n ++ x :: t.tokens.drop n }

/-- Forgets the innermost candidate, which must not have been required. -/
def dropCandidate (t : Tokens) : Option Tokens :=
  match t.candidates with
  | some c :: rest => if c.required then none else some { t with candidates := none :: rest }
  | _ => some t

/-- Notes that a key may begin here. -/
def saveCandidate (t : Tokens) : Option Tokens :=
  if t.keyAllowed then
    t.dropCandidate.map fun t =>
      let c := t.cursor
      let required := !t.inFlow && t.indent? == some c.column
      let here : Candidate := ⟨t.tokens.length, c.index, c.line, c.column, required⟩
      { t with candidates := some here :: t.candidates.tail }
  else some t

/-- Forgets the candidates that are too far back. -/
def dropStale (t : Tokens) : Option Tokens :=
  let stale (c : Candidate) : Bool :=
    c.line < t.cursor.line || c.index + 1024 < t.cursor.index
  if t.candidates.any fun o => o.any fun c => stale c && c.required then none
  else some { t with candidates := t.candidates.map fun o => o.filter fun c => !stale c }

/-- Opens a block at a column deeper than the innermost one. -/
def roll (t : Tokens) (column place : Nat) (x : Token) : Tokens :=
  if !t.inFlow && t.deeper column then
    { t.insertAt place x with indents := column :: t.indents }
  else t

/-- Closes the blocks that are deeper than the column; all of them for none. -/
def unroll (t : Tokens) (column : Option Nat) : Tokens :=
  if t.inFlow then t
  else
    let closes (n : Nat) : Bool := match column with
      | none => true
      | some c => c < n
    let closed := (t.indents.takeWhile closes).length
    { t with
      tokens := List.replicate closed .blockEnd ++ t.tokens
      indents := t.indents.drop closed }

def moveTo (t : Tokens) (c : Cursor) : Tokens := { t with cursor := c }

/-- Passes blanks, comments and breaks in front of the next token. A break allows
a key outside of brackets. -/
def skipBlanks : Nat → Tokens → Tokens
  | 0, t => t
  | fuel + 1, t =>
      let c := t.cursor
      if c.sees ' ' || ((t.inFlow || !t.keyAllowed) && c.sees '\t') then
        skipBlanks fuel (t.moveTo c.skip)
      else if c.sees '#' then skipBlanks fuel (t.moveTo c.skipLine)
      else if c.seesBreak then
        skipBlanks fuel { t with cursor := c.readBreak.2, keyAllowed := t.keyAllowed || !t.inFlow }
      else t

/-! ## Tags, anchors and directives -/

def isUriChar (verbatim : Bool) (x : Char) : Bool :=
  isWordChar x || ";/?:@&=+$.!~*'()".toList.contains x || (verbatim && "[],".toList.contains x)

/-- The bytes of percent escapes read as text. -/
def decodeEscapes (bytes : List UInt8) : Option (List Char) :=
  (String.fromUTF8? ⟨bytes.toArray⟩).map String.toList

/-- Reads a run of percent escapes. -/
def readPercents : Nat → List UInt8 → Cursor → Option (List Char × Cursor)
  | 0, _, _ => none
  | fuel + 1, bytes, c =>
      if c.sees '%' then
        let ds := (c.rest.drop 1).take 2
        if ds.length < 2 then none
        else (hexNumber? ds).bind fun n =>
          readPercents fuel (bytes ++ [UInt8.ofNat n]) (c.skipBy 3)
      else (decodeEscapes bytes).map fun cs => (cs, c)

/-- Reads the characters of a tag. -/
def readUri (verbatim : Bool) : Nat → List Char → Cursor → Option (List Char × Cursor)
  | 0, text, c => some (text, c)
  | fuel + 1, text, c =>
      match c.head? with
      | some x =>
          if x = '%' then
            (readPercents (c.rest.length + 1) [] c).bind fun (cs, c) =>
              readUri verbatim fuel (text ++ cs) c
          else if isUriChar verbatim x then readUri verbatim fuel (text ++ [x]) c.skip
          else some (text, c)
      | none => some (text, c)

/-- Reads a tag; the cursor is at its exclamation mark. -/
def readTag (flow : Bool) (c : Cursor) : Option (Token × Cursor) :=
  let fuel := c.rest.length + 1
  let found :=
    if c.ahead? 1 = some '<' then
      (readUri true fuel [] (c.skipBy 2)).bind fun (uri, c) =>
        if uri ≠ [] ∧ c.sees '>' then some ("", String.ofList uri, c.skip) else none
    else
      let (word, after) := c.skip.takeRun isWordChar
      if after.sees '!' then
        (readUri false fuel [] after.skip).bind fun (uri, c) =>
          if uri = [] then none
          else some ("!" ++ String.ofList word ++ "!", String.ofList uri, c)
      else
        (readUri false fuel word after).map fun (uri, c) =>
          if uri = [] then ("", "!", c) else ("!", String.ofList uri, c)
  found.bind fun (handle, suffix, c) =>
    if c.blankAt 0 || (flow && c.sees ',') then some (.tag handle suffix, c) else none

/-- Reads the name of an anchor or an alias; the cursor is at its indicator. -/
def readName (c : Cursor) : Option (String × Cursor) :=
  let (name, c) := c.skip.takeRun isWordChar
  let ended := c.blankAt 0 || (c.head?.any fun x => "?:,]\x7d%@\x60".toList.contains x)
  if name ≠ [] ∧ ended then some (String.ofList name, c) else none

/-- Reads what may follow a directive on its line. -/
def endDirective (c : Cursor) : Option Cursor :=
  let c := c.skipSpaces
  let c := if c.sees '#' then c.skipLine else c
  if c.atEnd then some c else if c.seesBreak then some c.readBreak.2 else none

/-- Reads a number of a version. -/
def readVersionNumber (c : Cursor) : Option (Nat × Cursor) :=
  let (ds, c) := c.takeRun Char.isDigit
  if ds.length ≤ 9 then (Number.digits? ds).map fun n => (n, c) else none

/-- Reads a directive; the cursor is at its percent sign. -/
def readDirective (c : Cursor) : Option (Token × Cursor) :=
  let (name, c) := c.skip.takeRun isWordChar
  if !c.blankAt 0 then none
  else
    match String.ofList name with
    | "YAML" =>
        (readVersionNumber c.skipSpaces).bind fun (major, c) =>
          if !c.sees '.' then none
          else (readVersionNumber c.skip).bind fun (minor, c) =>
            (endDirective c).map fun c => (.versionDirective major minor, c)
    | "TAG" =>
        let c := c.skipSpaces
        if !c.sees '!' then none
        else
          let (word, c) := c.skip.takeRun isWordChar
          let handle? : Option (String × Cursor) :=
            if c.sees '!' then some ("!" ++ String.ofList word ++ "!", c.skip)
            else if word = [] then some ("!", c)
            else none
          handle?.bind fun (handle, c) =>
            if !c.seesSpace then none
            else
              let c := c.skipSpaces
              (readUri true (c.rest.length + 1) [] c).bind fun (uri, c) =>
                if uri = [] ∨ !c.blankAt 0 then none
                else (endDirective c).map fun c => (.tagDirective handle (String.ofList uri), c)
    | _ => none

/-! ## One token after the other -/

/-- Ends all blocks and forgets the candidate, as document markers do. -/
def closeAll (t : Tokens) : Option Tokens :=
  (t.unroll none).dropCandidate.map fun t => { t with keyAllowed := false }

def openFlow (t : Tokens) (x : Token) : Option Tokens :=
  t.saveCandidate.map fun t =>
    { t.push x with
      candidates := none :: t.candidates, keyAllowed := true, cursor := t.cursor.skip }

def closeFlow (t : Tokens) (x : Token) : Option Tokens :=
  t.dropCandidate.map fun t =>
    { t.push x with
      candidates := if t.inFlow then t.candidates.tail else t.candidates
      keyAllowed := false
      cursor := t.cursor.skip }

def takeFlowEntry (t : Tokens) : Option Tokens :=
  t.dropCandidate.map fun t =>
    { t.push .flowEntry with keyAllowed := true, cursor := t.cursor.skip }

def takeBlockEntry (t : Tokens) : Option Tokens :=
  if !t.inFlow && !t.keyAllowed then none
  else
    (t.roll t.cursor.column t.tokens.length .blockSequence).dropCandidate.map fun t =>
      { t.push .blockEntry with keyAllowed := true, cursor := t.cursor.skip }

def takeKey (t : Tokens) : Option Tokens :=
  if !t.inFlow && !t.keyAllowed then none
  else
    (t.roll t.cursor.column t.tokens.length .blockMapping).dropCandidate.map fun t =>
      { t.push .key with keyAllowed := !t.inFlow, cursor := t.cursor.skip }

def takeValue (t : Tokens) : Option Tokens :=
  match t.candidates.head?.join with
  | some c =>
      let t := (t.insertAt c.place .key).roll c.column c.place .blockMapping
      some { t.push .value with
        candidates := none :: t.candidates.tail, keyAllowed := false, cursor := t.cursor.skip }
  | none =>
      if !t.inFlow && !t.keyAllowed then none
      else
        let t := t.roll t.cursor.column t.tokens.length .blockMapping
        some { t.push .value with keyAllowed := !t.inFlow, cursor := t.cursor.skip }

/-- A token that a key may begin with. -/
def takeContent (t : Tokens) (read : Cursor → Option (Token × Cursor)) : Option Tokens :=
  t.saveCandidate.bind fun t =>
    (read t.cursor).map fun (x, c) => { t.push x with keyAllowed := false, cursor := c }

def takeBlock (t : Tokens) (literal : Bool) : Option Tokens :=
  t.dropCandidate.bind fun t =>
    (readBlock literal t.indent? t.cursor.skip).map fun (text, c) =>
      { t.push (.scalar (String.ofList text) (if literal then .literal else .folded)) with
        keyAllowed := true, cursor := c }

def takeQuoted (t : Tokens) (single : Bool) : Option Tokens :=
  t.takeContent fun c =>
    (readQuoted single (c.rest.length + 1) [] Gap.none c.skip).map fun (text, c) =>
      (.scalar (String.ofList text) .quoted, c)

def takePlain (t : Tokens) : Option Tokens :=
  t.saveCandidate.bind fun t =>
    let indent := (t.indent?.map (· + 1)).getD 0
    (readPlain t.inFlow indent (t.cursor.rest.length + 1) [] Gap.none t.cursor).map
      fun (text, c, broken) =>
        { t.push (.scalar (String.ofList text) .plain) with keyAllowed := broken, cursor := c }

/-- Characters that a plain scalar does not start with. -/
def indicators : List Char := "-?:,[]\x7b\x7d#&*!|>'\"%@\x60".toList

/-- Whether a plain scalar starts at the cursor. -/
def startsPlain (t : Tokens) : Bool :=
  let c := t.cursor
  match c.head? with
  | none => false
  | some x =>
      (!isSpace x && !isBreak x && !indicators.contains x) ||
        (x == '-' && !(c.ahead? 1).any isSpace) ||
        (!t.inFlow && (x == '?' || x == ':') && !c.blankAt 1)

/-- Reads the token at the cursor, which is at the start of one. -/
def takeToken (t : Tokens) (x : Char) : Option Tokens :=
  let c := t.cursor
  if c.column = 0 ∧ x = '%' then
    t.closeAll.bind fun t =>
      (readDirective t.cursor).map fun (d, c) => (t.push d).moveTo c
  else if c.seesMarker then
    t.closeAll.map fun t =>
      (t.push (if x = '-' then .documentStart else .documentEnd)).moveTo (t.cursor.skipBy 3)
  else if x = '[' then t.openFlow .flowSequence
  else if x = '{' then t.openFlow .flowMapping
  else if x = ']' then t.closeFlow .flowSequenceEnd
  else if x = '}' then t.closeFlow .flowMappingEnd
  else if x = ',' then t.takeFlowEntry
  else if x = '-' ∧ c.blankAt 1 then t.takeBlockEntry
  else if x = '?' ∧ (t.inFlow ∨ c.blankAt 1) then t.takeKey
  else if x = ':' ∧ (t.inFlow ∨ c.blankAt 1) then t.takeValue
  else if x = '*' then t.takeContent fun c => (readName c).map fun (n, c) => (.alias n, c)
  else if x = '&' then t.takeContent fun c => (readName c).map fun (n, c) => (.anchor n, c)
  else if x = '!' then t.takeContent (readTag t.inFlow)
  else if x = '|' ∧ !t.inFlow then t.takeBlock true
  else if x = '>' ∧ !t.inFlow then t.takeBlock false
  else if x = '\'' then t.takeQuoted true
  else if x = '"' then t.takeQuoted false
  else if t.startsPlain then t.takePlain
  else none

/-- Reads tokens to the end of the text. -/
def readAll : Nat → Tokens → Option Tokens
  | 0, _ => none
  | fuel + 1, t =>
      (t.skipBlanks (t.cursor.rest.length + 1)).dropStale.bind fun t =>
        let t := t.unroll (some t.cursor.column)
        match t.cursor.head? with
        | none => t.closeAll
        | some x => (t.takeToken x).bind (readAll fuel)

end Tokens

/-- The tokens of a text, if it is made of tokens. -/
def tokensOf? (text : String) : Option (List Token) :=
  let start := Tokens.start text.toList
  if start.cursor.rest.all printable then
    (Tokens.readAll (2 * start.cursor.rest.length + 2) start).map fun t => t.tokens.reverse
  else none

end ClusterConsole.Yaml
