import ClusterConsole.Yaml.Token

/-!
# Nodes

The tree of a YAML document. An alias is kept as the number of the node that it
stands for, and the document lists the nodes that have an anchor, by number. A
text holds at most one document; a text without any content is `absent`.
-/

namespace ClusterConsole.Yaml

inductive Node where
  | scalar (text : String) (style : Style) (tag : Option String)
  | sequence (items : List Node)
  | mapping (entries : List (Node × Node))
  | alias (target : Nat)
  deriving Inhabited

/-- A document and its anchored nodes. -/
structure Document where
  root : Node
  anchored : List (Nat × Node)
  deriving Inhabited

namespace Document

/-- The node itself, or the one that an alias stands for. -/
def follow (d : Document) : Node → Node
  | .alias n => ((d.anchored.find? fun a => a.1 == n).map (·.2)).getD (.alias n)
  | node => node

end Document

/-- What is left of the tokens, the numbers that anchors' names stand for, the
nodes that were anchored, and the tag handles in force. -/
structure Reading where
  rest : List Token
  names : List (String × Nat)
  anchored : List (Nat × Node)
  handles : List (String × String)
  deriving Inhabited

namespace Reading

/-- Reading as a step that may fail. -/
abbrev Step := StateT Reading Option

def peek : Step (Option Token) := do return (← get).rest.head?

def advance : Step Unit := modify fun r => { r with rest := r.rest.drop 1 }

/-- The node that stands where a value was left out. -/
def blank : Node := .scalar "" .plain none

/-- The tag that a handle and a suffix make up. -/
def resolveTag (handle suffix : String) : Step String := do
  if handle = "" then return suffix
  match (← get).handles.find? fun h => h.1 == handle with
  | some (_, head) => return head ++ suffix
  | none => failure

/-- The anchor and the tag in front of a node. -/
structure Properties where
  anchor : Option Nat
  tag : Option String

/-- Gives an anchor the number of different names that were used before it. A name
that is used again keeps its later number. -/
def declare (name : String) : Step Nat := do
  let r ← get
  let n := (r.names.map (·.1)).eraseDups.length
  set { r with names := (name, n) :: r.names }
  return n

/-- Reads an anchor and a tag, in either order. -/
def properties : Step Properties := do
  match ← peek with
  | some (.anchor name) =>
      advance
      let n ← declare name
      match ← peek with
      | some (.tag handle suffix) =>
          advance
          return ⟨some n, some (← resolveTag handle suffix)⟩
      | _ => return ⟨some n, none⟩
  | some (.tag handle suffix) =>
      advance
      let tag ← resolveTag handle suffix
      match ← peek with
      | some (.anchor name) =>
          advance
          return ⟨some (← declare name), some tag⟩
      | _ => return ⟨none, some tag⟩
  | _ => return ⟨none, none⟩

/-- Notes a node under its anchor. -/
def keep (p : Properties) (n : Node) : Step Node := do
  match p.anchor with
  | some a => modify fun r => { r with anchored := (a, n) :: r.anchored }
  | none => pure ()
  return n

/-- Whether the next token is one of those. -/
def nextIn (ts : List Token) : Step Bool := do
  match ← peek with
  | some t => return ts.contains t
  | none => return true

mutual

/-- Reads a node. `block` allows block collections, and `flat` a sequence that is
not indented more than the mapping around it. -/
def node (block flat : Bool) : Nat → Step Node
  | 0 => failure
  | fuel + 1 => do
      match ← peek with
      | some (.alias name) =>
          advance
          match (← get).names.find? fun n => n.1 == name with
          | some (_, n) => return .alias n
          | none => failure
      | _ =>
          let p ← properties
          match ← peek with
          | some .blockEntry =>
              if flat then keep p (.sequence (← flatItems fuel))
              else if p.anchor.isSome || p.tag.isSome then keep p (.scalar "" .plain p.tag)
              else failure
          | some (.scalar text style) => advance; keep p (.scalar text style p.tag)
          | some .flowSequence => advance; keep p (.sequence (← flowItems true fuel))
          | some .flowMapping => advance; keep p (.mapping (← flowEntries true fuel))
          | some .blockSequence =>
              if block then advance; keep p (.sequence (← blockItems fuel))
              else if p.anchor.isSome || p.tag.isSome then keep p (.scalar "" .plain p.tag)
              else failure
          | some .blockMapping =>
              if block then advance; keep p (.mapping (← blockEntries fuel))
              else if p.anchor.isSome || p.tag.isSome then keep p (.scalar "" .plain p.tag)
              else failure
          | _ =>
              if p.anchor.isSome || p.tag.isSome then keep p (.scalar "" .plain p.tag) else failure

/-- A node, or the blank one in front of a token that cannot start a node. -/
def nodeUnless (stops : List Token) (block flat : Bool) : Nat → Step Node
  | 0 => failure
  | fuel + 1 => do
      if ← nextIn stops then return blank else node block flat fuel

/-- The items of a sequence that is no more indented than what is around it. -/
def flatItems : Nat → Step (List Node)
  | 0 => failure
  | fuel + 1 => do
      match ← peek with
      | some .blockEntry =>
          advance
          let n ← nodeUnless [.blockEntry, .key, .value, .blockEnd] true false fuel
          return n :: (← flatItems fuel)
      | _ => return []

def blockItems : Nat → Step (List Node)
  | 0 => failure
  | fuel + 1 => do
      match ← peek with
      | some .blockEntry =>
          advance
          let n ← nodeUnless [.blockEntry, .blockEnd] true false fuel
          return n :: (← blockItems fuel)
      | some .blockEnd => advance; return []
      | _ => failure

def blockEntries : Nat → Step (List (Node × Node))
  | 0 => failure
  | fuel + 1 => do
      match ← peek with
      | some .key =>
          advance
          let k ← nodeUnless [.key, .value, .blockEnd] true true fuel
          let v ← valueAfter [.key, .value, .blockEnd] true true fuel
          return (k, v) :: (← blockEntries fuel)
      | some .blockEnd => advance; return []
      | _ => failure

/-- The value behind a colon; a blank one if there is no colon. -/
def valueAfter (stops : List Token) (block flat : Bool) : Nat → Step Node
  | 0 => failure
  | fuel + 1 => do
      match ← peek with
      | some .value => advance; nodeUnless stops block flat fuel
      | _ => return blank

def flowItems (first : Bool) : Nat → Step (List Node)
  | 0 => failure
  | fuel + 1 => do
      if (← peek) == some .flowSequenceEnd then advance; return []
      if !first then
        if (← peek) == some .flowEntry then advance else failure
      match ← peek with
      | some .key =>
          advance
          let k ← nodeUnless [.value, .flowEntry, .flowSequenceEnd] false false fuel
          let v ← valueAfter [.flowEntry, .flowSequenceEnd] false false fuel
          return .mapping [(k, v)] :: (← flowItems false fuel)
      | some .flowSequenceEnd => advance; return []
      | _ =>
          let n ← node false false fuel
          return n :: (← flowItems false fuel)

def flowEntries (first : Bool) : Nat → Step (List (Node × Node))
  | 0 => failure
  | fuel + 1 => do
      if (← peek) == some .flowMappingEnd then advance; return []
      if !first then
        if (← peek) == some .flowEntry then advance else failure
      match ← peek with
      | some .key =>
          advance
          let k ← nodeUnless [.value, .flowEntry, .flowMappingEnd] false false fuel
          let v ← valueAfter [.flowEntry, .flowMappingEnd] false false fuel
          return (k, v) :: (← flowEntries false fuel)
      | some .flowMappingEnd => advance; return []
      | _ =>
          let k ← node false false fuel
          return (k, blank) :: (← flowEntries false fuel)

end

/-- The handles that hold without a directive. -/
def defaultHandles : List (String × String) := [("!", "!"), ("!!", "tag:yaml.org,2002:")]

/-- Takes the directives in front of a document. -/
def directives : Nat → Bool → List (String × String) → Step (Bool × List (String × String))
  | 0, _, _ => failure
  | fuel + 1, versioned, handles => do
      match ← peek with
      | some (.versionDirective major minor) =>
          if versioned || major != 1 || (minor != 1 && minor != 2) then failure
          else
            advance
            directives fuel true handles
      | some (.tagDirective handle head) =>
          if handles.any fun h => h.1 == handle then failure
          else
            advance
            directives fuel versioned ((handle, head) :: handles)
      | _ => return (versioned, handles)

/-- Takes document end markers. -/
def endMarkers : Nat → Step Unit
  | 0 => pure ()
  | fuel + 1 => do
      if (← peek) == some .documentEnd then
        advance
        endMarkers fuel

/-- Whether a document that starts here says so: by a directive or a marker. -/
def startsExplicitly : Option Token → Bool
  | some .documentStart | some (.versionDirective ..) | some (.tagDirective ..) => true
  | _ => false

/-- The tokens that an empty document stands in front of. -/
def startsNothing (t : Option Token) : Bool :=
  t.isNone || t == some .documentEnd || startsExplicitly t

/-- Reads the one document of a text, which may be absent. -/
def document (fuel : Nat) : Step (Option Document) := do
  let next ← peek
  if next.isNone then return none
  let explicit := startsExplicitly next
  if explicit then
    let (_, handles) ← directives fuel false []
    if (← peek) != some .documentStart then failure
    advance
    modify fun r => { r with handles := handles ++ defaultHandles }
  let root ← if explicit && startsNothing (← peek) then pure blank else node true false fuel
  let r ← get
  endMarkers fuel
  if (← peek).isSome then failure
  return some ⟨root, r.anchored⟩

end Reading

/-- What a text holds: nothing at all, or one document. -/
inductive Content where
  | absent
  | document (d : Document)
  deriving Inhabited

/-- The content of a text, if it is well-formed. -/
def contentOf? (text : String) : Option Content :=
  (tokensOf? text).bind fun tokens =>
    let fuel := 4 * tokens.length + 8
    ((Reading.document fuel).run ⟨tokens, [], [], Reading.defaultHandles⟩).map fun (d, _) =>
      match d with
      | none => .absent
      | some d => .document d

end ClusterConsole.Yaml
