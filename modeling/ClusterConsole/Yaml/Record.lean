import ClusterConsole.Yaml.Node

/-!
# Records

Reading values of known types from nodes. A record is a mapping with known field
names, each of which may have other spellings; unknown fields are passed over and
a field that is given twice is refused. A value that was left out is an empty
record, while a written `null` is not.

A text is read from any scalar. A number is read from a plain scalar, decimal or
with one of the marks `0x`, `0o` and `0b`; a leading zero makes it a text.
-/

namespace ClusterConsole.Yaml

namespace Document

/-- The text of a scalar. -/
def text? (d : Document) (n : Node) : Option String :=
  match d.follow n with
  | .scalar text _ _ => some text
  | _ => none

/-- The entries of a mapping; a value that was left out has none. -/
def entries? (d : Document) (n : Node) : Option (List (Node × Node)) :=
  match d.follow n with
  | .mapping entries => some entries
  | .scalar "" .plain _ => some []
  | _ => none

/-- The items of a sequence. -/
def items? (d : Document) (n : Node) : Option (List Node) :=
  match d.follow n with
  | .sequence items => some items
  | _ => none

/-- The words for nothing. -/
def nullWords : List String := ["null", "Null", "NULL", "~"]

def nullTag : String := "tag:yaml.org,2002:null"

def intTag : String := "tag:yaml.org,2002:int"

/-- The value of an optional field: nothing for a value left out or a null. -/
def optional? {α : Type} (d : Document) (read : Node → Option α) (n : Node) : Option (Option α) :=
  match d.follow n with
  | .scalar text .plain none =>
      if text = "" ∨ nullWords.contains text then some none else (read n).map some
  | .scalar text .plain (some tag) =>
      if tag = nullTag then (if nullWords.contains text then some none else none)
      else (read n).map some
  | _ => (read n).map some

/-- The value of digits in a base. -/
def digitsIn? (base : Nat) (cs : List Char) : Option Nat :=
  if cs = [] then none
  else cs.foldl (fun acc c => acc.bind fun n =>
    ((Number.hexValue? c).filter (· < base)).map fun v => n * base + v) (some 0)

/-- A number without a sign other than a plus. -/
def unsignedText? (bound : Nat) (text : String) : Option Nat :=
  let cs := match text.toList with
    | '+' :: cs => cs
    | cs => cs
  let value :=
    match cs with
    | '0' :: 'x' :: ds => digitsIn? 16 ds
    | '0' :: 'o' :: ds => digitsIn? 8 ds
    | '0' :: 'b' :: ds => digitsIn? 2 ds
    | '0' :: _ :: _ => none
    | ds => digitsIn? 10 ds
  value.filter (· < bound)

/-- The number in a scalar. -/
def unsigned? (d : Document) (bound : Nat) (n : Node) : Option Nat :=
  match d.follow n with
  | .scalar text .plain _ => unsignedText? bound text
  | .scalar text .literal (some tag) => if tag = intTag then unsignedText? bound text else none
  | _ => none

/-- A record's fields: for each entry whose key is a spelling of a known field,
the field's name and its value. -/
def collect (d : Document) (spellings : String → Option String) :
    List (Node × Node) → List (String × Node) → Option (List (String × Node))
  | [], found => some found.reverse
  | (k, v) :: rest, found =>
      (d.text? k).bind fun key =>
        match spellings key with
        | none => collect d spellings rest found
        | some name =>
            if found.any fun f => f.1 == name then none
            else collect d spellings rest ((name, v) :: found)

/-- The fields of a record. -/
def record? (d : Document) (spellings : String → Option String) (n : Node) :
    Option (List (String × Node)) :=
  (d.entries? n).bind fun es => d.collect spellings es []

/-- The value of a field, or what holds where it is not given. -/
def fieldD {α : Type} (fields : List (String × Node)) (name : String) (otherwise : α)
    (read : Node → Option α) : Option α :=
  match fields.find? fun f => f.1 == name with
  | none => some otherwise
  | some (_, n) => read n

end Document

/-- A record read from a text. A text without content is a record without fields. -/
def recordOf? {α : Type} (text : String) (read : Document → Node → Option α) : Option α :=
  (contentOf? text).bind fun content =>
    match content with
    | .absent => read ⟨Reading.blank, []⟩ Reading.blank
    | .document d => read d d.root

end ClusterConsole.Yaml
