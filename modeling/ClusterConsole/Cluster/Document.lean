/-!
# Documents

A document is what a server of the cluster answers: a tree of lists and maps over
texts, truth values and numbers. A number that is not written as an integer is
kept as `real` without its value, since no field of a resource holds one.
-/

namespace ClusterConsole.Cluster

inductive Document where
  | null
  | flag (b : Bool)
  | integer (n : Int)
  | real
  | text (s : String)
  | list (items : List Document)
  | map (fields : List (String × Document))
  deriving Inhabited, Repr

namespace Document

/-- The field of a map; a missing one is null. -/
def field (d : Document) (name : String) : Document :=
  match d with
  | map fields => ((fields.find? fun f => f.1 == name).map (·.2)).getD null
  | _ => null

/-- The field at the end of a path of names. -/
def at_ (d : Document) (path : List String) : Document := path.foldl field d

def text? : Document → Option String
  | text s => some s
  | _ => none

def integer? : Document → Option Int
  | integer n => some n
  | _ => none

def flag? : Document → Option Bool
  | flag b => some b
  | _ => none

/-- The items of a list; anything else has none. -/
def items : Document → List Document
  | list items => items
  | _ => []

/-- The fields of a map; anything else has none. -/
def fields : Document → List (String × Document)
  | map fields => fields
  | _ => []

def isNull : Document → Bool
  | null => true
  | _ => false

end Document

end ClusterConsole.Cluster
