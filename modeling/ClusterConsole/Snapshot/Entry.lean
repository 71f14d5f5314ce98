import ClusterConsole.Text.Cut

/-!
# Rows and entries

A `Row` is what a fetch gives: a key and one text per column. An `Entry` is a
row of a table together with how it changed since the table before.
-/

namespace ClusterConsole.Snapshot

open ClusterConsole

/-- A fetched row. -/
structure Row where
  fqn : String
  fields : List String
  deriving DecidableEq, Repr, Inhabited

/-- How a row of a table relates to the table before. -/
inductive Change where
  | added
  | updated
  | removed
  | unchanged
  deriving DecidableEq, Repr, Inhabited

/-- A row with its change. `deltas` holds, for an updated row, the former text
of each field that differs. -/
structure Entry where
  fqn : String
  change : Change
  fields : List String
  deltas : List (Option String)
  deriving DecidableEq, Repr, Inhabited

namespace Entry

/-- An entry without deltas. -/
def plain (change : Change) (fqn : String) (fields : List String) : Entry :=
  ⟨fqn, change, fields, fields.map fun _ => none⟩

/-- A row that the table before did not show. -/
def ofNew (row : Row) : Entry := plain .added row.fqn row.fields

/-- The same row, gone. -/
def gone (e : Entry) : Entry := plain .removed e.fqn e.fields

/-- Whether the row stands for an object that exists. -/
def present (e : Entry) : Bool := e.change != .removed

/-- The field in that column; a missing one is empty. -/
def field (e : Entry) (column : Nat) : String := e.fields.getD column ""

/-- The former texts of the fields that differ. A field beyond the former row's
width counts as formerly empty. -/
def deltasFrom : List String → List String → List (Option String)
  | _, [] => []
  | [], _ :: fields => some "" :: deltasFrom [] fields
  | old :: olds, field :: fields =>
      (if old = field then none else some old) :: deltasFrom olds fields

/-- The row compared with a former entry of the same key. -/
def ofPrior (prior : Entry) (row : Row) : Entry :=
  let deltas := deltasFrom prior.fields row.fields
  let same := deltas.all Option.isNone && prior.fields.length == row.fields.length
  ⟨row.fqn, if same then .unchanged else .updated, row.fields, deltas⟩

/-- Whether the key or some field contains the query, the case of ASCII letters
aside. A blank query is met by every entry. -/
def meets (e : Entry) (query : String) : Bool :=
  let query := Text.lower (Text.trim query)
  query == "" || (e.fqn :: e.fields).any fun text => Text.occurs query (Text.lower text)

end Entry

end ClusterConsole.Snapshot
