import ClusterConsole.Resource.Kind
import ClusterConsole.Resource.Name
import ClusterConsole.Resource.Scope
import ClusterConsole.Snapshot.Entry

/-!
# Tables

A table holds the entries of one kind in one scope. `push` keeps the keys apart
and the widths equal. `advance` compares freshly fetched rows with the table
before: the rows in scope come first, in the order they were fetched, and behind
them the rows that are gone, in the order of the table before. A row that was
already gone there counts as absent.
-/

namespace ClusterConsole.Snapshot

open ClusterConsole.Resource

structure Table where
  kind : Kind
  scope : Scope
  entries : List Entry
  deriving DecidableEq, Repr, Inhabited

namespace Table

/-- The table of a kind without entries. -/
def empty (kind : Kind) (scope : Scope) : Table := ⟨kind, scope, []⟩

def header (t : Table) : List String := t.kind.header

def size (t : Table) : Nat := t.entries.length

/-- The entry with that key. -/
def get? (t : Table) (fqn : String) : Option Entry :=
  t.entries.find? fun e => e.fqn == fqn

def contains (t : Table) (fqn : String) : Bool :=
  t.entries.any fun e => e.fqn == fqn

/-- Whether an entry has the table's width and a key that is free. -/
def accepts (t : Table) (e : Entry) : Bool :=
  e.fields.length == t.kind.width && !t.contains e.fqn

/-- The table with an entry appended, if the table accepts it. -/
def push (t : Table) (e : Entry) : Table :=
  if t.accepts e then { t with entries := t.entries ++ [e] } else t

/-- The entry of an object that exists. -/
def present? (t : Table) (fqn : String) : Option Entry :=
  (t.get? fqn).filter Entry.present

/-- Whether a row of the kind belongs to the scope. -/
def inScope (kind : Kind) (scope : Scope) (fqn : String) : Bool :=
  !kind.namespaced || scope.contains (namespaceOf fqn)

/-- The entry for a fetched row, given what the table before shows. -/
def classify (previous : Option Table) (row : Row) : Entry :=
  match previous.bind (·.present? row.fqn) with
  | none => Entry.ofNew row
  | some prior => Entry.ofPrior prior row

/-- The table of the fetched rows. -/
def ofFetched (kind : Kind) (scope : Scope) (previous : Option Table) (rows : List Row) : Table :=
  (rows.filter fun row => inScope kind scope row.fqn).foldl
    (fun t row => t.push (classify previous row)) (empty kind scope)

/-- The table that follows `previous` when a fetch gave `rows`. -/
def advance (kind : Kind) (scope : Scope) (previous : Option Table) (rows : List Row) : Table :=
  let current := ofFetched kind scope previous rows
  let former := (previous.map (·.entries)).getD []
  (former.filter fun e => e.present && !current.contains e.fqn).foldl
    (fun t e => t.push e.gone) current

/-- The table is shown for all namespaces. -/
def clusterWide (t : Table) : Bool := t.scope.clusterWide

end Table

end ClusterConsole.Snapshot
