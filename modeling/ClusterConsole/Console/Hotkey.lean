import ClusterConsole.Snapshot.Sorting

/-!
# Sort keys

The letters that sort a view, each by a column counted from the NAME column and
in the direction that is usually wanted first.
-/

namespace ClusterConsole.Console

open ClusterConsole.Resource ClusterConsole.Snapshot

/-- A sort key: its letter, the column's distance from NAME, and whether the sort
starts in ascending order. -/
structure Hotkey where
  letter : Char
  offset : Nat
  ascending : Bool
  deriving DecidableEq, Repr, Inhabited

namespace Hotkey

/-- The letter of the NAME column. Where a view has another use for it, that one
comes first. -/
def name : Hotkey := ⟨'N', 0, true⟩

/-- The sort keys of a kind. -/
def ofKind : Kind → List Hotkey
  | .pods =>
      [name, ⟨'R', 1, false⟩, ⟨'S', 2, true⟩, ⟨'T', 3, false⟩, ⟨'D', 4, true⟩, ⟨'O', 5, true⟩,
        ⟨'A', 6, true⟩]
  | .containers =>
      [name, ⟨'I', 1, true⟩, ⟨'R', 2, false⟩, ⟨'S', 3, true⟩, ⟨'T', 5, false⟩, ⟨'A', 7, true⟩]
  | .services => [name, ⟨'T', 1, true⟩, ⟨'A', 4, true⟩]
  | .deployments => [name, ⟨'R', 1, false⟩, ⟨'A', 4, true⟩]
  | .nodes => [name, ⟨'S', 1, true⟩, ⟨'A', 4, true⟩]
  | .namespaces => [name, ⟨'S', 1, true⟩, ⟨'A', 2, true⟩]
  | .forwards => [⟨'P', 2, true⟩, ⟨'U', 3, true⟩, ⟨'C', 4, false⟩, ⟨'N', 5, false⟩, name]
  | .benchmarks => [⟨'S', 1, true⟩, ⟨'A', 4, true⟩, name]

/-- The sort key for a letter. -/
def find? (kind : Kind) (letter : Char) : Option Hotkey :=
  (ofKind kind).find? fun h => h.letter == letter

/-- The sort that the key asks for. -/
def sort (kind : Kind) (h : Hotkey) : SortColumn := SortColumn.relative kind h.offset h.ascending

end Hotkey

end ClusterConsole.Console
