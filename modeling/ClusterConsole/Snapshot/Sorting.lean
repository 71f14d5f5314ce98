import ClusterConsole.Resource.Age
import ClusterConsole.Snapshot.Table

/-!
# Sorting a table

A table is sorted by the cells of one column: ages by their length, numbers by
their value, other texts by code point. The sort is stable in both directions,
so equal cells keep the order of the table.

A cell that is no number or no age counts as minus infinity. Numbers compare by
the total order of their bit patterns.
-/

namespace ClusterConsole.Snapshot

open ClusterConsole.Resource ClusterConsole.Number

/-- The column a table is sorted by, among how many, and in which direction. -/
structure SortColumn where
  index : Nat
  count : Nat
  ascending : Bool
  deriving DecidableEq, Repr, Inhabited

namespace SortColumn

/-- The column `offset` places to the right of the NAME column. -/
def relative (kind : Kind) (offset : Nat) (ascending : Bool) : SortColumn :=
  ⟨kind.nameColumn + offset, kind.width, ascending⟩

/-- Ascending by name. -/
def byName (kind : Kind) : SortColumn := relative kind 0 true

end SortColumn

/-- How the cells of a column compare. -/
inductive CellOrder where
  | text
  | number
  | age
  deriving DecidableEq, Repr

namespace CellOrder

/-- The name of the column that holds ages. -/
def ageColumn : String := "AGE"

/-- How the cells of the column at that place compare. -/
def ofColumn (kind : Kind) (column : Nat) : CellOrder :=
  if kind.header[column]? = some ageColumn then age
  else if kind.numericAt column then number
  else text

end CellOrder

/-- The number in a cell: what stands before a slash, without a percent sign. -/
def numberKey (cell : String) : Binary64 :=
  let cs := Text.beforeList '/' (Text.trimList cell.toList)
  let cs := if cs.getLast? = some '%' then cs.dropLast else cs
  (Binary64.read? (Text.trimList cs)).getD Binary64.negInfinity

/-- The age in a cell, in seconds. -/
def ageKey (cell : String) : Binary64 :=
  match Age.read? cell with
  | some seconds => Binary64.ofNat seconds
  | none => Binary64.negInfinity

/-- The order of two cells. -/
def compareCells : CellOrder → String → String → Ordering
  | .text, a, b => compare a b
  | .number, a, b => (numberKey a).compareTotal (numberKey b)
  | .age, a, b => (ageKey a).compareTotal (ageKey b)

/-- Whether `a` may stand before `b` in the sorted table. -/
def SortColumn.before (sort : SortColumn) (order : CellOrder) (a b : Entry) : Bool :=
  let c := compareCells order (a.field sort.index) (b.field sort.index)
  if sort.ascending then c != .gt else c != .lt

/-- The entries of a table in the order of `sort`; a column beyond the count
leaves the order of the table. -/
def Table.sorted (t : Table) (sort : SortColumn) : List Entry :=
  if sort.index ≥ sort.count then t.entries
  else t.entries.mergeSort (sort.before (CellOrder.ofColumn t.kind sort.index))

end ClusterConsole.Snapshot
