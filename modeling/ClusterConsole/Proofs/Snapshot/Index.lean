import ClusterConsole.Proofs.Snapshot.Diff
import Std.Data.HashMap.Lemmas

/-!
# Tables with an index

A table may keep, beside its rows, the place of each key in a hash map, and look a key up
there. It is in step with its rows if the map has of each key the place of the first row
under it (`InStep`); pushing keeps it so, whatever is pushed, and then every operation does
what the one on the rows does (`get?_eq`, `contains_eq`, `table_push`, `table_advance`).
-/

namespace ClusterConsole.Snapshot

open ClusterConsole.Resource

/-- A table and the places of its keys. -/
structure Indexed where
  table : Table
  places : Std.HashMap String Nat

namespace Indexed

def empty (kind : Kind) (scope : Scope) : Indexed := ⟨Table.empty kind scope, ∅⟩

/-- The entry at the place of a key. -/
def get? (t : Indexed) (fqn : String) : Option Entry :=
  t.places[fqn]?.bind fun place => t.table.entries[place]?

def contains (t : Indexed) (fqn : String) : Bool := t.places.contains fqn

def accepts (t : Indexed) (e : Entry) : Bool :=
  e.fields.length == t.table.kind.width && !t.contains e.fqn

/-- The table with an entry appended and its place noted, if the table accepts it. -/
def push (t : Indexed) (e : Entry) : Indexed :=
  if t.accepts e then
    ⟨{ t.table with entries := t.table.entries ++ [e] }, t.places.insert e.fqn t.table.size⟩
  else t

def present? (t : Indexed) (fqn : String) : Option Entry := (t.get? fqn).filter Entry.present

/-- The entry for a fetched row, given what the table before has under its key. -/
def classify (previous : Option Indexed) (row : Row) : Entry :=
  match previous.bind (·.present? row.fqn) with
  | none => Entry.ofNew row
  | some prior => Entry.ofPrior prior row

def ofFetched (kind : Kind) (scope : Scope) (previous : Option Indexed) (rows : List Row) :
    Indexed :=
  (rows.filter fun row => Table.inScope kind scope row.fqn).foldl
    (fun t row => t.push (classify previous row)) (empty kind scope)

/-- The table that follows `previous` when a fetch gave `rows`. -/
def advance (kind : Kind) (scope : Scope) (previous : Option Indexed) (rows : List Row) :
    Indexed :=
  let current := ofFetched kind scope previous rows
  let former := (previous.map (·.table.entries)).getD []
  (former.filter fun e => e.present && !current.contains e.fqn).foldl
    (fun t e => t.push e.gone) current

/-- The places are those of the first rows of their keys. -/
def InStep (t : Indexed) : Prop :=
  ∀ fqn, t.places[fqn]? = t.table.entries.findIdx? fun e => e.fqn == fqn

variable {t : Indexed} {kind : Kind} {scope : Scope} {previous : Option Indexed}

theorem inStep_empty (kind : Kind) (scope : Scope) : (empty kind scope).InStep :=
  fun _ => Std.HashMap.getElem?_empty

namespace InStep

theorem get?_eq (h : t.InStep) (fqn : String) : t.get? fqn = t.table.get? fqn := by
  rw [get?, h fqn, Table.get?, List.find?_eq_bind_findIdx?_getElem?]

theorem contains_eq (h : t.InStep) (fqn : String) : t.contains fqn = t.table.contains fqn := by
  rw [contains, Std.HashMap.contains_eq_isSome_getElem?, h fqn, List.findIdx?_isSome,
    Table.contains]

theorem present?_eq (h : t.InStep) (fqn : String) : t.present? fqn = t.table.present? fqn := by
  rw [present?, h.get?_eq, Table.present?]

theorem accepts_eq (h : t.InStep) (e : Entry) : t.accepts e = t.table.accepts e := by
  rw [accepts, h.contains_eq, Table.accepts]

theorem table_push (h : t.InStep) (e : Entry) : (t.push e).table = t.table.push e := by
  rw [push, h.accepts_eq, Table.push]
  split <;> rfl

/-- A row that is appended stands behind all others, and its key was free. -/
theorem push (h : t.InStep) (e : Entry) : (t.push e).InStep := by
  rw [Indexed.push]
  split
  · rename_i hacc
    intro fqn
    rw [h.accepts_eq, Table.accepts, Bool.and_eq_true, Bool.not_eq_true'] at hacc
    dsimp only
    rw [Std.HashMap.getElem?_insert, h fqn, List.findIdx?_append]
    by_cases hfqn : e.fqn = fqn
    · have hnone : (t.table.entries.findIdx? fun d => d.fqn == fqn) = none := by
        rw [← Option.isNone_iff_eq_none, ← Option.not_isSome, List.findIdx?_isSome, ← hfqn]
        exact congrArg (! ·) hacc.2
      simp [hfqn, hnone, Table.size]
    · simp [hfqn]
  · exact h

theorem foldl_push (h : t.InStep) (es : List Entry) : (es.foldl Indexed.push t).InStep := by
  induction es generalizing t with
  | nil => exact h
  | cons e es ih => exact ih (h.push e)

theorem table_foldl_push (h : t.InStep) (es : List Entry) :
    (es.foldl Indexed.push t).table = es.foldl Table.push t.table := by
  induction es generalizing t with
  | nil => rfl
  | cons e es ih => rw [List.foldl_cons, ih (h.push e), h.table_push, List.foldl_cons]

end InStep

theorem ofFetched_eq (kind : Kind) (scope : Scope) (previous : Option Indexed) (rows : List Row) :
    ofFetched kind scope previous rows =
      ((rows.filter fun row => Table.inScope kind scope row.fqn).map (classify previous)).foldl
        push (empty kind scope) := by
  rw [ofFetched, List.foldl_map]

theorem inStep_ofFetched (kind : Kind) (scope : Scope) (previous : Option Indexed)
    (rows : List Row) : (ofFetched kind scope previous rows).InStep := by
  rw [ofFetched_eq]
  exact (inStep_empty kind scope).foldl_push _

/-- Whatever was there before, a table that is built from it is in step. -/
theorem inStep_advance (kind : Kind) (scope : Scope) (previous : Option Indexed)
    (rows : List Row) : (advance kind scope previous rows).InStep := by
  unfold advance
  rw [← List.foldl_map (f := Entry.gone)]
  exact (inStep_ofFetched kind scope previous rows).foldl_push _

theorem classify_eq (h : ∀ t ∈ previous, t.InStep) (row : Row) :
    classify previous row = Table.classify (previous.map Indexed.table) row := by
  cases previous with
  | none => rfl
  | some t =>
      have hpresent := (h t rfl).present?_eq row.fqn
      cases hprior : t.table.present? row.fqn <;>
        simp [classify, Table.classify, hpresent, hprior]

theorem table_ofFetched (h : ∀ t ∈ previous, t.InStep) (scope : Scope) (rows : List Row) :
    (ofFetched kind scope previous rows).table =
      Table.ofFetched kind scope (previous.map Indexed.table) rows := by
  rw [ofFetched_eq, (inStep_empty kind scope).table_foldl_push, Table.ofFetched_eq,
    funext (classify_eq h)]
  rfl

/-- What is built with the index has the rows that are built without it. -/
theorem table_advance (h : ∀ t ∈ previous, t.InStep) (scope : Scope) (rows : List Row) :
    (advance kind scope previous rows).table =
      Table.advance kind scope (previous.map Indexed.table) rows := by
  have hstep := inStep_ofFetched kind scope previous rows
  unfold advance Table.advance
  rw [← List.foldl_map (f := Entry.gone), ← List.foldl_map (f := Entry.gone),
    hstep.table_foldl_push, table_ofFetched h, Option.map_map]
  simp only [hstep.contains_eq, table_ofFetched h]
  rfl

end Indexed

end ClusterConsole.Snapshot
