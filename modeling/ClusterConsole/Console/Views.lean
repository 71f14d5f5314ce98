import ClusterConsole.Console.Hotkey
import ClusterConsole.Console.State
import ClusterConsole.Launch.Arguments

/-!
# Moving between views

Opening a view raises the generation, empties the table and asks for a watcher.
Going deeper leaves the view in the history, and going back restores it; opening
a kind by its name starts a new history.
-/

namespace ClusterConsole.Console

open ClusterConsole.Background (Surroundings)
open ClusterConsole.Resource ClusterConsole.Snapshot ClusterConsole.Status

/-- Opens the present view under a new generation. -/
def watchCurrent (c : Console) (s : Surroundings) : Console × Option Command :=
  let target := c.view.target
  let c := { c with
    generation := c.generation + 1
    tableError := none
    table := Table.empty target.kind (c.scopeFor target) }
  let c :=
    if target.kind = .forwards then
      match c.reloadSettings s c.settingsPath with
      | .ok c => c
      | .error e => c.flash .error e.message
    else c
  (c.hydrate s, some (.watch target c.generation))

/-- Opens the view of a kind. -/
def switchView (c : Console) (s : Surroundings) (kind : Kind) : Console × Option Command :=
  { c with history := [], view := View.opened (Watching.Target.all kind) }.watchCurrent s

/-- Opens a view on top of the present one. -/
def deepen (c : Console) (s : Surroundings) (target : Target) : Console × Option Command :=
  { c with history := c.view :: c.history, view := View.opened target }.watchCurrent s

/-- Sets the scope. -/
def setScope (c : Console) (word : String) : Console × Option Command :=
  let scope := Scope.ofWord word
  let c := { c with scope := scope, view := { c.view with selected := 0 } }
  (c.inform ("Namespace set to " ++ scope.label), some (.setScope scope))

/-- Sets the refresh interval. -/
def setInterval (c : Console) (word : String) : Console × Option Command :=
  match Number.unsigned? Number.word64 word.toList with
  | none => (c.flash .error ("Invalid refresh rate " ++ word), none)
  | some ms =>
      let ms := Launch.clampInterval ms
      (c.inform ("Refresh rate set to " ++ toString ms ++ "ms"), some (.setInterval ms))

/-- Asks for fresh rows. -/
def refresh (c : Console) (s : Surroundings) : Console × Option Command :=
  if c.view.target.kind.polled then (c.inform "Refreshing...", some .refresh)
  else (c.hydrate s, none)

/-- Opens what the selected row stands for. -/
def drillDown (c : Console) (s : Surroundings) : Console × Option Command :=
  match c.selectedRow? with
  | none => (c, none)
  | some row =>
      match c.view.target.kind with
      | .pods => c.deepen s (Watching.Target.containersOf row.fqn)
      | .namespaces => (c.setScope (row.field 0)).1.switchView s .pods
      | .forwards => c.deepen s (Watching.Target.reportsOf row.fqn)
      | .benchmarks =>
          match c.runner.directory with
          | some directory =>
              (c.inform ("Report " ++ Storage.Path.join directory (row.fqn ++ ".txt")), none)
          | none => (c, none)
      | _ => (c, none)

/-- Returns to the view below, or takes the filter away. -/
def goBack (c : Console) (s : Surroundings) : Console × Option Command :=
  match c.history with
  | view :: rest => { c with history := rest, view := view }.watchCurrent s
  | [] =>
      if c.filter = "" then (c, none)
      else ({ c with filter := "", view := { c.view with selected := 0 } }, none)

/-! ## Selection -/

def select (c : Console) (place : Nat) : Console :=
  { c with view := { c.view with selected := place } }

/-- The rows that a page key passes. -/
def pageStep : Nat := 10

/-- Moves the selection, up to the ends of the rows shown. -/
def moveSelection (c : Console) (delta : Int) : Console :=
  let size := c.visible.length
  if size = 0 then c.select 0
  else
    let target := (min c.view.selected (size - 1) : Int) + delta
    c.select (min target.toNat (size - 1))

/-! ## Sorting -/

def setSort (c : Console) (sort : SortColumn) : Console :=
  { c with view := { c.view with sort := sort, selected := 0 } }

/-- Sorts by a column; the one that is sorted by already changes its direction. -/
def sortBy (c : Console) (sort : SortColumn) : Console :=
  let old := c.view.sort
  if sort.index = old.index then c.setSort { old with ascending := !old.ascending }
  else c.setSort sort

/-- Sorts by the column of a sort key, if the letter is one. -/
def sortByLetter (c : Console) (letter : Char) : Console :=
  let kind := c.view.target.kind
  match Hotkey.find? kind letter with
  | some h => c.sortBy (h.sort kind)
  | none => c

/-- Sorts as the words of a command say: a column's name and perhaps a direction. -/
def sortByWords (c : Console) (words : List String) : Console :=
  match words with
  | [] => c.flash .warn "Usage: sort <column> [asc|desc]"
  | column :: rest =>
      match c.table.header.findIdx? fun name => Text.sameFolded name column with
      | none => c.flash .error ("Unknown column " ++ column)
      | some index =>
          let width := c.table.header.length
          match rest.head?.map Text.lower with
          | some "asc" => c.setSort ⟨index, width, true⟩
          | some "desc" => c.setSort ⟨index, width, false⟩
          | _ => c.sortBy ⟨index, width, true⟩

/-! ## Filtering -/

def setFilter (c : Console) (filter : String) : Console :=
  { c with filter := filter, view := { c.view with selected := 0 } }

end ClusterConsole.Console
