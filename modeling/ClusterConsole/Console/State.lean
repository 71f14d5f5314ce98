import ClusterConsole.Background.News
import ClusterConsole.Benchmark.Archive
import ClusterConsole.Console.Action
import ClusterConsole.Snapshot.Sorting
import ClusterConsole.Watching.Watcher

/-!
# The state of the console

The console shows one view at a time: a table of a kind, sorted and filtered,
with a selected row. Views that were left by going deeper wait in the history.
Every view that is opened gets a generation, and what a watcher delivers counts
only if it belongs to the present one.

The views of forwards and of saved reports are made from what the console knows
itself: `hydrate` builds their tables anew.
-/

namespace ClusterConsole

open ClusterConsole.Resource ClusterConsole.Snapshot ClusterConsole.Status
open ClusterConsole.Background (Surroundings)

namespace Console

/-- What is to be watched for a view. -/
abbrev Target := Watching.Target

/-- A view: its target, its sort and the place of the selected row. -/
structure View where
  target : Target
  sort : SortColumn
  selected : Nat
  deriving DecidableEq, Repr, Inhabited

/-- A view as it is opened. -/
def View.opened (target : Target) : View := ⟨target, SortColumn.byName target.kind, 0⟩

/-- What is done once the operator agrees. -/
inductive Intent where
  | forward (path container : String) (mapping : Forwarding.Mapping)
  | deleteForward (fqn : String)
  deriving DecidableEq, Repr, Inhabited

/-- A question and what it is about. -/
structure Question where
  prompt : String
  intent : Intent
  deriving DecidableEq, Repr, Inhabited

/-- What an action asks of the watcher of the view. -/
inductive Command where
  | watch (target : Target) (generation : Nat)
  | setScope (scope : Scope)
  /-- An interval in milliseconds. -/
  | setInterval (ms : Nat)
  | refresh
  deriving DecidableEq, Repr, Inhabited

/-- Work that runs beside the console once it is started. -/
inductive Errand where
  | tunnel (session : Forwarding.Session)
  | benchmark (id : Nat) (target : Benchmark.Target)
  deriving DecidableEq, Repr, Inhabited

end Console

/-- What the console shows and knows. -/
structure Console where
  running : Bool
  cluster : String
  context : String
  scope : Scope
  mode : Console.Mode
  input : String
  filter : String
  status : Line
  view : Console.View
  history : List Console.View
  generation : Nat
  table : Table
  tableError : Option String
  question : Option Console.Question
  registry : Forwarding.Registry
  runner : Benchmark.Runner
  settingsPath : String
  /-- The errands that were given and not yet fetched, the first one first. -/
  errands : List Console.Errand
  deriving Inhabited

namespace Console

/-- Shows a notice. -/
def flash (c : Console) (level : Level) (text : String) : Console :=
  { c with status := Line.ofNotice ⟨level, text⟩ }

def inform (c : Console) (text : String) : Console := c.flash .info text

/-- Shows a notice, if there is one. -/
def flash? (c : Console) (notice : Option Notice) : Console :=
  match notice with
  | some n => c.flash n.level n.text
  | none => c

/-- Clears the status line while it shows the message. -/
def resetStatus (c : Console) (shown : String) : Console :=
  { c with status := c.status.resetIfShowing shown }

/-! ## What is shown -/

/-- The rows that are shown, in the order of the sort. -/
def visible (c : Console) : List Entry :=
  (c.table.sorted c.view.sort).filter fun e => e.meets c.filter

/-- The place of the selected row among those shown. -/
def selectedIndex? (c : Console) : Option Nat :=
  let size := c.visible.length
  if size = 0 then none else some (min c.view.selected (size - 1))

def selectedRow? (c : Console) : Option Entry :=
  c.selectedIndex?.bind fun i => c.visible[i]?

/-- The title of the view. -/
def title (c : Console) : String :=
  let place := c.view.target.parent.getD
    (if c.table.clusterWide then "all" else c.table.scope.sign)
  c.view.target.kind.title ++ "(" ++ place ++ ")[" ++ toString c.table.size ++ "]"

/-- What is shown of the benchmark in the slot. -/
def benchmarkText? (c : Console) (time : Int) : Option String :=
  match c.runner.slot with
  | none => none
  | some s =>
      match s.phase with
      | .running =>
          some ("Bench " ++ s.target ++ " c=" ++ toString s.settings.concurrency ++ " n=" ++
            toString s.settings.requests ++ " " ++ Age.write (time - s.startedAt))
      | .canceled => some "Bench canceling"
      | .idle | .completed => none

/-- The scope that a watcher of the target belongs in. -/
def scopeFor (c : Console) (target : Target) : Scope :=
  if target.kind.namespaced ∧ target.parent.isNone then c.scope else .all

/-! ## Tables from the console's own state -/

/-- The locator that a forward is reached by. -/
def forwardUrl (s : Forwarding.Session) (settings : Benchmark.Settings) : String :=
  let path := Text.trim settings.path
  let path := if path.toList.head? = some '/' then path else "/" ++ path
  "http://localhost:" ++ toString s.mapping.localPort ++ path

/-- The row of a forward, with the settings that its benchmarks would have. -/
def forwardRow (file : Benchmark.SettingsFile) (time : Int) (s : Forwarding.Session) : Row :=
  let settings := file.resolve s.path s.container
  ⟨s.fqn, [s.podNamespace, s.pod, s.container, s.mapping.text, forwardUrl s settings,
    toString settings.concurrency, toString settings.requests, Age.write (time - s.startedAt)]⟩

/-- The rows of a kind that is not fetched from the cluster. -/
def localRows? (c : Console) (s : Surroundings) : Option (List Row) :=
  match c.view.target.kind with
  | .forwards => some (c.registry.sessions.map (forwardRow c.runner.file s.time))
  | .benchmarks =>
      some (match c.runner.directory with
        | some directory => Benchmark.reportRows s.files directory c.view.target.parent
        | none => [])
  | _ => none

/-- Builds the table of such a kind anew. -/
def hydrate (c : Console) (s : Surroundings) : Console :=
  match c.localRows? s with
  | some rows => { c with table := Table.advance c.view.target.kind .all (some c.table) rows }
  | none => c

/-- Reads the settings file again. One that is refused leaves the settings in
force. -/
def reloadSettings (c : Console) (s : Surroundings) (path : String) : Except Failure Console :=
  (c.runner.reload s.files path).map fun runner => { c with runner := runner }

/-! ## The start -/

/-- The console before its first view is opened. -/
def start (s : Surroundings) (home cluster context : String) (scope : Scope) (kind : Kind) :
    Console :=
  let c : Console :=
    { running := true
      cluster := cluster
      context := context
      scope := scope
      mode := .normal
      input := ""
      filter := ""
      status := Line.blank
      view := View.opened (Watching.Target.all kind)
      history := []
      generation := 0
      table := Table.empty kind scope
      tableError := none
      question := none
      registry := Forwarding.Registry.empty
      runner := Benchmark.Runner.empty (some (Benchmark.reportsDirectory home cluster))
      settingsPath := Benchmark.settingsPath home cluster
      errands := [] }
  match c.reloadSettings s c.settingsPath with
  | .ok c => c
  | .error e => c.flash .error e.message

end Console

end ClusterConsole
