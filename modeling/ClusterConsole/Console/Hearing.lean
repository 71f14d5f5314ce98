import ClusterConsole.Console.State

/-!
# What the console hears

What each piece of news changes. News about a view, a forward or a benchmark that
is no longer there leave the console as it is.
-/

namespace ClusterConsole.Console

open ClusterConsole.Background (Surroundings)
open ClusterConsole.Snapshot ClusterConsole.Status

def tableLoaded (c : Console) (generation : Nat) (table : Table) : Console :=
  if generation = c.generation then { c with table := table, tableError := none } else c

def tableFailed (c : Console) (generation : Nat) (message : String) : Console :=
  if generation ≠ c.generation then c
  else
    let shown := if c.tableError = some message then c else c.flash .error message
    { shown with tableError := some message }

/-- Applies the report of a transport. -/
def forwardReported (c : Console) (s : Surroundings) (report : Forwarding.Report) : Console :=
  let a := c.registry.applyReport report
  let c := { c with registry := a.registry }.flash? a.notice
  if a.changed then c.hydrate s else c

/-- Applies the completion of a benchmark. -/
def benchmarkEnded (c : Console) (completion : Benchmark.Completion) : Console :=
  let (runner, notice) := c.runner.applyCompletion completion
  { c with runner := runner }.flash? notice

/-- Clears the message of a completion, unless a benchmark is running. -/
def holdOver (c : Console) (message : String) : Console :=
  if c.runner.isRunning then c else c.resetStatus message

/-- Reads the settings file that was written. -/
def settingsWritten (c : Console) (s : Surroundings) (path : String) : Console :=
  match c.reloadSettings s path with
  | .ok c => (c.inform "Benchmark config reloaded").hydrate s
  | .error e => c.flash .error e.message

/-- Applies a piece of news. -/
def hear (c : Console) (s : Surroundings) : Background.News → Console
  | .table generation table => c.tableLoaded generation table
  | .tableFailure generation message => c.tableFailed generation message
  | .forward report => c.forwardReported s report
  | .benchmark completion => c.benchmarkEnded completion
  | .holdOver message => c.holdOver message
  | .settingsWritten path => c.settingsWritten s path

/-- The console as the owner of its forwards and benchmarks. -/
def owner : Background.Owner Console := ⟨fun s news c => c.hear s news, registry, runner⟩

end ClusterConsole.Console
