import ClusterConsole.Benchmark.Runner
import ClusterConsole.Forwarding.Tunnel
import ClusterConsole.Snapshot.Table
import ClusterConsole.Storage.Files

/-!
# News

What happens beside the operator's input reaches its owner as news: tables and
failures of watchers, reports of transports, completions of benchmarks, and the
word that the settings file was written.
-/

namespace ClusterConsole.Background

open ClusterConsole.Snapshot

/-- What an owner finds around it: the files and the time on the wall, in seconds
since the start of 1970. -/
structure Surroundings where
  files : Storage.Files
  time : Int
  deriving Inhabited

/-- One piece of news. -/
inductive News where
  /-- The watcher of that generation has a table. -/
  | table (generation : Nat) (table : Table)
  /-- The watcher of that generation could not fetch. -/
  | tableFailure (generation : Nat) (message : String)
  | forward (report : Forwarding.Report)
  | benchmark (completion : Benchmark.Completion)
  /-- The time for which the message of a completion is held is over. -/
  | holdOver (message : String)
  /-- The settings file at the path was written. -/
  | settingsWritten (path : String)

/-- How a state hears news, and where it keeps its forwards and benchmarks. -/
structure Owner (σ : Type) where
  hear : Surroundings → News → σ → σ
  registry : σ → Forwarding.Registry
  runner : σ → Benchmark.Runner

end ClusterConsole.Background
