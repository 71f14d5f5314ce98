import ClusterConsole.Background.Ledger
import ClusterConsole.Background.Queue
import ClusterConsole.Benchmark.Archive
import ClusterConsole.Storage.Watch

/-!
# Watched settings

A directory is watched for the settings file of the present cluster. Each file
that is moved there arrives as a batch of its own; if it is the settings file, its
reading is queued. The owner reads it when it hears of it.
-/

namespace ClusterConsole.Background

open ClusterConsole.Storage

/-- The owner of the settings, the watch of its directory and the readings that
are queued. -/
structure SettingsWatch where
  ledger : Ledger
  surroundings : Surroundings
  directory : String
  cluster : String
  watch : Watch
  queue : Queue News

namespace SettingsWatch

/-- Starts watching a directory. -/
def start (s : Surroundings) (directory cluster : String) :
    Except Status.Failure SettingsWatch :=
  (Watch.prepare s.files directory).map fun files =>
    ⟨Ledger.empty none, { s with files := files }, directory, cluster, Watch.start, Queue.empty⟩

/-- The file that is waited for. -/
def file (w : SettingsWatch) : String := Benchmark.settingsPath w.directory w.cluster

/-- The watch takes what has arrived. -/
def wake (w : SettingsWatch) : SettingsWatch :=
  let (watch, hit) := w.watch.take w.file
  { w with
    watch := watch
    queue := if hit then (w.queue.push (.single (.settingsWritten w.file))).1 else w.queue }

/-- A file is moved into the directory. -/
def moveIn (w : SettingsWatch) (name : String) (node : Node) : SettingsWatch :=
  let path := Path.join w.directory name
  let s := { w.surroundings with files := w.surroundings.files.install path node }
  { w with surroundings := s, watch := w.watch.arrive [path] }.wake

/-- The owner hears the next piece of news, if there is one. -/
def hearNext (w : SettingsWatch) : SettingsWatch :=
  match w.queue.step? (Ledger.hear w.surroundings) w.ledger with
  | some (queue, ledger) => { w with queue := queue, ledger := ledger }
  | none => w

end SettingsWatch

end ClusterConsole.Background
