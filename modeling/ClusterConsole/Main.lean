import ClusterConsole.Cluster.Access
import ClusterConsole.Console.Sitting
import ClusterConsole.Launch.Preferences
import ClusterConsole.Screen.Frame

/-!
# The program

The console on a terminal that shows line after line: each line that is read is
carried out as a command, and the screen is printed after it. Nothing here talks
to a cluster; tables of its resources stay empty.
-/

namespace ClusterConsole.Main

open ClusterConsole.Background ClusterConsole.Cluster ClusterConsole.Launch
open ClusterConsole.Console (Action LiveView Sitting)

/-- The text of a file, if it can be read. -/
def textOf? (path : String) : IO (Option String) := do
  try
    return some (← IO.FS.readFile path)
  catch _ =>
    return none

/-- The first of some places with a text in it. -/
def firstText : List String → IO (Option (String × String))
  | [] => return none
  | path :: paths => do
      match ← textOf? path with
      | some text => return some (path, text)
      | none => firstText paths

/-- The preferences, and what went wrong with them. -/
def preferences (home : Option String) : IO (Preferences × Option String) := do
  let given := (← IO.getEnv "SKIFF_CONFIG").filter fun p => !Text.allBlank p
  match ← firstText (given.elim (Preferences.standardPaths home) fun p => [p]) with
  | some (path, text) =>
      match Preferences.ofText? text with
      | some p => return (p, none)
      | none => return (.unset, some ("failed to parse config " ++ path))
  | none => return (.unset, given.map fun p => "failed to read config " ++ p)

/-- The access to the cluster, or the one that stands for none. -/
def access (home : Option String) : IO Access := do
  let given ← IO.getEnv "KUBECONFIG"
  let path := given.getD (Storage.Path.join (home.getD "") ".kube/config")
  return ((← textOf? path).bind Access.ofText?).getD ⟨"in-cluster", "in-cluster", "default"⟩

/-- A transport that does not come up. -/
def noTransport (_ : Forwarding.Session) : Transport :=
  ⟨none, .failed ["no connection to a cluster"], false, false⟩

/-- A load that is not sent. -/
def noLoad (_ : Benchmark.Target) : LoadPlan :=
  .gives false 0 (.error ["no connection to a cluster"])

/-- The sitting that the settings ask for. -/
def sitting (a : Arguments) (p : Preferences) (home : String) (access : Access) (time : Int) :
    Sitting :=
  let scope := a.scope access.ns
  let c := Console.start ⟨.empty, time⟩ home access.cluster access.context scope p.startView
  ⟨Stage.open_ c .empty time Inventory.empty.server, home,
    some (LiveView.idle (a.interval p.refresh)), noTransport, noLoad⟩

/-- The columns and the lines of the screen. -/
def screenSize : Nat × Nat := (100, 24)

def printScreen (s : Sitting) : IO Unit := do
  for strip in Screen.frame s.console s.stage.time screenSize.1 screenSize.2 do
    IO.println ("".intercalate (strip.map (·.text)))

/-- Reads and carries out commands until the console is left. -/
partial def loop (input : IO.FS.Stream) (s : Sitting) : IO Unit := do
  printScreen s
  let line ← input.getLine
  if s.console.running ∧ line ≠ "" then
    let actions := [Action.startCommand] ++ (Text.trim line).toList.map .inputChar ++ [.submitInput]
    let s := actions.foldl (fun s a => (s.act a).1) s
    if s.console.running then loop input s.settle.1

end ClusterConsole.Main

open ClusterConsole ClusterConsole.Launch in
/-- Reads the command line and the settings and starts the console. -/
def main (args : List String) : IO UInt32 := do
  match Arguments.read args with
  | .error .helpWanted =>
      for s in Switch.all do
        IO.println ("--" ++ s.long ++ if s.takesValue then " <value>" else "")
      return 0
  | .error .versionWanted =>
      IO.println "0.1.0"
      return 0
  | .error refusal =>
      IO.eprintln ("error: " ++ refusal.message)
      return 2
  | .ok a =>
      let operatorHome ← IO.getEnv "HOME"
      let (p, fault) ← Main.preferences operatorHome
      if let some fault := fault then
        IO.eprintln ("Config ignored: " ++ fault)
      let settings := operatorHome.map fun h => Storage.Path.join h ".config"
      let homeEnv ← IO.getEnv "SKIFF_HOME"
      let home := consoleHome (operatorHome.getD "") a.home homeEnv p.home settings
      let time := (← IO.monoMsNow) / 1000
      let s := Main.sitting a p home (← Main.access operatorHome) time
      Main.loop (← IO.getStdin) s.opening.1.settle.1
      return 0
