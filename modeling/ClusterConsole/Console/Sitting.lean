import ClusterConsole.Background.Run
import ClusterConsole.Console.Hearing
import ClusterConsole.Console.Key
import ClusterConsole.Console.LiveView
import ClusterConsole.Console.Step
import ClusterConsole.Storage.Watch

/-!
# A sitting at the console

A sitting joins the console, what runs beside it, and the watcher of its view.
Each action is applied to the console, its errands are started, and its command
is carried out. How transports and loads behave is given from outside.
-/

namespace ClusterConsole.Console

open ClusterConsole.Background ClusterConsole.Resource ClusterConsole.Status

structure Sitting where
  stage : Stage Console
  home : String
  /-- None if nothing watches the views. -/
  live : Option LiveView
  transport : Forwarding.Session → Transport
  load : Benchmark.Target → LoadPlan

namespace Sitting

def console (s : Sitting) : Console := s.stage.owner

def owner : Owner Console := Console.owner

def change (s : Sitting) (f : Console → Console) : Sitting :=
  { s with stage := s.stage.change owner f }

/-- Starts the errands that the console has given. -/
def startErrands (s : Sitting) : Sitting :=
  let stage := s.console.errands.foldl (fun w e =>
    match e with
    | .tunnel session => w.launch session (s.transport session)
    | .benchmark id target => w.begin id target (s.load target)) s.stage
  { s with stage := { stage with owner := { s.console with errands := [] } } }

/-- The watcher of an order. -/
def watcherOf (order : WatchOrder) : Watching.Watcher Nat :=
  (Watching.Watcher.new order.target order.scope order.interval).addListener order.generation

/-- Does to the watcher that runs what a command has changed. -/
def applyChange (w : Stage Console) : WatchChange → Stage Console
  | .stopped => w.unwatch
  | .started order => w.watch (watcherOf order)
  | .rescoped scope => w.adjust fun r => (r.setScope scope).nudge
  | .paced ms => w.adjust fun r => r.setRate ms
  | .nudged => w.adjust fun r => r.nudge

/-- Prepares the console's home for the view of forwards, whose settings are
watched there. -/
def watchHome (s : Sitting) : Sitting :=
  match Storage.Watch.prepare s.stage.files s.home with
  | .ok files => { s with stage := { s.stage with files := files } }
  | .error e => s.change fun c => c.flash .warn e.message

/-- Carries out a command. -/
def carryOut (s : Sitting) (command : Command) : Sitting :=
  match s.live with
  | none => s
  | some live =>
      let (live, change) := live.apply s.console command
      let s := { s with live := some live, stage := change.elim s.stage (applyChange s.stage) }
      match command with
      | .watch target _ => if target.kind = .forwards then s.watchHome else s
      | _ => s

/-- Follows up a step of the console. -/
def follow (s : Sitting) (f : Console → Console × Option Command) : Sitting × Option Command :=
  let (c, command) := f s.console
  let s := (s.change fun _ => c).startErrands
  (command.elim s s.carryOut, command)

/-- Applies an action. -/
def act (s : Sitting) (a : Action) : Sitting × Option Command :=
  s.follow fun c => c.act s.stage.surroundings a

/-- Applies what a key asks for in the present mode, if it asks for anything. -/
def press (s : Sitting) (k : Key) : Sitting × Option (Option Command) :=
  match k.action? s.console.mode with
  | some a => let (s, command) := s.act a; (s, some command)
  | none => (s, none)

/-- Opens the first view. -/
def opening (s : Sitting) : Sitting × Option Command :=
  s.follow fun c => c.watchCurrent s.stage.surroundings

/-- Hears a piece of news at once. -/
def hear (s : Sitting) (news : News) : Sitting :=
  s.change fun c => c.hear s.stage.surroundings news

/-- Ends the sitting. -/
def shutdown (s : Sitting) : Sitting := s.change Console.shutdown

def settle (s : Sitting) : Sitting × Nat :=
  let (stage, n) := s.stage.settle owner
  ({ s with stage := stage }, n)

def wait (s : Sitting) (ms : Nat) : Sitting × Nat :=
  let (stage, n) := s.stage.wait owner ms
  ({ s with stage := stage }, n)

end Sitting

end ClusterConsole.Console
