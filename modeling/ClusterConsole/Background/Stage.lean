import ClusterConsole.Background.Errand
import ClusterConsole.Background.News
import ClusterConsole.Background.Queue
import ClusterConsole.Cluster.Gateway
import ClusterConsole.Watching.PollLoop

/-!
# The stage

All that runs beside an owner: its transports and benchmarks and the poll loop of
its view. What can go on stands in one line of tasks and runs in that order, each
task up to the place where it has to wait. What waits for a time has a timer. A
task tells the owner something by queueing news; the owner hears them one by one
when it looks at the queue.
-/

namespace ClusterConsole.Background

open ClusterConsole.Status ClusterConsole.Watching
open ClusterConsole.Forwarding (Ending Report)

/-- What can go on; transports and benchmarks are named by their place. -/
inductive Task where
  | tunnel (k : Nat)
  | transport (k : Nat)
  | activation (k : Nat)
  | benchmark (k : Nat)
  | load (k : Nat)
  | poll
  deriving DecidableEq, Repr, Inhabited

/-- The poll loop of a view and its watcher; the listener is the generation that
the view belongs to. -/
structure ViewLoop where
  loop : PollLoop
  watcher : Watcher Nat

/-- `clock` is in milliseconds since the start, `time` in seconds on the wall. -/
structure Stage (σ : Type) where
  owner : σ
  files : Storage.Files
  time : Int
  clock : Nat
  queue : Queue News
  tasks : List Task
  /-- The timers, the first one to go off first. -/
  timers : List (Nat × Task)
  tunnels : List TunnelRun
  benchmarks : List BenchmarkRun
  /-- The benchmarks whose reports are being saved. -/
  saving : List Nat
  view : Option ViewLoop
  server : Cluster.Server
  /-- The requests that the view's watchers have made. -/
  requests : List Cluster.Request

namespace Stage

variable {σ : Type}

def open_ (owner : σ) (files : Storage.Files) (time : Int) (server : Cluster.Server) : Stage σ :=
  { owner := owner, files := files, time := time, clock := 0, queue := Queue.empty, tasks := [],
    timers := [], tunnels := [], benchmarks := [], saving := [], view := none, server := server,
    requests := [] }

def surroundings (w : Stage σ) : Surroundings := ⟨w.files, w.time⟩

/-- Puts a task in the line, unless it stands there. -/
def schedule (w : Stage σ) (t : Task) : Stage σ :=
  if w.tasks.contains t then w else { w with tasks := w.tasks ++ [t] }

/-- Sets a timer behind those that go off no later. -/
def setTimer (w : Stage σ) (time : Nat) (t : Task) : Stage σ :=
  if w.timers.contains (time, t) then w
  else
    let early := w.timers.takeWhile fun p => p.1 ≤ time
    { w with timers := early ++ (time, t) :: w.timers.drop early.length }

/-- Queues a piece of news; tells whether the queue took it. -/
def tell (w : Stage σ) (news : News) : Stage σ × Bool :=
  let (queue, taken) := w.queue.push (Job.single news)
  ({ w with queue := queue }, taken)

def tellAll (w : Stage σ) (news : List News) : Stage σ :=
  news.foldl (fun w n => (w.tell n).1) w

def setTunnel (w : Stage σ) (k : Nat) (r : TunnelRun) : Stage σ :=
  { w with tunnels := w.tunnels.set k r }

def onTrial (w : Stage σ) (k : Nat) (f : Benchmark.Trial → Benchmark.Trial) : Stage σ :=
  { w with benchmarks := w.benchmarks.modify k fun r => { r with trial := f r.trial } }

/-! ## Starting and calling off -/

/-- Starts the transport of a session. -/
def launch (w : Stage σ) (s : Forwarding.Session) (t : Transport) : Stage σ :=
  { w with tunnels := w.tunnels ++ [TunnelRun.ofSession s t] }.schedule (.tunnel w.tunnels.length)

/-- Starts a benchmark. -/
def begin (w : Stage σ) (id : Nat) (target : Benchmark.Target) (plan : LoadPlan) : Stage σ :=
  { w with benchmarks := w.benchmarks ++ [BenchmarkRun.mk ⟨id, target, .fresh⟩ plan] }.schedule
    (.benchmark w.benchmarks.length)

/-- Starts the poll loop of a view in place of the one that runs. -/
def watch (w : Stage σ) (watcher : Watcher Nat) : Stage σ :=
  { w with view := some ⟨PollLoop.start w.clock watcher.rate, watcher⟩ }.schedule .poll

/-- Changes the watcher of the view and lets its loop see it. -/
def adjust (w : Stage σ) (f : Watcher Nat → Watcher Nat) : Stage σ :=
  match w.view with
  | some v => { w with view := some { v with watcher := f v.watcher } }.schedule .poll
  | none => w

/-- Stops the poll loop of the view. -/
def unwatch (w : Stage σ) : Stage σ := { w with view := none }

/-- Lets everything go on that waits and was called off; what was started last
hears first of the end of all. -/
def wakeCalledOff (o : Owner σ) (w : Stage σ) : Stage σ :=
  let registry := o.registry w.owner
  let runner := o.runner w.owner
  let tunnels := (List.range w.tunnels.length).filter fun k =>
    match w.tunnels[k]? with
    | some r => r.waiting && registry.isCalledOff r.tunnel.generation
    | none => false
  let tunnels := if registry.closed then tunnels.reverse else tunnels
  let loads := (List.range w.benchmarks.length).filter fun k =>
    match w.benchmarks[k]? with
    | some r => r.idle && runner.isCalledOff r.trial.id
    | none => false
  (tunnels.map Task.transport ++ loads.map Task.load).foldl schedule w

/-- Changes the owner. -/
def change (o : Owner σ) (w : Stage σ) (f : σ → σ) : Stage σ :=
  wakeCalledOff o { w with owner := f w.owner }

/-- Breaks every transport that waits and can break. -/
def breakWaiting (w : Stage σ) (e : Ending) : Stage σ :=
  let hit := (List.range w.tunnels.length).filter fun k =>
    match w.tunnels[k]? with
    | some r => r.waiting && r.transport.breakable
    | none => false
  hit.foldl (fun w k =>
    { w with tunnels := w.tunnels.modify k fun r => { r with broken := some e } }.schedule
      (.transport k)) w

end Stage

end ClusterConsole.Background
