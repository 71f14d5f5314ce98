import ClusterConsole.Benchmark.Report
import ClusterConsole.Web.Url

/-!
# Load

A benchmark's requests are sent by workers that draw on one budget. A worker
takes one from the budget, sends a request and counts what became of it; it is
done when the budget is spent or when the load is called off while a request is
under way. A request that was called off is not counted. The report of a load is
the sum of the workers' tallies.
-/

namespace ClusterConsole.Benchmark

open ClusterConsole.Status

/-- What became of a request. -/
inductive Reply where
  | status (code : Nat)
  | lost
  deriving DecidableEq, Repr, Inhabited

/-- Takes one from a budget, if there is something left. -/
def takeOne (left : Nat) : Nat × Bool :=
  match left with
  | 0 => (0, false)
  | n + 1 => (n, true)

/-- What a worker is at. -/
inductive WorkerPhase where
  | idle
  | sending
  | done
  deriving DecidableEq, Repr, Inhabited

structure Worker where
  phase : WorkerPhase
  tally : Report
  deriving DecidableEq, Repr, Inhabited

namespace Worker

def fresh : Worker := ⟨.idle, Report.empty⟩

/-- A reply counted. -/
def count (tally : Report) : Reply → Report
  | .status code =>
      { tally with
        sent := tally.sent + 1
        byClass := Report.addClass (code / 100) 1 tally.byClass }
  | .lost => { tally with sent := tally.sent + 1, errors := tally.errors + 1 }

end Worker

/-- A load under way. -/
structure Load where
  budget : Nat
  workers : List Worker
  calledOff : Bool
  deriving DecidableEq, Repr, Inhabited

namespace Load

/-- The load that the settings ask for; there is always a worker. -/
def start (s : Settings) : Load :=
  ⟨s.requests, List.replicate (max s.concurrency 1) Worker.fresh, false⟩

/-- The step of an idle worker: it sends a request or is done. -/
def take (l : Load) (i : Nat) : Load :=
  match l.workers[i]? with
  | some ⟨.idle, tally⟩ =>
      let (budget, taken) := takeOne l.budget
      let phase := if taken then WorkerPhase.sending else .done
      { l with budget := budget, workers := l.workers.set i ⟨phase, tally⟩ }
  | _ => l

/-- The reply to a worker's request. -/
def answer (l : Load) (i : Nat) (reply : Reply) : Load :=
  match l.workers[i]? with
  | some ⟨.sending, tally⟩ =>
      { l with workers := l.workers.set i ⟨.idle, Worker.count tally reply⟩ }
  | _ => l

/-- The step of a worker that finds the load called off. -/
def giveUp (l : Load) (i : Nat) : Load :=
  match l.workers[i]? with
  | some ⟨.sending, tally⟩ =>
      if l.calledOff then { l with workers := l.workers.set i ⟨.done, tally⟩ } else l
  | _ => l

def callOff (l : Load) : Load := { l with calledOff := true }

/-- The sum of the tallies. -/
def report (l : Load) (elapsed : Nat) : Report :=
  { l.workers.foldl (fun r w => r.absorb w.tally) Report.empty with elapsed := elapsed }

/-- The characters of the name of a method. -/
def methodChar (c : Char) : Bool := c.isAlphanum || "!#$%&'*+-.^_`|~".toList.contains c

/-- Whether a target can be put under load at all. -/
def check (target : Target) : Except Chain Unit :=
  let method := target.settings.method
  if method = "" ∨ !method.toList.all methodChar then .error ["invalid HTTP method " ++ method]
  else if !Web.isUrl target.url then .error ["invalid benchmark URL " ++ target.url]
  else .ok ()

/-- A load whose workers take turns; `reply` tells what becomes of each request. -/
def run (s : Settings) (calledOff : Bool) (reply : Nat → Reply) (elapsed : Nat) : Report :=
  let width := max s.concurrency 1
  let turn (l : Load) (i : Nat) : Load :=
    let worker := i % width
    let l := l.take worker
    if calledOff then l.giveUp worker else l.answer worker (reply i)
  let l := { start s with calledOff := calledOff }
  ((List.range s.requests).foldl turn l).report elapsed

end Load

end ClusterConsole.Benchmark
