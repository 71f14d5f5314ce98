import ClusterConsole.Background.News
import ClusterConsole.Status.Notice

/-!
# A ledger

A ledger owns forwards and benchmarks without showing them: it writes down the
notices it is given and counts how often something changed. Its status is the
text of the last notice.
-/

namespace ClusterConsole.Background

open ClusterConsole.Status

structure Ledger where
  registry : Forwarding.Registry
  runner : Benchmark.Runner
  notices : List Notice
  status : String
  /-- How often the list of forwards changed. -/
  changes : Nat
  /-- How often the status was cleared. -/
  resets : Nat
  /-- How often new settings came into force. -/
  reloads : Nat
  deriving Inhabited

namespace Ledger

def empty (directory : Option String) : Ledger :=
  ⟨Forwarding.Registry.empty, Benchmark.Runner.empty directory, [], "", 0, 0, 0⟩

/-- Writes a notice down. -/
def note (l : Ledger) (n : Notice) : Ledger :=
  { l with notices := l.notices ++ [n], status := n.text }

def note? (l : Ledger) : Option Notice → Ledger
  | some n => l.note n
  | none => l

/-- Clears the status while it is the message. -/
def reset (l : Ledger) (shown : String) : Ledger :=
  if l.status = shown then { l with status := "", resets := l.resets + 1 } else l

/-- Writes down what a piece of news changes. -/
def hear (s : Surroundings) (news : News) (l : Ledger) : Ledger :=
  match news with
  | .forward report =>
      let a := l.registry.applyReport report
      { l with
        registry := a.registry
        changes := l.changes + (if a.changed then 1 else 0) }.note? a.notice
  | .benchmark completion =>
      let (runner, notice) := l.runner.applyCompletion completion
      { l with runner := runner }.note? notice
  | .holdOver message => if l.runner.isRunning then l else l.reset message
  | .settingsWritten path =>
      match l.runner.reload s.files path with
      | .ok runner => { l with runner := runner, reloads := l.reloads + 1 }
      | .error e => l.note ⟨.error, e.message⟩
  | .table .. | .tableFailure .. => l

def owner : Owner Ledger := ⟨hear, Ledger.registry, Ledger.runner⟩

end Ledger

end ClusterConsole.Background
