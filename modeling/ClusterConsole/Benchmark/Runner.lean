import ClusterConsole.Benchmark.Report
import ClusterConsole.Benchmark.SettingsText

/-!
# The benchmark runner

One benchmark runs at a time. The runner holds the settings file in force and a
slot for the benchmark that was started last; the slot is emptied by the
completion of the benchmark that owns it and by no other. A benchmark that was
called off keeps the slot until it completes, but a new one may replace it.

Ids number the benchmarks in the order they were started and name their tokens.
-/

namespace ClusterConsole.Benchmark

open ClusterConsole.Status

inductive Phase where
  | idle
  | running
  | canceled
  | completed
  deriving DecidableEq, Repr, Inhabited

namespace Phase

def name : Phase → String
  | idle => "Idle"
  | running => "Running"
  | canceled => "Canceled"
  | completed => "Completed"

end Phase

/-- A benchmark that was started. `startedAt` is in seconds of the wall clock. -/
structure Session where
  id : Nat
  settings : Settings
  target : String
  phase : Phase
  startedAt : Int
  deriving DecidableEq, Repr, Inhabited

structure Runner where
  file : SettingsFile
  slot : Option Session
  nextId : Nat
  directory : Option String
  calledOff : List Nat
  closed : Bool
  deriving DecidableEq, Repr, Inhabited

namespace Runner

def empty (directory : Option String) : Runner :=
  ⟨SettingsFile.empty, none, 1, directory, [], false⟩

/-- Whether the token of that benchmark is called off. -/
def isCalledOff (r : Runner) (id : Nat) : Bool := r.closed || r.calledOff.contains id

/-- The benchmark that is running. -/
def running? (r : Runner) : Option Session := r.slot.filter fun s => s.phase == .running

def isRunning (r : Runner) : Bool := r.running?.isSome

def phase (r : Runner) : Phase := (r.slot.map (·.phase)).getD .idle

def resolve (r : Runner) (path container : String) : Settings := r.file.resolve path container

/-- Puts the settings of a file in force. A file that is refused leaves those that
are in force. -/
def reload (r : Runner) (files : Storage.Files) (path : String) : Except Failure Runner :=
  match SettingsFile.load files path with
  | .ok file => .ok { r with file := file }
  | .error chain => .error (.settingsNotLoaded path chain.oneLine)

/-- Starts a benchmark, unless one is running. -/
def run (r : Runner) (now : Int) (target : Target) : Except Failure (Runner × Nat) :=
  match r.running? with
  | some s => .error (.alreadyBenchmarking s.target)
  | none =>
      let s : Session := ⟨r.nextId, target.settings, target.name, .running, now⟩
      .ok ({ r with slot := some s, nextId := r.nextId + 1 }, s.id)

/-- Calls the running benchmark off; tells whether there was one. -/
def cancel (r : Runner) : Runner × Bool :=
  match r.running? with
  | some s =>
      ({ r with
        slot := some { s with phase := .canceled }
        calledOff := s.id :: r.calledOff }, true)
  | none => (r, false)

/-- Empties the slot, if the benchmark that has ended owns it. -/
def complete (r : Runner) (id : Nat) (canceled : Bool) : Runner × Option Session :=
  match r.slot.filter fun s => s.id == id with
  | none => (r, none)
  | some s =>
      let phase := if canceled ∨ s.phase = .canceled then Phase.canceled else Phase.completed
      ({ r with slot := none, calledOff := s.id :: r.calledOff }, some { s with phase := phase })

/-- Calls off the token that all benchmarks' tokens hang from. -/
def close (r : Runner) : Runner := { r with closed := true }

/-- Applies a completion; there is a notice only if the benchmark owns the slot. -/
def applyCompletion (r : Runner) (c : Completion) : Runner × Option Notice :=
  match r.complete c.id c.canceled with
  | (r', some _) => (r', some c.notice)
  | (r', none) => (r', none)

end Runner

end ClusterConsole.Benchmark
