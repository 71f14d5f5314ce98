import ClusterConsole.Benchmark.Settings
import ClusterConsole.Number.Binary64
import ClusterConsole.Status.Notice
import ClusterConsole.Status.Failure
import ClusterConsole.Text.Cut
import ClusterConsole.Time.Calendar

/-!
# Benchmark reports

A report counts what one benchmark did. `render` writes it as lines of
`Key: value`, and the summary puts it into one line. Rates and durations are
written with a fixed number of places.
-/

namespace ClusterConsole.Benchmark

open ClusterConsole.Number ClusterConsole.Status
open ClusterConsole.Time (nanosPerSecond)

/-- What is put under load. -/
structure Target where
  name : String
  url : String
  settings : Settings
  deriving DecidableEq, Repr, Inhabited

/-- Counts of one benchmark. `byClass` holds the responses by the first digit of
their status, in ascending order; `elapsed` is in nanoseconds. -/
structure Report where
  sent : Nat
  byClass : List (Nat × Nat)
  errors : Nat
  elapsed : Nat
  deriving DecidableEq, Repr, Inhabited

namespace Report

def empty : Report := ⟨0, [], 0, 0⟩

/-- A count added to that of its class, the classes kept in ascending order. -/
def addClass (key count : Nat) : List (Nat × Nat) → List (Nat × Nat)
  | [] => [(key, count)]
  | c :: cs =>
      if key = c.1 then (c.1, c.2 + count) :: cs
      else if key < c.1 then (key, count) :: c :: cs
      else c :: addClass key count cs

/-- The counts of both reports added; the time stays that of the first. -/
def absorb (r s : Report) : Report :=
  { r with
    sent := r.sent + s.sent
    errors := r.errors + s.errors
    byClass := s.byClass.foldl (fun acc c => addClass c.1 c.2 acc) r.byClass }

/-- The responses of a class. -/
def count (r : Report) (key : Nat) : Nat :=
  ((r.byClass.find? fun c => c.1 == key).map (·.2)).getD 0

/-- The elapsed time in seconds. -/
def seconds (r : Report) : Binary64 :=
  (Binary64.ofNat (r.elapsed / nanosPerSecond)).addUnsigned
    ((Binary64.ofNat (r.elapsed % nanosPerSecond)).divUnsigned (Binary64.ofNat nanosPerSecond))

/-- The requests per second; none if no time has passed. -/
def rate (r : Report) : Binary64 :=
  if r.elapsed = 0 then Binary64.zero else (Binary64.ofNat r.sent).divUnsigned r.seconds

/-- The report in one line. -/
def summary (r : Report) : String :=
  toString r.sent ++ " requests, " ++ toString (r.count 2) ++ " ok, " ++ toString r.errors ++
    " errors, " ++ r.rate.fixed 1 ++ " req/s"

/-- The lines of a saved report. -/
def renderLines (r : Report) (target : Target) (canceled : Bool) : List String :=
  ["Target:      " ++ target.name,
    "URL:         " ++ target.url,
    "Method:      " ++ target.settings.method,
    "Concurrency: " ++ toString target.settings.concurrency,
    "Requests:    " ++ toString target.settings.requests,
    "Canceled:    " ++ (if canceled then "true" else "false"),
    "",
    "Sent:        " ++ toString r.sent] ++
  (r.byClass.map fun c => toString c.1 ++ "xx:         " ++ toString c.2) ++
  ["Errors:      " ++ toString r.errors,
    "Elapsed:     " ++ r.seconds.fixed 3 ++ "s",
    "Req/sec:     " ++ r.rate.fixed 2]

/-- The text of a saved report. -/
def render (r : Report) (target : Target) (canceled : Bool) : String :=
  String.join ((r.renderLines target canceled).map (· ++ "\n"))

end Report

/-- How a benchmark ended, as its completion tells it. -/
structure Completion where
  id : Nat
  canceled : Bool
  result : Except Chain Report
  savedAt : Option String

namespace Completion

/-- The notice that a benchmark has ended. -/
def notice (c : Completion) : Notice :=
  match c.result with
  | .error chain => ⟨.error, "Benchmark failed: " ++ chain.oneLine⟩
  | .ok report =>
      if c.canceled then ⟨.info, "Benchmark canceled"⟩
      else
        let saved := (c.savedAt.map fun path => " (saved " ++ path ++ ")").getD ""
        ⟨.info, "Benchmark completed: " ++ report.summary ++ saved⟩

end Completion

end ClusterConsole.Benchmark
