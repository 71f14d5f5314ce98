import ClusterConsole.Benchmark.Report
import ClusterConsole.Resource.Age
import ClusterConsole.Snapshot.Entry
import ClusterConsole.Storage.Files
import ClusterConsole.Time.Calendar

/-!
# Saved reports

Reports are saved as text files in one directory per cluster. The name of a file
is the name of the benchmark's target, made safe for file names, and the time of
the writing. `reportRow?` reads the status, the rate and the number of errors back
and adds the age of the file.
-/

namespace ClusterConsole.Benchmark

open ClusterConsole.Number ClusterConsole.Snapshot ClusterConsole.Storage

/-- A name without the characters that separate parts of paths and keys. -/
def safeName (name : String) : String :=
  String.ofList (name.toList.map fun c =>
    if c = '/' ∨ c = '\\' ∨ c = '|' ∨ c = ':' ∨ c = ' ' then '_' else c)

/-- The settings file of a cluster. -/
def settingsPath (home cluster : String) : String :=
  Path.join home ("bench-" ++ safeName cluster ++ ".yml")

/-- The directory of a cluster's reports. -/
def reportsDirectory (home cluster : String) : String :=
  Path.join (Path.join home "benchmarks") (safeName cluster)

/-- What the names of all reports of a target start with. -/
def reportHead (target : String) : String := safeName target ++ "-"

namespace Report

/-- The file a report is saved in. -/
def path (directory : String) (target : String) (time : Time.Moment) : String :=
  Path.join directory (safeName target ++ "-" ++ time.stamp ++ ".txt")

/-- Saves a report; the result is its path, or none if it could not be saved. -/
def save (files : Files) (directory : String) (target : Target) (r : Report) (canceled : Bool)
    (time : Time.Moment) : Files × Option String :=
  match files.makeDirectory directory with
  | none => (files, none)
  | some files =>
      let path := path directory target.name time
      match files.write path (r.render target canceled) with
      | none => (files, none)
      | some files => (files, some path)

end Report

/-- What is read back from a saved report. -/
structure Reading where
  canceled : Bool
  errors : Nat
  rate : String
  deriving DecidableEq, Repr, Inhabited

namespace Reading

def start : Reading := ⟨false, 0, "n/a"⟩

/-- The reading after one more line; a later line of the same key wins. -/
def line (r : Reading) (cs : List Char) : Reading :=
  match Text.cutList ':' cs with
  | none => r
  | some (key, value) =>
      let value := Text.trimList value
      match String.ofList (Text.trimList key) with
      | "Canceled" => { r with canceled := String.ofList value == "true" }
      | "Errors" => { r with errors := (unsigned? word64 value).getD 0 }
      | "Req/sec" => { r with rate := String.ofList value }
      | _ => r

/-- What the text of a report says. -/
def ofText (text : String) : Reading :=
  (Text.linesFrom [] text.toList).foldl line start

def status (r : Reading) : String :=
  if r.canceled then "Canceled" else if r.errors > 0 then "Fail" else "Pass"

end Reading

/-- The age of a file, if that can be told. -/
def ageText (age : Option Nat) : String :=
  match age with
  | some seconds => Resource.Age.write seconds
  | none => "n/a"

/-- The row of a report file that is as it is for so many seconds. -/
def reportRow? (name : String) (node : Node) (age : Option Nat) : Option Row :=
  match node, Path.cutExtension name with
  | .file (some text), (stem, some "txt") =>
      let r := Reading.ofText text
      some ⟨stem, [stem, r.status, r.rate, toString r.errors, ageText age]⟩
  | _, _ => none

/-- The rows of the reports in a directory, all of them or those of one target. -/
def reportRows (files : Files) (directory : String) (target : Option String) : List Row :=
  match files.list directory with
  | .error _ => []
  | .ok nodes =>
      let rows := nodes.filterMap fun n =>
        reportRow? n.1 n.2 (files.age? (Path.join directory n.1))
      rows.filter fun row =>
        match target with
        | none => true
        | some name => (reportHead name).toList.isPrefixOf row.fqn.toList

end ClusterConsole.Benchmark
