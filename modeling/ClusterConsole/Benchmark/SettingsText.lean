import ClusterConsole.Benchmark.Settings
import ClusterConsole.Status.Failure
import ClusterConsole.Storage.Files
import ClusterConsole.Yaml.Record

/-!
# The text of a settings file

A settings file is a YAML record. A missing file and a blank one set nothing; a
file that cannot be read or is not such a record is refused.
-/

namespace ClusterConsole.Benchmark

open ClusterConsole.Status ClusterConsole.Yaml
open ClusterConsole.Storage (Files)

namespace Settings

/-- The spellings of the fields. -/
def spelling : String → Option String
  | "concurrency" | "c" => some "concurrency"
  | "requests" | "n" => some "requests"
  | "http" => some "http"
  | _ => none

def httpSpelling (name : String) : Option String :=
  if ["method", "path", "host", "body"].contains name then some name else none

/-- The settings in a node. -/
def ofNode? (d : Document) (n : Node) : Option Settings := do
  let fields ← d.record? spelling n
  let concurrency ← Document.fieldD fields "concurrency" 0 (d.unsigned? Number.word64)
  let requests ← Document.fieldD fields "requests" 0 (d.unsigned? Number.word64)
  let http ← Document.fieldD fields "http" [] (d.record? httpSpelling)
  let method ← Document.fieldD http "method" "" d.text?
  let path ← Document.fieldD http "path" "" d.text?
  let host ← Document.fieldD http "host" "" d.text?
  let body ← Document.fieldD http "body" "" d.text?
  return ⟨concurrency, requests, method, path, host, body⟩

end Settings

namespace SettingsFile

/-- The overrides in a node; of several for one container the last counts. -/
def containersOfNode? (d : Document) (n : Node) : Option (List (String × Settings)) := do
  let entries ← d.entries? n
  let pairs ← entries.mapM fun (k, v) => do
    return (← d.text? k, ← Settings.ofNode? d v)
  return pairs.foldl (fun acc p => insert p.1 p.2 acc) []

/-- The spellings that are the names themselves. -/
def named (names : List String) (name : String) : Option String :=
  if names.contains name then some name else none

/-- The settings file in a node. -/
def ofNode? (d : Document) (n : Node) : Option SettingsFile := do
  let top ← d.record? (named ["benchmarks"]) n
  let inner ← Document.fieldD top "benchmarks" [] (d.record? (named ["defaults", "containers"]))
  let defaults ← Document.fieldD inner "defaults" Settings.unset (Settings.ofNode? d)
  let containers ← Document.fieldD inner "containers" [] (containersOfNode? d)
  return ⟨defaults, containers⟩

/-- The settings that a text sets. -/
def ofText? (text : String) : Option SettingsFile :=
  if Text.allBlank text then some empty else recordOf? text ofNode?

/-- The cause that is given for a file that cannot be read. -/
def unreadableText : String := "the file could not be read"

/-- The cause that is given for a file that is no such record. -/
def malformedText : String := "the file is not a settings record"

/-- The settings of the file at a path. -/
def load (files : Files) (path : String) : Except Chain SettingsFile :=
  match files.read path with
  | .error .missing => .ok empty
  | .error .unreadable => .error ["failed to read " ++ path, unreadableText]
  | .ok text =>
      match ofText? text with
      | some f => .ok f
      | none => .error ["failed to parse " ++ path, malformedText]

end SettingsFile

end ClusterConsole.Benchmark
