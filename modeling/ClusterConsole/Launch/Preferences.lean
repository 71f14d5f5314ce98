import ClusterConsole.Resource.Kind
import ClusterConsole.Status.Failure
import ClusterConsole.Storage.Files
import ClusterConsole.Text.Blank
import ClusterConsole.Yaml.Record

/-!
# Preferences

The preferences of the operator are a small YAML record. It is looked for in the
working directory and then in the operator's home; a path that is given is taken
as it is. A blank file sets nothing.

The console keeps its own files in a home directory that the command line, the
environment or the preferences name.
-/

namespace ClusterConsole.Launch

open ClusterConsole.Resource ClusterConsole.Status ClusterConsole.Yaml
open ClusterConsole.Storage (Files Path.join Path.expandHome)

/-- What the operator may set. The refresh interval is in milliseconds. -/
structure Preferences where
  refresh : Option Nat
  home : Option String
  defaultView : Option String
  deriving DecidableEq, Repr, Inhabited

namespace Preferences

/-- Preferences that set nothing. -/
def unset : Preferences := ⟨none, none, none⟩

/-- The view to start with. A view that needs more than a kind, and a word that
names none, give way to the pods. -/
def startView (p : Preferences) : Kind :=
  match p.defaultView.bind Kind.ofWord? with
  | none | some .containers => .pods
  | some kind => kind

/-- The spellings of the fields. -/
def spelling : String → Option String
  | "refresh_ms" | "refreshMs" => some "refresh"
  | "home" => some "home"
  | "default_view" | "defaultView" => some "view"
  | _ => none

/-- The preferences in a node. -/
def ofNode? (d : Document) (n : Node) : Option Preferences := do
  let fields ← d.record? spelling n
  let refresh ← Document.fieldD fields "refresh" none (d.optional? (d.unsigned? Number.word64))
  let home ← Document.fieldD fields "home" none (d.optional? d.text?)
  let view ← Document.fieldD fields "view" none (d.optional? d.text?)
  return ⟨refresh, home, view⟩

/-- The preferences that a text sets. -/
def ofText? (text : String) : Option Preferences :=
  if Text.allBlank text then some unset else recordOf? text ofNode?

/-- The preferences in the file at a path. -/
def load (files : Files) (path : String) : Except Chain Preferences :=
  match files.read path with
  | .error _ => .error ["failed to read config " ++ path]
  | .ok text =>
      match ofText? text with
      | some p => .ok p
      | none => .error ["failed to parse config " ++ path]

/-- The places in the working directory, the first to be looked at first. -/
def localPaths : List String := ["skiff.yaml", ".skiff.yaml"]

/-- The place below the operator's home. -/
def homePath : String := ".config/skiff/config.yaml"

/-- The places below the operator's home and the working directory, in the order in
which they are looked at. -/
def standardPaths (home : Option String) : List String :=
  localPaths ++ (home.map fun h => Path.join h homePath).toList

/-- The path of the preferences, if there are any. -/
def discover (files : Files) (given home : Option String) : Option String :=
  match given.filter fun p => !Text.allBlank p with
  | some path => some path
  | none => (standardPaths home).find? files.present

end Preferences

/-- The name of the console's home where nothing else is said. -/
def bareHome : String := ".skiff"

/-- The console's home directory: the command line's, else the environment's, else
the preferences', else one beside the other programs' settings. -/
def consoleHome (operatorHome : String) (given environment preferred settings : Option String) :
    String :=
  let environment := (environment.map Text.trim).filter (· ≠ "")
  (given.or (environment.or ((preferred.map (Path.expandHome operatorHome)).or
    (settings.map fun d => Path.join d "skiff")))).getD bareHome

end ClusterConsole.Launch
