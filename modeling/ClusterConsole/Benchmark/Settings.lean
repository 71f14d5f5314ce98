import ClusterConsole.Resource.Name
import ClusterConsole.Text.Blank

/-!
# Benchmark settings

Settings say how a container is put under load. They come in layers: the
built-in ones, the defaults of a file, and the file's override for one
container. A later layer wins field by field wherever it sets the field; a
number is set if it is not zero and a text if it is not blank.
-/

namespace ClusterConsole.Benchmark

open ClusterConsole.Resource

structure Settings where
  concurrency : Nat
  requests : Nat
  method : String
  path : String
  host : String
  body : String
  deriving DecidableEq, Repr, Inhabited

namespace Settings

/-- Settings that set nothing. -/
def unset : Settings := ⟨0, 0, "", "", "", ""⟩

/-- The settings that hold where no file says otherwise. -/
def builtin : Settings := ⟨1, 200, "GET", "/", "", ""⟩

/-- The number of the later layer, if that sets it. -/
def overNumber (base later : Nat) : Nat := if later = 0 then base else later

/-- The text of the later layer, if that sets it. -/
def overText (base later : String) : String :=
  if Text.allBlank later then base else later

/-- The settings of `base`, with those that `later` sets. -/
def merge (base later : Settings) : Settings where
  concurrency := overNumber base.concurrency later.concurrency
  requests := overNumber base.requests later.requests
  method := overText base.method later.method
  path := overText base.path later.path
  host := overText base.host later.host
  body := overText base.body later.body

end Settings

/-- The settings of a benchmark file; the overrides stand under the keys of
their containers, in ascending order. -/
structure SettingsFile where
  defaults : Settings
  containers : List (String × Settings)
  deriving DecidableEq, Repr, Inhabited

namespace SettingsFile

/-- The file that sets nothing. -/
def empty : SettingsFile := ⟨Settings.unset, []⟩

/-- The override for a container. -/
def override? (f : SettingsFile) (path container : String) : Option Settings :=
  (f.containers.find? fun c => c.1 == containerKey path container).map (·.2)

/-- The settings that are in force for a container. -/
def resolve (f : SettingsFile) (path container : String) : Settings :=
  let base := Settings.builtin.merge f.defaults
  match f.override? path container with
  | some given => base.merge given
  | none => base

/-- An entry put in its place by key; an entry of the same key is replaced. -/
def insert (key : String) (s : Settings) : List (String × Settings) → List (String × Settings)
  | [] => [(key, s)]
  | c :: cs =>
      if key = c.1 then (key, s) :: cs
      else if key < c.1 then (key, s) :: c :: cs
      else c :: insert key s cs

end SettingsFile

end ClusterConsole.Benchmark
