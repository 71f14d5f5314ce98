import ClusterConsole.Status.Failure
import ClusterConsole.Storage.Files

/-!
# Watching for a file

A directory is watched for one file. What happens there arrives in batches of
paths; a batch counts if one of its paths ends in the name of the file. The watch
takes all batches that have arrived, one after the other, and asks for one
reading of the file if any of them counts.
-/

namespace ClusterConsole.Storage

open ClusterConsole.Status

namespace Watch

/-- Whether one of the paths ends in the name of the file. -/
def hits (paths : List String) (file : String) : Bool :=
  match Path.fileName? file with
  | none => false
  | some name => paths.any fun p => Path.fileName? p == some name

/-- The words for a directory that cannot be made. -/
def refusalText (files : Files) (directory : String) : String :=
  if files.present directory then "File exists (os error 17)" else "Not a directory (os error 20)"

/-- Makes the directory that is to be watched. -/
def prepare (files : Files) (directory : String) : Except Failure Files :=
  match files.makeDirectory directory with
  | some files => .ok files
  | none => .error (.notWatchable directory (refusalText files directory))

end Watch

/-- A watch: the batches that have arrived and were not yet taken. -/
structure Watch where
  arrived : List (List String)
  calledOff : Bool
  deriving DecidableEq, Repr, Inhabited

namespace Watch

def start : Watch := ⟨[], false⟩

/-- A batch arrives. -/
def arrive (w : Watch) (paths : List String) : Watch := { w with arrived := w.arrived ++ [paths] }

/-- Takes what has arrived; tells whether the file is to be read again. -/
def take (w : Watch) (file : String) : Watch × Bool :=
  if w.calledOff then (w, false)
  else ({ w with arrived := [] }, w.arrived.any fun paths => hits paths file)

end Watch

end ClusterConsole.Storage
