import ClusterConsole.Storage.Path
import ClusterConsole.Time.Calendar

/-!
# Files

A snapshot of the files that the console can see. A file holds text, or bytes
that are no text; a path that leads through a file, or to a directory, cannot be
read, which is not the same as a path that leads nowhere. What is put somewhere
was changed at that time, and its age is what has passed since then.
-/

namespace ClusterConsole.Storage

/-- What a path can lead to. -/
inductive Node where
  | directory
  /-- A file with its text; none if its bytes are not UTF-8. -/
  | file (text : Option String)
  deriving DecidableEq, Repr, Inhabited

/-- Why a file could not be read. -/
inductive ReadFault where
  | missing
  | unreadable
  deriving DecidableEq, Repr, Inhabited

/-- The nodes below the working directory, each under the parts of its path. Times
are in nanoseconds. -/
structure Files where
  nodes : List (List String × Node)
  /-- When the nodes were last changed, where that can be told. -/
  changes : List (List String × Int)
  /-- The time of the snapshot. -/
  now : Int
  deriving DecidableEq, Repr, Inhabited

namespace Files

def empty : Files := ⟨[], [], 0⟩

/-- The most bytes that one part of a path may have. -/
def partLimit : Nat := 255

/-- The place a path leads to, `..` taken back; none for a path outside of the
working directory or with a part that no file can have. -/
def place? (path : String) : Option (List String) :=
  if Path.absolute path ∨ path = "" then none
  else
    (Path.parts path).foldl (fun acc part =>
      acc.bind fun ps =>
        if part = ".." then (if ps = [] then none else some ps.dropLast)
        else some (ps ++ [part])) (some [])

/-- Whether the parts can be parts of a path. -/
def nameable (path : String) : Bool :=
  (Path.parts path).all fun part => part.utf8ByteSize ≤ partLimit && !part.toList.contains '\x00'

/-- The node at a place; the working directory is a directory. -/
def at? (f : Files) (ps : List String) : Option Node :=
  if ps = [] then some .directory
  else (f.nodes.find? fun n => n.1 == ps).map (·.2)

/-- Whether a file stands on the way to the place. -/
def blocked (f : Files) (ps : List String) : Bool :=
  (List.range ps.length).any fun i =>
    match f.at? (ps.take i) with
    | some (.file _) => true
    | _ => false

/-- The node a path leads to. -/
def find (f : Files) (path : String) : Except ReadFault Node :=
  if !nameable path then .error .unreadable
  else
    match place? path with
    | none => .error .missing
    | some ps =>
        if f.blocked ps then .error .unreadable
        else
          match f.at? ps with
          | none => .error .missing
          | some (.file t) => if Path.namesDirectory path then .error .unreadable else .ok (.file t)
          | some .directory => .ok .directory

/-- The text of a file. -/
def read (f : Files) (path : String) : Except ReadFault String :=
  match f.find path with
  | .error e => .error e
  | .ok (.file (some text)) => .ok text
  | .ok _ => .error .unreadable

/-- Whether something is there. -/
def present (f : Files) (path : String) : Bool :=
  (f.find path).toOption.isSome

/-- For how many seconds what a path leads to is as it is; none if that cannot be
told, or if the change is said to be yet to come. -/
def age? (f : Files) (path : String) : Option Nat :=
  (place? path).bind fun ps =>
    (f.changes.lookup ps).bind fun time =>
      if time ≤ f.now then some ((f.now - time).toNat / Time.nanosPerSecond) else none

/-- The node at a place replaced, or put there. -/
def put (f : Files) (ps : List String) (n : Node) : Files :=
  let changes := (ps, f.now) :: f.changes
  if f.nodes.any fun m => m.1 == ps then
    ⟨f.nodes.map fun m => if m.1 == ps then (ps, n) else m, changes, f.now⟩
  else ⟨f.nodes ++ [(ps, n)], changes, f.now⟩

/-- A directory and all that lead to it, if no file is in the way. -/
def makeDirectory (f : Files) (path : String) : Option Files :=
  if path = "" then some f
  else if !nameable path then none
  else
    (place? path).bind fun ps =>
      (List.range ps.length).foldl (fun acc i =>
        acc.bind fun f =>
          let here := ps.take (i + 1)
          match f.at? here with
          | some .directory => some f
          | some (.file _) => none
          | none => some (f.put here .directory)) (some f)

/-- A file written, if its directory is there and it is no directory. -/
def write (f : Files) (path text : String) : Option Files :=
  if !nameable path ∨ Path.namesDirectory path then none
  else
    (place? path).bind fun ps =>
      match f.at? ps.dropLast, f.at? ps with
      | some .directory, some .directory => none
      | some .directory, _ => some (f.put ps (.file (some text)))
      | _, _ => none

/-- A node put at a path, together with the directories that lead there. -/
def install (f : Files) (path : String) (n : Node) : Files :=
  let f := (f.makeDirectory (Text.join "/" (Path.parent path))).getD f
  match n, place? path with
  | .directory, _ => (f.makeDirectory path).getD f
  | .file _, some ps => f.put ps n
  | .file _, none => f

/-- All that stands at a path and below it taken away. -/
def remove (f : Files) (path : String) : Files :=
  match place? path with
  | none => f
  | some ps =>
      { f with
        nodes := f.nodes.filter fun n => !ps.isPrefixOf n.1
        changes := f.changes.filter fun c => !ps.isPrefixOf c.1 }

/-- The names in a directory with what they lead to. -/
def list (f : Files) (path : String) : Except ReadFault (List (String × Node)) :=
  match f.find path, place? path with
  | .ok .directory, some ps =>
      .ok (f.nodes.filterMap fun n =>
        if n.1.dropLast == ps then n.1.getLast?.map fun name => (name, n.2) else none)
  | .error e, _ => .error e
  | _, _ => .error .unreadable

end Files

end ClusterConsole.Storage
