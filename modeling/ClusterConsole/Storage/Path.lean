import ClusterConsole.Text.Cut

/-!
# Paths

A path is a text whose parts are separated by slashes. Empty parts and single
dots name nothing, so two paths with the same `parts` name the same place.
-/

namespace ClusterConsole.Storage

namespace Path

def absolute (p : String) : Bool := p.toList.head? == some '/'

/-- Whether a part of a path names nothing. -/
def idle (part : String) : Bool := part == "" || part == "."

/-- The parts of a path that name something. -/
def parts (p : String) : List String :=
  (Text.split '/' p).filter fun s => !idle s

/-- `p` continued by `q`; an absolute `q` stands alone. -/
def join (p q : String) : String :=
  if absolute q ∨ p = "" then q
  else if p.toList.getLast? = some '/' then p ++ q
  else p ++ "/" ++ q

/-- The last part, if it is a name. -/
def fileName? (p : String) : Option String :=
  (parts p).getLast?.filter (· != "..")

/-- The path without its last part. -/
def parent (p : String) : List String := (parts p).dropLast

/-- What stands before and after the last dot of a file name. A dot at the very
front does not count. -/
def cutExtension (name : String) : String × Option String :=
  let cs := name.toList
  let tail := (cs.reverse.takeWhile (· ≠ '.')).reverse
  let head := cs.take (cs.length - tail.length - 1)
  if tail.length = cs.length ∨ head = [] then (name, none)
  else (String.ofList head, some (String.ofList tail))

/-- Whether the path can only name a directory. -/
def namesDirectory (p : String) : Bool :=
  match (Text.split '/' p).getLast? with
  | some last => (last == "" || last == "." || last == "..") && p != ""
  | none => false

/-- A home directory put in place of a leading `~`. What follows is taken over as
it is, up to the parts at its ends that name nothing. -/
def expandHome (home : String) (p : String) : String :=
  match Text.split '/' p with
  | "~" :: rest =>
      let rest := ((rest.dropWhile idle).reverse.dropWhile idle).reverse
      join home (Text.join "/" rest)
  | _ => p

end Path

end ClusterConsole.Storage
