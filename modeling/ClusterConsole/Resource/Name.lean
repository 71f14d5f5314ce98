import ClusterConsole.Text.Cut

/-!
# Qualified names

The key of a row is `namespace/name`, or the bare name where there is no
namespace. A container's key is the key of its pod and the container's name,
joined by a bar.
-/

namespace ClusterConsole.Resource

/-- The key of a named object in a namespace; the namespace may be empty. -/
def qualified (ns name : String) : String :=
  if ns = "" then name else ns ++ "/" ++ name

/-- A key cut at its first slash; without one there is no namespace. -/
def unqualified (path : String) : String × String :=
  (Text.cut '/' path).getD ("", path)

/-- The namespace part of a key. -/
def namespaceOf (path : String) : String := (unqualified path).1

/-- The key of a container, a forward and a benchmark override. -/
def containerKey (path container : String) : String :=
  path ++ "|" ++ container

end ClusterConsole.Resource
