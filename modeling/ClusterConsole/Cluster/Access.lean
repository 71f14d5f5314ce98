import ClusterConsole.Status.Failure
import ClusterConsole.Storage.Files
import ClusterConsole.Web.Address
import ClusterConsole.Yaml.Record

/-!
# Access to a cluster

An access file lists clusters and contexts. A context names a cluster and perhaps
a namespace; the current context is the one that is used. The access is good if
that context and its cluster are in the file and the cluster has an address.
-/

namespace ClusterConsole.Cluster

open ClusterConsole.Status
open ClusterConsole.Storage (Files)
open ClusterConsole.Yaml (recordOf?)

/-- The context in use, its cluster and its namespace. -/
structure Access where
  context : String
  cluster : String
  ns : String
  deriving DecidableEq, Repr, Inhabited

/-- A context of an access file. -/
structure AccessContext where
  cluster : String
  ns : Option String
  deriving DecidableEq, Repr, Inhabited

/-- An access file: the addresses of the clusters and the contexts, each under its
name. A name may stand without a content. -/
structure AccessFile where
  current : Option String
  servers : List (String × Option (Option String))
  contexts : List (String × Option AccessContext)
  deriving DecidableEq, Repr, Inhabited

namespace AccessFile

def empty : AccessFile := ⟨none, [], []⟩

/-- The spellings that are the names themselves. -/
def named (names : List String) (name : String) : Option String :=
  if names.contains name then some name else none

/-- The entries of a list, each of them a name and a content under `key`. -/
def entriesOf? {α : Type} (d : Yaml.Document) (key : String) (read : Yaml.Node → Option α)
    (n : Yaml.Node) : Option (List (String × Option α)) := do
  let items ← d.optional? d.items? n
  (items.getD []).mapM fun item => do
    let fields ← d.record? (named ["name", key]) item
    let name ← (fields.find? fun f => f.1 == "name").bind fun f => d.text? f.2
    let content ← Yaml.Document.fieldD fields key none (d.optional? read)
    return (name, content)

/-- The address of a cluster. -/
def serverOf? (d : Yaml.Document) (n : Yaml.Node) : Option (Option String) := do
  let fields ← d.record? (named ["server"]) n
  Yaml.Document.fieldD fields "server" none (d.optional? d.text?)

def contextOf? (d : Yaml.Document) (n : Yaml.Node) : Option AccessContext := do
  let fields ← d.record? (named ["cluster", "namespace"]) n
  let cluster ← (fields.find? fun f => f.1 == "cluster").bind fun f => d.text? f.2
  let ns ← Yaml.Document.fieldD fields "namespace" none (d.optional? d.text?)
  return ⟨cluster, ns⟩

/-- The access file in a node. -/
def ofNode? (d : Yaml.Document) (n : Yaml.Node) : Option AccessFile := do
  let fields ← d.record? (named ["current-context", "clusters", "contexts"]) n
  let current ← Yaml.Document.fieldD fields "current-context" none (d.optional? d.text?)
  let servers ← Yaml.Document.fieldD fields "clusters" [] (entriesOf? d "cluster" (serverOf? d))
  let contexts ← Yaml.Document.fieldD fields "contexts" [] (entriesOf? d "context" (contextOf? d))
  return ⟨current, servers, contexts⟩

/-- The first content that stands under a name. -/
def find? {α : Type} (entries : List (String × Option α)) (name : String) : Option α :=
  (entries.find? fun e => e.1 == name).bind (·.2)

end AccessFile

namespace Access

/-- The namespace of a context that names none. -/
def standardNamespace : String := "default"

/-- The access that a file gives. -/
def ofFile? (f : AccessFile) : Option Access := do
  let context ← f.current
  let used ← AccessFile.find? f.contexts context
  let server ← AccessFile.find? f.servers used.cluster
  let address ← server
  if Web.isAddress address then
    some ⟨context, if used.cluster = "" then context else used.cluster,
      used.ns.getD standardNamespace⟩
  else none

/-- The error for an access that cannot be had. -/
def unavailable : Chain := ["failed to infer Kubernetes configuration"]

/-- The access that the text of a file gives. -/
def ofText? (text : String) : Option Access :=
  (recordOf? text AccessFile.ofNode?).bind ofFile?

/-- The access that the file at a path gives. -/
def load (files : Files) (path : String) : Except Chain Access :=
  ((files.read path).toOption.bind ofText?).elim (.error unavailable) .ok

end Access

end ClusterConsole.Cluster
