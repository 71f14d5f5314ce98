import ClusterConsole.Cluster.Rows
import ClusterConsole.Cluster.Server
import ClusterConsole.Watching.Watcher

/-!
# The gateway to the cluster

The gateway turns a view's target and scope into requests and the answers into
rows, sorted by key. A pod's containers keep the order in which the pod declares
them. Every failure names what was asked for; the server's own words are its
cause.
-/

namespace ClusterConsole.Cluster

open ClusterConsole.Resource ClusterConsole.Snapshot ClusterConsole.Status ClusterConsole.Watching

namespace Gateway

/-- The most items that are asked for in one list request. -/
def pageLimit : Nat := 500

/-- The words for a refusal. -/
def refusalText (status : Nat) : String := "the server answered " ++ toString status

/-- The words for a request that cannot be sent. -/
def unsendableText : String := "the request could not be written"

/-- The words for an answer that cannot be read. -/
def unreadableText : String := "the answer could not be read"

/-- The path of the resources of a kind in a scope. -/
def listPath (resource : String) (scope : Scope) : String :=
  let base := "/" ++ Text.join "/" (Inventory.base resource) ++ "/"
  match scope with
  | .all => base ++ resource
  | .named ns => base ++ "namespaces/" ++ ns ++ "/" ++ resource

/-- The path of a pod. -/
def podPath (ns name : String) : String :=
  "/api/v1/namespaces/" ++ ns ++ "/pods/" ++ name

/-- What is sent for the resources of a kind in a scope. -/
def listTarget (resource : String) (scope : Scope) : String :=
  listPath resource scope ++ "?&limit=" ++ toString pageLimit

/-- The requests that were made and what came of them. -/
abbrev Asked (α : Type) := List Request × Except Chain α

/-- The resources of a list request, if every item can be read. -/
def list {α : Type} (server : Server) (resource : String) (scope : Scope)
    (read? : Document → Option α) : Asked (List α) :=
  let failed (why : String) : Except Chain (List α) := .error ["failed to list " ++ resource, why]
  match Request.ofTarget? (listTarget resource scope) with
  | none => ([], failed unsendableText)
  | some request => ([request],
      match server.list request with
      | .error status => failed (refusalText status)
      | .ok page =>
          match page.items.mapM read? with
          | none => failed unreadableText
          | some objects => .ok objects)

/-- The request for a pod, if one can be sent. -/
def podRequest? (ns name : String) : Option Request :=
  if name = "" then none else Request.ofTarget? (podPath ns name)

/-- One pod. -/
def pod (server : Server) (what ns name : String) : Asked Pod :=
  let failed (why : String) : Except Chain Pod := .error ["failed to fetch pod " ++ what, why]
  match podRequest? ns name with
  | none => ([], failed unsendableText)
  | some request => ([request],
      match server.get request.path with
      | .error status => failed (refusalText status)
      | .ok d =>
          match Pod.ofDocument? d with
          | none => failed unreadableText
          | some p => .ok p)

/-- The rows of a pod's containers. -/
def containers (server : Server) (now : Int) (ns name : String) (withInit : Bool) :
    Asked (List Row) :=
  let (requests, found) := pod server (ns ++ "/" ++ name) ns name
  (requests, found.map (Pod.containerRows now (qualified ns name) withInit))

/-- Rows in the order of their keys; rows of one key keep their order. -/
def sortRows (rows : List Row) : List Row := rows.mergeSort fun a b => a.fqn ≤ b.fqn

/-- The rows of a list request. -/
def listRows {α : Type} (server : Server) (resource : String) (scope : Scope)
    (read? : Document → Option α) (row : α → Row) : Asked (List Row) :=
  let (requests, found) := list server resource scope read?
  (requests, found.map fun objects => sortRows (objects.map row))

/-- The rows that a view shows. -/
def fetchRows (server : Server) (now : Int) (target : Target) (scope : Scope) : Asked (List Row) :=
  match target.kind with
  | .pods => listRows server "pods" scope Pod.ofDocument? (Pod.row now)
  | .services => listRows server "services" scope Service.ofDocument? (Service.row now)
  | .deployments => listRows server "deployments" scope Deployment.ofDocument? (Deployment.row now)
  | .nodes => listRows server "nodes" .all Node.ofDocument? (Node.row now)
  | .namespaces => listRows server "namespaces" .all Namespace.ofDocument? (Namespace.row now)
  | .containers =>
      match target.parent with
      | none => ([], .error ["container view needs an owning pod"])
      | some path =>
          let (ns, name) := unqualified path
          containers server now ns name true
  | .forwards | .benchmarks =>
      ([], .error [target.kind.title ++ " are local state, not cluster resources"])

end Gateway

end ClusterConsole.Cluster
