import ClusterConsole.Cluster.Document
import ClusterConsole.Resource.Scope
import ClusterConsole.Web.Address

/-!
# Servers

A server answers requests for one resource or for a list of them. A list may be
asked for in parts: a page then holds at most as many items as the query allows,
and a sign to continue with if there are more.

`Inventory` is a server's content; `Inventory.server` answers from it, the items
in their order and a page never cut.
-/

namespace ClusterConsole.Cluster

open ClusterConsole.Resource

/-- A request: a path, and what is asked for there. -/
structure Request where
  path : String
  query : Option String
  deriving DecidableEq, Repr, Inhabited

/-- The request for a target, if it can be sent. The path ends at the first question
mark, and what follows a number sign is left out. -/
def Request.ofTarget? (target : String) : Option Request :=
  if Web.sendableTarget target.toList then
    let cs := Text.beforeList '#' target.toList
    match Text.cutList '?' cs with
    | some (path, query) => some ⟨String.ofList path, some (String.ofList query)⟩
    | none => some ⟨String.ofList cs, none⟩
  else none

/-- An answer to a list request. -/
structure Page where
  items : List Document
  continueWith : Option String
  deriving Inhabited

/-- What answers requests; a refusal is a status code. -/
structure Server where
  list : Request → Except Nat Page
  get : String → Except Nat Document

/-- The resources of a cluster, and the statuses with which requests for some of
them are refused. -/
structure Inventory where
  resources : List (String × List Document)
  refused : List (String × Nat)
  deriving Inhabited

namespace Inventory

def empty : Inventory := ⟨[], []⟩

/-- The status of a path that leads nowhere. -/
def notFound : Nat := 404

/-- The base of the paths of the group that a resource is in. -/
def base (resource : String) : List String :=
  if resource = "deployments" then ["apis", "apps", "v1"] else ["api", "v1"]

/-- What a path asks for: a resource, a namespace and a name, if they are given. -/
def locate (path : String) : Option (String × Option String × Option String) :=
  let parts := (Text.split '/' path).drop 1
  let rest :=
    match parts with
    | "api" :: "v1" :: rest => some (["api", "v1"], rest)
    | "apis" :: "apps" :: "v1" :: rest => some (["apis", "apps", "v1"], rest)
    | _ => none
  rest.bind fun (root, rest) =>
    let found :=
      match rest with
      | [resource] => some (resource, none, none)
      | ["namespaces", name] => some ("namespaces", none, some name)
      | ["namespaces", ns, resource] => some (resource, some ns, none)
      | ["namespaces", ns, resource, name] => some (resource, some ns, some name)
      | _ => none
    found.filter fun f => base f.1 == root

def nameOf (d : Document) : Option String := (d.at_ ["metadata", "name"]).text?

def namespaceOf (d : Document) : Option String := (d.at_ ["metadata", "namespace"]).text?

/-- The resources of that name that are in the namespace, if one is given. -/
def inNamespace (inv : Inventory) (resource : String) (ns : Option String) : List Document :=
  let all := ((inv.resources.find? fun r => r.1 == resource).map (·.2)).getD []
  match ns with
  | none => all
  | some n => all.filter fun d => namespaceOf d == some n

def refusal? (inv : Inventory) (resource : String) : Option Nat :=
  (inv.refused.find? fun r => r.1 == resource).map (·.2)

/-- The server that answers from the inventory. -/
def server (inv : Inventory) : Server where
  list request :=
    match locate request.path with
    | some (resource, ns, none) =>
        match inv.refusal? resource with
        | some status => .error status
        | none => .ok ⟨inv.inNamespace resource ns, none⟩
    | _ => .error notFound
  get path :=
    match locate path with
    | some (resource, ns, some name) =>
        match inv.refusal? resource with
        | some status => .error status
        | none =>
            match (inv.inNamespace resource ns).find? fun d => nameOf d == some name with
            | some d => .ok d
            | none => .error notFound
    | _ => .error notFound

end Inventory

end ClusterConsole.Cluster
