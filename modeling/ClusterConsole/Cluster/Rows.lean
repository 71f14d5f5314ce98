import ClusterConsole.Cluster.Object
import ClusterConsole.Resource.Age
import ClusterConsole.Resource.Name
import ClusterConsole.Snapshot.Entry

/-!
# Rows of resources

One row for each resource, its fields in the order of the columns of its kind. A
hyphen stands for what is not known. Ages are taken at the time `now`.
-/

namespace ClusterConsole.Cluster

open ClusterConsole.Resource ClusterConsole.Snapshot

/-- The age of what came about at that time. -/
def ageAt (now : Int) (time : Option Int) : String :=
  match time with
  | none => "-"
  | some t => Age.write (now - t)

/-- The sign for what is not known. -/
def unknown : String := "-"

/-- The list joined by commas, or the sign if it is empty. -/
def joined (parts : List String) : String :=
  let text := Text.join "," parts
  if text = "" then unknown else text

def protocolOr (p : Option String) : String := p.getD "TCP"

/-- The text unless it is empty. -/
def nonEmpty (t : Option String) : Option String := t.filter (· ≠ "")

namespace Pod

/-- How often containers of the pod were started again. The numbers are added in 32
bits, and a sum that does not fit goes round. -/
def restarts (p : Pod) : Int :=
  p.statuses.foldl (fun n s => (n + s.restarts).bmod UInt32.size) 0

def row (now : Int) (p : Pod) : Row :=
  let name := p.metadata.anyName
  let ns := p.metadata.ns.getD ""
  let ready := (p.statuses.filter (·.ready)).length
  ⟨qualified ns name,
    [ns, name, toString ready ++ "/" ++ toString p.statuses.length,
      if p.metadata.deleting then "Terminating" else p.phase.getD "Unknown",
      toString p.restarts, p.address.getD unknown,
      (p.spec.bind (·.node)).getD unknown, ageAt now p.metadata.created]⟩

end Pod

namespace ContainerState

/-- The name of the state and the age it gives; `podAge` is the age of the pod. -/
def label (now : Int) (podAge : String) (s : ContainerState) : String × String :=
  let age (t : Option Int) : String := match t with
    | none => podAge
    | some _ => ageAt now t
  match s.running, s.waiting, s.terminated with
  | some started, _, _ => ("Running", age started)
  | none, some reason, _ => ((nonEmpty reason).getD "Waiting", podAge)
  | none, none, some (reason, code, finished) =>
      ((nonEmpty reason).getD ("Exit(" ++ toString code ++ ")"), age finished)
  | none, none, none => ("Unknown", podAge)

end ContainerState

namespace DeclaredPort

/-- The port as it stands in the PORTS cell. -/
def text (p : DeclaredPort) : String :=
  let head := match nonEmpty p.name with
    | some name => name ++ ":"
    | none => ""
  head ++ toString p.number ++ "/" ++ protocolOr p.protocol

end DeclaredPort

namespace Container

def row (now : Int) (path podAge : String) (init : Bool) (status : Option ContainerStatus)
    (c : Container) : Row :=
  let (state, age) := match status with
    | none => ("Pending", podAge)
    | some s => match s.state with
      | none => ("Unknown", podAge)
      | some st => st.label now podAge
  ⟨containerKey path c.name,
    [c.name, c.image.getD unknown, toString ((status.map (·.ready)).getD false), state,
      toString init, toString ((status.map (·.restarts)).getD 0),
      joined (c.ports.map DeclaredPort.text), age]⟩

end Container

namespace Pod

/-- The status of a container; of several under one name the last counts. -/
def statusOf (statuses : List ContainerStatus) (name : String) : Option ContainerStatus :=
  statuses.reverse.find? fun s => s.name == name

/-- The rows of a pod's containers, the init containers behind the others. -/
def containerRows (now : Int) (path : String) (withInit : Bool) (p : Pod) : List Row :=
  let podAge := ageAt now p.metadata.created
  match p.spec with
  | none => []
  | some spec =>
      (spec.containers.map fun c => c.row now path podAge false (statusOf p.statuses c.name)) ++
      if withInit then
        spec.initContainers.map fun c => c.row now path podAge true (statusOf p.initStatuses c.name)
      else []

end Pod

namespace Service

def row (now : Int) (s : Service) : Row :=
  let name := s.metadata.anyName
  let ns := s.metadata.ns.getD ""
  ⟨qualified ns name,
    [ns, name, s.type.getD "ClusterIP", s.address.getD unknown,
      joined (s.ports.map fun p => toString p.number ++ "/" ++ protocolOr p.protocol),
      ageAt now s.metadata.created]⟩

end Service

namespace Deployment

def row (now : Int) (d : Deployment) : Row :=
  let name := d.metadata.anyName
  let ns := d.metadata.ns.getD ""
  ⟨qualified ns name,
    [ns, name, toString (d.ready.getD 0) ++ "/" ++ toString (d.desired.getD 1),
      toString (d.updated.getD 0), toString (d.available.getD 0), ageAt now d.metadata.created]⟩

end Deployment

namespace Node

/-- What the labels of a node's roles start with. -/
def roleHead : String := "node-role.kubernetes.io/"

/-- The label that names the one role of a node without such labels. -/
def roleLabel : String := "kubernetes.io/role"

/-- Neighbours that are equal made one. -/
def dropRepeats : List String → List String
  | a :: b :: rest => if a = b then dropRepeats (b :: rest) else a :: dropRepeats (b :: rest)
  | rest => rest

/-- The roles of a node, in ascending order. -/
def roles (labels : List (String × String)) : String :=
  let named := labels.filterMap fun l =>
    (Text.dropHead? roleHead l.1).map fun role => if role = "" then "worker" else role
  let all :=
    if named = [] then ((labels.find? fun l => l.1 == roleLabel).map (·.2)).toList else named
  if all = [] then unknown
  else Text.join "," (dropRepeats (all.mergeSort fun a b => a ≤ b))

/-- Whether the node is ready, by its first condition of that type. -/
def readiness (conditions : List (String × String)) : String :=
  match (conditions.find? fun c => c.1 == "Ready").map (·.2) with
  | some "True" => "Ready"
  | some "False" => "NotReady"
  | _ => "Unknown"

def row (now : Int) (n : Node) : Row :=
  let name := n.metadata.anyName
  ⟨name, [name, readiness n.conditions, roles n.metadata.labels, n.version.getD unknown,
    ageAt now n.metadata.created]⟩

end Node

namespace Namespace

def row (now : Int) (n : Namespace) : Row :=
  let name := n.metadata.anyName
  ⟨name, [name, n.phase.getD "Active", ageAt now n.metadata.created]⟩

end Namespace

end ClusterConsole.Cluster
