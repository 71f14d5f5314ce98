import ClusterConsole.Cluster.Shape

/-!
# Resources of the cluster

The parts of pods, services, deployments, nodes and namespaces that the console
shows. A resource is read from a document of its shape; what is missing there is
missing or empty here.
-/

namespace ClusterConsole.Cluster

/-- What every resource has. Times are seconds since the start of 1970. -/
structure Metadata where
  name : Option String
  generateName : Option String
  ns : Option String
  created : Option Int
  deleting : Bool
  labels : List (String × String)
  deriving DecidableEq, Repr, Inhabited

namespace Metadata

/-- The name, or what it would be generated from. -/
def anyName (m : Metadata) : String := (m.name.or m.generateName).getD ""

end Metadata

/-- What a container is doing. More than one field may be given. -/
structure ContainerState where
  /-- Running, since a time that may not be known. -/
  running : Option (Option Int)
  /-- Waiting, for a reason that may not be known. -/
  waiting : Option (Option String)
  terminated : Option (Option String × Int × Option Int)
  deriving DecidableEq, Repr, Inhabited

structure ContainerStatus where
  name : String
  ready : Bool
  restarts : Int
  state : Option ContainerState
  deriving DecidableEq, Repr, Inhabited

/-- A declared port of a container. -/
structure DeclaredPort where
  name : Option String
  number : Int
  protocol : Option String
  deriving DecidableEq, Repr, Inhabited

structure Container where
  name : String
  image : Option String
  ports : List DeclaredPort
  deriving DecidableEq, Repr, Inhabited

/-- The containers of a pod and the node it is placed on. -/
structure PodSpec where
  containers : List Container
  initContainers : List Container
  node : Option String
  deriving DecidableEq, Repr, Inhabited

structure Pod where
  metadata : Metadata
  spec : Option PodSpec
  phase : Option String
  address : Option String
  statuses : List ContainerStatus
  initStatuses : List ContainerStatus
  deriving DecidableEq, Repr, Inhabited

structure ServicePort where
  number : Int
  protocol : Option String
  deriving DecidableEq, Repr, Inhabited

structure Service where
  metadata : Metadata
  type : Option String
  address : Option String
  ports : List ServicePort
  deriving DecidableEq, Repr, Inhabited

structure Deployment where
  metadata : Metadata
  desired : Option Int
  ready : Option Int
  updated : Option Int
  available : Option Int
  deriving DecidableEq, Repr, Inhabited

structure Node where
  metadata : Metadata
  /-- The conditions' types and states. -/
  conditions : List (String × String)
  version : Option String
  deriving DecidableEq, Repr, Inhabited

structure Namespace where
  metadata : Metadata
  phase : Option String
  deriving DecidableEq, Repr, Inhabited

namespace Document

def textD (d : Document) (name : String) : String := ((d.field name).text?).getD ""

def integerD (d : Document) (name : String) : Int := ((d.field name).integer?).getD 0

def flagD (d : Document) (name : String) : Bool := ((d.field name).flag?).getD false

def time? (d : Document) (name : String) : Option Int := ((d.field name).text?).bind Time.read?

/-- The field's value, if it is there. -/
def given? (d : Document) (name : String) : Option Document :=
  let v := d.field name
  if v.isNull then none else some v

/-- The texts under a map's keys. -/
def pairs (d : Document) : List (String × String) :=
  d.fields.filterMap fun f => f.2.text?.map fun t => (f.1, t)

def metadata (d : Document) : Metadata :=
  let m := d.field "metadata"
  ⟨(m.field "name").text?, (m.field "generateName").text?, (m.field "namespace").text?,
    m.time? "creationTimestamp", (m.given? "deletionTimestamp").isSome, (m.field "labels").pairs⟩

def containerState (d : Document) : ContainerState :=
  ⟨(d.given? "running").map fun r => r.time? "startedAt",
    (d.given? "waiting").map fun w => (w.field "reason").text?,
    (d.given? "terminated").map fun t =>
      ((t.field "reason").text?, t.integerD "exitCode", t.time? "finishedAt")⟩

def containerStatus (d : Document) : ContainerStatus :=
  ⟨d.textD "name", d.flagD "ready", d.integerD "restartCount",
    (d.given? "state").map containerState⟩

def declaredPort (d : Document) : DeclaredPort :=
  ⟨(d.field "name").text?, d.integerD "containerPort", (d.field "protocol").text?⟩

def container (d : Document) : Container :=
  ⟨d.textD "name", (d.field "image").text?, (d.field "ports").items.map declaredPort⟩

def podSpec (d : Document) : PodSpec :=
  ⟨(d.field "containers").items.map container, (d.field "initContainers").items.map container,
    (d.field "nodeName").text?⟩

def pod (d : Document) : Pod :=
  let status := d.field "status"
  ⟨d.metadata, (d.given? "spec").map podSpec, (status.field "phase").text?,
    (status.field "podIP").text?, (status.field "containerStatuses").items.map containerStatus,
    (status.field "initContainerStatuses").items.map containerStatus⟩

def servicePort (d : Document) : ServicePort := ⟨d.integerD "port", (d.field "protocol").text?⟩

def service (d : Document) : Service :=
  let spec := d.field "spec"
  ⟨d.metadata, (spec.field "type").text?, (spec.field "clusterIP").text?,
    (spec.field "ports").items.map servicePort⟩

def deployment (d : Document) : Deployment :=
  let status := d.field "status"
  ⟨d.metadata, (d.at_ ["spec", "replicas"]).integer?, (status.field "readyReplicas").integer?,
    (status.field "updatedReplicas").integer?, (status.field "availableReplicas").integer?⟩

def node (d : Document) : Node :=
  let status := d.field "status"
  ⟨d.metadata, (status.field "conditions").items.map fun c => (c.textD "type", c.textD "status"),
    (status.given? "nodeInfo").map fun i => i.textD "kubeletVersion"⟩

def namespace_ (d : Document) : Namespace :=
  ⟨d.metadata, (d.at_ ["status", "phase"]).text?⟩

end Document

/-- What is read from a document of the shape. -/
def Shape.read? {α : Type} (s : Shape) (f : Document → α) (d : Document) : Option α :=
  if s.accepts d then some (f d) else none

def Pod.ofDocument? : Document → Option Pod := Shape.pod.read? Document.pod

def Service.ofDocument? : Document → Option Service := Shape.service.read? Document.service

def Deployment.ofDocument? : Document → Option Deployment :=
  Shape.deployment.read? Document.deployment

def Node.ofDocument? : Document → Option Node := Shape.node.read? Document.node

def Namespace.ofDocument? : Document → Option Namespace :=
  Shape.namespace_.read? Document.namespace_

end ClusterConsole.Cluster
