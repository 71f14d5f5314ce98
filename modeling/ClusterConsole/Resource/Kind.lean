import ClusterConsole.Text.Cut

/-!
# Kinds of resources

The kinds a view can show. A kind fixes the columns of its table, which of them
hold numbers, where the NAME column is, whether its rows belong to a namespace,
and whether the rows come from the cluster or from the console itself.
-/

namespace ClusterConsole.Resource

inductive Kind where
  | pods
  | containers
  | services
  | deployments
  | nodes
  | namespaces
  | forwards
  | benchmarks
  deriving DecidableEq, Repr, Inhabited

namespace Kind

/-- Every kind once. -/
def all : List Kind :=
  [pods, containers, services, deployments, nodes, namespaces, forwards, benchmarks]

theorem mem_all (k : Kind) : k ∈ all := by
  cases k <;> decide

def title : Kind → String
  | pods => "Pods"
  | containers => "Containers"
  | services => "Services"
  | deployments => "Deployments"
  | nodes => "Nodes"
  | namespaces => "Namespaces"
  | forwards => "Port Forwards"
  | benchmarks => "Benchmarks"

/-- The words that name a kind on the command line of the console. -/
def aliases : Kind → List String
  | pods => ["po", "pod", "pods"]
  | containers => ["co", "container", "containers"]
  | services => ["svc", "service", "services"]
  | deployments => ["deploy", "deployment", "deployments", "dp"]
  | nodes => ["node", "nodes", "no"]
  | namespaces => ["ns", "namespace", "namespaces"]
  | forwards =>
      ["pf", "portforward", "portforwards", "port-forward", "port-forwards", "forwards"]
  | benchmarks => ["be", "benchmark", "benchmarks"]

/-- The kind a word names, in any case. -/
def ofWord? (word : String) : Option Kind :=
  all.find? fun k => (aliases k).contains (Text.lower word)

/-- The names of the columns, in order. -/
def header : Kind → List String
  | pods => ["NAMESPACE", "NAME", "READY", "STATUS", "RESTARTS", "IP", "NODE", "AGE"]
  | containers => ["NAME", "IMAGE", "READY", "STATE", "INIT", "RESTARTS", "PORTS", "AGE"]
  | services => ["NAMESPACE", "NAME", "TYPE", "CLUSTER-IP", "PORTS", "AGE"]
  | deployments => ["NAMESPACE", "NAME", "READY", "UP-TO-DATE", "AVAILABLE", "AGE"]
  | nodes => ["NAME", "STATUS", "ROLES", "VERSION", "AGE"]
  | namespaces => ["NAME", "STATUS", "AGE"]
  | forwards => ["NAMESPACE", "NAME", "CONTAINER", "PORTS", "URL", "C", "N", "AGE"]
  | benchmarks => ["NAME", "STATUS", "REQ/S", "ERRORS", "AGE"]

/-- The number of columns. -/
def width (k : Kind) : Nat := k.header.length

/-- The columns whose cells are compared as numbers. -/
def numericColumns : Kind → List String
  | pods | containers => ["RESTARTS"]
  | deployments => ["UP-TO-DATE", "AVAILABLE"]
  | forwards => ["C", "N"]
  | benchmarks => ["REQ/S", "ERRORS"]
  | services | nodes | namespaces => []

theorem numericColumns_subset_header (k : Kind) : k.numericColumns ⊆ k.header := by
  cases k <;> decide

/-- The place of the NAME column. -/
def nameColumn : Kind → Nat
  | pods | services | deployments | forwards => 1
  | containers | nodes | namespaces | benchmarks => 0

theorem header_nameColumn (k : Kind) : k.header[k.nameColumn]? = some "NAME" := by
  cases k <;> rfl

/-- Whether the rows of the kind are told apart by namespace. -/
def namespaced : Kind → Bool
  | pods | containers | services | deployments => true
  | nodes | namespaces | forwards | benchmarks => false

/-- Whether the rows are fetched from the cluster. -/
def polled : Kind → Bool
  | forwards | benchmarks => false
  | _ => true

/-- The place of the column of that name. -/
def column? (k : Kind) (name : String) : Option Nat :=
  k.header.findIdx? (· == name)

/-- Whether the column at that place holds numbers. -/
def numericAt (k : Kind) (column : Nat) : Bool :=
  match k.header[column]? with
  | some name => k.numericColumns.contains name
  | none => false

end Kind

end ClusterConsole.Resource
