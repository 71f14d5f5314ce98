import ClusterConsole.Cluster.Document
import ClusterConsole.Time.Calendar

/-!
# Shapes of resources

A shape says which documents a resource can be read from. Every field may be
missing or null, and fields that a shape does not name may hold anything; a field
that it names has to be of the right type. The version and the kind of a resource
are the exception: where they are given, they have to be the right ones.
-/

namespace ClusterConsole.Cluster

inductive Shape where
  | any
  | text
  | flag
  | int32
  | int64
  | intOrText
  | time
  | exactly (s : String)
  | list (item : Shape)
  | mapOf (value : Shape)
  | record (fields : List (String × Shape))
  deriving Inhabited

namespace Shape

/-- Whether a number fits into so many bits with a sign. -/
def fits (bits : Nat) (n : Int) : Bool :=
  -(Nat.pow 2 (bits - 1) : Int) ≤ n && n < Nat.pow 2 (bits - 1)

mutual

/-- Whether a document has the shape. -/
def accepts : Shape → Document → Bool
  | any, _ => true
  | text, .text _ => true
  | flag, .flag _ => true
  | int32, .integer n => fits 32 n
  | int64, .integer n => fits 64 n
  | intOrText, .integer n => fits 32 n
  | intOrText, .text _ => true
  | time, .text s => (Time.read? s).isSome
  | exactly s, .text t => s == t
  | list item, .list items => items.all fun d => accepts item d
  | mapOf value, .map fields => fields.all fun f => accepts value f.2
  | record shapes, .map fields => fields.all fun f => acceptsField shapes f.1 f.2
  | _, _ => false

/-- Whether a field is missing from the record, null, or of its shape. Fields of
exact text cannot be null. -/
def acceptsField : List (String × Shape) → String → Document → Bool
  | [], _, _ => true
  | (name, shape) :: shapes, key, d =>
      if name == key then
        match shape, d with
        | exactly _, .null => false
        | _, .null => true
        | shape, d => accepts shape d
      else acceptsField shapes key d

end

/-! ## Shared parts -/

def texts : Shape := list text

def labels : Shape := mapOf text

/-- Fields of one type. -/
def each (shape : Shape) (names : List String) : List (String × Shape) :=
  names.map fun n => (n, shape)

def localReference : Shape := record (each text ["name"])

def metadata : Shape :=
  record (each text ["generateName", "name", "namespace", "resourceVersion", "selfLink", "uid"] ++
    each time ["creationTimestamp", "deletionTimestamp"] ++
    each int64 ["deletionGracePeriodSeconds", "generation"] ++
    each labels ["annotations", "labels"] ++
    [("finalizers", texts),
      ("managedFields", list (record (each text ["apiVersion", "fieldsType", "manager",
        "operation", "subresource"] ++ [("time", time)]))),
      ("ownerReferences", list (record (each text ["apiVersion", "kind", "name", "uid"] ++
        each flag ["blockOwnerDeletion", "controller"])))])

/-- A resource of that version and kind with the shapes of its parts. -/
def resource (version kind : String) (parts : List (String × Shape)) : Shape :=
  record
    ([("apiVersion", exactly version), ("kind", exactly kind), ("metadata", metadata)] ++ parts)

def condition : Shape :=
  record (each text ["message", "reason", "status", "type"] ++
    each time ["lastHeartbeatTime", "lastProbeTime", "lastTransitionTime", "lastUpdateTime"] ++
    each int64 ["observedGeneration"])

def labelSelector : Shape :=
  record [("matchLabels", labels),
    ("matchExpressions", list (record (each text ["key", "operator"] ++ [("values", texts)])))]

/-! ## Pods -/

def containerPort : Shape :=
  record (each int32 ["containerPort", "hostPort"] ++ each text ["hostIP", "name", "protocol"])

def keyReference : Shape := record (each text ["key", "name"] ++ each flag ["optional"])

def environmentVariable : Shape :=
  record (each text ["name", "value"] ++
    [("valueFrom", record [("configMapKeyRef", keyReference), ("secretKeyRef", keyReference),
      ("fieldRef", record (each text ["apiVersion", "fieldPath"])),
      ("resourceFieldRef", record (each text ["containerName", "divisor", "resource"]))])])

def environmentSource : Shape :=
  record [("prefix", text), ("configMapRef", record (each text ["name"] ++ each flag ["optional"])),
    ("secretRef", record (each text ["name"] ++ each flag ["optional"]))]

def handler : List (String × Shape) :=
  [("exec", record [("command", texts)]),
    ("httpGet", record (each text ["host", "path", "scheme"] ++
      [("port", intOrText), ("httpHeaders", list (record (each text ["name", "value"])))])),
    ("tcpSocket", record [("host", text), ("port", intOrText)]),
    ("grpc", record [("port", int32), ("service", text)]),
    ("sleep", record [("seconds", int64)])]

def probe : Shape :=
  record (handler ++ each int32 ["failureThreshold", "initialDelaySeconds", "periodSeconds",
    "successThreshold", "timeoutSeconds"] ++ each int64 ["terminationGracePeriodSeconds"])

def resources : Shape :=
  record [("limits", labels), ("requests", labels),
    ("claims", list (record (each text ["name", "request"])))]

def securityContext : Shape :=
  record (each flag ["allowPrivilegeEscalation", "privileged", "readOnlyRootFilesystem",
      "runAsNonRoot"] ++
    each int64 ["fsGroup", "runAsGroup", "runAsUser"] ++
    each text ["fsGroupChangePolicy", "procMount", "supplementalGroupsPolicy"] ++
    [("capabilities", record [("add", texts), ("drop", texts)]),
      ("seLinuxOptions", record (each text ["level", "role", "type", "user"])),
      ("seccompProfile", record (each text ["localhostProfile", "type"])),
      ("supplementalGroups", list int64),
      ("sysctls", list (record (each text ["name", "value"])))])

def container : Shape :=
  record (each text ["image", "imagePullPolicy", "name", "restartPolicy", "targetContainerName",
      "terminationMessagePath", "terminationMessagePolicy", "workingDir"] ++
    each flag ["stdin", "stdinOnce", "tty"] ++
    each texts ["args", "command"] ++
    each probe ["livenessProbe", "readinessProbe", "startupProbe"] ++
    [("env", list environmentVariable), ("envFrom", list environmentSource),
      ("lifecycle", record [("postStart", record handler), ("preStop", record handler),
        ("stopSignal", text)]),
      ("ports", list containerPort), ("resources", resources),
      ("securityContext", securityContext),
      ("volumeDevices", list (record (each text ["devicePath", "name"]))),
      ("volumeMounts", list (record (each text ["mountPath", "mountPropagation", "name",
        "recursiveReadOnly", "subPath", "subPathExpr"] ++ each flag ["readOnly"])))])

def toleration : Shape :=
  record (each text ["effect", "key", "operator", "value"] ++ each int64 ["tolerationSeconds"])

def podSpec : Shape :=
  record (each text ["dnsPolicy", "hostname", "nodeName", "preemptionPolicy", "priorityClassName",
      "restartPolicy", "runtimeClassName", "schedulerName", "serviceAccount", "serviceAccountName",
      "subdomain"] ++
    each flag ["automountServiceAccountToken", "enableServiceLinks", "hostIPC", "hostNetwork",
      "hostPID", "hostUsers", "setHostnameAsFQDN", "shareProcessNamespace"] ++
    each int64 ["activeDeadlineSeconds", "terminationGracePeriodSeconds"] ++
    each (list container) ["containers", "ephemeralContainers", "initContainers"] ++
    each labels ["nodeSelector", "overhead"] ++
    [("priority", int32), ("imagePullSecrets", list localReference),
      ("hostAliases", list (record [("ip", text), ("hostnames", texts)])),
      ("readinessGates", list (record (each text ["conditionType"]))),
      ("securityContext", securityContext), ("tolerations", list toleration),
      ("dnsConfig", record [("nameservers", texts), ("searches", texts),
        ("options", list (record (each text ["name", "value"])))]),
      ("affinity", record []), ("os", record (each text ["name"])),
      ("schedulingGates", list (record (each text ["name"]))),
      ("topologySpreadConstraints", list (record (each text ["topologyKey", "whenUnsatisfiable"] ++
        each int32 ["maxSkew", "minDomains"] ++ [("labelSelector", labelSelector)]))),
      ("volumes", list (record (each text ["name"])))])

def containerState : Shape :=
  record [("running", record [("startedAt", time)]),
    ("waiting", record (each text ["message", "reason"])),
    ("terminated", record (each text ["containerID", "message", "reason"] ++
      each int32 ["exitCode", "signal"] ++ each time ["finishedAt", "startedAt"]))]

def containerStatus : Shape :=
  record (each text ["containerID", "image", "imageID", "name", "stopSignal"] ++
    each flag ["ready", "started"] ++ each containerState ["lastState", "state"] ++
    [("restartCount", int32), ("resources", resources), ("allocatedResources", labels)])

def podStatus : Shape :=
  record (each text ["hostIP", "message", "nominatedNodeName", "phase", "podIP", "qosClass",
      "reason", "resize"] ++
    each (list containerStatus) ["containerStatuses", "ephemeralContainerStatuses",
      "initContainerStatuses"] ++
    each (list (record (each text ["ip"]))) ["hostIPs", "podIPs"] ++
    [("conditions", list condition), ("startTime", time), ("observedGeneration", int64)])

def pod : Shape := resource "v1" "Pod" [("spec", podSpec), ("status", podStatus)]

/-! ## Services -/

def servicePort : Shape :=
  record (each text ["appProtocol", "name", "protocol"] ++ each int32 ["nodePort", "port"] ++
    [("targetPort", intOrText)])

def serviceSpec : Shape :=
  record (each text ["clusterIP", "externalName", "externalTrafficPolicy", "internalTrafficPolicy",
      "ipFamilyPolicy", "loadBalancerClass", "loadBalancerIP", "sessionAffinity",
      "trafficDistribution", "type"] ++
    each flag ["allocateLoadBalancerNodePorts", "publishNotReadyAddresses"] ++
    each texts ["clusterIPs", "externalIPs", "ipFamilies", "loadBalancerSourceRanges"] ++
    [("healthCheckNodePort", int32), ("ports", list servicePort), ("selector", labels),
      ("sessionAffinityConfig", record [("clientIP", record (each int32 ["timeoutSeconds"]))])])

def serviceStatus : Shape :=
  record [("conditions", list condition),
    ("loadBalancer", record [("ingress", list (record (each text ["hostname", "ip", "ipMode"])))])]

def service : Shape := resource "v1" "Service" [("spec", serviceSpec), ("status", serviceStatus)]

/-! ## Deployments -/

def deploymentSpec : Shape :=
  record (each int32 ["minReadySeconds", "progressDeadlineSeconds", "replicas",
      "revisionHistoryLimit"] ++
    [("paused", flag), ("selector", labelSelector),
      ("strategy", record [("type", text),
        ("rollingUpdate", record (each intOrText ["maxSurge", "maxUnavailable"]))]),
      ("template", record [("metadata", metadata), ("spec", podSpec)])])

def deploymentStatus : Shape :=
  record (each int32 ["availableReplicas", "collisionCount", "readyReplicas", "replicas",
      "terminatingReplicas", "unavailableReplicas", "updatedReplicas"] ++
    [("observedGeneration", int64), ("conditions", list condition)])

def deployment : Shape :=
  resource "apps/v1" "Deployment" [("spec", deploymentSpec), ("status", deploymentStatus)]

/-! ## Nodes and namespaces -/

def nodeSpec : Shape :=
  record (each text ["externalID", "podCIDR", "providerID"] ++
    [("podCIDRs", texts), ("unschedulable", flag),
      ("taints", list (record (each text ["effect", "key", "value"] ++ [("timeAdded", time)])))])

def nodeStatus : Shape :=
  record (each labels ["allocatable", "capacity"] ++
    [("phase", text), ("conditions", list condition),
      ("addresses", list (record (each text ["address", "type"]))),
      ("daemonEndpoints", record [("kubeletEndpoint", record [("Port", int32)])]),
      ("images", list (record [("names", texts), ("sizeBytes", int64)])),
      ("nodeInfo", record (each text ["architecture", "bootID", "containerRuntimeVersion",
        "kernelVersion", "kubeProxyVersion", "kubeletVersion", "machineID", "operatingSystem",
        "osImage", "systemUUID"])),
      ("volumesAttached", list (record (each text ["devicePath", "name"]))),
      ("volumesInUse", texts)])

def node : Shape := resource "v1" "Node" [("spec", nodeSpec), ("status", nodeStatus)]

def namespace_ : Shape :=
  resource "v1" "Namespace" [("spec", record [("finalizers", texts)]),
    ("status", record [("phase", text), ("conditions", list condition)])]

end Shape

end ClusterConsole.Cluster
