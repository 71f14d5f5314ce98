import ClusterConsole.Cluster.Gateway
import ClusterConsole.Forwarding.Mapping

/-!
# Portals

A portal is the near end of a tunnel through the cluster. It is opened for one
pod: the pod has to be there and every local port has to be free, and only then
is it ready, once and for all ports. Each port has a loop that takes connections
in; every connection is relayed on its own.

The portal ends well when it is called off. It ends badly when a connection
cannot be opened at the far end, when a loop cannot take connections in, or when
a loop breaks off inside. A relay that breaks later or breaks off inside is the
matter of its connection alone. At the end all loops are stopped.

What happens to a portal from outside comes at any time and in any order. There
is one function for each thing that the portal and its loops do about it.
-/

namespace ClusterConsole.Cluster

open ClusterConsole.Resource ClusterConsole.Status
open ClusterConsole.Forwarding (Mapping)

/-! ## Faults -/

/-- Why a connection could not be opened at the far end. -/
inductive FarFault where
  | refused (reason : Chain)
  /-- There was no stream for the port in the answer. -/
  | streamless
  deriving DecidableEq, Repr, Inhabited

/-- A local port that could not be bound. -/
structure BindFault where
  port : Nat
  reason : String
  deriving DecidableEq, Repr, Inhabited

/-- What a portal can fail for. -/
inductive PortalFault where
  | podMissing (chain : Chain)
  | unbound (fault : BindFault)
  | notAccepted (reason : String)
  | unopened (pod : String) (port : Nat) (fault : FarFault)
  | loopAborted (text : String)
  deriving DecidableEq, Repr, Inhabited

/-- The error of a portal that failed. -/
def PortalFault.chain : PortalFault → Chain
  | podMissing chain => chain
  | unbound fault => ["failed to bind localhost:" ++ toString fault.port, fault.reason]
  | notAccepted reason => ["failed to accept tunnel connection", reason]
  | unopened pod port (.refused reason) =>
      ("failed to open port-forward to " ++ pod ++ ":" ++ toString port) :: reason
  | unopened pod port .streamless =>
      ["port " ++ toString port ++ " missing from port-forward to " ++ pod]
  | loopAborted text => ["tunnel listener aborted: " ++ text]

/-! ## Loops -/

/-- How the relay of a connection ends. -/
inductive RelayEnd where
  | unopened (fault : FarFault)
  /-- It carried what there was to carry. Either the carrying or the taking down after it may
  have failed. -/
  | carried (copyFault joinFault : Option String)
  /-- It broke off inside. -/
  | aborted (text : String)
  deriving DecidableEq, Repr, Inhabited

/-- What is wrong with the tunnel itself. -/
def RelayEnd.fault? : RelayEnd → Option FarFault
  | unopened fault => some fault
  | carried .. | aborted _ => none

/-- How a loop ends. -/
inductive LoopEnd where
  | returned (result : Except PortalFault Unit)
  /-- It broke off inside. -/
  | aborted (text : String)
  /-- It was stopped with the portal. -/
  | stopped

/-- What the end of a loop is for the portal. -/
def LoopEnd.result? : LoopEnd → Option (Except PortalFault Unit)
  | returned result => some result
  | aborted text => some (.error (.loopAborted text))
  | stopped => none

/-- A loop that takes connections in for a mapping. -/
structure AcceptLoop where
  mapping : Mapping
  /-- The relays that the loop has not looked at since they ended. -/
  relays : List (Option RelayEnd)
  ending : Option LoopEnd

namespace AcceptLoop

def start (m : Mapping) : AcceptLoop := ⟨m, [], none⟩

/-- Whether the loop is taking connections in. -/
def running (l : AcceptLoop) : Bool := l.ending.isNone

def result? (l : AcceptLoop) : Option (Except PortalFault Unit) := l.ending.bind LoopEnd.result?

/-- The loop ends, and its relays with it. -/
def finish (l : AcceptLoop) (ending : LoopEnd) : AcceptLoop :=
  { l with relays := [], ending := some ending }

/-- A connection comes in. -/
def accept (l : AcceptLoop) : AcceptLoop := { l with relays := l.relays ++ [none] }

/-- No connection can be taken in. -/
def refuse (l : AcceptLoop) (reason : String) : AcceptLoop :=
  l.finish (.returned (.error (.notAccepted reason)))

/-- A relay ends. -/
def endRelay (l : AcceptLoop) (k : Nat) (e : RelayEnd) : AcceptLoop :=
  { l with relays := l.relays.set k (some e) }

/-- The loop looks at a relay that has ended. -/
def join (l : AcceptLoop) (pod : String) (k : Nat) (e : RelayEnd) : AcceptLoop :=
  match e.fault? with
  | none => { l with relays := l.relays.eraseIdx k }
  | some fault => l.finish (.returned (.error (.unopened pod l.mapping.remotePort fault)))

/-- The loop notices that the portal was called off. -/
def leave (l : AcceptLoop) : AcceptLoop := l.finish (.returned (.ok ()))

/-- The loop breaks off inside. -/
def breakOff (l : AcceptLoop) (text : String) : AcceptLoop := l.finish (.aborted text)

def stop (l : AcceptLoop) : AcceptLoop := if l.running then l.finish .stopped else l

end AcceptLoop

/-! ## The portal -/

/-- How far a portal has come. -/
inductive Portal.Stage where
  | fetching
  /-- These mappings are still to be bound. -/
  | binding (rest : List Mapping)
  | serving
  /-- What it will return is known, and its loops are being stopped. -/
  | closing (outcome : Except PortalFault Unit)
  | closed (outcome : Except PortalFault Unit)

structure Portal where
  path : String
  ports : List Mapping
  stage : Portal.Stage
  /-- The mappings that are bound and have no loop yet. -/
  bound : List Mapping
  loops : List AcceptLoop
  /-- The ports that were reported when the portal was ready. -/
  signals : List (List Mapping)
  calledOff : Bool

namespace Portal

def start (path : String) (ports : List Mapping) : Portal :=
  ⟨path, ports, .fetching, [], [], [], false⟩

/-- The name of the pod. -/
def pod (p : Portal) : String := (unqualified p.path).2

/-- What the portal has returned. -/
def result (p : Portal) : Option (Except Chain Unit) :=
  match p.stage with
  | .closed outcome => some (outcome.mapError PortalFault.chain)
  | _ => none

/-- The mappings whose local ports are open. -/
def openPorts (p : Portal) : List Mapping :=
  p.bound ++ (p.loops.filter AcceptLoop.running).map AcceptLoop.mapping

/-! ### Opening -/

/-- Gives up before the portal is ready, and what is bound becomes free. -/
def quit (p : Portal) (fault : PortalFault) : Portal :=
  { p with stage := .closed (.error fault), bound := [] }

/-- Reports the ports and starts the loops. -/
def announce (p : Portal) : Portal :=
  { p with
    stage := .serving
    bound := []
    loops := p.bound.map AcceptLoop.start
    signals := p.signals ++ [p.ports] }

/-- Goes on with the mappings that are left. -/
def proceed (p : Portal) (rest : List Mapping) : Portal :=
  match rest with
  | [] => p.announce
  | m :: rest => { p with stage := .binding (m :: rest) }

/-- Looks for the pod. -/
def fetch (server : Server) (p : Portal) : Portal :=
  let (ns, name) := unqualified p.path
  match (Gateway.pod server p.path ns name).2 with
  | .error chain => p.quit (.podMissing chain)
  | .ok _ => p.proceed p.ports

/-- A local port is bound. -/
def hold (p : Portal) (m : Mapping) (rest : List Mapping) : Portal :=
  { p with bound := p.bound ++ [m] }.proceed rest

/-- A local port cannot be bound. -/
def refuse (p : Portal) (m : Mapping) (reason : String) : Portal :=
  p.quit (.unbound ⟨m.localPort, reason⟩)

/-- Binds the local ports one after the other; `bind` tells from the ports that are
bound why the next one cannot be, if it cannot. -/
def bindRest (bind : List Nat → Nat → Option String) : List Mapping → Portal → Portal
  | [], p => p
  | m :: rest, p =>
      match bind (p.bound.map (·.localPort)) m.localPort with
      | some reason => p.refuse m reason
      | none => bindRest bind rest (p.hold m rest)

/-- The words of the system for a port that is bound. -/
def inUseText : String := "Address already in use (os error 98)"

/-- A port can be bound once. -/
def bindFree (bound : List Nat) (port : Nat) : Option String :=
  if bound.contains port then some inUseText else none

/-- Opens a portal as far as it can be opened. -/
def launch (server : Server) (path : String) (ports : List Mapping)
    (bind : List Nat → Nat → Option String) : Portal :=
  let p := (start path ports).fetch server
  match p.stage with
  | .binding rest => bindRest bind rest p
  | _ => p

/-- Opens a portal to a pod. -/
def open_ (server : Server) (path : String) (ports : List Mapping)
    (bind : List Nat → Nat → Option String) : Except PortalFault Portal :=
  let p := launch server path ports bind
  match p.stage with
  | .closed (.error fault) => .error fault
  | _ => .ok p

/-! ### Closing -/

/-- The portal knows what it will return. -/
def leave (p : Portal) (outcome : Except PortalFault Unit) : Portal :=
  { p with stage := .closing outcome }

/-- Stops the loops that are running. -/
def stopLoops (p : Portal) : Portal := { p with loops := p.loops.map AcceptLoop.stop }

/-- The portal returns. -/
def close (p : Portal) (outcome : Except PortalFault Unit) : Portal :=
  { p with stage := .closed outcome }

/-- Calls the portal off. If it is serving it notices and returns. -/
def callOff (p : Portal) : Portal :=
  let p := { p with calledOff := true }
  match p.stage with
  | .serving => ((p.leave (.ok ())).stopLoops).close (.ok ())
  | _ => p

end Portal

end ClusterConsole.Cluster
