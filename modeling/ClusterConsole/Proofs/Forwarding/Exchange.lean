import ClusterConsole.Proofs.Forwarding.Lookup
import ClusterConsole.Proofs.Forwarding.Moves

/-!
# The exchange

An exchange is a registry together with the tunnels that were launched from it and
the reports that those have queued. `Act` lists what can happen to it: the operator
starts, launches and stops forwards, the token of all is called off, a tunnel moves
on by one step of one of its parts, and one of the queued reports is heard. A run is
any sequence of acts, so the parts of the tunnels are interleaved at will and a
report is heard as late as one likes, before or after others that were queued
earlier, or never.

The log keeps what the operations have given back about the sessions, in order. It
is read by statements only: no act depends on it, nor on `sent`.
-/

namespace ClusterConsole.Forwarding

/-! ## The log -/

/-- A turn in the life of a session. -/
inductive Turn where
  | registered
  | launched
  | activated
  | removed
  deriving DecidableEq, Repr, Inhabited

/-- A turn and the session as it left it. -/
structure Moment where
  turn : Turn
  session : Session
  deriving DecidableEq, Repr, Inhabited

/-- The moments of the session of that generation. -/
def life (g : Nat) (log : List Moment) : List Moment :=
  log.filter fun m => m.session.generation == g

/-- What hearing a report does to a session, if it does something. -/
def Report.moment? (r : Registry) : Report → Option Moment
  | activated fqn g _ =>
      match r.activate fqn g with
      | .ok r' => (r'.get? fqn).map (Moment.mk .activated)
      | .error _ => none
  | finished fqn g outcome => (r.finish fqn g outcome).2.map (Moment.mk .removed)

/-! ## Acts -/

inductive Act where
  | start (now : Int) (fqn path container : String) (mapping : Mapping)
  | launch (fqn : String)
  | stop (fqn : String)
  | stopAll
  /-- The token that all sessions' tokens hang from is called off. -/
  | close
  /-- The tunnel at that place moves on. -/
  | move (k : Nat) (m : Tunnel.Move)
  /-- The report at that place in the queue is heard. -/
  | hear (i : Nat)

structure Exchange where
  registry : Registry
  /-- One tunnel for each launch, in the order of the launches. -/
  tunnels : List Tunnel
  /-- The reports that were queued and not heard yet. -/
  reports : List Report
  /-- All reports that were ever queued. -/
  sent : List Report
  log : List Moment
  deriving Inhabited

namespace Exchange

def empty : Exchange := ⟨Registry.empty, [], [], [], []⟩

def start (x : Exchange) (now : Int) (fqn path container : String) (mapping : Mapping) :
    Exchange :=
  match x.registry.start now fqn path container mapping with
  | .ok (r, s) => { x with registry := r, log := x.log ++ [⟨.registered, s⟩] }
  | .error _ => x

/-- Launches a session; the tunnel runs from then on. -/
def launch (x : Exchange) (fqn : String) : Exchange :=
  match x.registry.launch fqn with
  | .ok (r, s) =>
      { x with
        registry := r
        tunnels := x.tunnels ++ [Tunnel.ofSession s]
        log := x.log ++ [⟨.launched, s⟩] }
  | .error _ => x

def stop (x : Exchange) (fqn : String) : Exchange :=
  { x with
    registry := (x.registry.stop fqn).1
    log := x.log ++ ((x.registry.stop fqn).2.map (Moment.mk .removed)).toList }

def stopAll (x : Exchange) : Exchange :=
  x.registry.sessions.foldl (fun x s => x.stop s.fqn) x

def close (x : Exchange) : Exchange := { x with registry := x.registry.close }

def move (x : Exchange) (k : Nat) (m : Tunnel.Move) : Exchange :=
  match x.tunnels[k]? with
  | none => x
  | some t =>
      let (t', reports) := t.move (x.registry.isCalledOff t.generation) m
      { x with
        tunnels := x.tunnels.set k t'
        reports := x.reports ++ reports
        sent := x.sent ++ reports }

def hear (x : Exchange) (i : Nat) : Exchange :=
  match x.reports[i]? with
  | none => x
  | some ρ =>
      { x with
        registry := (x.registry.applyReport ρ).registry
        reports := x.reports.eraseIdx i
        log := x.log ++ (ρ.moment? x.registry).toList }

def act (x : Exchange) : Act → Exchange
  | .start now fqn path container mapping => x.start now fqn path container mapping
  | .launch fqn => x.launch fqn
  | .stop fqn => x.stop fqn
  | .stopAll => x.stopAll
  | .close => x.close
  | .move k m => x.move k m
  | .hear i => x.hear i

/-- The exchange after some acts. -/
def run (x : Exchange) (acts : List Act) : Exchange := acts.foldl act x

/-- The generations of the sessions that have taken that turn. -/
def generations (x : Exchange) (turn : Turn) : List Nat :=
  (x.log.filter fun m => m.turn == turn).map (·.session.generation)

/-- The reports that were ever queued about that generation. -/
def sentOf (x : Exchange) (g : Nat) : List Report :=
  x.sent.filter fun ρ => ρ.generation == g

/-- Stopping all changes the registry and the log only. -/
theorem stopAll_keeps (x : Exchange) : x.stopAll.registry = x.registry.stopAll ∧
    x.stopAll.tunnels = x.tunnels ∧ x.stopAll.reports = x.reports ∧ x.stopAll.sent = x.sent := by
  unfold stopAll Registry.stopAll
  generalize x.registry.sessions = l
  induction l generalizing x with
  | nil => exact ⟨rfl, rfl, rfl, rfl⟩
  | cons s l ih => exact ih (x.stop s.fqn)

end Exchange

end ClusterConsole.Forwarding
