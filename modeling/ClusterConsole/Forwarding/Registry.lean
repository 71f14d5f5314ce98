import ClusterConsole.Forwarding.Session
import ClusterConsole.Snapshot.Table
import ClusterConsole.Status.Notice

/-!
# The registry of forwards

The registry holds the sessions that have not ended, one per container, in the
order of their keys. Every session gets a generation of its own, and reports
from a transport carry the generation they belong to: a report whose generation
is not the registered one changes nothing.

A session's token is called off when the session leaves the registry or when
the registry's parent is called off (`closed`).
-/

namespace ClusterConsole.Forwarding

open ClusterConsole.Resource ClusterConsole.Status ClusterConsole.Snapshot

structure Registry where
  sessions : List Session
  nextGeneration : Nat
  calledOff : List Nat
  closed : Bool
  deriving DecidableEq, Repr, Inhabited

/-- What applying a transport's report leaves behind: the registry, the notice
to show, and whether the list of forwards changed. -/
structure Aftermath where
  registry : Registry
  notice : Option Notice
  changed : Bool
  deriving Repr

namespace Registry

def empty : Registry := ⟨[], 1, [], false⟩

/-- Whether the token of that generation is called off. -/
def isCalledOff (r : Registry) (generation : Nat) : Bool :=
  r.closed || r.calledOff.contains generation

/-- The session registered under that key. -/
def get? (r : Registry) (fqn : String) : Option Session :=
  r.sessions.find? fun s => s.fqn == fqn

def contains (r : Registry) (fqn : String) : Bool :=
  r.sessions.any fun s => s.fqn == fqn

/-- The session registered under that key, if it has that generation. -/
def current? (r : Registry) (fqn : String) (generation : Nat) : Option Session :=
  (r.get? fqn).filter fun s => s.generation == generation

/-- A session put in its place by key. -/
def insert (s : Session) : List Session → List Session
  | [] => [s]
  | t :: ts => if s.fqn < t.fqn then s :: t :: ts else t :: insert s ts

/-- The session of that key replaced. -/
def set (r : Registry) (s : Session) : Registry :=
  { r with sessions := r.sessions.map fun t => if t.fqn = s.fqn then s else t }

/-- The session of that key taken out and its token called off. -/
def drop (r : Registry) (s : Session) : Registry :=
  { r with
    sessions := r.sessions.filter fun t => t.fqn != s.fqn
    calledOff := s.generation :: r.calledOff }

/-- The session that `start` registers next under that key. -/
def fresh (r : Registry) (now : Int) (fqn path container : String) (mapping : Mapping) : Session :=
  ⟨fqn, path, container, mapping, .created, r.nextGeneration, now⟩

/-- Registers a session; the key has to be free. -/
def start (r : Registry) (now : Int) (fqn path container : String) (mapping : Mapping) :
    Except Failure (Registry × Session) :=
  if r.contains fqn then .error (.alreadyForwarded fqn)
  else
    let s := r.fresh now fqn path container mapping
    .ok ({ r with sessions := insert s r.sessions, nextGeneration := r.nextGeneration + 1 }, s)

/-- Marks a registered session as activating; its transport is started then. -/
def launch (r : Registry) (fqn : String) : Except Failure (Registry × Session) :=
  match r.get? fqn with
  | none => .error (.notRunnable fqn "port-forward is not registered")
  | some s => (s.step .activating).map fun s => (r.set s, s)

/-- Marks the session of that generation as active. -/
def activate (r : Registry) (fqn : String) (generation : Nat) : Except Failure Registry :=
  match r.current? fqn generation with
  | none => .error (.notRunnable fqn "stale port-forward activation")
  | some s => (s.step .active).map r.set

/-- Takes a session out and calls it off. -/
def stop (r : Registry) (fqn : String) : Registry × Option Session :=
  match r.get? fqn with
  | none => (r, none)
  | some s => (r.drop s, some (s.stepOrStay .stopped))

/-- Stops every session. -/
def stopAll (r : Registry) : Registry :=
  r.sessions.foldl (fun r s => (r.stop s.fqn).1) r

/-- Takes out the session of that generation after its transport has ended. -/
def finish (r : Registry) (fqn : String) (generation : Nat) (outcome : Outcome) :
    Registry × Option Session :=
  match r.current? fqn generation with
  | none => (r, none)
  | some s => (r.drop s, some (s.stepOrStay outcome.phase))

/-- Calls off the token that all sessions' tokens hang from. -/
def close (r : Registry) : Registry := { r with closed := true }

/-! ## Reports of transports -/

/-- The notice for a forward that came up. -/
def activatedNotice (fqn : String) (ports : List Mapping) : Notice :=
  ⟨.info, "PortForward activated " ++ fqn ++ " " ++ Text.join "," (ports.map Mapping.text)⟩

/-- The notice for a forward that ended, given whether it was registered. -/
def finishedNotice (fqn : String) (outcome : Outcome) (registered : Bool) : Option Notice :=
  match outcome, registered with
  | .failed detail, true => some ⟨.error, (Failure.transport fqn detail).message⟩
  | .closed, true => some ⟨.info, "PortForward " ++ fqn ++ " closed"⟩
  | .canceled (some detail), _ => some ⟨.warn, "PortForward " ++ fqn ++ " stopped: " ++ detail⟩
  | _, _ => none

/-- Applies the report that a transport is up. -/
def applyActivated (r : Registry) (fqn : String) (generation : Nat) (ports : List Mapping) :
    Aftermath :=
  match r.activate fqn generation with
  | .ok r' => ⟨r', some (activatedNotice fqn ports), true⟩
  | .error _ => ⟨r, none, false⟩

/-- Applies the report that a transport has ended. -/
def applyFinished (r : Registry) (fqn : String) (generation : Nat) (outcome : Outcome) :
    Aftermath :=
  let (r', removed) := r.finish fqn generation outcome
  ⟨r', finishedNotice fqn outcome removed.isSome, removed.isSome⟩

/-! ## Before a forward is started -/

/-- Whether the containers table shows the container as running. -/
def ensureRunnable (t : Table) (fqn : String) : Except Failure Unit :=
  match t.present? fqn with
  | none => .error (.notRunnable fqn "container not found")
  | some e =>
      let state := ((t.kind.column? "STATE").map e.field).getD ""
      if state = "Running" then .ok ()
      else .error (.notRunnable fqn ("container is " ++ if state = "" then "unknown" else state))

end Registry

end ClusterConsole.Forwarding
