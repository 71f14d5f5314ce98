import ClusterConsole.Forwarding.Mapping
import ClusterConsole.Resource.Name
import ClusterConsole.Status.Failure

/-!
# Forwarding sessions

A session is one forward of a local port to a container. It is created, starts
to activate, becomes active, and ends stopped or failed; `Phase.canBecome` lists
the steps it may take. The generation numbers the sessions in the order they
were registered and names the session's token: whether it was called off is
recorded in the registry.
-/

namespace ClusterConsole.Forwarding

open ClusterConsole.Resource ClusterConsole.Status

/-- Where a session stands. -/
inductive Phase where
  | created
  | activating
  | active
  | stopped
  | failed
  deriving DecidableEq, Repr, Inhabited

namespace Phase

def all : List Phase := [created, activating, active, stopped, failed]

/-- Whether a session in this phase has ended. -/
def ended : Phase → Bool
  | stopped | failed => true
  | _ => false

/-- The steps from phase to phase. -/
def canBecome : Phase → Phase → Bool
  | created, activating | created, stopped => true
  | activating, active | activating, stopped | activating, failed => true
  | active, stopped | active, failed => true
  | _, _ => false

def name : Phase → String
  | created => "Created"
  | activating => "Activating"
  | active => "Active"
  | stopped => "Stopped"
  | failed => "Failed"

theorem canBecome_of_ended {p q : Phase} (h : p.ended = true) : p.canBecome q = false := by
  cases p <;> simp_all [ended, canBecome]

end Phase

/-- A forward as the registry knows it. `startedAt` is in seconds of the wall
clock. -/
structure Session where
  fqn : String
  path : String
  container : String
  mapping : Mapping
  phase : Phase
  generation : Nat
  startedAt : Int
  deriving DecidableEq, Repr, Inhabited

namespace Session

def active (s : Session) : Bool := s.phase == .active

def podNamespace (s : Session) : String := (unqualified s.path).1

def pod (s : Session) : String := (unqualified s.path).2

/-- The session in the next phase, if it may step there. -/
def step (s : Session) (next : Phase) : Except Failure Session :=
  if s.phase.canBecome next then .ok { s with phase := next }
  else .error (.notRunnable s.fqn ("cannot go from " ++ s.phase.name ++ " to " ++ next.name))

/-- The session in the next phase, or as it was if it may not step there. -/
def stepOrStay (s : Session) (next : Phase) : Session :=
  if s.phase.canBecome next then { s with phase := next } else s

end Session

/-- How a forward ended. -/
inductive Outcome where
  /-- The far end closed it. -/
  | closed
  /-- It was called off; the transport may have ended with an error even so. -/
  | canceled (detail : Option String)
  | failed (detail : String)
  deriving DecidableEq, Repr, Inhabited

namespace Outcome

/-- The phase a session ends in. -/
def phase : Outcome → Phase
  | failed _ => .failed
  | closed | canceled _ => .stopped

end Outcome

end ClusterConsole.Forwarding
