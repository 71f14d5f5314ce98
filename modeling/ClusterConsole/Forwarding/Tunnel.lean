import ClusterConsole.Forwarding.Registry

/-!
# Tunnels

A tunnel is the running transport of one session. It may report once that it is
up, with its ports, and it ends in one of three ways. `Tunnel` records how far it
has come and which of its two reports have been queued: first the activation, if
there is one, and then exactly one end.

The token is read when the end is reported, so a transport that ends on its own
before the operator stops it still counts as called off if the report is written
after the stop.
-/

namespace ClusterConsole.Forwarding

open ClusterConsole.Status

/-- How a transport ends. -/
inductive Ending where
  | closed
  | failed (chain : Chain)
  /-- It broke off inside; `task` is the number of the task that did. -/
  | aborted (task : Nat) (text : String)
  deriving DecidableEq, Repr, Inhabited

namespace Ending

/-- What went wrong, if something did. -/
def fault? : Ending → Option String
  | closed => none
  | failed chain => some chain.full
  | aborted task text =>
      some ("tunnel task aborted: task " ++ toString task ++ " panicked with message \"" ++
        text ++ "\"")

/-- The outcome of a forward whose transport ended so, given whether its token
is called off. -/
def outcome (e : Ending) (calledOff : Bool) : Outcome :=
  match e.fault?, calledOff with
  | fault, true => .canceled fault
  | none, false => .closed
  | some fault, false => .failed fault

end Ending

/-- What a transport has said about its ports. -/
inductive Ready where
  | pending
  | reported (ports : List Mapping)
  | dropped
  deriving DecidableEq, Repr, Inhabited

/-- A report for the registry. -/
inductive Report where
  | activated (fqn : String) (generation : Nat) (ports : List Mapping)
  | finished (fqn : String) (generation : Nat) (outcome : Outcome)
  deriving DecidableEq, Repr, Inhabited

/-- Applies a report to the registry. -/
def Registry.applyReport (r : Registry) : Report → Aftermath
  | .activated fqn generation ports => r.applyActivated fqn generation ports
  | .finished fqn generation outcome => r.applyFinished fqn generation outcome

/-- A running transport: what it has reported, how it ended, and which reports
have been queued. -/
structure Tunnel where
  fqn : String
  generation : Nat
  ready : Ready
  ending : Option Ending
  activationSettled : Bool
  finishQueued : Bool
  deriving DecidableEq, Repr, Inhabited

namespace Tunnel

/-- The tunnel of a session that is being launched. -/
def ofSession (s : Session) : Tunnel := ⟨s.fqn, s.generation, .pending, none, false, false⟩

/-- The transport reports its ports; only the first report counts, and none
after the end. -/
def report (t : Tunnel) (ports : List Mapping) : Tunnel :=
  if t.ending.isNone ∧ t.ready = .pending then { t with ready := .reported ports } else t

/-- The transport gives up reporting: a report that was not made by now never
comes. -/
def withhold (t : Tunnel) : Tunnel :=
  if t.ready = .pending then { t with ready := .dropped } else t

/-- The transport ends, and with it the chance to report. -/
def finish (t : Tunnel) (e : Ending) : Tunnel :=
  if t.ending.isSome then t else { t.withhold with ending := some e }

/-- Queues the activation, once it is known whether there is one. -/
def settleActivation (t : Tunnel) : Tunnel × List Report :=
  if t.activationSettled then (t, [])
  else
    match t.ready with
    | .pending => (t, [])
    | .dropped => ({ t with activationSettled := true }, [])
    | .reported ports =>
        ({ t with activationSettled := true }, [.activated t.fqn t.generation ports])

/-- Queues the end, after the activation is settled. -/
def settleFinish (t : Tunnel) (calledOff : Bool) : Tunnel × List Report :=
  match t.ending with
  | some e =>
      if t.activationSettled ∧ ¬ t.finishQueued then
        ({ t with finishQueued := true }, [.finished t.fqn t.generation (e.outcome calledOff)])
      else (t, [])
  | none => (t, [])

end Tunnel

end ClusterConsole.Forwarding
