import ClusterConsole.Snapshot.Table
import ClusterConsole.Status.Failure

/-!
# Watchers

A watcher keeps the table of one view up to date. A cycle reads the scope, fetches
rows, and ends by delivering either the next table or a failure to every
listener, in the order they were added. Only one cycle is in flight at a time,
and a cycle whose token is called off before its result is looked at delivers
nothing and leaves the table as it was.

A request for a cycle and a change of the rate are remembered as one permit each
until the poll loop takes them.
-/

namespace ClusterConsole.Watching

open ClusterConsole.Resource ClusterConsole.Snapshot ClusterConsole.Status

/-- What a view shows: a kind, and the pod or forward it belongs to. -/
structure Target where
  kind : Kind
  parent : Option String
  deriving DecidableEq, Repr, Inhabited

namespace Target

/-- All of a kind. -/
def all (kind : Kind) : Target := ⟨kind, none⟩

/-- The containers of a pod. -/
def containersOf (pod : String) : Target := ⟨.containers, some pod⟩

/-- The benchmark reports of a forward. -/
def reportsOf (forward : String) : Target := ⟨.benchmarks, some forward⟩

end Target

/-- What a fetch gives: rows, or an error with its causes. -/
abbrev Fetched := Except Chain (List Row)

/-- What a listener is handed. -/
inductive Delivery where
  | table (t : Table)
  | failure (chain : Chain)
  deriving Repr

/-- The milliseconds a fetch may take. -/
def fetchLimit : Nat := 4000

/-- A watcher with listeners of type `L`. The rate is in milliseconds. -/
structure Watcher (L : Type) where
  target : Target
  scope : Scope
  rate : Nat
  listeners : List L
  snapshot : Table
  busy : Bool
  nudged : Bool
  rateChanged : Bool
  deriving Repr

namespace Watcher

variable {L : Type}

def new (target : Target) (scope : Scope) (rate : Nat) : Watcher L :=
  ⟨target, scope, rate, [], Table.empty target.kind scope, false, false, false⟩

def addListener (w : Watcher L) (l : L) : Watcher L := { w with listeners := w.listeners ++ [l] }

def setScope (w : Watcher L) (scope : Scope) : Watcher L := { w with scope := scope }

def setRate (w : Watcher L) (rate : Nat) : Watcher L := { w with rate := rate, rateChanged := true }

/-- Asks the poll loop for a cycle. -/
def nudge (w : Watcher L) : Watcher L := { w with nudged := true }

/-- Starts a cycle and reads the scope it fetches in; none if one is in flight. -/
def begin? (w : Watcher L) : Option (Watcher L × Scope) :=
  if w.busy then none else some ({ w with busy := true }, w.scope)

/-- Ends a cycle that was called off. -/
def abandon (w : Watcher L) : Watcher L := { w with busy := false }

/-- The error of a fetch that took too long. -/
def timedOut (w : Watcher L) : Chain := ["refresh timed out for " ++ w.target.kind.title]

/-- The same delivery for every listener. -/
def deliver (w : Watcher L) (d : Delivery) : List (L × Delivery) := w.listeners.map fun l => (l, d)

/-- Ends a cycle with what was fetched in the scope. -/
def conclude (w : Watcher L) (scope : Scope) (fetched : Fetched) :
    Watcher L × List (L × Delivery) :=
  match fetched with
  | .ok rows =>
      let t := Table.advance w.target.kind scope (some w.snapshot) rows
      ({ w with busy := false, snapshot := t }, w.deliver (.table t))
  | .error chain => ({ w with busy := false }, w.deliver (.failure chain))

end Watcher

end ClusterConsole.Watching
