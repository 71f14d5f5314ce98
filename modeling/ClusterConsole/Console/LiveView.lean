import ClusterConsole.Console.State

/-!
# The watcher of the view

`LiveView` carries out what actions ask of the view's watcher. It holds the order
of the one watcher that runs, and the token that the present view hangs from;
opening a view calls the token of the one before off. Kinds that are not fetched
from the cluster have no watcher.
-/

namespace ClusterConsole.Console

open ClusterConsole.Resource
open ClusterConsole.Background (Surroundings)

/-- What a watcher is to do: its target, its scope, its interval in milliseconds,
and the generation of the view that it serves. -/
structure WatchOrder where
  target : Target
  scope : Scope
  interval : Nat
  generation : Nat
  deriving DecidableEq, Repr, Inhabited

/-- The present view's token and its watcher, if it has one. -/
structure ActiveView where
  token : Nat
  order : Option WatchOrder
  deriving DecidableEq, Repr, Inhabited

/-- Tokens are numbered in the order in which they were made. -/
structure LiveView where
  interval : Nat
  tokens : Nat
  calledOff : List Nat
  current : Option ActiveView
  deriving DecidableEq, Repr, Inhabited

/-- What a command changes for the watcher. -/
inductive WatchChange where
  | stopped
  | started (order : WatchOrder)
  | rescoped (scope : Scope)
  | paced (ms : Nat)
  | nudged
  deriving DecidableEq, Repr, Inhabited

namespace LiveView

def idle (interval : Nat) : LiveView := ⟨interval, 0, [], none⟩

/-- Calls the token of the present view off. -/
def stop (v : LiveView) : LiveView :=
  match v.current with
  | some a => { v with calledOff := a.token :: v.calledOff, current := none }
  | none => v

/-- The order of the watcher that runs. -/
def order? (v : LiveView) : Option WatchOrder := v.current.bind (·.order)

/-- Changes the order of the watcher that runs. -/
def amend (v : LiveView) (f : WatchOrder → WatchOrder) : LiveView :=
  { v with current := v.current.map fun a => { a with order := a.order.map f } }

/-- Opens a view. -/
def start (v : LiveView) (c : Console) (target : Target) (generation : Nat) : LiveView :=
  let v := v.stop
  let order : Option WatchOrder :=
    if target.kind.polled then some ⟨target, c.scopeFor target, v.interval, generation⟩ else none
  { v with tokens := v.tokens + 1, current := some ⟨v.tokens, order⟩ }

/-- Carries out a command for a console. -/
def apply (v : LiveView) (c : Console) (command : Command) : LiveView × Option WatchChange :=
  match command with
  | .watch target generation =>
      let v := v.start c target generation
      (v, some (v.order?.elim .stopped .started))
  | .setScope _ =>
      match v.order? with
      | none => (v, none)
      | some order =>
          let scope := c.scopeFor order.target
          if order.scope.sign = scope.sign then (v, none)
          else (v.amend fun o => { o with scope := scope }, some (.rescoped scope))
  | .setInterval ms =>
      let v := { v with interval := ms }
      (v.amend fun o => { o with interval := ms }, v.order?.map fun _ => .paced ms)
  | .refresh => (v, v.order?.map fun _ => .nudged)

end LiveView

end ClusterConsole.Console
