import ClusterConsole.Watching.Watcher

/-!
# The poll loop

The loop of a watcher waits for the first of four things: its token is called
off, its ticker is due, a cycle was asked for, or the rate was changed. All but
the last two lead out of the loop or into a cycle; a changed rate replaces the
ticker, which is then due one interval later.

A ticker that is found late by more than a slack skips the ticks it has missed
and keeps its phase. Times are in milliseconds.
-/

namespace ClusterConsole.Watching

/-- The loop's own view of the rate and the time its ticker is due. -/
structure PollLoop where
  rate : Nat
  due : Nat
  deriving DecidableEq, Repr, Inhabited

/-- What the loop can wake up for. -/
inductive Branch where
  | calledOff
  | tick
  | nudge
  | rate
  deriving DecidableEq, Repr, Inhabited

/-- What follows a branch. -/
inductive Next where
  | stop
  | cycle
  | wait
  deriving DecidableEq, Repr, Inhabited

namespace PollLoop

/-- By how much a tick may be late without being missed. -/
def slack : Nat := 5

/-- A loop that starts now; its first tick is due at once. -/
def start (now rate : Nat) : PollLoop := ⟨rate, now⟩

/-- When the ticker is due after a tick that was taken now. -/
def dueAfter (l : PollLoop) (now : Nat) : Nat :=
  if now > l.due + slack then now + l.rate - (now - l.due) % l.rate else l.due + l.rate

variable {L : Type}

/-- Whether a branch is ready. -/
def ready (l : PollLoop) (w : Watcher L) (now : Nat) (calledOff : Bool) : Branch → Bool
  | .calledOff => calledOff
  | .tick => decide (l.due ≤ now)
  | .nudge => w.nudged
  | .rate => w.rateChanged

/-- Takes a branch that is ready. -/
def take (l : PollLoop) (w : Watcher L) (now : Nat) : Branch → PollLoop × Watcher L × Next
  | .calledOff => (l, w, .stop)
  | .tick => ({ l with due := l.dueAfter now }, w, .cycle)
  | .nudge => (l, { w with nudged := false }, .cycle)
  | .rate =>
      let w' := { w with rateChanged := false }
      if w.rate = l.rate then (l, w', .wait) else (⟨w.rate, now + w.rate⟩, w', .wait)

/-- The first branch that is ready, in the order of their listing. -/
def pick? (l : PollLoop) (w : Watcher L) (now : Nat) (calledOff : Bool) : Option Branch :=
  [Branch.calledOff, .tick, .nudge, .rate].find? (l.ready w now calledOff)

end PollLoop

end ClusterConsole.Watching
