import ClusterConsole.Watching.PollLoop

/-!
# A watcher on a timeline

A `Timeline` runs one watcher against a script of fetch results, each of which
takes some milliseconds. Its clock moves only from one thing that happens to the
next, so a run is a function of the script and of the steps taken.

`runUntil` lets the poll loop act on everything that happens before a time;
what happens at that very time is left for the next step.
-/

namespace ClusterConsole.Watching

open ClusterConsole.Resource ClusterConsole.Snapshot ClusterConsole.Status

/-- Where the poll loop stands. -/
inductive LoopPhase where
  | waiting
  /-- A fetch in a scope that gives its result at a time. -/
  | fetching (scope : Scope) (doneAt : Nat) (fetched : Fetched)
  | stopped
  deriving Inhabited

structure Timeline where
  watcher : Watcher String
  script : List (Nat × Fetched)
  now : Nat
  calledOff : Bool
  loop : Option (PollLoop × LoopPhase)
  heard : List (String × Delivery)
  fetchedIn : List Scope

namespace Timeline

def start (w : Watcher String) (script : List (Nat × Fetched)) : Timeline :=
  ⟨w, script, 0, false, none, [], []⟩

/-- The next result of the script and the time it takes, cut at the limit of a
fetch. A script that is used up gives no rows at once. -/
def nextFetch (t : Timeline) (scope : Scope) : Timeline × Nat × Fetched :=
  let (delay, fetched, rest) :=
    match t.script with
    | [] => (0, .ok [], [])
    | (delay, fetched) :: rest => (delay, fetched, rest)
  let t := { t with script := rest, fetchedIn := t.fetchedIn ++ [scope] }
  if delay ≤ fetchLimit then (t, delay, fetched)
  else (t, fetchLimit, .error t.watcher.timedOut)

/-- Ends a cycle and hands its outcome to the listeners. -/
def conclude (t : Timeline) (scope : Scope) (fetched : Fetched) : Timeline :=
  let (w, deliveries) := t.watcher.conclude scope fetched
  { t with watcher := w, heard := t.heard ++ deliveries }

/-- Ends a cycle that was called off. -/
def abandon (t : Timeline) : Timeline := { t with watcher := t.watcher.abandon }

/-- Starts a cycle of the poll loop; it ends at once if its fetch takes no time. -/
def startCycle (t : Timeline) (l : PollLoop) : Timeline :=
  match t.watcher.begin? with
  | none => { t with loop := some (l, .waiting) }
  | some (w, scope) =>
      let (t, delay, fetched) := { t with watcher := w }.nextFetch scope
      if delay = 0 then { t.conclude scope fetched with loop := some (l, .waiting) }
      else { t with loop := some (l, .fetching scope (t.now + delay) fetched) }

/-- When the poll loop acts next. -/
def nextEvent (t : Timeline) : Option Nat :=
  match t.loop with
  | none | some (_, .stopped) => none
  | some (l, .waiting) =>
      if (l.pick? t.watcher t.now t.calledOff).isSome then some t.now else some l.due
  | some (_, .fetching _ doneAt _) => if t.calledOff then some t.now else some (max t.now doneAt)

/-- One act of the poll loop at the present time. -/
def act (t : Timeline) : Timeline :=
  match t.loop with
  | none | some (_, .stopped) => t
  | some (l, .waiting) =>
      match l.pick? t.watcher t.now t.calledOff with
      | none => t
      | some branch =>
          let (l, w, next) := l.take t.watcher t.now branch
          let t := { t with watcher := w }
          match next with
          | .stop => { t with loop := some (l, .stopped) }
          | .wait => { t with loop := some (l, .waiting) }
          | .cycle => t.startCycle l
  | some (l, .fetching scope doneAt fetched) =>
      if t.calledOff then { t.abandon with loop := some (l, .waiting) }
      else if doneAt ≤ t.now then { t.conclude scope fetched with loop := some (l, .waiting) }
      else t

/-- Lets the poll loop act before the deadline, at most `fuel` times, and moves
the clock there. -/
def runUntil (deadline : Nat) : Nat → Timeline → Timeline
  | 0, t => { t with now := max t.now deadline }
  | fuel + 1, t =>
      match t.nextEvent with
      | none => { t with now := max t.now deadline }
      | some at_ =>
          if at_ < deadline then runUntil deadline fuel (act { t with now := max t.now at_ })
          else { t with now := max t.now deadline }

/-- More acts than any span of time that is waited for holds. -/
def fuel : Nat := 100000

/-- Lets so many milliseconds pass. -/
def pass (t : Timeline) (ms : Nat) : Timeline := runUntil (t.now + ms) fuel t

/-- Runs one cycle from outside of the poll loop, called off after `limit`
milliseconds if a limit is given; tells whether the listeners were served. -/
def refresh (t : Timeline) (limit : Option Nat) : Timeline × Bool :=
  let stopAt := (limit.map (t.now + ·)).getD 0
  let finish (t : Timeline) : Timeline :=
    if limit.isSome then { t.pass (stopAt - t.now) with calledOff := true } else t
  match t.watcher.begin? with
  | none => (finish t, false)
  | some (w, scope) =>
      let (t, delay, fetched) := { t with watcher := w }.nextFetch scope
      if t.calledOff then (finish t.abandon, false)
      else if limit.isSome ∧ stopAt < t.now + delay then ((finish t).abandon, false)
      else (finish ((t.pass delay).conclude scope fetched), true)

/-- Runs two cycles that are asked for at the same time. -/
def refreshTwice (t : Timeline) : Timeline × Bool × Bool :=
  match t.watcher.busy, t.script with
  | false, (delay, _) :: _ =>
      let (t, first) := t.refresh none
      if delay = 0 then
        let (t, second) := t.refresh none
        (t, first, second)
      else (t, first, false)
  | _, _ =>
      let (t, first) := t.refresh none
      let (t, second) := t.refresh none
      (t, first, second)

/-- Starts the poll loop. -/
def watch (t : Timeline) : Timeline :=
  { t with loop := some (PollLoop.start t.now t.watcher.rate, .waiting) }

/-- Whether the poll loop has ended; none if it was never started. -/
def done (t : Timeline) : Option Bool :=
  t.loop.map fun l => match l.2 with
    | .stopped => true
    | _ => false

end Timeline

end ClusterConsole.Watching
