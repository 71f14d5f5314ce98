import ClusterConsole.Background.Stage

/-!
# Running the stage

`Stage.run` lets one task go on. `settle` lets the owner hear all news and all
that comes of them until nothing has come for a moment; `pass` lets time go by
while the owner looks away. The clock moves only when no task can go on, and
then to the next timer; what is being saved is saved before that.
-/

namespace ClusterConsole.Background

open ClusterConsole.Status ClusterConsole.Watching
open ClusterConsole.Forwarding (Ending)

namespace Stage

variable {σ : Type}

/-! ## Tunnels -/

/-- The part of a tunnel that starts the transport and tells of its end. -/
def runTunnel (o : Owner σ) (w : Stage σ) (k : Nat) (r : TunnelRun) : Stage σ :=
  if r.started then
    let (t, reports) := r.tunnel.settleFinish
      ((o.registry w.owner).isCalledOff r.tunnel.generation)
    (w.setTunnel k { r with tunnel := t }).tellAll (reports.map .forward)
  else ((w.setTunnel k { r with started := true }).schedule (.transport k)).schedule (.activation k)

/-- Ends a transport. -/
def endTransport (w : Stage σ) (k : Nat) (r : TunnelRun) (e : Ending) : Stage σ :=
  let w := w.setTunnel k { r with tunnel := r.tunnel.finish e, waiting := false }
  let w := if r.awaited then w.schedule (.activation k) else w
  w.schedule (.tunnel k)

/-- The transport itself. -/
def runTransport (o : Owner σ) (w : Stage σ) (k : Nat) (r : TunnelRun) : Stage σ :=
  let calledOff := (o.registry w.owner).isCalledOff r.tunnel.generation
  if r.tunnel.ending.isSome then w
  else if r.waiting then
    match r.broken with
    | some e => w.endTransport k r e
    | none => if calledOff then w.endTransport k r r.transport.ending else w
  else
    let (r, w) :=
      match r.transport.report with
      | some ports =>
          let r := { r with tunnel := r.tunnel.report ports }
          (r, if r.awaited then w.schedule (.activation k) else w)
      | none => (r, w)
    if r.transport.waits ∧ ¬ calledOff then w.setTunnel k { r with waiting := true }
    else w.endTransport k r r.transport.ending

/-- The part of a tunnel that waits for the report of the ports. -/
def runActivation (w : Stage σ) (k : Nat) (r : TunnelRun) : Stage σ :=
  let (t, reports) := r.tunnel.settleActivation
  let w := (w.setTunnel k { r with tunnel := t, awaited := !t.activationSettled }).tellAll
    (reports.map .forward)
  if t.activationSettled ∧ t.ending.isSome then w.schedule (.tunnel k) else w

/-! ## Benchmarks -/

/-- Tells the completion of a benchmark and holds its message. -/
def announce (w : Stage σ) (k : Nat) (c : Benchmark.Completion) : Stage σ :=
  let (w, taken) := w.tell (.benchmark c)
  let w := w.onTrial k (·.told c taken)
  if taken then w.setTimer (w.clock + Benchmark.holdTime) (.benchmark k) else w

/-- Saves the report of a benchmark, if there is one, and tells its completion. -/
def complete (o : Owner σ) (w : Stage σ) (k : Nat) : Stage σ :=
  match w.benchmarks[k]?.bind fun r =>
    r.trial.complete? w.files (o.runner w.owner).directory (Time.Moment.ofSeconds w.time) with
  | some (files, c) => { w with files := files }.announce k c
  | none => w

/-- The part of a benchmark that starts the load and tells of its end. -/
def runBenchmark (o : Owner σ) (w : Stage σ) (k : Nat) (r : BenchmarkRun) : Stage σ :=
  match r.trial.progress with
  | .fresh => (w.onTrial k ({ · with progress := .loading })).schedule (.load k)
  | .loaded result =>
      let runner := o.runner w.owner
      let w := w.onTrial k (·.read (runner.isCalledOff r.trial.id))
      if Benchmark.isSaved runner.directory result then { w with saving := w.saving ++ [k] }
      else w.complete o k
  | .told _ =>
      let (t, message) := r.trial.release
      (w.onTrial k fun _ => t).tellAll (message.toList.map .holdOver)
  | _ => w

/-- The load itself. -/
def runLoad (o : Owner σ) (w : Stage σ) (k : Nat) (r : BenchmarkRun) : Stage σ :=
  let calledOff := (o.runner w.owner).isCalledOff r.trial.id
  let ended (w : Stage σ) (result : Except Chain Benchmark.Report) : Stage σ :=
    (w.onTrial k (·.finish result)).schedule (.benchmark k)
  match r.plan, r.trial.progress with
  | .aborts text, .loading => ended w (.error (Benchmark.abortedLoad k text))
  | .gives held delay result, .loading =>
      if calledOff then ended w result
      else if held then w.onTrial k ({ · with progress := .held })
      else if delay = 0 then ended w result
      else (w.onTrial k ({ · with progress := .delayed })).setTimer (w.clock + delay) (.load k)
  | .gives _ _ result, .held => if calledOff then ended w result else w
  | .gives _ _ result, .delayed => ended w result
  | _, _ => w

/-! ## The poll loop -/

/-- The news for the view of a generation. -/
def newsOf (delivery : Nat × Delivery) : News :=
  match delivery.2 with
  | .table t => .table delivery.1 t
  | .failure chain => .tableFailure delivery.1 chain.oneLine

/-- One cycle of the view's watcher. -/
def cycle (w : Stage σ) (v : ViewLoop) : Stage σ :=
  match v.watcher.begin? with
  | none => w
  | some (watcher, scope) =>
      let (requests, fetched) := Cluster.Gateway.fetchRows w.server w.time watcher.target scope
      let (watcher, deliveries) := watcher.conclude scope fetched
      { w with
        requests := w.requests ++ requests
        view := some { v with watcher := watcher } }.tellAll (deliveries.map newsOf)

/-- The branches that the poll loop takes before it waits. Each of them is ready at
most once. -/
def runPoll (w : Stage σ) : Nat → Stage σ
  | 0 => w
  | fuel + 1 =>
      match w.view with
      | none => w
      | some v =>
          match v.loop.pick? v.watcher w.clock false with
          | none => w.setTimer v.loop.due .poll
          | some branch =>
              let (loop, watcher, next) := v.loop.take v.watcher w.clock branch
              let v : ViewLoop := ⟨loop, watcher⟩
              match next with
              | .stop => { w with view := none }
              | .wait => runPoll { w with view := some v } fuel
              | .cycle => runPoll ({ w with view := some v }.cycle v) fuel

/-! ## Tasks and time -/

/-- Lets one task go on. -/
def run (o : Owner σ) (w : Stage σ) (t : Task) : Stage σ :=
  match t with
  | .tunnel k => (w.tunnels[k]?).elim w (runTunnel o w k)
  | .transport k => (w.tunnels[k]?).elim w (runTransport o w k)
  | .activation k => (w.tunnels[k]?).elim w (runActivation w k)
  | .benchmark k => (w.benchmarks[k]?).elim w (runBenchmark o w k)
  | .load k => (w.benchmarks[k]?).elim w (runLoad o w k)
  | .poll => w.runPoll 8

/-- Saves what is being saved. -/
def finishSaving (o : Owner σ) (w : Stage σ) : Stage σ :=
  w.saving.foldl (complete o) { w with saving := [] }

/-- Moves the clock and puts what its timers wake in the line. -/
def advance (w : Stage σ) (time : Nat) : Stage σ :=
  let hit := w.timers.takeWhile fun p => p.1 ≤ time
  let w := { w with clock := max w.clock time, timers := w.timers.drop hit.length }
  (hit.map (·.2)).foldl schedule w

/-- Lets the owner hear the news in the queue; the last part is their number. -/
def hearAll (o : Owner σ) (w : Stage σ) : Stage σ × Nat :=
  let (waiting, rest) := (w.queue.waiting, { w with queue := { w.queue with waiting := [] } })
  waiting.foldl (fun acc job =>
    let w := acc.1
    (change o w (o.hear w.surroundings job.act), acc.2 + 1)) (rest, 0)

/-- The milliseconds without news after which the owner stops waiting for them. -/
def patience : Nat := 5

/-- Lets everything go on until no news has come for a while before `limit`; the
last part of the result is the number of news that were heard. -/
def settleUntil (o : Owner σ) (limit : Nat) : Nat → Nat → Stage σ → Stage σ × Nat
  | 0, count, w => (w, count)
  | fuel + 1, count, w =>
      if w.queue.waiting ≠ [] then
        let (w, n) := w.hearAll o
        settleUntil o (w.clock + patience) fuel (count + n) w
      else
        match w.tasks with
        | t :: ts => settleUntil o limit fuel count (run o { w with tasks := ts } t)
        | [] =>
            if w.saving ≠ [] then settleUntil o limit fuel count (w.finishSaving o)
            else
              match w.timers with
              | (time, _) :: _ =>
                  if time < limit then settleUntil o limit fuel count (w.advance time)
                  else (w.advance limit, count)
              | [] => (w.advance limit, count)

/-- Lets everything go on before a time without hearing news. -/
def passUntil (o : Owner σ) (limit : Nat) : Nat → Stage σ → Stage σ
  | 0, w => w
  | fuel + 1, w =>
      match w.tasks with
      | t :: ts => passUntil o limit fuel (run o { w with tasks := ts } t)
      | [] =>
          if w.saving ≠ [] then passUntil o limit fuel (w.finishSaving o)
          else
            match w.timers with
            | (time, _) :: _ =>
                if time < limit then passUntil o limit fuel (w.advance time) else w.advance limit
            | [] => w.advance limit

/-- More steps than any wait takes. -/
def fuel : Nat := 1000000

/-- Hears all news and all that comes of them. -/
def settle (o : Owner σ) (w : Stage σ) : Stage σ × Nat :=
  if w.queue.closed then (w, 0) else settleUntil o (w.clock + patience) fuel 0 w

/-- Lets time go by, then settles. -/
def wait (o : Owner σ) (w : Stage σ) (ms : Nat) : Stage σ × Nat :=
  settle o (if ms = 0 then w else passUntil o (w.clock + ms) fuel w)

/-- Lets everything go on that needs no time, without hearing news. -/
def idle (o : Owner σ) (w : Stage σ) : Stage σ := passUntil o w.clock fuel w

/-- Stops listening; what was queued is lost. -/
def close (w : Stage σ) : Stage σ := { w with queue := w.queue.close }

end Stage

end ClusterConsole.Background
