import ClusterConsole.Background.Run

/-!
# The backdrop of the stage

Transports, benchmarks and timers go on beside the view. They tell no tables, and they
leave the owner and the view as these are: `backdrop` is all that a view has to do with,
and only the poll loop and the hearing of news change it.
-/

namespace ClusterConsole.Background

/-- Whether a watcher has told the news. -/
def News.ofWatcher : News → Bool
  | .table _ _ | .tableFailure _ _ => true
  | _ => false

/-- What watchers have told among the jobs. -/
def viewNews (jobs : List (Job News)) : List News := (jobs.map Job.act).filter News.ofWatcher

theorem viewNews_append (jobs jobs' : List (Job News)) :
    viewNews (jobs ++ jobs') = viewNews jobs ++ viewNews jobs' := by
  rw [viewNews, List.map_append, List.filter_append]
  rfl

namespace Stage

variable {σ : Type} {o : Owner σ}

def backdrop (w : Stage σ) : σ × Option ViewLoop × Bool × List News :=
  (w.owner, w.view, w.queue.closed, viewNews w.queue.waiting)

@[simp]
theorem backdrop_schedule (w : Stage σ) (t : Task) : (w.schedule t).backdrop = w.backdrop := by
  simp only [schedule]
  split <;> rfl

@[simp]
theorem backdrop_setTimer (w : Stage σ) (time : Nat) (t : Task) :
    (w.setTimer time t).backdrop = w.backdrop := by
  simp only [setTimer]
  split <;> rfl

@[simp]
theorem backdrop_setTunnel (w : Stage σ) (k : Nat) (r : TunnelRun) :
    (w.setTunnel k r).backdrop = w.backdrop := rfl

@[simp]
theorem backdrop_onTrial (w : Stage σ) (k : Nat) (f : Benchmark.Trial → Benchmark.Trial) :
    (w.onTrial k f).backdrop = w.backdrop := rfl

theorem backdrop_foldl {α : Type} {f : Stage σ → α → Stage σ}
    (hf : ∀ w a, (f w a).backdrop = w.backdrop) (w : Stage σ) (l : List α) :
    (l.foldl f w).backdrop = w.backdrop := by
  induction l generalizing w with
  | nil => rfl
  | cons a l ih => exact (ih (f w a)).trans (hf w a)

/-- Only the owner is changed; what waits and was called off goes on. -/
theorem backdrop_change (o : Owner σ) (w : Stage σ) (f : σ → σ) :
    (w.change o f).backdrop = (f w.owner, w.backdrop.2) :=
  backdrop_foldl backdrop_schedule _ _

theorem backdrop_advance (w : Stage σ) (time : Nat) : (w.advance time).backdrop = w.backdrop :=
  backdrop_foldl backdrop_schedule _ _

theorem backdrop_breakWaiting (w : Stage σ) (e : Forwarding.Ending) :
    (w.breakWaiting e).backdrop = w.backdrop := by
  apply backdrop_foldl
  intro w k
  exact backdrop_schedule _ _

/-! ## Telling -/

theorem tell_queue (w : Stage σ) (news : News) : (w.tell news).1.queue =
    if w.queue.closed then w.queue
    else { w.queue with waiting := w.queue.waiting ++ [Job.single news] } := by
  simp only [tell, Queue.push]
  split <;> rfl

theorem backdrop_tell {news : News} (hn : news.ofWatcher = false) (w : Stage σ) :
    (w.tell news).1.backdrop = w.backdrop := by
  have htold : viewNews [Job.single news] = [] := by simp [viewNews, Job.single, Job.act, hn]
  have hqueue : (w.tell news).1.queue.closed = w.queue.closed ∧
      viewNews (w.tell news).1.queue.waiting = viewNews w.queue.waiting := by
    rw [tell_queue]
    split
    · exact ⟨rfl, rfl⟩
    · exact ⟨rfl, by rw [viewNews_append, htold, List.append_nil]⟩
  simp only [backdrop, hqueue]
  rfl

theorem backdrop_tellAll {α : Type} {f : α → News} (hf : ∀ a, (f a).ofWatcher = false)
    (w : Stage σ) (l : List α) : (w.tellAll (l.map f)).backdrop = w.backdrop := by
  rw [tellAll, List.foldl_map]
  exact backdrop_foldl (fun w a => backdrop_tell (hf a) w) w l

@[simp]
theorem backdrop_tellReports (w : Stage σ) (reports : List Forwarding.Report) :
    (w.tellAll (reports.map .forward)).backdrop = w.backdrop :=
  backdrop_tellAll (fun _ => rfl) w reports

@[simp]
theorem backdrop_tellHoldOver (w : Stage σ) (messages : List String) :
    (w.tellAll (messages.map .holdOver)).backdrop = w.backdrop :=
  backdrop_tellAll (fun _ => rfl) w messages

/-! ## Tunnels -/

theorem backdrop_runTunnel (o : Owner σ) (w : Stage σ) (k : Nat) (r : TunnelRun) :
    (w.runTunnel o k r).backdrop = w.backdrop := by
  simp only [runTunnel]
  split <;> simp

@[simp]
theorem backdrop_endTransport (w : Stage σ) (k : Nat) (r : TunnelRun) (e : Forwarding.Ending) :
    (w.endTransport k r e).backdrop = w.backdrop := by
  simp only [endTransport]
  split <;> simp

theorem backdrop_runTransport (o : Owner σ) (w : Stage σ) (k : Nat) (r : TunnelRun) :
    (w.runTransport o k r).backdrop = w.backdrop := by
  simp only [runTransport]
  split
  · rfl
  · split
    · split
      · simp
      · split <;> simp
    · cases r.transport.report with
      | none =>
          dsimp only
          split <;> simp
      | some ports =>
          dsimp only
          split <;> split <;> simp

theorem backdrop_runActivation (w : Stage σ) (k : Nat) (r : TunnelRun) :
    (w.runActivation k r).backdrop = w.backdrop := by
  simp only [runActivation]
  split <;> simp

theorem backdrop_launch (w : Stage σ) (s : Forwarding.Session) (t : Transport) :
    (w.launch s t).backdrop = w.backdrop :=
  backdrop_schedule _ _

/-! ## Benchmarks -/

theorem backdrop_begin (w : Stage σ) (id : Nat) (target : Benchmark.Target) (plan : LoadPlan) :
    (w.begin id target plan).backdrop = w.backdrop :=
  backdrop_schedule _ _

theorem backdrop_announce (w : Stage σ) (k : Nat) (c : Benchmark.Completion) :
    (w.announce k c).backdrop = w.backdrop := by
  have htold : (w.tell (.benchmark c)).1.backdrop = w.backdrop := backdrop_tell rfl w
  simp only [announce]
  split
  · rw [backdrop_setTimer, backdrop_onTrial, htold]
  · rw [backdrop_onTrial, htold]

@[simp]
theorem backdrop_complete (o : Owner σ) (w : Stage σ) (k : Nat) :
    (w.complete o k).backdrop = w.backdrop := by
  simp only [complete]
  split
  · exact backdrop_announce _ _ _
  · rfl

theorem backdrop_finishSaving (o : Owner σ) (w : Stage σ) :
    (w.finishSaving o).backdrop = w.backdrop :=
  backdrop_foldl (backdrop_complete o) _ _

theorem backdrop_runBenchmark (o : Owner σ) (w : Stage σ) (k : Nat) (r : BenchmarkRun) :
    (w.runBenchmark o k r).backdrop = w.backdrop := by
  simp only [runBenchmark]
  split
  · simp
  · split
    · rfl
    · simp
  · simp
  · rfl

theorem backdrop_runLoad (o : Owner σ) (w : Stage σ) (k : Nat) (r : BenchmarkRun) :
    (w.runLoad o k r).backdrop = w.backdrop := by
  simp only [runLoad]
  split
  · simp
  · split
    · simp
    · split
      · simp
      · split <;> simp
  · split <;> simp
  · simp
  · rfl

/-- A task other than the poll loop's leaves the backdrop. -/
theorem backdrop_run (o : Owner σ) (w : Stage σ) {task : Task} (htask : task ≠ .poll) :
    (w.run o task).backdrop = w.backdrop := by
  cases task with
  | tunnel k =>
      simp only [run]
      cases w.tunnels[k]? with
      | none => rfl
      | some r => exact backdrop_runTunnel o w k r
  | transport k =>
      simp only [run]
      cases w.tunnels[k]? with
      | none => rfl
      | some r => exact backdrop_runTransport o w k r
  | activation k =>
      simp only [run]
      cases w.tunnels[k]? with
      | none => rfl
      | some r => exact backdrop_runActivation w k r
  | benchmark k =>
      simp only [run]
      cases w.benchmarks[k]? with
      | none => rfl
      | some r => exact backdrop_runBenchmark o w k r
  | load k =>
      simp only [run]
      cases w.benchmarks[k]? with
      | none => rfl
      | some r => exact backdrop_runLoad o w k r
  | poll => exact absurd rfl htask

end Stage

end ClusterConsole.Background
