import ClusterConsole.Background.Ledger
import ClusterConsole.Background.Run

/-!
# The front of the stage

What runs beside an owner shows in the owner itself, the tunnels, the benchmarks and
the queue. `front` is these four; most of what the stage does to its line of tasks,
its timers and its view leaves them as they are.

`Attentive` says of an owner that news changes its registry and its runner as it
should, and nothing else does.
-/

namespace ClusterConsole.Background

variable {σ : Type}

/-- What news does to a registry. -/
def News.onRegistry (news : News) (r : Forwarding.Registry) : Forwarding.Registry :=
  match news with
  | .forward report => (r.applyReport report).registry
  | _ => r

/-- What news does to a runner. -/
def News.onRunner (files : Storage.Files) (news : News) (r : Benchmark.Runner) :
    Benchmark.Runner :=
  match news with
  | .benchmark c => (r.applyCompletion c).1
  | .settingsWritten path => (r.reload files path).toOption.getD r
  | _ => r

/-- News leaves alone what `P` says of the owner. -/
def Owner.Keeps (o : Owner σ) (P : σ → Prop) : Prop :=
  ∀ s news a, P a → P (o.hear s news a)

/-- An owner that takes news for what it is. -/
structure Owner.Attentive (o : Owner σ) : Prop where
  registry : ∀ s news a, o.registry (o.hear s news a) = news.onRegistry (o.registry a)
  runner : ∀ (s : Surroundings) news a,
    o.runner (o.hear s news a) = news.onRunner s.files (o.runner a)

namespace Ledger

theorem registry_note? (l : Ledger) (n : Option Status.Notice) :
    (l.note? n).registry = l.registry := by
  cases n <;> rfl

theorem runner_note? (l : Ledger) (n : Option Status.Notice) : (l.note? n).runner = l.runner := by
  cases n <;> rfl

theorem registry_reset (l : Ledger) (shown : String) : (l.reset shown).registry = l.registry := by
  unfold reset
  split <;> rfl

theorem runner_reset (l : Ledger) (shown : String) : (l.reset shown).runner = l.runner := by
  unfold reset
  split <;> rfl

theorem attentive : owner.Attentive where
  registry s news l := by
    cases news with
    | forward report => exact registry_note? _ _
    | benchmark c => exact registry_note? _ _
    | holdOver message =>
        simp only [owner, hear, News.onRegistry]
        split
        · rfl
        · exact registry_reset l message
    | settingsWritten path =>
        simp only [owner, hear, News.onRegistry]
        split <;> rfl
    | table g t => rfl
    | tableFailure g message => rfl
  runner s news l := by
    cases news with
    | forward report => exact runner_note? _ _
    | benchmark c => exact runner_note? _ _
    | holdOver message =>
        simp only [owner, hear, News.onRunner]
        split
        · rfl
        · exact runner_reset l message
    | settingsWritten path =>
        simp only [owner, hear, News.onRunner]
        split
        · rename_i runner h
          simp [h, Except.toOption]
        · rename_i e h
          simp [h, Except.toOption, note]
    | table g t => rfl
    | tableFailure g message => rfl

end Ledger

namespace Stage

/-- What shows of a stage. -/
def front (w : Stage σ) : σ × List TunnelRun × List BenchmarkRun × Queue News :=
  (w.owner, w.tunnels, w.benchmarks, w.queue)

variable {w w' : Stage σ}

theorem front_schedule (w : Stage σ) (t : Task) : (w.schedule t).front = w.front := by
  unfold schedule
  split <;> rfl

theorem front_setTimer (w : Stage σ) (time : Nat) (t : Task) :
    (w.setTimer time t).front = w.front := by
  unfold setTimer
  split <;> rfl

theorem front_foldl_schedule (w : Stage σ) (tasks : List Task) :
    (tasks.foldl schedule w).front = w.front := by
  induction tasks generalizing w with
  | nil => rfl
  | cons t tasks ih => exact (ih (w.schedule t)).trans (w.front_schedule t)

theorem front_wakeCalledOff (o : Owner σ) (w : Stage σ) : (w.wakeCalledOff o).front = w.front :=
  front_foldl_schedule w _

theorem front_change (o : Owner σ) (w : Stage σ) (f : σ → σ) :
    (w.change o f).front = { w with owner := f w.owner }.front :=
  front_wakeCalledOff o _

theorem front_launch (w : Stage σ) (s : Forwarding.Session) (t : Transport) :
    (w.launch s t).front =
      (w.owner, w.tunnels ++ [TunnelRun.ofSession s t], w.benchmarks, w.queue) :=
  front_schedule _ _

theorem front_begin (w : Stage σ) (id : Nat) (target : Benchmark.Target) (plan : LoadPlan) :
    (w.begin id target plan).front =
      (w.owner, w.tunnels, w.benchmarks ++ [⟨⟨id, target, .fresh⟩, plan⟩], w.queue) :=
  front_schedule _ _

theorem front_advance (w : Stage σ) (time : Nat) : (w.advance time).front = w.front :=
  front_foldl_schedule _ _

end Stage

end ClusterConsole.Background
