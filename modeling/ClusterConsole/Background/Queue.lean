/-!
# The queue of jobs

Everything that happens beside the operator's input reaches the console as a job
in one queue. A job may queue further jobs when it is applied; they take their
place behind those that are waiting. Once the queue is closed nothing is
accepted any more.

`drain` applies all that is waiting and all that comes of it, in the order of the
queue.
-/

namespace ClusterConsole.Background

/-- A job and the jobs that it queues when it is applied. -/
inductive Job (α : Type) where
  | mk (act : α) (later : List (Job α))

namespace Job

variable {α : Type}

/-- A job that queues nothing. -/
def single (act : α) : Job α := mk act []

def act : Job α → α
  | mk act _ => act

def later : Job α → List (Job α)
  | mk _ later => later

mutual

/-- The number of jobs that come of a job, itself counted. -/
def size : Job α → Nat
  | mk _ later => 1 + sizeAll later

/-- The number of jobs that come of several. -/
def sizeAll : List (Job α) → Nat
  | [] => 0
  | j :: js => size j + sizeAll js

end

theorem size_eq (j : Job α) : j.size = 1 + sizeAll j.later := by
  cases j; simp [size, later]

theorem sizeAll_append (a b : List (Job α)) : sizeAll (a ++ b) = sizeAll a + sizeAll b := by
  induction a with
  | nil => simp [sizeAll]
  | cons j a ih => simp [sizeAll, ih, Nat.add_assoc]

end Job

/-- The jobs that are waiting, the next one first. -/
structure Queue (α : Type) where
  waiting : List (Job α)
  closed : Bool

namespace Queue

variable {α σ : Type}

def empty : Queue α := ⟨[], false⟩

/-- Queues a job; tells whether it was accepted. -/
def push (q : Queue α) (j : Job α) : Queue α × Bool :=
  if q.closed then (q, false) else ({ q with waiting := q.waiting ++ [j] }, true)

/-- Closes the queue; what is waiting is lost. -/
def close (_ : Queue α) : Queue α := ⟨[], true⟩

/-- Applies the next job, if one is waiting. -/
def step? (apply : α → σ → σ) (q : Queue α) (s : σ) : Option (Queue α × σ) :=
  match q.waiting with
  | [] => none
  | j :: js => some ({ q with waiting := js ++ j.later }, apply j.act s)

/-- Applies the jobs that are waiting and all that come of them; the last part of
the result is their number. -/
def drainFrom (apply : α → σ → σ) (waiting : List (Job α)) (s : σ) (count : Nat) : σ × Nat :=
  match waiting with
  | [] => (s, count)
  | j :: js => drainFrom apply (js ++ j.later) (apply j.act s) (count + 1)
termination_by Job.sizeAll waiting
decreasing_by
  rw [Job.sizeAll_append, Job.sizeAll, Job.size_eq j]
  omega

/-- Empties the queue by applying its jobs; the last part of the result is their
number. -/
def drain (apply : α → σ → σ) (q : Queue α) (s : σ) : Queue α × σ × Nat :=
  ({ q with waiting := [] }, drainFrom apply q.waiting s 0)

end Queue

end ClusterConsole.Background
