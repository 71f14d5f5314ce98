import ClusterConsole.Proofs.Benchmark.Slot
import ClusterConsole.Benchmark.Course

/-!
# The series

A series is a runner together with the benchmarks that it has started, the queue in
which they tell of their end, and the status line. `Act` lists what can happen to it:
the operator runs and cancels benchmarks and reloads the settings, the token of all
is called off, a benchmark comes one step further on its course, something is heard
from the queue or shown on the status line, and the queue is shut. A run is any
sequence of acts, so the loads end in any order, with whatever result, before or
after they are called off, and their completions are heard as late as one likes.

`told` and `canceled` are read by statements only.
-/

namespace ClusterConsole.Benchmark

open ClusterConsole.Status
open ClusterConsole.Storage (Files)

namespace Trial

/-- How many ends a benchmark has come to: of its load, of the reading of its token,
of its completion and of the hold. -/
def rank (t : Trial) : Nat :=
  match t.progress with
  | .fresh | .loading | .held | .delayed => 0
  | .loaded _ => 1
  | .saving _ _ => 2
  | .told _ => 3
  | .ended => 4

/-- Whether the completion is behind a benchmark. -/
def Over (t : Trial) : Prop := 3 ≤ t.rank

/-- A load that has not ended goes on to wait for something else. -/
def stir (t : Trial) (p : Progress) : Trial :=
  if t.underway ∧ { t with progress := p }.underway then { t with progress := p } else t

/-- What cannot be taken back. -/
structure Later (t t' : Trial) : Prop where
  id : t'.id = t.id
  rank : t.rank ≤ t'.rank

variable {t t' t'' : Trial} {files : Files} {directory : Option String} {time : Time.Moment}

theorem Later.refl (t : Trial) : t.Later t := ⟨rfl, Nat.le_refl _⟩

theorem Later.trans (h : t.Later t') (h' : t'.Later t'') : t.Later t'' :=
  ⟨h'.id.trans h.id, Nat.le_trans h.rank h'.rank⟩

theorem underway_iff : t.underway = true ↔ t.rank = 0 := by
  cases h : t.progress <;> simp [underway, rank, h]

theorem rank_stir (t : Trial) (p : Progress) : (t.stir p).rank = t.rank := by
  by_cases h : t.underway ∧ { t with progress := p }.underway
  · rw [stir, if_pos h, underway_iff.1 h.1, underway_iff.1 h.2]
  · rw [stir, if_neg h]

theorem rank_finish (t : Trial) (result : Except Chain Report) :
    (t.finish result).rank = max 1 t.rank := by
  by_cases h : t.underway = true
  · rw [finish, if_pos h, underway_iff.1 h]
    rfl
  · rw [finish, if_neg h]
    have hpos := mt underway_iff.2 h
    omega

theorem rank_read (t : Trial) (calledOff : Bool) :
    (t.read calledOff).rank = if t.rank = 1 then 2 else t.rank := by
  cases h : t.progress <;> simp [read, rank, h]

theorem rank_release (t : Trial) : t.release.1.rank = if t.rank = 3 then 4 else t.rank := by
  cases h : t.progress <;> simp [release, rank, h]

theorem rank_told (t : Trial) (c : Completion) (taken : Bool) :
    (t.told c taken).rank = if taken then 3 else 4 := by
  cases taken <;> rfl

theorem id_stir (t : Trial) (p : Progress) : (t.stir p).id = t.id := by
  unfold stir
  split <;> rfl

theorem id_finish (t : Trial) (result : Except Chain Report) : (t.finish result).id = t.id := by
  unfold finish
  split <;> rfl

theorem id_read (t : Trial) (calledOff : Bool) : (t.read calledOff).id = t.id := by
  unfold read
  split <;> rfl

theorem id_release (t : Trial) : t.release.1.id = t.id := by
  unfold release
  split <;> rfl

theorem id_ofEnd (files : Files) (directory : Option String) (id : Nat) (target : Target)
    (canceled : Bool) (result : Except Chain Report) (time : Time.Moment) :
    (Completion.ofEnd files directory id target canceled result time).2.id = id := by
  unfold Completion.ofEnd
  split <;> rfl

/-- A completion carries the id of its benchmark and comes once the token was read. -/
theorem complete?_eq_some {files' : Files} {c : Completion}
    (h : t.complete? files directory time = some (files', c)) : t.rank = 2 ∧ c.id = t.id := by
  cases hp : t.progress with
  | saving canceled result =>
      simp only [complete?, hp, Option.some.injEq] at h
      have hid := id_ofEnd files directory t.id t.target canceled result time
      rw [h] at hid
      exact ⟨by simp [rank, hp], hid⟩
  | _ => simp [complete?, hp] at h

theorem complete?_isSome (h : t.rank = 2) :
    ∃ p, t.complete? files directory time = some p := by
  cases hp : t.progress with
  | saving canceled result => simp [complete?, hp]
  | _ => simp [rank, hp] at h

end Trial

/-- What a benchmark queues: its completion, and that the hold of its message is over. -/
inductive Word where
  | completion (c : Completion)
  | holdOver (message : String)

inductive Act where
  | run (now : Int) (target : Target)
  | cancel
  | reload (files : Files) (path : String)
  /-- The token that all benchmarks' tokens hang from is called off. -/
  | close
  /-- The load at that place goes on without an end. -/
  | stir (k : Nat) (p : Progress)
  /-- The load at that place ends. -/
  | load (k : Nat) (result : Except Chain Report)
  /-- The benchmark at that place reads its token. -/
  | read (k : Nat)
  /-- The benchmark at that place saves its report and tells its completion. -/
  | tell (k : Nat) (files : Files) (time : Time.Moment)
  /-- The hold of the message of that benchmark ends. -/
  | release (k : Nat)
  | hear (i : Nat)
  | flash (notice : Notice)
  /-- The queue takes nothing any more. -/
  | shut

structure Series where
  runner : Runner
  /-- The benchmarks that were started, in order. -/
  trials : List Trial
  queue : List Word
  listening : Bool
  line : Line
  /-- All completions that were ever queued. -/
  told : List Completion
  /-- The ids of the benchmarks that were canceled. -/
  canceled : List Nat

namespace Series

def empty (directory : Option String) : Series :=
  ⟨Runner.empty directory, [], [], true, Line.blank, [], []⟩

def run (x : Series) (now : Int) (target : Target) : Series :=
  match x.runner.run now target with
  | .ok (r, id) => { x with runner := r, trials := x.trials ++ [⟨id, target, .fresh⟩] }
  | .error _ => x

def cancel (x : Series) : Series :=
  { x with
    runner := x.runner.cancel.1
    canceled := x.canceled ++
      if x.runner.cancel.2 then (x.runner.slot.map Session.id).toList else [] }

def reload (x : Series) (files : Files) (path : String) : Series :=
  match x.runner.reload files path with
  | .ok r => { x with runner := r }
  | .error _ => x

def onTrial (x : Series) (k : Nat) (f : Trial → Trial) : Series :=
  { x with trials := x.trials.modify k f }

def read (x : Series) (k : Nat) : Series :=
  x.onTrial k fun t => t.read (x.runner.isCalledOff t.id)

/-- Queues a word, if the queue takes it. -/
def push (x : Series) (word : Word) : Series :=
  if x.listening then { x with queue := x.queue ++ [word] } else x

def tell (x : Series) (k : Nat) (files : Files) (time : Time.Moment) : Series :=
  match x.trials[k]?.bind fun t => t.complete? files x.runner.directory time with
  | none => x
  | some (_, c) =>
      { x.onTrial k (·.told c x.listening) with
        told := if x.listening then x.told ++ [c] else x.told }.push (.completion c)

def release (x : Series) (k : Nat) : Series :=
  match x.trials[k]?.bind fun t => t.release.2 with
  | none => x
  | some message => (x.onTrial k (·.release.1)).push (.holdOver message)

/-- Shows a notice, if there is one. -/
def flash? (x : Series) (notice : Option Notice) : Series :=
  { x with line := (notice.map Line.ofNotice).getD x.line }

def hear (x : Series) (i : Nat) : Series :=
  match x.queue[i]? with
  | none => x
  | some word =>
      let x := { x with queue := x.queue.eraseIdx i }
      match word with
      | .completion c =>
          { x with runner := (x.runner.applyCompletion c).1 }.flash? (x.runner.applyCompletion c).2
      | .holdOver message =>
          if x.runner.isRunning then x else { x with line := x.line.resetIfShowing message }

def act (x : Series) : Act → Series
  | .run now target => x.run now target
  | .cancel => x.cancel
  | .reload files path => x.reload files path
  | .close => { x with runner := x.runner.close }
  | .stir k p => x.onTrial k (·.stir p)
  | .load k result => x.onTrial k (·.finish result)
  | .read k => x.read k
  | .tell k files time => x.tell k files time
  | .release k => x.release k
  | .hear i => x.hear i
  | .flash notice => x.flash? (some notice)
  | .shut => { x with listening := false }

/-- The series after some acts. -/
def after (x : Series) (acts : List Act) : Series := acts.foldl act x

end Series

end ClusterConsole.Benchmark
