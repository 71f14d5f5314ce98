import ClusterConsole.Benchmark.Archive

/-!
# The course of a benchmark

What happens between the end of a benchmark's load and its completion: the token
is read, and if the load gave a report and reports are kept, the report is saved.
Only then is the completion told. Its message is held for a while and cleared
afterwards, unless something else was shown in the meantime.

`Trial` is one benchmark on this course. Its steps are taken by whatever runs it:
the load ends (`finish`), the token is read (`read`), the report is saved and the
completion told (`complete?`, `told`), and the hold ends (`release`).
-/

namespace ClusterConsole.Benchmark

open ClusterConsole.Status
open ClusterConsole.Storage (Files)

/-- The milliseconds for which the message of a completion is held. -/
def holdTime : Nat := 2000

/-- The error of a load that broke off inside; `task` is the number of the task
that did. -/
def abortedLoad (task : Nat) (text : String) : Chain :=
  ["load generator aborted: task " ++ toString task ++ " panicked with message \"" ++ text ++ "\""]

/-- Whether the end of a load is saved. -/
def isSaved (directory : Option String) (result : Except Chain Report) : Bool :=
  directory.isSome && result.toOption.isSome

/-- The completion of a benchmark whose load has ended, and the files after it;
`canceled` is what its token said at the end. -/
def Completion.ofEnd (files : Files) (directory : Option String) (id : Nat) (target : Target)
    (canceled : Bool) (result : Except Chain Report) (time : Time.Moment) : Files × Completion :=
  match result, directory with
  | .ok report, some directory =>
      let (files, savedAt) := report.save files directory target canceled time
      (files, ⟨id, canceled, result, savedAt⟩)
  | _, _ => (files, ⟨id, canceled, result, none⟩)

/-- How far a benchmark has come. -/
inductive Progress where
  | fresh
  | loading
  /-- The load waits for being called off. -/
  | held
  /-- The load waits for the end of its delay. -/
  | delayed
  | loaded (result : Except Chain Report)
  /-- The token was read; the report is being saved, if it is to be kept. -/
  | saving (canceled : Bool) (result : Except Chain Report)
  /-- The completion was told; its message is held. -/
  | told (message : String)
  | ended

/-- A benchmark that was started. -/
structure Trial where
  id : Nat
  target : Target
  progress : Progress

namespace Trial

/-- Whether the load has not ended. -/
def underway (t : Trial) : Bool :=
  match t.progress with
  | .fresh | .loading | .held | .delayed => true
  | _ => false

/-- The load ends. -/
def finish (t : Trial) (result : Except Chain Report) : Trial :=
  if t.underway then { t with progress := .loaded result } else t

/-- The token is read, once the load has ended. -/
def read (t : Trial) (calledOff : Bool) : Trial :=
  match t.progress with
  | .loaded result => { t with progress := .saving calledOff result }
  | _ => t

/-- The completion and the files after it, once the token was read. -/
def complete? (t : Trial) (files : Files) (directory : Option String) (time : Time.Moment) :
    Option (Files × Completion) :=
  match t.progress with
  | .saving canceled result =>
      some (Completion.ofEnd files directory t.id t.target canceled result time)
  | _ => none

/-- The trial after its completion; its message is held if someone hears of it. -/
def told (t : Trial) (c : Completion) (taken : Bool) : Trial :=
  { t with progress := if taken then .told c.notice.text else .ended }

/-- The hold of the message ends; the last part is the message. -/
def release (t : Trial) : Trial × Option String :=
  match t.progress with
  | .told message => ({ t with progress := .ended }, some message)
  | _ => (t, none)

end Trial

end ClusterConsole.Benchmark
