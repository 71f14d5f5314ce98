import ClusterConsole.Console.Sitting
import ClusterConsole.Proofs.Console.Bearing
import ClusterConsole.Proofs.Watching.Traffic

/-!
# The desk

A desk is a console with the watchers of all views so far. The watcher of a view that
was left is not followed any more, but the traffic on it may go on for as long as one
likes, and what it hands out is queued behind the rest. `Desk.Act` lists what can
happen: an action, whose command is carried out at once; an act of the traffic on some
watcher; the next letter of the queue is heard; something else is learnt, the time has
come to draw the console's own rows anew, a warning is shown, or what is around the
console changes. A run is any sequence of acts, and `Desk.step_act` says all that one of
them can do.

`log` is read by statements only.
-/

namespace ClusterConsole

namespace Watching

open ClusterConsole.Resource

namespace Traffic

/-- Whether an act is not one of those by which the owner of the watcher changes it. -/
def Act.own {L : Type} : Act L → Bool
  | .setScope _ | .setRate _ | .nudge | .addListener _ => false
  | _ => true

end Traffic

/-- What the owner of a watcher has chosen. -/
def Watcher.settings {L : Type} (w : Watcher L) : Target × Scope × Nat × List L :=
  (w.target, w.scope, w.rate, w.listeners)

namespace Traffic

variable {L : Type}

theorem settings_answer (x : Traffic L) (k : Nat) (fetched : Fetched) :
    (x.answer k fetched).watcher.settings = x.watcher.settings := by
  simp only [answer]
  split <;> rfl

theorem settings_serve (x : Traffic L) (k token : Nat) (scope : Scope) (fetched : Fetched) :
    (x.serve k token scope fetched).watcher.settings = x.watcher.settings := by
  cases fetched <;> rfl

/-- What happens on a watcher leaves its settings alone. -/
theorem settings_act (x : Traffic L) {a : Act L} (ha : a.own = true) :
    (x.act a).watcher.settings = x.watcher.settings := by
  cases a with
  | call token =>
      cases hbusy : x.watcher.busy with
      | true => rw [act, call_of_busy hbusy]
      | false => rw [act, call_of_free hbusy]; rfl
  | answer k fetched => exact settings_answer x k fetched
  | expire k =>
      simp only [act, expire]
      split
      · split
        · exact settings_answer x k _
        · rfl
      · rfl
  | examine k =>
      simp only [act, examine]
      split
      · split
        · rfl
        · exact settings_serve x k _ _ _
      · rfl
  | quit k =>
      simp only [act, quit]
      split
      · split <;> rfl
      · rfl
  | setScope | setRate | nudge | addListener => cases ha
  | _ => rfl

end Traffic

end Watching

namespace Console

open ClusterConsole.Background (News Surroundings)
open ClusterConsole.Resource ClusterConsole.Status
open ClusterConsole.Watching (Delivery Traffic)

/-- What a watcher has handed out, and the watcher's place. -/
structure Letter where
  sender : Nat
  delivery : Nat × Delivery

/-- Something that an action has asked for or a letter that was heard. -/
inductive Turn where
  | asked (command : Command)
  | heard (letter : Letter)

structure Desk where
  surroundings : Surroundings
  console : Console
  live : LiveView
  /-- The watchers of all views, in the order in which these were opened. -/
  watchers : List (Traffic Nat)
  /-- What was handed out and not heard yet, the first one first. -/
  queue : List Letter
  /-- The turns so far, the last one first. -/
  log : List Turn

namespace Desk

inductive Act where
  | act (a : Action)
  /-- Something happens on the watcher at that place. -/
  | watcher (k : Nat) (a : Traffic.Act Nat)
  /-- The next letter is heard. -/
  | hear
  /-- News is heard that is not a watcher's. -/
  | learn (news : News)
  | tick
  | warn (text : String)
  | outside (s : Surroundings)

/-! ## What happens at a desk -/

/-- Does to the watcher that was started last what a command has changed. -/
def applyChange (watchers : List (Traffic Nat)) (change : WatchChange) : List (Traffic Nat) :=
  let amend (acts : List (Traffic.Act Nat)) : List (Traffic Nat) :=
    watchers.modify (watchers.length - 1) fun x => x.after acts
  match change with
  | .stopped => watchers
  | .started order => watchers ++ [Traffic.start (Sitting.watcherOf order)]
  | .rescoped scope => amend [.setScope scope, .nudge]
  | .paced ms => amend [.setRate ms]
  | .nudged => amend [.nudge]

def carryOut (d : Desk) (command : Command) : Desk :=
  let (live, change) := d.live.apply d.console command
  { d with
    live := live
    watchers := change.elim d.watchers (applyChange d.watchers)
    log := .asked command :: d.log }

/-- Follows up a step of the console; its errands are started elsewhere. -/
def follow (d : Desk) (p : Console × Option Command) : Desk :=
  let d := { d with console := { p.1 with errands := [] } }
  p.2.elim d d.carryOut

/-- The letters of the rounds that come after the first `n`. -/
def letters (k n : Nat) (x : Traffic Nat) : List Letter :=
  (x.rounds.drop n).flatMap fun r => r.handed.map (Letter.mk k)

def watch (d : Desk) (k : Nat) (a : Traffic.Act Nat) : Desk :=
  match d.watchers[k]? with
  | some x =>
      if a.own then
        { d with
          watchers := d.watchers.set k (x.act a)
          queue := d.queue ++ letters k x.rounds.length (x.act a) }
      else d
  | none => d

def hear (d : Desk) : Desk :=
  match d.queue with
  | letter :: queue =>
      { d with
        console := d.console.hear d.surroundings (Background.Stage.newsOf letter.delivery)
        queue := queue
        log := .heard letter :: d.log }
  | [] => d

def learn (d : Desk) (news : News) : Desk :=
  if news.ofWatcher then d
  else { d with console := d.console.hear d.surroundings news }

def act (d : Desk) : Act → Desk
  | .act a => d.follow (d.console.act d.surroundings a)
  | .watcher k a => d.watch k a
  | .hear => d.hear
  | .learn news => d.learn news
  | .tick => { d with console := d.console.hydrate d.surroundings }
  | .warn text => { d with console := d.console.flash .warn text }
  | .outside s => { d with surroundings := s }

/-- The desk after a run. -/
def run (d : Desk) (acts : List Act) : Desk := acts.foldl act d

/-- The desk whose first view was just opened. -/
def opening (s : Surroundings) (home cluster context : String) (scope : Scope) (kind : Kind)
    (interval : Nat) : Desk :=
  let c := Console.start s home cluster context scope kind
  let d : Desk := ⟨s, c, LiveView.idle interval, [], [], []⟩
  d.follow (c.watchCurrent s)

variable {d d' : Desk}

theorem run_append (d : Desk) (acts acts' : List Act) :
    d.run (acts ++ acts') = (d.run acts).run acts' := List.foldl_append

theorem run_concat (d : Desk) (acts : List Act) (a : Act) :
    d.run (acts ++ [a]) = (d.run acts).act a := run_append d acts [a]

/-- The place of the watcher that serves the present view, if there is one. -/
def sender? (d : Desk) : Option Nat := d.live.order?.map fun _ => d.watchers.length - 1

/-- The watcher that serves the present view. -/
def watcher? (d : Desk) : Option (Traffic Nat) := d.sender?.bind fun k => d.watchers[k]?

theorem console_follow (d : Desk) (p : Console × Option Command) :
    (d.follow p).console = { p.1 with errands := [] } ∧
      (d.follow p).surroundings = d.surroundings := by
  obtain ⟨c, command⟩ := p
  cases command <;> exact ⟨rfl, rfl⟩

/-- The desk as the view of `c` is opened, before its watcher is. -/
def opened (d : Desk) (c : Console) (s : Surroundings) : Desk :=
  { d with console := { (c.watchCurrent s).1 with errands := [] } }

theorem follow_watchCurrent (d : Desk) (c : Console) (s : Surroundings) :
    d.follow (c.watchCurrent s) = (d.opened c s).carryOut
      (.watch (d.opened c s).console.view.target (d.opened c s).console.generation) := by
  obtain ⟨r, table, hbearing⟩ := bearing_watchCurrent c s
  have htarget : (d.opened c s).console.view.target = c.view.target :=
    congrArg Bearing.target hbearing
  have hgeneration : (d.opened c s).console.generation = c.generation + 1 :=
    congrArg Bearing.generation hbearing
  rw [htarget, hgeneration, follow, watchCurrent_eq]
  rfl

/-! ## What an act can do -/

/-- What the operator does, if it is he who acts. -/
def Act.action? : Act → Option Action
  | .act a => some a
  | _ => none

inductive Step (d : Desk) : Option Action → Desk → Prop where
  | still : Step d none d
  | acts (a : Action) : Step d (some a) (d.follow (d.console.act d.surroundings a))
  | watches {k : Nat} {x : Traffic Nat} {a : Traffic.Act Nat} (hx : d.watchers[k]? = some x)
      (ha : a.own = true) :
      Step d none { d with
        watchers := d.watchers.set k (x.act a)
        queue := d.queue ++ letters k x.rounds.length (x.act a) }
  | hears {letter : Letter} {queue : List Letter} (hqueue : d.queue = letter :: queue) :
      Step d none { d with
        console := d.console.hear d.surroundings (Background.Stage.newsOf letter.delivery)
        queue := queue
        log := .heard letter :: d.log }
  | learns {c : Console} (h : Learnt d.surroundings d.console c) :
      Step d none { d with console := c }
  | draws : Step d none { d with console := d.console.hydrate d.surroundings }
  | warns (text : String) : Step d none { d with console := d.console.flash .warn text }
  | outside (s : Surroundings) : Step d none { d with surroundings := s }

theorem step_act (d : Desk) (a : Act) : Step d a.action? (d.act a) := by
  cases a with
  | act a => exact .acts a
  | watcher k a =>
      simp only [act, watch]
      split
      · split
        · exact .watches ‹_› ‹_›
        · exact .still
      · exact .still
  | hear =>
      simp only [act, hear]
      split
      · exact .hears ‹_›
      · exact .still
  | learn news =>
      simp only [act, learn]
      split
      · exact .still
      · rename_i hnews
        exact .learns (hear_learnt d.console d.surroundings (eq_false_of_ne_true hnews))
  | tick => exact .draws
  | warn text => exact .warns text
  | outside s => exact .outside s

end Desk

end Console

end ClusterConsole
