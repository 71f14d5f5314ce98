import ClusterConsole.Watching.PollLoop

/-!
# The vigil

A vigil is a watcher with the one loop that polls it. `Act` lists what can happen: the
loop starts, wakes up for any branch that is ready, begins a cycle, and ends it with what
was fetched or because its token is called off; time passes; and from outside a cycle is
asked for and the scope, the rate and the listeners are changed. These come in any
order, so the loop may wake up as late as one likes, and between any two of its acts
there may be others.

A permit that was left is there until the loop wakes up for it, and it stands for any
number of requests. `begun` lists the cycles that begin in a run, with what the loop had
woken up for and the scope that each has read.
-/

namespace ClusterConsole.Watching

open ClusterConsole.Resource ClusterConsole.Snapshot ClusterConsole.Status

/-- Where the loop stands. -/
inductive Station where
  | unstarted
  | waiting
  /-- It has woken up and goes on to a cycle. -/
  | woken (branch : Branch)
  | fetching (scope : Scope)
  | stopped
  deriving DecidableEq

structure Vigil (L : Type) where
  watcher : Watcher L
  loop : PollLoop
  station : Station
  now : Nat
  calledOff : Bool
  fetchedIn : List Scope
  heard : List (L × Delivery)

/-- The loop after it has taken note of the rate that is set. -/
def PollLoop.repace (l : PollLoop) (rate now : Nat) : PollLoop :=
  if rate = l.rate then l else ⟨rate, now + rate⟩

theorem PollLoop.take_rate {L : Type} (l : PollLoop) (w : Watcher L) (now : Nat) :
    l.take w now .rate = (l.repace w.rate now, { w with rateChanged := false }, .wait) := by
  simp only [take, repace]
  split <;> rfl

theorem PollLoop.rate_repace (l : PollLoop) (rate now : Nat) : (l.repace rate now).rate = rate := by
  rw [repace]
  split
  · exact Eq.symm ‹_›
  · rfl

namespace Vigil

inductive Act (L : Type) where
  | watch
  | wake (branch : Branch)
  /-- The loop that has woken up begins a cycle. -/
  | cycle
  /-- The fetch gives something or is given up. -/
  | finish (fetched : Fetched)
  /-- The cycle takes note that the token is called off. -/
  | quit
  | callOff
  | pass (ms : Nat)
  | setScope (scope : Scope)
  | setRate (rate : Nat)
  | nudge
  | addListener (l : L)

variable {L : Type} {x y : Vigil L} {a : Act L} {acts : List (Act L)}
  {started : Option (Branch × Scope)}

/-- It is the loop that does that. -/
def Act.ofLoop : Act L → Bool
  | .watch | .wake _ | .cycle | .finish _ | .quit => true
  | _ => false

/-- A cycle may end with that. -/
def Act.ends : Act L → Bool
  | .finish _ | .quit => true
  | _ => false

/-- The scope in force after an act. -/
def Act.scopeAfter (scope : Scope) : Act L → Scope
  | .setScope scope' => scope'
  | _ => scope

/-- The rate that is set after an act. -/
def Act.rateAfter (rate : Nat) : Act L → Nat
  | .setRate rate' => rate'
  | _ => rate

/-- A vigil whose loop was not started yet. -/
def start (w : Watcher L) : Vigil L := ⟨w, default, .unstarted, 0, false, [], []⟩

def watch (x : Vigil L) : Vigil L :=
  match x.station with
  | .unstarted => { x with loop := PollLoop.start x.now x.watcher.rate, station := .waiting }
  | _ => x

/-- Where the loop stands after a branch. -/
def stationAfter (branch : Branch) : Next → Station
  | .stop => .stopped
  | .cycle => .woken branch
  | .wait => .waiting

/-- The loop may wake up for the branch. -/
def Ready (x : Vigil L) (branch : Branch) : Prop :=
  x.station = .waiting ∧ x.loop.ready x.watcher x.now x.calledOff branch = true

instance (x : Vigil L) (branch : Branch) : Decidable (x.Ready branch) :=
  inferInstanceAs (Decidable (_ ∧ _))

def wake (x : Vigil L) (branch : Branch) : Vigil L :=
  if x.Ready branch then
    let (loop, watcher, next) := x.loop.take x.watcher x.now branch
    { x with loop := loop, watcher := watcher, station := stationAfter branch next }
  else x

def cycle (x : Vigil L) : Vigil L :=
  match x.station with
  | .woken _ =>
      match x.watcher.begin? with
      | none => { x with station := .waiting }
      | some (w, scope) =>
          { x with
            watcher := w
            station := .fetching scope
            fetchedIn := x.fetchedIn ++ [scope] }
  | _ => x

/-- The cycle ends and leaves all as it was. -/
def breakOff (x : Vigil L) : Vigil L :=
  { x with watcher := x.watcher.abandon, station := .waiting }

/-- The cycle ends and serves the listeners. -/
def serve (x : Vigil L) (scope : Scope) (fetched : Fetched) : Vigil L :=
  { x with
    watcher := (x.watcher.conclude scope fetched).1
    station := .waiting
    heard := x.heard ++ (x.watcher.conclude scope fetched).2 }

def finish (x : Vigil L) (fetched : Fetched) : Vigil L :=
  match x.station with
  | .fetching scope => if x.calledOff then x.breakOff else x.serve scope fetched
  | _ => x

def quit (x : Vigil L) : Vigil L :=
  match x.station with
  | .fetching _ => if x.calledOff then x.breakOff else x
  | _ => x

def act (x : Vigil L) : Act L → Vigil L
  | .watch => x.watch
  | .wake branch => x.wake branch
  | .cycle => x.cycle
  | .finish fetched => x.finish fetched
  | .quit => x.quit
  | .callOff => { x with calledOff := true }
  | .pass ms => { x with now := x.now + ms }
  | .setScope scope => { x with watcher := x.watcher.setScope scope }
  | .setRate rate => { x with watcher := x.watcher.setRate rate }
  | .nudge => { x with watcher := x.watcher.nudge }
  | .addListener l => { x with watcher := x.watcher.addListener l }

/-- The vigil after a run. -/
def after (x : Vigil L) (acts : List (Act L)) : Vigil L := acts.foldl act x

@[simp]
theorem after_nil (x : Vigil L) : x.after [] = x := rfl

@[simp]
theorem after_cons (x : Vigil L) (a : Act L) (acts : List (Act L)) :
    x.after (a :: acts) = (x.act a).after acts := rfl

theorem after_append (x : Vigil L) (acts acts' : List (Act L)) :
    x.after (acts ++ acts') = (x.after acts).after acts' := List.foldl_append

/-- The cycle that begins with an act: what the loop had woken up for, and the scope. -/
def beginning? (x : Vigil L) : Act L → Option (Branch × Scope)
  | .cycle =>
      match x.station with
      | .woken branch => x.watcher.begin?.map fun p => (branch, p.2)
      | _ => none
  | _ => none

/-- The cycles that begin in a run. -/
def begun (x : Vigil L) : List (Act L) → List (Branch × Scope)
  | [] => []
  | a :: acts => (x.beginning? a).toList ++ (x.act a).begun acts

/-! ## What an act can do -/

/-- What an act can do, and the cycle that begins with it. -/
inductive Step (x : Vigil L) : Act L → Option (Branch × Scope) → Vigil L → Prop where
  /-- The loop is not where it could do that. -/
  | still (a : Act L) (ha : a.ofLoop = true) : Step x a none x
  | starts (h : x.station = .unstarted) : Step x .watch none
      { x with loop := PollLoop.start x.now x.watcher.rate, station := .waiting }
  | stops (h : x.station = .waiting) (hoff : x.calledOff = true) :
      Step x (.wake .calledOff) none { x with station := .stopped }
  | ticks (h : x.station = .waiting) (hdue : x.loop.due ≤ x.now) :
      Step x (.wake .tick) none
        { x with loop := { x.loop with due := x.loop.dueAfter x.now }, station := .woken .tick }
  | heeds (h : x.station = .waiting) (hnudged : x.watcher.nudged = true) :
      Step x (.wake .nudge) none
        { x with watcher := { x.watcher with nudged := false }, station := .woken .nudge }
  | repaces (h : x.station = .waiting) (hchanged : x.watcher.rateChanged = true) :
      Step x (.wake .rate) none { x with
        watcher := { x.watcher with rateChanged := false }
        loop := x.loop.repace x.watcher.rate x.now
        station := .waiting }
  | begins (branch : Branch) (h : x.station = .woken branch) (hbusy : x.watcher.busy = false) :
      Step x .cycle (some (branch, x.watcher.scope)) { x with
        watcher := { x.watcher with busy := true }
        station := .fetching x.watcher.scope
        fetchedIn := x.fetchedIn ++ [x.watcher.scope] }
  | misses (branch : Branch) (h : x.station = .woken branch) (hbusy : x.watcher.busy = true) :
      Step x .cycle none { x with station := .waiting }
  | breaksOff (a : Act L) (scope : Scope) (ha : a.ends = true)
      (h : x.station = .fetching scope) (hoff : x.calledOff = true) : Step x a none x.breakOff
  | serves (scope : Scope) (fetched : Fetched) (h : x.station = .fetching scope)
      (hon : x.calledOff = false) : Step x (.finish fetched) none (x.serve scope fetched)
  /-- Something else changes. -/
  | callsOff : Step x .callOff none { x with calledOff := true }
  | passes (ms : Nat) : Step x (.pass ms) none { x with now := x.now + ms }
  | rescopes (scope : Scope) :
      Step x (.setScope scope) none { x with watcher := x.watcher.setScope scope }
  | rerates (rate : Nat) :
      Step x (.setRate rate) none { x with watcher := x.watcher.setRate rate }
  | asks : Step x .nudge none { x with watcher := x.watcher.nudge }
  | welcomes (l : L) :
      Step x (.addListener l) none { x with watcher := x.watcher.addListener l }

theorem step_watch (x : Vigil L) : Step x .watch none x.watch := by
  unfold watch
  split
  · exact .starts ‹_›
  · exact .still _ rfl

theorem step_wake (x : Vigil L) (branch : Branch) : Step x (.wake branch) none (x.wake branch) := by
  unfold wake
  split
  · rename_i hready
    obtain ⟨hwaiting, hready⟩ := hready
    cases branch with
    | calledOff => exact .stops hwaiting hready
    | tick => exact .ticks hwaiting (of_decide_eq_true hready)
    | nudge => exact .heeds hwaiting hready
    | rate =>
        rw [PollLoop.take_rate]
        exact .repaces hwaiting hready
  · exact .still _ rfl

theorem step_cycle (x : Vigil L) : Step x .cycle (x.beginning? .cycle) x.cycle := by
  cases hstation : x.station with
  | woken branch =>
      simp only [cycle, beginning?, hstation, Watcher.begin?]
      cases hbusy : x.watcher.busy with
      | true => exact .misses branch hstation hbusy
      | false => exact .begins branch hstation hbusy
  | _ =>
      simp only [cycle, beginning?, hstation]
      exact .still _ rfl

theorem step_finish (x : Vigil L) (fetched : Fetched) :
    Step x (.finish fetched) none (x.finish fetched) := by
  unfold finish
  split
  · rename_i scope hfetching
    split
    · exact .breaksOff _ scope rfl hfetching ‹_›
    · exact .serves scope fetched hfetching (Bool.eq_false_iff.2 ‹_›)
  · exact .still _ rfl

theorem step_quit (x : Vigil L) : Step x .quit none x.quit := by
  unfold quit
  split
  · rename_i scope hfetching
    split
    · exact .breaksOff _ scope rfl hfetching ‹_›
    · exact .still _ rfl
  · exact .still _ rfl

theorem step_act (x : Vigil L) (a : Act L) : Step x a (x.beginning? a) (x.act a) := by
  cases a with
  | watch => exact x.step_watch
  | wake branch => exact x.step_wake branch
  | cycle => exact x.step_cycle
  | finish fetched => exact x.step_finish fetched
  | quit => exact x.step_quit
  | callOff => exact .callsOff
  | pass ms => exact .passes ms
  | setScope scope => exact .rescopes scope
  | setRate rate => exact .rerates rate
  | nudge => exact .asks
  | addListener l => exact .welcomes l

/-! ## What holds at every moment -/

/-- The watcher is busy while the loop fetches, and the loop keeps to the rate that is set
unless it has yet to take note of it. -/
structure Sound (x : Vigil L) : Prop where
  busy : x.watcher.busy = true ↔ ∃ scope, x.station = .fetching scope
  pace : x.station ≠ .unstarted → x.watcher.rateChanged = false → x.loop.rate = x.watcher.rate

theorem Sound.start (w : Watcher L) (h : w.busy = false) : (start w).Sound where
  busy := by
    rw [Vigil.start, h]
    exact ⟨nofun, nofun⟩
  pace hstarted := absurd rfl hstarted

theorem conclude_fields (w : Watcher L) (scope : Scope) (fetched : Fetched) :
    ∃ t, (w.conclude scope fetched).1 = { w with busy := false, snapshot := t } := by
  cases fetched with
  | ok rows => exact ⟨_, rfl⟩
  | error chain => exact ⟨w.snapshot, rfl⟩

theorem Sound.of_idle (hbusy : x.watcher.busy = false)
    (hstation : ∀ scope, x.station ≠ .fetching scope)
    (hpace : x.station ≠ .unstarted → x.watcher.rateChanged = false →
      x.loop.rate = x.watcher.rate) : x.Sound where
  busy := by
    rw [hbusy]
    exact ⟨nofun, fun ⟨scope, h⟩ => absurd h (hstation scope)⟩
  pace := hpace

theorem Sound.idle (h : x.Sound) (hstation : ∀ scope, x.station ≠ .fetching scope) :
    x.watcher.busy = false :=
  Bool.eq_false_iff.2 fun hbusy =>
    have ⟨scope, hs⟩ := h.busy.1 hbusy
    hstation scope hs

theorem Sound.step (h : x.Sound) (hstep : Step x a started y) : y.Sound := by
  have hwaiting (hs : x.station = .waiting) : x.watcher.busy = false ∧
      (x.watcher.rateChanged = false → x.loop.rate = x.watcher.rate) :=
    ⟨h.idle (by rw [hs]; nofun), h.pace (by rw [hs]; nofun)⟩
  cases hstep with
  | starts hs => exact .of_idle (h.idle (by rw [hs]; nofun)) nofun fun _ _ => rfl
  | stops hs => exact .of_idle (hwaiting hs).1 nofun fun _ => (hwaiting hs).2
  | ticks hs => exact .of_idle (hwaiting hs).1 nofun fun _ => (hwaiting hs).2
  | heeds hs => exact .of_idle (hwaiting hs).1 nofun fun _ => (hwaiting hs).2
  | repaces hs =>
      exact .of_idle (hwaiting hs).1 nofun fun _ _ => PollLoop.rate_repace _ _ _
  | begins branch hs =>
      exact ⟨⟨fun _ => ⟨_, rfl⟩, fun _ => rfl⟩, fun _ => h.pace (by rw [hs]; nofun)⟩
  | misses branch hs =>
      exact .of_idle (h.idle (by rw [hs]; nofun)) nofun fun _ => h.pace (by rw [hs]; nofun)
  | breaksOff a scope ha hs => exact .of_idle rfl nofun fun _ => h.pace (by rw [hs]; nofun)
  | serves scope fetched hs =>
      obtain ⟨t, ht⟩ := conclude_fields x.watcher scope fetched
      rw [serve, ht]
      exact .of_idle rfl nofun fun _ => h.pace (by rw [hs]; nofun)
  | rerates rate => exact ⟨h.busy, nofun⟩
  | _ => exact ⟨h.busy, h.pace⟩

theorem Sound.after (h : x.Sound) (acts : List (Act L)) : (x.after acts).Sound := by
  induction acts generalizing x with
  | nil => exact h
  | cons a acts ih => exact ih (h.step (x.step_act a))

/-! ## What is set -/

theorem Step.settings (h : Step x a started y) :
    y.watcher.scope = a.scopeAfter x.watcher.scope ∧
      y.watcher.rate = a.rateAfter x.watcher.rate := by
  cases h with
  | still a ha => cases a <;> first | exact ⟨rfl, rfl⟩ | cases ha
  | breaksOff a _ ha => cases a <;> first | exact ⟨rfl, rfl⟩ | cases ha
  | serves scope fetched =>
      obtain ⟨t, ht⟩ := conclude_fields x.watcher scope fetched
      rw [serve, ht]
      exact ⟨rfl, rfl⟩
  | _ => exact ⟨rfl, rfl⟩

theorem scope_after (x : Vigil L) (acts : List (Act L)) :
    (x.after acts).watcher.scope = acts.foldl Act.scopeAfter x.watcher.scope := by
  induction acts generalizing x with
  | nil => rfl
  | cons a acts ih => rw [after_cons, ih, (x.step_act a).settings.1, List.foldl_cons]

theorem rate_after (x : Vigil L) (acts : List (Act L)) :
    (x.after acts).watcher.rate = acts.foldl Act.rateAfter x.watcher.rate := by
  induction acts generalizing x with
  | nil => rfl
  | cons a acts ih => rw [after_cons, ih, (x.step_act a).settings.2, List.foldl_cons]

/-! ## The cycles that begin -/

theorem Step.fetchedIn (h : Step x a started y) :
    y.fetchedIn = x.fetchedIn ++ started.toList.map Prod.snd := by
  cases h with
  | begins => rfl
  | _ => exact (List.append_nil _).symm

theorem fetchedIn_after (x : Vigil L) (acts : List (Act L)) :
    (x.after acts).fetchedIn = x.fetchedIn ++ (x.begun acts).map Prod.snd := by
  induction acts generalizing x with
  | nil => exact (List.append_nil _).symm
  | cons a acts ih =>
      rw [after_cons, ih, (x.step_act a).fetchedIn, begun, List.map_append, List.append_assoc]

theorem act_of_stopped (hs : x.station = .stopped) (a : Act L) :
    (x.act a).station = .stopped ∧ x.beginning? a = none := by
  cases a <;> simp [act, watch, wake, Ready, cycle, finish, quit, beginning?, hs]

theorem stopped_after (hs : x.station = .stopped) (acts : List (Act L)) :
    (x.after acts).station = .stopped ∧ x.begun acts = [] := by
  induction acts generalizing x with
  | nil => exact ⟨hs, rfl⟩
  | cons a acts ih =>
      obtain ⟨hstopped, hnone⟩ := act_of_stopped hs a
      obtain ⟨hafter, hbegun⟩ := ih hstopped
      exact ⟨hafter, by rw [begun, hnone, hbegun]; rfl⟩

end Vigil

end ClusterConsole.Watching
