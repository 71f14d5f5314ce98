import ClusterConsole.Watching.Timeline
import ClusterConsole.Proofs.Watching.Requests

/-!
# The timetable

`Deed` lists what is done to a timeline from outside. What a timeline does of its own is
a run of the loop of a vigil, which it shows at every moment (`Timeline.vigil`): the
clock moves on to the next thing that happens, and the loop acts on it. So all that holds
of a vigil at every moment of every run holds of a timeline (`exists_attentive_vigil`).
-/

namespace ClusterConsole.Watching

open ClusterConsole.Resource ClusterConsole.Snapshot ClusterConsole.Status

/-- The one vigil goes on to the other by acts of its own or from outside. -/
def Vigil.LeadsTo {L : Type} (x y : Vigil L) : Prop := ∃ acts, y = x.after acts

namespace Vigil.LeadsTo

variable {L : Type} {x y z : Vigil L}

theorem refl (x : Vigil L) : x.LeadsTo x := ⟨[], rfl⟩

theorem trans (h : x.LeadsTo y) (h' : y.LeadsTo z) : x.LeadsTo z := by
  obtain ⟨acts, rfl⟩ := h
  obtain ⟨acts', rfl⟩ := h'
  exact ⟨acts ++ acts', (x.after_append acts acts').symm⟩

theorem of_act (a : Vigil.Act L) (h : x.act a = y) : x.LeadsTo y := ⟨[a], h.symm⟩

end Vigil.LeadsTo

namespace Timeline

variable {t : Timeline} {l : PollLoop}

/-- Where the loop stands, if it was started. -/
def station (t : Timeline) : Station :=
  match t.loop with
  | none => .unstarted
  | some (_, .waiting) => .waiting
  | some (_, .fetching scope _ _) => .fetching scope
  | some (_, .stopped) => .stopped

/-- The vigil that a timeline shows. -/
def vigil (t : Timeline) : Vigil String where
  watcher := t.watcher
  loop := (t.loop.map Prod.fst).getD default
  station := t.station
  now := t.now
  calledOff := t.calledOff
  fetchedIn := t.fetchedIn
  heard := t.heard

/-! ## The loop -/

/-- Only the script and the fetches are touched. -/
theorem exists_nextFetch (t : Timeline) (scope : Scope) : ∃ script delay fetched,
    t.nextFetch scope =
      ({ t with script := script, fetchedIn := t.fetchedIn ++ [scope] }, delay, fetched) := by
  unfold nextFetch
  cases t.script with
  | nil => exact ⟨_, _, _, rfl⟩
  | cons p rest =>
      by_cases hdelay : p.1 ≤ fetchLimit
      · exact ⟨_, _, _, if_pos hdelay⟩
      · exact ⟨_, _, _, if_neg hdelay⟩

theorem leadsTo_startCycle (t : Timeline) (l : PollLoop) (branch : Branch)
    (hon : t.calledOff = false) :
    Vigil.LeadsTo { t.vigil with loop := l, station := .woken branch } (t.startCycle l).vigil := by
  unfold startCycle Watcher.begin?
  cases hbusy : t.watcher.busy with
  | true =>
      refine .of_act .cycle ?_
      simp only [Vigil.act, Vigil.cycle, Watcher.begin?, vigil, hbusy, if_true]
      rfl
  | false =>
      obtain ⟨script, delay, fetched, hfetch⟩ :=
        exists_nextFetch { t with watcher := { t.watcher with busy := true } } t.watcher.scope
      simp only [hfetch, Bool.false_eq_true, if_false]
      have hcycle : Vigil.act { t.vigil with loop := l, station := .woken branch } .cycle =
          { t.vigil with
            watcher := { t.watcher with busy := true }
            loop := l
            station := .fetching t.watcher.scope
            fetchedIn := t.fetchedIn ++ [t.watcher.scope] } := by
        simp only [Vigil.act, Vigil.cycle, Watcher.begin?, vigil, hbusy, Bool.false_eq_true,
          if_false]
      refine (Vigil.LeadsTo.of_act .cycle hcycle).trans ?_
      split
      · refine .of_act (.finish fetched) ?_
        simp only [Vigil.act, Vigil.finish, Vigil.serve, vigil, hon, Bool.false_eq_true, if_false]
        rfl
      · exact .refl _

/-- The token is looked at first. -/
theorem calledOff_of_pick? {w : Watcher String} {now : Nat} {calledOff : Bool} {branch : Branch}
    (h : l.pick? w now calledOff = some branch) (hbranch : branch ≠ .calledOff) :
    calledOff = false := by
  cases calledOff with
  | false => rfl
  | true =>
      rw [PollLoop.pick?, List.find?_cons_of_pos (by rfl), Option.some_inj] at h
      exact absurd h.symm hbranch

theorem leadsTo_act (t : Timeline) : t.vigil.LeadsTo t.act.vigil := by
  unfold act
  split
  · exact .refl _
  · exact .refl _
  · rename_i l hloop
    split
    · exact .refl _
    · rename_i branch hpick
      have hl : t.vigil.loop = l := by rw [vigil, hloop]; rfl
      have hready : t.vigil.Ready branch :=
        ⟨by rw [vigil, station, hloop], by rw [hl]; exact List.find?_some hpick⟩
      have hwake : t.vigil.act (.wake branch) = { t.vigil with
          loop := (l.take t.watcher t.now branch).1
          watcher := (l.take t.watcher t.now branch).2.1
          station := Vigil.stationAfter branch (l.take t.watcher t.now branch).2.2 } := by
        rw [Vigil.act, Vigil.wake, if_pos hready, hl]
        rfl
      cases branch with
      | calledOff => exact .of_act (.wake .calledOff) hwake
      | tick =>
          exact (Vigil.LeadsTo.of_act (.wake .tick) hwake).trans
            (leadsTo_startCycle t _ .tick (calledOff_of_pick? hpick (by simp)))
      | nudge =>
          exact (Vigil.LeadsTo.of_act (.wake .nudge) hwake).trans
            (leadsTo_startCycle { t with watcher := _ } _ .nudge
              (calledOff_of_pick? hpick (by simp)))
      | rate =>
          rw [PollLoop.take_rate] at hwake ⊢
          exact .of_act (.wake .rate) hwake
  · rename_i l scope doneAt fetched hloop
    have hstation : t.vigil.station = .fetching scope := by rw [vigil, station, hloop]
    have hl : t.vigil.loop = l := by rw [vigil, hloop]; rfl
    subst hl
    split
    · rename_i hoff
      refine .of_act .quit ?_
      simp only [Vigil.act, Vigil.quit, hstation]
      exact if_pos hoff
    · rename_i hoff
      split
      · refine .of_act (.finish fetched) ?_
        simp only [Vigil.act, Vigil.finish, hstation]
        exact if_neg hoff
      · exact .refl _

/-- The clock moves on to that time, unless it is past. -/
theorem leadsTo_until (t : Timeline) (time : Nat) :
    t.vigil.LeadsTo { t with now := max t.now time }.vigil := by
  refine .of_act (.pass (max t.now time - t.now)) ?_
  have hnow : t.now + (max t.now time - t.now) = max t.now time :=
    Nat.add_sub_of_le (Nat.le_max_left _ _)
  rw [Vigil.act]
  exact congrArg (fun n => { t.vigil with now := n }) hnow

theorem leadsTo_runUntil (deadline fuel : Nat) (t : Timeline) :
    t.vigil.LeadsTo (runUntil deadline fuel t).vigil := by
  induction fuel generalizing t with
  | zero => exact leadsTo_until t deadline
  | succ fuel ih =>
      rw [runUntil]
      split
      · exact leadsTo_until t deadline
      · split
        · exact (leadsTo_until t _).trans ((leadsTo_act _).trans (ih _))
        · exact leadsTo_until t deadline

/-! ## Deeds -/

inductive Deed where
  | watch
  | nudge
  | setScope (scope : Scope)
  | setRate (rate : Nat)
  | addListener (l : String)
  | callOff
  | pass (ms : Nat)
  | refresh (limit : Option Nat)
  | refreshTwice

/-- The deed is a call for a cycle that does not come from the loop. -/
def Deed.isCall : Deed → Bool
  | .refresh _ | .refreshTwice => true
  | _ => false

/-- The timeline after a deed; a loop that was started is not started again. -/
def perform (t : Timeline) : Deed → Timeline
  | .watch => if t.loop.isNone then t.watch else t
  | .nudge => { t with watcher := t.watcher.nudge }
  | .setScope scope => { t with watcher := t.watcher.setScope scope }
  | .setRate rate => { t with watcher := t.watcher.setRate rate }
  | .addListener l => { t with watcher := t.watcher.addListener l }
  | .callOff => { t with calledOff := true }
  | .pass ms => t.pass ms
  | .refresh limit => (t.refresh limit).1
  | .refreshTwice => t.refreshTwice.1

theorem leadsTo_perform (t : Timeline) {d : Deed} (hd : d.isCall = false) :
    t.vigil.LeadsTo (t.perform d).vigil := by
  cases d with
  | watch =>
      rw [perform]
      split
      · rename_i hnone
        rw [Option.isNone_iff_eq_none] at hnone
        refine .of_act .watch ?_
        rw [Vigil.act, Vigil.watch, vigil, station, hnone]
        rfl
      · exact .refl _
  | nudge => exact .of_act .nudge rfl
  | setScope scope => exact .of_act (.setScope scope) rfl
  | setRate rate => exact .of_act (.setRate rate) rfl
  | addListener l => exact .of_act (.addListener l) rfl
  | callOff => exact .of_act .callOff rfl
  | pass ms => exact leadsTo_runUntil (t.now + ms) fuel t
  | refresh | refreshTwice => cases hd

theorem leadsTo_foldl_perform (t : Timeline) (deeds : List Deed)
    (hdeeds : ∀ d ∈ deeds, d.isCall = false) :
    t.vigil.LeadsTo (deeds.foldl perform t).vigil := by
  induction deeds generalizing t with
  | nil => exact .refl _
  | cons d deeds ih =>
      exact (t.leadsTo_perform (hdeeds d List.mem_cons_self)).trans
        (ih _ fun d' hd' => hdeeds d' (List.mem_cons_of_mem _ hd'))

/-- As long as nobody else calls for a cycle a timeline shows what a vigil has come to. -/
theorem exists_attentive_vigil (target : Target) (scope : Scope) (rate : Nat)
    (script : List (Nat × Fetched)) (deeds : List Deed)
    (hdeeds : ∀ d ∈ deeds, d.isCall = false) :
    ∃ acts, (deeds.foldl perform (start (Watcher.new target scope rate) script)).vigil =
        (Vigil.start (Watcher.new target scope rate)).after acts ∧
      ((Vigil.start (L := String) (Watcher.new target scope rate)).after acts).Attentive
        scope rate acts := by
  obtain ⟨acts, hacts⟩ := leadsTo_foldl_perform (start (Watcher.new target scope rate) script)
    deeds hdeeds
  exact ⟨acts, hacts, ((Vigil.Sound.start _ rfl).after acts).attentive (Vigil.scope_after _ acts)
    (Vigil.rate_after _ acts)⟩

end Timeline

end ClusterConsole.Watching
