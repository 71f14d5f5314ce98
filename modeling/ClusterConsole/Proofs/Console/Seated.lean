import ClusterConsole.Proofs.Console.ForwardsView
import ClusterConsole.Proofs.Watching.Carriage

/-!
# A stage at a desk

The poll loop of a stage serves one view at a time, and its queue holds all news.
`Seated` ties such a stage to a desk: the same console, the same order, the poll loop's
watcher for the one that was started last, and of the queue what watchers have told.
Whatever goes on beside the console is followed by a run at the desk (`follows_wait`): a
cycle of the poll loop is a call to the watcher that is answered and examined at once.
-/

namespace ClusterConsole

open ClusterConsole.Resource ClusterConsole.Status
open ClusterConsole.Background (Job News Stage Surroundings ViewLoop viewNews)
open ClusterConsole.Background.Stage (newsOf)
open ClusterConsole.Watching (Traffic)

/-! ## Several acts on a watcher -/

namespace Watching

theorem PollLoop.ne_calledOff_of_pick? {L : Type} {l : PollLoop} {w : Watcher L} {now : Nat}
    {branch : Branch} (h : l.pick? w now false = some branch) : branch ≠ .calledOff := by
  rintro rfl
  have hready : l.ready w now false .calledOff = true := List.find?_some h
  cases hready

namespace Traffic

variable {L : Type} {x : Traffic L}

theorem prefix_rounds_after (x : Traffic Nat) (acts : List (Act Nat)) :
    x.rounds <+: (x.after acts).rounds := by
  induction acts generalizing x with
  | nil => exact List.prefix_refl _
  | cons a acts ih => exact (x.step_act a).prefix_rounds.trans (ih (x.act a))

/-- The acts of a cycle that is called for at a watcher that is free. -/
def cycle (x : Traffic L) (fetched : Fetched) : List (Act L) :=
  [.call 0, .answer x.calls.length fetched, .examine x.calls.length]

theorem after_cycle (hfree : x.watcher.busy = false) (hon : 0 ∉ x.calledOff) (fetched : Fetched) :
    (x.after (x.cycle fetched)).watcher =
        (({ x.watcher with busy := true } : Watcher L).conclude x.watcher.scope fetched).1 ∧
      (x.after (x.cycle fetched)).rounds = x.rounds ++ [⟨x.calls.length, x.watcher.scope, fetched,
        (({ x.watcher with busy := true } : Watcher L).conclude x.watcher.scope fetched).2⟩] ∧
      (x.after (x.cycle fetched)).calledOff = x.calledOff := by
  have hfetches : (x.call 0).Fetches x.calls.length x.watcher.scope := by
    refine ⟨x.now, ?_⟩
    rw [call_of_free hfree]
    exact List.getElem?_concat_length
  have hoff : 0 ∉ (x.call 0).calledOff := by
    rw [call_of_free hfree]
    exact hon
  rw [cycle, after_cons, act, hfetches.answer_examine hoff fetched, call_of_free hfree]
  exact ⟨rfl, rfl, rfl⟩

end Traffic

end Watching

namespace Console

namespace Desk

theorem letters_append {k n : Nat} {x y : Traffic Nat} (hn : n ≤ x.rounds.length)
    (h : x.rounds <+: y.rounds) :
    letters k n x ++ letters k x.rounds.length y = letters k n y := by
  obtain ⟨more, hmore⟩ := h
  simp only [letters, ← hmore]
  rw [List.drop_append_of_le_length hn, List.drop_left, List.flatMap_append]

/-- What happens on one watcher is put behind what is waiting. -/
theorem run_watcher {d : Desk} {k : Nat} {x : Traffic Nat} (hx : d.watchers[k]? = some x)
    {acts : List (Traffic.Act Nat)} (hacts : ∀ a ∈ acts, a.own = true) :
    d.run (acts.map (.watcher k)) = { d with
      watchers := d.watchers.set k (x.after acts)
      queue := d.queue ++ letters k x.rounds.length (x.after acts) } := by
  have hk := (List.getElem?_eq_some_iff.1 hx).1
  induction acts generalizing d x with
  | nil =>
      have hsame : d.watchers.set k x = d.watchers := by
        obtain ⟨-, rfl⟩ := List.getElem?_eq_some_iff.1 hx
        exact List.set_getElem_self hk
      simp [run, letters, hsame]
  | cons a acts ih =>
      have ha : a.own = true := hacts a List.mem_cons_self
      have hone : d.act (.watcher k a) = { d with
          watchers := d.watchers.set k (x.act a)
          queue := d.queue ++ letters k x.rounds.length (x.act a) } := by
        simp only [act, watch, hx, ha, if_true]
      have hset : (d.watchers.set k (x.act a))[k]? = some (x.act a) := List.getElem?_set_self hk
      rw [List.map_cons, run, List.foldl_cons, hone, ← run,
        ih (d := { d with
          watchers := d.watchers.set k (x.act a)
          queue := d.queue ++ letters k x.rounds.length (x.act a) }) hset
          (fun b hb => hacts b (List.mem_cons_of_mem _ hb)) (by rw [List.length_set]; exact hk)]
      simp only [List.set_set, List.append_assoc, Traffic.after_cons]
      rw [letters_append (x.step_act a).prefix_rounds.length_le
        (Traffic.prefix_rounds_after (x.act a) acts)]

end Desk

/-! ## What a stage has at a desk -/

variable {w w' w'' : Stage Console} {live : LiveView} {jobs : List (Job News)} {d : Desk}
  {v : ViewLoop}

/-- All that a view has to do with is at the desk. The jobs were taken from the queue and
are about to be applied. -/
structure Seated (live : LiveView) (w : Stage Console) (jobs : List (Job News)) (d : Desk) :
    Prop where
  console : d.console = w.owner
  order : d.live = live
  listening : w.queue.closed = false
  queue : d.queue.map (fun l => newsOf l.delivery) = viewNews (jobs ++ w.queue.waiting)
  present : w.view.isSome = live.order?.isSome
  watcher : ∀ v, w.view = some v →
    ∃ x, d.watchers.getLast? = some x ∧ x.watcher = v.watcher ∧ 0 ∉ x.calledOff

/-- What becomes of the stage is what becomes of the desk by a run. -/
def Follows (live : LiveView) (w w' : Stage Console) : Prop :=
  ∀ d, Seated live w [] d → ∃ acts, Seated live w' [] (d.run acts)

theorem Follows.refl (live : LiveView) (w : Stage Console) : Follows live w w :=
  fun _ h => ⟨[], h⟩

theorem Follows.trans (h : Follows live w w') (h' : Follows live w' w'') :
    Follows live w w'' := by
  intro d hd
  obtain ⟨acts, hacts⟩ := h d hd
  obtain ⟨acts', hacts'⟩ := h' _ hacts
  refine ⟨acts ++ acts', ?_⟩
  rw [Desk.run_append]
  exact hacts'

/-- The console has changed, the watcher has not. -/
theorem Seated.amend {jobs' : List (Job News)} {d' : Desk} (h : Seated live w jobs d)
    (hw : w'.backdrop.2 = w.backdrop.2) (hconsole : d'.console = w'.owner)
    (hlive : d'.live = d.live) (hwatchers : d'.watchers = d.watchers)
    (hqueue : d'.queue.map (fun l => newsOf l.delivery) = viewNews (jobs' ++ w.queue.waiting)) :
    Seated live w' jobs' d' := by
  simp only [Stage.backdrop, Prod.mk.injEq] at hw
  obtain ⟨hview, hclosed, hwaiting⟩ := hw
  refine ⟨hconsole, hlive.trans h.order, hclosed.trans h.listening, ?_, ?_, ?_⟩
  · refine hqueue.trans ?_
    rw [Background.viewNews_append, Background.viewNews_append, hwaiting]
  · rw [hview]
    exact h.present
  · rw [hview, hwatchers]
    exact h.watcher

theorem Seated.of_backdrop (h : Seated live w jobs d) (hw : w'.backdrop = w.backdrop) :
    Seated live w' jobs d := by
  have howner : w.owner = w'.owner := (congrArg Prod.fst hw).symm
  exact h.amend (congrArg Prod.snd hw) (h.console.trans howner) rfl rfl h.queue

theorem follows_of_backdrop (hw : w'.backdrop = w.backdrop) : Follows live w w' :=
  fun _ h => ⟨[], h.of_backdrop hw⟩

/-! ## The poll loop -/

/-- The poll loop does to its watcher what some acts on it do. -/
theorem Seated.watches (h : Seated live w [] d) (hv : w.view = some v) {x : Traffic Nat}
    (hx : d.watchers.getLast? = some x) (acts : List (Traffic.Act Nat)) (v' : ViewLoop)
    (hown : ∀ a ∈ acts, a.own = true) {rounds : List (Watching.Round Nat)}
    (hrounds : (x.after acts).rounds = x.rounds ++ rounds)
    (hw' : w'.backdrop = (w.owner, some v', false,
      viewNews w.queue.waiting ++ rounds.flatMap fun r => r.handed.map newsOf))
    (hwatcher : (x.after acts).watcher = v'.watcher) (hon : 0 ∉ (x.after acts).calledOff) :
    ∃ more, Seated live w' [] (d.run more) := by
  rw [List.getLast?_eq_getElem?] at hx
  have hk := (List.getElem?_eq_some_iff.1 hx).1
  simp only [Stage.backdrop, Prod.mk.injEq] at hw'
  obtain ⟨howner, hview, hclosed, hwaiting⟩ := hw'
  have hletters : (Desk.letters (d.watchers.length - 1) x.rounds.length (x.after acts)).map
      (fun l => newsOf l.delivery) = rounds.flatMap fun r => r.handed.map newsOf := by
    simp only [Desk.letters, hrounds, List.drop_left, List.map_flatMap, List.map_map]
    rfl
  refine ⟨acts.map (.watcher (d.watchers.length - 1)), ?_⟩
  rw [Desk.run_watcher hx hown]
  constructor
  · exact h.console.trans howner.symm
  · exact h.order
  · exact hclosed
  · refine (List.map_append ..).trans ?_
    rw [hletters, h.queue, List.nil_append, List.nil_append, hwaiting]
  · rw [hview, ← h.present, hv]
    rfl
  · intro v'' hv''
    obtain rfl := Option.some.inj (hview.symm.trans hv'')
    refine ⟨x.after acts, ?_, hwatcher, hon⟩
    change (d.watchers.set (d.watchers.length - 1) (x.after acts)).getLast? = _
    rw [List.getLast?_eq_getElem?, List.length_set]
    exact List.getElem?_set_self hk

theorem backdrop_tellAll_of_open {news : List News} (hopen : w.queue.closed = false)
    (hnews : ∀ n ∈ news, n.ofWatcher = true) :
    (w.tellAll news).backdrop = (w.owner, w.view, false, viewNews w.queue.waiting ++ news) := by
  induction news generalizing w with
  | nil => simp [Stage.tellAll, Stage.backdrop, hopen]
  | cons n news ih =>
      have hqueue := w.tell_queue n
      rw [hopen, if_neg Bool.false_ne_true] at hqueue
      have hn : viewNews [Job.single n] = [n] := by
        simp [viewNews, Job.single, Job.act, hnews n List.mem_cons_self]
      have hrest := ih (w := (w.tell n).1) (by rw [hqueue]; exact hopen)
        fun m hm => hnews m (List.mem_cons_of_mem _ hm)
      rw [Stage.tellAll, List.foldl_cons, ← Stage.tellAll, hrest, hqueue,
        Background.viewNews_append, hn, List.append_assoc]
      rfl

theorem ofWatcher_newsOf (p : Nat × Watching.Delivery) : (newsOf p).ofWatcher = true := by
  obtain ⟨g, δ⟩ := p
  cases δ <;> rfl

theorem follows_take (hv : w.view = some v) (branch : Watching.Branch) :
    Follows live w { w with
      view := some ⟨(v.loop.take v.watcher w.clock branch).1,
        (v.loop.take v.watcher w.clock branch).2.1⟩ } := by
  intro d h
  obtain ⟨x, hx, hwatcher, hon⟩ := h.watcher v hv
  have hquiet (v' : ViewLoop) : Stage.backdrop { w with view := some v' } =
      (w.owner, some v', false, viewNews w.queue.waiting ++
        ([] : List (Watching.Round Nat)).flatMap fun r => r.handed.map newsOf) := by
    simp [Stage.backdrop, h.listening]
  cases branch with
  | calledOff | tick =>
      exact h.watches hv hx [] _ (by simp) (List.append_nil _).symm (hquiet _) hwatcher hon
  | nudge =>
      apply h.watches hv hx [.takeNudge] _ (by simp [Traffic.Act.own])
        (List.append_nil _).symm (hquiet _)
      · rw [← hwatcher]
        rfl
      · exact hon
  | rate =>
      rw [Watching.PollLoop.take_rate]
      apply h.watches hv hx [.takeRate] _ (by simp [Traffic.Act.own])
        (List.append_nil _).symm (hquiet _)
      · rw [← hwatcher]
        rfl
      · exact hon

theorem follows_cycle (hv : w.view = some v) : Follows live w (w.cycle v) := by
  cases hbusy : v.watcher.busy with
  | true =>
      have hsame : w.cycle v = w := by
        simp only [Stage.cycle, Watching.Watcher.begin?, hbusy, if_true]
      rw [hsame]
      exact .refl live w
  | false =>
      simp only [Stage.cycle, Watching.Watcher.begin?, hbusy, Bool.false_eq_true, if_false]
      intro d h
      obtain ⟨x, hx, hwatcher, hon⟩ := h.watcher v hv
      rw [← hwatcher] at hbusy ⊢
      generalize Cluster.Gateway.fetchRows w.server w.time x.watcher.target x.watcher.scope = p
      obtain ⟨hafter, hrounds, hoff⟩ := Traffic.after_cycle hbusy hon p.2
      refine h.watches hv hx _ ⟨v.loop, _⟩ ?_ hrounds ?_ hafter (hoff ▸ hon)
      · intro a ha
        simp only [Traffic.cycle, List.mem_cons, List.not_mem_nil, or_false] at ha
        rcases ha with rfl | rfl | rfl <;> rfl
      · refine (backdrop_tellAll_of_open ?_ ?_).trans ?_
        · exact h.listening
        · intro n hn
          obtain ⟨p, -, rfl⟩ := List.mem_map.1 hn
          exact ofWatcher_newsOf p
        · simp

theorem follows_runPoll (w : Stage Console) (fuel : Nat) : Follows live w (w.runPoll fuel) := by
  induction fuel generalizing w with
  | zero => exact .refl live w
  | succ fuel ih =>
      cases hv : w.view with
      | none =>
          simp only [Stage.runPoll, hv]
          exact .refl live w
      | some v =>
          cases hpick : v.loop.pick? v.watcher w.clock false with
          | none =>
              simp only [Stage.runPoll, hv, hpick]
              exact follows_of_backdrop (Stage.backdrop_setTimer _ _ _)
          | some branch =>
              -- nothing calls the loop off on a stage, so it never stops by itself
              have htake : Follows live w _ := follows_take hv branch
              have hbranch := Watching.PollLoop.ne_calledOff_of_pick? hpick
              simp only [Stage.runPoll, hv, hpick]
              cases branch with
              | calledOff => exact absurd rfl hbranch
              | tick | nudge => exact htake.trans ((follows_cycle rfl).trans (ih _))
              | rate =>
                  rw [Watching.PollLoop.take_rate] at htake ⊢
                  exact htake.trans (ih _)

/-! ## Hearing and time -/

/-- Whatever task goes on is followed. -/
theorem follows_run (w : Stage Console) (task : Background.Task) :
    Follows live w (w.run owner task) := by
  by_cases htask : task = .poll
  · subst htask
    exact follows_runPoll w 8
  · exact follows_of_backdrop (Stage.backdrop_run owner w htask)

/-- The news that the next job brings is heard. -/
theorem Seated.hear {job : Job News} (h : Seated live w (job :: jobs) d) :
    ∃ acts, Seated live (w.change owner (owner.hear w.surroundings job.act)) jobs
      (d.run acts) := by
  have hw := Stage.backdrop_change owner w (owner.hear w.surroundings job.act)
  have howner : (w.change owner (owner.hear w.surroundings job.act)).owner =
      d.console.hear w.surroundings job.act := by
    rw [h.console]
    exact congrArg Prod.fst hw
  have hqueue := h.queue
  cases hjob : job.act.ofWatcher with
  | true =>
      rw [List.cons_append, viewNews, List.map_cons, List.filter_cons_of_pos hjob] at hqueue
      obtain ⟨l, letters, hletters, hnews, hrest⟩ := List.map_eq_cons_iff.1 hqueue
      refine ⟨[.outside w.surroundings, .hear], ?_⟩
      have hheard : d.run [.outside w.surroundings, .hear] = { d with
          surroundings := w.surroundings
          console := d.console.hear w.surroundings (newsOf l.delivery)
          queue := letters
          log := .heard l :: d.log } := by
        simp only [Desk.run, List.foldl_cons, List.foldl_nil, Desk.act, Desk.hear, hletters]
      rw [hheard]
      refine h.amend (congrArg Prod.snd hw :) ?_ rfl rfl hrest
      rw [howner, ← hnews]
  | false =>
      rw [List.cons_append, viewNews, List.map_cons,
        List.filter_cons_of_neg (by rw [hjob]; exact Bool.false_ne_true)] at hqueue
      refine ⟨[.outside w.surroundings, .learn job.act], ?_⟩
      have hlearnt : d.run [.outside w.surroundings, .learn job.act] = { d with
          surroundings := w.surroundings
          console := d.console.hear w.surroundings job.act } := by
        simp only [Desk.run, List.foldl_cons, List.foldl_nil, Desk.act, Desk.learn, hjob,
          Bool.false_eq_true, if_false]
      rw [hlearnt]
      exact h.amend (congrArg Prod.snd hw :) howner.symm rfl rfl hqueue

theorem follows_hearAll (w : Stage Console) : Follows live w (w.hearAll owner).1 := by
  intro d h
  have hstart : Seated live { w with queue := { w.queue with waiting := [] } }
      w.queue.waiting d := by
    refine ⟨h.console, h.order, h.listening, ?_, h.present, h.watcher⟩
    simpa using h.queue
  simp only [Stage.hearAll]
  generalize w.queue.waiting = jobs at hstart ⊢
  generalize ({ w with queue := { w.queue with waiting := [] } } : Stage Console) = v at hstart ⊢
  generalize 0 = n
  clear h
  induction jobs generalizing v n d with
  | nil => exact ⟨[], hstart⟩
  | cons job jobs ih =>
      obtain ⟨acts, hheard⟩ := hstart.hear
      obtain ⟨acts', hrest⟩ := ih _ _ hheard (n + 1)
      refine ⟨acts ++ acts', ?_⟩
      rw [Desk.run_append]
      exact hrest

/-- Time passes without a word being heard. -/
theorem follows_passUntil (limit fuel : Nat) (w : Stage Console) :
    Follows live w (Stage.passUntil owner limit fuel w) := by
  induction fuel generalizing w with
  | zero => exact .refl live w
  | succ fuel ih =>
      rw [Stage.passUntil]
      split
      · rename_i task tasks _
        have htasks : Follows live w { w with tasks := tasks } := follows_of_backdrop rfl
        exact htasks.trans ((follows_run _ task).trans (ih _))
      · split
        · exact (follows_of_backdrop (Stage.backdrop_finishSaving owner w)).trans (ih _)
        · split
          · split
            · exact (follows_of_backdrop (Stage.backdrop_advance w _)).trans (ih _)
            · exact follows_of_backdrop (Stage.backdrop_advance w _)
          · exact follows_of_backdrop (Stage.backdrop_advance w _)

/-- The console hears all that comes until nothing has come for a while. -/
theorem follows_settleUntil (limit fuel count : Nat) (w : Stage Console) :
    Follows live w (Stage.settleUntil owner limit fuel count w).1 := by
  induction fuel generalizing limit count w with
  | zero => exact .refl live w
  | succ fuel ih =>
      rw [Stage.settleUntil]
      split
      · exact (follows_hearAll w).trans (ih _ _ _)
      · split
        · rename_i task tasks _
          have htasks : Follows live w { w with tasks := tasks } := follows_of_backdrop rfl
          exact htasks.trans ((follows_run _ task).trans (ih _ _ _))
        · split
          · exact (follows_of_backdrop (Stage.backdrop_finishSaving owner w)).trans (ih _ _ _)
          · split
            · split
              · exact (follows_of_backdrop (Stage.backdrop_advance w _)).trans (ih _ _ _)
              · exact follows_of_backdrop (Stage.backdrop_advance w _)
            · exact follows_of_backdrop (Stage.backdrop_advance w _)

theorem follows_settle (w : Stage Console) : Follows live w (w.settle owner).1 := by
  rw [Stage.settle]
  split
  · exact .refl live w
  · exact follows_settleUntil _ _ _ w

theorem follows_wait (w : Stage Console) (ms : Nat) : Follows live w (w.wait owner ms).1 := by
  rw [Stage.wait]
  split
  · exact follows_settle w
  · exact (follows_passUntil _ _ w).trans (follows_settle _)

end Console

end ClusterConsole
