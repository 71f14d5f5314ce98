import ClusterConsole.Proofs.Console.Seated

/-!
# Every sitting is a run at a desk

`Opened` gives the sittings that come of the opening of the first view, by what the
operator does and what goes on meanwhile, up to the shutdown. Each of them has a desk
that came about by a run of acts and has the same console and the same order
(`Opened.atDesk`), so what is so after every run at a desk is so at every moment of a
sitting.
-/

namespace ClusterConsole.Console

open ClusterConsole.Background (News Stage Surroundings Transport LoadPlan ViewLoop viewNews)
open ClusterConsole.Resource ClusterConsole.Snapshot ClusterConsole.Status
open ClusterConsole.Watching (Traffic)

/-! ## Commands -/

section Commands

variable {w w' : Stage Console} {live live' : LiveView} {d d' : Desk}

/-- The order has changed, and the poll loop's watcher with it. -/
theorem Seated.reorder (h : Seated live w [] d) (hconsole : d'.console = d.console)
    (hqueue : d'.queue = d.queue) (hlive : d'.live = live') {view : Option ViewLoop}
    (hw : w'.backdrop = Stage.backdrop { w with view := view })
    (hpresent : view.isSome = live'.order?.isSome)
    (hwatcher : ∀ v, view = some v →
      ∃ x, d'.watchers.getLast? = some x ∧ x.watcher = v.watcher ∧ 0 ∉ x.calledOff) :
    Seated live' w' [] d' := by
  simp only [Stage.backdrop, Prod.mk.injEq] at hw
  obtain ⟨howner, hview, hclosed, hwaiting⟩ := hw
  refine ⟨?_, hlive, hclosed.trans h.listening, ?_, ?_, ?_⟩
  · rw [hconsole, h.console, howner]
  · rw [hqueue, h.queue, List.nil_append, List.nil_append, hwaiting]
  · rw [hview]
    exact hpresent
  · rw [hview]
    exact hwatcher

/-- The order was amended, and its watcher so that it is as the order says. -/
theorem Seated.adjust (h : Seated live w [] d)
    (f : Watching.Watcher Nat → Watching.Watcher Nat) (acts : List (Traffic.Act Nat))
    (log : List Turn)
    (hacts : ∀ x : Traffic Nat, (x.after acts).watcher = f x.watcher ∧
      (x.after acts).calledOff = x.calledOff)
    (hpresent : live'.order?.isSome = live.order?.isSome) :
    Seated live' (w.adjust f) [] { d with
      live := live'
      watchers := d.watchers.modify (d.watchers.length - 1) fun x => x.after acts
      log := log } := by
  have hview : (w.adjust f).backdrop = Stage.backdrop { w with
      view := w.view.map fun v => { v with watcher := f v.watcher } } := by
    rw [Stage.adjust]
    cases hv : w.view with
    | none => simp [Stage.backdrop, hv]
    | some v => exact Stage.backdrop_schedule _ _
  refine h.reorder rfl rfl rfl hview ?_ ?_
  · rw [Option.isSome_map, h.present, hpresent]
  · intro v' hv'
    obtain ⟨v, hv, rfl⟩ := Option.map_eq_some_iff.1 hv'
    obtain ⟨x, hx, hwatcher, hon⟩ := h.watcher v hv
    refine ⟨x.after acts, Desk.getLast?_modify hx _, ?_, ?_⟩
    · rw [(hacts x).1, hwatcher]
    · rw [(hacts x).2]
      exact hon

theorem Seated.carryOut (h : Seated live w [] d) (command : Command) :
    Seated (live.apply w.owner command).1
      ((live.apply w.owner command).2.elim w (Sitting.applyChange w)) [] (d.carryOut command) := by
  have hrelog (log : List Turn) : Seated live w [] { d with log := log } :=
    ⟨h.console, h.order, h.listening, h.queue, h.present, h.watcher⟩
  obtain rfl := h.order
  rw [← h.console]
  cases command with
  | watch target generation =>
      cases hpolled : target.kind.polled with
      | true =>
          obtain ⟨o, -, horder, hwatchers⟩ := d.watch_of_polled target generation hpolled
          have hstart : (d.live.start d.console target generation).order? = some o := horder
          simp only [LiveView.apply, hstart]
          refine h.reorder rfl rfl rfl (Stage.backdrop_schedule _ _) ?_ ?_
          · rw [hstart]
            rfl
          · intro v hv
            obtain rfl := Option.some.inj hv
            rw [hwatchers]
            exact ⟨_, List.getLast?_concat, rfl, List.not_mem_nil⟩
      | false =>
          obtain ⟨horder, -⟩ := d.watch_of_local target generation hpolled
          have hstart : (d.live.start d.console target generation).order? = none := horder
          simp only [LiveView.apply, hstart]
          refine h.reorder rfl rfl rfl rfl ?_ ?_
          · rw [hstart]
            rfl
          · intro v hv
            cases hv
  | setScope scope =>
      cases ho : d.live.order? with
      | none =>
          simp only [Desk.carryOut, LiveView.apply, ho]
          exact hrelog _
      | some o =>
          by_cases hsign : o.scope.sign = (d.console.scopeFor o.target).sign
          · simp only [Desk.carryOut, LiveView.apply, ho, hsign, if_true]
            exact hrelog _
          · simp only [Desk.carryOut, LiveView.apply, ho, if_neg hsign]
            refine h.adjust (fun r => (r.setScope _).nudge) [.setScope _, .nudge] _ ?_ ?_
            · intro x
              exact ⟨rfl, rfl⟩
            · rw [LiveView.order?_amend, Option.isSome_map]
  | setInterval ms =>
      have hpresent := congrArg Option.isSome (LiveView.order?_setInterval d.live d.console ms)
      rw [Option.isSome_map] at hpresent
      cases ho : LiveView.order? { d.live with interval := ms } with
      | none =>
          simp only [Desk.carryOut, LiveView.apply, ho] at hpresent ⊢
          refine h.reorder rfl rfl rfl (Eq.refl w.backdrop) ?_ h.watcher
          rw [h.present, hpresent]
      | some o =>
          simp only [Desk.carryOut, LiveView.apply, ho] at hpresent ⊢
          refine h.adjust (fun r => r.setRate ms) [.setRate ms] _ ?_ hpresent
          intro x
          exact ⟨rfl, rfl⟩
  | refresh =>
      cases ho : d.live.order? with
      | none =>
          simp only [Desk.carryOut, LiveView.apply, ho]
          exact hrelog _
      | some o =>
          simp only [Desk.carryOut, LiveView.apply, ho]
          refine h.adjust (fun r => r.nudge) [.nudge] _ ?_ rfl
          intro x
          exact ⟨rfl, rfl⟩

end Commands

namespace Sitting

variable {s s' : Sitting} {d d' : Desk}

/-! ## A sitting at a desk -/

structure AtDesk (s : Sitting) (d : Desk) : Prop where
  live : s.live = some d.live
  seated : Seated d.live s.stage [] d

theorem AtDesk.of_seated {live : LiveView} (hlive : s.live = some live)
    (h : Seated live s.stage [] d) : s.AtDesk d := by
  obtain rfl := h.order
  exact ⟨hlive, h⟩

theorem AtDesk.follows (h : s.AtDesk d) (hlive : s'.live = s.live)
    (hstage : Follows d.live s.stage s'.stage) : ∃ acts, s'.AtDesk (d.run acts) := by
  obtain ⟨acts, hseated⟩ := hstage d h.seated
  exact ⟨acts, .of_seated (hlive.trans h.live) hseated⟩

theorem AtDesk.change (h : s.AtDesk d) (f : Console → Console)
    (hconsole : d'.console = f d.console) (hlive : d'.live = d.live)
    (hwatchers : d'.watchers = d.watchers) (hqueue : d'.queue = d.queue) :
    (s.change f).AtDesk d' := by
  have hw : (s.change f).stage.backdrop = (f s.stage.owner, s.stage.backdrop.2) :=
    Stage.backdrop_change owner s.stage f
  have howner : (s.change f).stage.owner = f d.console := by
    rw [h.seated.console]
    exact congrArg Prod.fst hw
  refine .of_seated h.live ?_
  apply h.seated.amend (congrArg Prod.snd hw :) (hconsole.trans howner.symm) hlive hwatchers
  rw [hqueue]
  exact h.seated.queue

/-- The desk may stand in other surroundings until the console looks around. -/
theorem AtDesk.around (h : s.AtDesk d) (around : Surroundings) :
    s.AtDesk { d with surroundings := around } :=
  ⟨h.live, h.seated.amend rfl h.seated.console rfl rfl h.seated.queue⟩

theorem backdrop_startErrands (s : Sitting) : s.startErrands.stage.backdrop =
    ({ s.console with errands := [] }, s.stage.backdrop.2) := by
  refine congrArg (fun p => ({ s.console with errands := [] }, p.2))
    (Stage.backdrop_foldl ?_ s.stage s.console.errands)
  intro w e
  cases e with
  | tunnel session => exact Stage.backdrop_launch w session (s.transport session)
  | benchmark id target => exact Stage.backdrop_begin w id target (s.load target)

theorem AtDesk.startErrands (h : s.AtDesk d) :
    s.startErrands.AtDesk { d with console := { d.console with errands := [] } } := by
  have hw := s.backdrop_startErrands
  have howner : s.startErrands.stage.owner = { d.console with errands := [] } := by
    rw [h.seated.console]
    exact congrArg Prod.fst hw
  refine .of_seated h.live ?_
  exact h.seated.amend (congrArg Prod.snd hw :) howner.symm rfl rfl h.seated.queue

theorem AtDesk.watchHome (h : s.AtDesk d) : ∃ acts, s.watchHome.AtDesk (d.run acts) := by
  rw [Sitting.watchHome]
  split
  · exact ⟨[], h.live, h.seated.of_backdrop rfl⟩
  · rename_i e _
    exact ⟨[.warn e.message], h.change _ rfl rfl rfl rfl⟩

theorem AtDesk.carryOut (h : s.AtDesk d) (command : Command) :
    ∃ acts, (s.carryOut command).AtDesk ((d.carryOut command).run acts) := by
  simp only [Sitting.carryOut, h.live]
  have hdone : AtDesk { s with
      live := some (d.live.apply s.console command).1
      stage := (d.live.apply s.console command).2.elim s.stage (applyChange s.stage) }
      (d.carryOut command) := .of_seated rfl (h.seated.carryOut command)
  split
  · split
    · exact hdone.watchHome
    · exact ⟨[], hdone⟩
  · exact ⟨[], hdone⟩

theorem AtDesk.follow (h : s.AtDesk d) (f : Console → Console × Option Command) :
    ∃ acts, (s.follow f).1.AtDesk ((d.follow (f d.console)).run acts) := by
  have hconsole : d.console = s.console := h.seated.console
  have hchanged : (s.change fun _ => (f s.console).1).AtDesk
      { d with console := (f s.console).1 } := h.change _ rfl rfl rfl rfl
  have hstarted := hchanged.startErrands
  rw [hconsole]
  simp only [Sitting.follow, Desk.follow]
  cases (f s.console).2 with
  | none => exact ⟨[], hstarted⟩
  | some command => exact hstarted.carryOut command

/-! ## What can happen before the end -/

/-- One thing that happens in a sitting before its end. -/
inductive Move (s : Sitting) : Sitting → Prop where
  | act (a : Action) : Move s (s.act a).1
  | hear {news : News} (hnews : news.ofWatcher = false) : Move s (s.hear news)
  | tick : Move s (s.change fun c => c.hydrate s.stage.surroundings)
  | settle : Move s s.settle.1
  | wait (ms : Nat) : Move s (s.wait ms).1
  /-- The transports that wait break. -/
  | breakWaiting (e : Forwarding.Ending) : Move s { s with stage := s.stage.breakWaiting e }
  /-- Outside, the files, the time, the cluster or the way in which transports and loads
  behave have changed. -/
  | outside {t : Sitting} (hlive : t.live = s.live)
      (hbackdrop : t.stage.backdrop = s.stage.backdrop) : Move s t

theorem Move.atDesk (hmove : Move s s') (h : s.AtDesk d) : ∃ acts, s'.AtDesk (d.run acts) := by
  have haround := h.around s.stage.surroundings
  cases hmove with
  | act a =>
      obtain ⟨acts, hdone⟩ := haround.follow fun c => c.act s.stage.surroundings a
      exact ⟨.outside s.stage.surroundings :: .act a :: acts, hdone⟩
  | @hear news hnews =>
      refine ⟨[.outside s.stage.surroundings, .learn news], ?_⟩
      have hlearnt : d.run [.outside s.stage.surroundings, .learn news] = { d with
          surroundings := s.stage.surroundings
          console := d.console.hear s.stage.surroundings news } := by
        simp only [Desk.run, List.foldl_cons, List.foldl_nil, Desk.act, Desk.learn, hnews,
          Bool.false_eq_true, if_false]
      rw [hlearnt]
      exact haround.change _ rfl rfl rfl rfl
  | tick =>
      exact ⟨[.outside s.stage.surroundings, .tick], haround.change _ rfl rfl rfl rfl⟩
  | settle => exact h.follows rfl (follows_settle s.stage)
  | wait ms => exact h.follows rfl (follows_wait s.stage ms)
  | breakWaiting e =>
      exact h.follows rfl (follows_of_backdrop (Stage.backdrop_breakWaiting s.stage e))
  | outside hlive hbackdrop => exact h.follows hlive (follows_of_backdrop hbackdrop)

/-! ## Every sitting that was opened -/

/-- The sittings that come of the opening of the first view. -/
inductive Opened : Sitting → Prop where
  | opening (around : Surroundings) (home cluster context : String) (scope : Scope) (kind : Kind)
      (server : Cluster.Server) (interval : Nat) (transport : Forwarding.Session → Transport)
      (load : Benchmark.Target → LoadPlan) :
      Opened (Sitting.opening ⟨Stage.open_ (Console.start around home cluster context scope kind)
        around.files around.time server, home, some (LiveView.idle interval), transport, load⟩).1
  | move {s s' : Sitting} (h : Opened s) (hmove : Move s s') : Opened s'

/-- Every sitting is a run at a desk. -/
theorem Opened.atDesk (h : Opened s) : ∃ around home cluster context scope kind interval acts,
    s.AtDesk ((Desk.opening around home cluster context scope kind interval).run acts) := by
  induction h with
  | opening around home cluster context scope kind server interval transport load =>
      refine ⟨around, home, cluster, context, scope, kind, interval, ?_⟩
      simp only [Desk.opening]
      generalize Console.start around home cluster context scope kind = c
      have hfirst : AtDesk ⟨Stage.open_ c around.files around.time server, home,
          some (LiveView.idle interval), transport, load⟩
          ⟨around, c, LiveView.idle interval, [], [], []⟩ := by
        refine ⟨rfl, rfl, rfl, rfl, rfl, rfl, ?_⟩
        intro v hv
        cases hv
      exact hfirst.follow fun c => c.watchCurrent around
  | move h hmove ih =>
      obtain ⟨around, home, cluster, context, scope, kind, interval, acts, hbefore⟩ := ih
      obtain ⟨acts', hafter⟩ := hmove.atDesk hbefore
      rw [← Desk.run_append] at hafter
      exact ⟨around, home, cluster, context, scope, kind, interval, _, hafter⟩

/-- What every run keeps is so at the desk of a sitting. -/
theorem Opened.exists_desk (h : Opened s) :
    ∃ d, s.AtDesk d ∧ d.Attended ∧ d.Own ∧ d.console.Candid ∧ d.console.Current := by
  obtain ⟨around, home, cluster, context, scope, kind, interval, acts, hdesk⟩ := h.atDesk
  have hattended := Desk.attended_opening around home cluster context scope kind interval
  have hposted := Desk.posted_opening around home cluster context scope kind interval
  have hown := Desk.own_opening around home cluster context scope kind interval
  have hcandid := Desk.candid_opening around home cluster context scope kind interval
  obtain ⟨hordered, hcurrent⟩ :=
    Desk.current_opening around home cluster context scope kind interval
  exact ⟨_, hdesk, hattended.run acts, hown.run hposted hattended acts,
    Desk.candid_run hcandid acts, Desk.current_run hcurrent hposted hattended hordered acts⟩

/-- The one watcher that runs beside the console is for the view that it shows. -/
theorem Opened.watcher_eq (h : Opened s) {v : ViewLoop} (hv : s.stage.view = some v) :
    v.watcher.target = s.console.view.target ∧ v.watcher.listeners = [s.console.generation] := by
  obtain ⟨d, hdesk, hattended, -, -, -⟩ := h.exists_desk
  obtain ⟨x, hx, hwatcher, -⟩ := hdesk.seated.watcher v hv
  have hpresent := hdesk.seated.present
  rw [hv, Option.isSome_some, eq_comm, Option.isSome_iff_exists] at hpresent
  obtain ⟨o, ho⟩ := hpresent
  obtain ⟨z, hz, hsettings⟩ := hattended.watcher o ho
  obtain rfl := Option.some.inj (hx.symm.trans hz)
  obtain ⟨htarget, -, hgeneration⟩ := hattended.order o ho
  simp only [Watching.Watcher.settings, Desk.settingsOf, Prod.mk.injEq] at hsettings
  rw [← hwatcher, hsettings.1, hsettings.2.2.2, htarget, hgeneration, hdesk.seated.console]
  exact ⟨rfl, rfl⟩

theorem Opened.confirm_iff (h : Opened s) :
    s.console.mode = .confirm ↔ s.console.question.isSome = true := by
  obtain ⟨d, hdesk, -, -, hcandid, -⟩ := h.exists_desk
  have hconsole : d.console = s.console := hdesk.seated.console
  rw [← hconsole]
  exact hcandid.open_iff

/-- At every moment the view of the forwards shows the sessions as they are. -/
theorem Opened.shows (h : Opened s) (hview : s.console.view.target.kind = .forwards) :
    List.Forall₂ (Desk.Shows s.console) (s.console.table.entries.filter Entry.present)
      s.console.registry.sessions := by
  obtain ⟨d, hdesk, -, hown, -, hcurrent⟩ := h.exists_desk
  have hconsole : d.console = s.console := hdesk.seated.console
  rw [← hconsole] at hview ⊢
  exact hown.shows hcurrent hview

end Sitting

end ClusterConsole.Console
