import ClusterConsole.Console.Sitting
import ClusterConsole.Proofs.Background.Account
import ClusterConsole.Proofs.Benchmark.SingleFlight
import ClusterConsole.Proofs.Console.Deed
import ClusterConsole.Proofs.Forwarding.NoOrphans

/-!
# Every sitting is a run

`Reached` gives the sittings that the program can come to: one that was just opened,
and what actions, news, the end of transports and the passing of time make of it.
Each of them has an exchange and a series that came about by a run of acts and hold
the same registry and tunnels, runner and benchmarks (`Reached.reflects`), so what is
so after every run is so at every moment of a sitting.
-/

namespace ClusterConsole.Console

open ClusterConsole.Background ClusterConsole.Resource ClusterConsole.Status
open ClusterConsole.Benchmark (Series)
open ClusterConsole.Forwarding (Exchange)

namespace Sitting

variable {s s' : Sitting} {c : Console} {x x' : Exchange} {y y' : Series}

/-- An exchange and a series hold what runs beside the console, and all of its errands
were started. -/
def Reflects (s : Sitting) (x : Exchange) (y : Series) : Prop :=
  s.stage.Mirrors owner (fun c => c.errands = []) [] x y

/-! ## Following up a deed -/

theorem front_change (s : Sitting) (f : Console → Console) :
    (s.change f).stage.front = { s.stage with owner := f s.console }.front :=
  Stage.front_change owner s.stage f

theorem console_change (s : Sitting) (f : Console → Console) :
    (s.change f).console = f s.console :=
  congrArg Prod.fst (s.front_change f)

/-- What errands start, given how transports and loads behave. -/
def tunnelsOf (transport : Forwarding.Session → Transport) (errands : List Errand) :
    List TunnelRun :=
  errands.filterMap fun e =>
    match e with
    | .tunnel session => some (TunnelRun.ofSession session (transport session))
    | .benchmark _ _ => none

def benchmarksOf (load : Benchmark.Target → LoadPlan) (errands : List Errand) :
    List BenchmarkRun :=
  errands.filterMap fun e =>
    match e with
    | .tunnel _ => none
    | .benchmark id target => some ⟨⟨id, target, .fresh⟩, load target⟩

theorem front_startErrands (s : Sitting) :
    s.startErrands.stage.front = ({ s.console with errands := [] },
      s.stage.tunnels ++ tunnelsOf s.transport s.console.errands,
      s.stage.benchmarks ++ benchmarksOf s.load s.console.errands, s.stage.queue) := by
  unfold startErrands
  simp only [Stage.front, Prod.mk.injEq, true_and]
  generalize s.console.errands = errands
  generalize s.stage = w
  induction errands generalizing w with
  | nil => simp [tunnelsOf, benchmarksOf]
  | cons e errands ih =>
      cases e with
      | tunnel session =>
          have hrest := ih (w.launch session (s.transport session))
          have hfront := Stage.front_launch w session (s.transport session)
          simp only [Stage.front, Prod.mk.injEq] at hfront
          obtain ⟨-, htunnels, hbenchmarks, hqueue⟩ := hfront
          rw [htunnels, hbenchmarks, hqueue, List.append_assoc] at hrest
          exact hrest
      | benchmark id target =>
          have hrest := ih (w.begin id target (s.load target))
          have hfront := Stage.front_begin w id target (s.load target)
          simp only [Stage.front, Prod.mk.injEq] at hfront
          obtain ⟨-, htunnels, hbenchmarks, hqueue⟩ := hfront
          rw [htunnels, hbenchmarks, hqueue, List.append_assoc] at hrest
          exact hrest

/-- The console has changed and its errands are started. -/
theorem Reflects.startErrands (h : s.Reflects x y) (hregistry : x'.registry = c.registry)
    (htunnels : x'.tunnels = x.tunnels ++
      (tunnelsOf s.transport c.errands).map TunnelRun.tunnel)
    (hreports : x'.reports = x.reports) (hrunner : y'.runner = c.runner)
    (htrials : y'.trials = y.trials ++ (benchmarksOf s.load c.errands).map BenchmarkRun.trial)
    (hlistening : y'.listening = y.listening) (hqueue : y'.queue = y.queue) :
    ((s.change fun _ => c).startErrands).Reflects x' y' := by
  have hchange := s.front_change fun _ => c
  simp only [Stage.front, Prod.mk.injEq] at hchange
  obtain ⟨howner, hchanged, hbenchmarks, hsame⟩ := hchange
  have hset : Stage.Mirrors owner (fun c => c.errands = [])
      { s.stage with
        owner := { c with errands := [] }
        tunnels := s.stage.tunnels ++ tunnelsOf s.transport c.errands
        benchmarks := s.stage.benchmarks ++ benchmarksOf s.load c.errands } [] x' y' :=
    { kept := rfl
      registry := hregistry
      runner := hrunner
      tunnels := by rw [htunnels, h.tunnels, List.map_append]
      trials := by rw [htrials, h.trials, List.map_append]
      listening := hlistening.trans h.listening
      reports := fun hc => hreports.trans (h.reports hc)
      words := fun hc => hqueue.trans (h.words hc)
      closed := h.closed }
  refine hset.of_front ((front_startErrands _).trans ?_)
  simp only [Stage.front, Sitting.console, howner, hchanged, hbenchmarks, hsame]
  rfl

section NoErrands

variable (h : s.Reflects x y) (hnone : c.errands = [])

include h hnone

/-- Only the registry has changed. -/
theorem Reflects.withRegistry (hregistry : x'.registry = c.registry)
    (htunnels : x'.tunnels = x.tunnels) (hreports : x'.reports = x.reports)
    (hrunner : y.runner = c.runner) :
    ((s.change fun _ => c).startErrands).Reflects x' y := by
  refine h.startErrands hregistry ?_ hreports hrunner ?_ rfl rfl
  · simp [htunnels, hnone, tunnelsOf]
  · simp [hnone, benchmarksOf]

/-- Only the runner has changed. -/
theorem Reflects.withRunner (hregistry : x.registry = c.registry) (hrunner : y'.runner = c.runner)
    (htrials : y'.trials = y.trials) (hlistening : y'.listening = y.listening)
    (hqueue : y'.queue = y.queue) :
    ((s.change fun _ => c).startErrands).Reflects x y' := by
  refine h.startErrands hregistry ?_ rfl hrunner ?_ hlistening hqueue
  · simp [hnone, tunnelsOf]
  · simp [htrials, hnone, benchmarksOf]

end NoErrands

theorem run_start_launch {now : Int} {fqn path container : String} {m : Forwarding.Mapping}
    {r r' : Forwarding.Registry} {session₀ session : Forwarding.Session}
    (hstart : x.registry.start now fqn path container m = .ok (r, session₀))
    (hlaunch : r.launch fqn = .ok (r', session)) :
    x.run [.start now fqn path container m, .launch fqn] =
      { x with
        registry := r'
        tunnels := x.tunnels ++ [Forwarding.Tunnel.ofSession session]
        log := x.log ++ [⟨.registered, session₀⟩] ++ [⟨.launched, session⟩] } := by
  simp [Exchange.run, Exchange.act, Exchange.start, Exchange.launch, hstart, hlaunch]

theorem after_run {now : Int} {target : Benchmark.Target} {r : Benchmark.Runner} {id : Nat}
    (hrun : y.runner.run now target = .ok (r, id)) :
    y.after [.run now target] =
      { y with runner := r, trials := y.trials ++ [⟨id, target, .fresh⟩] } := by
  simp [Series.after, Series.act, Series.run, hrun]

theorem after_reload {files : Storage.Files} {path : String} {r : Benchmark.Runner}
    (hreload : y.runner.reload files path = .ok r) :
    y.after [.reload files path] = { y with runner := r } := by
  simp [Series.after, Series.act, Series.reload, hreload]

/-- A deed is a few acts. -/
theorem Reflects.deed (h : s.Reflects x y) (hdeed : Deed s.stage.surroundings s.console c) :
    ∃ acts acts', ((s.change fun _ => c).startErrands).Reflects (x.run acts) (y.after acts') := by
  have hx : x.registry = s.console.registry := h.registry
  have hy : y.runner = s.console.runner := h.runner
  have hnone : s.console.errands = [] := h.kept
  cases hdeed with
  | none hc =>
      simp only [holdings, Prod.mk.injEq, hnone, ← hx, ← hy] at hc
      obtain ⟨hregistry, hrunner, herrands⟩ := hc
      exact ⟨[], [], h.withRegistry herrands hregistry.symm rfl rfl hrunner.symm⟩
  | @forward fqn path container m r r' session₀ session hstart hlaunch hc =>
      simp only [holdings, Prod.mk.injEq, hnone, ← hy] at hc
      obtain ⟨hregistry, hrunner, herrands⟩ := hc
      rw [← hx] at hstart
      refine ⟨[.start s.stage.surroundings.time fqn path container m, .launch fqn], [], ?_⟩
      rw [run_start_launch hstart hlaunch]
      refine h.startErrands hregistry.symm ?_ rfl hrunner.symm ?_ rfl rfl
      · simp [herrands, tunnelsOf, TunnelRun.ofSession]
      · simp [Series.after, herrands, benchmarksOf]
  | delete fqn hc =>
      simp only [holdings, Prod.mk.injEq, hnone, ← hx, ← hy] at hc
      obtain ⟨hregistry, hrunner, herrands⟩ := hc
      exact ⟨[.stop fqn], [], h.withRegistry herrands hregistry.symm rfl rfl hrunner.symm⟩
  | @benchmark target r id hrun hc =>
      simp only [holdings, Prod.mk.injEq, hnone, ← hx] at hc
      obtain ⟨hregistry, hrunner, herrands⟩ := hc
      rw [← hy] at hrun
      refine ⟨[], [.run s.stage.surroundings.time target], ?_⟩
      rw [after_run hrun]
      refine h.startErrands hregistry.symm ?_ rfl hrunner.symm ?_ rfl rfl
      · simp [Exchange.run, herrands, tunnelsOf]
      · simp [herrands, benchmarksOf]
  | cancel hc =>
      simp only [holdings, Prod.mk.injEq, hnone, ← hx, ← hy] at hc
      obtain ⟨hregistry, hrunner, herrands⟩ := hc
      exact ⟨[], [.cancel], h.withRunner herrands hregistry.symm hrunner.symm rfl rfl rfl⟩
  | @reload path r hreload hc =>
      simp only [holdings, Prod.mk.injEq, hnone, ← hx] at hc
      obtain ⟨hregistry, hrunner, herrands⟩ := hc
      rw [← hy] at hreload
      refine ⟨[], [.reload s.stage.surroundings.files path], ?_⟩
      rw [after_reload hreload]
      exact h.withRunner herrands hregistry.symm hrunner.symm rfl rfl rfl

theorem Reflects.of_startErrands (h : s.startErrands.Reflects x y)
    (hnone : s.console.errands = []) : s.Reflects x y := by
  have hsame : { s.console with errands := [] } = s.console := by rw [← hnone]
  refine h.of_front ?_
  rw [front_startErrands, hsame, hnone]
  simp [Stage.front, tunnelsOf, benchmarksOf, Sitting.console]

/-- What gives no errands needs no following up. -/
theorem Reflects.change (h : s.Reflects x y) (hdeed : Deed s.stage.surroundings s.console c)
    (hnone : c.errands = []) :
    ∃ acts acts', (s.change fun _ => c).Reflects (x.run acts) (y.after acts') := by
  obtain ⟨acts, acts', hstarted⟩ := h.deed hdeed
  have hquiet : (s.change fun _ => c).console.errands = [] :=
    (congrArg errands (s.console_change _)).trans hnone
  exact ⟨acts, acts', hstarted.of_startErrands hquiet⟩

theorem Reflects.shutdown (h : s.Reflects x y) :
    s.shutdown.Reflects (x.run [.stopAll]) (y.after [.cancel]) := by
  have hx : x.registry = s.console.registry := h.registry
  have hy : y.runner = s.console.runner := h.runner
  have hnone : s.console.shutdown.errands = [] := h.kept
  obtain ⟨hregistry, htunnels, hreports, -⟩ := x.stopAll_keeps
  have hstarted : ((s.change fun _ => s.console.shutdown).startErrands).Reflects
      (x.run [.stopAll]) (y.after [.cancel]) := by
    refine h.startErrands (hregistry.trans ?_) (htunnels.trans ?_) hreports ?_ ?_ rfl rfl
    · rw [hx]
      rfl
    · simp [hnone, tunnelsOf]
    · simp only [Series.after, List.foldl_cons, List.foldl_nil, Series.act, Series.cancel, hy]
      rfl
    · simp [Series.after, Series.act, Series.cancel, hnone, benchmarksOf]
  exact hstarted.of_startErrands ((congrArg errands (s.console_change _)).trans hnone)

/-! ## Carrying out a command -/

theorem front_applyChange (w : Stage Console) (change : WatchChange) :
    (applyChange w change).front = w.front := by
  have hadjust : ∀ f, (w.adjust f).front = w.front := by
    intro f
    unfold Stage.adjust
    split
    · exact Stage.front_schedule _ _
    · rfl
  cases change with
  | stopped => rfl
  | started order => exact Stage.front_schedule _ _
  | rescoped scope => exact hadjust _
  | paced ms => exact hadjust _
  | nudged => exact hadjust _

theorem Reflects.watchHome (h : s.Reflects x y) :
    ∃ acts acts', s.watchHome.Reflects (x.run acts) (y.after acts') := by
  unfold Sitting.watchHome
  split
  · exact ⟨[], [], h.of_front rfl⟩
  · exact h.change (.none rfl) h.kept

theorem Reflects.carryOut (h : s.Reflects x y) (command : Command) :
    ∃ acts acts', (s.carryOut command).Reflects (x.run acts) (y.after acts') := by
  unfold Sitting.carryOut
  split
  · exact ⟨[], [], h⟩
  · rename_i live _
    dsimp only
    have hset : ∀ change : Option WatchChange, Reflects { s with
        live := some (live.apply s.console command).1
        stage := change.elim s.stage (applyChange s.stage) } x y := by
      intro change
      cases change with
      | none => exact h.of_front rfl
      | some change => exact h.of_front (front_applyChange s.stage change)
    split
    · split
      · exact (hset _).watchHome
      · exact ⟨[], [], hset _⟩
    · exact ⟨[], [], hset _⟩

theorem Reflects.follow (h : s.Reflects x y) {f : Console → Console × Option Command}
    (hdeed : Deed s.stage.surroundings s.console (f s.console).1) :
    ∃ acts acts', (s.follow f).1.Reflects (x.run acts) (y.after acts') := by
  obtain ⟨acts₁, acts₁', hstarted⟩ := h.deed hdeed
  unfold Sitting.follow
  dsimp only
  cases (f s.console).2 with
  | none => exact ⟨acts₁, acts₁', hstarted⟩
  | some command =>
      obtain ⟨acts₂, acts₂', hdone⟩ := hstarted.carryOut command
      refine ⟨acts₁ ++ acts₂, acts₁' ++ acts₂', ?_⟩
      rw [Exchange.run_append, Series.after_append]
      exact hdone

/-! ## What can happen in a sitting -/

/-- One thing that happens in a sitting. -/
inductive Step (s : Sitting) : Sitting → Prop where
  | opening : Step s s.opening.1
  | act (a : Action) : Step s (s.act a).1
  /-- What is neither about a forward nor about a benchmark may be heard unasked. -/
  | hear {news : News} (hreport : news.report? = none) (hword : news.word? = none) :
      Step s (s.hear news)
  | tick : Step s (s.change fun c => c.hydrate s.stage.surroundings)
  | settle : Step s s.settle.1
  | wait (ms : Nat) : Step s (s.wait ms).1
  | shutdown : Step s s.shutdown
  /-- The transports that wait break. -/
  | breakWaiting (e : Forwarding.Ending) : Step s { s with stage := s.stage.breakWaiting e }
  /-- Outside, the files, the time, the cluster or the way in which transports and loads
  behave have changed. -/
  | outside {t : Sitting} (hfront : t.stage.front = s.stage.front) : Step s t

theorem Step.reflects (hstep : Step s s') (h : s.Reflects x y) :
    ∃ acts acts', s'.Reflects (x.run acts) (y.after acts') := by
  have herrands : s.console.errands = [] := h.kept
  cases hstep with
  | opening => exact h.follow (watchCurrent_deed s.console s.stage.surroundings)
  | act a => exact h.follow (act_deed s.console s.stage.surroundings a)
  | hear hreport hword =>
      exact h.change (hear_deed s.console s.stage.surroundings hreport hword)
        (keeps_errands s.stage.surroundings _ s.console herrands)
  | tick =>
      have hsame := s.console.holdings_hydrate s.stage.surroundings
      exact h.change (.none hsame) ((congrArg (fun p => p.2.2) hsame).trans herrands)
  | settle => exact Stage.accounted_settle attentive keeps_errands s.stage x y h
  | wait ms => exact Stage.accounted_wait attentive keeps_errands s.stage ms x y h
  | shutdown => exact ⟨[.stopAll], [.cancel], h.shutdown⟩
  | breakWaiting e => exact Stage.accounted_breakWaiting owner s.stage e x y h
  | outside hfront => exact ⟨[], [], h.of_front hfront⟩

/-! ## Every sitting -/

/-- The sittings that the program can come to. -/
inductive Reached : Sitting → Prop where
  | start (around : Surroundings) (home cluster context : String) (scope : Scope) (kind : Kind)
      (server : Cluster.Server) (live : Option LiveView)
      (transport : Forwarding.Session → Transport) (load : Benchmark.Target → LoadPlan) :
      Reached ⟨Stage.open_ (Console.start around home cluster context scope kind) around.files
        around.time server, home, live, transport, load⟩
  | step {s s' : Sitting} (h : Reached s) (hstep : Step s s') : Reached s'

/-- A sitting that was just opened is reflected in what has hardly begun. -/
theorem reflects_start (around : Surroundings) (home cluster context : String) (scope : Scope)
    (kind : Kind) (server : Cluster.Server) (live : Option LiveView)
    (transport : Forwarding.Session → Transport) (load : Benchmark.Target → LoadPlan) :
    ∃ directory acts', Reflects ⟨Stage.open_ (Console.start around home cluster context scope kind)
        around.files around.time server, home, live, transport, load⟩
      (Exchange.empty.run []) ((Series.empty directory).after acts') := by
  obtain ⟨r, hholdings, hr⟩ := holdings_start around home cluster context scope kind
  generalize Console.start around home cluster context scope kind = c at hholdings
  simp only [holdings, Prod.mk.injEq] at hholdings
  obtain ⟨hregistry, hrunner, herrands⟩ := hholdings
  have hseries : ∀ y : Series, y.runner = r → y.trials = [] → y.listening = true → y.queue = [] →
      Reflects ⟨Stage.open_ c around.files around.time server, home, live, transport, load⟩
        (Exchange.empty.run []) y :=
    fun y hy htrials hlistening hqueue =>
      { kept := herrands
        registry := hregistry.symm
        runner := hy.trans hrunner.symm
        tunnels := rfl
        trials := htrials
        listening := hlistening
        reports := fun _ => rfl
        words := fun _ => hqueue
        closed := fun _ => rfl }
  refine ⟨some (Benchmark.reportsDirectory home cluster), ?_⟩
  rcases hr with rfl | hr
  · exact ⟨[], hseries _ rfl rfl rfl rfl⟩
  · refine ⟨[.reload around.files (Benchmark.settingsPath home cluster)], ?_⟩
    rw [after_reload (y := Series.empty _) hr]
    exact hseries _ rfl rfl rfl rfl

/-- Every sitting is reflected in a run. -/
theorem Reached.reflects (h : Reached s) : ∃ directory acts acts',
    s.Reflects (Exchange.empty.run acts) ((Series.empty directory).after acts') := by
  induction h with
  | start around home cluster context scope kind server live transport load =>
      obtain ⟨directory, acts', hstart⟩ :=
        reflects_start around home cluster context scope kind server live transport load
      exact ⟨directory, [], acts', hstart⟩
  | step h hstep ih =>
      obtain ⟨directory, acts₁, acts₁', hbefore⟩ := ih
      obtain ⟨acts₂, acts₂', hafter⟩ := hstep.reflects hbefore
      rw [← Exchange.run_append, ← Series.after_append] at hafter
      exact ⟨directory, _, _, hafter⟩

/-- A tunnel that runs beside the console and is not called off has its session in the
console's registry. -/
theorem Reached.exists_session (h : Reached s) {r : TunnelRun} (hr : r ∈ s.stage.tunnels)
    (hoff : s.console.registry.isCalledOff r.tunnel.generation = false) :
    ∃ session ∈ s.console.registry.sessions, session.fqn = r.tunnel.fqn ∧
      session.generation = r.tunnel.generation := by
  obtain ⟨directory, acts, acts', hreflects⟩ := h.reflects
  have hregistry : (Exchange.empty.run acts).registry = s.console.registry := hreflects.registry
  have hmem : r.tunnel ∈ (Exchange.empty.run acts).tunnels := by
    rw [hreflects.tunnels]
    exact List.mem_map_of_mem hr
  rw [← hregistry] at hoff ⊢
  exact (Exchange.Sound.empty.run acts).exists_session hmem hoff

/-- Of the benchmarks that run beside the console at most one is not called off. -/
theorem Reached.eq_of_not_calledOff (h : Reached s) {r r' : BenchmarkRun}
    (hr : r ∈ s.stage.benchmarks) (hr' : r' ∈ s.stage.benchmarks)
    (hoff : s.console.runner.isCalledOff r.trial.id = false)
    (hoff' : s.console.runner.isCalledOff r'.trial.id = false) : r.trial = r'.trial := by
  obtain ⟨directory, acts, acts', hreflects⟩ := h.reflects
  have hrunner : ((Series.empty directory).after acts').runner = s.console.runner :=
    hreflects.runner
  have hsound := (Series.Sound.empty directory).after acts'
  rw [← hrunner] at hoff hoff'
  refine hsound.alone ?_ ?_ hoff hoff'
  · rw [hreflects.trials]
    exact List.mem_map_of_mem hr
  · rw [hreflects.trials]
    exact List.mem_map_of_mem hr'

end Sitting

end ClusterConsole.Console
