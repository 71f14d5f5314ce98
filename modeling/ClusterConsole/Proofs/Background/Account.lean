import ClusterConsole.Proofs.Background.Mirror

/-!
# What goes on is accounted for

The benchmarks, the poll loop, the hearing of news, and from them every way in which
time passes on the stage. The operator's own acts are not among these: between two of
them nothing happens but moves of tunnels, steps of benchmarks and news that is heard.
-/

namespace ClusterConsole.Background

open ClusterConsole.Forwarding (Exchange Report Tunnel)
open ClusterConsole.Benchmark (Completion Series Trial Word)

variable {σ : Type} {o : Owner σ} {P : σ → Prop}

namespace Stage

variable {w w' w'' : Stage σ} {jobs : List (Job News)} {x : Exchange} {y y' : Series} {k : Nat}
  {r : BenchmarkRun} {t : Trial} {f g : Trial → Trial}

/-! ## Benchmarks -/

theorem map_trial_onTrial (w : Stage σ) (k : Nat) (f : Trial → Trial) :
    (w.onTrial k f).benchmarks.map BenchmarkRun.trial =
      (w.benchmarks.map BenchmarkRun.trial).modify k f := by
  refine List.ext_getElem? fun i => ?_
  simp only [Stage.onTrial, List.getElem?_map, List.getElem?_modify, Option.map_eq_map,
    Option.map_map]
  congr 1
  funext r
  by_cases hk : k = i <;> simp [hk]

theorem Mirrors.onTrial (h : Mirrors o P w jobs x y) (k : Nat) (f : Trial → Trial) :
    Mirrors o P (w.onTrial k f) jobs x (y.onTrial k f) :=
  { h with trials := by rw [map_trial_onTrial, ← h.trials]; rfl }

/-- The ledger of a series that no act depends on does not matter. -/
theorem Mirrors.of_eq (h : Mirrors o P w jobs x y) (hrunner : y'.runner = y.runner)
    (htrials : y'.trials = y.trials) (hlistening : y'.listening = y.listening)
    (hqueue : y'.queue = y.queue) : Mirrors o P w jobs x y' :=
  { h with
    runner := hrunner.trans h.runner
    trials := htrials.trans h.trials
    listening := hlistening.trans h.listening
    words := fun hq => hqueue.trans (h.words hq) }

theorem Mirrors.getElem?_trials (h : Mirrors o P w jobs x y) (hr : w.benchmarks[k]? = some r) :
    y.trials[k]? = some r.trial := by
  rw [h.trials, List.getElem?_map, hr]
  rfl

theorem onTrial_congr (ht : y.trials[k]? = some t) (hfg : f t = g t) :
    y.onTrial k f = y.onTrial k g := by
  have hmodify : y.trials.modify k f = y.trials.modify k g := by
    refine List.ext_getElem? fun i => ?_
    rw [List.getElem?_modify, List.getElem?_modify]
    by_cases hk : k = i
    · subst hk
      rw [ht]
      simp [hfg]
    · simp [hk]
  simp only [Series.onTrial, hmodify]

theorem tell_snd (w : Stage σ) (news : News) : (w.tell news).2 = !w.queue.closed := by
  cases hq : w.queue.closed with
  | true => rw [tell_of_closed hq]; rfl
  | false => rw [tell_of_open hq]; rfl

theorem Mirrors.announce {files files' : Storage.Files} {time : Time.Moment} {c : Completion}
    (h : Mirrors o P w jobs x y)
    (hc : (y.trials[k]?.bind fun t => t.complete? files y.runner.directory time) =
      some (files', c)) :
    Mirrors o P (w.announce k c) jobs x (y.act (.tell k files time)) := by
  have htaken : (w.tell (.benchmark c)).2 = y.listening := by rw [tell_snd, h.listening]
  have htell := (h.tellWord (.benchmark c) rfl rfl).onTrial k (·.told c y.listening)
  have hfields : (y.act (.tell k files time)).runner = (y.push (.completion c)).runner ∧
      (y.act (.tell k files time)).trials =
        ((y.push (.completion c)).onTrial k (·.told c y.listening)).trials ∧
      (y.act (.tell k files time)).listening = (y.push (.completion c)).listening ∧
      (y.act (.tell k files time)).queue = (y.push (.completion c)).queue := by
    simp only [Series.act, Series.tell, hc, Series.push, Series.onTrial]
    split <;> exact ⟨rfl, rfl, rfl, rfl⟩
  obtain ⟨hrunner, htrials, hlistening, hqueue⟩ := hfields
  have htold := htell.of_eq hrunner htrials hlistening hqueue
  unfold Stage.announce
  dsimp only
  rw [htaken]
  split
  · exact htold.of_front (front_setTimer _ _ _)
  · exact htold

theorem accounted_complete (o : Owner σ) (w : Stage σ) (k : Nat) :
    Accounted o P w (w.complete o k) := by
  intro x y h
  unfold complete
  cases hc : w.benchmarks[k]?.bind fun r => r.trial.complete? w.files
      (o.runner w.owner).directory (Time.Moment.ofSeconds w.time) with
  | none => exact ⟨[], [], h⟩
  | some p =>
      obtain ⟨files, c⟩ := p
      have hbind : (y.trials[k]?.bind fun t => t.complete? w.files y.runner.directory
          (Time.Moment.ofSeconds w.time)) = some (files, c) := by
        rw [h.trials, h.runner, List.getElem?_map, Option.bind_map]
        exact hc
      have hfiles : Mirrors o P { w with files := files } [] x y := h.of_front rfl
      exact ⟨[], [.tell k w.files (Time.Moment.ofSeconds w.time)], hfiles.announce hbind⟩

theorem accounted_finishSaving (o : Owner σ) (w : Stage σ) :
    Accounted o P w (w.finishSaving o) := by
  unfold finishSaving
  have hstart : Accounted o P w { w with saving := [] } := accounted_of_front rfl
  generalize w.saving = places
  generalize ({ w with saving := [] } : Stage σ) = v at hstart
  induction places generalizing v with
  | nil => exact hstart
  | cons k places ih => exact ih _ (hstart.trans (accounted_complete o v k))

theorem accounted_runBenchmark (hr : w.benchmarks[k]? = some r) :
    Accounted o P w (w.runBenchmark o k r) := by
  unfold runBenchmark
  split
  · rename_i hp
    intro x y h
    have hstir : r.trial.stir .loading = { r.trial with progress := .loading } := by
      simp [Trial.stir, Trial.underway, hp]
    have hone := (h.onTrial k ({ · with progress := .loading })).of_front
      (front_schedule _ (.load k))
    refine ⟨[], [.stir k .loading], ?_⟩
    rw [onTrial_congr (g := (·.stir .loading)) (h.getElem?_trials hr) hstir.symm] at hone
    exact hone
  · rename_i result hp
    have hread : Accounted o P w
        (w.onTrial k (·.read ((o.runner w.owner).isCalledOff r.trial.id))) := by
      intro x y h
      have hone := h.onTrial k (·.read ((o.runner w.owner).isCalledOff r.trial.id))
      refine ⟨[], [.read k], ?_⟩
      rw [onTrial_congr (g := fun t => t.read (y.runner.isCalledOff t.id))
        (h.getElem?_trials hr) (by rw [h.runner])] at hone
      exact hone
    dsimp only
    split
    · exact hread.trans (accounted_of_front rfl)
    · exact hread.trans (accounted_complete o _ k)
  · rename_i message hp
    intro x y h
    have hrelease : r.trial.release = ({ r.trial with progress := .ended }, some message) := by
      simp [Trial.release, hp]
    have hbind : (y.trials[k]?.bind fun t => t.release.2) = some message := by
      rw [h.getElem?_trials hr, Option.bind_some, hrelease]
    have hone := h.onTrial k fun _ => r.trial.release.1
    rw [onTrial_congr (g := (·.release.1)) (h.getElem?_trials hr) rfl] at hone
    have htell := hone.tellWord (.holdOver message) rfl rfl
    refine ⟨[], [.release k], ?_⟩
    simp only [Series.after, List.foldl_cons, List.foldl_nil, Series.act, Series.release, hbind]
    rw [hrelease] at htell ⊢
    exact htell
  · exact Accounted.refl o w

theorem accounted_runLoad (hr : w.benchmarks[k]? = some r) :
    Accounted o P w (w.runLoad o k r) := by
  have ended : ∀ result, Accounted o P w
      ((w.onTrial k (·.finish result)).schedule (.benchmark k)) := by
    intro result x y h
    exact ⟨[], [.load k result], (h.onTrial k _).of_front (front_schedule _ _)⟩
  have stirred : ∀ p, r.trial.underway = true → { r.trial with progress := p }.underway = true →
      Accounted o P w (w.onTrial k ({ · with progress := p })) := by
    intro p hu hp x y h
    have hstir : r.trial.stir p = { r.trial with progress := p } := by simp [Trial.stir, hu, hp]
    have hone := h.onTrial k ({ · with progress := p })
    refine ⟨[], [.stir k p], ?_⟩
    rw [onTrial_congr (g := (·.stir p)) (h.getElem?_trials hr) hstir.symm] at hone
    exact hone
  unfold runLoad
  dsimp only
  split
  · exact ended _
  · rename_i hp
    have hu : r.trial.underway = true := by simp [Trial.underway, hp]
    split
    · exact ended _
    · split
      · exact stirred .held hu rfl
      · split
        · exact ended _
        · exact (stirred .delayed hu rfl).trans (accounted_of_front (front_setTimer _ _ _))
  · split
    · exact ended _
    · exact Accounted.refl o w
  · exact ended _
  · exact Accounted.refl o w

/-! ## The poll loop -/

theorem report?_newsOf (d : Nat × Watching.Delivery) : (newsOf d).report? = none := by
  unfold newsOf
  cases d.2 <;> rfl

theorem word?_newsOf (d : Nat × Watching.Delivery) : (newsOf d).word? = none := by
  unfold newsOf
  cases d.2 <;> rfl

theorem accounted_cycle (o : Owner σ) (w : Stage σ) (v : ViewLoop) :
    Accounted o P w (w.cycle v) := by
  unfold cycle
  split
  · exact Accounted.refl o w
  · rename_i watcher scope _
    intro x y h
    refine ⟨[], [], Mirrors.tellOther (h.of_front rfl) (fun n hn => ?_) (fun n hn => ?_)⟩
    · obtain ⟨d, -, rfl⟩ := List.mem_map.1 hn
      exact report?_newsOf d
    · obtain ⟨d, -, rfl⟩ := List.mem_map.1 hn
      exact word?_newsOf d

theorem accounted_runPoll (o : Owner σ) (w : Stage σ) (fuel : Nat) :
    Accounted o P w (w.runPoll fuel) := by
  induction fuel generalizing w with
  | zero => exact Accounted.refl o w
  | succ fuel ih =>
      have hview : ∀ view, Accounted o P w { w with view := view } :=
        fun _ => accounted_of_front rfl
      unfold runPoll
      split
      · exact Accounted.refl o w
      · split
        · exact accounted_of_front (front_setTimer _ _ _)
        · dsimp only
          split
          · exact hview none
          · exact (hview _).trans (ih _)
          · exact (hview _).trans ((accounted_cycle o _ _).trans (ih _))

/-! ## Tasks and time -/

/-- Whatever task goes on is accounted for. -/
theorem accounted_run (o : Owner σ) (w : Stage σ) (task : Task) :
    Accounted o P w (w.run o task) := by
  cases task with
  | tunnel k =>
      simp only [run]
      cases hr : w.tunnels[k]? with
      | none => exact Accounted.refl o w
      | some r => exact accounted_runTunnel hr
  | transport k =>
      simp only [run]
      cases hr : w.tunnels[k]? with
      | none => exact Accounted.refl o w
      | some r => exact accounted_runTransport hr
  | activation k =>
      simp only [run]
      cases hr : w.tunnels[k]? with
      | none => exact Accounted.refl o w
      | some r => exact accounted_runActivation hr
  | benchmark k =>
      simp only [run]
      cases hr : w.benchmarks[k]? with
      | none => exact Accounted.refl o w
      | some r => exact accounted_runBenchmark hr
  | load k =>
      simp only [run]
      cases hr : w.benchmarks[k]? with
      | none => exact Accounted.refl o w
      | some r => exact accounted_runLoad hr
  | poll => exact accounted_runPoll o w 8

theorem accounted_advance (o : Owner σ) (w : Stage σ) (time : Nat) :
    Accounted o P w (w.advance time) :=
  accounted_of_front (front_advance w time)

/-- Time passes without a word being heard. -/
theorem accounted_passUntil (o : Owner σ) (limit fuel : Nat) (w : Stage σ) :
    Accounted o P w (passUntil o limit fuel w) := by
  induction fuel generalizing w with
  | zero => exact Accounted.refl o w
  | succ fuel ih =>
      unfold passUntil
      split
      · rename_i task tasks _
        have htasks : Accounted o P w { w with tasks := tasks } := accounted_of_front rfl
        exact htasks.trans ((accounted_run o _ task).trans (ih _))
      · split
        · exact (accounted_finishSaving o w).trans (ih _)
        · split
          · split
            · exact (accounted_advance o w _).trans (ih _)
            · exact accounted_advance o w _
          · exact accounted_advance o w _

/-! ## Hearing -/

/-- The acts of the exchange that hearing the next news comes to. -/
def exchangeActs : News → List Forwarding.Act
  | .forward _ => [.hear 0]
  | _ => []

/-- The acts of the series that hearing the next news comes to. -/
def seriesActs (files : Storage.Files) : News → List Benchmark.Act
  | .benchmark _ | .holdOver _ => [.hear 0]
  | .settingsWritten path => [.reload files path]
  | _ => []

theorem run_exchangeActs {news : News} {reports : List Report}
    (h : x.reports = news.report?.toList ++ reports) :
    (x.run (exchangeActs news)).registry = news.onRegistry x.registry ∧
      (x.run (exchangeActs news)).tunnels = x.tunnels ∧
      (x.run (exchangeActs news)).reports = reports := by
  cases news with
  | forward ρ =>
      have hρ : x.reports = ρ :: reports := h
      simp [exchangeActs, Exchange.run, Exchange.act, Exchange.hear, hρ, News.onRegistry]
  | _ => exact ⟨rfl, rfl, h⟩

theorem after_seriesActs {news : News} {words : List Word} (files : Storage.Files)
    (h : y.queue = news.word?.toList ++ words) :
    (y.after (seriesActs files news)).runner = news.onRunner files y.runner ∧
      (y.after (seriesActs files news)).trials = y.trials ∧
      (y.after (seriesActs files news)).listening = y.listening ∧
      (y.after (seriesActs files news)).queue = words := by
  cases news with
  | benchmark c =>
      have hc : y.queue = .completion c :: words := h
      simp [seriesActs, Series.after, Series.act, Series.hear, hc, Series.flash?, News.onRunner]
  | holdOver message =>
      have hm : y.queue = .holdOver message :: words := h
      cases hr : y.runner.isRunning <;>
        simp [seriesActs, Series.after, Series.act, Series.hear, hm, hr, News.onRunner]
  | settingsWritten path =>
      have hq : y.queue = words := h
      cases hr : y.runner.reload files path <;>
        simp [seriesActs, Series.after, Series.act, Series.reload, hr, hq, News.onRunner,
          Except.toOption]
  | _ => exact ⟨rfl, rfl, rfl, h⟩

section Hearing

variable (ho : o.Attentive) (hP : o.Keeps P)

include ho hP

/-- The news that the next job brings is heard. -/
theorem Mirrors.hear {job : Job News} (h : Mirrors o P w (job :: jobs) x y) :
    Mirrors o P (w.change o (o.hear w.surroundings job.act)) jobs
      (x.run (exchangeActs job.act)) (y.after (seriesActs w.files job.act)) := by
  have hopen : w.queue.closed = false := by
    cases hq : w.queue.closed with
    | false => rfl
    | true => exact absurd (h.closed hq) (by simp)
  have hreports := h.reports hopen
  have hwords := h.words hopen
  rw [List.cons_append, reportsIn_cons] at hreports
  rw [List.cons_append, wordsIn_cons] at hwords
  obtain ⟨hregistry, htunnels, hreports⟩ := run_exchangeActs hreports
  obtain ⟨hrunner, htrials, hlistening, hwords⟩ := after_seriesActs w.files hwords
  rw [h.registry, ← ho.registry w.surroundings] at hregistry
  rw [h.runner] at hrunner
  have hset : Mirrors o P { w with owner := o.hear w.surroundings job.act w.owner } jobs
      (x.run (exchangeActs job.act)) (y.after (seriesActs w.files job.act)) :=
    { kept := hP _ _ _ h.kept
      registry := hregistry
      runner := hrunner.trans (ho.runner w.surroundings job.act w.owner).symm
      tunnels := htunnels.trans h.tunnels
      trials := htrials.trans h.trials
      listening := hlistening.trans h.listening
      reports := fun _ => hreports
      words := fun _ => hwords
      closed := fun hc => absurd (h.closed hc) (by simp) }
  exact hset.of_front (front_change o w _)

theorem accounted_hearAll (w : Stage σ) : Accounted o P w (w.hearAll o).1 := by
  intro x y h
  have hstart :
      Mirrors o P { w with queue := { w.queue with waiting := [] } } w.queue.waiting x y :=
    { h with
      reports := fun hq => by simpa using h.reports hq
      words := fun hq => by simpa using h.words hq
      closed := fun hq => by simpa using h.closed hq }
  unfold hearAll
  dsimp only
  generalize w.queue.waiting = jobs at hstart ⊢
  generalize ({ w with queue := { w.queue with waiting := [] } } : Stage σ) = v at hstart ⊢
  generalize 0 = n
  clear h
  induction jobs generalizing v n x y with
  | nil => exact ⟨[], [], hstart⟩
  | cons job jobs ih =>
      obtain ⟨acts, acts', hrest⟩ := ih _ _ _ (hstart.hear ho hP) (n + 1)
      refine ⟨exchangeActs job.act ++ acts, seriesActs v.files job.act ++ acts', ?_⟩
      rw [Exchange.run_append, Series.after_append]
      exact hrest

/-- The owner hears all that comes until nothing has come for a while. -/
theorem accounted_settleUntil (limit fuel count : Nat) (w : Stage σ) :
    Accounted o P w (settleUntil o limit fuel count w).1 := by
  induction fuel generalizing limit count w with
  | zero => exact Accounted.refl o w
  | succ fuel ih =>
      unfold settleUntil
      split
      · exact (accounted_hearAll ho hP w).trans (ih _ _ _)
      · split
        · rename_i task tasks _
          have htasks : Accounted o P w { w with tasks := tasks } := accounted_of_front rfl
          exact htasks.trans ((accounted_run o _ task).trans (ih _ _ _))
        · split
          · exact (accounted_finishSaving o w).trans (ih _ _ _)
          · split
            · split
              · exact (accounted_advance o w _).trans (ih _ _ _)
              · exact accounted_advance o w _
            · exact accounted_advance o w _

theorem accounted_settle (w : Stage σ) : Accounted o P w (w.settle o).1 := by
  unfold settle
  split
  · exact Accounted.refl o w
  · exact accounted_settleUntil ho hP _ _ _ w

theorem accounted_wait (w : Stage σ) (ms : Nat) : Accounted o P w (w.wait o ms).1 := by
  unfold wait
  split
  · exact accounted_settle ho hP w
  · exact (accounted_passUntil o _ _ w).trans (accounted_settle ho hP _)

end Hearing

theorem accounted_idle (o : Owner σ) (w : Stage σ) : Accounted o P w (w.idle o) :=
  accounted_passUntil o _ _ w

/-- The queue is closed, and what was in it is lost. -/
theorem accounted_close (o : Owner σ) (w : Stage σ) : Accounted o P w w.close := by
  intro x y h
  exact ⟨[], [.shut], { h with
    listening := rfl
    reports := fun hc => absurd hc (by simp [close, Queue.close])
    words := fun hc => absurd hc (by simp [close, Queue.close])
    closed := fun _ => rfl }⟩

end Stage

end ClusterConsole.Background
