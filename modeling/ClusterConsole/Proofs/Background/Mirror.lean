import ClusterConsole.Proofs.Background.Front
import ClusterConsole.Proofs.Benchmark.Bookkeeping
import ClusterConsole.Proofs.Forwarding.Changes

/-!
# The stage in the mirror

`Mirrors` ties a stage to an exchange and a series: all that runs beside an owner is
in them, with the same registry and runner, the same tunnels and benchmarks, and the
same words on the way. Whatever goes on beside an attentive owner is accounted for by
acts of the two (`accounted_wait`), so what holds of them after every run holds of the
stage.
-/

namespace ClusterConsole.Background

open ClusterConsole.Forwarding (Exchange Report Tunnel)
open ClusterConsole.Benchmark (Series Trial Word)

variable {σ : Type} {o : Owner σ} {P : σ → Prop}

/-! ## The words on the way -/

/-- The report that is in some news. -/
def News.report? : News → Option Report
  | forward report => some report
  | _ => none

/-- The word of a benchmark that is in some news. -/
def News.word? : News → Option Word
  | benchmark c => some (.completion c)
  | holdOver message => some (.holdOver message)
  | _ => none

def reportsIn (jobs : List (Job News)) : List Report := jobs.filterMap fun j => j.act.report?

def wordsIn (jobs : List (Job News)) : List Word := jobs.filterMap fun j => j.act.word?

theorem reportsIn_cons (job : Job News) (jobs : List (Job News)) :
    reportsIn (job :: jobs) = job.act.report?.toList ++ reportsIn jobs := by
  cases h : job.act.report? <;> simp [reportsIn, h]

theorem wordsIn_cons (job : Job News) (jobs : List (Job News)) :
    wordsIn (job :: jobs) = job.act.word?.toList ++ wordsIn jobs := by
  cases h : job.act.word? <;> simp [wordsIn, h]

theorem reportsIn_append (jobs jobs' : List (Job News)) :
    reportsIn (jobs ++ jobs') = reportsIn jobs ++ reportsIn jobs' :=
  List.filterMap_append

theorem wordsIn_append (jobs jobs' : List (Job News)) :
    wordsIn (jobs ++ jobs') = wordsIn jobs ++ wordsIn jobs' :=
  List.filterMap_append

namespace Stage

variable {w w' w'' : Stage σ} {jobs : List (Job News)} {x : Exchange} {y : Series} {k : Nat}

/-- All that runs beside the owner is in the exchange and the series. The jobs were
taken from the queue and are about to be applied; `P` is something else that holds of
the owner throughout. -/
structure Mirrors (o : Owner σ) (P : σ → Prop) (w : Stage σ) (jobs : List (Job News))
    (x : Exchange) (y : Series) : Prop where
  kept : P w.owner
  registry : x.registry = o.registry w.owner
  runner : y.runner = o.runner w.owner
  tunnels : x.tunnels = w.tunnels.map TunnelRun.tunnel
  trials : y.trials = w.benchmarks.map BenchmarkRun.trial
  listening : y.listening = !w.queue.closed
  reports : w.queue.closed = false → x.reports = reportsIn (jobs ++ w.queue.waiting)
  words : w.queue.closed = false → y.queue = wordsIn (jobs ++ w.queue.waiting)
  closed : w.queue.closed = true → jobs ++ w.queue.waiting = []

/-- What became of the stage is accounted for by acts of the exchange and the series. -/
def Accounted (o : Owner σ) (P : σ → Prop) (w w' : Stage σ) : Prop :=
  ∀ x y, Mirrors o P w [] x y → ∃ acts acts', Mirrors o P w' [] (x.run acts) (y.after acts')

theorem Mirrors.of_front (h : Mirrors o P w jobs x y) (hw : w'.front = w.front) :
    Mirrors o P w' jobs x y := by
  simp only [front, Prod.mk.injEq] at hw
  obtain ⟨howner, htunnels, hbenchmarks, hqueue⟩ := hw
  constructor
  · rw [howner]
    exact h.kept
  · rw [howner]
    exact h.registry
  · rw [howner]
    exact h.runner
  · rw [htunnels]
    exact h.tunnels
  · rw [hbenchmarks]
    exact h.trials
  · rw [hqueue]
    exact h.listening
  · rw [hqueue]
    exact h.reports
  · rw [hqueue]
    exact h.words
  · rw [hqueue]
    exact h.closed

theorem accounted_of_front (hw : w'.front = w.front) : Accounted o P w w' :=
  fun _ _ h => ⟨[], [], h.of_front hw⟩

theorem Accounted.refl (o : Owner σ) (w : Stage σ) : Accounted o P w w := accounted_of_front rfl

theorem Accounted.trans (h : Accounted o P w w') (h' : Accounted o P w' w'') :
    Accounted o P w w'' := by
  intro x y hxy
  obtain ⟨acts₁, acts₁', h₁⟩ := h x y hxy
  obtain ⟨acts₂, acts₂', h₂⟩ := h' _ _ h₁
  refine ⟨acts₁ ++ acts₂, acts₁' ++ acts₂', ?_⟩
  rw [Exchange.run_append, Series.after_append]
  exact h₂

/-! ## Telling -/

theorem tell_of_closed (hq : w.queue.closed = true) (news : News) : w.tell news = (w, false) := by
  simp [tell, Queue.push, hq]

theorem tell_of_open (hq : w.queue.closed = false) (news : News) :
    w.tell news =
      ({ w with queue := { w.queue with waiting := w.queue.waiting ++ [Job.single news] } },
        true) := by
  simp [tell, Queue.push, hq]

/-- News is queued; reports and words are queued along with it. -/
theorem Mirrors.tell (h : Mirrors o P w jobs x y) (news : News) :
    Mirrors o P (w.tell news).1 jobs
      { x with
        reports := x.reports ++ news.report?.toList
        sent := x.sent ++ news.report?.toList }
      (news.word?.elim y y.push) := by
  have hfields : ∀ word : Word, (y.push word).runner = y.runner ∧ (y.push word).trials = y.trials ∧
      (y.push word).listening = y.listening := by
    intro word
    unfold Series.push
    split <;> exact ⟨rfl, rfl, rfl⟩
  have hseries : (news.word?.elim y y.push).runner = y.runner ∧
      (news.word?.elim y y.push).trials = y.trials ∧
      (news.word?.elim y y.push).listening = y.listening := by
    cases news.word? with
    | none => exact ⟨rfl, rfl, rfl⟩
    | some word => exact hfields word
  obtain ⟨hrunner, htrials, hlistening⟩ := hseries
  cases hq : w.queue.closed with
  | true =>
      rw [tell_of_closed hq]
      exact ⟨h.kept, h.registry, hrunner.trans h.runner, h.tunnels, htrials.trans h.trials,
        hlistening.trans h.listening, fun hc => by simp [hq] at hc, fun hc => by simp [hq] at hc,
        h.closed⟩
  | false =>
      rw [tell_of_open hq]
      refine ⟨h.kept, h.registry, hrunner.trans h.runner, h.tunnels, htrials.trans h.trials,
        hlistening.trans h.listening, fun _ => ?_, fun _ => ?_, fun hc => by simp [hq] at hc⟩
      · rw [h.reports hq, ← List.append_assoc, reportsIn_append _ [Job.single news]]
        cases hr : news.report? <;> simp [reportsIn, Job.single, Job.act, hr]
      · have hl : y.listening = true := by rw [h.listening, hq]; rfl
        rw [← List.append_assoc, wordsIn_append _ [Job.single news], ← h.words hq]
        cases hr : news.word? <;> simp [wordsIn, Job.single, Job.act, hr, Series.push, hl]

theorem Mirrors.tellReports (reports : List Report) (h : Mirrors o P w jobs x y) :
    Mirrors o P (w.tellAll (reports.map .forward)) jobs
      { x with reports := x.reports ++ reports, sent := x.sent ++ reports } y := by
  unfold Stage.tellAll
  induction reports generalizing w x with
  | nil => simpa using h
  | cons ρ reports ih =>
      have hone : Mirrors o P (w.tell (.forward ρ)).1 jobs
          { x with reports := x.reports ++ [ρ], sent := x.sent ++ [ρ] } y := h.tell (.forward ρ)
      simpa using ih hone

theorem Mirrors.tellWord {word : Word} (h : Mirrors o P w jobs x y) (news : News)
    (hreport : news.report? = none)
    (hword : news.word? = some word) :
    Mirrors o P (w.tell news).1 jobs x (y.push word) := by
  have hn := h.tell news
  rw [hreport, hword] at hn
  simpa using hn

theorem Mirrors.tellOther {news : List News} (h : Mirrors o P w jobs x y)
    (hreport : ∀ n ∈ news, n.report? = none)
    (hword : ∀ n ∈ news, n.word? = none) : Mirrors o P (w.tellAll news) jobs x y := by
  unfold Stage.tellAll
  induction news generalizing w with
  | nil => exact h
  | cons n news ih =>
      have hn := h.tell n
      rw [hreport n List.mem_cons_self, hword n List.mem_cons_self] at hn
      refine ih (by simpa using hn) (fun m hm => ?_) (fun m hm => ?_)
      · exact hreport m (List.mem_cons_of_mem _ hm)
      · exact hword m (List.mem_cons_of_mem _ hm)

/-! ## Tunnels -/

section Tunnels

variable {r r' : TunnelRun}

theorem Mirrors.setTunnel (h : Mirrors o P w jobs x y) (hr : w.tunnels[k]? = some r)
    (ht : r'.tunnel = r.tunnel) : Mirrors o P (w.setTunnel k r') jobs x y := by
  refine { h with tunnels := ?_ }
  obtain ⟨hk, rfl⟩ := List.getElem?_eq_some_iff.1 hr
  rw [h.tunnels, Stage.setTunnel, List.map_set, ht, ← List.map_set, List.set_getElem_self]

/-- A tunnel makes a move. -/
theorem Mirrors.move (h : Mirrors o P w jobs x y) (hr : w.tunnels[k]? = some r) (r' : TunnelRun)
    (m : Tunnel.Move) (ht : r'.tunnel =
      (r.tunnel.move ((o.registry w.owner).isCalledOff r.tunnel.generation) m).1) :
    Mirrors o P ((w.setTunnel k r').tellAll
      ((r.tunnel.move ((o.registry w.owner).isCalledOff r.tunnel.generation) m).2.map .forward))
      jobs (x.act (.move k m)) y := by
  have hk : x.tunnels[k]? = some r.tunnel := by
    rw [h.tunnels, List.getElem?_map, hr]
    rfl
  have hset : Mirrors o P (w.setTunnel k r') jobs
      { x with tunnels := x.tunnels.set k r'.tunnel } y :=
    { h with tunnels := by rw [Stage.setTunnel, List.map_set, h.tunnels] }
  have htell := hset.tellReports
    (r.tunnel.move ((o.registry w.owner).isCalledOff r.tunnel.generation) m).2
  have hcalled : x.registry.isCalledOff r.tunnel.generation =
      (o.registry w.owner).isCalledOff r.tunnel.generation := by rw [h.registry]
  simp only [Exchange.act, Exchange.move, hk, hcalled]
  rw [ht] at htell
  exact htell

theorem accounted_runTunnel (hr : w.tunnels[k]? = some r) :
    Accounted o P w (w.runTunnel o k r) := by
  intro x y h
  unfold runTunnel
  split
  · exact ⟨[.move k .settleFinish], [], h.move hr _ .settleFinish rfl⟩
  · have hset : Mirrors o P (w.setTunnel k { r with started := true }) [] x y :=
      h.setTunnel hr rfl
    exact ⟨[], [], hset.of_front ((front_schedule _ _).trans (front_schedule _ _))⟩

theorem accounted_endTransport (hr : w.tunnels[k]? = some r) (e : Forwarding.Ending) :
    Accounted o P w (w.endTransport k r e) := by
  intro x y h
  have hmove :
      Mirrors o P (w.setTunnel k { r with tunnel := r.tunnel.finish e, waiting := false }) []
        (x.act (.move k (.finish e))) y := h.move hr _ (.finish e) rfl
  refine ⟨[.move k (.finish e)], [], hmove.of_front ?_⟩
  unfold endTransport
  split
  · exact (front_schedule _ _).trans (front_schedule _ _)
  · exact front_schedule _ _

/-- The transport waits or ends. -/
theorem accounted_wait_or_end (hr : w.tunnels[k]? = some r) (p : Prop) [Decidable p]
    (e : Forwarding.Ending) :
    Accounted o P w
      (if p then w.setTunnel k { r with waiting := true } else w.endTransport k r e) := by
  split
  · exact fun x y h => ⟨[], [], h.setTunnel hr rfl⟩
  · exact accounted_endTransport hr e

theorem setTunnel_setTunnel (w : Stage σ) (k : Nat) (r r' : TunnelRun) :
    (w.setTunnel k r).setTunnel k r' = w.setTunnel k r' := by
  simp [setTunnel]

/-- The transport reports its ports, then it waits or ends. -/
theorem accounted_report (hr : w.tunnels[k]? = some r) (ports : List Forwarding.Mapping)
    (p : Prop) [Decidable p] (e : Forwarding.Ending)
    (hr' : { r with tunnel := r.tunnel.report ports } = r') :
    Accounted o P w
      (if p then w.setTunnel k { r' with waiting := true } else w.endTransport k r' e) := by
  have hreport : Accounted o P w (w.setTunnel k r') :=
    fun x y h => ⟨[.move k (.report ports)], [], h.move hr r' (.report ports) (by rw [← hr']; rfl)⟩
  have hk : (w.setTunnel k r').tunnels[k]? = some r' :=
    List.getElem?_set_self (List.getElem?_eq_some_iff.1 hr).1
  have hend := accounted_wait_or_end (o := o) (P := P) hk p e
  simp only [endTransport, setTunnel_setTunnel] at hend ⊢
  exact hreport.trans hend

theorem accounted_runTransport (hr : w.tunnels[k]? = some r) :
    Accounted o P w (w.runTransport o k r) := by
  unfold runTransport
  dsimp only
  split
  · exact Accounted.refl o w
  · split
    · split
      · exact accounted_endTransport hr _
      · split
        · exact accounted_endTransport hr _
        · exact Accounted.refl o w
    · cases hp : r.transport.report with
      | none => exact accounted_wait_or_end hr _ _
      | some ports =>
          have hfront : (if r.awaited = true then w.schedule (.activation k) else w).front =
              w.front := by
            split
            · exact front_schedule w _
            · rfl
          have htunnels : (if r.awaited = true then w.schedule (.activation k) else w).tunnels =
              w.tunnels := congrArg (fun p => p.2.1) hfront
          exact (accounted_of_front hfront).trans
            (accounted_report (by rw [htunnels, hr]) ports _ _ rfl)

theorem accounted_runActivation (hr : w.tunnels[k]? = some r) :
    Accounted o P w (w.runActivation k r) := by
  intro x y h
  have hmove := h.move hr { r with
    tunnel := r.tunnel.settleActivation.1
    awaited := !r.tunnel.settleActivation.1.activationSettled } .settleActivation rfl
  refine ⟨[.move k .settleActivation], [], hmove.of_front ?_⟩
  unfold runActivation
  dsimp only
  split
  · exact front_schedule _ _
  · rfl

theorem map_tunnel_modify (l : List TunnelRun) (k : Nat) {f : TunnelRun → TunnelRun}
    (hf : ∀ r, (f r).tunnel = r.tunnel) :
    (l.modify k f).map TunnelRun.tunnel = l.map TunnelRun.tunnel := by
  refine List.ext_getElem? fun i => ?_
  rw [List.getElem?_map, List.getElem?_map, List.getElem?_modify]
  cases l[i]? with
  | none => rfl
  | some r =>
      by_cases hk : k = i
      · simp [hk, hf]
      · simp [hk]

/-- A transport that breaks has not ended yet. -/
theorem accounted_breakWaiting (o : Owner σ) (w : Stage σ) (e : Forwarding.Ending) :
    Accounted o P w (w.breakWaiting e) := by
  unfold breakWaiting
  dsimp only
  generalize (List.range w.tunnels.length).filter _ = hit
  induction hit generalizing w with
  | nil => exact Accounted.refl o w
  | cons k hit ih =>
      refine Accounted.trans ?_ (ih _)
      intro x y h
      have hsame : (w.tunnels.modify k fun r => { r with broken := some e }).map
          TunnelRun.tunnel = w.tunnels.map TunnelRun.tunnel := map_tunnel_modify _ k fun _ => rfl
      have hbroken : Mirrors o P
          { w with tunnels := w.tunnels.modify k fun r => { r with broken := some e } } [] x y :=
        { h with tunnels := h.tunnels.trans hsame.symm }
      exact ⟨[], [], hbroken.of_front (front_schedule _ _)⟩

end Tunnels

end Stage

end ClusterConsole.Background
