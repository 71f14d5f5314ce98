import ClusterConsole.Proofs.Benchmark.Workers
import Mathlib.Data.Nat.Init

/-!
# How a load spends its budget

The events of a run say what the report of its load is (`Accounted`), at every moment and so at
the end. Every event of a worker takes away from what can come (`ahead`), and a worker that is
not done has something to wait for. So a load can always be brought to its end, and comes to it
in every schedule that does not pass over a worker for ever (`finished_of_fair`). The load that
`run` computes, with workers that take turns, is one of these runs (`exists_turns_run`).
-/

namespace ClusterConsole.Benchmark

open ClusterConsole.Number

namespace Load

variable {s : Settings} {l l' : Load} {events : List Event} {e : Event} {i : Nat} {w : Worker}
  {a : Turn} {turns : List Turn}

/-! ## The end of a load -/

/-- All workers are done. -/
def Finished (l : Load) : Prop := ∀ w ∈ l.workers, w.phase = .done

/-- How many events of workers can come at most. -/
def ahead (l : Load) : Nat :=
  2 * l.budget + (l.workers.map fun w =>
    match w.phase with
    | .idle => 1
    | .sending => 2
    | .done => 0).sum

theorem Step.ahead_lt (h : l.Step e l') (he : e ≠ .calledOff) : l'.ahead < l.ahead := by
  unfold ahead
  cases h with
  | taken hworkers hbudget =>
      simp only [hworkers, hbudget, List.map_append, List.map_cons, List.sum_append, List.sum_cons]
      omega
  | calledOff => exact absurd rfl he
  | _ hworkers =>
      simp only [hworkers, List.map_append, List.map_cons, List.sum_append, List.sum_cons]
      omega

theorem Step.eq_calledOff (h : l.Step .calledOff l') : l' = l.callOff := by
  cases h
  rfl

/-- Every event of a worker takes away from what can come. -/
theorem Reached.steps (h : Reached s events l) :
    l.ahead + events.countP (· != .calledOff) ≤ 2 * s.requests + max s.concurrency 1 := by
  induction h with
  | start => simp [ahead, Load.start, Worker.fresh]
  | @step events l l' e h hstep ih =>
      rw [List.countP_append, List.countP_singleton]
      by_cases he : e = .calledOff
      · subst he
        have hahead : l'.ahead = l.ahead := by rw [hstep.eq_calledOff, callOff, ahead, ahead]
        rw [hahead]
        exact ih
      · have hlt := hstep.ahead_lt he
        rw [if_pos (bne_iff_ne.2 he)]
        omega

def Turn.worker? : Turn → Option Nat
  | .take i | .answer i _ | .giveUp i => some i
  | .callOff => none

/-- Something comes of a turn of that worker. -/
def Serves (l : Load) (i : Nat) (a : Turn) : Prop :=
  a.worker? = some i ∧ (l.event? a).isSome = true

/-- A worker that is not done has a turn that something comes of, if its request does not stay
unanswered for ever. -/
theorem exists_serves (hw : l.workers[i]? = some w) (hphase : w.phase ≠ .done) :
    ∃ a, l.Serves i a := by
  obtain ⟨phase, tally⟩ := w
  cases phase with
  | idle => exact ⟨.take i, rfl, by simp [event?, hw]⟩
  | sending => exact ⟨.answer i .lost, rfl, by simp [event?, hw]⟩
  | done => exact absurd rfl hphase

theorem event?_eq_calledOff (h : l.event? a = some .calledOff) : a = .callOff := by
  cases a with
  | callOff => rfl
  | _ =>
      simp only [event?] at h
      split at h
      · simp only [Option.some.injEq, ite_eq_iff] at h
        simp at h
      · cases h

/-- A run called off the load if one of its turns did. -/
theorem calledOff_mem_log_iff : .calledOff ∈ l.log turns ↔ .callOff ∈ turns := by
  induction turns generalizing l with
  | nil => simp [log]
  | cons a turns ih =>
      rw [log, List.mem_append, Option.mem_toList, List.mem_cons, ih]
      refine or_congr_left ⟨fun h => (event?_eq_calledOff h).symm, ?_⟩
      rintro rfl
      rfl

theorem Serves.ahead_lt (h : l.Serves i a) : (l.turn a).ahead < l.ahead := by
  rcases l.turn_cases a with ⟨hnone, -⟩ | ⟨e, he, hstep⟩
  · rw [Serves, hnone] at h
    simp at h
  · refine hstep.ahead_lt ?_
    rintro rfl
    rw [event?_eq_calledOff he] at h
    cases h.1

/-- A turn takes away from what can come, or leaves the workers as they are. -/
theorem turn_ahead (l : Load) (a : Turn) : (l.turn a).ahead < l.ahead ∨
    ((l.turn a).workers = l.workers ∧ (l.turn a).ahead = l.ahead) := by
  rcases l.turn_cases a with ⟨-, hturn⟩ | ⟨e, he, hstep⟩
  · rw [hturn]
    exact .inr ⟨rfl, rfl⟩
  · by_cases hcalledOff : e = .calledOff
    · subst hcalledOff
      rw [hstep.eq_calledOff]
      exact .inr ⟨rfl, rfl⟩
    · exact .inl (hstep.ahead_lt hcalledOff)

theorem exists_not_done (h : ¬ l.Finished) :
    ∃ (i : Nat) (w : Worker), l.workers[i]? = some w ∧ w.phase ≠ .done := by
  simp only [Finished, not_forall] at h
  obtain ⟨w, hw, hphase⟩ := h
  obtain ⟨i, hi⟩ := List.mem_iff_getElem?.1 hw
  exact ⟨i, w, hi, hphase⟩

theorem Finished.step (h : l.Finished) (hstep : l.Step e l') : l'.Finished := by
  cases hstep with
  | calledOff => exact h
  | _ hworkers =>
      rw [Finished, hworkers] at h
      exact absurd (h _ (List.mem_append_right _ List.mem_cons_self)) nofun

/-- A load that is at its end stays there. -/
theorem Finished.turn (h : l.Finished) (a : Turn) : (l.turn a).Finished := by
  rcases l.turn_cases a with ⟨-, hturn⟩ | ⟨e, he, hstep⟩
  · rwa [hturn]
  · exact h.step hstep

theorem after_append (l : Load) (turns turns' : List Turn) :
    l.after (turns ++ turns') = (l.after turns).after turns' :=
  List.foldl_append

/-- If a worker that is not done has a turn that keeps `P`, a load can be brought to its end
by turns of workers that keep `P`. -/
theorem exists_finished_keeping {P : Load → Prop}
    (hP : ∀ l i w, P l → l.workers[i]? = some w → w.phase ≠ .done →
      ∃ a, l.Serves i a ∧ P (l.turn a)) (h : P l) :
    ∃ turns, (l.after turns).Finished ∧ P (l.after turns) ∧
      ∀ a ∈ turns, a.worker?.isSome = true := by
  induction hn : l.ahead using Nat.strongRecOn generalizing l with
  | ind n ih =>
      by_cases hfinished : l.Finished
      · exact ⟨[], hfinished, h, nofun⟩
      · obtain ⟨i, w, hi, hphase⟩ := exists_not_done hfinished
        obtain ⟨a, ha, hPa⟩ := hP l i w h hi hphase
        obtain ⟨turns, hturns, hPturns, hworkers⟩ := ih _ (hn ▸ ha.ahead_lt) hPa rfl
        refine ⟨a :: turns, hturns, hPturns, fun b hb => ?_⟩
        rcases List.mem_cons.1 hb with rfl | hb
        · rw [ha.1]
          rfl
        · exact hworkers b hb

/-- Every load can be brought to its end, without being called off. -/
theorem exists_finished (l : Load) :
    ∃ turns, (l.after turns).Finished ∧ ∀ a ∈ turns, a.worker?.isSome = true := by
  obtain ⟨turns, hturns, -, hworkers⟩ := exists_finished_keeping (l := l) (P := fun _ => True)
    (fun l i w _ hi hphase => (exists_serves hi hphase).imp fun _ ha => ⟨ha, trivial⟩) trivial
  exact ⟨turns, hturns, hworkers⟩

/-- No request is under way, and there will be none. -/
def Spent (l : Load) : Prop := l.budget = 0 ∧ ∀ w ∈ l.workers, w.phase ≠ .sending

/-- A worker of a load that is spent finds so, and nothing else changes. -/
theorem Spent.take (h : l.Spent) (hw : l.workers[i]? = some w) (hphase : w.phase ≠ .done) :
    l.Serves i (.take i) ∧ (l.turn (.take i)).Spent ∧ (l.turn (.take i)).tallies = l.tallies := by
  obtain ⟨hbudget, hsending⟩ := h
  obtain ⟨phase, tally⟩ := w
  obtain ⟨before, later, hworkers, hset⟩ := exists_split hw
  cases phase with
  | done => exact absurd rfl hphase
  | sending => exact absurd rfl (hsending _ (List.mem_of_getElem? hw))
  | idle =>
      have hturn : l.turn (.take i) = { l with workers := before ++ ⟨.done, tally⟩ :: later } := by
        simp [turn, Load.take, hw, takeOne, hbudget, hset]
      rw [hworkers, List.forall_mem_append, List.forall_mem_cons] at hsending
      rw [hturn]
      refine ⟨⟨rfl, by simp [event?, hw]⟩, ⟨hbudget, ?_⟩, ?_⟩
      · rw [List.forall_mem_append, List.forall_mem_cons]
        exact ⟨hsending.1, by simp, hsending.2.2⟩
      · simp [tallies, hworkers]

theorem Spent.exists_finished (h : l.Spent) :
    ∃ turns, (l.after turns).Finished ∧ (l.after turns).tallies = l.tallies ∧
      ∀ a ∈ turns, a.worker?.isSome = true := by
  have hkeep : ∀ (l' : Load) i w, l'.Spent ∧ l'.tallies = l.tallies → l'.workers[i]? = some w →
      w.phase ≠ .done → ∃ a, l'.Serves i a ∧ (l'.turn a).Spent ∧
        (l'.turn a).tallies = l.tallies := by
    rintro l' i w ⟨hspent, htallies⟩ hw hphase
    obtain ⟨hserves, hspent', htallies'⟩ := hspent.take hw hphase
    exact ⟨.take i, hserves, hspent', htallies'.trans htallies⟩
  obtain ⟨turns, hfinished, ⟨-, htallies⟩, hworkers⟩ := exists_finished_keeping hkeep ⟨h, rfl⟩
  exact ⟨turns, hfinished, htallies, hworkers⟩

/-- The load after the first turns of an endless schedule. -/
def upTo (l : Load) (schedule : Nat → Turn) : Nat → Load
  | 0 => l
  | n + 1 => (l.upTo schedule n).turn (schedule n)

/-- Whatever a worker waits for comes at some time, unless the worker is done. -/
def Fair (l : Load) (schedule : Nat → Turn) : Prop :=
  ∀ i n, ∃ m, n ≤ m ∧ ((∀ w, (l.upTo schedule m).workers[i]? = some w → w.phase = .done) ∨
    (l.upTo schedule m).Serves i (schedule m))

variable {schedule : Nat → Turn} {n m : Nat}

theorem upTo_succ (l : Load) (schedule : Nat → Turn) (n : Nat) :
    l.upTo schedule (n + 1) = (l.upTo schedule n).turn (schedule n) := rfl

theorem ahead_upTo (l : Load) (schedule : Nat → Turn) (h : n ≤ m) :
    (l.upTo schedule m).ahead < (l.upTo schedule n).ahead ∨
      ((l.upTo schedule m).workers = (l.upTo schedule n).workers ∧
        (l.upTo schedule m).ahead = (l.upTo schedule n).ahead) := by
  induction m, h using Nat.le_induction with
  | base => exact .inr ⟨rfl, rfl⟩
  | succ m hnm ih =>
      have hturn := (l.upTo schedule m).turn_ahead (schedule m)
      rw [← upTo_succ] at hturn
      rcases hturn with hlt | ⟨hworkers, hahead⟩
      · refine .inl ?_
        rcases ih with ih | ⟨-, ih⟩ <;> omega
      · rw [hworkers, hahead]
        exact ih

/-- In an endless fair schedule every worker comes to its end. -/
theorem finished_of_fair (h : l.Fair schedule) :
    ∃ n, ∀ m, n ≤ m → (l.upTo schedule m).Finished := by
  have hsome (k n : Nat) (hk : (l.upTo schedule n).ahead ≤ k) :
      ∃ m, (l.upTo schedule m).Finished := by
    induction k using Nat.strongRecOn generalizing n with
    | ind k ih =>
        by_cases hfinished : (l.upTo schedule n).Finished
        · exact ⟨n, hfinished⟩
        · obtain ⟨i, w, hi, hphase⟩ := exists_not_done hfinished
          obtain ⟨m, hnm, hm⟩ := h i n
          -- the worker has moved by then, or moves now
          have hlt : (l.upTo schedule (m + 1)).ahead < (l.upTo schedule n).ahead := by
            have hnext := l.ahead_upTo schedule (Nat.le_add_right m 1)
            rcases l.ahead_upTo schedule hnm with hlt | ⟨hworkers, hahead⟩
            · rcases hnext with hnext | ⟨-, hnext⟩ <;> omega
            · rcases hm with hdone | hserves
              · exact absurd (hdone w (hworkers ▸ hi)) hphase
              · have hserved := hserves.ahead_lt
                rw [← upTo_succ] at hserved
                omega
          exact ih _ (Nat.lt_of_lt_of_le hlt hk) (m + 1) (Nat.le_refl _)
  obtain ⟨n, hn⟩ := hsome _ 0 (Nat.le_refl _)
  refine ⟨n, fun m hm => ?_⟩
  induction m, hm using Nat.le_induction with
  | base => exact hn
  | succ m _ ih => exact ih.turn (schedule m)

/-- Those turns, and then nothing that concerns a worker. -/
def lastTurns (turns : List Turn) (n : Nat) : Turn := turns[n]?.getD .callOff

theorem upTo_lastTurns (l : Load) (turns : List Turn) (hn : n ≤ turns.length) :
    l.upTo (lastTurns turns) n = l.after (turns.take n) := by
  induction n with
  | zero => rfl
  | succ n ih =>
      have hturn : lastTurns turns n = turns[n] := by
        rw [lastTurns, List.getElem?_eq_getElem hn, Option.getD_some]
      rw [upTo_succ, ih (Nat.le_of_succ_le hn), hturn, List.take_add_one,
        List.getElem?_eq_getElem hn, after_append]
      rfl

/-- There is a fair schedule: it brings the load to its end, where nothing is waited for. -/
theorem exists_fair (l : Load) : ∃ schedule, l.Fair schedule := by
  obtain ⟨turns, hfinished, -⟩ := l.exists_finished
  have hend (m : Nat) (hm : turns.length ≤ m) : (l.upTo (lastTurns turns) m).Finished := by
    induction m, hm using Nat.le_induction with
    | base =>
        rw [upTo_lastTurns l turns (Nat.le_refl _), List.take_length]
        exact hfinished
    | succ m _ ih => exact ih.turn _
  exact ⟨lastTurns turns, fun i n => ⟨max n turns.length, Nat.le_max_left _ _, .inl fun w hw =>
    hend _ (Nat.le_max_right _ _) w (List.mem_of_getElem? hw)⟩⟩

/-! ## The report -/

theorem report_eq (l : Load) (elapsed : Nat) :
    l.report elapsed = { Report.sum l.tallies with elapsed := elapsed } := by
  rw [report, Report.sum, tallies, List.foldl_map]

/-- What the report counts is what came of the turns. -/
theorem Reached.measure {f : Report → Nat} {p : Event → Bool} (hempty : f Report.empty = 0)
    (habsorb : ∀ r t, r.Ordered → t.Ordered → f (r.absorb t) = f r + f t)
    (hcount : ∀ t reply, t.Ordered →
      f (Worker.count t reply) = f t + if p (.counted reply) then 1 else 0)
    (hother : ∀ e, e.reply? = none → p e = false) (h : Reached s events l) :
    f (Report.sum l.tallies) = events.countP p := by
  rw [Report.measure_sum hempty habsorb fun t ht => (h.tally t ht).1]
  exact h.sum_tallies hempty hcount hother

theorem Reached.sent (h : Reached s events l) :
    (Report.sum l.tallies).sent = events.countP Event.isReply := by
  refine h.measure (f := Report.sent) rfl (fun _ _ _ _ => rfl) (fun t reply _ => ?_) fun e he => ?_
  · cases reply <;> rfl
  · rw [Event.isReply, he]
    rfl

theorem Reached.errors (h : Reached s events l) :
    (Report.sum l.tallies).errors = events.count (.counted .lost) := by
  refine h.measure (f := Report.errors) rfl (fun _ _ _ _ => rfl) (fun t reply _ => ?_)
    fun e he => ?_
  · cases reply <;> rfl
  · cases e with
    | counted reply => cases he
    | _ => rfl

theorem Reached.classes (h : Reached s events l) (key : Nat) :
    (Report.sum l.tallies).count key = events.countP (Event.answers key) := by
  refine h.measure (f := (Report.count · key)) rfl
    (fun r t hr ht => Report.count_absorb hr ht key) (fun t reply ht => ?_) fun e he => ?_
  · cases reply with
    | status code =>
        simp only [Event.answers, beq_iff_eq]
        exact Report.classCount_addClass ht (code / 100) 1 key
    | lost => rfl
  · cases e with
    | counted reply => cases he
    | _ => rfl

/-- What is true of a load at every moment, and of the report that it gives. -/
structure Accounted (s : Settings) (events : List Event) (l : Load) (elapsed : Nat) : Prop where
  /-- There is always a worker. -/
  workers : l.workers.length = max s.concurrency 1
  /-- No more is taken from the budget than there was. -/
  budget : l.budget + events.count .taken = s.requests
  /-- As many takes succeed as there were calls, or as the budget had. -/
  taken : events.count .taken = min s.requests (events.count .taken + events.count .refused)
  sent_le : (l.report elapsed).sent ≤ s.requests
  sent : (l.report elapsed).sent = events.countP Event.isReply
  balanced : (l.report elapsed).sent =
    (l.report elapsed).errors + ((l.report elapsed).byClass.map (·.2)).sum
  errors : (l.report elapsed).errors = events.count (.counted .lost)
  /-- Each response is counted under a hundredth of its status. -/
  classes : ∀ key, (l.report elapsed).count key = events.countP (Event.answers key)
  /-- A load that is never called off sends all that it was asked for. -/
  all : l.Finished → .calledOff ∉ events → (l.report elapsed).sent = s.requests
  /-- The order in which the tallies are added up makes no difference. -/
  order : ∀ ts, ts.Perm l.tallies →
    { Report.sum ts with elapsed := elapsed } = l.report elapsed
  /-- No addition on the way exceeds a machine word, in whatever order. -/
  fits : s.requests < word64 → ∀ ts, ts.Perm l.tallies → Report.sum? ts = some (Report.sum ts)
  /-- The workers come to their end after so many events. -/
  steps : events.countP (· != .calledOff) ≤ 2 * s.requests + max s.concurrency 1

theorem Reached.sent_le (h : Reached s events l) : (Report.sum l.tallies).sent ≤ s.requests := by
  have hbudget := h.budget.1
  have hbalance := h.balance
  rw [h.sent]
  omega

theorem Reached.taken (h : Reached s events l) :
    events.count .taken = min s.requests (events.count .taken + events.count .refused) := by
  obtain ⟨hbudget, hspent⟩ := h.budget
  by_cases hrefused : .refused ∈ events
  · have hzero := hspent hrefused
    omega
  · have hnone := List.count_eq_zero.2 hrefused
    omega

theorem Reached.all (h : Reached s events l) (hfinished : l.Finished)
    (hcalledOff : .calledOff ∉ events) : (Report.sum l.tallies).sent = s.requests := by
  have habandoned : .abandoned ∉ events := fun hmem => hcalledOff (h.calledOff.2 hmem)
  -- there is a worker, and it was refused
  have hrefused : .refused ∈ events := by
    have hworkers := h.workers
    obtain ⟨w, hw⟩ := List.exists_mem_of_length_pos (l := l.workers) (by omega)
    exact (h.done w hw (hfinished w hw)).resolve_right habandoned
  have hunderway : l.underway = 0 := by
    rw [underway, List.countP_eq_zero]
    intro w hw
    rw [hfinished w hw]
    decide
  obtain ⟨hbudget, hspent⟩ := h.budget
  have hzero := hspent hrefused
  have hbalance := h.balance
  have hnone := List.count_eq_zero.2 habandoned
  rw [h.sent]
  omega

theorem Reached.accounted (h : Reached s events l) (elapsed : Nat) :
    Accounted s events l elapsed := by
  have hbalanced : ∀ t ∈ l.tallies, t.Balanced := fun t ht => (h.tally t ht).2
  have horder : ∀ ts, ts.Perm l.tallies → Report.sum ts = Report.sum l.tallies :=
    fun _ hperm => Report.sum_perm hperm
  refine
    { workers := h.workers
      budget := h.budget.1
      taken := h.taken
      sent_le := ?_
      sent := ?_
      balanced := ?_
      errors := ?_
      classes := ?_
      all := ?_
      order := fun ts hts => ?_
      fits := fun hword ts hts => ?_
      steps := Nat.le_trans (Nat.le_add_left _ _) h.steps }
  · rw [report_eq]
    exact h.sent_le
  · rw [report_eq]
    exact h.sent
  · rw [report_eq]
    exact Report.balanced_sum hbalanced
  · rw [report_eq]
    exact h.errors
  · rw [report_eq]
    exact h.classes
  · rw [report_eq]
    exact h.all
  · rw [report_eq, horder ts hts]
  · refine Report.sum?_eq_some (fun t ht => hbalanced t (hts.mem_iff.1 ht)) ?_
    rw [horder ts hts]
    exact Nat.lt_of_le_of_lt h.sent_le hword

/-! ## Workers that take turns -/

/-- A worker's turns with one request. -/
def round (s : Settings) (calledOff : Bool) (reply : Nat → Reply) (k : Nat) : List Turn :=
  let i := k % max s.concurrency 1
  [.take i, if calledOff then .giveUp i else .answer i (reply k)]

/-- The turns of a load whose workers take turns. -/
def rota (s : Settings) (calledOff : Bool) (reply : Nat → Reply) : List Turn :=
  (if calledOff then [.callOff] else []) ++
    (List.range s.requests).flatMap (round s calledOff reply)

theorem run_eq (s : Settings) (calledOff : Bool) (reply : Nat → Reply) (elapsed : Nat) :
    run s calledOff reply elapsed =
      ((start s).after (rota s calledOff reply)).report elapsed := by
  rw [rota, after, List.foldl_append, List.foldl_flatMap]
  cases calledOff <;> rfl

variable {tally : Report} {reply : Nat → Reply}

theorem take_idle (hw : l.workers[i]? = some ⟨.idle, tally⟩) (hbudget : l.budget = n + 1) :
    l.take i = { l with budget := n, workers := l.workers.set i ⟨.sending, tally⟩ } := by
  simp [take, hw, takeOne, hbudget]

/-- A load that is not called off has all its workers idle after each round. -/
theorem after_rounds (s : Settings) (reply : Nat → Reply) (hn : n ≤ s.requests) :
    let l := (start s).after ((List.range n).flatMap (round s false reply))
    l.budget = s.requests - n ∧ ∀ w ∈ l.workers, w.phase = .idle := by
  induction n with
  | zero => exact ⟨rfl, fun w hw => by rw [List.eq_of_mem_replicate hw]; rfl⟩
  | succ n ih =>
      obtain ⟨hbudget, hidle⟩ := ih (Nat.le_of_succ_le hn)
      have hlength := (reached_after s ((List.range n).flatMap (round s false reply))).workers
      rw [List.range_succ, List.flatMap_append, List.flatMap_singleton, after_append]
      generalize (start s).after ((List.range n).flatMap (round s false reply)) = l at *
      have hi : n % max s.concurrency 1 < l.workers.length := by
        rw [hlength]
        exact Nat.mod_lt n (by omega)
      obtain ⟨tally, hw⟩ : ∃ tally, l.workers[n % max s.concurrency 1]? = some ⟨.idle, tally⟩ := by
        have hphase := hidle _ (List.getElem_mem hi)
        refine ⟨l.workers[n % max s.concurrency 1].tally, ?_⟩
        rw [List.getElem?_eq_getElem hi, ← hphase]
      have hround : l.after (round s false reply n) =
          { l with
            budget := s.requests - (n + 1)
            workers := l.workers.set (n % max s.concurrency 1)
              ⟨.idle, Worker.count tally (reply n)⟩ } := by
        have htake := take_idle hw (n := s.requests - (n + 1)) (by omega)
        simp [round, after, turn, htake, answer, hi]
      rw [hround]
      refine ⟨rfl, fun w hw' => ?_⟩
      rcases List.mem_or_eq_of_mem_set hw' with hw' | rfl
      · exact hidle w hw'
      · rfl

/-- A load that was called off at the start has its workers done one after the other. -/
theorem after_rounds_calledOff (s : Settings) (reply : Nat → Reply) (hn : n ≤ s.requests) :
    let l := (start s).callOff.after ((List.range n).flatMap (round s true reply))
    l.calledOff = true ∧ l.budget = s.requests - min n (max s.concurrency 1) ∧
      ∀ i w, l.workers[i]? = some w → w.phase = if i < n then .done else .idle := by
  induction n with
  | zero =>
      refine ⟨rfl, rfl, fun i w hw => ?_⟩
      rw [List.eq_of_mem_replicate (List.mem_of_getElem? hw)]
      rfl
  | succ n ih =>
      obtain ⟨hoff, hbudget, hphase⟩ := ih (Nat.le_of_succ_le hn)
      have hlength : ((start s).callOff.after
          ((List.range n).flatMap (round s true reply))).workers.length = max s.concurrency 1 :=
        (reached_after s (.callOff :: (List.range n).flatMap (round s true reply))).workers
      rw [List.range_succ, List.flatMap_append, List.flatMap_singleton, after_append]
      generalize (start s).callOff.after ((List.range n).flatMap (round s true reply)) = l at *
      by_cases hlt : n < max s.concurrency 1
      · -- the worker has its first turn
        obtain ⟨⟨phase, tally⟩, hw⟩ : ∃ w, l.workers[n]? = some w :=
          ⟨_, List.getElem?_eq_getElem (by omega)⟩
        obtain rfl : phase = .idle := by simpa using hphase n _ hw
        have hround : l.after (round s true reply n) =
            { l with
              budget := s.requests - (n + 1)
              workers := l.workers.set n ⟨.done, tally⟩ } := by
          have htake := take_idle hw (n := s.requests - (n + 1)) (by omega)
          have hn : n < l.workers.length := by omega
          simp [round, after, turn, Nat.mod_eq_of_lt hlt, htake, giveUp, hoff, hn]
        rw [hround]
        refine ⟨hoff, by rw [Nat.min_eq_left hlt], fun i w hi => ?_⟩
        rw [List.getElem?_set] at hi
        split at hi
        · split at hi
          · obtain rfl := Option.some.inj hi
            rw [if_pos (by omega)]
          · cases hi
        · rw [hphase i w hi]
          simp only [show i < n + 1 ↔ i < n by omega]
      · -- all workers are done
        have hdone : ∀ (i : Nat) (w : Worker), l.workers[i]? = some w → w.phase = .done := by
          intro i w hi
          have hlt := (List.getElem?_eq_some_iff.1 hi).1
          rw [hphase i w hi, if_pos (by omega)]
        have hsame : l.after (round s true reply n) = l := by
          rcases hw : l.workers[n % max s.concurrency 1]? with - | ⟨phase, tally⟩
          · simp [round, after, turn, take, giveUp, hw]
          · obtain rfl : phase = .done := hdone _ _ hw
            simp [round, after, turn, take, giveUp, hw]
        rw [hsame]
        refine ⟨hoff, by rw [hbudget, Nat.min_eq_right (by omega), Nat.min_eq_right (by omega)],
          fun i w hi => ?_⟩
        have hlt := (List.getElem?_eq_some_iff.1 hi).1
        rw [hdone i w hi, if_pos (by omega)]

theorem callOff_notMem_round (s : Settings) (reply : Nat → Reply) (k : Nat) :
    .callOff ∉ round s false reply k := by
  simp [round]

/-- A load whose workers take turns is a run like any other, brought to its end. -/
theorem exists_turns_run (s : Settings) (calledOff : Bool) (reply : Nat → Reply) (elapsed : Nat) :
    ∃ turns, ((start s).after turns).Finished ∧
      run s calledOff reply elapsed = ((start s).after turns).report elapsed ∧
        (calledOff = false → .calledOff ∉ (start s).log turns) := by
  have hend : ∃ turns, (((start s).after (rota s calledOff reply)).after turns).Finished ∧
      (((start s).after (rota s calledOff reply)).after turns).tallies =
        ((start s).after (rota s calledOff reply)).tallies ∧
      ∀ a ∈ turns, a.worker?.isSome = true := by
    cases calledOff with
    | false =>
        obtain ⟨hbudget, hidle⟩ := after_rounds s reply (Nat.le_refl s.requests)
        rw [Nat.sub_self] at hbudget
        exact Spent.exists_finished ⟨hbudget, fun w hw => by simp [hidle w hw]⟩
    | true =>
        obtain ⟨-, hbudget, hphase⟩ := after_rounds_calledOff s reply (Nat.le_refl s.requests)
        have hworkers := (reached_after s (rota s true reply)).workers
        by_cases hle : s.requests ≤ max s.concurrency 1
        · rw [Nat.min_eq_left hle, Nat.sub_self] at hbudget
          refine Spent.exists_finished ⟨hbudget, fun w hw => ?_⟩
          obtain ⟨i, hi⟩ := List.mem_iff_getElem?.1 hw
          rw [hphase i w hi]
          split <;> nofun
        · refine ⟨[], fun w hw => ?_, rfl, nofun⟩
          obtain ⟨i, hi⟩ := List.mem_iff_getElem?.1 hw
          have hlt := (List.getElem?_eq_some_iff.1 hi).1
          rw [hphase i w hi, if_pos]
          change i < ((start s).after (rota s true reply)).workers.length at hlt
          omega
  obtain ⟨turns, hfinished, htallies, hworkers⟩ := hend
  refine ⟨rota s calledOff reply ++ turns, ?_, ?_, ?_⟩
  · rwa [after_append]
  · rw [run_eq, after_append, report_eq, report_eq, htallies]
  · rintro rfl hmem
    rcases List.mem_append.1 (calledOff_mem_log_iff.1 hmem) with hmem | hmem
    · obtain ⟨k, -, hk⟩ := List.mem_flatMap.1 hmem
      exact callOff_notMem_round s reply k hk
    · exact absurd (hworkers _ hmem) nofun

/-- Whatever turns the workers take, whatever becomes of their requests and whenever the load
is called off: what is taken, sent and counted is accounted for. The load can always be brought
to its end, and any fair schedule does so. -/
theorem load_spends_its_budget_exactly (s : Settings) :
    (∀ turns elapsed, Accounted s ((start s).log turns) ((start s).after turns) elapsed) ∧
      (∀ turns, ∃ more, ((start s).after (turns ++ more)).Finished ∧ .callOff ∉ more) ∧
      ((∃ schedule, (start s).Fair schedule) ∧ ∀ schedule, (start s).Fair schedule →
        ∃ n, ∀ m, n ≤ m → ((start s).upTo schedule m).Finished) ∧
      ∀ calledOff reply elapsed, ∃ turns, ((start s).after turns).Finished ∧
        run s calledOff reply elapsed = ((start s).after turns).report elapsed ∧
          (calledOff = false → .calledOff ∉ (start s).log turns) := by
  refine ⟨fun turns elapsed => (reached_after s turns).accounted elapsed, fun turns => ?_,
    ⟨exists_fair _, fun _ => finished_of_fair⟩, exists_turns_run s⟩
  obtain ⟨more, hfinished, hworkers⟩ := exists_finished ((start s).after turns)
  refine ⟨more, by rwa [after_append], fun hmem => ?_⟩
  exact absurd (hworkers _ hmem) nofun

example : run ⟨2, 5, "GET", "/", "", ""⟩ false (fun _ => .status 200) 7 = ⟨5, [(2, 5)], 0, 7⟩ := by
  decide

end Load

end ClusterConsole.Benchmark
