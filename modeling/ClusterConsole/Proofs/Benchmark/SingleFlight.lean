import ClusterConsole.Proofs.Background.Queueing
import ClusterConsole.Proofs.Benchmark.Bookkeeping

/-!
# One benchmark at a time

`OneAtATime` gathers what holds of a series at every moment of every run: when a
benchmark may be started, how the slot stands, that no two benchmarks are going on
that were not called off, and what their completions do. `Tells` says what a run has
put into the queue: the completion of each benchmark, once. The queue is what is read;
that `told` keeps the same is a lemma (`told_eq_queued`).
-/

namespace ClusterConsole.Benchmark

open ClusterConsole.Background (Queueing)
open ClusterConsole.Status
open ClusterConsole.Storage (Files)

def Word.completion? : Word → Option Completion
  | completion c => some c
  | holdOver _ => none

/-- The place in the queue that an act empties. -/
def Act.place? : Act → Option Nat
  | .hear i => some i
  | _ => none

theorem Act.eq_hear_of_place? {a : Act} {i : Nat} (h : a.place? = some i) : a = .hear i := by
  cases a <;> cases h
  rfl

namespace Series

variable {x : Series} {t : Trial} {k : Nat} {c : Completion}

/-- The queue of a series; a word leaves it when it is heard. -/
def queueing : Queueing Series Act Word where
  act := act
  waiting := queue
  cut a := Queueing.pick a.place?

/-- The benchmark in the slot, if the act is a cancellation that says it has called it off. -/
def cancellation (x : Series) : Act → List Nat
  | .cancel => if x.runner.cancel.2 then (x.runner.slot.map Session.id).toList else []
  | _ => []

/-- The benchmarks that were called off by cancellations, in order. -/
def cancellations (x : Series) (acts : List Act) : List Nat :=
  (queueing.course x acts).flatMap fun p => p.1.cancellation p.2

structure OneAtATime (x : Series) : Prop where
  /-- A benchmark is started unless one is running. -/
  accepted : ∀ now target, (∃ r id, x.runner.run now target = .ok (r, id)) ↔
    ∀ s, x.runner.slot = some s → s.phase ≠ .running
  rejected : ∀ now target e, x.runner.run now target = .error e → x.run now target = x ∧
    ∃ s, x.runner.slot = some s ∧ s.phase = .running ∧ e = .alreadyBenchmarking s.target
  /-- What is started is one more benchmark, and it has the slot. -/
  started : ∀ now target r id, x.runner.run now target = .ok (r, id) →
    (x.run now target).runner = r ∧
      (x.run now target).trials = x.trials ++ [⟨id, target, .fresh⟩] ∧
      ∃ s, r.slot = some s ∧ s.id = id ∧ s.phase = .running
  increasing : (x.trials.map Trial.id).Pairwise (· < ·)
  slot : ∀ s, x.runner.slot = some s → s.phase = .running ∨ s.phase = .canceled
  /-- All that were started are called off, but for the one that is running. -/
  others : ∀ t ∈ x.trials, x.runner.isCalledOff t.id = false →
    ∃ s, x.runner.slot = some s ∧ s.phase = .running ∧ s.id = t.id
  alone : ∀ t ∈ x.trials, ∀ u ∈ x.trials, x.runner.isCalledOff t.id = false →
    x.runner.isCalledOff u.id = false → t = u
  /-- A completion that does not own the slot does and says nothing. -/
  stale : ∀ c, (∀ s, x.runner.slot = some s → s.id ≠ c.id) →
    x.runner.applyCompletion c = (x.runner, none) ∧
      ∀ i : Nat, x.queue[i]? = some (.completion c) →
        x.hear i = { x with queue := x.queue.eraseIdx i }
  /-- The completion of the owner empties the slot and is shown. -/
  owner : ∀ c s, x.runner.slot = some s → s.id = c.id →
    (x.runner.applyCompletion c).1.slot = none ∧
      (x.runner.applyCompletion c).2 = some c.notice ∧
      ∀ i : Nat, x.queue[i]? = some (.completion c) → (x.hear i).line = Line.ofNotice c.notice

/-- What the benchmarks of a run put into its queue. -/
structure Tells (directory : Option String) (acts : List Act) : Prop where
  /-- What was queued was heard or is waiting, each word as often as it was queued, -/
  kept : (queueing.taken (empty directory) acts ++ ((empty directory).after acts).queue).Perm
    (queueing.queued (empty directory) acts)
  /-- the waiting ones in the order in which they were queued, -/
  order : ((empty directory).after acts).queue.Sublist (queueing.queued (empty directory) acts)
  /-- and the others too, if the first of those that wait is always heard first. -/
  fifo : (∀ i, .hear i ∈ acts → i = 0) →
    queueing.taken (empty directory) acts ++ ((empty directory).after acts).queue =
      queueing.queued (empty directory) acts
  /-- A completion is that of a benchmark that was started, and no benchmark has two. -/
  source : ∀ c, .completion c ∈ queueing.queued (empty directory) acts →
    ∃ t ∈ ((empty directory).after acts).trials, t.id = c.id
  once : (((queueing.queued (empty directory) acts).filterMap Word.completion?).map
    Completion.id).Nodup
  /-- A benchmark that takes its steps while the queue takes words queues its completion,
  whatever the load comes to and whatever else happens meanwhile. -/
  told : ∀ (k : Nat) (t : Trial), ((empty directory).after acts).trials[k]? = some t →
    ∀ result files time (l₁ l₂ l₃ l₄ : List Act),
      ((empty directory).after
        (acts ++ (l₁ ++ .load k result :: l₂ ++ .read k :: l₃))).listening = true →
      (((queueing.queued (empty directory) (acts ++ (l₁ ++ .load k result :: l₂ ++
        .read k :: l₃ ++ .tell k files time :: l₄))).filterMap Word.completion?).map
          Completion.id).count t.id = 1
  /-- No benchmark is called off twice by the operator. -/
  canceled : (cancellations (empty directory) acts).Nodup

/-! ## What the queue has taken -/

/-- An act leaves the words that it does not hear where they are, and puts in those
completions that it tells. -/
theorem exists_queued_act (x : Series) (a : Act) :
    ∃ l, (x.act a).queue = (queueing.cut a x.queue).2 ++ l ∧
      (x.act a).told = x.told ++ l.filterMap Word.completion? := by
  have hnone (h : (x.act a).queue = (queueing.cut a x.queue).2 ∧ (x.act a).told = x.told) :
      ∃ l, (x.act a).queue = (queueing.cut a x.queue).2 ++ l ∧
        (x.act a).told = x.told ++ l.filterMap Word.completion? :=
    ⟨[], by rw [h.1, List.append_nil], by rw [h.2, List.filterMap_nil, List.append_nil]⟩
  cases a with
  | run now target =>
      refine hnone ?_
      rw [act, run]
      split <;> exact ⟨rfl, rfl⟩
  | reload files path =>
      refine hnone ?_
      rw [act, reload]
      split <;> exact ⟨rfl, rfl⟩
  | tell k files time =>
      cases h : x.trials[k]?.bind fun t => t.complete? files x.runner.directory time with
      | none =>
          refine hnone ?_
          rw [act, tell, h]
          exact ⟨rfl, rfl⟩
      | some p =>
          cases hl : x.listening with
          | true =>
              refine ⟨[.completion p.2], ?_⟩
              simp only [act, tell, h, push, onTrial, hl, if_true]
              exact ⟨rfl, rfl⟩
          | false =>
              refine hnone ?_
              simp only [act, tell, h, push, onTrial, hl, Bool.false_eq_true, if_false, and_true]
              rfl
  | release k =>
      cases h : x.trials[k]?.bind fun t => t.release.2 with
      | none =>
          refine hnone ?_
          rw [act, release, h]
          exact ⟨rfl, rfl⟩
      | some message =>
          cases hl : x.listening with
          | true =>
              refine ⟨[.holdOver message], ?_⟩
              simp only [act, release, h, push, onTrial, hl, if_true]
              exact ⟨rfl, (List.append_nil _).symm⟩
          | false =>
              refine hnone ?_
              simp only [act, release, h, push, onTrial, hl, Bool.false_eq_true, if_false, and_true]
              rfl
  | hear i =>
      refine hnone ?_
      rw [act, hear]
      cases hi : x.queue[i]? with
      | none =>
          have hlength := List.getElem?_eq_none_iff.1 hi
          exact ⟨(List.eraseIdx_of_length_le hlength).symm, rfl⟩
      | some word =>
          cases word with
          | completion c => exact ⟨rfl, rfl⟩
          | holdOver message =>
              dsimp only
              split <;> exact ⟨rfl, rfl⟩
  | _ => exact hnone ⟨rfl, rfl⟩

theorem queueing_keeps : queueing.Keeps where
  whole a := Queueing.perm_pick a.place?
  order a := Queueing.sublist_pick a.place?
  behind x a := by
    obtain ⟨l, hqueue, -⟩ := x.exists_queued_act a
    exact ⟨l, hqueue.symm⟩

/-- The completions that were ever told are those that were put into the queue. -/
theorem told_eq_queued (directory : Option String) (acts : List Act) :
    ((empty directory).after acts).told =
      (queueing.queued (empty directory) acts).filterMap Word.completion? := by
  have hact (x : Series) (a : Act) :
      told (queueing.act x a) = told x ++ (queueing.queuedBy x a).filterMap Word.completion? := by
    obtain ⟨l, hqueue, htold⟩ := x.exists_queued_act a
    rw [Queueing.queuedBy_eq hqueue]
    exact htold
  exact Queueing.gather_run hact (empty directory) acts

theorem canceled_act (x : Series) (a : Act) :
    (x.act a).canceled = x.canceled ++ x.cancellation a := by
  cases a with
  | cancel => rfl
  | run now target =>
      simp only [act, run, cancellation, List.append_nil]
      split <;> rfl
  | reload files path =>
      simp only [act, reload, cancellation, List.append_nil]
      split <;> rfl
  | tell k files time =>
      simp only [act, tell, push, cancellation, List.append_nil]
      split
      · rfl
      · split <;> rfl
  | release k =>
      simp only [act, release, push, cancellation, List.append_nil]
      split
      · rfl
      · split <;> rfl
  | hear i =>
      simp only [act, hear, cancellation, List.append_nil]
      split
      · rfl
      · split
        · rfl
        · split <;> rfl
  | _ => exact (List.append_nil _).symm

theorem canceled_after (x : Series) (acts : List Act) :
    (x.after acts).canceled = x.canceled ++ cancellations x acts := by
  induction acts generalizing x with
  | nil => exact (List.append_nil _).symm
  | cons a acts ih =>
      refine (ih (x.act a)).trans ?_
      rw [canceled_act, List.append_assoc]
      rfl

/-! ## Every benchmark tells of its end -/

theorem exists_rank_load (ht : x.trials[k]? = some t) (result : Except Chain Report)
    (acts : List Act) : ∃ t', (x.after (.load k result :: acts)).trials[k]? = some t' ∧
      t'.id = t.id ∧ 1 ≤ t'.rank := by
  have hload : (x.act (.load k result)).trials[k]? = some (t.finish result) := by
    simp only [act, getElem?_onTrial, ht, Option.map_some, if_true]
  obtain ⟨t', ht', hlater⟩ := exists_later_after hload acts
  refine ⟨t', ht', hlater.id.trans (t.id_finish result), ?_⟩
  have hrank := hlater.rank
  rw [Trial.rank_finish] at hrank
  omega

theorem exists_rank_read (ht : x.trials[k]? = some t) (hrank : 1 ≤ t.rank)
    (acts : List Act) : ∃ t', (x.after (.read k :: acts)).trials[k]? = some t' ∧
      t'.id = t.id ∧ 2 ≤ t'.rank := by
  have hread : (x.act (.read k)).trials[k]? =
      some (t.read (x.runner.isCalledOff t.id)) := by
    simp only [act, read, getElem?_onTrial, ht, Option.map_some, if_true]
  obtain ⟨t', ht', hlater⟩ := exists_later_after hread acts
  refine ⟨t', ht', hlater.id.trans (t.id_read _), ?_⟩
  have hle := hlater.rank
  rw [Trial.rank_read] at hle
  split at hle <;> omega

/-- A benchmark whose token was read has told its completion after its next step. -/
theorem Sound.id_mem_told (h : x.Sound) (ht : x.trials[k]? = some t) (hrank : 2 ≤ t.rank)
    (hl : x.listening = true) (files : Files) (time : Time.Moment) :
    t.id ∈ (x.tell k files time).told.map Completion.id := by
  by_cases hover : t.Over
  · have hmem := h.told hl t (List.mem_of_getElem? ht) hover
    exact ((x.told_act (.tell k files time)).map Completion.id).subset hmem
  · have htwo : t.rank = 2 := by
      rw [Trial.Over] at hover
      omega
    obtain ⟨p, hp⟩ := Trial.complete?_isSome htwo
    have hbind : (x.trials[k]?.bind fun t => t.complete? files x.runner.directory time) =
        some p := by rw [ht, Option.bind_some, hp]
    have hid := (Trial.complete?_eq_some hp).2
    simp only [Series.tell, hbind, Series.push, Series.onTrial, hl, if_true, List.map_append]
    exact List.mem_append_right _ (List.mem_singleton.2 hid.symm)

theorem Sound.count_told (h : x.Sound) (ht : x.trials[k]? = some t)
    (result : Except Chain Report) (files : Files) (time : Time.Moment) (l₁ l₂ l₃ l₄ : List Act)
    (hl : (x.after (l₁ ++ .load k result :: l₂ ++ .read k :: l₃)).listening = true) :
    ((x.after (l₁ ++ .load k result :: l₂ ++ .read k :: l₃ ++
      .tell k files time :: l₄)).told.map Completion.id).count t.id = 1 := by
  -- `t₁` is about to end its load, `t₂` to read its token, `t₃` to tell its completion
  obtain ⟨t₁, ht₁, hlater⟩ := exists_later_after ht l₁
  obtain ⟨t₂, ht₂, hid₂, hrank₂⟩ := exists_rank_load ht₁ result l₂
  rw [← after_append] at ht₂
  obtain ⟨t₃, ht₃, hid₃, hrank₃⟩ := exists_rank_read ht₂ hrank₂ l₃
  rw [← after_append] at ht₃
  have hid : t₃.id = t.id := by rw [hid₃, hid₂, hlater.id]
  have htold := (h.after _).id_mem_told ht₃ hrank₃ hl files time
  have hprefix := (((x.after (l₁ ++ .load k result :: l₂ ++ .read k :: l₃)).tell
    k files time).told_after l₄).map Completion.id
  have hmem := hprefix.subset htold
  rw [hid] at hmem
  rw [after_append]
  have hnodup := ((h.after (l₁ ++ .load k result :: l₂ ++ .read k :: l₃)).after
    (.tell k files time :: l₄)).nodup
  exact List.count_eq_one_of_mem hnodup hmem

/-! ## Every run -/

/-- No two benchmarks are going on that were not called off. -/
theorem Sound.alone (h : x.Sound) {u : Trial} (ht : t ∈ x.trials) (hu : u ∈ x.trials)
    (hofft : x.runner.isCalledOff t.id = false) (hoffu : x.runner.isCalledOff u.id = false) :
    t = u := by
  refine h.eq_of_id ht hu ?_
  exact h.sole.eq_of_not_calledOff (List.mem_map_of_mem ht) (List.mem_map_of_mem hu) hofft hoffu

theorem Sound.oneAtATime (h : x.Sound) : x.OneAtATime where
  accepted now target := by
    rw [← Runner.running?_eq_none_iff]
    constructor
    · rintro ⟨r, id, hrun⟩
      exact (Runner.run_eq_ok_iff.1 hrun).1
    · intro hnone
      exact ⟨_, _, Runner.run_eq_ok_iff.2 ⟨hnone, rfl, rfl⟩⟩
  rejected now target e he := by
    obtain ⟨s, hs, htarget⟩ := Runner.run_eq_error_iff.1 he
    obtain ⟨hslot, hphase⟩ := Runner.running?_eq_some_iff.1 hs
    exact ⟨by simp [Series.run, he], s, hslot, hphase, htarget⟩
  started now target r id hrun := by
    obtain ⟨-, rfl, rfl⟩ := Runner.run_eq_ok_iff.1 hrun
    refine ⟨by simp [Series.run, hrun], by simp [Series.run, hrun], _, rfl, rfl, rfl⟩
  increasing := h.sole.increasing
  slot s hs := (h.sole.slot s hs).2
  others t ht hoff := by
    refine h.sole.others t.id (List.mem_map_of_mem ht) fun hmem => ?_
    simp [Runner.isCalledOff, hmem] at hoff
  alone t ht u hu hofft hoffu := h.alone ht hu hofft hoffu
  stale c hc := by
    have happly := Runner.applyCompletion_of_ne hc
    refine ⟨happly, fun i hi => ?_⟩
    simp [Series.hear, hi, happly, flash?]
  owner c s hs hid := by
    have happly := Runner.applyCompletion_of_eq hs hid
    refine ⟨by rw [happly], by rw [happly], fun i hi => ?_⟩
    simp [Series.hear, hi, happly, flash?]

theorem tells (directory : Option String) (acts : List Act) : Tells directory acts where
  kept := queueing_keeps.perm (empty directory) acts
  order := queueing_keeps.sublist (empty directory) acts
  fifo hfront := queueing_keeps.fifo fun a ha =>
    Queueing.append_pick fun i hi => hfront i (Act.eq_hear_of_place? hi ▸ ha)
  source c hc := by
    have hmem : c ∈ ((empty directory).after acts).told := by
      rw [told_eq_queued]
      exact List.mem_filterMap.2 ⟨_, hc, rfl⟩
    obtain ⟨t, ht, hid, -⟩ := ((Sound.empty directory).after acts).ofTrial c hmem
    exact ⟨t, ht, hid⟩
  once := by
    rw [← told_eq_queued]
    exact ((Sound.empty directory).after acts).nodup
  told k t ht result files time l₁ l₂ l₃ l₄ hl := by
    rw [after_append] at hl
    rw [← told_eq_queued, after_append]
    exact ((Sound.empty directory).after acts).count_told ht result files time l₁ l₂ l₃ l₄ hl
  canceled := by
    have hcanceled := canceled_after (empty directory) acts
    rw [← List.nil_append (cancellations (empty directory) acts)]
    exact hcanceled ▸ ((Sound.empty directory).after acts).canceled

/-- At every moment of every run there is one benchmark at a time, and each tells its
completion once. -/
theorem benchmarks_run_one_at_a_time (directory : Option String) (acts : List Act) :
    ((empty directory).after acts).OneAtATime ∧ Tells directory acts :=
  ⟨((Sound.empty directory).after acts).oneAtATime, tells directory acts⟩

end Series

end ClusterConsole.Benchmark
