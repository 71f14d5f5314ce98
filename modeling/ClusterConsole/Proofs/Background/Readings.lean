import ClusterConsole.Proofs.Background.Lookout
import ClusterConsole.Proofs.Background.Queueing
import Mathlib.Data.List.Induction

/-!
# The readings that a lookout queues

What the loop of a lookout puts into the queue is read off the queue (`byLoop`), and so is
what the owner reads (`Reads`). Each act of a run has added to the log what it did, so
what the log says of the run can be found again among its acts (`exists_of_trace`): where
a reading is said to be asked for, the loop has queued one, and where the file is said to be
read, the owner has heard a job that reads it. `Vigilant` gathers what follows.
-/

namespace ClusterConsole.Background

open ClusterConsole.Storage (Watch)

namespace Lookout

variable {σ : Type} {x x₀ : Lookout σ} {a : Act} {acts : List Act} {s : Surroundings} {e : Event}

/-! ## The queue -/

/-- The owner takes the first job; what waits when the queue is closed is lost. -/
def cut : Act → List (Job News) → List (Job News) × List (Job News)
  | .hear => Queueing.pick (some 0)
  | .close => fun l => (l, [])
  | _ => Queueing.pick none

def queueing : Queueing (Lookout σ) Act (Job News) := ⟨act, fun x => x.queue.waiting, cut⟩

/-- What an act puts into the queue, if it is the loop that acts. -/
def queuedByLoop (x : Lookout σ) (a : Act) : List (Job News) :=
  if a.ofLoop then queueing.queuedBy x a else []

/-- What the loop puts into the queue in some acts, in order. -/
def byLoop (x : Lookout σ) (acts : List Act) : List (Job News) :=
  (queueing.course x acts).flatMap fun p => p.1.queuedByLoop p.2

/-- The next job that is heard has the owner read the file. -/
def Reads (x : Lookout σ) : Prop :=
  ∃ job rest, x.queue.waiting = job :: rest ∧ job.act.reads x.file = true

/-- The loop wakes up. -/
def wakesUp (x : Lookout σ) : Act → Bool
  | .receive => x.station = .waiting ∧ x.watch.arrived ≠ []
  | _ => false

/-- How often the loop wakes up in some acts. -/
def wakings (x : Lookout σ) (acts : List Act) : Nat :=
  (queueing.course x acts).countP fun p => p.1.wakesUp p.2

def arrivedIn (acts : List Act) : List (List String) :=
  acts.filterMap fun
    | .arrive paths => some paths
    | _ => none

instance (file : String) (paths : List String) : Decidable (Counts file paths) :=
  decidable_of_iff _ hits_iff

/-- The loop asks for a reading and is not refused. -/
def asks (x : Lookout σ) : Act → Bool
  | .conclude => x.station = .gathered true ∧ x.queue.closed = false
  | _ => false

theorem queue_receive (x : Lookout σ) : x.receive.queue = x.queue := by
  unfold receive
  split <;> rfl

theorem queue_poll (x : Lookout σ) : x.poll.queue = x.queue := by
  unfold poll
  split <;> rfl

theorem queue_quit (x : Lookout σ) : x.quit.queue = x.queue := by
  unfold quit
  split <;> rfl

theorem conclude_of_asks (h : x.asks .conclude = true) : x.conclude =
    { x.settle true with
      station := .waiting
      queue := { x.queue with waiting := x.queue.waiting ++ [x.reading] }
      log := .asked :: x.log } := by
  simp only [asks, decide_eq_true_eq] at h
  simp [conclude, h.1, h.2, Queue.push]

theorem conclude_of_not_asks (h : x.asks .conclude = false) :
    x.conclude.queue = x.queue ∧ x.conclude.log = x.log := by
  unfold conclude
  split
  · rename_i hs
    have hclosed : x.queue.closed = true := by simpa [asks, hs] using h
    simp [Queue.push, hclosed, settle]
  · exact ⟨rfl, rfl⟩
  · exact ⟨rfl, rfl⟩

theorem waiting_conclude (x : Lookout σ) : x.conclude.queue.waiting =
    x.queue.waiting ++ if x.asks .conclude then [x.reading] else [] := by
  cases h : x.asks .conclude with
  | true => rw [conclude_of_asks h, if_pos rfl]
  | false => rw [(conclude_of_not_asks h).1, if_neg Bool.false_ne_true, List.append_nil]

theorem queuedByLoop_eq (x : Lookout σ) (a : Act) :
    x.queuedByLoop a = if x.asks a then [x.reading] else [] := by
  have hkept (h : (x.act a).queue = x.queue) (hcut : cut a = Queueing.pick none) :
      queueing.queuedBy x a = [] := by
    refine Queueing.queuedBy_eq ?_
    change (x.act a).queue.waiting = (cut a x.queue.waiting).2 ++ []
    rw [h, hcut, List.append_nil]
    rfl
  cases a with
  | receive => exact hkept x.queue_receive rfl
  | poll => exact hkept x.queue_poll rfl
  | quit => exact hkept x.queue_quit rfl
  | conclude => exact Queueing.queuedBy_eq x.waiting_conclude
  | _ => rfl

theorem queueing_keeps : (queueing : Queueing (Lookout σ) Act (Job News)).Keeps where
  whole a l := by
    cases a with
    | hear => exact Queueing.perm_pick _ l
    | close => exact List.Perm.of_eq (List.append_nil l)
    | _ => exact Queueing.perm_pick none l
  order a l := by
    cases a with
    | hear => exact Queueing.sublist_pick _ l
    | close => exact List.nil_sublist l
    | _ => exact Queueing.sublist_pick none l
  behind x a := by
    have hkept (h : (x.act a).queue = x.queue) (hcut : cut a = Queueing.pick none) :
        (cut a x.queue.waiting).2 <+: (x.act a).queue.waiting := by
      rw [h, hcut]
      exact List.prefix_rfl
    cases a with
    | receive => exact hkept x.queue_receive rfl
    | poll => exact hkept x.queue_poll rfl
    | quit => exact hkept x.queue_quit rfl
    | conclude => exact ⟨_, x.waiting_conclude.symm⟩
    | hear =>
        change x.queue.waiting.eraseIdx 0 <+: x.hear.queue.waiting
        cases hwaiting : x.queue.waiting with
        | nil => exact List.nil_prefix
        | cons job rest =>
            simp only [hear, Queue.step?, hwaiting]
            exact List.prefix_append rest job.later
    | post job =>
        simp only [queueing, cut, Queueing.pick, act, Queue.push]
        split
        · exact List.prefix_rfl
        · exact List.prefix_append _ _
    | close => exact List.nil_prefix
    | _ => exact hkept rfl rfl

/-! ## The log and the acts -/

/-- What an act adds to the log. -/
def logged (x : Lookout σ) : Act → List Event
  | .arrive paths => [.arrived paths]
  | .conclude => if x.asks .conclude then [.asked] else []
  | .hear => x.entry
  | .turn s => [.turned s]
  | _ => []

theorem log_act (x : Lookout σ) (a : Act) : (x.act a).log = x.logged a ++ x.log := by
  cases a with
  | receive =>
      simp only [act, receive]
      split <;> rfl
  | poll =>
      simp only [act, poll]
      split <;> rfl
  | conclude =>
      rw [act, logged]
      cases h : x.asks .conclude with
      | true =>
          rw [conclude_of_asks h]
          rfl
      | false => exact (conclude_of_not_asks h).2
  | quit =>
      simp only [act, quit]
      split <;> rfl
  | hear =>
      simp only [act, hear, logged, entry, Queue.step?]
      cases x.queue.waiting <;> rfl
  | _ => rfl

/-- What the acts of a run add to the log, the last first. -/
def trace (x : Lookout σ) (acts : List Act) : List Event :=
  (queueing.course x acts).reverse.flatMap fun p => p.1.logged p.2

theorem trace_cons (x : Lookout σ) (a : Act) (acts : List Act) :
    x.trace (a :: acts) = (x.act a).trace acts ++ x.logged a := by
  rw [trace, Queueing.course, List.reverse_cons, List.flatMap_append, List.flatMap_singleton]
  rfl

theorem log_after (x : Lookout σ) (acts : List Act) :
    (x.after acts).log = x.trace acts ++ x.log := by
  induction acts generalizing x with
  | nil => rfl
  | cons a acts ih =>
      rw [trace_cons, List.append_assoc, ← log_act]
      exact ih (x.act a)

theorem logged_eq (x : Lookout σ) (a : Act) : x.logged a = [] ∨ ∃ e, x.logged a = [e] := by
  cases a with
  | arrive paths => exact .inr ⟨_, rfl⟩
  | turn s => exact .inr ⟨_, rfl⟩
  | conclude =>
      rw [logged]
      split
      · exact .inr ⟨_, rfl⟩
      · exact .inl rfl
  | hear =>
      rw [logged, entry]
      split
      · exact .inl rfl
      · split
        · exact .inr ⟨_, rfl⟩
        · exact .inl rfl
  | _ => exact .inl rfl

/-- Each entry of the log was made by one of the acts. -/
theorem exists_of_trace {later earlier : List Event} (h : x.trace acts = later ++ e :: earlier) :
    ∃ p a r, acts = p ++ a :: r ∧ x.trace p = earlier ∧ e ∈ (x.after p).logged a ∧
      ((x.after p).act a).trace r = later := by
  induction acts generalizing x earlier with
  | nil => simp [trace, Queueing.course] at h
  | cons b acts ih =>
      rw [trace_cons] at h
      obtain hnone | ⟨e', hone⟩ := x.logged_eq b
      · rw [hnone, List.append_nil] at h
        obtain ⟨p, a, r, rfl, rfl, hmem, hlater⟩ := ih h
        exact ⟨b :: p, a, r, rfl, by rw [trace_cons, hnone, List.append_nil], hmem, hlater⟩
      · rw [hone] at h
        obtain rfl | ⟨earlier, e'', rfl⟩ := List.eq_nil_or_concat earlier
        · obtain ⟨hlater, he⟩ := List.append_inj' h rfl
          refine ⟨[], b, acts, rfl, rfl, ?_, hlater⟩
          change e ∈ x.logged b
          rw [hone, he]
          exact List.mem_singleton_self e
        · rw [List.concat_eq_append, ← List.cons_append, ← List.append_assoc] at h
          obtain ⟨htrace, he⟩ := List.append_inj' h rfl
          obtain ⟨p, a, r, rfl, rfl, hmem, hlater⟩ := ih htrace
          refine ⟨b :: p, a, r, rfl, ?_, hmem, hlater⟩
          rw [trace_cons, hone, he, List.concat_eq_append]

theorem mem_trace_iff :
    e ∈ x.trace acts ↔ ∃ p a r, acts = p ++ a :: r ∧ e ∈ (x.after p).logged a := by
  simp only [trace, List.mem_flatMap, List.mem_reverse]
  constructor
  · rintro ⟨⟨y, a⟩, hmem, he⟩
    obtain ⟨p, r, hacts, rfl⟩ := Queueing.mem_course_iff.1 hmem
    exact ⟨p, a, r, hacts, he⟩
  · rintro ⟨p, a, r, hacts, he⟩
    exact ⟨(x.after p, a), Queueing.mem_course_iff.2 ⟨p, r, hacts, rfl⟩, he⟩

theorem read_mem_logged : .read s ∈ x.logged a ↔ a = .hear ∧ x.Reads ∧ s = x.surroundings := by
  cases a with
  | hear =>
      simp only [logged, entry, Reads, true_and]
      cases hwaiting : x.queue.waiting with
      | nil => simp
      | cons job rest =>
          cases hreads : job.act.reads x.file <;> simp [hreads]
  | conclude =>
      simp only [logged, reduceCtorEq, false_and, iff_false]
      split <;> simp
  | _ => simp [logged]

theorem asked_mem_logged (h : .asked ∈ x.logged a) : x.asks a = true := by
  cases a with
  | conclude =>
      rw [logged] at h
      split at h
      · assumption
      · cases h
  | hear =>
      simp only [logged, entry] at h
      split at h
      · cases h
      · split at h <;> simp at h
  | _ => simp [logged] at h

theorem turned_mem_logged (h : .turned s ∈ x.logged a) : a = .turn s := by
  cases a with
  | turn s' =>
      cases List.mem_singleton.1 h
      rfl
  | conclude =>
      rw [logged] at h
      split at h <;> simp at h
  | hear =>
      simp only [logged, entry] at h
      split at h
      · cases h
      · split at h <;> simp at h
  | _ => simp [logged] at h

theorem after_keeps (x : Lookout σ) (acts : List Act) :
    (x.after acts).file = x.file ∧ (x.after acts).react = x.react := by
  induction acts generalizing x with
  | nil => exact ⟨rfl, rfl⟩
  | cons a acts ih =>
      have hstep := x.step_act a
      have hrest := ih (x.act a)
      have hact : (x.act a).file = x.file ∧ (x.act a).react = x.react := by
        generalize x.act a = y at hstep ⊢
        cases hstep <;> exact ⟨rfl, rfl⟩
      exact ⟨hrest.1.trans hact.1, hrest.2.trans hact.2⟩

theorem reading_after (x : Lookout σ) (acts : List Act) : (x.after acts).reading = x.reading := by
  rw [reading, (x.after_keeps acts).1, reading]

/-- Where the log has a reading asked for, the loop has queued one. -/
theorem reading_mem_byLoop (h : .asked ∈ x.trace acts) : x.reading ∈ x.byLoop acts := by
  obtain ⟨p, a, r, rfl, he⟩ := mem_trace_iff.1 h
  refine List.mem_flatMap.2 ⟨(x.after p, a), Queueing.mem_course_iff.2 ⟨p, r, rfl, rfl⟩, ?_⟩
  rw [queuedByLoop_eq, asked_mem_logged he, if_pos rfl, reading_after]
  exact List.mem_singleton_self _

theorem askings_append (l l' : List Event) : askings (l ++ l') = askings l + askings l' :=
  List.countP_append

theorem askings_logged (x : Lookout σ) (a : Act) :
    askings (x.logged a) = (x.asks a).toNat := by
  cases a with
  | conclude =>
      rw [logged]
      cases x.asks .conclude <;> rfl
  | hear =>
      rw [logged, entry]
      split
      · rfl
      · split <;> rfl
  | _ => rfl

/-- The loop queues a reading each time the log has one asked for, and nothing else. -/
theorem byLoop_eq (x : Lookout σ) (acts : List Act) :
    x.byLoop acts = List.replicate (askings (x.trace acts)) x.reading := by
  induction acts generalizing x with
  | nil => rfl
  | cons a acts ih =>
      have hreading : (x.act a).reading = x.reading := x.reading_after [a]
      have hcons : x.byLoop (a :: acts) = x.queuedByLoop a ++ (x.act a).byLoop acts := rfl
      rw [hcons, ih, queuedByLoop_eq, trace_cons, askings_append, askings_logged, hreading]
      cases x.asks a with
      | true => rfl
      | false => rfl

theorem arrivals_append (l l' : List Event) : arrivals (l ++ l') = arrivals l ++ arrivals l' :=
  List.filterMap_append

theorem arrivals_trace (x : Lookout σ) (acts : List Act) :
    arrivals (x.trace acts) = (arrivedIn acts).reverse := by
  induction acts generalizing x with
  | nil => rfl
  | cons a acts ih =>
      have hlogged : arrivals (x.logged a) = arrivedIn [a] := by
        cases a with
        | conclude =>
            rw [logged]
            split <;> rfl
        | hear =>
            rw [logged, entry]
            split
            · rfl
            · split <;> rfl
        | _ => rfl
      have hcons : arrivedIn (a :: acts) = arrivedIn [a] ++ arrivedIn acts :=
        List.filterMap_append (l := [a])
      have hrev : (arrivedIn [a]).reverse = arrivedIn [a] := by cases a <;> rfl
      rw [trace_cons, arrivals_append, ih, hlogged, hcons, List.reverse_append, hrev]

/-! ## Waking up -/

theorem wakings_act (x : Lookout σ) (a : Act) :
    (x.act a).wakes.length + (x.act a).station.awake.toNat =
      x.wakes.length + x.station.awake.toNat + (x.wakesUp a).toNat := by
  cases a with
  | receive =>
      cases hs : x.station <;> cases harrived : x.watch.arrived <;>
        simp [act, receive, wakesUp, Station.awake, hs, harrived]
  | poll =>
      cases hs : x.station <;> cases harrived : x.watch.arrived <;>
        simp [act, poll, wakesUp, Station.awake, hs, harrived]
  | conclude =>
      cases hs : x.station with
      | gathered hit =>
          cases hit <;> cases hclosed : x.queue.closed <;>
            simp [act, conclude, Queue.push, settle, wakesUp, Station.awake, hs, hclosed]
      | _ => simp [act, conclude, wakesUp, Station.awake, hs]
  | quit =>
      cases hs : x.station <;> cases hoff : x.watch.calledOff <;>
        simp [act, quit, wakesUp, Station.awake, hs, hoff]
  | hear =>
      simp only [act, hear]
      cases x.queue.step? (x.react x.surroundings) x.owner <;> rfl
  | _ => rfl

/-- Each time the loop has woken up it has concluded, or is about to. -/
theorem wakings_after (x : Lookout σ) (acts : List Act) :
    (x.after acts).wakes.length + (x.after acts).station.awake.toNat =
      x.wakes.length + x.station.awake.toNat + x.wakings acts := by
  induction acts generalizing x with
  | nil => rfl
  | cons a acts ih =>
      refine (ih (x.act a)).trans ?_
      have hcons : x.wakings (a :: acts) = (x.wakesUp a).toNat + (x.act a).wakings acts := by
        rw [wakings, Queueing.course, List.countP_cons, Nat.add_comm, wakings]
        cases x.wakesUp a <;> rfl
      rw [wakings_act, hcons, Nat.add_assoc]

/-! ## Every run -/

/-- What holds of every run of a lookout that begins as `x₀`. -/
structure Vigilant (x₀ : Lookout σ) (acts : List Act) : Prop where
  /-- What waits at first or is queued is taken out in the same order, or is waiting. -/
  kept : queueing.taken x₀ acts ++ (x₀.after acts).queue.waiting =
    x₀.queue.waiting ++ queueing.queued x₀ acts
  /-- The owner hears the jobs one by one; a job may queue others. -/
  heard : ∀ job rest, (x₀.after acts).queue.waiting = job :: rest →
    (x₀.after acts).hear.owner =
        x₀.react (x₀.after acts).surroundings job.act (x₀.after acts).owner ∧
      (x₀.after acts).hear.queue.waiting = rest ++ job.later
  /-- Each batch is taken once, in the order in which they arrive. -/
  account : (x₀.after acts).wakes.flatMap Wake.batches ++ (x₀.after acts).taken ++
    (x₀.after acts).watch.arrived = arrivedIn acts
  /-- The loop has concluded each time that it has woken up, or is about to. -/
  woken : (x₀.after acts).wakes.length + (x₀.after acts).station.awake.toNat = x₀.wakings acts
  /-- It queues one reading for each time that it asks, and nothing else, -/
  once : x₀.byLoop acts = List.replicate ((x₀.after acts).wakes.countP Wake.asked) x₀.reading
  /-- and asks only if a batch counts among those that it has taken. -/
  provoked : ∀ w ∈ (x₀.after acts).wakes, w.asked = true →
    ∃ paths ∈ w.batches, Counts x₀.file paths
  few : (x₀.byLoop acts).length ≤ (arrivedIn acts).countP fun paths => Counts x₀.file paths
  /-- When the loop rests it has queued a reading after each batch that counts. -/
  heeded : (x₀.after acts).AtRest → ∀ before paths later,
    acts = before ++ .arrive paths :: later → Counts x₀.file paths →
      x₀.reading ∈ (x₀.after (before ++ [.arrive paths])).byLoop later
  /-- Once the jobs are heard as well, the last reading was made after each batch that
  counts, and after it was queued. -/
  settled : (x₀.after acts).AtRest → (x₀.after acts).queue.closed = false →
    (x₀.after acts).queue.waiting = [] → ∀ before paths later,
      acts = before ++ .arrive paths :: later → Counts x₀.file paths →
        let y := x₀.after (before ++ [.arrive paths])
        ∃ p r, later = p ++ .hear :: r ∧ x₀.reading ∈ y.byLoop p ∧ (y.after p).Reads ∧
          (∀ p' r', r = p' ++ .hear :: r' → ¬ (y.after (p ++ .hear :: p')).Reads) ∧
          -- what it has read stands there still, unless something has changed since then
          ((∀ s, .turn s ∉ r) → (y.after p).surroundings = (x₀.after acts).surroundings)
  /-- The loop comes to rest by itself. -/
  rests : (x₀.after acts).station ≠ .stopped → (x₀.after acts).queue.closed = false →
    ∃ more, (∀ a ∈ more, a.ofLoop = true) ∧ ((x₀.after acts).after more).AtRest

theorem log_opening (file : String) (react : Surroundings → News → σ → σ) (queue : Queue News)
    (s : Surroundings) (owner : σ) (acts : List Act) :
    ((opening file react queue s owner).after acts).log =
      (opening file react queue s owner).trace acts := by
  rw [log_after]
  exact List.append_nil _

/-- The log after a run in which a batch has arrived. -/
theorem log_of_arrival (x : Lookout σ) (before later : List Act) (paths : List String) :
    (x.after (before ++ .arrive paths :: later)).log =
      (x.after (before ++ [.arrive paths])).trace later ++
        .arrived paths :: (x.after before).log := by
  have hsplit : before ++ .arrive paths :: later = (before ++ [.arrive paths]) ++ later := by simp
  rw [hsplit, after_append, log_after, after_append x before]
  rfl

theorem heard_waiting {job : Job News} {rest : List (Job News)}
    (h : x.queue.waiting = job :: rest) :
    x.hear.owner = x.react x.surroundings job.act x.owner ∧
      x.hear.queue.waiting = rest ++ job.later := by
  simp [hear, Queue.step?, h]

theorem kept_after (x : Lookout σ) (acts : List Act) :
    queueing.taken x acts ++ (x.after acts).queue.waiting =
      x.queue.waiting ++ queueing.queued x acts := by
  refine queueing_keeps.fifo fun a _ l => ?_
  cases a with
  | hear => exact Queueing.append_pick (fun i hi => (Option.some.inj hi).symm) l
  | close => exact List.append_nil l
  | _ => rfl

/-- When the loop rests and the jobs are heard, the last reading was made after each batch
that counts. -/
theorem Sound.exists_last_reading (h : Sound s (x₀.after acts)) (hrest : (x₀.after acts).AtRest)
    (hopen : (x₀.after acts).queue.closed = false) (hheard : (x₀.after acts).queue.waiting = [])
    {before later : List Act} {paths : List String}
    (hacts : acts = before ++ .arrive paths :: later) (hcounts : Counts x₀.file paths) :
    let y := x₀.after (before ++ [.arrive paths])
    ∃ p r, later = p ++ .hear :: r ∧ x₀.reading ∈ y.byLoop p ∧ (y.after p).Reads ∧
      (∀ p' r', r = p' ++ .hear :: r' → ¬ (y.after (p ++ .hear :: p')).Reads) ∧
      ((∀ s, .turn s ∉ r) → (y.after p).surroundings = (x₀.after acts).surroundings) := by
  intro y
  have hlog : (x₀.after acts).log = y.trace later ++ .arrived paths :: (x₀.after before).log :=
    hacts ▸ x₀.log_of_arrival before later paths
  have hfile := (x₀.after_keeps acts).1
  obtain ⟨after, s', earlier, hsplit, hasked, hlast, hstands⟩ :=
    h.settled hrest hopen hheard hlog (hfile.symm ▸ hcounts)
  obtain ⟨p, a, r, rfl, hearlier, hread, hafter⟩ := exists_of_trace hsplit
  obtain ⟨rfl, hreads, hs'⟩ := read_mem_logged.1 hread
  refine ⟨p, r, rfl, ?_, hreads, fun p' r' hr hreads' => ?_, fun hturn => ?_⟩
  · have hreading : y.reading = x₀.reading := x₀.reading_after _
    rw [← hreading]
    exact reading_mem_byLoop (hearlier ▸ hasked)
  · refine hlast (y.after (p ++ .hear :: p')).surroundings ?_
    rw [← hafter]
    refine mem_trace_iff.2 ⟨p', .hear, r', hr, ?_⟩
    rw [after_append] at hreads' ⊢
    exact read_mem_logged.2 ⟨rfl, hreads', rfl⟩
  · rw [← hs']
    refine hstands fun s'' hmem => ?_
    rw [← hafter] at hmem
    obtain ⟨p', a, r', hr, hmem⟩ := mem_trace_iff.1 hmem
    obtain rfl := turned_mem_logged hmem
    exact hturn s'' (hr ▸ List.mem_append_right _ List.mem_cons_self)

/-- The loop misses no batch and queues no reading without one. -/
theorem vigilant_after (file : String) (react : Surroundings → News → σ → σ) (queue : Queue News)
    (s : Surroundings) (owner : σ) (acts : List Act) :
    Vigilant (opening file react queue s owner) acts := by
  have h := (Sound.opening file react queue s owner).after acts
  have hkeeps := (opening file react queue s owner).after_keeps acts
  have hlog := log_opening file react queue s owner acts
  have harrivals : arrivals ((opening file react queue s owner).after acts).log =
      (arrivedIn acts).reverse := hlog ▸ arrivals_trace _ acts
  refine
    { kept := kept_after _ acts
      heard := fun job rest hwaiting => hkeeps.2 ▸ heard_waiting hwaiting
      account := by rw [h.account, harrivals, List.reverse_reverse]
      woken := (wakings_after _ acts).trans (Nat.zero_add _)
      once := by rw [byLoop_eq, ← hlog, h.askings]
      provoked := fun w hw hasked => hkeeps.1 ▸ (h.due w hw).provoked hasked
      few := ?_
      heeded := fun hrest before paths later hacts hcounts => ?_
      settled := fun hrest hopen hheard _ _ _ hacts hcounts =>
        h.exists_last_reading hrest hopen hheard hacts hcounts
      rests := rests }
  · have hfew := h.few
    rw [harrivals, List.countP_reverse, hkeeps.1] at hfew
    have hcounts : (fun paths => decide (Counts file paths)) = fun paths =>
        Watch.hits paths file := by
      funext paths
      rw [Bool.eq_iff_iff, decide_eq_true_iff, hits_iff]
    rw [byLoop_eq, List.length_replicate, ← hlog]
    exact hcounts ▸ hfew
  · have hasked := h.heeded hrest (hacts ▸ log_of_arrival _ before later paths)
      (hkeeps.1.symm ▸ hcounts)
    have hreading := (opening file react queue s owner).reading_after (before ++ [.arrive paths])
    rw [← hreading]
    exact reading_mem_byLoop hasked

/-- Two batches at once are read for once; one that arrives after the loop has found
nothing more has it wake up again. -/
example :
    let x := opening "/d/kind.yml" (fun _ _ n => n) Queue.empty default 0
    (x.byLoop [.arrive ["/d/kind.yml"], .arrive ["/d/kind.yml"], .receive, .poll, .poll,
      .arrive ["/d/kind.yml"], .conclude, .receive, .poll, .conclude]).length = 2 := by
  decide +kernel

end Lookout

end ClusterConsole.Background
