import ClusterConsole.Background.SettingsWatch

/-!
# The lookout

A lookout is the loop that watches a directory for one file, with the queue that it asks
for readings in and the owner that reads. It waits until a batch has arrived, takes the
batches that are there one by one, and asks for one reading if any of them counts. `Act`
lists what can happen: batches arrive and other jobs are queued between any two steps of
the loop, and the owner hears the next job as late as one likes.

`log` remembers, the last first, what has arrived, was asked for and was read, and how
what stands outside has changed; `wakes` remembers what the loop has taken each time it
has woken up. No step reads either. `Sound` is what every act keeps; what it comes to for
the jobs of a run is in `Readings`.

The watch of the settings takes all that has arrived at once. It stands as a lookout does
between two of its acts: `Shows.after`.
-/

namespace ClusterConsole.Background

open ClusterConsole.Storage

namespace Lookout

/-- Where the loop stands. -/
inductive Station where
  | waiting
  /-- It takes what has arrived; whether a batch that it has taken counts. -/
  | gathering (hit : Bool)
  /-- It has found nothing more to take. -/
  | gathered (hit : Bool)
  | stopped
  deriving DecidableEq

/-- What the loop has taken once it had woken up, and whether it has asked for a reading. -/
structure Wake where
  batches : List (List String)
  asked : Bool

inductive Event where
  | arrived (paths : List String)
  /-- A reading was queued. -/
  | asked
  /-- The file was read as it stood in these surroundings. -/
  | read (s : Surroundings)
  /-- Something outside changed. -/
  | turned (s : Surroundings)

def Event.isAsked : Event → Bool
  | asked => true
  | _ => false

inductive Act where
  | arrive (paths : List String)
  /-- The loop that waits takes the first batch. -/
  | receive
  /-- The loop takes one more batch, or finds none. -/
  | poll
  /-- The loop asks for a reading if one is due, and waits again. -/
  | conclude
  /-- The loop takes note that it is called off. -/
  | quit
  /-- The owner hears the next job. -/
  | hear
  | post (job : Job News)
  | turn (s : Surroundings)
  | callOff
  | close

/-- It is the loop that does that. -/
def Act.ofLoop : Act → Bool
  | .receive | .poll | .conclude | .quit => true
  | _ => false

end Lookout

open Lookout in
structure Lookout (σ : Type) where
  file : String
  /-- How the owner hears of news. -/
  react : Surroundings → News → σ → σ
  watch : Watch
  station : Station
  queue : Queue News
  surroundings : Surroundings
  owner : σ
  /-- What the loop has taken since it has woken up. -/
  taken : List (List String)
  wakes : List Wake
  log : List Event

/-- One of the paths ends in the name of the file. -/
def Lookout.Counts (file : String) (paths : List String) : Prop :=
  ∃ name, Path.fileName? file = some name ∧ ∃ path ∈ paths, Path.fileName? path = some name

theorem Lookout.hits_iff {file : String} {paths : List String} :
    Watch.hits paths file = true ↔ Counts file paths := by
  rw [Watch.hits, Counts]
  cases Path.fileName? file with
  | none => simp
  | some name => simp

/-- The news has the owner read the file. -/
def News.reads (file : String) : News → Bool
  | .settingsWritten path => path == file
  | _ => false

namespace Lookout

variable {σ : Type} {x y : Lookout σ} {a : Act} {acts : List Act}

def opening (file : String) (react : Surroundings → News → σ → σ) (queue : Queue News)
    (s : Surroundings) (owner : σ) : Lookout σ :=
  ⟨file, react, Watch.start, .waiting, queue, s, owner, [], [], []⟩

/-- The watch without the first batch. -/
def dropFirst (w : Watch) : Watch := { w with arrived := w.arrived.tail }

def receive (x : Lookout σ) : Lookout σ :=
  match x.station, x.watch.arrived with
  | .waiting, paths :: _ =>
      { x with
        station := .gathering (Watch.hits paths x.file)
        watch := dropFirst x.watch
        taken := [paths] }
  | _, _ => x

def poll (x : Lookout σ) : Lookout σ :=
  match x.station, x.watch.arrived with
  | .gathering hit, paths :: _ =>
      { x with
        station := .gathering (hit || Watch.hits paths x.file)
        watch := dropFirst x.watch
        taken := x.taken ++ [paths] }
  | .gathering hit, [] => { x with station := .gathered hit }
  | _, _ => x

/-- The loop has done what it had woken up for. -/
def settle (x : Lookout σ) (asked : Bool) : Lookout σ :=
  { x with taken := [], wakes := x.wakes ++ [⟨x.taken, asked⟩] }

/-- The job in which the owner reads the file. -/
def reading (x : Lookout σ) : Job News := .single (.settingsWritten x.file)

def conclude (x : Lookout σ) : Lookout σ :=
  match x.station with
  | .gathered true =>
      match x.queue.push x.reading with
      | (queue, true) =>
          { x.settle true with station := .waiting, queue := queue, log := .asked :: x.log }
      | (_, false) => { x.settle false with station := .stopped }
  | .gathered false => { x.settle false with station := .waiting }
  | _ => x

def quit (x : Lookout σ) : Lookout σ :=
  if x.station = .waiting ∧ x.watch.calledOff = true then { x with station := .stopped } else x

/-- What the log says of the next job. -/
def entry (x : Lookout σ) : List Event :=
  match x.queue.waiting with
  | [] => []
  | job :: _ => if job.act.reads x.file then [.read x.surroundings] else []

def hear (x : Lookout σ) : Lookout σ :=
  match x.queue.step? (x.react x.surroundings) x.owner with
  | none => x
  | some (queue, owner) => { x with queue := queue, owner := owner, log := x.entry ++ x.log }

def act (x : Lookout σ) : Act → Lookout σ
  | .arrive paths => { x with watch := x.watch.arrive paths, log := .arrived paths :: x.log }
  | .receive => x.receive
  | .poll => x.poll
  | .conclude => x.conclude
  | .quit => x.quit
  | .hear => x.hear
  | .post job => { x with queue := (x.queue.push job).1 }
  | .turn s => { x with surroundings := s, log := .turned s :: x.log }
  | .callOff => { x with watch := { x.watch with calledOff := true } }
  | .close => { x with queue := x.queue.close }

def after (x : Lookout σ) (acts : List Act) : Lookout σ := acts.foldl act x

theorem after_append (x : Lookout σ) (acts acts' : List Act) :
    x.after (acts ++ acts') = (x.after acts).after acts' := List.foldl_append

/-! ## What an act can do -/

inductive Step (x : Lookout σ) : Lookout σ → Prop where
  | still : Step x x
  | arrives (paths : List String) :
      Step x { x with watch := x.watch.arrive paths, log := .arrived paths :: x.log }
  | wakes (paths : List String) (rest : List (List String)) (hs : x.station = .waiting)
      (harrived : x.watch.arrived = paths :: rest) :
      Step x { x with
        station := .gathering (Watch.hits paths x.file)
        watch := { x.watch with arrived := rest }
        taken := [paths] }
  | takes (hit : Bool) (paths : List String) (rest : List (List String))
      (hs : x.station = .gathering hit) (harrived : x.watch.arrived = paths :: rest) :
      Step x { x with
        station := .gathering (hit || Watch.hits paths x.file)
        watch := { x.watch with arrived := rest }
        taken := x.taken ++ [paths] }
  | exhausts (hit : Bool) (hs : x.station = .gathering hit) (harrived : x.watch.arrived = []) :
      Step x { x with station := .gathered hit }
  | asks (hs : x.station = .gathered true) (hopen : x.queue.closed = false) :
      Step x { x.settle true with
        station := .waiting
        queue := ⟨x.queue.waiting ++ [x.reading], false⟩
        log := .asked :: x.log }
  | refused (hs : x.station = .gathered true) (hclosed : x.queue.closed = true) :
      Step x { x.settle false with station := .stopped }
  | passes (hs : x.station = .gathered false) :
      Step x { x.settle false with station := .waiting }
  | stops (hs : x.station = .waiting) (hoff : x.watch.calledOff = true) :
      Step x { x with station := .stopped }
  | hears (job : Job News) (rest : List (Job News)) (hwaiting : x.queue.waiting = job :: rest) :
      Step x { x with
        queue := { x.queue with waiting := rest ++ job.later }
        owner := x.react x.surroundings job.act x.owner
        log := (if job.act.reads x.file then [.read x.surroundings] else []) ++ x.log }
  | posts (job : Job News) (hopen : x.queue.closed = false) :
      Step x { x with queue := { x.queue with waiting := x.queue.waiting ++ [job] } }
  | turns (s : Surroundings) : Step x { x with surroundings := s, log := .turned s :: x.log }
  | callsOff : Step x { x with watch := { x.watch with calledOff := true } }
  | closes : Step x { x with queue := ⟨[], true⟩ }

theorem step_receive (x : Lookout σ) : Step x x.receive := by
  unfold receive
  split
  · rename_i paths rest hs harrived
    rw [dropFirst, harrived]
    exact .wakes paths rest hs harrived
  · exact .still

theorem step_poll (x : Lookout σ) : Step x x.poll := by
  unfold poll
  split
  · rename_i hit paths rest hs harrived
    rw [dropFirst, harrived]
    exact .takes hit paths rest hs harrived
  · exact .exhausts _ ‹_› ‹_›
  · exact .still

theorem step_conclude (x : Lookout σ) : Step x x.conclude := by
  unfold conclude
  split
  · rename_i hs
    cases hclosed : x.queue.closed with
    | true =>
        simp only [Queue.push, hclosed, ite_true]
        exact .refused hs hclosed
    | false =>
        simp only [Queue.push, hclosed, Bool.false_eq_true, ite_false]
        exact .asks hs hclosed
  · exact .passes ‹_›
  · exact .still

theorem step_quit (x : Lookout σ) : Step x x.quit := by
  unfold quit
  split
  · rename_i h
    exact .stops h.1 h.2
  · exact .still

theorem step_hear (x : Lookout σ) : Step x x.hear := by
  unfold hear
  cases hwaiting : x.queue.waiting with
  | nil =>
      simp only [Queue.step?, hwaiting]
      exact .still
  | cons job rest =>
      simp only [Queue.step?, entry, hwaiting]
      exact .hears job rest hwaiting

theorem step_act (x : Lookout σ) (a : Act) : Step x (x.act a) := by
  cases a with
  | arrive paths => exact .arrives paths
  | receive => exact x.step_receive
  | poll => exact x.step_poll
  | conclude => exact x.step_conclude
  | quit => exact x.step_quit
  | hear => exact x.step_hear
  | post job =>
      rw [act, Queue.push]
      split
      · exact .still
      · exact .posts job (Bool.eq_false_iff.2 ‹_›)
  | turn s => exact .turns s
  | callOff => exact .callsOff
  | close => exact .closes

/-! ## What the log says -/

/-- The batches that have arrived, the last first. -/
def arrivals (log : List Event) : List (List String) :=
  log.filterMap fun
    | .arrived paths => some paths
    | _ => none

/-- How many readings the loop has asked for. -/
def askings (log : List Event) : Nat := log.countP Event.isAsked

/-- A batch that counts has arrived since a reading was asked for. -/
def unasked (file : String) : List Event → Prop
  | [] => False
  | .arrived paths :: log => Counts file paths ∨ unasked file log
  | .asked :: _ => False
  | .read _ :: log | .turned _ :: log => unasked file log

/-- A reading was asked for since the file was read. -/
def unread : List Event → Prop
  | [] => False
  | .asked :: _ => True
  | .read _ :: _ => False
  | .arrived _ :: log | .turned _ :: log => unread log

/-- What stands outside after what the log tells. -/
def standing (s : Surroundings) : List Event → Surroundings
  | [] => s
  | .turned s' :: _ => s'
  | .arrived _ :: log | .asked :: log | .read _ :: log => standing s log

theorem exists_asked {file : String} {paths : List String} {since before : List Event}
    (hcounts : Counts file paths) (h : ¬ unasked file (since ++ .arrived paths :: before)) :
    .asked ∈ since := by
  induction since with
  | nil => exact absurd (.inl hcounts) h
  | cons e since ih =>
      cases e with
      | asked => exact List.mem_cons_self
      | arrived => exact List.mem_cons_of_mem _ (ih fun hrest => h (.inr hrest))
      | read | turned => exact List.mem_cons_of_mem _ (ih h)

/-- If nothing is left to be read, what was read last was read after it was asked for. -/
theorem exists_read {since before : List Event} (h : ¬ unread (since ++ before))
    (hasked : .asked ∈ since) :
    ∃ later s earlier, since = later ++ .read s :: earlier ∧ .asked ∈ earlier ∧
      ∀ s', .read s' ∉ later := by
  induction since with
  | nil => cases hasked
  | cons e since ih =>
      cases e with
      | asked => exact absurd trivial h
      | read s =>
          refine ⟨[], s, since, rfl, ?_, fun _ => List.not_mem_nil⟩
          simpa using hasked
      | arrived | turned =>
          obtain ⟨later, s, earlier, rfl, hmem, hnone⟩ := ih h (by simpa using hasked)
          exact ⟨_ :: later, s, earlier, rfl, hmem, fun s' => by simpa using hnone s'⟩

theorem standing_append {s : Surroundings} {since before : List Event}
    (h : ∀ s', .turned s' ∉ since) : standing s (since ++ before) = standing s before := by
  induction since with
  | nil => rfl
  | cons e since ih =>
      have hrest := ih fun s' hs' => h s' (List.mem_cons_of_mem _ hs')
      cases e with
      | turned s' => exact absurd List.mem_cons_self (h s')
      | arrived | asked | read => exact hrest

/-! ## What holds at every moment -/

/-- A batch that counts is yet to be taken, or was taken and not yet concluded. -/
def Owing (x : Lookout σ) : Prop := ∃ paths ∈ x.taken ++ x.watch.arrived, Counts x.file paths

/-- Whether a batch that the loop has taken counts, as far as the loop knows. -/
def Station.hit : Station → Bool
  | .gathering hit | .gathered hit => hit
  | _ => false

/-- Whether the loop has woken up. -/
def Station.awake : Station → Bool
  | .gathering _ | .gathered _ => true
  | _ => false

/-- The loop did with what it had taken what it should. -/
structure Wake.Due (file : String) (closed : Bool) (w : Wake) : Prop where
  nonempty : w.batches ≠ []
  provoked : w.asked = true → ∃ paths ∈ w.batches, Counts file paths
  heeded : (∃ paths ∈ w.batches, Counts file paths) → w.asked = true ∨ closed = true

/-- What holds of a lookout that began in these surroundings. -/
structure Sound (s : Surroundings) (x : Lookout σ) : Prop where
  account : x.wakes.flatMap Wake.batches ++ x.taken ++ x.watch.arrived = (arrivals x.log).reverse
  idle : x.taken = [] ↔ x.station.awake = false
  hit : x.station.hit = true ↔ ∃ paths ∈ x.taken, Counts x.file paths
  due : ∀ w ∈ x.wakes, w.Due x.file x.queue.closed
  askings : askings x.log = x.wakes.countP Wake.asked
  owing : unasked x.file x.log → x.station = .stopped ∨ x.Owing
  unread : unread x.log → x.queue.closed = true ∨
    ∃ job ∈ x.queue.waiting, job.act.reads x.file = true
  surroundings : x.surroundings = standing s x.log
  read : ∀ later s' earlier, x.log = later ++ .read s' :: earlier → s' = standing s earlier

theorem Sound.opening (file : String) (react : Surroundings → News → σ → σ) (queue : Queue News)
    (s : Surroundings) (owner : σ) : (opening file react queue s owner).Sound s where
  account := rfl
  idle := by simp [Lookout.opening, Station.awake]
  hit := by simp [Lookout.opening, Station.hit]
  due _ h := by cases h
  askings := rfl
  owing h := h.elim
  unread h := h.elim
  surroundings := rfl
  read later s' earlier h := by cases later <;> cases h

/-! ## One step -/

variable {s : Surroundings}

theorem Sound.account_step (h : x.Sound s) (hstep : Step x y) :
    y.wakes.flatMap Wake.batches ++ y.taken ++ y.watch.arrived = (arrivals y.log).reverse := by
  have haccount := h.account
  cases hstep with
  | arrives paths =>
      have harrivals : arrivals (.arrived paths :: x.log) = paths :: arrivals x.log := rfl
      rw [harrivals, List.reverse_cons, ← haccount, List.append_assoc _ x.watch.arrived]
      rfl
  | wakes paths rest hs harrived =>
      rw [h.idle.2 (by rw [hs]; rfl), harrived] at haccount
      rw [← haccount]
      simp
  | takes hit paths rest hs harrived =>
      rw [harrived] at haccount
      rw [← haccount]
      simp
  | asks | refused | passes =>
      simpa [settle, arrivals] using haccount
  | hears job =>
      rw [haccount]
      dsimp only
      split <;> rfl
  | _ => exact haccount

theorem Sound.idle_step (h : x.Sound s) (hstep : Step x y) :
    y.taken = [] ↔ y.station.awake = false := by
  cases hstep with
  | wakes | takes => simp [Station.awake]
  | exhausts hit hs =>
      rw [h.idle, hs]
      rfl
  | asks | refused | passes => exact iff_of_true rfl rfl
  | stops hs =>
      rw [h.idle, hs]
      rfl
  | _ => exact h.idle

theorem Sound.hit_step (h : x.Sound s) (hstep : Step x y) :
    y.station.hit = true ↔ ∃ paths ∈ y.taken, Counts y.file paths := by
  cases hstep with
  | wakes paths => simp [Station.hit, hits_iff]
  | takes hit paths rest hs =>
      have hbefore := h.hit
      rw [hs, Station.hit] at hbefore
      simp [Station.hit, hits_iff, hbefore, or_and_right, exists_or]
  | exhausts hit hs =>
      have hbefore := h.hit
      rwa [hs] at hbefore
  | asks | refused | passes => simp [settle, Station.hit]
  | stops hs =>
      have hbefore := h.hit
      rwa [hs] at hbefore
  | _ => exact h.hit

/-- The loop concludes as it should: it asks if a batch that it has taken counts, unless it
is refused. -/
theorem Sound.due_settle (h : x.Sound s) {hit asked : Bool} (hs : x.station = .gathered hit)
    (hasked : asked = true → hit = true)
    (hheeded : hit = true → asked = true ∨ x.queue.closed = true) :
    ∀ w ∈ (x.settle asked).wakes, w.Due x.file x.queue.closed := by
  have hhit := h.hit
  rw [hs, Station.hit] at hhit
  intro w hw
  rw [settle, List.mem_append, List.mem_singleton] at hw
  obtain hw | rfl := hw
  · exact h.due w hw
  · refine ⟨fun hnil => ?_, fun hw => hhit.1 (hasked hw), fun hw => hheeded (hhit.2 hw)⟩
    have hawake := h.idle.1 hnil
    rw [hs] at hawake
    cases hawake

theorem Sound.due_step (h : x.Sound s) (hstep : Step x y) :
    ∀ w ∈ y.wakes, w.Due y.file y.queue.closed := by
  cases hstep with
  | asks hs hopen =>
      have hdue := h.due_settle hs (fun _ => rfl) fun _ => .inl rfl
      rwa [hopen] at hdue
  | refused hs hclosed => exact h.due_settle hs nofun fun _ => .inr hclosed
  | passes hs => exact h.due_settle hs nofun nofun
  | closes =>
      intro w hw
      obtain ⟨hnonempty, hprovoked, -⟩ := h.due w hw
      exact ⟨hnonempty, hprovoked, fun _ => .inr rfl⟩
  | _ => exact h.due

theorem askings_cons (e : Event) (log : List Event) :
    askings (e :: log) = askings log + e.isAsked.toNat := by
  rw [askings, List.countP_cons, askings]
  cases e.isAsked <;> rfl

theorem Sound.askings_step (h : x.Sound s) (hstep : Step x y) :
    Lookout.askings y.log = y.wakes.countP Wake.asked := by
  have haskings := h.askings
  cases hstep with
  | arrives | turns => exact haskings
  | asks =>
      rw [askings_cons, haskings, settle, List.countP_append]
      rfl
  | refused | passes =>
      rw [settle, List.countP_append]
      exact haskings
  | hears job =>
      rw [← haskings]
      dsimp only
      split <;> rfl
  | _ => exact haskings

theorem Sound.owing_step (h : x.Sound s) (hstep : Step x y) (hunasked : unasked y.file y.log) :
    y.station = .stopped ∨ y.Owing := by
  have howing := h.owing
  cases hstep with
  | arrives paths =>
      obtain hcounts | hbefore := hunasked
      · exact .inr ⟨paths, by simp [Watch.arrive], hcounts⟩
      · refine (howing hbefore).imp_right fun ⟨p, hp, hcounts⟩ => ⟨p, ?_, hcounts⟩
        rw [Watch.arrive, ← List.append_assoc]
        exact List.mem_append_left _ hp
  | wakes paths rest hs harrived =>
      obtain hstopped | ⟨p, hp, hcounts⟩ := howing hunasked
      · rw [hs] at hstopped
        cases hstopped
      · rw [h.idle.2 (by rw [hs]; rfl), harrived] at hp
        exact .inr ⟨p, hp, hcounts⟩
  | takes hit paths rest hs harrived =>
      obtain hstopped | ⟨p, hp, hcounts⟩ := howing hunasked
      · rw [hs] at hstopped
        cases hstopped
      · rw [harrived] at hp
        exact .inr ⟨p, by rwa [List.append_assoc], hcounts⟩
  | exhausts hit hs =>
      obtain hstopped | howing := howing hunasked
      · rw [hs] at hstopped
        cases hstopped
      · exact .inr howing
  | asks => exact hunasked.elim
  | refused | stops => exact .inl rfl
  | passes hs =>
      obtain hstopped | ⟨p, hp, hcounts⟩ := howing hunasked
      · rw [hs] at hstopped
        cases hstopped
      · -- nothing that was taken counts, so the batch is still there
        rw [List.mem_append] at hp
        obtain htaken | harrived := hp
        · have hhit := h.hit.2 ⟨p, htaken, hcounts⟩
          rw [hs] at hhit
          cases hhit
        · exact .inr ⟨p, harrived, hcounts⟩
  | hears job =>
      refine howing ?_
      dsimp only at hunasked
      split at hunasked <;> exact hunasked
  | _ => exact howing hunasked

theorem Sound.unread_step (h : x.Sound s) (hstep : Step x y) (hunread : Lookout.unread y.log) :
    y.queue.closed = true ∨ ∃ job ∈ y.queue.waiting, job.act.reads y.file = true := by
  have hbefore := h.unread
  cases hstep with
  | asks => exact .inr ⟨x.reading, by simp, beq_self_eq_true x.file⟩
  | hears job rest hwaiting =>
      dsimp only at hunread ⊢
      split at hunread
      · exact hunread.elim
      · rename_i hreads
        refine (hbefore hunread).imp_right fun ⟨j, hj, hjreads⟩ => ?_
        rw [hwaiting, List.mem_cons] at hj
        obtain rfl | hj := hj
        · exact absurd hjreads hreads
        · exact ⟨j, List.mem_append_left _ hj, hjreads⟩
  | posts job =>
      exact (hbefore hunread).imp_right fun ⟨j, hj, hjreads⟩ =>
        ⟨j, List.mem_append_left _ hj, hjreads⟩
  | closes => exact .inl rfl
  | _ => exact hbefore hunread

theorem Sound.surroundings_step (h : x.Sound s) (hstep : Step x y) :
    y.surroundings = standing s y.log := by
  cases hstep with
  | turns => rfl
  | hears job =>
      rw [h.surroundings]
      dsimp only
      split <;> rfl
  | _ => exact h.surroundings

theorem Sound.read_step (h : x.Sound s) (hstep : Step x y) {later earlier : List Event}
    {s' : Surroundings} (hlog : y.log = later ++ .read s' :: earlier) :
    s' = standing s earlier := by
  have hold {e : Event} (hlog : e :: x.log = later ++ .read s' :: earlier)
      (he : ∀ s, e ≠ .read s) : s' = standing s earlier := by
    cases later with
    | nil => exact absurd (List.cons.inj hlog).1 (he s')
    | cons _ later => exact h.read later s' earlier (List.cons.inj hlog).2
  cases hstep with
  | arrives | asks | turns => exact hold hlog fun _ => nofun
  | hears job =>
      dsimp only at hlog
      split at hlog
      · cases later with
        | nil =>
            obtain ⟨hread, rfl⟩ := List.cons.inj hlog
            cases hread
            exact h.surroundings
        | cons _ later => exact h.read later s' earlier (List.cons.inj hlog).2
      · exact h.read later s' earlier hlog
  | _ => exact h.read later s' earlier hlog

theorem Sound.step (h : x.Sound s) (hstep : Step x y) : y.Sound s where
  account := h.account_step hstep
  idle := h.idle_step hstep
  hit := h.hit_step hstep
  due := h.due_step hstep
  askings := h.askings_step hstep
  owing := h.owing_step hstep
  unread := h.unread_step hstep
  surroundings := h.surroundings_step hstep
  read _ _ _ := h.read_step hstep

theorem Sound.after (h : x.Sound s) (acts : List Act) : (x.after acts).Sound s := by
  induction acts generalizing x with
  | nil => exact h
  | cons a acts ih => exact ih (h.step (x.step_act a))

/-! ## No batch is missed -/

/-- The loop waits, and nothing has arrived that it could wake up for. -/
structure AtRest (x : Lookout σ) : Prop where
  waiting : x.station = .waiting
  empty : x.watch.arrived = []

theorem Sound.heeded (h : x.Sound s) (hrest : x.AtRest) {since before : List Event}
    {paths : List String} (hlog : x.log = since ++ .arrived paths :: before)
    (hcounts : Counts x.file paths) : .asked ∈ since := by
  have hasked : ¬ unasked x.file x.log := fun hunasked => by
    obtain hstopped | ⟨p, hp, -⟩ := h.owing hunasked
    · rw [hrest.waiting] at hstopped
      cases hstopped
    · rw [h.idle.2 (by rw [hrest.waiting]; rfl), hrest.empty] at hp
      cases hp
  rw [hlog] at hasked
  exact exists_asked hcounts hasked

theorem Sound.settled (h : x.Sound s) (hrest : x.AtRest) (hopen : x.queue.closed = false)
    (hheard : x.queue.waiting = []) {since before : List Event} {paths : List String}
    (hlog : x.log = since ++ .arrived paths :: before) (hcounts : Counts x.file paths) :
    ∃ later s' earlier, since = later ++ .read s' :: earlier ∧ .asked ∈ earlier ∧
      (∀ s', .read s' ∉ later) ∧ ((∀ s', .turned s' ∉ later) → s' = x.surroundings) := by
  have hread : ¬ Lookout.unread (since ++ .arrived paths :: before) := fun hunread => by
    rw [← hlog] at hunread
    obtain hclosed | ⟨job, hjob, -⟩ := h.unread hunread
    · rw [hopen] at hclosed
      cases hclosed
    · rw [hheard] at hjob
      cases hjob
  obtain ⟨later, s', earlier, rfl, hasked, hlast⟩ :=
    exists_read hread (h.heeded hrest hlog hcounts)
  refine ⟨later, s', earlier, rfl, hasked, hlast, fun hturned => ?_⟩
  rw [List.append_assoc] at hlog
  have hstanding := h.surroundings
  rw [hlog, standing_append hturned] at hstanding
  exact (h.read later s' _ hlog).trans hstanding.symm

theorem countP_flatMap_batches {p : List String → Bool} {wakes : List Wake}
    (h : ∀ w ∈ wakes, w.asked = true → ∃ paths ∈ w.batches, p paths = true) :
    wakes.countP Wake.asked ≤ (wakes.flatMap Wake.batches).countP p := by
  induction wakes with
  | nil => exact Nat.le_refl _
  | cons w wakes ih =>
      have hrest := ih fun w' hw' => h w' (List.mem_cons_of_mem _ hw')
      rw [List.flatMap_cons, List.countP_append, List.countP_cons]
      split
      · rename_i hasked
        have hpos := List.countP_pos_iff.2 (h w List.mem_cons_self hasked)
        omega
      · omega

theorem Sound.few (h : x.Sound s) :
    Lookout.askings x.log ≤ (arrivals x.log).countP fun paths => Watch.hits paths x.file := by
  have hwakes := countP_flatMap_batches fun w hw hasked => by
    obtain ⟨paths, hmem, hcounts⟩ := (h.due w hw).provoked hasked
    exact ⟨paths, hmem, hits_iff.2 hcounts⟩
  rw [h.askings, ← List.countP_reverse (l := arrivals x.log), ← h.account, List.append_assoc,
    List.countP_append]
  omega

/-! ## The loop by itself -/

/-- The loop has taken what was there. -/
def gather (x : Lookout σ) (hit : Bool) : Lookout σ :=
  { x with
    station := .gathered (hit || x.watch.arrived.any fun paths => Watch.hits paths x.file)
    watch := { x.watch with arrived := [] }
    taken := x.taken ++ x.watch.arrived }

theorem after_polls {hit : Bool} (hs : x.station = .gathering hit) :
    x.after (List.replicate (x.watch.arrived.length + 1) .poll) = x.gather hit := by
  obtain ⟨file, react, ⟨arrived, off⟩, station, queue, s, owner, taken, wakes, log⟩ := x
  subst hs
  induction arrived generalizing hit taken with
  | nil => simp [after, act, poll, gather]
  | cons paths arrived ih =>
      rw [List.length_cons, List.replicate_succ, after, List.foldl_cons]
      refine (@ih (hit || Watch.hits paths file) (taken ++ [paths])).trans ?_
      simp [gather, Bool.or_assoc]

theorem conclude_of_open {hit : Bool} (hs : x.station = .gathered hit)
    (hopen : x.queue.closed = false) :
    x.conclude = { x.settle hit with
      station := .waiting
      queue := if hit then (x.queue.push x.reading).1 else x.queue
      log := if hit then .asked :: x.log else x.log } := by
  cases hit <;> simp [conclude, settle, hs, Queue.push, hopen]

/-- What the loop does once it has woken up. -/
def errand (n : Nat) : List Act := List.replicate (n + 1) .poll ++ [.conclude]

theorem ofLoop_of_mem_errand {n : Nat} (h : a ∈ errand n) : a.ofLoop = true := by
  rw [errand, List.mem_append, List.mem_replicate, List.mem_singleton] at h
  obtain ⟨-, rfl⟩ | rfl := h <;> rfl

theorem after_errand {hit : Bool} (hs : x.station = .gathering hit) :
    x.after (errand x.watch.arrived.length) = (x.gather hit).conclude := by
  rw [errand, after_append, after_polls hs]
  rfl

theorem rests_of_gathering {hit : Bool} (hs : x.station = .gathering hit)
    (hopen : x.queue.closed = false) :
    ∃ acts, (∀ a ∈ acts, a.ofLoop = true) ∧ (x.after acts).AtRest := by
  refine ⟨errand x.watch.arrived.length, fun a => ofLoop_of_mem_errand, ?_⟩
  rw [after_errand hs, conclude_of_open (x := x.gather hit) rfl hopen]
  exact ⟨rfl, rfl⟩

theorem rests_of_waiting (hs : x.station = .waiting) (hopen : x.queue.closed = false) :
    ∃ acts, (∀ a ∈ acts, a.ofLoop = true) ∧ (x.after acts).AtRest := by
  cases harrived : x.watch.arrived with
  | nil => exact ⟨[], nofun, hs, harrived⟩
  | cons paths rest =>
      have hreceive : x.receive.station = .gathering (Watch.hits paths x.file) ∧
          x.receive.queue = x.queue := by
        simp [receive, hs, harrived]
      obtain ⟨acts, hloop, hrest⟩ :=
        rests_of_gathering hreceive.1 (by rw [hreceive.2]; exact hopen)
      refine ⟨.receive :: acts, fun a ha => ?_, hrest⟩
      obtain rfl | ha := List.mem_cons.1 ha
      · rfl
      · exact hloop a ha

theorem rests (hs : x.station ≠ .stopped) (hopen : x.queue.closed = false) :
    ∃ acts, (∀ a ∈ acts, a.ofLoop = true) ∧ (x.after acts).AtRest := by
  cases hstation : x.station with
  | waiting => exact rests_of_waiting hstation hopen
  | gathering hit => exact rests_of_gathering hstation hopen
  | gathered hit =>
      have hconclude := conclude_of_open hstation hopen
      have hstill : x.conclude.queue.closed = false := by
        rw [hconclude]
        cases hit <;> simp [Queue.push, hopen]
      obtain ⟨acts, hloop, hrest⟩ := rests_of_waiting (by rw [hconclude]) hstill
      refine ⟨.conclude :: acts, fun a ha => ?_, hrest⟩
      obtain rfl | ha := List.mem_cons.1 ha
      · rfl
      · exact hloop a ha
  | stopped => exact absurd hstation hs

end Lookout

/-! ## Watched settings -/

namespace Lookout

variable {x : Lookout Ledger} {w : SettingsWatch}

/-- The lookout stands as the watch of the settings does between two of its acts. -/
structure Shows (x : Lookout Ledger) (w : SettingsWatch) : Prop where
  file : x.file = w.file
  react : x.react = Ledger.hear
  watch : x.watch = w.watch
  station : x.station = .waiting
  queue : x.queue = w.queue
  surroundings : x.surroundings = w.surroundings
  owner : x.owner = w.ledger
  underway : w.watch.calledOff = false
  opened : w.queue.closed = false

/-- The watch of the settings takes at once what the loop takes step by step. -/
theorem Shows.wake (h : x.Shows w) : ∃ acts, (x.after acts).Shows w.wake := by
  have htake : w.watch.take w.file = ({ w.watch with arrived := [] },
      w.watch.arrived.any fun paths => Watch.hits paths w.file) := by
    rw [Watch.take, if_neg (by rw [h.underway]; nofun)]
  cases harrived : w.watch.arrived with
  | nil =>
      have hwatch : w.watch = { w.watch with arrived := [] } := by rw [← harrived]
      have hwake : w.wake = w := by
        rw [SettingsWatch.wake, htake, ← hwatch, harrived]
        rfl
      exact ⟨[], by rwa [hwake]⟩
  | cons paths rest =>
      have hreceive : x.receive = { x with
          station := .gathering (Watch.hits paths x.file)
          watch := { x.watch with arrived := rest }
          taken := [paths] } := by
        simp only [receive, h.station, h.watch, harrived, dropFirst, List.tail_cons]
      refine ⟨.receive :: errand rest.length, ?_⟩
      have hafter : x.after (.receive :: errand rest.length) =
          (x.receive.gather (Watch.hits paths x.file)).conclude := by
        rw [after, List.foldl_cons, act, hreceive]
        exact after_errand rfl
      have hopen : x.receive.queue.closed = false := by
        rw [hreceive, h.queue]
        exact h.opened
      rw [hafter, conclude_of_open (x := x.receive.gather _) rfl hopen, hreceive,
        SettingsWatch.wake, htake, harrived, List.any_cons]
      refine ⟨h.file, h.react, ?_, rfl, ?_, h.surroundings, h.owner, h.underway, ?_⟩
      · dsimp only [gather, settle]
        rw [h.watch]
      · dsimp only [gather, settle, reading]
        rw [h.file, h.queue]
      · dsimp only
        split
        · simp [Queue.push, h.opened]
        · exact h.opened

theorem Shows.moveIn (h : x.Shows w) (name : String) (node : Node) :
    ∃ acts, (x.after acts).Shows (w.moveIn name node) := by
  let path := Path.join w.directory name
  let s : Surroundings := { w.surroundings with files := w.surroundings.files.install path node }
  have hmoved : (x.after [.turn s, .arrive [path]]).Shows
      { w with surroundings := s, watch := w.watch.arrive [path] } :=
    { h with
      watch := congrArg (Watch.arrive · [path]) h.watch
      surroundings := rfl }
  obtain ⟨acts, hacts⟩ := hmoved.wake
  exact ⟨_, by rwa [← after_append] at hacts⟩

theorem Shows.hearNext (h : x.Shows w) : ∃ acts, (x.after acts).Shows w.hearNext := by
  refine ⟨[.hear], ?_⟩
  change x.hear.Shows w.hearNext
  cases hwaiting : w.queue.waiting with
  | nil =>
      have hhear : x.hear = x := by simp [hear, Queue.step?, h.queue, hwaiting]
      have hnext : w.hearNext = w := by simp [SettingsWatch.hearNext, Queue.step?, hwaiting]
      rwa [hhear, hnext]
  | cons job rest =>
      have hstep (apply : News → Ledger → Ledger) (l : Ledger) : w.queue.step? apply l =
          some ({ w.queue with waiting := rest ++ job.later }, apply job.act l) := by
        rw [Queue.step?, hwaiting]
      rw [hear, SettingsWatch.hearNext, h.queue, hstep, hstep]
      exact { h with
        queue := rfl
        owner := by dsimp only; rw [h.react, h.surroundings, h.owner] }

end Lookout

namespace SettingsWatch

inductive Act where
  | moveIn (name : String) (node : Node)
  | hearNext

def act (w : SettingsWatch) : Act → SettingsWatch
  | .moveIn name node => w.moveIn name node
  | .hearNext => w.hearNext

def after (w : SettingsWatch) (acts : List Act) : SettingsWatch := acts.foldl act w

end SettingsWatch

namespace Lookout

variable {x : Lookout Ledger} {w : SettingsWatch}

/-- Whatever happens in the directory, the watch of the settings stands as a lookout does. -/
theorem Shows.after (h : x.Shows w) (acts : List SettingsWatch.Act) :
    ∃ acts', (x.after acts').Shows (w.after acts) := by
  induction acts generalizing x w with
  | nil => exact ⟨[], h⟩
  | cons a acts ih =>
      have hact : ∃ acts', (x.after acts').Shows (w.act a) := by
        cases a with
        | moveIn name node => exact h.moveIn name node
        | hearNext => exact h.hearNext
      obtain ⟨acts₁, h₁⟩ := hact
      obtain ⟨acts₂, h₂⟩ := ih h₁
      exact ⟨acts₁ ++ acts₂, by rwa [after_append]⟩

theorem shows_start {s : Surroundings} {directory cluster : String}
    (hstart : SettingsWatch.start s directory cluster = .ok w) :
    (opening w.file Ledger.hear Queue.empty w.surroundings w.ledger).Shows w := by
  rw [SettingsWatch.start] at hstart
  cases hprepare : Watch.prepare s.files directory with
  | error e =>
      rw [hprepare] at hstart
      cases hstart
  | ok files =>
      rw [hprepare] at hstart
      cases hstart
      exact ⟨rfl, rfl, rfl, rfl, rfl, rfl, rfl, rfl, rfl⟩

end Lookout

end ClusterConsole.Background
