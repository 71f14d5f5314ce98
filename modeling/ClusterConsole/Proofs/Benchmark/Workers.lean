import ClusterConsole.Benchmark.Load
import ClusterConsole.Proofs.Benchmark.Tally

/-!
# The workers of a load

The workers of a load take turns in any order, their requests are answered in any way, and the
load may be called off at any moment: a run is any list of turns. A turn comes to nothing if
its worker waits for something else; what comes of the others is an `Event`, and `Step` lists
what each event changes. The events of a run account for what is left of the budget, for the
requests under way and for the tallies (`Reached.budget`, `Reached.balance`,
`Reached.sum_tallies`).
-/

namespace ClusterConsole.Benchmark

open ClusterConsole.Number

namespace Report

variable {t : Report}

theorem Ordered.count (h : t.Ordered) (reply : Reply) : (Worker.count t reply).Ordered := by
  cases reply with
  | status code => exact Ascending.addClass h (code / 100) 1
  | lost => exact h

theorem Balanced.count (h : t.Balanced) (reply : Reply) : (Worker.count t reply).Balanced := by
  have h : t.sent = t.errors + t.answered := h
  cases reply with
  | status code =>
      have htotal := classTotal_addClass (code / 100) 1 t.byClass
      change t.sent + 1 = t.errors + classTotal (addClass (code / 100) 1 t.byClass)
      rw [htotal, h, Nat.add_assoc]
      rfl
  | lost =>
      change t.sent + 1 = t.errors + 1 + t.answered
      omega

end Report

namespace Load

/-- What can happen to a load. -/
inductive Turn where
  | take (i : Nat)
  | answer (i : Nat) (reply : Reply)
  | giveUp (i : Nat)
  | callOff

/-- What comes of a turn. -/
inductive Event where
  /-- A worker took one from the budget. -/
  | taken
  /-- A worker found the budget spent. -/
  | refused
  | counted (reply : Reply)
  /-- A worker left a request that was under way. -/
  | abandoned
  | calledOff
  deriving DecidableEq

def turn (l : Load) : Turn → Load
  | .take i => l.take i
  | .answer i reply => l.answer i reply
  | .giveUp i => l.giveUp i
  | .callOff => l.callOff

/-- The load after some turns. -/
def after (l : Load) (turns : List Turn) : Load := turns.foldl turn l

def event? (l : Load) : Turn → Option Event
  | .take i =>
      match l.workers[i]? with
      | some ⟨.idle, _⟩ => some (if (takeOne l.budget).2 then .taken else .refused)
      | _ => none
  | .answer i reply =>
      match l.workers[i]? with
      | some ⟨.sending, _⟩ => some (.counted reply)
      | _ => none
  | .giveUp i =>
      match l.workers[i]? with
      | some ⟨.sending, _⟩ => if l.calledOff then some .abandoned else none
      | _ => none
  | .callOff => some .calledOff

/-- What comes of some turns. -/
def log (l : Load) : List Turn → List Event
  | [] => []
  | a :: turns => (l.event? a).toList ++ (l.turn a).log turns

/-- What an event changes. -/
inductive Step (l : Load) : Event → Load → Prop where
  | taken {before later : List Worker} {tally : Report} {n : Nat}
      (hworkers : l.workers = before ++ ⟨.idle, tally⟩ :: later) (hbudget : l.budget = n + 1) :
      Step l .taken { l with budget := n, workers := before ++ ⟨.sending, tally⟩ :: later }
  | refused {before later : List Worker} {tally : Report}
      (hworkers : l.workers = before ++ ⟨.idle, tally⟩ :: later) (hbudget : l.budget = 0) :
      Step l .refused { l with workers := before ++ ⟨.done, tally⟩ :: later }
  | counted {before later : List Worker} {tally : Report} {reply : Reply}
      (hworkers : l.workers = before ++ ⟨.sending, tally⟩ :: later) :
      Step l (.counted reply)
        { l with workers := before ++ ⟨.idle, Worker.count tally reply⟩ :: later }
  | abandoned {before later : List Worker} {tally : Report}
      (hworkers : l.workers = before ++ ⟨.sending, tally⟩ :: later)
      (hcalledOff : l.calledOff = true) :
      Step l .abandoned { l with workers := before ++ ⟨.done, tally⟩ :: later }
  | calledOff : Step l .calledOff { l with calledOff := true }

/-- The loads that can be reached, with what has come of the turns so far. -/
inductive Reached (s : Settings) : List Event → Load → Prop where
  | start : Reached s [] (start s)
  | step {events : List Event} {l l' : Load} {e : Event} (h : Reached s events l)
      (hstep : l.Step e l') : Reached s (events ++ [e]) l'

variable {s : Settings} {l l' : Load} {events : List Event} {e : Event} {i : Nat} {w : Worker}
  {a : Turn} {turns : List Turn}

/-! ## Turns and steps -/

theorem exists_split (h : l.workers[i]? = some w) : ∃ before later,
    l.workers = before ++ w :: later ∧ ∀ v, l.workers.set i v = before ++ v :: later := by
  obtain ⟨hi, rfl⟩ := List.getElem?_eq_some_iff.1 h
  refine ⟨l.workers.take i, l.workers.drop (i + 1), ?_, fun v => ?_⟩
  · rw [List.getElem_cons_drop, List.take_append_drop]
  · rw [List.set_eq_take_append_cons_drop, if_pos hi]

/-- A turn comes to nothing, or something comes of it. -/
theorem turn_cases (l : Load) (a : Turn) : (l.event? a = none ∧ l.turn a = l) ∨
    ∃ e, l.event? a = some e ∧ l.Step e (l.turn a) := by
  cases a with
  | callOff => exact .inr ⟨.calledOff, rfl, .calledOff⟩
  | take i =>
      rcases h : l.workers[i]? with - | ⟨phase, tally⟩
      · exact .inl (by simp [event?, turn, take, h])
      · obtain ⟨before, later, hworkers, hset⟩ := exists_split h
        cases phase with
        | idle =>
            cases hbudget : l.budget with
            | zero =>
                refine .inr ⟨.refused, by simp [event?, h, takeOne, hbudget], ?_⟩
                simp only [turn, take, h, takeOne, hbudget, hset]
                have hstep := Step.refused hworkers hbudget
                rwa [hbudget] at hstep
            | succ n =>
                refine .inr ⟨.taken, by simp [event?, h, takeOne, hbudget], ?_⟩
                simp only [turn, take, h, takeOne, hbudget, hset]
                exact .taken hworkers hbudget
        | _ => exact .inl (by simp [event?, turn, take, h])
  | answer i reply =>
      rcases h : l.workers[i]? with - | ⟨phase, tally⟩
      · exact .inl (by simp [event?, turn, answer, h])
      · obtain ⟨before, later, hworkers, hset⟩ := exists_split h
        cases phase with
        | sending =>
            refine .inr ⟨.counted reply, by simp [event?, h], ?_⟩
            simp only [turn, answer, h, hset]
            exact .counted hworkers
        | _ => exact .inl (by simp [event?, turn, answer, h])
  | giveUp i =>
      rcases h : l.workers[i]? with - | ⟨phase, tally⟩
      · exact .inl (by simp [event?, turn, giveUp, h])
      · obtain ⟨before, later, hworkers, hset⟩ := exists_split h
        cases phase with
        | sending =>
            by_cases hcalledOff : l.calledOff = true
            · refine .inr ⟨.abandoned, by simp [event?, h, hcalledOff], ?_⟩
              simp only [turn, giveUp, h, hset, hcalledOff, if_true]
              have hstep := Step.abandoned hworkers hcalledOff
              rwa [hcalledOff] at hstep
            · exact .inl (by simp [event?, turn, giveUp, h, hcalledOff])
        | _ => exact .inl (by simp [event?, turn, giveUp, h])

theorem Reached.log (h : Reached s events l) (turns : List Turn) :
    Reached s (events ++ l.log turns) (l.after turns) := by
  induction turns generalizing events l with
  | nil =>
      rw [Load.log, List.append_nil]
      exact h
  | cons a turns ih =>
      rcases l.turn_cases a with ⟨hnone, hturn⟩ | ⟨e, he, hstep⟩
      · rw [Load.log, hnone, Option.toList_none, List.nil_append, hturn]
        have hafter : l.after (a :: turns) = l.after turns := by
          rw [after, List.foldl_cons, hturn, ← after]
        rw [hafter]
        exact ih h
      · rw [Load.log, he, Option.toList_some, ← List.append_assoc]
        exact ih (h.step hstep)

theorem reached_after (s : Settings) (turns : List Turn) :
    Reached s ((start s).log turns) ((start s).after turns) :=
  Reached.start.log turns

/-! ## What the events account for -/

namespace Event

def reply? : Event → Option Reply
  | counted reply => some reply
  | _ => none

/-- A request was answered or lost. -/
def isReply (e : Event) : Bool := e.reply?.isSome

/-- A response of that class was counted. -/
def answers (key : Nat) : Event → Bool
  | counted (.status code) => code / 100 == key
  | _ => false

end Event

def tallies (l : Load) : List Report := l.workers.map Worker.tally

/-- The number of requests under way. -/
def underway (l : Load) : Nat := l.workers.countP fun w => w.phase == .sending

theorem Reached.workers (h : Reached s events l) : l.workers.length = max s.concurrency 1 := by
  induction h with
  | start => exact List.length_replicate
  | step h hstep ih => cases hstep <;> simp_all

theorem Reached.tally (h : Reached s events l) : ∀ t ∈ l.tallies, t.Ordered ∧ t.Balanced := by
  induction h with
  | start =>
      intro t ht
      obtain ⟨w, hw, rfl⟩ := List.mem_map.1 ht
      rw [List.eq_of_mem_replicate hw]
      exact ⟨List.Pairwise.nil, rfl⟩
  | step h hstep ih =>
      rw [tallies] at ih ⊢
      cases hstep with
      | counted hworkers =>
          rw [hworkers] at ih
          simp only [List.map_append, List.map_cons, List.forall_mem_append, List.forall_mem_cons]
            at ih ⊢
          obtain ⟨hbefore, ⟨hordered, hbalanced⟩, hlater⟩ := ih
          exact ⟨hbefore, ⟨hordered.count _, hbalanced.count _⟩, hlater⟩
      | calledOff => exact ih
      | _ hworkers =>
          rw [hworkers] at ih
          simpa using ih

/-- Nothing is taken that was not there, and who is refused finds nothing. -/
theorem Reached.budget (h : Reached s events l) :
    l.budget + events.count .taken = s.requests ∧ (.refused ∈ events → l.budget = 0) := by
  induction h with
  | start => exact ⟨rfl, nofun⟩
  | step h hstep ih =>
      obtain ⟨hbudget, hrefused⟩ := ih
      cases hstep with
      | taken hworkers hleft =>
          rw [hleft] at hbudget hrefused
          simp only [List.count_append, List.count_singleton_self, List.mem_append,
            List.mem_singleton, reduceCtorEq, or_false]
          exact ⟨by omega, fun hmem => absurd (hrefused hmem) (Nat.succ_ne_zero _)⟩
      | refused hworkers hspent =>
          rw [hspent, Nat.zero_add] at hbudget
          simp [List.count_append, hbudget, hspent]
      | _ => simpa [List.count_append] using ⟨hbudget, hrefused⟩

/-- Every request that was begun is under way, was answered or lost, or was left. -/
theorem Reached.balance (h : Reached s events l) :
    events.count .taken = events.countP Event.isReply + l.underway + events.count .abandoned := by
  induction h with
  | start => simp [underway, Load.start, Worker.fresh, List.countP_replicate]
  | step h hstep ih =>
      rw [underway] at ih ⊢
      cases hstep with
      | calledOff => simpa [List.count_append, Event.isReply, Event.reply?] using ih
      | _ hworkers =>
          simp only [hworkers, List.countP_append, List.countP_cons, List.count_append,
            List.count_singleton] at ih ⊢
          simp [Event.isReply, Event.reply?] at ih ⊢
          omega

/-- No request is left unless the load was called off. -/
theorem Reached.calledOff (h : Reached s events l) :
    (l.calledOff = true → .calledOff ∈ events) ∧ (.abandoned ∈ events → .calledOff ∈ events) := by
  induction h with
  | start => exact ⟨nofun, nofun⟩
  | step h hstep ih =>
      obtain ⟨hoff, hleft⟩ := ih
      cases hstep with
      | abandoned hworkers hcalledOff => simp [hoff hcalledOff]
      | calledOff => simp
      | _ => simpa using ⟨hoff, hleft⟩

/-- A worker that is done was refused or has left a request. -/
theorem Reached.done (h : Reached s events l) :
    ∀ w ∈ l.workers, w.phase = .done → .refused ∈ events ∨ .abandoned ∈ events := by
  induction h with
  | start =>
      intro w hw hphase
      rw [List.eq_of_mem_replicate hw] at hphase
      cases hphase
  | step h hstep ih =>
      cases hstep with
      | refused => simp
      | abandoned => simp
      | calledOff => simpa using ih
      | _ hworkers =>
          rw [hworkers] at ih
          simp only [List.forall_mem_append, List.forall_mem_cons] at ih ⊢
          simpa using ⟨ih.1, ih.2.2⟩

/-- What a tally grows by with some of the replies is, over all tallies, the number of those
replies. -/
theorem Reached.sum_tallies {f : Report → Nat} {p : Event → Bool} (hempty : f Report.empty = 0)
    (hcount : ∀ t reply, t.Ordered →
      f (Worker.count t reply) = f t + if p (.counted reply) then 1 else 0)
    (hother : ∀ e, e.reply? = none → p e = false) (h : Reached s events l) :
    (l.tallies.map f).sum = events.countP p := by
  induction h with
  | start => simp [tallies, Load.start, Worker.fresh, hempty]
  | @step _ _ _ e h hstep ih =>
      have hordered := h.tally
      have hsilent := hother e
      rw [List.countP_append, List.countP_singleton, ← ih]
      rw [tallies] at hordered ⊢
      cases hstep with
      | counted hworkers =>
          simp only [hworkers, List.map_append, List.map_cons, List.sum_append, List.sum_cons,
            List.forall_mem_append, List.forall_mem_cons, tallies] at hordered ⊢
          rw [hcount _ _ hordered.2.1.1]
          omega
      | calledOff => simp [hsilent rfl, tallies]
      | _ hworkers => simp [hsilent rfl, tallies, hworkers]

end Load

end ClusterConsole.Benchmark
