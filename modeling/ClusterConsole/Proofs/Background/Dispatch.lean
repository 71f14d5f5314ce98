import Mathlib.Data.List.Induction
import ClusterConsole.Proofs.Background.Unfolding

/-!
# Jobs and their receiver

Anyone may queue jobs at any time, and one receiver takes them out and applies them: one by
one, or in a drain as many as there are. What `Act` lists can happen in any order, in the middle
of a drain and of a job too. A job queues its own jobs one after the other, like anyone else. A
job that decides only when it is applied what it queues, or that never ends, is in here as well:
it is one for which others queue.

A step is one of nine (`Step`). What they keep is the order of the line (`Sound`); and as long as
the receiver is there, what was applied and what is still to come, added up, change only by what
others queue (`account_run`).

`tickets`, `calls`, `applied` and `counts` are read by statements only. Every call has a number,
its place among the calls, by which jobs that look the same are told apart.
-/

namespace ClusterConsole.Background

open Job (sizeAll unfolding)
open scoped List

namespace Dispatch

/-- A call that queues a job, and its answer. -/
structure Call (α : Type) where
  job : Job α
  taken : Bool

/-- What the receiver has in hand. -/
inductive Hand (α : Type) where
  | nothing
  /-- A job that was taken out and is about to be applied, with the number of its call. -/
  | job (n : Nat) (j : Job α)
  /-- A job that was applied; these it has not queued yet. -/
  | backlog (js : List (Job α))

inductive Act (α : Type) where
  | queue (j : Job α)
  /-- The receiver takes the next job, if one is waiting. -/
  | next
  /-- A drain begins. -/
  | drain
  /-- The receiver goes on. -/
  | work
  /-- The receiver is given up. In a drain it cannot be. -/
  | close

end Dispatch

open Dispatch in
structure Dispatch (α σ : Type) where
  queue : Queue α
  state : σ
  hand : Hand α
  /-- How many jobs the drain has done that is going on, if one is. -/
  drain : Option Nat
  /-- The numbers of the waiting jobs. -/
  tickets : List Nat
  calls : List (Call α)
  /-- The jobs that were applied, with their numbers. -/
  applied : List (Nat × Job α)
  /-- What the drains have returned. -/
  counts : List Nat

namespace Dispatch

variable {α σ : Type} {apply : α → σ → σ} {s₀ : σ} {x y : Dispatch α σ} {a : Act α}
  {acts : List (Act α)}

def start (s₀ : σ) : Dispatch α σ := ⟨Queue.empty, s₀, .nothing, none, [], [], [], []⟩

def call (x : Dispatch α σ) (j : Job α) : Dispatch α σ :=
  { x with
    queue := (x.queue.push j).1
    tickets := if (x.queue.push j).2 then x.tickets ++ [x.calls.length] else x.tickets
    calls := x.calls ++ [⟨j, (x.queue.push j).2⟩] }

def take (x : Dispatch α σ) : Dispatch α σ :=
  match x.queue.waiting with
  | [] => x
  | j :: js =>
      { x with
        queue := { x.queue with waiting := js }
        tickets := x.tickets.tail
        hand := .job (x.tickets.headD 0) j }

def next (x : Dispatch α σ) : Dispatch α σ :=
  match x.hand, x.drain with
  | .nothing, none => x.take
  | _, _ => x

def beginDrain (x : Dispatch α σ) : Dispatch α σ :=
  match x.hand, x.drain, x.queue.closed with
  | .nothing, none, false => { x with drain := some 0 }
  | _, _, _ => x

def work (apply : α → σ → σ) (x : Dispatch α σ) : Dispatch α σ :=
  match x.hand, x.drain with
  | .job n j, _ =>
      { x with
        state := apply j.act x.state
        applied := x.applied ++ [(n, j)]
        hand := .backlog j.later }
  | .backlog (j :: js), _ => { x.call j with hand := .backlog js }
  | .backlog [], _ => { x with hand := .nothing, drain := x.drain.map (· + 1) }
  | .nothing, none => x
  | .nothing, some n =>
      match x.queue.waiting with
      | [] => { x with drain := none, counts := x.counts ++ [n] }
      | _ :: _ => x.take

def close (x : Dispatch α σ) : Dispatch α σ :=
  match x.drain with
  | none => { x with queue := x.queue.close, tickets := [] }
  | some _ => x

def act (apply : α → σ → σ) (x : Dispatch α σ) : Act α → Dispatch α σ
  | .queue j => x.call j
  | .next => x.next
  | .drain => x.beginDrain
  | .work => x.work apply
  | .close => x.close

def run (apply : α → σ → σ) (x : Dispatch α σ) (acts : List (Act α)) : Dispatch α σ :=
  acts.foldl (act apply) x

theorem run_append (x : Dispatch α σ) (acts acts' : List (Act α)) :
    x.run apply (acts ++ acts') = (x.run apply acts).run apply acts' := List.foldl_append

/-- The jobs that others queue in an act. -/
def Act.queued : Act α → List (Job α)
  | .queue j => [j]
  | _ => []

def Act.isWork : Act α → Bool
  | .work => true
  | _ => false

/-- The jobs that were accepted, in the order of their calls. -/
def entered (calls : List (Call α)) : List (Nat × Job α) :=
  calls.zipIdx.filterMap fun p => if p.1.taken then some (p.2, p.1.job) else none

/-! ## What an act can do -/

/-- Only a receiver that is in a drain has to go on. -/
inductive Step (apply : α → σ → σ) (x : Dispatch α σ) : Act α → Dispatch α σ → Prop where
  | still {a : Act α} (hqueued : a.queued = []) (hwork : a.isWork = true → x.drain = none) :
      Step apply x a x
  | calls (j : Job α) : Step apply x (.queue j) (x.call j)
  | takes {a : Act α} {j : Job α} {js : List (Job α)} (hqueued : a.queued = [])
      (hhand : x.hand = .nothing) (hwaiting : x.queue.waiting = j :: js) :
      Step apply x a { x with
        queue := { x.queue with waiting := js }
        tickets := x.tickets.tail
        hand := .job (x.tickets.headD 0) j }
  | begins (hhand : x.hand = .nothing) (hdrain : x.drain = none) (hopen : x.queue.closed = false) :
      Step apply x .drain { x with drain := some 0 }
  | applies {n : Nat} {j : Job α} (hhand : x.hand = .job n j) :
      Step apply x .work { x with
        state := apply j.act x.state
        applied := x.applied ++ [(n, j)]
        hand := .backlog j.later }
  | hands {j : Job α} {js : List (Job α)} (hhand : x.hand = .backlog (j :: js)) :
      Step apply x .work { x.call j with hand := .backlog js }
  | finishes (hhand : x.hand = .backlog []) :
      Step apply x .work { x with hand := .nothing, drain := x.drain.map (· + 1) }
  | ends {n : Nat} (hhand : x.hand = .nothing) (hdrain : x.drain = some n)
      (hwaiting : x.queue.waiting = []) :
      Step apply x .work { x with drain := none, counts := x.counts ++ [n] }
  | closes (hdrain : x.drain = none) :
      Step apply x .close { x with queue := x.queue.close, tickets := [] }

theorem step_next (apply : α → σ → σ) (x : Dispatch α σ) : Step apply x .next x.next := by
  unfold next
  split
  · rename_i hhand _
    cases hwaiting : x.queue.waiting with
    | nil =>
        rw [take, hwaiting]
        exact .still rfl nofun
    | cons j js =>
        simp only [take, hwaiting]
        exact .takes rfl hhand hwaiting
  · exact .still rfl nofun

theorem step_beginDrain (apply : α → σ → σ) (x : Dispatch α σ) :
    Step apply x .drain x.beginDrain := by
  unfold beginDrain
  split
  · exact .begins ‹_› ‹_› ‹_›
  · exact .still rfl nofun

theorem step_work (apply : α → σ → σ) (x : Dispatch α σ) : Step apply x .work (x.work apply) := by
  unfold work
  split
  · exact .applies ‹_›
  · exact .hands ‹_›
  · exact .finishes ‹_›
  · exact .still rfl fun _ => ‹_›
  · rename_i n hhand hdrain
    cases hwaiting : x.queue.waiting with
    | nil => exact .ends hhand hdrain hwaiting
    | cons j js =>
        simp only [take, hwaiting]
        exact .takes rfl hhand hwaiting

theorem step_close (apply : α → σ → σ) (x : Dispatch α σ) : Step apply x .close x.close := by
  unfold close
  split
  · exact .closes ‹_›
  · exact .still rfl nofun

theorem step_act (apply : α → σ → σ) (x : Dispatch α σ) (a : Act α) :
    Step apply x a (x.act apply a) := by
  cases a with
  | queue j => exact .calls j
  | next => exact step_next apply x
  | drain => exact step_beginDrain apply x
  | work => exact step_work apply x
  | close => exact step_close apply x

/-! ## Calls -/

theorem call_of_open (h : x.queue.closed = false) (j : Job α) :
    x.call j = { x with
      queue := { x.queue with waiting := x.queue.waiting ++ [j] }
      tickets := x.tickets ++ [x.calls.length]
      calls := x.calls ++ [⟨j, true⟩] } := by
  simp [call, Queue.push, h]

theorem call_of_closed (h : x.queue.closed = true) (j : Job α) :
    x.call j = { x with calls := x.calls ++ [⟨j, false⟩] } := by
  simp [call, Queue.push, h]

theorem calls_call (x : Dispatch α σ) (j : Job α) :
    (x.call j).calls = x.calls ++ [⟨j, !x.queue.closed⟩] := by
  cases h : x.queue.closed with
  | true => rw [call_of_closed h]; rfl
  | false => rw [call_of_open h]; rfl

theorem closed_call (x : Dispatch α σ) (j : Job α) :
    (x.call j).queue.closed = x.queue.closed := by
  cases h : x.queue.closed with
  | true => rw [call_of_closed h, h]
  | false => rw [call_of_open h]; exact h

theorem entered_concat (calls : List (Call α)) (c : Call α) :
    entered (calls ++ [c]) =
      entered calls ++ if c.taken then [(calls.length, c.job)] else [] := by
  rw [entered, List.zipIdx_append, List.filterMap_append]
  cases h : c.taken <;> simp [entered, h]

theorem getElem?_of_mem_entered {calls : List (Call α)} {n : Nat} {j : Job α}
    (h : (n, j) ∈ entered calls) : calls[n]? = some ⟨j, true⟩ := by
  obtain ⟨⟨c, k⟩, hmem, hsome⟩ := List.mem_filterMap.1 h
  rw [List.mk_mem_zipIdx_iff_getElem?] at hmem
  obtain ⟨job, taken⟩ := c
  cases taken with
  | false => cases hsome
  | true =>
      cases hsome
      exact hmem

theorem pairwise_entered (calls : List (Call α)) :
    (entered calls).Pairwise fun p q => p.1 < q.1 := by
  induction calls using List.reverseRecOn with
  | nil => exact .nil
  | append_singleton calls c ih =>
      rw [entered_concat, List.pairwise_append]
      refine ⟨ih, ?_, ?_⟩
      · split <;> simp
      · intro p hp q hq
        obtain ⟨n, i⟩ := p
        have hcall := getElem?_of_mem_entered hp
        split at hq
        · rw [List.mem_singleton.1 hq]
          exact (List.getElem?_eq_some_iff.1 hcall).1
        · cases hq

/-! ## The order of the line -/

/-- The job that was taken out and is about to be applied. -/
def held (x : Dispatch α σ) : List (Nat × Job α) :=
  match x.hand with
  | .job n j => [(n, j)]
  | _ => []

structure Sound (apply : α → σ → σ) (s₀ : σ) (x : Dispatch α σ) : Prop where
  aligned : x.tickets.length = x.queue.waiting.length
  /-- What was accepted is applied, in hand, waiting, or was lost when the receiver was given up. -/
  line : ∃ lost, entered x.calls = x.applied ++ x.held ++ x.tickets.zip x.queue.waiting ++ lost ∧
    (x.queue.closed = false → lost = [])
  emptied : x.queue.closed = true → x.queue.waiting = []
  listening : x.drain.isSome = true → x.queue.closed = false
  state : x.state = x.applied.foldl (fun s p => apply p.2.act s) s₀

theorem Sound.start (apply : α → σ → σ) (s₀ : σ) : Sound apply s₀ (start s₀ : Dispatch α σ) where
  aligned := rfl
  line := ⟨[], rfl, fun _ => rfl⟩
  emptied _ := rfl
  listening := nofun
  state := rfl

theorem Sound.call (h : Sound apply s₀ x) (j : Job α) : Sound apply s₀ (x.call j) := by
  obtain ⟨lost, hline, hlost⟩ := h.line
  cases hclosed : x.queue.closed with
  | true =>
      rw [call_of_closed hclosed]
      refine { h with line := ⟨lost, ?_, hlost⟩ }
      rw [entered_concat]
      simpa [held] using hline
  | false =>
      rw [call_of_open hclosed]
      refine { h with aligned := ?_, line := ⟨[], ?_, fun _ => rfl⟩, emptied := ?_ }
      · simp [h.aligned]
      · rw [entered_concat, hline, hlost hclosed, List.zip_append h.aligned]
        simp [held]
      · intro hc
        rw [hclosed] at hc
        cases hc

theorem Sound.step (h : Sound apply s₀ x) (hstep : Step apply x a y) : Sound apply s₀ y := by
  obtain ⟨lost, hline, hlost⟩ := h.line
  cases hstep with
  | still => exact h
  | calls j => exact h.call j
  | @takes _ j js hqueued hhand hwaiting =>
      obtain ⟨n, ns, htickets⟩ : ∃ n ns, x.tickets = n :: ns := by
        have haligned := h.aligned
        rw [hwaiting, List.length_cons] at haligned
        exact List.exists_cons_of_length_eq_add_one haligned
      refine { h with aligned := ?_, line := ⟨lost, ?_, hlost⟩, emptied := ?_ }
      · have haligned := h.aligned
        rw [hwaiting, htickets] at haligned
        rw [htickets]
        exact Nat.succ.inj haligned
      · rw [hline, hwaiting, htickets]
        simp [held, hhand]
      · intro hclosed
        have hnone := h.emptied hclosed
        rw [hwaiting] at hnone
        cases hnone
  | begins hhand hdrain hopen => exact { h with listening := fun _ => hopen }
  | @applies n j hhand =>
      refine { h with line := ⟨lost, ?_, hlost⟩, state := ?_ }
      · rw [hline]
        simp [held, hhand]
      · rw [h.state, List.foldl_append]
        rfl
  | @hands j js hhand =>
      have hcall := h.call j
      obtain ⟨lost', hline', hlost'⟩ := hcall.line
      refine { hcall with line := ⟨lost', ?_, hlost'⟩ }
      have hnone : (x.call j).held = [] := by simp [held, Dispatch.call, hhand]
      rw [hline', hnone]
      rfl
  | finishes hhand =>
      refine { h with line := ⟨lost, ?_, hlost⟩, listening := ?_ }
      · rw [hline]
        simp [held, hhand]
      · rw [Option.isSome_map]
        exact h.listening
  | ends => exact { h with listening := nofun }
  | closes hdrain =>
      refine
        { h with
          aligned := rfl
          line := ⟨x.tickets.zip x.queue.waiting ++ lost, ?_, nofun⟩
          emptied := fun _ => rfl
          listening := fun hsome => ?_ }
      · rw [hline]
        simp [held, Queue.close]
      · rw [hdrain] at hsome
        cases hsome

theorem Sound.run (h : Sound apply s₀ x) (acts : List (Act α)) :
    Sound apply s₀ (x.run apply acts) := by
  induction acts generalizing x with
  | nil => exact h
  | cons a acts ih => exact ih (h.step (step_act apply x a))

theorem Sound.entered_eq (h : Sound apply s₀ x) (hopen : x.queue.closed = false) :
    entered x.calls = x.applied ++ x.held ++ x.tickets.zip x.queue.waiting := by
  obtain ⟨lost, hline, hlost⟩ := h.line
  rw [hline, hlost hopen, List.append_nil]

/-- Whenever the receiver has nothing in hand and nothing is waiting, all is applied. -/
theorem Sound.applied_eq (h : Sound apply s₀ x) (hopen : x.queue.closed = false)
    (hhand : x.hand = .nothing) (hwaiting : x.queue.waiting = []) :
    x.applied = entered x.calls := by
  rw [h.entered_eq hopen, hwaiting]
  simp [held, hhand]

theorem Sound.prefix_entered (h : Sound apply s₀ x) : x.applied <+: entered x.calls := by
  obtain ⟨lost, hline, -⟩ := h.line
  rw [hline, List.append_assoc, List.append_assoc]
  exact List.prefix_append _ _

/-! ## The end of the receiver -/

theorem closed_of_step (hstep : Step apply x a y) (ha : a ≠ .close) :
    y.queue.closed = x.queue.closed := by
  cases hstep with
  | calls j => exact closed_call x j
  | hands => exact closed_call x _
  | closes => exact absurd rfl ha
  | _ => rfl

theorem closed_act_iff : (x.act apply a).queue.closed = true ↔
    x.queue.closed = true ∨ a = .close ∧ x.drain = none := by
  cases a with
  | close => cases hdrain : x.drain <;> simp [act, close, hdrain, Queue.close]
  | _ => simp [closed_of_step (step_act apply x _)]

theorem closed_run_iff : (x.run apply acts).queue.closed = true ↔
    x.queue.closed = true ∨
      ∃ p rest, acts = p ++ .close :: rest ∧ (x.run apply p).drain = none := by
  induction acts generalizing x with
  | nil => simp [run]
  | cons a acts ih =>
      rw [run, List.foldl_cons, ← run, ih, closed_act_iff, or_assoc]
      refine or_congr_right ⟨?_, ?_⟩
      · rintro (⟨rfl, hdrain⟩ | ⟨p, rest, rfl, hdrain⟩)
        · exact ⟨[], acts, rfl, hdrain⟩
        · exact ⟨a :: p, rest, rfl, hdrain⟩
      · rintro ⟨p, rest, hsplit, hdrain⟩
        cases p with
        | nil =>
            obtain ⟨rfl, -⟩ := List.cons.inj hsplit
            exact .inl ⟨rfl, hdrain⟩
        | cons b p =>
            obtain ⟨rfl, rfl⟩ := List.cons.inj hsplit
            exact .inr ⟨p, rest, rfl, hdrain⟩

theorem open_of_run (x : Dispatch α σ) (acts : List (Act α))
    (h : (x.run apply acts).queue.closed = false) : x.queue.closed = false := by
  cases hx : x.queue.closed with
  | false => rfl
  | true =>
      rw [closed_run_iff.2 (.inl hx)] at h
      cases h

/-! ## What is still to come -/

/-- The jobs that the receiver would apply from now on if nobody else queued any. -/
def rest (x : Dispatch α σ) : List (Job α) :=
  match x.hand with
  | .nothing => unfolding x.queue.waiting
  | .job _ j => j :: unfolding (x.queue.waiting ++ j.later)
  | .backlog js => unfolding (x.queue.waiting ++ js)

/-- The jobs that were applied and those still to come. -/
def account (x : Dispatch α σ) : List (Job α) := x.applied.map Prod.snd ++ x.rest

theorem account_call (hopen : x.queue.closed = false) (j : Job α) :
    (x.call j).account.Perm (x.account ++ unfolding [j]) := by
  rw [account, account, List.append_assoc, call_of_open hopen]
  refine List.Perm.append_left _ ?_
  have hmiddle : ∀ w js : List (Job α),
      (unfolding (w ++ [j] ++ js)).Perm (unfolding (w ++ js) ++ unfolding [j]) := by
    intro w js
    calc unfolding (w ++ [j] ++ js)
      _ = unfolding (w ++ ([j] ++ js)) := by rw [List.append_assoc]
      _ ~ unfolding w ++ unfolding ([j] ++ js) := Job.unfolding_append_perm _ _
      _ ~ unfolding w ++ (unfolding js ++ unfolding [j]) :=
        ((Job.unfolding_append_perm _ _).trans List.perm_append_comm).append_left _
      _ = unfolding w ++ unfolding js ++ unfolding [j] := (List.append_assoc _ _ _).symm
      _ ~ unfolding (w ++ js) ++ unfolding [j] :=
        (Job.unfolding_append_perm _ _).symm.append_right _
  cases hhand : x.hand with
  | nothing =>
      simp only [rest, hhand]
      exact Job.unfolding_append_perm _ _
  | job n i =>
      simp only [rest, hhand]
      exact (hmiddle _ _).cons i
  | backlog js =>
      simp only [rest, hhand]
      exact hmiddle _ _

/-- Only what others queue changes the account. -/
theorem account_step (hstep : Step apply x a y) (hopen : y.queue.closed = false)
    (hqueued : a.queued = []) : y.account = x.account := by
  cases hstep with
  | calls => cases hqueued
  | takes _ hhand hwaiting =>
      simp only [account, rest, hhand, hwaiting, Job.unfolding_cons]
  | applies hhand => simp [account, rest, hhand]
  | hands hhand =>
      rw [call_of_open ((closed_call _ _).symm.trans hopen)]
      simp [account, rest, hhand]
  | finishes hhand => simp [account, rest, hhand]
  | closes => cases hopen
  | _ => rfl

theorem account_run (hopen : (x.run apply acts).queue.closed = false) :
    (x.run apply acts).account.Perm (x.account ++ unfolding (acts.flatMap Act.queued)) := by
  induction acts generalizing x with
  | nil => simp [run]
  | cons a acts ih =>
      have hone : (x.act apply a).account.Perm (x.account ++ unfolding a.queued) := by
        have hnow := open_of_run (x.act apply a) acts hopen
        cases a with
        | queue j => exact account_call (by rwa [act, closed_call] at hnow) j
        | _ =>
            rw [account_step (step_act apply x _) hnow rfl]
            simp [Act.queued]
      calc (x.run apply (a :: acts)).account
        _ ~ (x.act apply a).account ++ unfolding (acts.flatMap Act.queued) := ih hopen
        _ ~ x.account ++ unfolding a.queued ++ unfolding (acts.flatMap Act.queued) :=
          hone.append_right _
        _ = x.account ++ (unfolding a.queued ++ unfolding (acts.flatMap Act.queued)) :=
          List.append_assoc _ _ _
        _ ~ x.account ++ unfolding (a.queued ++ acts.flatMap Act.queued) :=
          (Job.unfolding_append_perm _ _).symm.append_left _

/-- Where nobody else queues anything the receiver comes through what was to come, in that
order. -/
theorem account_run_of_quiet (hopen : (x.run apply acts).queue.closed = false)
    (hquiet : acts.flatMap Act.queued = []) : (x.run apply acts).account = x.account := by
  induction acts generalizing x with
  | nil => rfl
  | cons a acts ih =>
      rw [List.flatMap_cons, List.append_eq_nil_iff] at hquiet
      exact (ih hopen hquiet.2).trans
        (account_step (step_act apply x a) (open_of_run _ acts hopen) hquiet.1)

/-! ## How long a drain takes -/

/-- For every job that is to come: to take it, to apply it and to see that it is done, and, unless
it is waiting already, to queue it. In the end the queue is found empty. -/
def labour (x : Dispatch α σ) : Nat :=
  3 * sizeAll x.queue.waiting + sizeAll (x.queue.waiting.flatMap Job.later) +
    match x.hand with
    | .nothing => 1
    | .job _ j => 4 * sizeAll j.later + 3
    | .backlog js => 4 * sizeAll js + 2

theorem labour_call (hopen : x.queue.closed = false) (j : Job α) :
    (x.call j).labour + 1 = x.labour + 4 * j.size := by
  have hsize := j.size_eq
  rw [call_of_open hopen]
  simp only [labour, Job.sizeAll_append, List.flatMap_append, List.flatMap_singleton, Job.sizeAll]
  omega

theorem labour_pos (x : Dispatch α σ) : 0 < x.labour := by
  unfold labour
  split <;> omega

/-- A receiver that goes on in a drain has one thing less to do, and only what others queue gives
it more. -/
theorem labour_step (hstep : Step apply x a y) (hopen : x.queue.closed = false)
    (hx : x.drain.isSome = true) (hy : y.drain.isSome = true) :
    y.labour + (if a.isWork then 1 else 0) ≤ x.labour + 4 * sizeAll a.queued := by
  have hwork : (if a.isWork then 1 else 0) ≤ 1 := by split <;> omega
  cases hstep with
  | still _ hidle =>
      cases ha : a.isWork with
      | false => exact Nat.le_add_right _ _
      | true =>
          rw [hidle ha] at hx
          cases hx
  | calls j =>
      have hcall := labour_call hopen j
      simp only [Act.queued, Act.isWork, Job.sizeAll, Bool.false_eq_true, if_false]
      omega
  | @takes _ j js _ hhand hwaiting =>
      have hsize := j.size_eq
      simp only [labour, hhand, hwaiting, List.flatMap_cons, Job.sizeAll_append, Job.sizeAll]
      omega
  | begins _ hdrain =>
      rw [hdrain] at hx
      cases hx
  | applies hhand =>
      simp only [labour, hhand]
      omega
  | @hands j js hhand =>
      have hcall := labour_call hopen j
      have hhand' : (x.call j).hand = .backlog (j :: js) := hhand
      simp only [labour, hhand, hhand', Job.sizeAll] at hcall ⊢
      omega
  | finishes hhand =>
      simp only [labour, hhand, Job.sizeAll]
      omega
  | ends => cases hy
  | closes hdrain =>
      rw [hdrain] at hx
      cases hx

/-- A drain is going on all along. -/
def Draining (apply : α → σ → σ) (x : Dispatch α σ) (acts : List (Act α)) : Prop :=
  ∀ p, p <+: acts → (x.run apply p).drain.isSome = true

theorem Draining.now (h : Draining apply x acts) : x.drain.isSome = true :=
  h [] List.nil_prefix

theorem Draining.tail (h : Draining apply x (a :: acts)) : Draining apply (x.act apply a) acts :=
  fun p hp => h (a :: p) (List.cons_prefix_cons.2 ⟨rfl, hp⟩)

theorem Draining.nil (h : x.drain.isSome = true) : Draining apply x [] := by
  intro p hp
  rw [List.prefix_nil.1 hp]
  exact h

theorem Draining.cons (hx : x.drain.isSome = true) (h : Draining apply (x.act apply a) acts) :
    Draining apply x (a :: acts) := by
  intro p hp
  cases p with
  | nil => exact hx
  | cons b p =>
      obtain ⟨rfl, hp'⟩ := List.cons_prefix_cons.1 hp
      exact h p hp'

theorem Draining.labour_run (h : Draining apply x acts) (hsound : Sound apply s₀ x) :
    (x.run apply acts).labour + acts.countP Act.isWork ≤
      x.labour + 4 * sizeAll (acts.flatMap Act.queued) := by
  induction acts generalizing x with
  | nil => exact Nat.le_add_right _ _
  | cons a acts ih =>
      have hstep := step_act apply x a
      have hone := labour_step hstep (hsound.listening h.now) h.now h.tail.now
      have hmore := ih h.tail (hsound.step hstep)
      rw [List.countP_cons, List.flatMap_cons, Job.sizeAll_append]
      rw [run, List.foldl_cons, ← run]
      omega

/-- A drain that does not go on all along ends somewhere. -/
theorem exists_end (hx : x.drain.isSome = true) (h : ¬ Draining apply x acts) :
    ∃ p a rest, acts = p ++ a :: rest ∧ Draining apply x p ∧
      (x.run apply (p ++ [a])).drain = none := by
  induction acts generalizing x with
  | nil => exact absurd (Draining.nil hx) h
  | cons a acts ih =>
      cases hdrain : (x.act apply a).drain with
      | none => exact ⟨[], a, acts, rfl, .nil hx, hdrain⟩
      | some n =>
          have hnow : (x.act apply a).drain.isSome = true := by rw [hdrain]; rfl
          obtain ⟨p, b, rest, rfl, hp, hend⟩ := ih hnow fun hmore => h (hmore.cons hx)
          exact ⟨a :: p, b, rest, rfl, hp.cons hx, hend⟩

/-! ## What a drain has done -/

/-- Whether a job was applied that is not counted yet. -/
def uncounted (x : Dispatch α σ) : Nat :=
  match x.hand with
  | .backlog _ => 1
  | _ => 0

/-- If a drain is going on, so many jobs were applied before it, and that is what the drains
before it have returned. -/
structure Underway (before : Nat) (counts : List Nat) (x : Dispatch α σ) : Prop where
  counted : ∀ n, x.drain = some n → before + n + x.uncounted = x.applied.length
  returned : x.counts = counts

theorem Underway.step {before : Nat} {counts : List Nat} (h : Underway before counts x)
    (hstep : Step apply x a y) (hx : x.drain.isSome = true) (hy : y.drain.isSome = true) :
    Underway before counts y := by
  refine ⟨?_, ?_⟩
  · intro n hn
    cases hstep with
    | still => exact h.counted n hn
    | calls => exact h.counted n hn
    | takes _ hhand =>
        have hcounted := h.counted n hn
        simp only [uncounted, hhand] at hcounted ⊢
        exact hcounted
    | begins _ hdrain =>
        rw [hdrain] at hx
        cases hx
    | applies hhand =>
        have hcounted := h.counted n hn
        simp only [uncounted, hhand, List.length_append, List.length_singleton] at hcounted ⊢
        omega
    | hands hhand =>
        have hcounted := h.counted n hn
        simp only [uncounted, hhand] at hcounted ⊢
        exact hcounted
    | finishes hhand =>
        obtain ⟨m, hm, rfl⟩ := Option.map_eq_some_iff.1 hn
        have hcounted := h.counted m hm
        simp only [uncounted, hhand] at hcounted ⊢
        omega
    | ends => cases hn
    | closes hdrain =>
        rw [hdrain] at hx
        cases hx
  · cases hstep with
    | ends => cases hy
    | _ => exact h.returned

theorem Draining.underway {before : Nat} {counts : List Nat} (h : Draining apply x acts)
    (hx : Underway before counts x) : Underway before counts (x.run apply acts) := by
  induction acts generalizing x with
  | nil => exact hx
  | cons a acts ih => exact ih h.tail (hx.step (step_act apply x a) h.now h.tail.now)

/-- A drain ends when the receiver finds nothing waiting. -/
theorem step_end (hstep : Step apply x a y) (hx : x.drain.isSome = true) (hy : y.drain = none) :
    ∃ n, a = .work ∧ x.hand = .nothing ∧ x.drain = some n ∧ x.queue.waiting = [] ∧
      y = { x with drain := none, counts := x.counts ++ [n] } := by
  cases hstep with
  | ends hhand hdrain hwaiting => exact ⟨_, rfl, hhand, hdrain, hwaiting, rfl⟩
  | begins => cases hy
  | finishes =>
      rw [Option.map_eq_none_iff] at hy
      rw [hy] at hx
      cases hx
  | closes hdrain =>
      rw [hdrain] at hx
      cases hx
  | calls =>
      have hsame : x.drain = none := hy
      rw [hsame] at hx
      cases hx
  | hands =>
      have hsame : x.drain = none := hy
      rw [hsame] at hx
      cases hx
  | _ =>
      rw [hy] at hx
      cases hx

theorem prefix_applied_step (hstep : Step apply x a y) : x.applied <+: y.applied := by
  cases hstep with
  | applies => exact List.prefix_append _ _
  | _ => exact List.prefix_refl _

theorem prefix_applied_run (apply : α → σ → σ) (x : Dispatch α σ) (acts : List (Act α)) :
    x.applied <+: (x.run apply acts).applied := by
  induction acts generalizing x with
  | nil => exact List.prefix_refl _
  | cons a acts ih => exact (prefix_applied_step (step_act apply x a)).trans (ih _)

/-- What a drain that has begun at `x` leaves: it has applied `more`, while others have queued
`queued`. -/
structure Drained (x z : Dispatch α σ) (queued : List (Job α)) (more : List (Nat × Job α)) :
    Prop where
  ended : z.drain = none ∧ z.hand = .nothing
  emptied : z.queue.waiting = [] ∧ z.queue.closed = false
  applied : z.applied = x.applied ++ more
  everything : z.applied = entered z.calls
  returned : z.counts = x.counts ++ [more.length]
  /-- All that was waiting or came to wait is applied, and all that comes of it, -/
  jobs : (more.map Prod.snd).Perm (unfolding (x.queue.waiting ++ queued))
  /-- and if nobody else has queued anything, generation by generation. -/
  generations : queued = [] → more.map Prod.snd = unfolding x.queue.waiting

/-! ### The moment at which it ends -/

section Begun

variable (h : Sound apply s₀ x) (hhand : x.hand = .nothing) (hdrain : x.drain = none)
  (hopen : x.queue.closed = false)

include hhand hdrain hopen

theorem act_drain (apply : α → σ → σ) : x.act apply .drain = { x with drain := some 0 } := by
  simp [act, beginDrain, hhand, hdrain, hopen]

include h

theorem Sound.drained {p : List (Act α)} (hgoes : Draining apply (x.act apply .drain) p)
    (hend : (((x.act apply .drain).run apply p).act apply a).drain = none) :
    a = .work ∧ ∃ more,
      Drained x (((x.act apply .drain).run apply p).act apply a) (p.flatMap Act.queued) more := by
  have hbegun := act_drain hhand hdrain hopen apply
  have hsound : Sound apply s₀ ((x.act apply .drain).run apply p) :=
    (h.step (step_act apply x .drain)).run p
  have hunderway : Underway x.applied.length x.counts ((x.act apply .drain).run apply p) := by
    refine hgoes.underway ?_
    rw [hbegun]
    refine ⟨fun n hn => ?_, rfl⟩
    cases hn
    simp [uncounted, hhand]
  have hnow := hgoes p (List.prefix_refl _)
  have hlistening := hsound.listening hnow
  have haccount := account_run hlistening
  have hquiet := account_run_of_quiet hlistening
  obtain ⟨more, hmore⟩ := prefix_applied_run apply (x.act apply .drain) p
  obtain ⟨n, rfl, hidle, hn, hwaiting, hlast⟩ := step_end (step_act apply _ a) hnow hend
  generalize (x.act apply .drain).run apply p = y at *
  have happlied : y.applied = x.applied ++ more := by
    rw [← hmore, hbegun]
  have hafter : y.account = x.applied.map Prod.snd ++ more.map Prod.snd := by
    simp [account, rest, hidle, hwaiting, happlied]
  have hbefore : (x.act apply .drain).account =
      x.applied.map Prod.snd ++ unfolding x.queue.waiting := by
    rw [hbegun, account, rest, hhand]
  rw [hafter, hbefore] at haccount hquiet
  refine ⟨rfl, more, ?_⟩
  rw [hlast]
  exact
    { ended := ⟨rfl, hidle⟩
      emptied := ⟨hwaiting, hlistening⟩
      applied := happlied
      everything := hsound.applied_eq hlistening hidle hwaiting
      returned := by
        have hcounted := hunderway.counted n hn
        rw [happlied, List.length_append, uncounted, hidle] at hcounted
        have hlength : n = more.length := Nat.add_left_cancel hcounted
        rw [hunderway.returned, hlength]
      jobs := by
        rw [List.append_assoc, List.perm_append_left_iff] at haccount
        exact haccount.trans (Job.unfolding_append_perm _ _).symm
      generations := fun hnone => List.append_cancel_left (hquiet hnone) }

/-- A drain comes to its end within four moves of the receiver for each job, those that others
queue meanwhile counted too. -/
theorem Sound.exists_drained {during : List (Act α)}
    (hlong : 4 * sizeAll (x.queue.waiting ++ during.flatMap Act.queued) <
      during.countP Act.isWork) :
    ∃ p rest more, during = p ++ .work :: rest ∧
      Drained x (((x.act apply .drain).run apply p).act apply .work) (p.flatMap Act.queued)
        more := by
  have hbegun := act_drain hhand hdrain hopen apply
  have hnow : (x.act apply .drain).drain.isSome = true := by rw [hbegun]; rfl
  have hends : ¬ Draining apply (x.act apply .drain) during := by
    intro hgoes
    have hlabour := hgoes.labour_run (h.step (step_act apply x .drain))
    have hpos := labour_pos ((x.act apply .drain).run apply during)
    have hsize := Job.sizeAll_flatMap_later x.queue.waiting
    have hfirst : (x.act apply .drain).labour =
        3 * sizeAll x.queue.waiting + sizeAll (x.queue.waiting.flatMap Job.later) + 1 := by
      rw [hbegun, labour, hhand]
    rw [Job.sizeAll_append] at hlong
    omega
  obtain ⟨p, a, rest, rfl, hgoes, hend⟩ := exists_end hnow hends
  rw [run_append] at hend
  obtain ⟨rfl, more, hdrained⟩ := h.drained hhand hdrain hopen hgoes hend
  exact ⟨p, rest, more, rfl, hdrained⟩

/-- A drain into which nobody else puts anything does what `Queue.drain` does. -/
theorem Sound.exists_drain_eq : ∃ k z, z = (x.act apply .drain).run apply (List.replicate k .work) ∧
    z.drain = none ∧ (z.queue, z.state, z.counts) = ((x.queue.drain apply x.state).1,
      (x.queue.drain apply x.state).2.1, x.counts ++ [(x.queue.drain apply x.state).2.2]) := by
  have hquiet : ∀ k, (List.replicate k (.work : Act α)).flatMap Act.queued = [] := by
    intro k
    have hnone : (.work : Act α).queued = [] := rfl
    rw [List.flatMap_replicate, hnone, List.flatten_replicate_nil]
  have hlong : 4 * sizeAll (x.queue.waiting ++
      (List.replicate (4 * sizeAll x.queue.waiting + 1) (.work : Act α)).flatMap Act.queued) <
      (List.replicate (4 * sizeAll x.queue.waiting + 1) (.work : Act α)).countP Act.isWork := by
    rw [hquiet, List.append_nil, List.countP_replicate, Act.isWork, if_pos rfl]
    exact Nat.lt_succ_self _
  obtain ⟨p, rest, more, hsplit, hdrained⟩ := h.exists_drained hhand hdrain hopen hlong
  obtain ⟨-, hp, -⟩ := List.append_eq_replicate_iff.1 hsplit.symm
  have hmoves : List.replicate (p.length + 1) .work = p ++ [.work] := by
    rw [List.replicate_succ', ← hp]
  have hlast : (x.act apply .drain).run apply (p ++ [.work]) =
      ((x.act apply .drain).run apply p).act apply .work := run_append _ _ _
  have hstate := ((h.step (step_act apply x .drain)).run (p ++ [.work])).state
  rw [hlast] at hstate
  refine ⟨p.length + 1, _, rfl, ?_⟩
  rw [hmoves, hlast, Queue.drain_eq]
  generalize ((x.act apply .drain).run apply p).act apply .work = z at *
  have hjobs := hdrained.generations (by rw [hp, hquiet])
  have hqueue : z.queue = ⟨[], x.queue.closed⟩ := by
    rw [hopen, ← hdrained.emptied.1, ← hdrained.emptied.2]
  have hdone : z.state = (unfolding x.queue.waiting).foldl (fun s j => apply j.act s) x.state := by
    rw [hstate, hdrained.applied, List.foldl_append, ← h.state, ← hjobs, List.foldl_map]
  have hcounts : z.counts = x.counts ++ [(unfolding x.queue.waiting).length] := by
    rw [hdrained.returned, ← hjobs, List.length_map]
  exact ⟨hdrained.ended.1, by rw [hqueue, hdone, hcounts]⟩

end Begun

/-! ## Every run -/

theorem calls_hand {j : Job α} {js : List (Job α)} (hhand : x.hand = .backlog (j :: js)) :
    (x.act apply .work).calls = x.calls ++ [⟨j, !x.queue.closed⟩] := by
  simp only [act, work, hhand]
  exact calls_call x j

structure AppliesInOrder (apply : α → σ → σ) (s₀ : σ) : Prop where
  /-- What is applied is at all times a beginning of what was accepted, -/
  order : ∀ acts, ((start s₀).run apply acts).applied <+: entered ((start s₀).run apply acts).calls
  /-- so that no call has its job applied twice or before that of an earlier one, -/
  once : ∀ acts, ((start s₀).run apply acts).applied.Pairwise fun p q => p.1 < q.1
  /-- and none that was refused has it applied. -/
  accepted : ∀ acts, ∀ p ∈ ((start s₀).run apply acts).applied,
    ((start s₀).run apply acts).calls[p.1]? = some ⟨p.2, true⟩
  /-- As long as the receiver is there nothing is lost on the way. -/
  kept : ∀ acts, let x := (start s₀).run apply acts
    x.queue.closed = false →
      entered x.calls = x.applied ++ x.held ++ x.tickets.zip x.queue.waiting
  /-- The state is what the applied jobs have made of it. -/
  state : ∀ acts, ((start s₀).run apply acts).state =
    ((start s₀).run apply acts).applied.foldl (fun s p => apply p.2.act s) s₀
  /-- A call is refused exactly if the receiver is gone, whoever calls -/
  answers : ∀ acts j, let x := (start s₀).run apply acts
    (x.act apply (.queue j)).calls = x.calls ++ [⟨j, !x.queue.closed⟩]
  /-- and also where a job queues its own jobs. -/
  reentrant : ∀ acts j js, let x := (start s₀).run apply acts
    x.hand = .backlog (j :: js) → (x.act apply .work).calls = x.calls ++ [⟨j, !x.queue.closed⟩]
  /-- The receiver is gone once it was given up. -/
  gone : ∀ acts, ((start s₀).run apply acts).queue.closed = true ↔
    ∃ p rest, acts = p ++ .close :: rest ∧ ((start s₀).run apply p).drain = none
  /-- Whatever happens during a drain, the drain ends within four moves of the receiver for each
  job that is there at its beginning, is queued by others or comes of these; and then it has
  applied all of them and returned their number, and the queue is empty. -/
  drains : ∀ before during, let x := (start s₀).run apply before
    x.hand = .nothing → x.drain = none → x.queue.closed = false →
      4 * sizeAll (x.queue.waiting ++ during.flatMap Act.queued) < during.countP Act.isWork →
        ∃ p rest more, during = p ++ .work :: rest ∧
          Drained x (((x.act apply .drain).run apply p).act apply .work) (p.flatMap Act.queued)
            more
  /-- If nobody else queues anything meanwhile, that is `Queue.drain`. -/
  alone : ∀ before, let x := (start s₀).run apply before
    x.hand = .nothing → x.drain = none → x.queue.closed = false →
      ∃ k z, z = (x.act apply .drain).run apply (List.replicate k .work) ∧ z.drain = none ∧
        (z.queue, z.state, z.counts) = ((x.queue.drain apply x.state).1,
          (x.queue.drain apply x.state).2.1, x.counts ++ [(x.queue.drain apply x.state).2.2])
  /-- It applies an unfolding, generation by generation, and returns its length; -/
  unfolds : ∀ (q : Queue α) (s : σ), q.drain apply s = (⟨[], q.closed⟩,
    (unfolding q.waiting).foldl (fun s j => apply j.act s) s, (unfolding q.waiting).length)
  /-- and the jobs of an unfolding are those that come of the first. -/
  comes : ∀ (j : Job α) (js : List (Job α)),
    j ∈ unfolding js ↔ ∃ root ∈ js, j.ComesOf root

theorem jobs_apply_once_in_order (apply : α → σ → σ) (s₀ : σ) : AppliesInOrder apply s₀ where
  order acts := ((Sound.start apply s₀).run acts).prefix_entered
  once acts :=
    (pairwise_entered _).sublist ((Sound.start apply s₀).run acts).prefix_entered.sublist
  accepted acts _ hp :=
    getElem?_of_mem_entered (((Sound.start apply s₀).run acts).prefix_entered.subset hp)
  kept acts hopen := ((Sound.start apply s₀).run acts).entered_eq hopen
  state acts := ((Sound.start apply s₀).run acts).state
  answers _ j := calls_call _ j
  reentrant _ _ _ hhand := calls_hand hhand
  gone _ := closed_run_iff.trans (or_iff_right nofun)
  drains before _ hhand hdrain hopen hlong :=
    ((Sound.start apply s₀).run before).exists_drained hhand hdrain hopen hlong
  alone before hhand hdrain hopen :=
    ((Sound.start apply s₀).run before).exists_drain_eq hhand hdrain hopen
  unfolds q s := q.drain_eq apply s
  comes _ _ := Job.mem_unfolding_iff

end Dispatch

end ClusterConsole.Background
