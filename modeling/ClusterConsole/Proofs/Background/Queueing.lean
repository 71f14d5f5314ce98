import Mathlib.Data.List.Perm.Basic

/-!
# Queueing

What comes into a queue and what is taken out of it. A `Queueing` names the queue of a
system and says what each act takes out of it. What an act puts into it is not told but
read off the queue itself: it is what stands there afterwards behind what the act has left.

If no act disturbs what it leaves (`Keeps`), then whatever was queued was taken out or is
waiting, each as often as it was queued (`Keeps.perm`), what is waiting stands in the order
in which it was queued (`Keeps.sublist`), and what is taken from the front comes out in that
order too (`Keeps.fifo`).
-/

namespace ClusterConsole.Background

structure Queueing (σ α ω : Type) where
  act : σ → α → σ
  waiting : σ → List ω
  /-- What an act takes out of the queue, and what it leaves there. -/
  cut : α → List ω → List ω × List ω

namespace Queueing

variable {σ α ω : Type}

/-- What stands at one place is taken out, or nothing. -/
def pick : Option Nat → List ω → List ω × List ω
  | some i, l => (l[i]?.toList, l.eraseIdx i)
  | none, l => ([], l)

theorem perm_pick (place : Option Nat) (l : List ω) :
    ((pick place l).1 ++ (pick place l).2).Perm l := by
  cases place with
  | none => exact List.Perm.refl l
  | some i =>
      rw [pick]
      cases h : l[i]? with
      | none =>
          rw [List.eraseIdx_of_length_le (List.getElem?_eq_none_iff.1 h)]
          exact List.Perm.refl l
      | some a =>
          obtain ⟨hi, rfl⟩ := List.getElem?_eq_some_iff.1 h
          exact List.getElem_cons_eraseIdx_perm hi

theorem sublist_pick (place : Option Nat) (l : List ω) : (pick place l).2.Sublist l := by
  cases place with
  | none => exact List.Sublist.refl l
  | some i => exact List.eraseIdx_sublist l i

/-- What is taken from the front and the rest are the whole in order. -/
theorem append_pick {place : Option Nat} (h : ∀ i, place = some i → i = 0) (l : List ω) :
    (pick place l).1 ++ (pick place l).2 = l := by
  cases place with
  | none => rfl
  | some i =>
      rw [h i rfl]
      cases l <;> rfl

variable (q : Queueing σ α ω)

def run (x : σ) (acts : List α) : σ := acts.foldl q.act x

/-- The acts of a run, each with what it meets. -/
def course : σ → List α → List (σ × α)
  | _, [] => []
  | x, a :: acts => (x, a) :: course (q.act x a) acts

/-- What an act puts behind the rest. -/
def queuedBy (x : σ) (a : α) : List ω :=
  (q.waiting (q.act x a)).drop (q.cut a (q.waiting x)).2.length

/-- What is queued in some acts, in order. -/
def queued (x : σ) (acts : List α) : List ω :=
  (q.course x acts).flatMap fun p => q.queuedBy p.1 p.2

/-- What is taken out in some acts, in order. -/
def taken (x : σ) (acts : List α) : List ω :=
  (q.course x acts).flatMap fun p => (q.cut p.2 (q.waiting p.1)).1

structure Keeps : Prop where
  whole : ∀ a l, ((q.cut a l).1 ++ (q.cut a l).2).Perm l
  order : ∀ a l, (q.cut a l).2.Sublist l
  behind : ∀ x a, (q.cut a (q.waiting x)).2 <+: q.waiting (q.act x a)

variable {q} {x y : σ} {a : α} {acts : List α} {w : ω}

theorem queued_cons (x : σ) (a : α) (acts : List α) :
    q.queued x (a :: acts) = q.queuedBy x a ++ q.queued (q.act x a) acts := rfl

theorem taken_cons (x : σ) (a : α) (acts : List α) :
    q.taken x (a :: acts) = (q.cut a (q.waiting x)).1 ++ q.taken (q.act x a) acts := rfl

theorem queuedBy_eq {l : List ω}
    (h : q.waiting (q.act x a) = (q.cut a (q.waiting x)).2 ++ l) : q.queuedBy x a = l := by
  rw [queuedBy, h, List.drop_left]

/-- A list to which each act adds what it queues gathers what is queued. -/
theorem gather_run {β : Type} {f : ω → Option β} {log : σ → List β}
    (hact : ∀ x a, log (q.act x a) = log x ++ (q.queuedBy x a).filterMap f)
    (x : σ) (acts : List α) :
    log (q.run x acts) = log x ++ (q.queued x acts).filterMap f := by
  induction acts generalizing x with
  | nil => exact (List.append_nil _).symm
  | cons a acts ih =>
      rw [queued_cons, List.filterMap_append, ← List.append_assoc, ← hact x a]
      exact ih (q.act x a)

theorem mem_course_iff :
    (y, a) ∈ q.course x acts ↔ ∃ p r, acts = p ++ a :: r ∧ q.run x p = y := by
  induction acts generalizing x with
  | nil => simp [course]
  | cons b acts ih =>
      rw [course, List.mem_cons, ih]
      constructor
      · rintro (h | ⟨p, r, rfl, rfl⟩)
        · obtain ⟨rfl, rfl⟩ := Prod.mk.inj h
          exact ⟨[], acts, rfl, rfl⟩
        · exact ⟨b :: p, r, rfl, rfl⟩
      · rintro ⟨p, r, hacts, hrun⟩
        cases p with
        | nil =>
            obtain ⟨rfl, rfl⟩ := List.cons.inj hacts
            exact .inl (Prod.ext hrun.symm rfl)
        | cons c p =>
            obtain ⟨rfl, rfl⟩ := List.cons.inj hacts
            exact .inr ⟨p, r, rfl, hrun⟩

namespace Keeps

variable (h : q.Keeps)

include h

theorem waiting_act (x : σ) (a : α) :
    (q.cut a (q.waiting x)).2 ++ q.queuedBy x a = q.waiting (q.act x a) :=
  List.prefix_iff_eq_append.1 (h.behind x a)

/-- What was queued was taken out or is waiting, and so often only. -/
theorem perm (x : σ) (acts : List α) :
    (q.taken x acts ++ q.waiting (q.run x acts)).Perm (q.waiting x ++ q.queued x acts) := by
  induction acts generalizing x with
  | nil => exact List.Perm.of_eq (List.append_nil _).symm
  | cons a acts ih =>
      rw [taken_cons, queued_cons, List.append_assoc, ← List.append_assoc (q.waiting x)]
      refine ((ih (q.act x a)).append_left _).trans ?_
      rw [← h.waiting_act x a, ← List.append_assoc, ← List.append_assoc]
      exact ((h.whole a (q.waiting x)).append_right _).append_right _

/-- What is waiting stands in the order in which it was queued. -/
theorem sublist (x : σ) (acts : List α) :
    (q.waiting (q.run x acts)).Sublist (q.waiting x ++ q.queued x acts) := by
  induction acts generalizing x with
  | nil => exact List.sublist_append_left _ _
  | cons a acts ih =>
      rw [queued_cons, ← List.append_assoc]
      refine (ih (q.act x a)).trans ?_
      rw [← h.waiting_act x a]
      exact ((h.order a (q.waiting x)).append_right _).append_right _

/-- What is taken from the front comes out in the order in which it was queued. -/
theorem fifo (hfront : ∀ a ∈ acts, ∀ l, (q.cut a l).1 ++ (q.cut a l).2 = l) :
    q.taken x acts ++ q.waiting (q.run x acts) = q.waiting x ++ q.queued x acts := by
  induction acts generalizing x with
  | nil => exact (List.append_nil _).symm
  | cons a acts ih =>
      have hrest := ih (x := q.act x a) fun b hb => hfront b (List.mem_cons_of_mem a hb)
      have ha := hfront a List.mem_cons_self (q.waiting x)
      rw [taken_cons, queued_cons, List.append_assoc, run, List.foldl_cons, ← run, hrest,
        ← h.waiting_act x a, ← List.append_assoc, ← List.append_assoc, ha, List.append_assoc]

end Keeps

end Queueing

end ClusterConsole.Background
