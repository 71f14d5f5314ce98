import Mathlib.Data.List.Flatten
import Mathlib.Data.List.Perm.Basic
import Mathlib.Logic.Relation
import ClusterConsole.Background.Queue

/-!
# What comes of jobs

The jobs that come of some jobs are a forest, and `unfolding` lists it generation by
generation: the jobs themselves, then what they queue, then what those queue. A queue into
which nobody else puts anything is emptied in that order, since what a job queues waits behind
all that was there before (`unfolding_append`, `drain_eq`).
-/

namespace ClusterConsole.Background

namespace Job

variable {α : Type}

/-- The jobs that the generation before has queued; the first generation is given. -/
def generation : Nat → List (Job α) → List (Job α)
  | 0, js => js
  | n + 1, js => generation n (js.flatMap later)

/-- All jobs that come of the given ones. There are not more generations than jobs. -/
def unfolding (js : List (Job α)) : List (Job α) :=
  (List.range (sizeAll js)).flatMap fun n => generation n js

/-- A job comes of another if it is queued by it, or by one that comes of it, or is the other
itself. -/
def ComesOf (j root : Job α) : Prop := Relation.ReflTransGen (fun a b => b ∈ a.later) root j

/-! ## Generations -/

theorem generation_append (n : Nat) (a b : List (Job α)) :
    generation n (a ++ b) = generation n a ++ generation n b := by
  induction n generalizing a b with
  | zero => rfl
  | succ n ih => rw [generation, List.flatMap_append, ih, generation, generation]

theorem sizeAll_flatMap_later (js : List (Job α)) :
    sizeAll (js.flatMap later) + js.length = sizeAll js := by
  induction js with
  | nil => rfl
  | cons j js ih =>
      rw [List.flatMap_cons, sizeAll_append, sizeAll, size_eq, List.length_cons]
      omega

theorem sizeAll_later_lt (j : Job α) (js : List (Job α)) :
    sizeAll (js ++ j.later) < sizeAll (j :: js) := by
  rw [sizeAll_append, sizeAll, size_eq]
  omega

theorem generation_eq_nil {n : Nat} {js : List (Job α)} (h : sizeAll js ≤ n) :
    generation n js = [] := by
  induction n generalizing js with
  | zero =>
      have hlength := sizeAll_flatMap_later js
      have hnone : js.length = 0 := by omega
      exact List.length_eq_zero_iff.1 hnone
  | succ n ih =>
      have hlength := sizeAll_flatMap_later js
      cases js with
      | nil => exact ih (Nat.zero_le n)
      | cons j js =>
          rw [List.length_cons] at hlength
          exact ih (by omega)

/-! ## Unfoldings -/

/-- Further generations are empty. -/
theorem flatMap_generation {n : Nat} {js : List (Job α)} (h : sizeAll js ≤ n) :
    (List.range n).flatMap (fun k => generation k js) = unfolding js := by
  obtain ⟨more, rfl⟩ := Nat.exists_eq_add_of_le h
  induction more with
  | zero => rfl
  | succ more ih =>
      have hmore : sizeAll js ≤ sizeAll js + more := Nat.le_add_right _ _
      rw [← Nat.add_assoc, List.range_succ, List.flatMap_append, ih hmore, List.flatMap_singleton,
        generation_eq_nil hmore, List.append_nil]

/-- Of two rows of lists the first may be read one ahead. -/
theorem flatMap_range_append (f g : Nat → List (Job α)) (n : Nat) :
    (List.range n).flatMap (fun k => f k ++ g k) ++ f n =
      f 0 ++ (List.range n).flatMap fun k => g k ++ f (k + 1) := by
  induction n with
  | zero => simp
  | succ n ih =>
      rw [List.range_succ, List.flatMap_append, List.flatMap_append, ← List.append_assoc, ← ih]
      simp

/-- What the jobs of the front queue comes behind the others. -/
theorem unfolding_append (a b : List (Job α)) :
    unfolding (a ++ b) = a ++ unfolding (b ++ a.flatMap later) := by
  have hsize := sizeAll_flatMap_later a
  have hahead := flatMap_range_append (fun k => generation k a) (fun k => generation k b)
    (sizeAll (a ++ b))
  have hlast : generation (sizeAll (a ++ b)) a = [] :=
    generation_eq_nil (by rw [sizeAll_append]; omega)
  have hrest : sizeAll (b ++ a.flatMap later) ≤ sizeAll (a ++ b) := by
    rw [sizeAll_append, sizeAll_append]
    omega
  rw [← flatMap_generation hrest]
  simp only [generation_append, hlast, List.append_nil, unfolding] at hahead ⊢
  exact hahead

@[simp] theorem unfolding_nil : unfolding ([] : List (Job α)) = [] := rfl

theorem unfolding_cons (j : Job α) (js : List (Job α)) :
    unfolding (j :: js) = j :: unfolding (js ++ j.later) := by
  have h := unfolding_append [j] js
  rwa [List.flatMap_singleton] at h

theorem unfolding_eq (js : List (Job α)) :
    unfolding js = js ++ unfolding (js.flatMap later) := by
  have h := unfolding_append js []
  rwa [List.append_nil, List.nil_append] at h

theorem unfolding_append_perm (a b : List (Job α)) :
    (unfolding (a ++ b)).Perm (unfolding a ++ unfolding b) := by
  have ha : sizeAll a ≤ sizeAll (a ++ b) := by rw [sizeAll_append]; omega
  have hb : sizeAll b ≤ sizeAll (a ++ b) := by rw [sizeAll_append]; omega
  rw [← flatMap_generation ha, ← flatMap_generation hb]
  simp only [unfolding, generation_append]
  exact (List.flatMap_append_perm _ _ _).symm

theorem length_unfolding : ∀ js : List (Job α), (unfolding js).length = sizeAll js
  | [] => rfl
  | j :: js => by
      rw [unfolding_cons, List.length_cons, length_unfolding (js ++ j.later), sizeAll_append,
        sizeAll, size_eq]
      omega
termination_by js => sizeAll js
decreasing_by exact sizeAll_later_lt j js

/-- The jobs of an unfolding are those that come of the given ones. -/
theorem mem_unfolding_iff {j : Job α} {js : List (Job α)} :
    j ∈ unfolding js ↔ ∃ root ∈ js, j.ComesOf root := by
  constructor
  · intro h
    obtain ⟨n, -, hn⟩ := List.mem_flatMap.1 h
    clear h
    induction n generalizing js with
    | zero => exact ⟨j, hn, .refl⟩
    | succ n ih =>
        obtain ⟨child, hchild, hcomes⟩ := ih hn
        obtain ⟨root, hroot, hlater⟩ := List.mem_flatMap.1 hchild
        exact ⟨root, hroot, .head hlater hcomes⟩
  · rintro ⟨root, hroot, hcomes⟩
    induction hcomes using Relation.ReflTransGen.head_induction_on generalizing js with
    | refl =>
        rw [unfolding_eq]
        exact List.mem_append_left _ hroot
    | head hlater _ ih =>
        rw [unfolding_eq]
        exact List.mem_append_right _ (ih (List.mem_flatMap.2 ⟨_, hroot, hlater⟩))

example : (unfolding [mk 'a' [mk 'c' [single 'e'], single 'd'], single 'b']).map act =
    ['a', 'b', 'c', 'd', 'e'] := by decide

end Job

namespace Queue

open Job (unfolding unfolding_cons)

variable {α σ : Type}

theorem drainFrom_eq (apply : α → σ → σ) (waiting : List (Job α)) (s : σ) (count : Nat) :
    drainFrom apply waiting s count =
      ((unfolding waiting).foldl (fun s j => apply j.act s) s,
        count + (unfolding waiting).length) := by
  fun_induction drainFrom apply waiting s count with
  | case1 s count => rfl
  | case2 s count j js ih =>
      rw [ih, unfolding_cons, List.foldl_cons, List.length_cons, Nat.add_right_comm]
      rfl

/-- A drain applies the unfolding of what is waiting. -/
theorem drain_eq (apply : α → σ → σ) (q : Queue α) (s : σ) :
    q.drain apply s = (⟨[], q.closed⟩,
      (unfolding q.waiting).foldl (fun s j => apply j.act s) s, (unfolding q.waiting).length) := by
  rw [drain, drainFrom_eq, Nat.zero_add]

end Queue

end ClusterConsole.Background
