import ClusterConsole.Benchmark.Report
import ClusterConsole.Number.Decimal
import Mathlib.Algebra.Order.Ring.Nat
import Mathlib.Data.List.Induction
import Mathlib.Data.List.Perm.Basic

/-!
# Adding reports up

The report of a load is the sum of its workers' tallies. A tally has each class of responses
once, in ascending order (`Report.Ordered`), so what is counted under a class adds up, and it
has every request that was sent either under a class or among the errors (`Report.Balanced`).
Sums keep both. The sum of several tallies does not depend on their order (`sum_perm`), and if
the requests that were sent fit in a machine word, so does every number on the way to it
(`sum?_eq_some`).
-/

namespace ClusterConsole.Benchmark

open ClusterConsole.Number

namespace Report

/-! ## The counts of the classes -/

section Classes

variable {key key' n m : Nat} {c : Nat × Nat} {cs ds : List (Nat × Nat)}

/-- Each class once, the lower ones in front. -/
def Ascending (cs : List (Nat × Nat)) : Prop := cs.Pairwise fun c d => c.1 < d.1

/-- What is counted under a class. -/
def classCount (cs : List (Nat × Nat)) (key : Nat) : Nat :=
  ((cs.find? fun c => c.1 == key).map (·.2)).getD 0

/-- What is counted under all classes together. -/
def classTotal (cs : List (Nat × Nat)) : Nat := (cs.map (·.2)).sum

/-- The counts of all classes of `ds` added to those of `cs`. -/
def addClasses (cs ds : List (Nat × Nat)) : List (Nat × Nat) :=
  ds.foldl (fun acc c => addClass c.1 c.2 acc) cs

theorem classCount_cons (c : Nat × Nat) (cs : List (Nat × Nat)) (key : Nat) :
    classCount (c :: cs) key = if c.1 = key then c.2 else classCount cs key := by
  by_cases hc : c.1 = key <;> simp [classCount, hc]

theorem classTotal_cons (c : Nat × Nat) (cs : List (Nat × Nat)) :
    classTotal (c :: cs) = c.2 + classTotal cs := by
  rw [classTotal, List.map_cons, List.sum_cons, classTotal]

theorem classCount_of_lt (h : ∀ c ∈ cs, key < c.1) : classCount cs key = 0 := by
  have hnone : (cs.find? fun c => c.1 == key) = none :=
    List.find?_eq_none.2 fun c hc => by
      have hlt := h c hc
      simp only [beq_iff_eq]
      omega
  rw [classCount, hnone]
  rfl

theorem addClass_of_lt (h : key < c.1) (n : Nat) (cs : List (Nat × Nat)) :
    addClass key n (c :: cs) = (key, n) :: c :: cs := by
  rw [addClass, if_neg (Nat.ne_of_lt h), if_pos h]

theorem addClass_of_eq (h : key = c.1) (n : Nat) (cs : List (Nat × Nat)) :
    addClass key n (c :: cs) = (c.1, c.2 + n) :: cs := by
  rw [addClass, if_pos h]

theorem addClass_of_gt (h : c.1 < key) (n : Nat) (cs : List (Nat × Nat)) :
    addClass key n (c :: cs) = c :: addClass key n cs := by
  rw [addClass, if_neg (Nat.ne_of_gt h), if_neg (Nat.lt_asymm h)]

theorem fst_of_mem_addClass (h : c ∈ addClass key n cs) : c.1 = key ∨ ∃ d ∈ cs, d.1 = c.1 := by
  induction cs with
  | nil =>
      rw [addClass, List.mem_singleton] at h
      exact .inl (by rw [h])
  | cons d cs ih =>
      rcases Nat.lt_trichotomy key d.1 with hkey | hkey | hkey
      · rw [addClass_of_lt hkey] at h
        rcases List.mem_cons.1 h with rfl | h
        · exact .inl rfl
        · exact .inr ⟨c, h, rfl⟩
      · rw [addClass_of_eq hkey] at h
        rcases List.mem_cons.1 h with rfl | h
        · exact .inl hkey.symm
        · exact .inr ⟨c, List.mem_cons_of_mem d h, rfl⟩
      · rw [addClass_of_gt hkey] at h
        rcases List.mem_cons.1 h with rfl | h
        · exact .inr ⟨c, List.mem_cons_self, rfl⟩
        · obtain hc | ⟨e, he, hec⟩ := ih h
          · exact .inl hc
          · exact .inr ⟨e, List.mem_cons_of_mem d he, hec⟩

theorem Ascending.addClass (h : Ascending cs) (key n : Nat) : Ascending (addClass key n cs) := by
  induction cs with
  | nil => exact List.pairwise_singleton _ _
  | cons c cs ih =>
      obtain ⟨hc, hcs⟩ := List.pairwise_cons.1 h
      rcases Nat.lt_trichotomy key c.1 with hkey | hkey | hkey
      · rw [addClass_of_lt hkey]
        refine List.pairwise_cons.2 ⟨fun d hd => ?_, h⟩
        rcases List.mem_cons.1 hd with rfl | hd
        · exact hkey
        · exact Nat.lt_trans hkey (hc d hd)
      · rw [addClass_of_eq hkey]
        exact List.pairwise_cons.2 ⟨hc, hcs⟩
      · rw [addClass_of_gt hkey]
        refine List.pairwise_cons.2 ⟨fun d hd => ?_, ih hcs⟩
        obtain hd | ⟨e, he, hed⟩ := fst_of_mem_addClass hd
        · exact hd ▸ hkey
        · exact hed ▸ hc e he

theorem classTotal_addClass (key n : Nat) (cs : List (Nat × Nat)) :
    classTotal (addClass key n cs) = classTotal cs + n := by
  induction cs with
  | nil => simp [addClass, classTotal]
  | cons c cs ih =>
      rcases Nat.lt_trichotomy key c.1 with hkey | hkey | hkey
      · rw [addClass_of_lt hkey, classTotal_cons, Nat.add_comm]
      · rw [addClass_of_eq hkey, classTotal_cons, classTotal_cons]
        omega
      · rw [addClass_of_gt hkey, classTotal_cons, classTotal_cons, ih, Nat.add_assoc]

theorem classCount_addClass (h : Ascending cs) (key n key' : Nat) :
    classCount (addClass key n cs) key' = classCount cs key' + if key = key' then n else 0 := by
  induction cs with
  | nil =>
      rw [addClass, classCount_cons]
      exact (Nat.zero_add _).symm
  | cons c cs ih =>
      obtain ⟨hc, hcs⟩ := List.pairwise_cons.1 h
      rcases Nat.lt_trichotomy key c.1 with hkey | hkey | hkey
      · rw [addClass_of_lt hkey, classCount_cons]
        split
        · rename_i hsame
          -- the class is new: all that are there come after it
          have hzero : classCount (c :: cs) key' = 0 := by
            refine classCount_of_lt fun d hd => ?_
            rcases List.mem_cons.1 hd with rfl | hd
            · exact hsame ▸ hkey
            · exact hsame ▸ Nat.lt_trans hkey (hc d hd)
          rw [hzero, Nat.zero_add]
        · rw [Nat.add_zero]
      · rw [addClass_of_eq hkey, classCount_cons, classCount_cons, hkey]
        split
        · rfl
        · rw [Nat.add_zero]
      · rw [addClass_of_gt hkey, classCount_cons, classCount_cons, ih hcs]
        split
        · rename_i hsame
          rw [if_neg (by omega), Nat.add_zero]
        · rfl

theorem addClass_comm_of_lt (h : key < key') (n m : Nat) (cs : List (Nat × Nat)) :
    addClass key n (addClass key' m cs) = addClass key' m (addClass key n cs) := by
  induction cs with
  | nil => rw [addClass, addClass, addClass_of_lt h, addClass_of_gt h, addClass]
  | cons c cs ih =>
      rcases Nat.lt_trichotomy key c.1 with hkey | hkey | hkey
      · rw [addClass_of_lt hkey, addClass_of_gt (c := (key, n)) h]
        rcases Nat.lt_trichotomy key' c.1 with hkey' | hkey' | hkey'
        · rw [addClass_of_lt hkey', addClass_of_lt h]
        · rw [addClass_of_eq hkey', addClass_of_lt (c := (c.1, c.2 + m)) hkey]
        · rw [addClass_of_gt hkey', addClass_of_lt hkey]
      · have hkey' : c.1 < key' := hkey ▸ h
        rw [addClass_of_gt hkey', addClass_of_eq hkey, addClass_of_eq hkey,
          addClass_of_gt (c := (c.1, c.2 + n)) hkey']
      · have hkey' : c.1 < key' := Nat.lt_trans hkey h
        rw [addClass_of_gt hkey', addClass_of_gt hkey, addClass_of_gt hkey, addClass_of_gt hkey',
          ih]

/-- Counts of one class are added up, whatever stands there. -/
theorem addClass_addClass (key n m : Nat) (cs : List (Nat × Nat)) :
    addClass key n (addClass key m cs) = addClass key (m + n) cs := by
  induction cs with
  | nil => rw [addClass, addClass_of_eq (c := (key, m)) rfl, addClass]
  | cons c cs ih =>
      rcases Nat.lt_trichotomy key c.1 with hkey | hkey | hkey
      · rw [addClass_of_lt hkey, addClass_of_lt hkey, addClass_of_eq (c := (key, m)) rfl]
      · rw [addClass_of_eq hkey, addClass_of_eq hkey, addClass_of_eq (c := (c.1, c.2 + m)) hkey,
          Nat.add_assoc]
      · rw [addClass_of_gt hkey, addClass_of_gt hkey, addClass_of_gt hkey, ih]

/-- The order in which two counts are added makes no difference. -/
theorem addClass_comm (key n key' m : Nat) (cs : List (Nat × Nat)) :
    addClass key n (addClass key' m cs) = addClass key' m (addClass key n cs) := by
  rcases Nat.lt_trichotomy key key' with h | rfl | h
  · exact addClass_comm_of_lt h n m cs
  · rw [addClass_addClass, addClass_addClass, Nat.add_comm]
  · exact (addClass_comm_of_lt h m n cs).symm

theorem addClasses_cons (cs : List (Nat × Nat)) (d : Nat × Nat) (ds : List (Nat × Nat)) :
    addClasses cs (d :: ds) = addClasses (addClass d.1 d.2 cs) ds := rfl

theorem Ascending.addClasses (h : Ascending cs) (ds : List (Nat × Nat)) :
    Ascending (addClasses cs ds) := by
  induction ds generalizing cs with
  | nil => exact h
  | cons d ds ih => exact ih (h.addClass d.1 d.2)

theorem classTotal_addClasses (cs ds : List (Nat × Nat)) :
    classTotal (addClasses cs ds) = classTotal cs + classTotal ds := by
  induction ds generalizing cs with
  | nil => rfl
  | cons d ds ih => rw [addClasses_cons, ih, classTotal_addClass, classTotal_cons, Nat.add_assoc]

theorem classCount_addClasses (h : Ascending cs) (hds : Ascending ds) (key : Nat) :
    classCount (addClasses cs ds) key = classCount cs key + classCount ds key := by
  induction ds generalizing cs with
  | nil => rfl
  | cons d ds ih =>
      obtain ⟨hd, hds⟩ := List.pairwise_cons.1 hds
      rw [addClasses_cons, ih (h.addClass d.1 d.2) hds, classCount_addClass h, classCount_cons]
      by_cases hkey : d.1 = key
      · have hzero : classCount ds key = 0 := classCount_of_lt fun e he => hkey ▸ hd e he
        rw [if_pos hkey, if_pos hkey, hzero, Nat.add_zero]
      · rw [if_neg hkey, if_neg hkey, Nat.add_zero]

theorem addClasses_comm (cs ds es : List (Nat × Nat)) :
    addClasses (addClasses cs ds) es = addClasses (addClasses cs es) ds := by
  have : RightCommutative fun (acc : List (Nat × Nat)) (c : Nat × Nat) => addClass c.1 c.2 acc :=
    ⟨fun acc c d => addClass_comm d.1 d.2 c.1 c.2 acc⟩
  rw [addClasses, addClasses, ← List.foldl_append, addClasses, addClasses, ← List.foldl_append]
  exact List.perm_append_comm.foldl_eq cs

end Classes

/-! ## Sums -/

section Sums

variable {r s t : Report} {ts ts' : List Report}

def Ordered (r : Report) : Prop := Ascending r.byClass

/-- The requests that were answered. -/
def answered (r : Report) : Nat := classTotal r.byClass

/-- Every request that was sent was answered or lost. -/
def Balanced (r : Report) : Prop := r.sent = r.errors + r.answered

theorem answered_absorb (r s : Report) : (r.absorb s).answered = r.answered + s.answered :=
  classTotal_addClasses r.byClass s.byClass

theorem count_absorb (hr : r.Ordered) (hs : s.Ordered) (key : Nat) :
    (r.absorb s).count key = r.count key + s.count key :=
  classCount_addClasses hr hs key

theorem Ordered.absorb (hr : r.Ordered) (s : Report) : (r.absorb s).Ordered :=
  Ascending.addClasses hr s.byClass

theorem Balanced.absorb (hr : r.Balanced) (hs : s.Balanced) : (r.absorb s).Balanced := by
  have hr : r.sent = r.errors + r.answered := hr
  have hs : s.sent = s.errors + s.answered := hs
  rw [Balanced, answered_absorb, Report.absorb]
  dsimp only
  omega

theorem absorb_comm (r s t : Report) : (r.absorb s).absorb t = (r.absorb t).absorb s := by
  have hclasses := addClasses_comm r.byClass s.byClass t.byClass
  simp only [absorb, Nat.add_right_comm _ s.sent, Nat.add_right_comm _ s.errors]
  exact congrArg (Report.mk _ · _ _) hclasses

/-- The sum of some tallies. -/
def sum (ts : List Report) : Report := ts.foldl absorb empty

theorem sum_concat (ts : List Report) (t : Report) : sum (ts ++ [t]) = (sum ts).absorb t := by
  rw [sum, List.foldl_append, List.foldl_cons, List.foldl_nil, sum]

/-- The sum does not depend on the order. -/
theorem sum_perm (h : ts.Perm ts') : sum ts = sum ts' :=
  have : RightCommutative absorb := ⟨absorb_comm⟩
  h.foldl_eq empty

theorem ordered_sum (ts : List Report) : (sum ts).Ordered := by
  induction ts using List.reverseRecOn with
  | nil => exact List.Pairwise.nil
  | append_singleton ts t ih =>
      rw [sum_concat]
      exact ih.absorb t

theorem balanced_sum (h : ∀ t ∈ ts, t.Balanced) : (sum ts).Balanced := by
  induction ts using List.reverseRecOn with
  | nil => rfl
  | append_singleton ts t ih =>
      rw [sum_concat]
      exact (ih fun u hu => h u (List.mem_append_left _ hu)).absorb
        (h t (List.mem_append_right _ List.mem_cons_self))

/-- What adds up under `absorb` adds up in a sum. -/
theorem measure_sum {f : Report → Nat} (hempty : f empty = 0)
    (hf : ∀ r s, r.Ordered → s.Ordered → f (r.absorb s) = f r + f s)
    (h : ∀ t ∈ ts, t.Ordered) : f (sum ts) = (ts.map f).sum := by
  induction ts using List.reverseRecOn with
  | nil => exact hempty
  | append_singleton ts t ih =>
      have ht := h t (List.mem_append_right _ List.mem_cons_self)
      rw [sum_concat, hf _ _ (ordered_sum ts) ht, ih fun u hu => h u (List.mem_append_left _ hu)]
      simp

end Sums

/-! ## Machine words -/

section Words

variable {r s : Report} {ts : List Report} {cs ds : List (Nat × Nat)}

/-- The sum of two numbers, if it fits in a machine word. -/
def addWord? (a b : Nat) : Option Nat := if a + b < word64 then some (a + b) else none

/-- `addClass` in machine words. -/
def addClass? (key count : Nat) : List (Nat × Nat) → Option (List (Nat × Nat))
  | [] => (addWord? 0 count).map fun n => [(key, n)]
  | c :: cs =>
      if key = c.1 then (addWord? c.2 count).map fun n => (c.1, n) :: cs
      else if key < c.1 then (addWord? 0 count).map fun n => (key, n) :: c :: cs
      else (addClass? key count cs).map (c :: ·)

/-- `absorb` in machine words. -/
def absorb? (r s : Report) : Option Report :=
  (addWord? r.sent s.sent).bind fun sent =>
    (addWord? r.errors s.errors).bind fun errors =>
      (s.byClass.foldlM (fun acc c => addClass? c.1 c.2 acc) r.byClass).map fun byClass =>
        { r with sent := sent, errors := errors, byClass := byClass }

/-- `sum` in machine words. -/
def sum? (ts : List Report) : Option Report := ts.foldlM absorb? empty

theorem addWord?_eq_some {a b : Nat} (h : a + b < word64) : addWord? a b = some (a + b) :=
  if_pos h

theorem addClass?_eq_some {key n : Nat} (h : classTotal cs + n < word64) :
    addClass? key n cs = some (addClass key n cs) := by
  induction cs with
  | nil =>
      rw [classTotal, List.map_nil, List.sum_nil] at h
      rw [addClass?, addWord?_eq_some h, Nat.zero_add]
      rfl
  | cons c cs ih =>
      rw [classTotal_cons] at h
      rw [addClass?, addClass, addWord?_eq_some (by omega), addWord?_eq_some (by omega),
        ih (by omega), Nat.zero_add]
      split
      · rfl
      · split <;> rfl

theorem foldlM_addClass? (h : classTotal cs + classTotal ds < word64) :
    ds.foldlM (fun acc c => addClass? c.1 c.2 acc) cs = some (addClasses cs ds) := by
  induction ds generalizing cs with
  | nil => rfl
  | cons d ds ih =>
      rw [classTotal_cons] at h
      have hfirst : addClass? d.1 d.2 cs = some (addClass d.1 d.2 cs) :=
        addClass?_eq_some (by omega)
      have hrest : classTotal (addClass d.1 d.2 cs) + classTotal ds < word64 := by
        rw [classTotal_addClass]
        omega
      rw [List.foldlM_cons, hfirst]
      exact ih hrest

theorem absorb?_eq_some (hr : r.Balanced) (hs : s.Balanced) (h : r.sent + s.sent < word64) :
    r.absorb? s = some (r.absorb s) := by
  have hr : r.sent = r.errors + r.answered := hr
  have hs : s.sent = s.errors + s.answered := hs
  have herrors : r.errors + s.errors < word64 := by omega
  have hclasses : classTotal r.byClass + classTotal s.byClass < word64 := by
    change r.answered + s.answered < word64
    omega
  rw [absorb?, addWord?_eq_some h, Option.bind_some, addWord?_eq_some herrors, Option.bind_some,
    foldlM_addClass? hclasses]
  rfl

/-- If the requests that were sent fit in a machine word, so does every number on the way to
the sum. -/
theorem sum?_eq_some (h : ∀ t ∈ ts, t.Balanced) (hsent : (sum ts).sent < word64) :
    sum? ts = some (sum ts) := by
  induction ts using List.reverseRecOn with
  | nil => rfl
  | append_singleton ts t ih =>
      have hts : ∀ u ∈ ts, u.Balanced := fun u hu => h u (List.mem_append_left _ hu)
      rw [sum_concat] at hsent ⊢
      have hsum : (sum ts).sent + t.sent < word64 := hsent
      rw [sum?, List.foldlM_append, ← sum?, ih hts (by omega)]
      have habsorb := absorb?_eq_some (balanced_sum hts)
        (h t (List.mem_append_right _ List.mem_cons_self)) hsum
      simpa using habsorb

end Words

end Report

end ClusterConsole.Benchmark
