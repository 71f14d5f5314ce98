import ClusterConsole.Benchmark.Runner

/-!
# The slot of the runner

What the operations of the runner do, and `Sole`, which each of them keeps: of the
benchmarks that were started all are called off but the one that is running.
-/

namespace ClusterConsole.Benchmark

open ClusterConsole.Status

namespace Runner

variable {r r' : Runner} {s : Session} {id : Nat} {now : Int} {target : Target} {c : Completion}

/-! ## What the operations do -/

theorem running?_eq_some_iff : r.running? = some s ↔ r.slot = some s ∧ s.phase = .running := by
  simp [running?, Option.filter_eq_some_iff]

theorem running?_eq_none_iff : r.running? = none ↔ ∀ s, r.slot = some s → s.phase ≠ .running := by
  simp [running?, Option.filter_eq_none_iff]

/-- The session that `run` puts in the slot. -/
def fresh (r : Runner) (now : Int) (target : Target) : Session :=
  ⟨r.nextId, target.settings, target.name, .running, now⟩

theorem run_eq_ok_iff : r.run now target = .ok (r', id) ↔ r.running? = none ∧
    { r with slot := some (r.fresh now target), nextId := r.nextId + 1 } = r' ∧
      r.nextId = id := by
  cases h : r.running? with
  | none => simp [run, h, fresh]
  | some s => simp [run, h]

theorem run_eq_error_iff {e : Failure} : r.run now target = .error e ↔
    ∃ s, r.running? = some s ∧ e = .alreadyBenchmarking s.target := by
  cases h : r.running? with
  | none => simp [run, h]
  | some s => simp [run, h, eq_comm]

theorem cancel_of_none (h : r.running? = none) : r.cancel = (r, false) := by
  simp [cancel, h]

theorem cancel_of_some (h : r.running? = some s) :
    r.cancel = ({ r with
      slot := some { s with phase := .canceled }
      calledOff := s.id :: r.calledOff }, true) := by
  simp [cancel, h]

theorem complete_of_ne {canceled : Bool} (h : ∀ s, r.slot = some s → s.id ≠ id) :
    r.complete id canceled = (r, none) := by
  have hnone : (r.slot.filter fun s => s.id == id) = none :=
    Option.filter_eq_none_iff.2 fun s hs => by simp [h s hs]
  simp [complete, hnone]

theorem complete_of_eq {canceled : Bool} (hs : r.slot = some s) (hid : s.id = id) :
    r.complete id canceled = ({ r with slot := none, calledOff := s.id :: r.calledOff },
      some { s with
        phase := if canceled ∨ s.phase = .canceled then .canceled else .completed }) := by
  have hsome : (r.slot.filter fun s => s.id == id) = some s :=
    Option.filter_eq_some_iff.2 ⟨hs, by simp [hid]⟩
  simp [complete, hsome]

/-- The completion of a benchmark that has lost the slot says and does nothing. -/
theorem applyCompletion_of_ne (h : ∀ s, r.slot = some s → s.id ≠ c.id) :
    r.applyCompletion c = (r, none) := by
  simp [applyCompletion, complete_of_ne h]

theorem applyCompletion_of_eq (hs : r.slot = some s) (hid : s.id = c.id) :
    r.applyCompletion c =
      ({ r with slot := none, calledOff := s.id :: r.calledOff }, some c.notice) := by
  simp [applyCompletion, complete_of_eq hs hid]

theorem reload_eq_ok_iff {files : Storage.Files} {path : String} :
    r.reload files path = .ok r' ↔
      ∃ file, SettingsFile.load files path = .ok file ∧ { r with file := file } = r' := by
  cases h : SettingsFile.load files path with
  | error chain => simp [reload, h]
  | ok file => simp [reload, h]

/-! ## What leaves the settings in force -/

theorem file_of_run (h : r.run now target = .ok (r', id)) : r'.file = r.file := by
  obtain ⟨-, rfl, -⟩ := run_eq_ok_iff.1 h
  rfl

theorem file_cancel (r : Runner) : r.cancel.1.file = r.file := by
  cases h : r.running? <;> simp only [cancel, h]

theorem file_applyCompletion (r : Runner) (c : Completion) :
    (r.applyCompletion c).1.file = r.file := by
  cases h : r.slot.filter fun s => s.id == c.id <;> simp only [applyCompletion, complete, h]

/-! ## One at a time -/

/-- How a runner stands to the ids of the benchmarks that it has started. -/
structure Sole (r : Runner) (started : List Nat) : Prop where
  increasing : started.Pairwise (· < ·)
  started_lt : ∀ id ∈ started, id < r.nextId
  calledOff_lt : ∀ id ∈ r.calledOff, id < r.nextId
  slot : ∀ s, r.slot = some s → s.id ∈ started ∧ (s.phase = .running ∨ s.phase = .canceled)
  running : ∀ s, r.slot = some s → s.phase = .running → s.id ∉ r.calledOff
  others : ∀ id ∈ started, id ∉ r.calledOff →
    ∃ s, r.slot = some s ∧ s.phase = .running ∧ s.id = id

namespace Sole

variable {started : List Nat}

theorem empty (directory : Option String) : Sole (empty directory) [] where
  increasing := List.Pairwise.nil
  started_lt := by simp
  calledOff_lt := by simp [Runner.empty]
  slot := by simp [Runner.empty]
  running := by simp [Runner.empty]
  others := by simp

theorem run (h : Sole r started) (hrun : r.run now target = .ok (r', id)) :
    Sole r' (started ++ [id]) := by
  obtain ⟨hidle, rfl, rfl⟩ := run_eq_ok_iff.1 hrun
  refine
    { increasing := ?_
      started_lt := ?_
      calledOff_lt := fun id hid => Nat.lt_succ_of_lt (h.calledOff_lt id hid)
      slot := ?_
      running := ?_
      others := ?_ }
  · refine List.pairwise_append.2 ⟨h.increasing, List.pairwise_singleton _ _, ?_⟩
    intro i hi j hj
    rw [List.mem_singleton.1 hj]
    exact h.started_lt i hi
  · intro i hi
    rcases List.mem_append.1 hi with hi | hi
    · exact Nat.lt_succ_of_lt (h.started_lt i hi)
    · rw [List.mem_singleton.1 hi]
      exact Nat.lt_succ_self _
  · intro s hs
    obtain rfl := Option.some.inj hs
    exact ⟨by simp [fresh], .inl rfl⟩
  · intro s hs _ hoff
    obtain rfl := Option.some.inj hs
    exact Nat.lt_irrefl _ (h.calledOff_lt _ hoff)
  · -- whoever was not called off before would have been running
    intro i hi hoff
    rcases List.mem_append.1 hi with hi | hi
    · obtain ⟨s, hs, hphase, -⟩ := h.others i hi hoff
      exact absurd hphase (running?_eq_none_iff.1 hidle s hs)
    · exact ⟨r.fresh now target, rfl, rfl, (List.mem_singleton.1 hi).symm⟩

theorem cancel (h : Sole r started) : Sole r.cancel.1 started := by
  cases hrun : r.running? with
  | none =>
      rw [cancel_of_none hrun]
      exact h
  | some s =>
      rw [cancel_of_some hrun]
      obtain ⟨hs, hphase⟩ := running?_eq_some_iff.1 hrun
      have hmem := (h.slot s hs).1
      refine
        { increasing := h.increasing
          started_lt := h.started_lt
          calledOff_lt := ?_
          slot := ?_
          running := ?_
          others := ?_ }
      · intro i hi
        rcases List.mem_cons.1 hi with rfl | hi
        · exact h.started_lt _ hmem
        · exact h.calledOff_lt i hi
      · intro t ht
        obtain rfl := Option.some.inj ht
        exact ⟨hmem, .inr rfl⟩
      · intro t ht hrunning
        obtain rfl := Option.some.inj ht
        simp at hrunning
      · intro i hi hoff
        obtain ⟨hne, hoff⟩ := not_or.1 (mt List.mem_cons.2 hoff)
        obtain ⟨t, ht, -, rfl⟩ := h.others i hi hoff
        rw [hs] at ht
        exact absurd (congrArg Session.id (Option.some.inj ht)).symm hne

theorem complete (h : Sole r started) (id : Nat) (canceled : Bool) :
    Sole (r.complete id canceled).1 started := by
  by_cases howner : ∃ s, r.slot = some s ∧ s.id = id
  · obtain ⟨s, hs, hid⟩ := howner
    rw [complete_of_eq hs hid]
    refine
      { increasing := h.increasing
        started_lt := h.started_lt
        calledOff_lt := ?_
        slot := by simp
        running := by simp
        others := ?_ }
    · intro i hi
      rcases List.mem_cons.1 hi with rfl | hi
      · exact h.started_lt _ (h.slot s hs).1
      · exact h.calledOff_lt i hi
    · intro i hi hoff
      obtain ⟨hne, hoff⟩ := not_or.1 (mt List.mem_cons.2 hoff)
      obtain ⟨t, ht, -, rfl⟩ := h.others i hi hoff
      rw [hs] at ht
      exact absurd (congrArg Session.id (Option.some.inj ht)).symm hne
  · rw [complete_of_ne fun s hs hid => howner ⟨s, hs, hid⟩]
    exact h

theorem reload {files : Storage.Files} {path : String} (h : Sole r started)
    (hr : r.reload files path = .ok r') : Sole r' started := by
  obtain ⟨file, -, rfl⟩ := reload_eq_ok_iff.1 hr
  exact { h with }

theorem close (h : Sole r started) : Sole r.close started :=
  { h with }

/-- Two benchmarks that are not called off are one. -/
theorem eq_of_not_calledOff {i j : Nat} (h : Sole r started) (hi : i ∈ started)
    (hj : j ∈ started) (hoffi : r.isCalledOff i = false) (hoffj : r.isCalledOff j = false) :
    i = j := by
  have not_mem : ∀ {n : Nat}, r.isCalledOff n = false → n ∉ r.calledOff := by
    intro n hn hmem
    simp [isCalledOff, hmem] at hn
  obtain ⟨s, hs, -, rfl⟩ := h.others i hi (not_mem hoffi)
  obtain ⟨t, ht, -, rfl⟩ := h.others j hj (not_mem hoffj)
  rw [hs] at ht
  exact congrArg Session.id (Option.some.inj ht)

end Sole

end Runner

end ClusterConsole.Benchmark
