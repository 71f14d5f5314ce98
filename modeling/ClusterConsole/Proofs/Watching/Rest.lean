import ClusterConsole.Proofs.Watching.Vigil

/-!
# Coming to rest

A loop that waits can wake up only so often before time goes on: a permit is used up when
it is taken, and a ticker that has ticked is due later. `unrest` counts what is left of
that. A cycle takes nothing from it and adds nothing, so the loop comes to rest by itself,
whatever its fetches give (`Sound.comesToRest`).
-/

namespace ClusterConsole.Watching

/-- A ticker that has ticked is due later than before. -/
theorem PollLoop.due_lt_dueAfter {l : PollLoop} {now : Nat} (hrate : 0 < l.rate)
    (hdue : l.due ≤ now) : l.due < l.dueAfter now := by
  have hmod : (now - l.due) % l.rate < l.rate := Nat.mod_lt _ hrate
  rw [dueAfter]
  split <;> omega

namespace Vigil

variable {L : Type} {x : Vigil L} {a : Act L} {branch : Branch} {scope : Resource.Scope}
  {fetched : Fetched}

/-- The loop waits, and nothing is there that it could wake up for. -/
structure AtRest (x : Vigil L) : Prop where
  waiting : x.station = .waiting
  unready : ∀ branch, x.loop.ready x.watcher x.now x.calledOff branch = false

/-- The loop does that by itself, and its fetches give `fetched`. -/
def Act.Own (fetched : Fetched) : Act L → Prop
  | .wake _ | .cycle => True
  | .finish given => given = fetched
  | _ => False

def ComesToRest (fetched : Fetched) (x : Vigil L) : Prop :=
  ∃ more, (∀ a ∈ more, a.Own fetched) ∧ (x.after more).AtRest

theorem ComesToRest.of_act (ha : a.Own fetched) (h : (x.act a).ComesToRest fetched) :
    x.ComesToRest fetched := by
  obtain ⟨more, hown, hrest⟩ := h
  exact ⟨a :: more, List.forall_mem_cons.2 ⟨ha, hown⟩, hrest⟩

/-- The loop is not called off, and there is time between its ticks. -/
structure Going (x : Vigil L) : Prop where
  on : x.calledOff = false
  pace : 0 < x.loop.rate
  rate : 0 < x.watcher.rate

/-- How often the loop could wake up before time goes on. -/
def unrest (x : Vigil L) : Nat :=
  (x.now + 1 - x.loop.due) + x.watcher.nudged.toNat + x.watcher.rateChanged.toNat

theorem Going.wake (h : x.Going) (hready : x.Ready branch) :
    (x.wake branch).Going ∧ (x.wake branch).unrest < x.unrest ∧
      ((x.wake branch).station = .waiting ∨ (x.wake branch).station = .woken branch) := by
  rw [Vigil.wake, if_pos hready]
  obtain ⟨-, hready⟩ := hready
  cases branch with
  | calledOff => exact absurd (h.on.symm.trans hready) Bool.false_ne_true
  | tick =>
      have hdue : x.loop.due ≤ x.now := of_decide_eq_true hready
      have hlater := PollLoop.due_lt_dueAfter h.pace hdue
      refine ⟨⟨h.on, h.pace, h.rate⟩, ?_, .inr rfl⟩
      simp only [unrest, PollLoop.take]
      omega
  | nudge =>
      have hnudged : x.watcher.nudged = true := hready
      refine ⟨⟨h.on, h.pace, h.rate⟩, ?_, .inr rfl⟩
      simp only [unrest, PollLoop.take, hnudged, Bool.toNat_true, Bool.toNat_false]
      omega
  | rate =>
      have hchanged : x.watcher.rateChanged = true := hready
      rw [PollLoop.take_rate]
      refine ⟨⟨h.on, ?_, h.rate⟩, ?_, .inl rfl⟩
      · rw [PollLoop.rate_repace]
        exact h.rate
      · have hdue : x.now + 1 - (x.loop.repace x.watcher.rate x.now).due ≤
            x.now + 1 - x.loop.due := by
          rw [PollLoop.repace]
          split
          · exact Nat.le_refl _
          · have hrate := h.rate
            dsimp only
            omega
        simp only [unrest, hchanged, Bool.toNat_true, Bool.toNat_false]
        omega

/-- A cycle begins and ends, and what the loop could wake up for is as before. -/
theorem Going.finish (h : x.Going) (hs : x.station = .fetching scope) (fetched : Fetched) :
    (x.finish fetched).Going ∧ (x.finish fetched).unrest = x.unrest ∧
      (x.finish fetched).station = .waiting := by
  obtain ⟨t, ht⟩ := conclude_fields x.watcher scope fetched
  have hfinish : x.finish fetched = x.serve scope fetched := by simp [Vigil.finish, hs, h.on]
  rw [hfinish, serve, ht]
  exact ⟨⟨h.on, h.pace, h.rate⟩, rfl, rfl⟩

theorem Going.cycle (h : x.Going) (hs : x.station = .woken branch)
    (hbusy : x.watcher.busy = false) :
    x.cycle.Going ∧ x.cycle.unrest = x.unrest ∧ x.cycle.station = .fetching x.watcher.scope := by
  have hcycle : x.cycle = { x with
      watcher := { x.watcher with busy := true }
      station := .fetching x.watcher.scope
      fetchedIn := x.fetchedIn ++ [x.watcher.scope] } := by
    simp [Vigil.cycle, hs, Watcher.begin?, hbusy]
  rw [hcycle]
  exact ⟨⟨h.on, h.pace, h.rate⟩, rfl, rfl⟩

/-- From where it waits the loop comes to rest: each time that it wakes up there is less left
to wake up for. -/
theorem Sound.comesToRest_of_waiting (h : x.Sound) (hgoing : x.Going) (hs : x.station = .waiting)
    (fetched : Fetched) : x.ComesToRest fetched := by
  induction hn : x.unrest using Nat.strongRecOn generalizing x with
  | ind n ih =>
      subst hn
      by_cases hrest : ∀ branch, x.loop.ready x.watcher x.now x.calledOff branch = false
      · exact ⟨[], nofun, hs, hrest⟩
      obtain ⟨branch, hready⟩ := Classical.not_forall.1 hrest
      obtain ⟨hwake, hless, hstation⟩ := hgoing.wake ⟨hs, Bool.not_eq_false _ ▸ hready⟩
      have hsound : (x.wake branch).Sound := h.step (x.step_wake branch)
      refine .of_act (a := .wake branch) trivial ?_
      rcases hstation with hwaiting | hwoken
      · exact ih _ hless hsound hwake hwaiting rfl
      · obtain ⟨hcycle, hsame, hfetching⟩ :=
          hwake.cycle hwoken (hsound.idle (by rw [hwoken]; nofun))
        obtain ⟨hfinish, hsame', hwaiting⟩ := hcycle.finish hfetching fetched
        have hsound' := (hsound.step (step_cycle _)).step (step_finish _ fetched)
        refine .of_act (a := .cycle) trivial (.of_act (a := .finish fetched) rfl ?_)
        exact ih _ (hsame'.trans hsame ▸ hless) hsound' hfinish hwaiting rfl

/-- Wherever it stands, the loop comes to rest by itself. -/
theorem Sound.comesToRest (h : x.Sound) (hgoing : x.Going) (hstarted : x.station ≠ .unstarted)
    (hstopped : x.station ≠ .stopped) (fetched : Fetched) : x.ComesToRest fetched := by
  have hfetching {y : Vigil L} (hy : y.Sound) (hgoing : y.Going) {scope : Resource.Scope}
      (hs : y.station = .fetching scope) : y.ComesToRest fetched := by
    obtain ⟨hfinish, -, hwaiting⟩ := hgoing.finish hs fetched
    refine .of_act (a := .finish fetched) rfl ?_
    exact (hy.step (y.step_finish fetched)).comesToRest_of_waiting hfinish hwaiting fetched
  cases hs : x.station with
  | unstarted => exact absurd hs hstarted
  | stopped => exact absurd hs hstopped
  | waiting => exact h.comesToRest_of_waiting hgoing hs fetched
  | fetching scope => exact hfetching h hgoing hs
  | woken branch =>
      obtain ⟨hcycle, -, hs'⟩ := hgoing.cycle hs (h.idle (by rw [hs]; nofun))
      exact .of_act (a := .cycle) trivial (hfetching (h.step x.step_cycle) hcycle hs')

end Vigil

end ClusterConsole.Watching
