import ClusterConsole.Proofs.Watching.Rest

/-!
# No request is lost

`Attentive` gathers what holds of a vigil at every moment of every run: no request for a
cycle is left behind when the loop comes to rest, as it does by itself, requests made
during one cycle are met by one more, the ticker is replaced when the rate is another and
only then, and a loop that has stopped begins no cycle.
-/

namespace ClusterConsole.Watching

open ClusterConsole.Resource ClusterConsole.Snapshot ClusterConsole.Status

namespace Vigil

variable {L : Type} {x y : Vigil L} {a : Act L} {acts : List (Act L)} {scope : Scope}
  {started : Option (Branch × Scope)}

def Act.setsRate : Act L → Bool
  | .setRate _ => true
  | _ => false

/-- How many of the cycles were asked for. -/
def asked (cycles : List (Branch × Scope)) : Nat := cycles.countP fun c => c.1 == .nudge

/-- What holds of a vigil after a run that began with that scope and that rate. -/
structure Attentive (scope : Scope) (rate : Nat) (past : List (Act L)) (x : Vigil L) : Prop where
  scope : x.watcher.scope = past.foldl Act.scopeAfter scope
  rate : x.watcher.rate = past.foldl Act.rateAfter rate
  /-- What is fetched ends the cycle, -/
  ends : ∀ scope fetched, x.station = .fetching scope →
    (x.act (.finish fetched)).station = .waiting
  /-- and whatever that is, the loop comes to rest by itself. -/
  rests : x.Going → x.station ≠ .unstarted → x.station ≠ .stopped →
    ∀ fetched, x.ComesToRest fetched
  /-- The cycles that begin are those that fetch. -/
  fetched : ∀ acts, (x.after acts).fetchedIn = x.fetchedIn ++ (x.begun acts).map Prod.snd
  /-- When the loop rests a cycle has begun since the request, and in the scope that was
  the last to be set until then. -/
  answered : ∀ acts, (x.after (.nudge :: acts)).AtRest →
    ∃ acts₁ acts₂ branch, acts = acts₁ ++ .cycle :: acts₂ ∧
      (x.after (.nudge :: acts₁)).beginning? .cycle =
        some (branch, acts₁.foldl Act.scopeAfter x.watcher.scope)
  /-- If a cycle is asked for while one is underway, and not again after it, then one more
  begins for that. -/
  once : ∀ scope during last since, x.station = .fetching scope → .nudge ∈ during →
    (∀ a ∈ during, a.ends = false) → (x.after (during ++ [last])).station = .waiting →
    .nudge ∉ since → asked ((x.after (during ++ [last])).begun since) ≤ 1 ∧
      ((x.after (during ++ [last] ++ since)).AtRest →
        asked ((x.after (during ++ [last])).begun since) = 1)
  /-- That the rate in force is set makes no difference to the ticker and the cycles. -/
  steady : ∀ acts, x.watcher.rate = x.loop.rate → (∀ r, .setRate r ∈ acts → r = x.loop.rate) →
    (x.after acts).loop = (x.after (acts.filter fun a => !a.setsRate)).loop ∧
      x.begun acts = x.begun (acts.filter fun a => !a.setsRate)
  /-- Until it ticks or is replaced again a new ticker is due one interval after the loop
  has taken note of another rate. -/
  repaced : ∀ acts, x.station = .waiting → x.watcher.rateChanged = true →
    x.watcher.rate ≠ x.loop.rate → (∀ a ∈ acts, a ≠ .wake .tick ∧ a ≠ .wake .rate) →
    (x.after (.wake .rate :: acts)).loop = ⟨x.watcher.rate, x.now + x.watcher.rate⟩ ∧
      ((x.after (.wake .rate :: acts)).loop.ready (x.after (.wake .rate :: acts)).watcher
        (x.after (.wake .rate :: acts)).now (x.after (.wake .rate :: acts)).calledOff .tick = true ↔
          x.now + x.watcher.rate ≤ (x.after (.wake .rate :: acts)).now)
  heeded : x.AtRest → x.loop.rate = x.watcher.rate
  stops : x.station = .waiting → x.calledOff = true →
    (x.act (.wake .calledOff)).station = .stopped
  stopped : x.station = .stopped → ∀ acts, (x.after acts).station = .stopped ∧ x.begun acts = []
  /-- A cycle that begins nevertheless once the token is called off serves nobody. -/
  hushed : x.calledOff = true → ∀ acts, (x.after acts).heard = x.heard ∧
    (x.after acts).watcher.snapshot = x.watcher.snapshot

/-! ## Requests are answered -/

/-- A cycle was asked for that has not begun. -/
def Owing (x : Vigil L) : Prop := x.watcher.nudged = true ∨ ∃ branch, x.station = .woken branch

theorem Owing.nudged (h : x.Owing) (hs : ∀ branch, x.station ≠ .woken branch) :
    x.watcher.nudged = true :=
  h.resolve_right fun ⟨branch, hwoken⟩ => hs branch hwoken

theorem AtRest.not_owing (h : x.AtRest) : ¬ x.Owing := by
  intro howing
  have hnudged := howing.nudged (by rw [h.waiting]; nofun)
  have hunready := h.unready .nudge
  rw [PollLoop.ready, hnudged] at hunready
  cases hunready

theorem Sound.owing_step (hsound : x.Sound) (hstep : Step x a started y) (h : x.Owing) :
    started.isSome = true ∨ y.Owing ∨ y.station = .stopped := by
  cases hstep with
  | begins => exact .inl rfl
  | stops => exact .inr (.inr rfl)
  | starts hs => exact .inr (.inl (.inl (h.nudged (by rw [hs]; nofun))))
  | repaces hs => exact .inr (.inl (.inl (h.nudged (by rw [hs]; nofun))))
  | ticks => exact .inr (.inl (.inr ⟨_, rfl⟩))
  | heeds => exact .inr (.inl (.inr ⟨_, rfl⟩))
  | misses branch hs hbusy =>
      rw [hsound.idle (by simp [hs])] at hbusy
      cases hbusy
  | breaksOff _ _ _ hs => exact .inr (.inl (.inl (h.nudged (by rw [hs]; nofun))))
  | serves scope fetched hs =>
      obtain ⟨t, ht⟩ := conclude_fields x.watcher scope fetched
      refine .inr (.inl (.inl ?_))
      rw [serve, ht]
      exact h.nudged (by rw [hs]; nofun)
  | asks => exact .inr (.inl (.inl rfl))
  | _ => exact .inr (.inl h)

theorem Step.begins_cycle {p : Branch × Scope} (h : Step x a (some p) y) :
    a = .cycle ∧ p.2 = x.watcher.scope := by
  cases h with
  | begins branch => exact ⟨rfl, rfl⟩

theorem Sound.answered (hsound : x.Sound) (h : x.Owing) (hrest : (x.after acts).AtRest) :
    ∃ acts₁ acts₂ branch, acts = acts₁ ++ .cycle :: acts₂ ∧
      (x.after acts₁).beginning? .cycle =
        some (branch, acts₁.foldl Act.scopeAfter x.watcher.scope) := by
  induction acts generalizing x with
  | nil => exact absurd h hrest.not_owing
  | cons a acts ih =>
      have hstep := x.step_act a
      obtain hbegins | howing | hstopped := hsound.owing_step hstep h
      · obtain ⟨⟨branch, read⟩, hp⟩ := Option.isSome_iff_exists.1 hbegins
        rw [hp] at hstep
        obtain ⟨rfl, rfl⟩ := hstep.begins_cycle
        exact ⟨[], acts, branch, rfl, hp⟩
      · obtain ⟨acts₁, acts₂, branch, rfl, hbegins⟩ := ih (hsound.step hstep) howing hrest
        refine ⟨a :: acts₁, acts₂, branch, rfl, ?_⟩
        rw [hstep.settings.1] at hbegins
        exact hbegins
      · have hwaiting := hrest.waiting
        rw [after_cons, (stopped_after hstopped acts).1] at hwaiting
        cases hwaiting

/-! ## Requests are answered once -/

/-- How many cycles are due for what was asked: the permit, and the cycle that the loop
has woken up for. -/
def owed (x : Vigil L) : Nat :=
  x.watcher.nudged.toNat + if x.station = .woken .nudge then 1 else 0

theorem owed_eq (hs : x.station ≠ .woken .nudge) : x.owed = x.watcher.nudged.toNat := by
  rw [owed, if_neg hs, Nat.add_zero]

theorem AtRest.owed (h : x.AtRest) : x.owed = 0 := by
  have hunready := h.unready .nudge
  rw [PollLoop.ready] at hunready
  rw [owed_eq (by rw [h.waiting]; nofun), hunready]
  rfl

/-- What is due is only given up for a cycle that begins. -/
theorem Sound.owed_step (hsound : x.Sound) (hstep : Step x a started y) (ha : a ≠ .nudge) :
    asked started.toList + y.owed = x.owed := by
  have hsame (hx : x.station ≠ .woken .nudge) (hy : y.station ≠ .woken .nudge)
      (hnudged : y.watcher.nudged = x.watcher.nudged) : asked [] + y.owed = x.owed := by
    rw [owed_eq hx, owed_eq hy, hnudged]
    exact Nat.zero_add _
  cases hstep with
  | asks => exact absurd rfl ha
  | starts hs => exact hsame (by simp [hs]) (by simp) rfl
  | stops hs => exact hsame (by simp [hs]) (by simp) rfl
  | ticks hs => exact hsame (by simp [hs]) (by simp) rfl
  | repaces hs => exact hsame (by simp [hs]) (by simp) rfl
  | breaksOff _ _ _ hs => exact hsame (by simp [hs]) (by simp [breakOff]) rfl
  | serves scope fetched hs =>
      obtain ⟨t, ht⟩ := conclude_fields x.watcher scope fetched
      exact hsame (by simp [hs]) (by simp [serve]) (by rw [serve, ht])
  | heeds hs hnudged =>
      -- the permit becomes the cycle that the loop goes on to
      rw [owed_eq (x := x) (by simp [hs]), hnudged]
      rfl
  | begins branch hs =>
      cases branch <;> simp [asked, owed, hs, Nat.add_comm]
  | misses branch hs hbusy =>
      rw [hsound.idle (by simp [hs])] at hbusy
      cases hbusy
  | _ => exact Nat.zero_add _

theorem Sound.owed_after (hsound : x.Sound) (hnone : .nudge ∉ acts) :
    asked (x.begun acts) + (x.after acts).owed = x.owed := by
  induction acts generalizing x with
  | nil => exact Nat.zero_add _
  | cons a acts ih =>
      have hstep := x.step_act a
      rw [List.mem_cons, not_or] at hnone
      have hrest := ih (hsound.step hstep) hnone.2
      have hfirst := hsound.owed_step hstep (Ne.symm hnone.1)
      rw [begun, after_cons, asked, List.countP_append]
      rw [asked] at hrest hfirst
      omega

/-- A cycle goes on until something ends it, and a request that was made stays. -/
theorem act_of_fetching (hs : x.station = .fetching scope) (ha : a.ends = false) :
    (x.act a).station = .fetching scope ∧
      (x.watcher.nudged = true ∨ a = .nudge → (x.act a).watcher.nudged = true) := by
  cases a with
  | finish | quit => cases ha
  | watch | wake | cycle => simp [act, watch, wake, Ready, cycle, hs]
  | nudge => exact ⟨hs, fun _ => rfl⟩
  | _ => exact ⟨hs, fun h => h.resolve_right (by simp)⟩

theorem after_of_fetching (hs : x.station = .fetching scope)
    (hacts : ∀ a ∈ acts, a.ends = false) : (x.after acts).station = .fetching scope ∧
      (x.watcher.nudged = true ∨ .nudge ∈ acts → (x.after acts).watcher.nudged = true) := by
  induction acts generalizing x with
  | nil => exact ⟨hs, fun h => h.resolve_right List.not_mem_nil⟩
  | cons a acts ih =>
      obtain ⟨hstation, hnudged⟩ := act_of_fetching hs (hacts a List.mem_cons_self)
      obtain ⟨hafter, hkept⟩ := ih hstation fun b hb => hacts b (List.mem_cons_of_mem _ hb)
      refine ⟨hafter, fun h => hkept ?_⟩
      rw [List.mem_cons] at h
      rcases h with h | rfl | h
      · exact .inl (hnudged (.inl h))
      · exact .inl (hnudged (.inr rfl))
      · exact .inr h

theorem nudged_act_of_ended (hs : x.station = .fetching scope)
    (hended : (x.act a).station = .waiting) : (x.act a).watcher.nudged = x.watcher.nudged := by
  cases hends : a.ends with
  | false =>
      rw [(act_of_fetching hs hends).1] at hended
      cases hended
  | true =>
      have hstep := x.step_act a
      cases a with
      | finish fetched =>
          simp only [act, finish, hs]
          split
          · rfl
          · obtain ⟨t, ht⟩ := conclude_fields x.watcher scope fetched
            rw [serve, ht]
      | quit =>
          simp only [act, quit, hs]
          split <;> rfl
      | _ => cases hends

theorem Sound.asked_once (hsound : x.Sound) {during since : List (Act L)}
    (hs : x.station = .fetching scope) (hasked : .nudge ∈ during)
    (hduring : ∀ a ∈ during, a.ends = false)
    (hended : (x.after (during ++ [a])).station = .waiting) (hsince : .nudge ∉ since) :
    asked ((x.after (during ++ [a])).begun since) +
      (x.after (during ++ [a] ++ since)).owed = 1 := by
  obtain ⟨hfetching, hnudged⟩ := after_of_fetching hs hduring
  rw [after_append] at hended
  have howed : (x.after (during ++ [a])).owed = 1 := by
    rw [after_append, owed_eq (by rw [hended]; nofun)]
    exact congrArg Bool.toNat
      ((nudged_act_of_ended hfetching hended).trans (hnudged (.inr hasked)))
  rw [after_append _ (during ++ [a]), (hsound.after _).owed_after hsince, howed]

/-! ## The rate that is set -/

/-- The vigil with or without a permit for a change of the rate. -/
def withRateChanged (x : Vigil L) (b : Bool) : Vigil L :=
  { x with watcher := { x.watcher with rateChanged := b } }

/-- The loop has nothing to do about the rate. -/
def Paced (x : Vigil L) : Prop := x.watcher.rate = x.loop.rate

theorem Paced.wake_rate (h : x.Paced) : ∃ b, x.wake .rate = x.withRateChanged b := by
  have hrepace : x.loop.repace x.watcher.rate x.now = x.loop := if_pos h
  rw [wake, PollLoop.take_rate, hrepace]
  split
  · rename_i hready
    rw [Ready] at hready
    exact ⟨false, by simp [withRateChanged, stationAfter, ← hready.1]⟩
  · exact ⟨x.watcher.rateChanged, rfl⟩

theorem wake_withRateChanged (x : Vigil L) (b : Bool) {branch : Branch} (hbranch : branch ≠ .rate) :
    (x.withRateChanged b).wake branch = (x.wake branch).withRateChanged b := by
  have hiff : x.Ready branch ↔ (x.withRateChanged b).Ready branch := by
    cases branch <;> first | exact absurd rfl hbranch | exact Iff.rfl
  by_cases hready : x.Ready branch
  · rw [wake, wake, if_pos (hiff.1 hready), if_pos hready]
    cases branch <;> first | exact absurd rfl hbranch | rfl
  · rw [wake, wake, if_neg (mt hiff.2 hready), if_neg hready]

theorem watch_withRateChanged (x : Vigil L) (b : Bool) :
    (x.withRateChanged b).watch = x.watch.withRateChanged b := by
  obtain ⟨w, loop, station, now, off, fetchedIn, heard⟩ := x
  cases station <;> rfl

theorem cycle_withRateChanged (x : Vigil L) (b : Bool) :
    (x.withRateChanged b).cycle = x.cycle.withRateChanged b := by
  obtain ⟨⟨_, _, _, _, _, busy, _, _⟩, loop, station, now, off, fetchedIn, heard⟩ := x
  cases station with
  | woken branch => cases busy <;> rfl
  | _ => rfl

theorem finish_withRateChanged (x : Vigil L) (b : Bool) (fetched : Fetched) :
    (x.withRateChanged b).finish fetched = (x.finish fetched).withRateChanged b := by
  obtain ⟨w, loop, station, now, off, fetchedIn, heard⟩ := x
  cases station with
  | fetching scope => cases off <;> cases fetched <;> rfl
  | _ => rfl

theorem quit_withRateChanged (x : Vigil L) (b : Bool) :
    (x.withRateChanged b).quit = x.quit.withRateChanged b := by
  obtain ⟨w, loop, station, now, off, fetchedIn, heard⟩ := x
  cases station with
  | fetching scope => cases off <;> rfl
  | _ => rfl

theorem beginning?_withRateChanged (x : Vigil L) (b : Bool) (a : Act L) :
    (x.withRateChanged b).beginning? a = x.beginning? a := by
  cases a with
  | cycle =>
      obtain ⟨⟨_, _, _, _, _, busy, _, _⟩, loop, station, now, off, fetchedIn, heard⟩ := x
      cases station with
      | woken branch => cases busy <;> rfl
      | _ => rfl
  | _ => rfl

theorem Paced.exists_act_withRateChanged (h : x.Paced) (ha : a.setsRate = false) (b : Bool) :
    ∃ b', (x.withRateChanged b).act a = (x.act a).withRateChanged b' := by
  cases a with
  | setRate => cases ha
  | watch => exact ⟨b, x.watch_withRateChanged b⟩
  | wake branch =>
      by_cases hbranch : branch = .rate
      · subst hbranch
        obtain ⟨b₁, h₁⟩ := h.wake_rate
        obtain ⟨b₂, h₂⟩ := Paced.wake_rate (x := x.withRateChanged b) h
        exact ⟨b₂, by rw [act, act, h₁, h₂]; rfl⟩
      · exact ⟨b, x.wake_withRateChanged b hbranch⟩
  | cycle => exact ⟨b, x.cycle_withRateChanged b⟩
  | finish fetched => exact ⟨b, x.finish_withRateChanged b fetched⟩
  | quit => exact ⟨b, x.quit_withRateChanged b⟩
  | _ => exact ⟨b, rfl⟩

/-- Nothing but a rate that is set changes the pace. -/
theorem Step.paced (hstep : Step x a started y) (h : x.Paced) (ha : a.setsRate = false) :
    y.Paced ∧ y.loop.rate = x.loop.rate := by
  cases hstep with
  | starts => exact ⟨rfl, h⟩
  | repaces =>
      have hrepace : x.loop.repace x.watcher.rate x.now = x.loop := if_pos h
      rw [hrepace]
      exact ⟨h, rfl⟩
  | serves scope fetched =>
      obtain ⟨t, ht⟩ := conclude_fields x.watcher scope fetched
      rw [serve, ht]
      exact ⟨h, rfl⟩
  | rerates => cases ha
  | _ => exact ⟨h, rfl⟩

theorem Paced.after_filter (h : x.Paced) (b : Bool)
    (hacts : ∀ r, .setRate r ∈ acts → r = x.loop.rate) :
    (∃ b', (x.withRateChanged b).after (acts.filter fun a => !a.setsRate) =
      (x.after acts).withRateChanged b') ∧
      (x.withRateChanged b).begun (acts.filter fun a => !a.setsRate) = x.begun acts := by
  induction acts generalizing x b with
  | nil => exact ⟨⟨b, rfl⟩, rfl⟩
  | cons a acts ih =>
      have htail : ∀ r, .setRate r ∈ acts → r = x.loop.rate := fun r hr =>
        hacts r (List.mem_cons_of_mem _ hr)
      cases ha : a.setsRate with
      | true =>
          cases a with
          | setRate r =>
              have hsame : x.act (.setRate r) = x.withRateChanged true := by
                rw [act, Watcher.setRate, hacts r List.mem_cons_self, ← h]
                rfl
              obtain ⟨hafter, hbegun⟩ := ih (x := x.withRateChanged true) h b htail
              rw [List.filter_cons_of_neg (by simp [ha]), after_cons, begun, hsame]
              exact ⟨hafter, hbegun⟩
          | _ => cases ha
      | false =>
          obtain ⟨hpaced, hrate⟩ := (x.step_act a).paced h ha
          obtain ⟨b', hb'⟩ := h.exists_act_withRateChanged ha b
          obtain ⟨hafter, hbegun⟩ := ih hpaced b' (hrate ▸ htail)
          rw [List.filter_cons_of_pos (by rw [ha]; rfl), after_cons, begun, hb', begun,
            beginning?_withRateChanged, hbegun]
          exact ⟨hafter, rfl⟩

theorem Paced.steady (h : x.Paced) (hacts : ∀ r, .setRate r ∈ acts → r = x.loop.rate) :
    (x.after acts).loop = (x.after (acts.filter fun a => !a.setsRate)).loop ∧
      x.begun acts = x.begun (acts.filter fun a => !a.setsRate) := by
  obtain ⟨⟨b, hafter⟩, hbegun⟩ := h.after_filter x.watcher.rateChanged hacts
  have hafter' : x.after (acts.filter fun a => !a.setsRate) = (x.after acts).withRateChanged b :=
    hafter
  exact ⟨by rw [hafter']; rfl, hbegun.symm⟩

/-- The ticker stays as long as it does not tick and the rate is not taken note of. -/
theorem Step.loop_eq (hstep : Step x a started y) (hs : x.station ≠ .unstarted)
    (hne : a ≠ .wake .tick ∧ a ≠ .wake .rate) :
    y.loop = x.loop ∧ y.station ≠ .unstarted := by
  cases hstep with
  | starts h => exact absurd h hs
  | ticks => exact absurd rfl hne.1
  | repaces => exact absurd rfl hne.2
  | stops | heeds | begins | misses | breaksOff | serves => exact ⟨rfl, nofun⟩
  | _ => exact ⟨rfl, hs⟩

theorem loop_after (hs : x.station ≠ .unstarted)
    (hacts : ∀ a ∈ acts, a ≠ .wake .tick ∧ a ≠ .wake .rate) : (x.after acts).loop = x.loop := by
  induction acts generalizing x with
  | nil => rfl
  | cons a acts ih =>
      obtain ⟨hloop, hstarted⟩ := (x.step_act a).loop_eq hs (hacts a List.mem_cons_self)
      rw [after_cons, ih hstarted fun b hb => hacts b (List.mem_cons_of_mem _ hb), hloop]

theorem loop_after_repace (hs : x.station = .waiting) (hchanged : x.watcher.rateChanged = true)
    (hrate : x.watcher.rate ≠ x.loop.rate)
    (hacts : ∀ a ∈ acts, a ≠ .wake .tick ∧ a ≠ .wake .rate) :
    (x.after (.wake .rate :: acts)).loop = ⟨x.watcher.rate, x.now + x.watcher.rate⟩ := by
  have hwake : (x.wake .rate).loop = ⟨x.watcher.rate, x.now + x.watcher.rate⟩ ∧
      (x.wake .rate).station = .waiting := by
    rw [wake, if_pos ⟨hs, hchanged⟩, PollLoop.take_rate, PollLoop.repace, if_neg hrate]
    exact ⟨rfl, rfl⟩
  rw [after_cons, act, loop_after (by simp [hwake.2]) hacts, hwake.1]

/-! ## Once the token is called off -/

theorem Step.hushed (hstep : Step x a started y) (hoff : x.calledOff = true) :
    y.calledOff = true ∧ y.heard = x.heard ∧ y.watcher.snapshot = x.watcher.snapshot := by
  cases hstep with
  | serves _ _ _ hon =>
      rw [hon] at hoff
      cases hoff
  | callsOff => exact ⟨rfl, rfl, rfl⟩
  | _ => exact ⟨hoff, rfl, rfl⟩

theorem hushed_after (hoff : x.calledOff = true) (acts : List (Act L)) :
    (x.after acts).heard = x.heard ∧
      (x.after acts).watcher.snapshot = x.watcher.snapshot := by
  induction acts generalizing x with
  | nil => exact ⟨rfl, rfl⟩
  | cons a acts ih =>
      obtain ⟨hoff', hheard, hsnapshot⟩ := (x.step_act a).hushed hoff
      rw [← hheard, ← hsnapshot]
      exact ih hoff'

/-! ## Every run -/

theorem Sound.attentive (h : x.Sound) {rate : Nat} {past : List (Act L)}
    (hscope : x.watcher.scope = past.foldl Act.scopeAfter scope)
    (hrate : x.watcher.rate = past.foldl Act.rateAfter rate) : x.Attentive scope rate past where
  scope := hscope
  rate := hrate
  ends scope fetched hs := by
    simp only [act, finish, hs]
    split <;> rfl
  rests hgoing := h.comesToRest hgoing
  fetched := x.fetchedIn_after
  answered acts hrest := (h.step (x.step_act .nudge)).answered (.inl rfl) hrest
  once scope during last since hs hasked hduring hended hsince := by
    have howed := h.asked_once hs hasked hduring hended hsince
    refine ⟨by omega, fun hrest => ?_⟩
    rw [hrest.owed] at howed
    exact howed
  steady acts hpaced hacts := Paced.steady hpaced hacts
  repaced acts hs hchanged hne hacts := by
    have hloop := loop_after_repace hs hchanged hne hacts
    exact ⟨hloop, by rw [PollLoop.ready, hloop, decide_eq_true_iff]⟩
  heeded hrest := h.pace (by simp [hrest.waiting]) (hrest.unready .rate)
  stops hs hoff := by
    rw [act, wake, if_pos ⟨hs, hoff⟩]
    rfl
  stopped hs := stopped_after hs
  hushed hoff := hushed_after hoff

/-- At every moment of every run the loop is attentive. -/
theorem no_request_is_lost (target : Target) (scope : Scope) (rate : Nat)
    (acts : List (Act L)) :
    ((start (Watcher.new target scope rate)).after acts).Attentive scope rate acts :=
  ((Sound.start _ rfl).after acts).attentive (scope_after _ acts) (rate_after _ acts)

/-- A request that is made while the first cycle is underway is met by the second. -/
example :
    let acts : List (Act String) := [.watch, .wake .tick, .cycle, .nudge, .setScope (.named "web"),
      .finish (.ok []), .wake .nudge, .cycle, .finish (.error ["refused"])]
    let x := start (Watcher.new (.all .pods) .all 2000)
    (x.after acts).AtRest ∧ x.begun acts = [(.tick, .all), (.nudge, .named "web")] :=
  ⟨⟨rfl, fun branch => by cases branch <;> rfl⟩, rfl⟩

end Vigil

end ClusterConsole.Watching
