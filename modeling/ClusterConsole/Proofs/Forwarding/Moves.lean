import ClusterConsole.Forwarding.Tunnel

/-!
# Moves of a tunnel

A tunnel has two parts beside its transport: one waits for the report of the ports
and queues the activation, the other waits for the end of both and queues the end.
`Move` is one step of any of the three, and they may come in any order.

`t.Later t'` says what cannot be taken back on the way from `t` to `t'`.
`t.Told l` says that `l` is what the tunnel has queued so far: the activation, if
ports were reported and their part has settled that, and behind it the end, if that
was queued.
-/

namespace ClusterConsole.Forwarding

namespace Report

/-- The key of the session that a report is about. -/
def fqn : Report → String
  | activated fqn _ _ => fqn
  | finished fqn _ _ => fqn

/-- The generation of the session that a report is about. -/
def generation : Report → Nat
  | activated _ g _ => g
  | finished _ g _ => g

def tag (ρ : Report) : String × Nat := (ρ.fqn, ρ.generation)

end Report

def Session.tag (s : Session) : String × Nat := (s.fqn, s.generation)

namespace Tunnel

def tag (t : Tunnel) : String × Nat := (t.fqn, t.generation)

/-- One step of a tunnel: its transport reports its ports, gives up reporting or
ends, or one of the other two parts settles what it has to tell. -/
inductive Move where
  | report (ports : List Mapping)
  | withhold
  | finish (ending : Ending)
  | settleActivation
  | settleFinish

/-- The tunnel after a move and the reports queued by it; `calledOff` is what the
token of the session says at that moment. -/
def move (t : Tunnel) (calledOff : Bool) : Move → Tunnel × List Report
  | .report ports => (t.report ports, [])
  | .withhold => (t.withhold, [])
  | .finish ending => (t.finish ending, [])
  | .settleActivation => t.settleActivation
  | .settleFinish => t.settleFinish calledOff

/-- What the part that waits for the ports has queued. -/
def activation (t : Tunnel) : List Report :=
  match t.activationSettled, t.ready with
  | true, .reported ports => [.activated t.fqn t.generation ports]
  | _, _ => []

/-- What the part that waits for the end has queued, if the token said so when it
was read. -/
def conclusion (t : Tunnel) (calledOff : Bool) : List Report :=
  match t.finishQueued, t.ending with
  | true, some e => [.finished t.fqn t.generation (e.outcome calledOff)]
  | _, _ => []

/-- What cannot be taken back. -/
structure Later (t t' : Tunnel) : Prop where
  tag : t'.tag = t.tag
  ready : t.ready ≠ .pending → t'.ready = t.ready
  ending : t.ending.isSome = true → t'.ending = t.ending
  settled : t.activationSettled = true → t'.activationSettled = true
  queued : t.finishQueued = true → t'.finishQueued = true

/-- The reports that a tunnel has queued so far. -/
structure Told (t : Tunnel) (l : List Report) : Prop where
  ended : t.ending.isSome = true → t.ready ≠ .pending
  settled : t.activationSettled = true → t.ready ≠ .pending
  queued : t.finishQueued = true → t.activationSettled = true ∧ t.ending.isSome = true
  told : ∃ c, l = t.activation ++ t.conclusion c

variable {t t' t'' : Tunnel} {l : List Report} {c : Bool} {ρ : Report}

/-! ## What cannot be taken back -/

theorem Later.refl (t : Tunnel) : t.Later t :=
  ⟨rfl, fun _ => rfl, fun _ => rfl, id, id⟩

theorem Later.trans (h : t.Later t') (h' : t'.Later t'') : t.Later t'' where
  tag := h'.tag.trans h.tag
  ready hr := by
    have := h.ready hr
    rw [← this] at hr ⊢
    exact h'.ready hr
  ending he := by
    have := h.ending he
    rw [← this] at he ⊢
    exact h'.ending he
  settled hs := h'.settled (h.settled hs)
  queued hq := h'.queued (h.queued hq)

theorem later_report (t : Tunnel) (ports : List Mapping) : t.Later (t.report ports) := by
  unfold report
  split
  · rename_i h
    exact ⟨rfl, fun hr => absurd h.2 hr, fun _ => rfl, id, id⟩
  · exact Later.refl t

theorem later_withhold (t : Tunnel) : t.Later t.withhold := by
  unfold withhold
  split
  · rename_i h
    exact ⟨rfl, fun hr => absurd h hr, fun _ => rfl, id, id⟩
  · exact Later.refl t

theorem later_finish (t : Tunnel) (e : Ending) : t.Later (t.finish e) := by
  unfold finish
  split
  · exact Later.refl t
  · rename_i h
    have hw := later_withhold t
    exact ⟨hw.tag, hw.ready, fun he => absurd he h, hw.settled, hw.queued⟩

theorem later_settleActivation (t : Tunnel) : t.Later t.settleActivation.1 := by
  unfold settleActivation
  split
  · exact Later.refl t
  · split
    · exact Later.refl t
    · exact ⟨rfl, fun _ => rfl, fun _ => rfl, fun _ => rfl, id⟩
    · exact ⟨rfl, fun _ => rfl, fun _ => rfl, fun _ => rfl, id⟩

theorem later_settleFinish (t : Tunnel) (c : Bool) : t.Later (t.settleFinish c).1 := by
  unfold settleFinish
  split
  · split
    · exact ⟨rfl, fun _ => rfl, fun _ => rfl, id, fun _ => rfl⟩
    · exact Later.refl t
  · exact Later.refl t

theorem later_move (t : Tunnel) (c : Bool) (m : Move) : t.Later (t.move c m).1 := by
  cases m with
  | report ports => exact later_report t ports
  | withhold => exact later_withhold t
  | finish e => exact later_finish t e
  | settleActivation => exact later_settleActivation t
  | settleFinish => exact later_settleFinish t c

theorem settleActivation_keeps (t : Tunnel) :
    t.settleActivation.1.ready = t.ready ∧ t.settleActivation.1.ending = t.ending := by
  unfold settleActivation
  split
  · exact ⟨rfl, rfl⟩
  · split <;> exact ⟨rfl, rfl⟩

theorem settleFinish_keeps (t : Tunnel) (c : Bool) :
    (t.settleFinish c).1.ready = t.ready ∧ (t.settleFinish c).1.ending = t.ending := by
  unfold settleFinish
  split
  · split <;> exact ⟨rfl, rfl⟩
  · exact ⟨rfl, rfl⟩

/-! ## What a tunnel has told -/

theorem activation_of_not_settled (h : ¬ t.activationSettled = true) : t.activation = [] := by
  simp [activation, h]

theorem conclusion_of_not_queued (h : ¬ t.finishQueued = true) : t.conclusion c = [] := by
  simp [conclusion, h]

theorem withhold_ready_ne (t : Tunnel) : t.withhold.ready ≠ .pending := by
  by_cases h : t.ready = .pending
  · simp [withhold, h]
  · rw [withhold, if_neg h]
    exact h

namespace Told

theorem ofSession (s : Session) : (Tunnel.ofSession s).Told [] where
  ended := by simp [Tunnel.ofSession]
  settled := by simp [Tunnel.ofSession]
  queued := by simp [Tunnel.ofSession]
  told := ⟨false, by simp [Tunnel.ofSession, activation, conclusion]⟩

/-- Before the activation is settled nothing was told. -/
theorem eq_nil (h : t.Told l) (hs : ¬ t.activationSettled = true) : l = [] := by
  obtain ⟨c, hl⟩ := h.told
  have hq : ¬ t.finishQueued = true := fun hq => hs (h.queued hq).1
  rw [hl, activation_of_not_settled hs, conclusion_of_not_queued hq]
  rfl

/-- Before the end is queued only the activation was told. -/
theorem eq_activation (h : t.Told l) (hq : ¬ t.finishQueued = true) : l = t.activation := by
  obtain ⟨c, hl⟩ := h.told
  rw [hl, conclusion_of_not_queued hq, List.append_nil]

theorem report (h : t.Told l) (ports : List Mapping) : (t.report ports).Told l := by
  unfold Tunnel.report
  split
  · rename_i hr
    have hs : ¬ t.activationSettled = true := fun hs => h.settled hs hr.2
    have hq : ¬ t.finishQueued = true := fun hq => hs (h.queued hq).1
    refine ⟨fun _ => by simp, fun _ => by simp, h.queued, false, ?_⟩
    simp [h.eq_nil hs, activation, conclusion, hs, hq]
  · exact h

theorem withhold (h : t.Told l) : t.withhold.Told l := by
  unfold Tunnel.withhold
  split
  · rename_i hr
    have hs : ¬ t.activationSettled = true := fun hs => h.settled hs hr
    have hq : ¬ t.finishQueued = true := fun hq => hs (h.queued hq).1
    refine ⟨fun _ => by simp, fun _ => by simp, h.queued, false, ?_⟩
    simp [h.eq_nil hs, activation, conclusion, hs, hq]
  · exact h

theorem finish (h : t.Told l) (e : Ending) : (t.finish e).Told l := by
  unfold Tunnel.finish
  split
  · exact h
  · rename_i he
    have hw := h.withhold
    have hq : ¬ t.withhold.finishQueued = true := by
      intro hq
      have hend := (hw.queued hq).2
      unfold Tunnel.withhold at hend
      split at hend <;> exact he hend
    refine ⟨fun _ => withhold_ready_ne t, hw.settled, fun h' => absurd h' hq, false, ?_⟩
    rw [hw.eq_activation hq]
    simp [activation, conclusion, hq]

theorem settleActivation (h : t.Told l) :
    t.settleActivation.1.Told (l ++ t.settleActivation.2) := by
  unfold Tunnel.settleActivation
  split
  · simpa using h
  · rename_i hs
    have hq : ¬ t.finishQueued = true := fun hq => hs (h.queued hq).1
    have hnil := h.eq_nil hs
    split
    · simpa using h
    · rename_i hr
      refine ⟨h.ended, fun _ => by simp [hr], fun h' => absurd h' hq, false, ?_⟩
      simp [hnil, activation, hr, conclusion, hq]
    · rename_i ports hr
      refine ⟨h.ended, fun _ => by simp [hr], fun h' => absurd h' hq, false, ?_⟩
      simp [hnil, activation, hr, conclusion, hq]

theorem settleFinish (h : t.Told l) (c : Bool) :
    (t.settleFinish c).1.Told (l ++ (t.settleFinish c).2) := by
  unfold Tunnel.settleFinish
  split
  · rename_i e he
    split
    · rename_i hsq
      refine ⟨h.ended, h.settled, fun _ => ⟨hsq.1, by simp [he]⟩, c, ?_⟩
      rw [h.eq_activation hsq.2]
      simp [activation, conclusion, he]
    · simpa using h
  · simpa using h

theorem move (h : t.Told l) (c : Bool) (m : Move) : (t.move c m).1.Told (l ++ (t.move c m).2) := by
  cases m with
  | report ports => simpa [Tunnel.move] using h.report ports
  | withhold => simpa [Tunnel.move] using h.withhold
  | finish e => simpa [Tunnel.move] using h.finish e
  | settleActivation => exact h.settleActivation
  | settleFinish => exact h.settleFinish c

end Told

/-! ## What a move tells -/

theorem tag_of_mem_move {m : Move} (h : ρ ∈ (t.move c m).2) : ρ.tag = t.tag := by
  cases m with
  | settleActivation =>
      simp only [move, settleActivation] at h
      split at h
      · simp at h
      · split at h
        · simp at h
        · simp at h
        · rw [List.mem_singleton.1 h]
          rfl
  | settleFinish =>
      simp only [move, settleFinish] at h
      split at h
      · split at h
        · rw [List.mem_singleton.1 h]
          rfl
        · simp at h
      · simp at h
  | _ => simp [move] at h

/-- The end is told by the part that waits for it, with the token as it stands. -/
theorem finished_mem_move {m : Move} {fqn : String} {g : Nat} {o : Outcome}
    (h : .finished fqn g o ∈ (t.move c m).2) :
    m = .settleFinish ∧ t.tag = (fqn, g) ∧ ∃ e, t.ending = some e ∧ o = e.outcome c := by
  cases m with
  | settleActivation =>
      simp only [move, settleActivation] at h
      split at h
      · simp at h
      · split at h <;> simp at h
  | settleFinish =>
      simp only [move, settleFinish] at h
      split at h
      · rename_i e he
        split at h
        · have heq := List.mem_singleton.1 h
          simp only [Report.finished.injEq] at heq
          obtain ⟨rfl, rfl, rfl⟩ := heq
          exact ⟨rfl, rfl, e, he, rfl⟩
        · simp at h
      · simp at h
  | _ => simp [move] at h

theorem eq_finished_of_mem_conclusion (h : ρ ∈ t.conclusion c) :
    ∃ o, ρ = .finished t.fqn t.generation o := by
  unfold conclusion at h
  split at h
  · exact ⟨_, List.mem_singleton.1 h⟩
  · cases h

/-! ## What a transport says -/

theorem reported_move {m : Move} {ports : List Mapping} (h : t.ready ≠ .reported ports)
    (hm : (t.move c m).1.ready = .reported ports) :
    m = .report ports ∧ t.ready = .pending ∧ t.ending = none := by
  have hwithhold : t.withhold.ready ≠ .reported ports := by
    unfold withhold
    split
    · nofun
    · exact h
  cases m with
  | report ports' =>
      simp only [move, report] at hm
      split at hm
      · rename_i hfree
        cases hm
        exact ⟨rfl, hfree.2, Option.isNone_iff_eq_none.1 hfree.1⟩
      · exact absurd hm h
  | withhold => exact absurd hm hwithhold
  | finish e =>
      simp only [move, finish] at hm
      split at hm
      · exact absurd hm h
      · exact absurd hm hwithhold
  | settleActivation =>
      rw [move, t.settleActivation_keeps.1] at hm
      exact absurd hm h
  | settleFinish =>
      rw [move, (t.settleFinish_keeps c).1] at hm
      exact absurd hm h

theorem ending_move {m : Move} {e : Ending} (h : t.ending ≠ some e)
    (hm : (t.move c m).1.ending = some e) : m = .finish e ∧ t.ending = none := by
  cases m with
  | finish e' =>
      simp only [move, finish] at hm
      split at hm
      · exact absurd hm h
      · rename_i hnone
        cases hm
        exact ⟨rfl, by simpa using hnone⟩
  | report ports =>
      simp only [move, report] at hm
      split at hm <;> exact absurd hm h
  | withhold =>
      simp only [move, withhold] at hm
      split at hm <;> exact absurd hm h
  | settleActivation =>
      rw [move, t.settleActivation_keeps.2] at hm
      exact absurd hm h
  | settleFinish =>
      rw [move, (t.settleFinish_keeps c).2] at hm
      exact absurd hm h

theorem settled_settleActivation (h : t.ready ≠ .pending) :
    t.settleActivation.1.activationSettled = true := by
  unfold settleActivation
  split
  · assumption
  · split
    · contradiction
    · rfl
    · rfl

theorem queued_settleFinish (hs : t.activationSettled = true) (he : t.ending.isSome = true) :
    (t.settleFinish c).1.finishQueued = true := by
  obtain ⟨e, he⟩ := Option.isSome_iff_exists.1 he
  by_cases hq : t.finishQueued = true
  · simp [settleFinish, he, hq]
  · simp [settleFinish, he, hs, hq]

end Tunnel

end ClusterConsole.Forwarding
