import ClusterConsole.Proofs.Forwarding.Exchange

/-!
# The life of a session

`Life s l` says that `l` is what a session that now stands as `s` may have lived
through: it was registered, then launched, then activated, or a prefix of that, and
nothing but its phase has changed on the way. `Over l` is such a life that has come
to its end. Both are written without the registry.
-/

namespace ClusterConsole.Forwarding

/-- The life of a session that stands as `s` and has not been removed. -/
inductive Life : Session → List Moment → Prop where
  | registered {s : Session} (hs : s.phase = .created) : Life s [⟨.registered, s⟩]
  | launched {s s' : Session} {l : List Moment} (h : Life s l) (hs : s.phase = .created)
      (hs' : { s with phase := .activating } = s') : Life s' (l ++ [⟨.launched, s'⟩])
  | activated {s s' : Session} {l : List Moment} (h : Life s l) (hs : s.phase = .activating)
      (hs' : { s with phase := .active } = s') : Life s' (l ++ [⟨.activated, s'⟩])

/-- The life of a session that was removed: it went from the phase it was in to a
last one. -/
def Over (l : List Moment) : Prop :=
  ∃ s l' p, Life s l' ∧ p.ended = true ∧ s.phase.canBecome p = true ∧
    l = l' ++ [⟨.removed, { s with phase := p }⟩]

/-- The turns that lead to a phase. -/
def Phase.turns : Phase → List Turn
  | created => [.registered]
  | activating => [.registered, .launched]
  | active => [.registered, .launched, .activated]
  | stopped | failed => []

theorem Phase.nodup_turns (p : Phase) : p.turns.Nodup := by
  cases p <;> decide

theorem Phase.nodup_turns_removed (p : Phase) : (p.turns ++ [Turn.removed]).Nodup := by
  cases p <;> decide

namespace Life

variable {s : Session} {l : List Moment}

theorem ended_eq_false (h : Life s l) : s.phase.ended = false := by
  cases h with
  | registered hs => rw [hs]; rfl
  | launched _ _ hs' => rw [← hs']; rfl
  | activated _ _ hs' => rw [← hs']; rfl

theorem turns_eq (h : Life s l) : l.map Moment.turn = s.phase.turns := by
  induction h with
  | registered hs => rw [hs]; rfl
  | launched _ hs hs' ih =>
      rw [List.map_append, ih, hs, ← hs']
      rfl
  | activated _ hs hs' ih =>
      rw [List.map_append, ih, hs, ← hs']
      rfl

/-- All moments of a life are about one session; only its phase differs. -/
theorem eq_of_mem (h : Life s l) : ∀ m ∈ l, { m.session with phase := s.phase } = s := by
  induction h with
  | registered hs => simp
  | launched _ _ hs' ih =>
      subst hs'
      intro m hm
      rcases List.mem_append.1 hm with hm | hm
      · have := ih m hm
        rw [← this]
      · rw [List.mem_singleton.1 hm]
  | activated _ _ hs' ih =>
      subst hs'
      intro m hm
      rcases List.mem_append.1 hm with hm | hm
      · have := ih m hm
        rw [← this]
      · rw [List.mem_singleton.1 hm]

theorem removed_notMem (h : Life s l) : ∀ m ∈ l, m.turn ≠ .removed := by
  intro m hm heq
  have hmem : Turn.removed ∈ s.phase.turns := by
    rw [← h.turns_eq, ← heq]
    exact List.mem_map_of_mem hm
  cases hp : s.phase <;> simp [hp, Phase.turns] at hmem

end Life

namespace Over

variable {l : List Moment}

theorem turns_eq (h : Over l) :
    ∃ p : Phase, p.ended = false ∧ l.map Moment.turn = p.turns ++ [.removed] := by
  obtain ⟨s, l', p, hlife, -, -, rfl⟩ := h
  exact ⟨s.phase, hlife.ended_eq_false, by simp [hlife.turns_eq]⟩

theorem ended_of_removed (h : Over l) :
    ∀ m ∈ l, m.turn = .removed → m.session.phase.ended = true := by
  obtain ⟨s, l', p, hlife, hp, -, rfl⟩ := h
  intro m hm hturn
  rcases List.mem_append.1 hm with hm | hm
  · exact absurd hturn (hlife.removed_notMem m hm)
  · rw [List.mem_singleton.1 hm]
    exact hp

end Over

end ClusterConsole.Forwarding
