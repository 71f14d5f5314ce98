import ClusterConsole.Proofs.Forwarding.Life

/-!
# The census

`Lives r log` ties a registry to its log: the sessions that the registry holds have
lived through what the log says of them and are not called off, and every other
session in the log was removed in due course and is called off. The three ways to
change a registry, `register`, `set` and `drop`, keep it so.
-/

namespace ClusterConsole.Forwarding

open ClusterConsole.Status

/-- What a registry and its log have to do with each other. -/
structure Lives (r : Registry) (log : List Moment) : Prop where
  ordered : r.Ordered
  alive : ∀ s ∈ r.sessions, Life s (life s.generation log)
  distinct : ∀ s ∈ r.sessions, ∀ t ∈ r.sessions, s.generation = t.generation → s = t
  notCalledOff : ∀ s ∈ r.sessions, s.generation ∉ r.calledOff
  calledOff_lt : ∀ g ∈ r.calledOff, g < r.nextGeneration
  logged_lt : ∀ m ∈ log, m.session.generation < r.nextGeneration
  settled : ∀ m ∈ log, (∃ s ∈ r.sessions, s.generation = m.session.generation) ∨
    (m.session.generation ∈ r.calledOff ∧ Over (life m.session.generation log))

/-! ## Reading the log -/

theorem mem_life {g : Nat} {log : List Moment} {m : Moment} :
    m ∈ life g log ↔ m ∈ log ∧ m.session.generation = g := by
  simp [life]

theorem life_append_self (log : List Moment) (turn : Turn) (s : Session) :
    life s.generation (log ++ [⟨turn, s⟩]) = life s.generation log ++ [⟨turn, s⟩] := by
  simp [life, List.filter_append]

theorem life_append_of_ne {g : Nat} {s : Session} (log : List Moment) (turn : Turn)
    (h : s.generation ≠ g) : life g (log ++ [⟨turn, s⟩]) = life g log := by
  simp [life, List.filter_append, h]

theorem mem_log_of_ne {log : List Moment} {m : Moment} {turn : Turn} {s : Session}
    (hm : m ∈ log ++ [⟨turn, s⟩]) (h : s.generation ≠ m.session.generation) : m ∈ log := by
  rcases List.mem_append.1 hm with hm | hm
  · exact hm
  · rw [List.mem_singleton.1 hm] at h
    exact absurd rfl h

theorem generation_lt_append {log : List Moment} {turn : Turn} {s : Session} {n : Nat}
    (h : ∀ m ∈ log, m.session.generation < n) (hs : s.generation < n) :
    ∀ m ∈ log ++ [⟨turn, s⟩], m.session.generation < n := by
  intro m hm
  rcases List.mem_append.1 hm with hm | hm
  · exact h m hm
  · rw [List.mem_singleton.1 hm]
    exact hs

namespace Lives

variable {r : Registry} {log : List Moment} {s s' t : Session}

theorem empty : Lives Registry.empty [] where
  ordered := List.Pairwise.nil
  alive := by simp [Registry.empty]
  distinct := by simp [Registry.empty]
  notCalledOff := by simp [Registry.empty]
  calledOff_lt := by simp [Registry.empty]
  logged_lt := by simp
  settled := by simp

theorem exists_moment (h : Lives r log) (hs : s ∈ r.sessions) :
    ∃ m ∈ log, m.session.generation = s.generation := by
  have hturns := (h.alive s hs).turns_eq
  cases hl : life s.generation log with
  | nil =>
      have hended := (h.alive s hs).ended_eq_false
      rw [hl] at hturns
      cases hp : s.phase <;> simp [hp, Phase.turns, Phase.ended] at hturns hended
  | cons m l => exact ⟨m, mem_life.1 (hl ▸ List.mem_cons_self)⟩

theorem generation_lt (h : Lives r log) (hs : s ∈ r.sessions) :
    s.generation < r.nextGeneration := by
  obtain ⟨m, hm, hg⟩ := h.exists_moment hs
  exact hg ▸ h.logged_lt m hm

/-- Sessions under different keys have different generations. -/
theorem generation_ne (h : Lives r log) (hs : s ∈ r.sessions) (ht : t ∈ r.sessions)
    (hne : t.fqn ≠ s.fqn) : s.generation ≠ t.generation := by
  intro heq
  have hst := h.distinct s hs t ht heq
  exact hne (congrArg Session.fqn hst).symm

theorem turn_mem {m : Moment} (h : Lives r log) (hs : s ∈ r.sessions) (hm : m ∈ log)
    (hg : m.session.generation = s.generation) : m.turn ∈ s.phase.turns := by
  rw [← (h.alive s hs).turns_eq]
  exact List.mem_map_of_mem (mem_life.2 ⟨hm, hg⟩)

theorem phase_ne_created {m : Moment} (h : Lives r log) (hs : s ∈ r.sessions) (hm : m ∈ log)
    (hturn : m.turn = .launched) (hg : m.session.generation = s.generation) :
    s.phase ≠ .created := by
  have hmem := h.turn_mem hs hm hg
  intro hcreated
  simp [hturn, hcreated, Phase.turns] at hmem

theorem fqn_eq {m : Moment} (h : Lives r log) (hs : s ∈ r.sessions) (hm : m ∈ log)
    (hg : m.session.generation = s.generation) : s.fqn = m.session.fqn := by
  have heq := (h.alive s hs).eq_of_mem m (mem_life.2 ⟨hm, hg⟩)
  exact (congrArg Session.fqn heq).symm

/-- No session takes a turn twice. -/
theorem turns_nodup (h : Lives r log) (g : Nat) : ((life g log).map Moment.turn).Nodup := by
  cases hl : life g log with
  | nil => exact List.nodup_nil
  | cons m l =>
      have hm : m ∈ life g log := by rw [hl]; exact List.mem_cons_self
      obtain ⟨hlog, rfl⟩ := mem_life.1 hm
      rw [← hl]
      rcases h.settled m hlog with ⟨s, hs, hg⟩ | ⟨-, hover⟩
      · rw [← hg, (h.alive s hs).turns_eq]
        exact s.phase.nodup_turns
      · obtain ⟨p, -, hp⟩ := hover.turns_eq
        rw [hp]
        exact p.nodup_turns_removed

/-- A session is registered with the next generation, about which nothing is logged. -/
theorem register (h : Lives r log) (hfree : r.get? s.fqn = none)
    (hg : s.generation = r.nextGeneration) (hp : s.phase = .created) :
    Lives (r.register s) (log ++ [⟨.registered, s⟩]) := by
  have hold : ∀ t ∈ r.sessions, s.generation ≠ t.generation := by
    intro t ht heq
    have hlt := h.generation_lt ht
    omega
  have hnil : life s.generation log = [] := by
    refine List.filter_eq_nil_iff.2 fun m hm => ?_
    have hlt := h.logged_lt m hm
    simp
    omega
  refine
    { ordered := h.ordered.register hfree
      alive := ?_
      distinct := ?_
      notCalledOff := ?_
      calledOff_lt := fun g hmem => Nat.lt_succ_of_lt (h.calledOff_lt g hmem)
      logged_lt := ?_
      settled := ?_ }
  · intro t ht
    rcases Registry.mem_insert.1 ht with rfl | hto
    · rw [life_append_self log, hnil]
      exact Life.registered hp
    · rw [life_append_of_ne log _ (hold t hto)]
      exact h.alive t hto
  · intro t ht u hu heq
    rcases Registry.mem_insert.1 ht with hts | hto
    · rcases Registry.mem_insert.1 hu with hus | huo
      · rw [hts, hus]
      · exact absurd (hts ▸ heq) (hold u huo)
    · rcases Registry.mem_insert.1 hu with hus | huo
      · exact absurd (hus ▸ heq).symm (hold t hto)
      · exact h.distinct t hto u huo heq
  · intro t ht
    rcases Registry.mem_insert.1 ht with rfl | ht
    · intro hmem
      have hlt := h.calledOff_lt _ hmem
      omega
    · exact h.notCalledOff t ht
  · exact generation_lt_append (fun m hm => Nat.lt_succ_of_lt (h.logged_lt m hm))
      (Nat.lt_succ_of_le (Nat.le_of_eq hg))
  · intro m hm
    rcases List.mem_append.1 hm with hm | hm
    · rcases h.settled m hm with ⟨t, ht, heq⟩ | ⟨hoff, hover⟩
      · exact .inl ⟨t, Registry.mem_insert.2 (.inr ht), heq⟩
      · have hne : s.generation ≠ m.session.generation := by
          have hlt := h.logged_lt m hm
          omega
        exact .inr ⟨hoff, by rwa [life_append_of_ne log _ hne]⟩
    · rw [List.mem_singleton.1 hm]
      exact .inl ⟨s, Registry.mem_insert.2 (.inl rfl), rfl⟩

/-- A registered session takes a turn that its life allows. -/
theorem set {turn : Turn} (h : Lives r log) (hs : r.get? s.fqn = some s) (hk : s'.fqn = s.fqn)
    (hg : s'.generation = s.generation)
    (hl : Life s' (life s.generation log ++ [⟨turn, s'⟩])) :
    Lives (r.set s') (log ++ [⟨turn, s'⟩]) := by
  have hmem := Registry.mem_of_get? hs
  have mem_set : ∀ t, t ∈ (r.set s').sessions ↔ t = s' ∨ t ∈ r.sessions ∧ t.fqn ≠ s'.fqn :=
    fun t => Registry.mem_set (by rw [hk, hs]; rfl)
  have hother : ∀ t ∈ r.sessions, t.fqn ≠ s'.fqn → s'.generation ≠ t.generation := by
    intro t ht hne
    rw [hg]
    exact h.generation_ne hmem ht (hk ▸ hne)
  refine
    { ordered := h.ordered.set
      alive := ?_
      distinct := ?_
      notCalledOff := ?_
      calledOff_lt := h.calledOff_lt
      logged_lt := ?_
      settled := ?_ }
  · intro t ht
    rcases (mem_set t).1 ht with rfl | ⟨ht, hne⟩
    · rwa [life_append_self log, hg]
    · rw [life_append_of_ne log _ (hother t ht hne)]
      exact h.alive t ht
  · intro t ht u hu heq
    rcases (mem_set t).1 ht with hts | ⟨hto, htk⟩
    · rcases (mem_set u).1 hu with hus | ⟨huo, huk⟩
      · rw [hts, hus]
      · exact absurd (hts ▸ heq) (hother u huo huk)
    · rcases (mem_set u).1 hu with hus | ⟨huo, huk⟩
      · exact absurd (hus ▸ heq).symm (hother t hto htk)
      · exact h.distinct t hto u huo heq
  · intro t ht
    rcases (mem_set t).1 ht with rfl | ⟨ht, -⟩
    · rw [hg]
      exact h.notCalledOff s hmem
    · exact h.notCalledOff t ht
  · exact generation_lt_append h.logged_lt (hg ▸ h.generation_lt hmem)
  · intro m hm
    by_cases heq : s'.generation = m.session.generation
    · exact .inl ⟨s', (mem_set s').2 (.inl rfl), heq⟩
    · rcases h.settled m (mem_log_of_ne hm heq) with ⟨t, ht, hgen⟩ | ⟨hoff, hover⟩
      · refine .inl ⟨t, (mem_set t).2 (.inr ⟨ht, fun htk => heq ?_⟩), hgen⟩
        rw [hg, h.ordered.eq_of_fqn hmem ht (hk.symm.trans htk.symm), hgen]
      · exact .inr ⟨hoff, by rwa [life_append_of_ne log _ heq]⟩

/-- A registered session ends. -/
theorem drop (h : Lives r log) (hs : r.get? s.fqn = some s) (hg : s'.generation = s.generation)
    (hl : Over (life s.generation log ++ [⟨.removed, s'⟩])) :
    Lives (r.drop s) (log ++ [⟨.removed, s'⟩]) := by
  have hmem := Registry.mem_of_get? hs
  have hother : ∀ t ∈ r.sessions, t.fqn ≠ s.fqn → s'.generation ≠ t.generation := by
    intro t ht hne
    rw [hg]
    exact h.generation_ne hmem ht hne
  refine
    { ordered := h.ordered.drop
      alive := ?_
      distinct := ?_
      notCalledOff := ?_
      calledOff_lt := ?_
      logged_lt := ?_
      settled := ?_ }
  · intro t ht
    obtain ⟨ht, hne⟩ := Registry.mem_drop.1 ht
    rw [life_append_of_ne log _ (hother t ht hne)]
    exact h.alive t ht
  · intro t ht u hu
    exact h.distinct t (Registry.mem_drop.1 ht).1 u (Registry.mem_drop.1 hu).1
  · intro t ht
    obtain ⟨ht, hne⟩ := Registry.mem_drop.1 ht
    simp only [Registry.drop, List.mem_cons, not_or]
    exact ⟨fun heq => hother t ht hne (hg.trans heq.symm), h.notCalledOff t ht⟩
  · intro g hmem'
    rcases List.mem_cons.1 hmem' with rfl | hmem'
    · exact h.generation_lt hmem
    · exact h.calledOff_lt g hmem'
  · exact generation_lt_append h.logged_lt (hg ▸ h.generation_lt hmem)
  · intro m hm
    by_cases heq : s'.generation = m.session.generation
    · refine .inr ⟨List.mem_cons.2 (.inl (heq.symm.trans hg)), ?_⟩
      rw [← heq, life_append_self log, hg]
      exact hl
    · rcases h.settled m (mem_log_of_ne hm heq) with ⟨t, ht, hgen⟩ | ⟨hoff, hover⟩
      · refine .inl ⟨t, Registry.mem_drop.2 ⟨ht, fun htk => heq ?_⟩, hgen⟩
        rw [hg, h.ordered.eq_of_fqn hmem ht htk.symm, hgen]
      · refine .inr ⟨List.mem_cons_of_mem _ hoff, ?_⟩
        rwa [life_append_of_ne log _ heq]

theorem close (h : Lives r log) : Lives r.close log :=
  { h with }

end Lives

/-! ## Steps to the end -/

theorem Phase.canBecome_stopped {p : Phase} (h : p.ended = false) :
    p.canBecome .stopped = true := by
  cases p <;> simp_all [ended, canBecome]

theorem Phase.canBecome_of_launched {p : Phase} (o : Outcome) (h : p.ended = false)
    (hp : p ≠ .created) : p.canBecome o.phase = true := by
  cases p <;> cases o <;> simp_all [ended, canBecome, Outcome.phase]

theorem Outcome.phase_ended (o : Outcome) : o.phase.ended = true := by
  cases o <;> rfl

end ClusterConsole.Forwarding
