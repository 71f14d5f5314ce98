import ClusterConsole.Proofs.Forwarding.Onward

/-!
# No orphans

`Orderly` gathers what holds of an exchange at every moment of every run: how the
registered sessions stand, that no session takes a turn twice, how those that are
gone have ended, and that a tunnel that is not called off has its session
registered. `Refusals` says that an operation that gives back no session has changed
nothing.
-/

namespace ClusterConsole.Forwarding

open ClusterConsole.Status

namespace Exchange

variable {x : Exchange} {s : Session} {t : Tunnel} {m : Moment} {g : Nat} {turn : Turn}

structure Orderly (x : Exchange) : Prop where
  /-- A session sits under its own key, has not ended, and is called off only with all
  the others. -/
  registered : ∀ k s, x.registry.get? k = some s →
    s.fqn = k ∧ s.phase.ended = false ∧
      x.registry.isCalledOff s.generation = x.registry.closed
  found : ∀ s ∈ x.registry.sessions, x.registry.get? s.fqn = some s
  /-- No two sessions have one generation, and none is launched, activated or removed
  twice. -/
  once : ∀ turn, (x.generations turn).Nodup
  /-- There is one tunnel for each launch. -/
  launches : x.tunnels.map Tunnel.generation = x.generations .launched
  /-- A second launch is refused and starts no tunnel. -/
  again : ∀ fqn s, x.registry.get? fqn = some s → s.generation ∈ x.generations .launched →
    x.registry.launch fqn = .error (.notRunnable fqn
      ("cannot go from " ++ s.phase.name ++ " to " ++ Phase.activating.name)) ∧
      x.launch fqn = x
  /-- Every session is registered, or its life is over and its token called off. -/
  lives : ∀ m ∈ x.log,
    (∃ s ∈ x.registry.sessions, s.generation = m.session.generation ∧
      Life s (life s.generation x.log)) ∨
    ((∀ s ∈ x.registry.sessions, s.generation ≠ m.session.generation) ∧
      Over (life m.session.generation x.log) ∧
      x.registry.isCalledOff m.session.generation = true)
  /-- What was removed has ended. -/
  removed : ∀ m ∈ x.log, m.turn = .removed →
    m.session.phase.ended = true ∧ x.registry.isCalledOff m.session.generation = true
  /-- A tunnel that is not called off has its session registered. -/
  tunnels : ∀ t ∈ x.tunnels, x.registry.isCalledOff t.generation = false →
    ∃ s ∈ x.registry.sessions, s.fqn = t.fqn ∧ s.generation = t.generation

/-- What gives back no session has changed nothing. -/
structure Refusals (x : Exchange) : Prop where
  start : ∀ now fqn path container mapping e,
    x.registry.start now fqn path container mapping = .error e →
      x.start now fqn path container mapping = x
  launch : ∀ fqn e, x.registry.launch fqn = .error e → x.launch fqn = x
  stop : ∀ fqn, (x.registry.stop fqn).2 = none → x.stop fqn = x
  activate : ∀ fqn g ports e, x.registry.activate fqn g = .error e →
    (x.registry.applyReport (.activated fqn g ports)).registry = x.registry
  finish : ∀ fqn g outcome, (x.registry.finish fqn g outcome).2 = none →
    (x.registry.finish fqn g outcome).1 = x.registry

theorem refusals (x : Exchange) : x.Refusals where
  start now fqn path container mapping e h := by simp [Exchange.start, h]
  launch fqn e h := by simp [Exchange.launch, h]
  stop fqn h := by
    cases hs : x.registry.get? fqn with
    | none => simp [Exchange.stop, Registry.stop_of_none hs]
    | some s => simp [Registry.stop_of_some hs] at h
  activate fqn g ports e h := by simp [Registry.applyReport, Registry.applyActivated, h]
  finish fqn g outcome h := by
    cases hs : x.registry.current? fqn g with
    | none => simp [Registry.finish_of_none hs]
    | some s => simp [Registry.finish_of_some hs] at h

/-! ## Counting turns -/

theorem count_generations (x : Exchange) (turn : Turn) (g : Nat) :
    (x.generations turn).count g = ((life g x.log).map Moment.turn).count turn := by
  simp only [generations, life, List.count, List.countP_map, List.countP_filter]
  refine List.countP_congr fun m _ => ?_
  simp [and_comm]

theorem mem_generations : g ∈ x.generations turn ↔
    ∃ m ∈ x.log, m.turn = turn ∧ m.session.generation = g := by
  simp [generations, and_assoc]

theorem generations_launched (x : Exchange) :
    x.generations .launched = (Forwarding.launches x.log).map Prod.snd := by
  simp [generations, Forwarding.launches, Session.tag]

namespace Sound

theorem nodup_generations (h : x.Sound) (turn : Turn) : (x.generations turn).Nodup := by
  refine List.nodup_iff_count.2 fun g => ?_
  rw [count_generations]
  exact List.nodup_iff_count.1 (h.lives.turns_nodup g) turn

theorem map_generation (h : x.Sound) :
    x.tunnels.map Tunnel.generation = x.generations .launched := by
  rw [generations_launched, ← h.tunnels, List.map_map]
  rfl

theorem isCalledOff_of_mem (h : x.Sound) (hs : s ∈ x.registry.sessions) :
    x.registry.isCalledOff s.generation = x.registry.closed := by
  have hnot := h.lives.notCalledOff s hs
  simp [Registry.isCalledOff, hnot]

theorem isCalledOff_of_calledOff (hg : g ∈ x.registry.calledOff) :
    x.registry.isCalledOff g = true := by
  simp [Registry.isCalledOff, hg]

/-- A launched session that is not called off is registered. -/
theorem exists_session (h : x.Sound) (ht : t ∈ x.tunnels)
    (hoff : x.registry.isCalledOff t.generation = false) :
    ∃ s ∈ x.registry.sessions, s.fqn = t.fqn ∧ s.generation = t.generation := by
  obtain ⟨m, hm, -, htag⟩ := h.exists_launched (List.mem_map_of_mem ht)
  have hfqn : m.session.fqn = t.fqn := congrArg Prod.fst htag
  have hgen : m.session.generation = t.generation := congrArg Prod.snd htag
  rcases h.lives.settled m hm with ⟨s, hs, hg⟩ | ⟨hcalled, -⟩
  · exact ⟨s, hs, (h.lives.fqn_eq hs hm hg.symm).trans hfqn, hg.trans hgen⟩
  · rw [← hgen, isCalledOff_of_calledOff hcalled] at hoff
    exact absurd hoff (by simp)

theorem launch_again {fqn : String} (h : x.Sound) (hs : x.registry.get? fqn = some s)
    (hg : s.generation ∈ x.generations .launched) :
    x.registry.launch fqn = .error (.notRunnable fqn
      ("cannot go from " ++ s.phase.name ++ " to " ++ Phase.activating.name)) := by
  obtain ⟨m, hm, hturn, hgen⟩ := mem_generations.1 hg
  have hphase := h.lives.phase_ne_created (Registry.mem_of_get? hs) hm hturn hgen
  rw [Registry.launch_eq_error hs hphase, Registry.fqn_of_get? hs]

theorem orderly (h : x.Sound) : x.Orderly where
  registered k s hs := by
    have hmem := Registry.mem_of_get? hs
    exact ⟨Registry.fqn_of_get? hs, (h.lives.alive s hmem).ended_eq_false,
      h.isCalledOff_of_mem hmem⟩
  found s hs := h.lives.ordered.get?_eq_some hs
  once := h.nodup_generations
  launches := h.map_generation
  again fqn s hs hg := by
    have herror := h.launch_again hs hg
    exact ⟨herror, x.refusals.launch fqn _ herror⟩
  lives m hm := by
    rcases h.lives.settled m hm with ⟨s, hs, hg⟩ | ⟨hoff, hover⟩
    · exact .inl ⟨s, hs, hg, h.lives.alive s hs⟩
    · refine .inr ⟨fun s hs heq => ?_, hover, isCalledOff_of_calledOff hoff⟩
      exact h.lives.notCalledOff s hs (heq ▸ hoff)
  removed m hm hturn := by
    have hoff := h.calledOff_of_removed hm hturn
    refine ⟨?_, isCalledOff_of_calledOff hoff⟩
    rcases h.lives.settled m hm with ⟨s, hs, hg⟩ | ⟨-, hover⟩
    · exact absurd (hg ▸ hoff) (h.lives.notCalledOff s hs)
    · exact hover.ended_of_removed m (mem_life.2 ⟨hm, rfl⟩) hturn
  tunnels t ht hoff := h.exists_session ht hoff

end Sound

/-- Every run is orderly, and what it refuses changes nothing. -/
theorem no_orphan_tunnels (acts : List Act) :
    (empty.run acts).Orderly ∧ (empty.run acts).Refusals :=
  ⟨(Sound.empty.run acts).orderly, refusals _⟩

end Exchange

end ClusterConsole.Forwarding
