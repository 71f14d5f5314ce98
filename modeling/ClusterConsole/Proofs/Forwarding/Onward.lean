import ClusterConsole.Proofs.Forwarding.Changes

/-!
# What a run cannot take back

`x.Onward y` lists what stays on every way from `x` to `y`: what was logged, the
tokens that were called off, the tunnels and how far they had come. From this and
the soundness of `y` follows that a session that is gone never comes back.
-/

namespace ClusterConsole.Forwarding

namespace Exchange

variable {x y z : Exchange} {s : Session} {g : Nat}

structure Onward (x y : Exchange) : Prop where
  log : x.log <+: y.log
  calledOff : ∀ g ∈ x.registry.calledOff, g ∈ y.registry.calledOff
  closed : x.registry.closed = true → y.registry.closed = true
  generation : x.registry.nextGeneration ≤ y.registry.nextGeneration
  tunnels : ∀ (k : Nat) (t : Tunnel), x.tunnels[k]? = some t →
    ∃ t', y.tunnels[k]? = some t' ∧ t.Later t'

theorem Onward.refl (x : Exchange) : x.Onward x where
  log := List.prefix_rfl
  calledOff _ := id
  closed := id
  generation := Nat.le_refl _
  tunnels _ t h := ⟨t, h, Tunnel.Later.refl t⟩

theorem Onward.trans (h : x.Onward y) (h' : y.Onward z) : x.Onward z where
  log := h.log.trans h'.log
  calledOff g hg := h'.calledOff g (h.calledOff g hg)
  closed hc := h'.closed (h.closed hc)
  generation := Nat.le_trans h.generation h'.generation
  tunnels k t ht := by
    obtain ⟨t', ht', hlater⟩ := h.tunnels k t ht
    obtain ⟨t'', ht'', hlater'⟩ := h'.tunnels k t' ht'
    exact ⟨t'', ht'', hlater.trans hlater'⟩

end Exchange

open Exchange

variable {x y : Exchange}

theorem Change.onward (h : Change x y) : x.Onward y := by
  have hx := Onward.refl x
  cases h with
  | register free next created =>
      exact { hx with
        log := List.prefix_append _ _
        generation := Nat.le_succ _ }
  | launch found created step =>
      refine { hx with log := List.prefix_append _ _, tunnels := fun k t ht => ?_ }
      have hk := (List.getElem?_eq_some_iff.1 ht).1
      exact ⟨t, by rw [List.getElem?_append_left hk, ht], Tunnel.Later.refl t⟩
  | activate found activating step => exact { hx with log := List.prefix_append _ _ }
  | remove found last legal =>
      exact { hx with
        log := List.prefix_append _ _
        calledOff := fun g hg => List.mem_cons_of_mem _ hg }
  | close => exact { hx with closed := fun _ => rfl }
  | @move k t m found =>
      refine { hx with tunnels := fun i u hu => ?_ }
      by_cases hi : k = i
      · subst hi
        rw [found] at hu
        obtain rfl := Option.some.inj hu
        have hk := (List.getElem?_eq_some_iff.1 found).1
        exact ⟨_, List.getElem?_set_self hk, Tunnel.later_move t _ m⟩
      · exact ⟨u, by rw [List.getElem?_set_ne hi, hu], Tunnel.Later.refl u⟩
  | take i => exact { hx with }

theorem Changes.onward (h : Changes x y) : x.Onward y := by
  induction h with
  | refl => exact Onward.refl x
  | tail _ hstep ih => exact ih.trans hstep.onward

namespace Exchange.Sound

variable {m : Moment} {g : Nat}

theorem run_onward (h : x.Sound) (acts : List Act) : x.Onward (x.run acts) :=
  (h.run_changes acts).onward

/-- What was removed is called off. -/
theorem calledOff_of_removed (h : x.Sound) (hm : m ∈ x.log) (hturn : m.turn = .removed) :
    m.session.generation ∈ x.registry.calledOff := by
  rcases h.lives.settled m hm with ⟨s, hs, hg⟩ | ⟨hoff, -⟩
  · exact absurd hturn ((h.lives.alive s hs).removed_notMem m (mem_life.2 ⟨hm, hg.symm⟩))
  · exact hoff

/-- A session that was called off is not registered at any later time. -/
theorem gone (h : x.Sound) (acts : List Act) (hg : g ∈ x.registry.calledOff) :
    ∀ s ∈ (x.run acts).registry.sessions, s.generation ≠ g := by
  intro s hs heq
  have hoff := (h.run_onward acts).calledOff g hg
  exact (h.run acts).lives.notCalledOff s hs (heq ▸ hoff)

end Exchange.Sound

end ClusterConsole.Forwarding
