import ClusterConsole.Proofs.Forwarding.Census
import Mathlib.Logic.Relation

/-!
# Changes of an exchange

`Change x y` is one elementary change of an exchange, with all that is known when it
happens. Every act on a sound exchange is a sequence of such changes
(`Sound.act_changes`), and so is every run, so what each of the seven changes keeps,
every run keeps.

An exchange is `Sound` if registry and log agree on the lives of the sessions, the
tunnels are those of the launches in the log, and the reports are queued by them.
-/

namespace ClusterConsole.Forwarding

/-! ## Hearing a report -/

namespace Registry

variable {r : Registry} {ρ : Report} {s : Session}

/-- A report about a session that is not registered does nothing. -/
theorem applyReport_of_none (h : r.current? ρ.fqn ρ.generation = none) :
    (r.applyReport ρ).registry = r ∧ ρ.moment? r = none := by
  cases ρ with
  | activated fqn g ports =>
      simp only [Report.fqn, Report.generation] at h
      simp [applyReport, applyActivated, activate, Report.moment?, h]
  | finished fqn g o =>
      simp only [Report.fqn, Report.generation] at h
      simp [applyReport, applyFinished, Report.moment?, finish_of_none h]

/-- A report about a registered session activates it, ends it or does nothing. -/
theorem applyReport_of_some (h : r.current? ρ.fqn ρ.generation = some s) :
    (r.applyReport ρ).registry = r ∧ ρ.moment? r = none ∨
    (s.phase = .activating ∧
      (r.applyReport ρ).registry = r.set { s with phase := .active } ∧
      ρ.moment? r = some ⟨.activated, { s with phase := .active }⟩) ∨
    ∃ o : Outcome, (r.applyReport ρ).registry = r.drop s ∧
      ρ.moment? r = some ⟨.removed, s.stepOrStay o.phase⟩ := by
  cases ρ with
  | activated fqn g ports =>
      simp only [Report.fqn, Report.generation] at h
      cases hact : r.activate fqn g with
      | error e =>
          left
          simp [applyReport, applyActivated, Report.moment?, hact]
      | ok r' =>
          obtain ⟨t, ht, hphase, rfl⟩ := activate_eq_ok_iff.1 hact
          rw [h] at ht
          obtain rfl := Option.some.inj ht
          obtain ⟨hget, -⟩ := current?_eq_some_iff.1 h
          right
          left
          refine ⟨hphase, by simp [applyReport, applyActivated, hact], ?_⟩
          simp [Report.moment?, hact, get?_set, fqn_of_get? hget, hget]
  | finished fqn g o =>
      simp only [Report.fqn, Report.generation] at h
      right
      right
      refine ⟨o, ?_⟩
      simp [applyReport, applyFinished, Report.moment?, finish_of_some h]

end Registry

/-! ## Changes -/

/-- One elementary change. -/
inductive Change : Exchange → Exchange → Prop where
  | register {x : Exchange} {s : Session} (free : x.registry.get? s.fqn = none)
      (next : s.generation = x.registry.nextGeneration) (created : s.phase = .created) :
      Change x { x with
        registry := x.registry.register s
        log := x.log ++ [⟨.registered, s⟩] }
  | launch {x : Exchange} {s s' : Session} (found : x.registry.get? s.fqn = some s)
      (created : s.phase = .created) (step : { s with phase := .activating } = s') :
      Change x { x with
        registry := x.registry.set s'
        tunnels := x.tunnels ++ [Tunnel.ofSession s']
        log := x.log ++ [⟨.launched, s'⟩] }
  | activate {x : Exchange} {s s' : Session} (found : x.registry.get? s.fqn = some s)
      (activating : s.phase = .activating) (step : { s with phase := .active } = s') :
      Change x { x with
        registry := x.registry.set s'
        log := x.log ++ [⟨.activated, s'⟩] }
  | remove {x : Exchange} {s : Session} {p : Phase} (found : x.registry.get? s.fqn = some s)
      (last : p.ended = true) (legal : s.phase.canBecome p = true) :
      Change x { x with
        registry := x.registry.drop s
        log := x.log ++ [⟨.removed, { s with phase := p }⟩] }
  | close {x : Exchange} : Change x { x with registry := x.registry.close }
  | move {x : Exchange} {k : Nat} {t : Tunnel} (m : Tunnel.Move) (found : x.tunnels[k]? = some t) :
      Change x { x with
        tunnels := x.tunnels.set k (t.move (x.registry.isCalledOff t.generation) m).1
        reports := x.reports ++ (t.move (x.registry.isCalledOff t.generation) m).2
        sent := x.sent ++ (t.move (x.registry.isCalledOff t.generation) m).2 }
  | take {x : Exchange} (i : Nat) : Change x { x with reports := x.reports.eraseIdx i }

/-- Any number of changes, one after the other. -/
def Changes : Exchange → Exchange → Prop := Relation.ReflTransGen Change

/-! ## Soundness -/

/-- The tags of the sessions that were launched, in order. -/
def launches (log : List Moment) : List (String × Nat) :=
  (log.filter fun m => m.turn == .launched).map (·.session.tag)

theorem launches_append_of_ne (log : List Moment) {m : Moment} (h : m.turn ≠ .launched) :
    launches (log ++ [m]) = launches log := by
  simp [launches, List.filter_append, h]

theorem launches_append_launched (log : List Moment) (s : Session) :
    launches (log ++ [⟨.launched, s⟩]) = launches log ++ [s.tag] := by
  simp [launches, List.filter_append]

namespace Exchange

variable {x y : Exchange} {ρ : Report} {s : Session}

structure Sound (x : Exchange) : Prop where
  lives : Lives x.registry x.log
  tunnels : x.tunnels.map Tunnel.tag = launches x.log
  sent : ∀ ρ ∈ x.sent, ρ.tag ∈ x.tunnels.map Tunnel.tag
  reports : ∀ ρ ∈ x.reports, ρ ∈ x.sent

theorem Sound.empty : empty.Sound where
  lives := Lives.empty
  tunnels := rfl
  sent := by simp [Exchange.empty]
  reports := by simp [Exchange.empty]

end Exchange

namespace Change

variable {x y : Exchange}

/-- A move keeps the tag of its tunnel. -/
theorem map_tag_set {l : List Tunnel} {k : Nat} {t : Tunnel} (c : Bool) (m : Tunnel.Move)
    (h : l[k]? = some t) : (l.set k (t.move c m).1).map Tunnel.tag = l.map Tunnel.tag := by
  obtain ⟨hk, rfl⟩ := List.getElem?_eq_some_iff.1 h
  rw [List.map_set, (Tunnel.later_move _ c m).tag, ← List.map_set, List.set_getElem_self]

theorem sound (h : Change x y) (hx : x.Sound) : y.Sound := by
  cases h with
  | register free next created =>
      refine ⟨hx.lives.register free next created, ?_, hx.sent, hx.reports⟩
      rw [launches_append_of_ne _ (by simp)]
      exact hx.tunnels
  | @launch s s' found created step =>
      have hmem := Registry.mem_of_get? found
      subst step
      refine ⟨?_, ?_, ?_, hx.reports⟩
      · exact hx.lives.set found rfl rfl (Life.launched (hx.lives.alive s hmem) created rfl)
      · rw [List.map_append, hx.tunnels, launches_append_launched]
        rfl
      · intro ρ hρ
        rw [List.map_append]
        exact List.mem_append_left _ (hx.sent ρ hρ)
  | @activate s s' found activating step =>
      have hmem := Registry.mem_of_get? found
      subst step
      refine ⟨?_, ?_, hx.sent, hx.reports⟩
      · exact hx.lives.set found rfl rfl (Life.activated (hx.lives.alive s hmem) activating rfl)
      · rw [launches_append_of_ne _ (by simp)]
        exact hx.tunnels
  | @remove s p found last legal =>
      have hmem := Registry.mem_of_get? found
      refine ⟨?_, ?_, hx.sent, hx.reports⟩
      · exact hx.lives.drop found rfl ⟨s, _, p, hx.lives.alive s hmem, last, legal, rfl⟩
      · rw [launches_append_of_ne _ (by simp)]
        exact hx.tunnels
  | close => exact ⟨hx.lives.close, hx.tunnels, hx.sent, hx.reports⟩
  | @move k t m found =>
      refine ⟨hx.lives, ?_, ?_, ?_⟩
      · rw [map_tag_set _ m found]
        exact hx.tunnels
      · intro ρ hρ
        rw [map_tag_set _ m found]
        rcases List.mem_append.1 hρ with hρ | hρ
        · exact hx.sent ρ hρ
        · rw [Tunnel.tag_of_mem_move hρ]
          exact List.mem_map_of_mem (List.mem_of_getElem? found)
      · intro ρ hρ
        rcases List.mem_append.1 hρ with hρ | hρ
        · exact List.mem_append_left _ (hx.reports ρ hρ)
        · exact List.mem_append_right _ hρ
  | take i =>
      exact ⟨hx.lives, hx.tunnels, hx.sent, fun ρ hρ => hx.reports ρ (List.mem_of_mem_eraseIdx hρ)⟩

end Change

theorem Changes.sound {x y : Exchange} (h : Changes x y) (hx : x.Sound) : y.Sound := by
  induction h with
  | refl => exact hx
  | tail _ hstep ih => exact hstep.sound ih

/-! ## Acts are changes -/

namespace Exchange

variable {x : Exchange} {ρ : Report} {s : Session} {fqn path container : String}

theorem start_changes (x : Exchange) (now : Int) (fqn path container : String) (m : Mapping) :
    Changes x (x.start now fqn path container m) := by
  unfold start
  cases h : x.registry.start now fqn path container m with
  | error e => exact .refl
  | ok p =>
      obtain ⟨r, s⟩ := p
      obtain ⟨hfree, rfl, rfl⟩ := Registry.start_eq_ok_iff.1 h
      exact .single (.register hfree rfl rfl)

theorem launch_changes (x : Exchange) (fqn : String) : Changes x (x.launch fqn) := by
  unfold launch
  cases h : x.registry.launch fqn with
  | error e => exact .refl
  | ok p =>
      obtain ⟨r, s'⟩ := p
      obtain ⟨s, hs, hcreated, rfl, rfl⟩ := Registry.launch_eq_ok_iff.1 h
      rw [← Registry.fqn_of_get? hs] at hs
      exact .single (.launch hs hcreated rfl)

namespace Sound

theorem stop_changes (h : x.Sound) (fqn : String) : Changes x (x.stop fqn) := by
  cases hs : x.registry.get? fqn with
  | none =>
      have hstop : x.stop fqn = x := by simp [stop, Registry.stop_of_none hs]
      rw [hstop]
      exact .refl
  | some s =>
      have hlife := h.lives.alive s (Registry.mem_of_get? hs)
      have hlegal := Phase.canBecome_stopped hlife.ended_eq_false
      have hstop : x.stop fqn = { x with
          registry := x.registry.drop s
          log := x.log ++ [⟨.removed, { s with phase := .stopped }⟩] } := by
        simp [stop, Registry.stop_of_some hs, Session.stepOrStay, hlegal]
      rw [← Registry.fqn_of_get? hs] at hs
      rw [hstop]
      exact .single (.remove hs rfl hlegal)

theorem stopAll_changes (h : x.Sound) : Changes x x.stopAll := by
  unfold stopAll
  generalize x.registry.sessions = l
  induction l generalizing x with
  | nil => exact .refl
  | cons s l ih =>
      have hstop := h.stop_changes s.fqn
      exact hstop.trans (ih (hstop.sound h))

theorem exists_launched {tag : String × Nat} (h : x.Sound)
    (htag : tag ∈ x.tunnels.map Tunnel.tag) :
    ∃ m ∈ x.log, m.turn = .launched ∧ m.session.tag = tag := by
  rw [h.tunnels] at htag
  obtain ⟨m, hm, htag⟩ := List.mem_map.1 htag
  obtain ⟨hlog, hturn⟩ := List.mem_filter.1 hm
  exact ⟨m, hlog, beq_iff_eq.1 hturn, htag⟩

/-- The session that a report is about was launched. -/
theorem launched_of_sent (h : x.Sound) (hρ : ρ ∈ x.sent) (hs : s ∈ x.registry.sessions)
    (hg : s.generation = ρ.generation) : s.phase ≠ .created := by
  obtain ⟨m, hm, hturn, htag⟩ := h.exists_launched (h.sent ρ hρ)
  exact h.lives.phase_ne_created hs hm hturn ((congrArg Prod.snd htag).trans hg.symm)

/-- The session that a report is about has the key that the report names. -/
theorem fqn_of_sent (h : x.Sound) (hρ : ρ ∈ x.sent) (hs : s ∈ x.registry.sessions)
    (hg : s.generation = ρ.generation) : s.fqn = ρ.fqn := by
  obtain ⟨m, hm, -, htag⟩ := h.exists_launched (h.sent ρ hρ)
  have hfqn := h.lives.fqn_eq hs hm ((congrArg Prod.snd htag).trans hg.symm)
  exact hfqn.trans (congrArg Prod.fst htag)

theorem hear_changes (h : x.Sound) (i : Nat) : Changes x (x.hear i) := by
  unfold hear
  cases hi : x.reports[i]? with
  | none => exact .refl
  | some ρ =>
      have hρ := List.mem_of_getElem? hi
      cases hcur : x.registry.current? ρ.fqn ρ.generation with
      | none =>
          obtain ⟨hreg, hmoment⟩ := Registry.applyReport_of_none hcur
          simp only [hreg, hmoment, Option.toList_none, List.append_nil]
          exact .single (.take i)
      | some s =>
          obtain ⟨hs, hg⟩ := Registry.current?_eq_some_iff.1 hcur
          have hmem := Registry.mem_of_get? hs
          rw [← Registry.fqn_of_get? hs] at hs
          rcases Registry.applyReport_of_some hcur with
            ⟨hreg, hmoment⟩ | ⟨hactivating, hreg, hmoment⟩ | ⟨o, hreg, hmoment⟩
          · simp only [hreg, hmoment, Option.toList_none, List.append_nil]
            exact .single (.take i)
          · simp only [hreg, hmoment, Option.toList_some]
            exact (Relation.ReflTransGen.single (.activate hs hactivating rfl)).tail (.take i)
          · have hlegal := Phase.canBecome_of_launched o (h.lives.alive s hmem).ended_eq_false
              (h.launched_of_sent (h.reports ρ hρ) hmem hg)
            have hstep : s.stepOrStay o.phase = { s with phase := o.phase } := by
              simp [Session.stepOrStay, hlegal]
            simp only [hreg, hmoment, hstep, Option.toList_some]
            exact (Relation.ReflTransGen.single (.remove hs o.phase_ended hlegal)).tail (.take i)

theorem act_changes (h : x.Sound) (a : Act) : Changes x (x.act a) := by
  cases a with
  | start now fqn path container m => exact x.start_changes now fqn path container m
  | launch fqn => exact x.launch_changes fqn
  | stop fqn => exact h.stop_changes fqn
  | stopAll => exact h.stopAll_changes
  | close => exact .single .close
  | move k m =>
      simp only [act, move]
      cases hk : x.tunnels[k]? with
      | none => exact .refl
      | some t => exact .single (.move m hk)
  | hear i => exact h.hear_changes i

theorem run_changes (h : x.Sound) (acts : List Act) : Changes x (x.run acts) := by
  induction acts generalizing x with
  | nil => exact .refl
  | cons a acts ih =>
      have ha := h.act_changes a
      exact ha.trans (ih (ha.sound h))

theorem run (h : x.Sound) (acts : List Act) : (x.run acts).Sound :=
  (h.run_changes acts).sound h

end Sound

theorem run_append (x : Exchange) (acts acts' : List Act) :
    x.run (acts ++ acts') = (x.run acts).run acts' :=
  List.foldl_append

end Exchange

end ClusterConsole.Forwarding
