import ClusterConsole.Proofs.Forwarding.Onward

/-!
# Stale reports

A report names the session that it is about by key and generation. `Confined` says
how little applying one may change, and `confined_applyReport` that this is so for
every report, from whatever tunnel and however late. Since a generation never comes
back once it is called off, a tunnel whose session is gone has no say any more, also
when its key is taken again.
-/

namespace ClusterConsole.Forwarding

namespace Registry

variable {r : Registry} {ρ : Report} {s t : Session} {g : Nat}

/-- From `r` to `r'` nothing has changed but what `ρ` is about. -/
structure Confined (ρ : Report) (r r' : Registry) : Prop where
  /-- Unless the session under that key has that generation, nothing has changed. -/
  stale : (∀ s, r.get? ρ.fqn = some s → s.generation ≠ ρ.generation) → r' = r
  elsewhere : ∀ k, k ≠ ρ.fqn → r'.get? k = r.get? k
  others : ∀ s : Session, s.generation ≠ ρ.generation → (s ∈ r'.sessions ↔ s ∈ r.sessions)
  next : r'.nextGeneration = r.nextGeneration
  tokens : ∀ g, g ≠ ρ.generation → r'.isCalledOff g = r.isCalledOff g

theorem Confined.refl (ρ : Report) (r : Registry) : Confined ρ r r where
  stale _ := rfl
  elsewhere _ _ := rfl
  others _ _ := Iff.rfl
  next := rfl
  tokens _ _ := rfl

theorem confined_set (hr : r.Ordered) (hs : r.get? ρ.fqn = some s)
    (hg : s.generation = ρ.generation) (p : Phase) :
    Confined ρ r (r.set { s with phase := p }) where
  stale h := absurd hg (h s hs)
  elsewhere k hk := by
    have hne : s.fqn ≠ k := fun h => hk (h.symm.trans (fqn_of_get? hs))
    rw [get?_set, if_neg hne]
  others t ht := by
    have hsome : (r.get? { s with phase := p }.fqn).isSome := by
      rw [fqn_of_get? hs, hs]
      rfl
    rw [mem_set hsome]
    constructor
    · rintro (rfl | ⟨hmem, -⟩)
      · exact absurd hg ht
      · exact hmem
    · intro hmem
      refine .inr ⟨hmem, fun hk => ht ?_⟩
      rw [hr.eq_of_fqn hmem (mem_of_get? hs) hk, hg]
  next := rfl
  tokens _ _ := rfl

theorem confined_drop (hr : r.Ordered) (hs : r.get? ρ.fqn = some s)
    (hg : s.generation = ρ.generation) : Confined ρ r (r.drop s) where
  stale h := absurd hg (h s hs)
  elsewhere k hk := by
    have hne : s.fqn ≠ k := fun h => hk (h.symm.trans (fqn_of_get? hs))
    rw [get?_drop, if_neg hne]
  others t ht := by
    rw [mem_drop]
    constructor
    · exact And.left
    · intro hmem
      refine ⟨hmem, fun hk => ht ?_⟩
      rw [hr.eq_of_fqn hmem (mem_of_get? hs) hk, hg]
  next := rfl
  tokens g hne := by
    simp [isCalledOff, drop, hg, hne]

/-- Applying a report changes at most the session that it is about. -/
theorem confined_applyReport (hr : r.Ordered) (ρ : Report) :
    Confined ρ r (r.applyReport ρ).registry := by
  cases hcur : r.current? ρ.fqn ρ.generation with
  | none =>
      rw [(applyReport_of_none hcur).1]
      exact Confined.refl ρ r
  | some s =>
      obtain ⟨hs, hg⟩ := current?_eq_some_iff.1 hcur
      rcases applyReport_of_some hcur with ⟨hreg, -⟩ | ⟨-, hreg, -⟩ | ⟨o, hreg, -⟩
      · rw [hreg]
        exact Confined.refl ρ r
      · rw [hreg]
        exact confined_set hr hs hg .active
      · rw [hreg]
        exact confined_drop hr hs hg

/-- A generation that is not registered has no say. -/
theorem applyReport_of_gone (h : ∀ s ∈ r.sessions, s.generation ≠ ρ.generation) :
    (r.applyReport ρ).registry = r :=
  (applyReport_of_none (current?_eq_none_iff.2 fun s hs => h s (mem_of_get? hs))).1

end Registry

namespace Exchange

variable {x : Exchange} {k : String} {a : Act}

/-- Whether an act is about the session under that key. -/
def Concerns (x : Exchange) : Act → String → Prop
  | .start _ fqn _ _ _, k => fqn = k
  | .launch fqn, k => fqn = k
  | .stop fqn, k => fqn = k
  | .stopAll, _ => True
  | .close, _ => False
  | .move _ _, _ => False
  | .hear i, k => ∃ ρ, x.reports[i]? = some ρ ∧ ρ.fqn = k

theorem get?_start_of_ne {now : Int} {fqn path container : String} {m : Mapping} (h : fqn ≠ k) :
    (x.start now fqn path container m).registry.get? k = x.registry.get? k := by
  unfold start
  cases hstart : x.registry.start now fqn path container m with
  | error e => rfl
  | ok p =>
      obtain ⟨r, s⟩ := p
      obtain ⟨hfree, rfl, rfl⟩ := Registry.start_eq_ok_iff.1 hstart
      exact (Registry.get?_register hfree).trans (if_neg h)

theorem get?_launch_of_ne {fqn : String} (h : fqn ≠ k) :
    (x.launch fqn).registry.get? k = x.registry.get? k := by
  unfold launch
  cases hlaunch : x.registry.launch fqn with
  | error e => rfl
  | ok p =>
      obtain ⟨r, s'⟩ := p
      obtain ⟨s, hs, -, rfl, rfl⟩ := Registry.launch_eq_ok_iff.1 hlaunch
      have hne : s.fqn ≠ k := Registry.fqn_of_get? hs ▸ h
      exact Registry.get?_set.trans (if_neg hne)

theorem get?_stop_of_ne {fqn : String} (h : fqn ≠ k) :
    (x.stop fqn).registry.get? k = x.registry.get? k := by
  simp only [stop]
  cases hs : x.registry.get? fqn with
  | none => rw [Registry.stop_of_none hs]
  | some s =>
      have hne : s.fqn ≠ k := Registry.fqn_of_get? hs ▸ h
      rw [Registry.stop_of_some hs, Registry.get?_drop, if_neg hne]

theorem get?_hear_of_ne (hr : x.registry.Ordered) {i : Nat}
    (h : ∀ ρ, x.reports[i]? = some ρ → ρ.fqn ≠ k) :
    (x.hear i).registry.get? k = x.registry.get? k := by
  unfold hear
  cases hi : x.reports[i]? with
  | none => rfl
  | some ρ => exact (Registry.confined_applyReport hr ρ).elsewhere k (h ρ hi).symm

theorem get?_act_of_not_concerns (hr : x.registry.Ordered) (h : ¬ x.Concerns a k) :
    (x.act a).registry.get? k = x.registry.get? k := by
  cases a with
  | start now fqn path container m => exact get?_start_of_ne h
  | launch fqn => exact get?_launch_of_ne h
  | stop fqn => exact get?_stop_of_ne h
  | stopAll => exact absurd trivial h
  | close => rfl
  | move i m =>
      simp only [act, move]
      cases x.tunnels[i]? <;> rfl
  | hear i => exact get?_hear_of_ne hr fun ρ hρ hk => h ⟨ρ, hρ, hk⟩

/-- After any run a report changes at most the session that it is about, one about a
session that was removed changes nothing ever after, and an act on one key leaves
the sessions under all others as they are. -/
theorem stale_reports_change_nothing (acts : List Act) :
    (∀ ρ : Report, Registry.Confined ρ (empty.run acts).registry
      ((empty.run acts).registry.applyReport ρ).registry) ∧
    (∀ ρ ∈ (empty.run acts).reports, ∃ t ∈ (empty.run acts).tunnels,
      ρ.fqn = t.fqn ∧ ρ.generation = t.generation) ∧
    (∀ m ∈ (empty.run acts).log, m.turn = .removed →
      ∀ (later : List Act) (ρ : Report), ρ.generation = m.session.generation →
        ((empty.run (acts ++ later)).registry.applyReport ρ).registry =
          (empty.run (acts ++ later)).registry) ∧
    ∀ a k, ¬ (empty.run acts).Concerns a k →
      ((empty.run acts).act a).registry.get? k = (empty.run acts).registry.get? k := by
  have hx := Sound.empty.run acts
  refine ⟨fun ρ => ?_, fun ρ hρ => ?_, fun m hm hturn later ρ hg => ?_, fun a k h => ?_⟩
  · exact Registry.confined_applyReport hx.lives.ordered ρ
  · obtain ⟨t, ht, htag⟩ := List.mem_map.1 (hx.sent ρ (hx.reports ρ hρ))
    exact ⟨t, ht, (congrArg Prod.fst htag).symm, (congrArg Prod.snd htag).symm⟩
  · have hoff := hx.calledOff_of_removed hm hturn
    rw [run_append]
    exact Registry.applyReport_of_gone (hg ▸ hx.gone later hoff)
  · exact get?_act_of_not_concerns hx.lives.ordered h

/-- The activation of a forward that was stopped is heard when its key is taken again. -/
example : (empty.run [.start 0 "ns/pod|app" "ns/pod" "app" ⟨8080, 80⟩, .launch "ns/pod|app",
    .move 0 (.report [⟨8080, 80⟩]), .move 0 .settleActivation, .stop "ns/pod|app",
    .start 1 "ns/pod|app" "ns/pod" "app" ⟨8080, 80⟩, .launch "ns/pod|app",
    .hear 0]).registry.sessions.map (fun s => (s.generation, s.phase)) = [(2, .activating)] := by
  decide

end Exchange

end ClusterConsole.Forwarding
