import ClusterConsole.Forwarding.Tunnel

/-!
# Looking up forwards

What each operation of the registry does to the sessions it holds, once as a
look-up by key (`get?_set`, `get?_drop`, `get?_register`) and once as membership.
A registry is `Ordered` if its sessions stand in the order of their keys, so that
there is one for each key; a look-up then finds every session that is there.

The operations that may be refused are inverted here: `start_eq_ok_iff`,
`launch_eq_ok_iff` and `activate_eq_ok_iff` say all that they can do.
-/

namespace ClusterConsole.Forwarding

open ClusterConsole.Status

/-! ## Steps from phase to phase -/

theorem Phase.canBecome_activating_iff {p : Phase} :
    p.canBecome .activating = true ↔ p = .created := by
  cases p <;> decide

theorem Phase.canBecome_active_iff {p : Phase} :
    p.canBecome .active = true ↔ p = .activating := by
  cases p <;> decide

theorem Session.step_eq_ok_iff {s s' : Session} {p : Phase} :
    s.step p = .ok s' ↔ s.phase.canBecome p = true ∧ { s with phase := p } = s' := by
  by_cases h : s.phase.canBecome p = true
  · simp [Session.step, h]
  · simp [Session.step, h]

namespace Registry

variable {r r' : Registry} {s s' t : Session} {k fqn path container : String} {g : Nat}
  {now : Int} {m : Mapping}

/-- The sessions stand in the order of their keys. -/
def Ordered (r : Registry) : Prop := r.sessions.Pairwise fun s t => s.fqn < t.fqn

/-- The registry with one more session, which has the next generation. -/
def register (r : Registry) (s : Session) : Registry :=
  { r with sessions := insert s r.sessions, nextGeneration := r.nextGeneration + 1 }

/-! ## Finding a session -/

theorem mem_of_get? (h : r.get? k = some s) : s ∈ r.sessions :=
  List.mem_of_find?_eq_some h

theorem fqn_of_get? (h : r.get? k = some s) : s.fqn = k := by
  simpa using List.find?_some h

theorem get?_eq_none_iff : r.get? k = none ↔ ∀ s ∈ r.sessions, s.fqn ≠ k := by
  simp [get?]

theorem contains_eq_false_iff : r.contains k = false ↔ r.get? k = none := by
  simp [contains, get?]

theorem current?_eq_some_iff :
    r.current? k g = some s ↔ r.get? k = some s ∧ s.generation = g := by
  simp [current?, Option.filter_eq_some_iff]

theorem current?_eq_none_iff :
    r.current? k g = none ↔ ∀ s, r.get? k = some s → s.generation ≠ g := by
  simp [current?, Option.filter_eq_none_iff]

theorem find?_eq_some_of_pairwise {l : List Session} (hl : l.Pairwise fun s t => s.fqn < t.fqn)
    (hs : s ∈ l) : l.find? (fun t => t.fqn == s.fqn) = some s := by
  induction l with
  | nil => simp at hs
  | cons u l ih =>
      obtain ⟨hu, hl⟩ := List.pairwise_cons.1 hl
      rcases List.mem_cons.1 hs with rfl | hs
      · simp
      · have hne : u.fqn ≠ s.fqn := fun h => String.lt_irrefl s.fqn (h ▸ hu s hs)
        simp [hne, ih hl hs]

/-- In an ordered registry every session sits under its own key. -/
theorem Ordered.get?_eq_some (hr : r.Ordered) (hs : s ∈ r.sessions) : r.get? s.fqn = some s :=
  find?_eq_some_of_pairwise hr hs

theorem Ordered.eq_of_fqn (hr : r.Ordered) (hs : s ∈ r.sessions) (ht : t ∈ r.sessions)
    (h : s.fqn = t.fqn) : s = t := by
  have hst := hr.get?_eq_some hs
  rw [h, hr.get?_eq_some ht] at hst
  exact (Option.some.inj hst).symm

/-! ## Look-ups after a change -/

theorem mem_insert {l : List Session} : t ∈ insert s l ↔ t = s ∨ t ∈ l := by
  induction l with
  | nil => simp [insert]
  | cons u l ih =>
      by_cases h : s.fqn < u.fqn
      · simp [insert, h]
      · simp [insert, h, ih, or_left_comm]

theorem find?_insert {l : List Session} (h : ∀ u ∈ l, u.fqn ≠ s.fqn) :
    (insert s l).find? (fun u => u.fqn == k) =
      if s.fqn = k then some s else l.find? fun u => u.fqn == k := by
  induction l with
  | nil => by_cases hk : s.fqn = k <;> simp [insert, hk]
  | cons u l ih =>
      have hu : u.fqn ≠ s.fqn := h u (by simp)
      have ih := ih fun v hv => h v (by simp [hv])
      by_cases hlt : s.fqn < u.fqn
      · rw [insert, if_pos hlt]
        by_cases hk : s.fqn = k <;> simp [hk]
      · rw [insert, if_neg hlt]
        by_cases huk : u.fqn = k
        · have hk : s.fqn ≠ k := fun hk => hu (huk.trans hk.symm)
          simp [huk, hk]
        · simp [huk, ih]

theorem get?_register (h : r.get? s.fqn = none) :
    (r.register s).get? k = if s.fqn = k then some s else r.get? k :=
  find?_insert (get?_eq_none_iff.1 h)

theorem get?_set : (r.set s).get? k =
    if s.fqn = k then (r.get? k).map fun _ => s else r.get? k := by
  have key : ∀ u : Session, (if u.fqn = s.fqn then s else u).fqn = u.fqn := by
    intro u
    by_cases h : u.fqn = s.fqn <;> simp [h]
  have hfind : (r.set s).get? k = (r.get? k).map fun u => if u.fqn = s.fqn then s else u := by
    simp only [get?, set, List.find?_map, Function.comp_def, key]
  rw [hfind]
  cases h : r.get? k with
  | none => simp
  | some u =>
      have hu := fqn_of_get? h
      by_cases hk : s.fqn = k
      · simp [hu, hk]
      · simp [hu, hk, Ne.symm hk]

theorem get?_drop : (r.drop s).get? k = if s.fqn = k then none else r.get? k := by
  by_cases hk : s.fqn = k
  · simp [get?, drop, hk]
  · rw [if_neg hk]
    simp only [get?, drop, List.find?_filter]
    congr 1
    funext t
    by_cases ht : t.fqn = k <;> simp [ht, Ne.symm hk]

/-! ## Membership after a change -/

theorem mem_set (h : (r.get? s.fqn).isSome) :
    t ∈ (r.set s).sessions ↔ t = s ∨ t ∈ r.sessions ∧ t.fqn ≠ s.fqn := by
  obtain ⟨u, hu⟩ := Option.isSome_iff_exists.1 h
  have hmem := mem_of_get? hu
  have hkey := fqn_of_get? hu
  simp only [set, List.mem_map]
  constructor
  · rintro ⟨v, hv, rfl⟩
    by_cases hvk : v.fqn = s.fqn
    · simp [hvk]
    · simp [hvk, hv]
  · rintro (rfl | ⟨ht, htk⟩)
    · exact ⟨u, hmem, by simp [hkey]⟩
    · exact ⟨t, ht, by simp [htk]⟩

theorem mem_drop : t ∈ (r.drop s).sessions ↔ t ∈ r.sessions ∧ t.fqn ≠ s.fqn := by
  simp [drop]

theorem map_insert_of_fqn {l : List Session} (h : ∀ u ∈ l, u.fqn ≠ s.fqn)
    (hs : s'.fqn = s.fqn) :
    (insert s l).map (fun u => if u.fqn = s'.fqn then s' else u) = insert s' l := by
  have hsame : l.map (fun u => if u.fqn = s'.fqn then s' else u) = l := by
    rw [hs]
    exact (List.map_congr_left fun u hu => if_neg (h u hu)).trans (List.map_id' l)
  induction l with
  | nil => simp [insert, hs]
  | cons u l ih =>
      rw [List.map_cons, List.cons.injEq] at hsame
      by_cases hlt : s.fqn < u.fqn
      · rw [insert, if_pos hlt, insert, if_pos (hs ▸ hlt), List.map_cons, List.map_cons, hsame.1,
          hsame.2, if_pos hs.symm]
      · rw [insert, if_neg hlt, insert, if_neg (hs ▸ hlt), List.map_cons, hsame.1,
          ih (fun v hv => h v (List.mem_cons_of_mem u hv)) hsame.2]

/-- What is set at once might have been registered so. -/
theorem set_register (h : r.get? s.fqn = none) (hs : s'.fqn = s.fqn) :
    (r.register s).set s' = r.register s' := by
  simp only [register, set, map_insert_of_fqn (get?_eq_none_iff.1 h) hs]

/-! ## The order of the keys -/

theorem pairwise_insert {l : List Session} (hl : l.Pairwise fun s t => s.fqn < t.fqn)
    (h : ∀ u ∈ l, u.fqn ≠ s.fqn) : (insert s l).Pairwise fun s t => s.fqn < t.fqn := by
  induction l with
  | nil => simp [insert]
  | cons u l ih =>
      obtain ⟨hu, hl⟩ := List.pairwise_cons.1 hl
      by_cases hlt : s.fqn < u.fqn
      · rw [insert, if_pos hlt, List.pairwise_cons]
        refine ⟨fun v hv => ?_, List.pairwise_cons.2 ⟨hu, hl⟩⟩
        rcases List.mem_cons.1 hv with rfl | hv
        · exact hlt
        · exact String.lt_trans hlt (hu v hv)
      · rw [insert, if_neg hlt, List.pairwise_cons]
        refine ⟨fun v hv => ?_, ih hl fun v hv => h v (by simp [hv])⟩
        rcases mem_insert.1 hv with rfl | hv
        · have hle : u.fqn ≤ v.fqn := String.not_lt.1 hlt
          exact Decidable.byContradiction fun hnot =>
            h u (by simp) (String.le_antisymm hle (String.not_lt.1 hnot))
        · exact hu v hv

theorem Ordered.register (hr : r.Ordered) (h : r.get? s.fqn = none) : (r.register s).Ordered :=
  pairwise_insert hr (get?_eq_none_iff.1 h)

theorem Ordered.set (hr : r.Ordered) : (r.set s).Ordered := by
  refine List.pairwise_map.2 (hr.imp fun {u v} huv => ?_)
  by_cases hu : u.fqn = s.fqn <;> by_cases hv : v.fqn = s.fqn <;> simp_all

theorem Ordered.drop (hr : r.Ordered) : (r.drop s).Ordered :=
  List.Pairwise.filter _ hr

/-! ## What the operations do -/

theorem start_eq_ok_iff : r.start now fqn path container m = .ok (r', s) ↔
    r.get? fqn = none ∧ r.fresh now fqn path container m = s ∧ r.register s = r' := by
  cases h : r.contains fqn with
  | true =>
      have hnone : ¬ r.get? fqn = none := fun hn => by
        simp [contains_eq_false_iff.2 hn] at h
      simp [start, h, hnone]
  | false =>
      simp only [start, h, Bool.false_eq_true, if_false, contains_eq_false_iff.1 h, true_and,
        Except.ok.injEq, Prod.mk.injEq]
      constructor
      · rintro ⟨rfl, rfl⟩
        exact ⟨rfl, rfl⟩
      · rintro ⟨rfl, rfl⟩
        exact ⟨rfl, rfl⟩

theorem launch_eq_ok_iff : r.launch fqn = .ok (r', s') ↔
    ∃ s, r.get? fqn = some s ∧ s.phase = .created ∧ { s with phase := .activating } = s' ∧
      r.set s' = r' := by
  cases h : r.get? fqn with
  | none => simp [launch, h]
  | some s =>
      cases hstep : s.step .activating with
      | error e =>
          have hphase : s.phase ≠ .created := fun hp => by
            simp [Session.step, hp, Phase.canBecome] at hstep
          simp [launch, h, hstep, Except.map, hphase]
      | ok u =>
          obtain ⟨hphase, rfl⟩ := Session.step_eq_ok_iff.1 hstep
          simp only [launch, h, hstep, Except.map, Except.ok.injEq, Prod.mk.injEq,
            Option.some.injEq, exists_eq_left', Phase.canBecome_activating_iff.1 hphase, true_and]
          constructor
          · rintro ⟨rfl, rfl⟩
            exact ⟨rfl, rfl⟩
          · rintro ⟨rfl, rfl⟩
            exact ⟨rfl, rfl⟩

/-- A session that was launched before is refused. -/
theorem launch_eq_error (h : r.get? fqn = some s) (hs : s.phase ≠ .created) :
    r.launch fqn = .error (.notRunnable s.fqn
      ("cannot go from " ++ s.phase.name ++ " to " ++ Phase.activating.name)) := by
  have hnot : s.phase.canBecome .activating = false := by
    simpa using mt Phase.canBecome_activating_iff.1 hs
  simp [launch, h, Session.step, hnot, Except.map]

theorem activate_eq_ok_iff : r.activate fqn g = .ok r' ↔
    ∃ s, r.current? fqn g = some s ∧ s.phase = .activating ∧
      r.set { s with phase := .active } = r' := by
  cases h : r.current? fqn g with
  | none => simp [activate, h]
  | some s =>
      by_cases hphase : s.phase = .activating
      · simp [activate, h, Session.step, hphase, Phase.canBecome, Except.map]
      · have hnot : s.phase.canBecome .active = false := by
          simpa using mt Phase.canBecome_active_iff.1 hphase
        simp [activate, h, Session.step, hphase, hnot, Except.map]

/-- A forward is registered and launched in one go. -/
theorem start_launch (now : Int) (path container : String) (m : Mapping)
    (hfree : r.get? fqn = none) :
    ∃ r', r.start now fqn path container m = .ok (r', r.fresh now fqn path container m) ∧
      r'.launch fqn = .ok
        (r.register { r.fresh now fqn path container m with phase := .activating },
          { r.fresh now fqn path container m with phase := .activating }) := by
  have hget : (r.register (r.fresh now fqn path container m)).get? fqn =
      some (r.fresh now fqn path container m) := by
    rw [get?_register hfree]
    exact if_pos rfl
  exact ⟨_, start_eq_ok_iff.2 ⟨hfree, rfl, rfl⟩,
    launch_eq_ok_iff.2 ⟨_, hget, rfl, rfl, set_register hfree rfl⟩⟩

theorem start_eq_error (now : Int) (path container : String) (m : Mapping)
    (h : r.get? fqn = some s) :
    r.start now fqn path container m = .error (.alreadyForwarded fqn) := by
  have hcontains : r.contains fqn = true := by
    rw [← Bool.not_eq_false, contains_eq_false_iff, h]
    nofun
  simp only [start, hcontains, if_true]

theorem stop_of_none (h : r.get? fqn = none) : r.stop fqn = (r, none) := by
  simp [stop, h]

theorem stop_of_some (h : r.get? fqn = some s) :
    r.stop fqn = (r.drop s, some (s.stepOrStay .stopped)) := by
  simp [stop, h]

theorem finish_of_none {o : Outcome} (h : r.current? fqn g = none) :
    r.finish fqn g o = (r, none) := by
  simp [finish, h]

theorem finish_of_some {o : Outcome} (h : r.current? fqn g = some s) :
    r.finish fqn g o = (r.drop s, some (s.stepOrStay o.phase)) := by
  simp [finish, h]

/-- A report that changes nothing to be shown changes nothing at all. -/
theorem applyReport_of_unchanged {ρ : Report} (h : (r.applyReport ρ).changed = false) :
    (r.applyReport ρ).registry = r := by
  cases ρ with
  | activated fqn g ports =>
      simp only [applyReport, applyActivated] at h ⊢
      cases hactivate : r.activate fqn g with
      | error e => rfl
      | ok r' => simp [hactivate] at h
  | finished fqn g o =>
      simp only [applyReport, applyFinished] at h ⊢
      cases hcurrent : r.current? fqn g with
      | none => rw [finish_of_none hcurrent]
      | some s => simp [finish_of_some hcurrent] at h

end Registry

end ClusterConsole.Forwarding
