import ClusterConsole.Proofs.Watching.Traffic

/-!
# One cycle at a time

`Orderly` gathers what holds of the traffic on a watcher at every moment of every run:
who is let in, that a call tells the truth about having served the listeners, what they
are handed, that nobody hears of a call whose token is called off in time, and that the
watcher is free again however a call ends.
-/

namespace ClusterConsole.Watching

open ClusterConsole.Resource ClusterConsole.Snapshot ClusterConsole.Status

namespace Traffic

variable {L : Type} {x y : Traffic L} {j k token : Nat} {c : Call} {scope : Scope}
  {fetched : Fetched}

/-- The call at that place has not ended. -/
def Underway (x : Traffic L) (k : Nat) : Prop := ∃ c, x.calls[k]? = some c ∧ c.underway = true

/-- Nobody was served, and the table is the same. -/
def Untouched (x y : Traffic L) : Prop :=
  y.rounds = x.rounds ∧ y.watcher.snapshot = x.watcher.snapshot

/-- What the listeners are handed and what becomes of the table. -/
inductive Outcome (x y : Traffic L) (scope : Scope) : Fetched → Delivery → Prop where
  | table (rows : List Row)
      (hnext : y.watcher.snapshot =
        Table.advance x.watcher.target.kind scope (some x.watcher.snapshot) rows) :
      Outcome x y scope (.ok rows) (.table y.watcher.snapshot)
  | failure (chain : Chain) (hsame : y.watcher.snapshot = x.watcher.snapshot) :
      Outcome x y scope (.error chain) (.failure chain)

/-- The call at that place, which was not called off, returns `true` and has handed the
same to every listener once, in their order. -/
def Serves (x : Traffic L) (k : Nat) (y : Traffic L) : Prop :=
  ∃ token scope fetched d, x.calls[k]? = some ⟨token, .answered scope fetched⟩ ∧
    token ∉ x.calledOff ∧ y.returned k = some true ∧
    y.rounds = x.rounds ++ [⟨k, scope, fetched, x.watcher.listeners.map fun l => (l, d)⟩] ∧
    Outcome x y scope fetched d

structure Orderly (x : Traffic L) : Prop where
  locked : x.watcher.busy = true ↔ ∃ k, x.Underway k
  alone : ∀ j k, x.Underway j → x.Underway k → j = k
  /-- Who comes while a call is underway is turned away and fetches nothing. -/
  refused : ∀ token k, x.Underway k →
    x.act (.call token) = { x with calls := x.calls ++ [⟨token, .turnedAway⟩] }
  /-- Who comes else begins to fetch in the scope of that moment. -/
  admitted : ∀ token, (∀ k, ¬ x.Underway k) → x.act (.call token) = { x with
    watcher := { x.watcher with busy := true }
    calls := x.calls ++ [⟨token, .fetching x.watcher.scope x.now⟩]
    fetchedIn := x.fetchedIn ++ [x.watcher.scope] }
  /-- A call has served the listeners once if it has returned `true`, and else never. -/
  counted : ∀ k : Nat, x.rounds.countP (fun r => r.call == k) =
    if x.returned k = some true then 1 else 0
  truthful : ∀ a k, x.Underway k → ((x.act a).returned k = some true ↔ Serves x k (x.act a))
  /-- A call that looks at what its fetch gave serves the listeners, unless it is called off. -/
  served : ∀ (k token : Nat) scope fetched,
    x.calls[k]? = some ⟨token, .answered scope fetched⟩ → token ∉ x.calledOff →
      Serves x k (x.act (.examine k))
  untouched : ∀ a, (∀ k, ¬ Serves x k (x.act a)) → Untouched x (x.act a)
  /-- Nobody hears of a call that is called off before it looks at what its fetch gave. -/
  silent : ∀ (k : Nat) (c : Call), x.calls[k]? = some c → c.underway = true →
    c.token ∈ x.calledOff → (∀ a, Untouched x (x.act a)) ∧
      (∀ acts, (x.after acts).returned k ≠ some true ∧
        (x.after acts).rounds.countP (fun r => r.call == k) = 0) ∧
      (x.act (.quit k)).returned k = some false
  freed : ∀ a k, x.Underway k → ¬ (x.act a).Underway k → (x.act a).watcher.busy = false
  /-- A call is brought to its end by an answer, by the limit of a fetch that hangs and by
  its token. -/
  ends : ∀ (k : Nat) (c : Call) (fetched : Fetched), x.calls[k]? = some c →
    c.underway = true → ∀ way ∈ [[.answer k fetched, .examine k],
      [.pass fetchLimit, .expire k, .examine k], [.callOff c.token, .quit k]],
      (x.after way).returned k ≠ none ∧ (x.after way).watcher.busy = false

/-! ## What is handed out -/

theorem serves_serve (hcall : x.calls[k]? = some ⟨token, .answered scope fetched⟩)
    (hon : token ∉ x.calledOff) : Serves x k (x.serve k token scope fetched) := by
  have hret : (x.serve k token scope fetched).returned k = some true := by
    rw [returned_serve hcall, if_pos rfl]
  cases fetched with
  | ok rows => exact ⟨_, _, _, _, hcall, hon, hret, rfl, .table rows rfl⟩
  | error chain => exact ⟨_, _, _, _, hcall, hon, hret, rfl, .failure chain rfl⟩

theorem Step.untouched_or_serves (h : Step x y) : Untouched x y ∨ ∃ k, Serves x k y := by
  cases h with
  | aside w now calledOff _ hsnapshot => exact .inl ⟨rfl, hsnapshot⟩
  | serves k token scope fetched hcall hon => exact .inr ⟨k, serves_serve hcall hon⟩
  | _ => exact .inl ⟨rfl, rfl⟩

theorem Serves.underway (h : Serves x k y) : x.Underway k := by
  obtain ⟨token, scope, fetched, d, hcall, -⟩ := h
  exact ⟨_, hcall, rfl⟩

theorem Underway.returned (h : x.Underway k) : x.returned k = none := by
  obtain ⟨c, hc, hway⟩ := h
  rw [returned_of_getElem? hc]
  exact Option.isNone_iff_eq_none.1 hway

theorem Sound.serves_of_returned (h : x.Sound) (hstep : Step x y) (hway : x.Underway k)
    (hret : y.returned k = some true) : Serves x k y := by
  have hbefore := h.counted k
  have hafter := (h.step hstep).counted k
  rw [hway.returned, if_neg nofun] at hbefore
  rw [if_pos hret] at hafter
  obtain ⟨hrounds, -⟩ | ⟨j, hserves⟩ := hstep.untouched_or_serves
  · rw [hrounds, hbefore] at hafter
    cases hafter
  · -- the one round that was added is that of the call
    obtain ⟨_, _, _, _, _, _, _, hrounds, _⟩ := id hserves
    rw [hrounds, List.countP_append, hbefore, List.countP_singleton] at hafter
    by_cases hjk : j = k
    · exact hjk ▸ hserves
    · simp [hjk] at hafter

/-! ## Who is called off -/

/-- The call at that place was called off in time. -/
def Hushed (x : Traffic L) (k : Nat) : Prop :=
  ∃ c, x.calls[k]? = some c ∧ c.token ∈ x.calledOff ∧ c.result ≠ some true

theorem Step.hushed (h : Step x y) (hk : x.Hushed k) : y.Hushed k := by
  obtain ⟨c, hc, hoff, hres⟩ := hk
  have happend (d : Call) : (x.calls ++ [d])[k]? = some c := by
    rw [List.getElem?_append_left (List.getElem?_eq_some_iff.1 hc).1, hc]
  have hset {i : Nat} {d e : Call} (hd : x.calls[i]? = some d) (htoken : e.token = d.token)
      (he : d.token ∈ x.calledOff → e.result ≠ some true) :
      ∃ c', (x.calls.set i e)[k]? = some c' ∧ c'.token ∈ x.calledOff ∧
        c'.result ≠ some true := by
    by_cases hik : i = k
    · subst hik
      rw [hc] at hd
      cases hd
      exact ⟨e, List.getElem?_set_self (List.getElem?_eq_some_iff.1 hc).1, htoken ▸ hoff,
        he hoff⟩
    · exact ⟨c, by rw [List.getElem?_set_ne hik, hc], hoff, hres⟩
  cases h with
  | aside w now calledOff _ _ _ _ _ hsub => exact ⟨c, hc, hsub _ hoff, hres⟩
  | turnsAway => exact ⟨c, happend _, hoff, hres⟩
  | begins => exact ⟨c, happend _, hoff, hres⟩
  | answers i token scope since fetched hcall => exact hset hcall rfl nofun
  | breaksOff i d hcall => exact hset hcall rfl nofun
  | serves i token scope fetched hcall hon => exact hset hcall rfl fun hmem => absurd hmem hon

theorem Hushed.after (hk : x.Hushed k) (acts : List (Act L)) : (x.after acts).Hushed k := by
  induction acts generalizing x with
  | nil => exact hk
  | cons a acts ih => exact ih ((x.step_act a).hushed hk)

theorem Hushed.returned_ne (hk : x.Hushed k) : x.returned k ≠ some true := by
  obtain ⟨c, hc, -, hres⟩ := hk
  rwa [returned_of_getElem? hc]

theorem Sound.untouched_of_calledOff (h : x.Sound) (hstep : Step x y)
    (hc : x.calls[k]? = some c) (hway : c.underway = true) (hoff : c.token ∈ x.calledOff) :
    Untouched x y := by
  obtain huntouched | ⟨j, token, scope, fetched, d, hcall, hon, -⟩ := hstep.untouched_or_serves
  · exact huntouched
  · obtain rfl := h.eq_of_underway hc hcall hway rfl
    rw [hc] at hcall
    cases hcall
    exact absurd hoff hon

/-! ## How a call ends -/

theorem returned_breakOff (hc : x.calls[k]? = some c) (token : Nat) :
    (x.breakOff k token).returned k = some false :=
  returned_of_getElem? (c := ⟨token, .calledOff⟩)
    (List.getElem?_set_self (List.getElem?_eq_some_iff.1 hc).1)

theorem busy_serve (x : Traffic L) (k token : Nat) (scope : Scope) (fetched : Fetched) :
    (x.serve k token scope fetched).watcher.busy = false := by
  cases fetched <;> rfl

theorem Step.freed (h : Step x y) (hk : x.Underway k) (hk' : ¬ y.Underway k) :
    y.watcher.busy = false := by
  obtain ⟨c, hc, hway⟩ := hk
  have hlt := (List.getElem?_eq_some_iff.1 hc).1
  cases h with
  | aside => exact absurd ⟨c, hc, hway⟩ hk'
  | turnsAway => exact absurd ⟨c, by rw [List.getElem?_append_left hlt, hc], hway⟩ hk'
  | begins => exact absurd ⟨c, by rw [List.getElem?_append_left hlt, hc], hway⟩ hk'
  | answers i token scope since fetched hcall =>
      refine absurd ?_ hk'
      by_cases hik : i = k
      · subst hik
        exact ⟨_, List.getElem?_set_self hlt, rfl⟩
      · exact ⟨c, by rw [List.getElem?_set_ne hik, hc], hway⟩
  | breaksOff => rfl
  | serves k token scope fetched => exact x.busy_serve k token scope fetched

theorem quit_ends (hc : x.calls[k]? = some c) (hway : c.underway = true)
    (hoff : c.token ∈ x.calledOff) :
    (x.quit k).returned k = some false ∧ (x.quit k).watcher.busy = false := by
  have hquit : x.quit k = x.breakOff k c.token := by
    simp only [quit, hc, hway, hoff, and_self, if_true]
  rw [hquit]
  exact ⟨returned_breakOff hc _, rfl⟩

theorem examine_ends (hc : x.calls[k]? = some ⟨token, .answered scope fetched⟩) :
    (x.examine k).returned k ≠ none ∧ (x.examine k).watcher.busy = false := by
  simp only [examine, hc]
  split
  · rw [returned_breakOff hc]
    exact ⟨nofun, rfl⟩
  · rw [returned_serve hc, if_pos rfl]
    exact ⟨nofun, x.busy_serve k token scope fetched⟩

theorem exists_answered_answer (hc : x.calls[k]? = some c) (hway : c.underway = true)
    (fetched : Fetched) : ∃ scope given,
      (x.answer k fetched).calls[k]? = some ⟨c.token, .answered scope given⟩ := by
  obtain ⟨token, standing⟩ := c
  cases standing with
  | fetching scope since =>
      refine ⟨scope, fetched, ?_⟩
      simp only [answer, hc]
      exact List.getElem?_set_self (List.getElem?_eq_some_iff.1 hc).1
  | answered scope given => exact ⟨scope, given, by simp only [answer, hc]⟩
  | _ => cases hway

theorem exists_answered_expire (hc : x.calls[k]? = some c) (hway : c.underway = true)
    (hlong : ∀ scope since, c.standing = .fetching scope since → since + fetchLimit ≤ x.now) :
    ∃ scope given, (x.expire k).calls[k]? = some ⟨c.token, .answered scope given⟩ := by
  obtain ⟨token, standing⟩ := c
  cases standing with
  | fetching scope since =>
      simp only [expire, hc, if_pos (hlong scope since rfl)]
      exact exists_answered_answer hc hway _
  | answered scope given => exact ⟨scope, given, by simp only [expire, hc]⟩
  | _ => cases hway

theorem Sound.ends (h : x.Sound) (hc : x.calls[k]? = some c) (hway : c.underway = true)
    (fetched : Fetched) : ∀ way ∈ [[.answer k fetched, .examine k],
      [.pass fetchLimit, .expire k, .examine k], [.callOff c.token, .quit k]],
      (x.after way).returned k ≠ none ∧ (x.after way).watcher.busy = false := by
  intro way hmem
  simp only [List.mem_cons, List.not_mem_nil, or_false] at hmem
  rcases hmem with rfl | rfl | rfl
  · obtain ⟨_, _, hanswered⟩ := exists_answered_answer hc hway fetched
    exact examine_ends hanswered
  · have hlong : ∀ scope since, c.standing = .fetching scope since →
        since + fetchLimit ≤ (x.act (.pass fetchLimit)).now := fun scope since hfetching =>
      Nat.add_le_add_right (h.began c (List.mem_of_getElem? hc) scope since hfetching) _
    obtain ⟨_, _, hanswered⟩ :=
      exists_answered_expire (x := x.act (.pass fetchLimit)) hc hway hlong
    exact examine_ends hanswered
  · obtain ⟨hret, hbusy⟩ :=
      quit_ends (x := x.act (.callOff c.token)) hc hway List.mem_cons_self
    exact ⟨by rw [after_cons, after_cons, after_nil]; exact hret ▸ nofun, hbusy⟩

/-! ## Every run -/

theorem Sound.busy_iff_underway (h : x.Sound) :
    x.watcher.busy = true ↔ ∃ k, x.Underway k := by
  rw [h.busy_iff]
  constructor
  · rintro ⟨c, hc, hway⟩
    obtain ⟨k, hk⟩ := List.mem_iff_getElem?.1 hc
    exact ⟨k, c, hk, hway⟩
  · rintro ⟨k, c, hc, hway⟩
    exact ⟨c, List.mem_of_getElem? hc, hway⟩

theorem Sound.orderly (h : x.Sound) : x.Orderly where
  locked := h.busy_iff_underway
  alone j k := by
    rintro ⟨c, hc, hcway⟩ ⟨d, hd, hdway⟩
    exact h.eq_of_underway hc hd hcway hdway
  refused token k hk := call_of_busy (h.busy_iff_underway.2 ⟨k, hk⟩) token
  admitted token hnone := by
    have hbusy : x.watcher.busy = false :=
      Bool.eq_false_iff.2 fun hbusy =>
        have ⟨k, hk⟩ := h.busy_iff_underway.1 hbusy
        hnone k hk
    exact call_of_free hbusy token
  counted := h.counted
  truthful a k hk := by
    constructor
    · exact h.serves_of_returned (x.step_act a) hk
    · rintro ⟨_, _, _, _, _, _, hret, _⟩
      exact hret
  served k token scope fetched hcall hon := by
    simp only [act, examine, hcall, if_neg hon]
    exact serves_serve hcall hon
  untouched a hnone := by
    obtain huntouched | ⟨k, hserves⟩ := (x.step_act a).untouched_or_serves
    · exact huntouched
    · exact absurd hserves (hnone k)
  silent k c hc hway hoff := by
    have hhushed : x.Hushed k :=
      ⟨c, hc, hoff, by rw [Option.isNone_iff_eq_none.1 hway]; nofun⟩
    refine ⟨fun a => h.untouched_of_calledOff (x.step_act a) hc hway hoff, fun acts => ?_,
      (quit_ends hc hway hoff).1⟩
    have hret := (hhushed.after acts).returned_ne
    exact ⟨hret, by rw [(h.after acts).counted, if_neg hret]⟩
  freed a k := (x.step_act a).freed
  ends k c fetched hc hway := h.ends hc hway fetched

/-- At every moment of every run the traffic on a watcher is orderly. -/
theorem cycles_run_one_at_a_time (target : Target) (scope : Scope) (rate : Nat)
    (acts : List (Act L)) : ((start (Watcher.new target scope rate)).after acts).Orderly :=
  ((Sound.start _ rfl).after acts).orderly

end Traffic

end ClusterConsole.Watching
