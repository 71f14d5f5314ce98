import ClusterConsole.Watching.Watcher

/-!
# Traffic on a watcher

Any number of calls for a cycle come to one watcher, each with a token. `Act` lists
what can happen meanwhile: a call comes, its fetch gives something or takes too long,
the call looks at what was given or takes note that its token is called off, a token is
called off, time passes, and the watcher's settings and listeners change. A run is any
sequence of acts, so a call whose fetch is done and whose token is called off goes on in
either way, and a fetch that hangs does so as long as one likes.

A call stands still between its acts. That it looks at what its fetch gave, builds the
next table and serves the listeners is one act. `rounds` and `fetchedIn` are read by
statements only.
-/

namespace ClusterConsole.Watching

open ClusterConsole.Resource ClusterConsole.Snapshot ClusterConsole.Status

/-- Where a call for a cycle stands. -/
inductive Standing where
  /-- It was returned from at once, as another cycle was in flight. -/
  | turnedAway
  | fetching (scope : Scope) (since : Nat)
  /-- Its fetch gave something that was not looked at yet. -/
  | answered (scope : Scope) (fetched : Fetched)
  | calledOff
  /-- The listeners were served with what its fetch gave. -/
  | served (scope : Scope) (fetched : Fetched)

/-- A call for a cycle. -/
structure Call where
  token : Nat
  standing : Standing

namespace Call

/-- What was returned from the call, if it has ended. -/
def result (c : Call) : Option Bool :=
  match c.standing with
  | .turnedAway | .calledOff => some false
  | .fetching _ _ | .answered _ _ => none
  | .served _ _ => some true

/-- The call has not ended. -/
def underway (c : Call) : Bool := c.result.isNone

end Call

/-- One time that the listeners were served, and by which call. -/
structure Round (L : Type) where
  call : Nat
  scope : Scope
  fetched : Fetched
  handed : List (L × Delivery)

structure Traffic (L : Type) where
  watcher : Watcher L
  now : Nat
  calls : List Call
  /-- The tokens that were called off. -/
  calledOff : List Nat
  /-- The scopes of all fetches that were begun. -/
  fetchedIn : List Scope
  rounds : List (Round L)

namespace Traffic

inductive Act (L : Type) where
  | call (token : Nat)
  | answer (k : Nat) (fetched : Fetched)
  /-- The fetch of the call at that place is given up, if it has taken too long. -/
  | expire (k : Nat)
  /-- The call at that place looks at what its fetch gave. -/
  | examine (k : Nat)
  /-- The call at that place takes note that its token is called off. -/
  | quit (k : Nat)
  | callOff (token : Nat)
  | pass (ms : Nat)
  | setScope (scope : Scope)
  | setRate (rate : Nat)
  | nudge
  /-- The poll loop takes the permit for a cycle. -/
  | takeNudge
  /-- The poll loop takes the permit for a change of the rate. -/
  | takeRate
  | addListener (l : L)

variable {L : Type} {x y : Traffic L} {k token : Nat} {c : Call} {scope : Scope}
  {fetched : Fetched}

def start (w : Watcher L) : Traffic L := ⟨w, 0, [], [], [], []⟩

def call (x : Traffic L) (token : Nat) : Traffic L :=
  match x.watcher.begin? with
  | none => { x with calls := x.calls ++ [⟨token, .turnedAway⟩] }
  | some (w, scope) =>
      { x with
        watcher := w
        calls := x.calls ++ [⟨token, .fetching scope x.now⟩]
        fetchedIn := x.fetchedIn ++ [scope] }

def answer (x : Traffic L) (k : Nat) (fetched : Fetched) : Traffic L :=
  match x.calls[k]? with
  | some ⟨token, .fetching scope _⟩ =>
      { x with calls := x.calls.set k ⟨token, .answered scope fetched⟩ }
  | _ => x

def expire (x : Traffic L) (k : Nat) : Traffic L :=
  match x.calls[k]? with
  | some ⟨_, .fetching _ since⟩ =>
      if since + fetchLimit ≤ x.now then x.answer k (.error x.watcher.timedOut) else x
  | _ => x

/-- The call at that place ends and leaves all as it was. -/
def breakOff (x : Traffic L) (k token : Nat) : Traffic L :=
  { x with watcher := x.watcher.abandon, calls := x.calls.set k ⟨token, .calledOff⟩ }

/-- The call at that place ends and serves the listeners. -/
def serve (x : Traffic L) (k token : Nat) (scope : Scope) (fetched : Fetched) : Traffic L :=
  { x with
    watcher := (x.watcher.conclude scope fetched).1
    calls := x.calls.set k ⟨token, .served scope fetched⟩
    rounds := x.rounds ++ [⟨k, scope, fetched, (x.watcher.conclude scope fetched).2⟩] }

def examine (x : Traffic L) (k : Nat) : Traffic L :=
  match x.calls[k]? with
  | some ⟨token, .answered scope fetched⟩ =>
      if token ∈ x.calledOff then x.breakOff k token else x.serve k token scope fetched
  | _ => x

def quit (x : Traffic L) (k : Nat) : Traffic L :=
  match x.calls[k]? with
  | some c => if c.underway ∧ c.token ∈ x.calledOff then x.breakOff k c.token else x
  | none => x

def act (x : Traffic L) : Act L → Traffic L
  | .call token => x.call token
  | .answer k fetched => x.answer k fetched
  | .expire k => x.expire k
  | .examine k => x.examine k
  | .quit k => x.quit k
  | .callOff token => { x with calledOff := token :: x.calledOff }
  | .pass ms => { x with now := x.now + ms }
  | .setScope scope => { x with watcher := x.watcher.setScope scope }
  | .setRate rate => { x with watcher := x.watcher.setRate rate }
  | .nudge => { x with watcher := x.watcher.nudge }
  | .takeNudge => { x with watcher := { x.watcher with nudged := false } }
  | .takeRate => { x with watcher := { x.watcher with rateChanged := false } }
  | .addListener l => { x with watcher := x.watcher.addListener l }

/-- The traffic after a run. -/
def after (x : Traffic L) (acts : List (Act L)) : Traffic L := acts.foldl act x

@[simp]
theorem after_nil (x : Traffic L) : x.after [] = x := rfl

@[simp]
theorem after_cons (x : Traffic L) (a : Act L) (acts : List (Act L)) :
    x.after (a :: acts) = (x.act a).after acts := rfl

theorem after_append (x : Traffic L) (acts acts' : List (Act L)) :
    x.after (acts ++ acts') = (x.after acts).after acts' := List.foldl_append

/-! ## What an act can do -/

/-- What an act can do: leave calls and rounds alone, or move one call on. -/
inductive Step (x : Traffic L) : Traffic L → Prop where
  | aside (w : Watcher L) (now : Nat) (calledOff : List Nat)
      (htarget : w.target = x.watcher.target) (hsnapshot : w.snapshot = x.watcher.snapshot)
      (hbusy : w.busy = x.watcher.busy) (hlisteners : x.watcher.listeners <+: w.listeners)
      (hnow : x.now ≤ now) (hoff : ∀ t ∈ x.calledOff, t ∈ calledOff) :
      Step x { x with watcher := w, now := now, calledOff := calledOff }
  | turnsAway (token : Nat) (hbusy : x.watcher.busy = true) :
      Step x { x with calls := x.calls ++ [⟨token, .turnedAway⟩] }
  | begins (token : Nat) (hbusy : x.watcher.busy = false) :
      Step x { x with
        watcher := { x.watcher with busy := true }
        calls := x.calls ++ [⟨token, .fetching x.watcher.scope x.now⟩]
        fetchedIn := x.fetchedIn ++ [x.watcher.scope] }
  | answers (k token : Nat) (scope : Scope) (since : Nat) (fetched : Fetched)
      (hcall : x.calls[k]? = some ⟨token, .fetching scope since⟩) :
      Step x { x with calls := x.calls.set k ⟨token, .answered scope fetched⟩ }
  | breaksOff (k : Nat) (c : Call) (hcall : x.calls[k]? = some c) (hway : c.underway = true)
      (hoff : c.token ∈ x.calledOff) : Step x (x.breakOff k c.token)
  | serves (k token : Nat) (scope : Scope) (fetched : Fetched)
      (hcall : x.calls[k]? = some ⟨token, .answered scope fetched⟩)
      (hon : token ∉ x.calledOff) : Step x (x.serve k token scope fetched)

theorem Step.still (x : Traffic L) : Step x x :=
  .aside x.watcher x.now x.calledOff rfl rfl rfl (List.prefix_refl _) (Nat.le_refl _)
    fun _ => id

theorem call_of_busy (h : x.watcher.busy = true) (token : Nat) :
    x.call token = { x with calls := x.calls ++ [⟨token, .turnedAway⟩] } := by
  rw [call, Watcher.begin?, h]
  rfl

theorem call_of_free (h : x.watcher.busy = false) (token : Nat) :
    x.call token = { x with
      watcher := { x.watcher with busy := true }
      calls := x.calls ++ [⟨token, .fetching x.watcher.scope x.now⟩]
      fetchedIn := x.fetchedIn ++ [x.watcher.scope] } := by
  rw [call, Watcher.begin?, h]
  rfl

theorem step_call (x : Traffic L) (token : Nat) : Step x (x.call token) := by
  cases hbusy : x.watcher.busy with
  | true =>
      rw [call_of_busy hbusy]
      exact .turnsAway token hbusy
  | false =>
      rw [call_of_free hbusy]
      exact .begins token hbusy

theorem step_answer (x : Traffic L) (k : Nat) (fetched : Fetched) :
    Step x (x.answer k fetched) := by
  unfold answer
  split
  · exact .answers _ _ _ _ _ ‹_›
  · exact .still x

theorem step_expire (x : Traffic L) (k : Nat) : Step x (x.expire k) := by
  unfold expire
  split
  · split
    · exact x.step_answer k _
    · exact .still x
  · exact .still x

theorem step_examine (x : Traffic L) (k : Nat) : Step x (x.examine k) := by
  unfold examine
  split
  · rename_i token scope fetched hcall
    split
    · exact .breaksOff k ⟨token, .answered scope fetched⟩ hcall rfl ‹_›
    · exact .serves k token scope fetched hcall ‹_›
  · exact .still x

theorem step_quit (x : Traffic L) (k : Nat) : Step x (x.quit k) := by
  unfold quit
  split
  · split
    · rename_i hquit
      exact .breaksOff k _ ‹_› hquit.1 hquit.2
    · exact .still x
  · exact .still x

theorem step_act (x : Traffic L) (a : Act L) : Step x (x.act a) := by
  cases a with
  | call token => exact x.step_call token
  | answer k fetched => exact x.step_answer k fetched
  | expire k => exact x.step_expire k
  | examine k => exact x.step_examine k
  | quit k => exact x.step_quit k
  | callOff token =>
      exact .aside _ _ _ rfl rfl rfl (List.prefix_refl _) (Nat.le_refl _)
        fun _ => List.mem_cons_of_mem _
  | pass ms =>
      exact .aside x.watcher _ _ rfl rfl rfl (List.prefix_refl _) (Nat.le_add_right _ _)
        fun _ => id
  | addListener l =>
      exact .aside _ _ _ rfl rfl rfl (List.prefix_append _ _) (Nat.le_refl _) fun _ => id
  | _ => exact .aside _ _ _ rfl rfl rfl (List.prefix_refl _) (Nat.le_refl _) fun _ => id

/-- What was returned from the call at that place, if there is one and it has ended. -/
def returned (x : Traffic L) (k : Nat) : Option Bool := x.calls[k]?.bind Call.result

theorem returned_of_getElem? (hc : x.calls[k]? = some c) : x.returned k = c.result := by
  rw [returned, hc, Option.bind_some]

theorem bind_result_concat {calls : List Call} (hc : c.result ≠ some true) (i : Nat) :
    (calls ++ [c])[i]?.bind Call.result = some true ↔
      calls[i]?.bind Call.result = some true := by
  rcases Nat.lt_trichotomy i calls.length with hi | rfl | hi
  · rw [List.getElem?_append_left hi]
  · simp [hc]
  · have hlast : (calls ++ [c]).length ≤ i := by
      rw [List.length_append, List.length_singleton]
      exact hi
    rw [List.getElem?_eq_none hlast, List.getElem?_eq_none (Nat.le_of_lt hi)]

theorem bind_result_set {calls : List Call} {d : Call} (hc : calls[k]? = some c)
    (hcd : c.result = some true ↔ d.result = some true) (i : Nat) :
    (calls.set k d)[i]?.bind Call.result = some true ↔
      calls[i]?.bind Call.result = some true := by
  obtain ⟨hk, -⟩ := List.getElem?_eq_some_iff.1 hc
  by_cases hi : k = i
  · subst hi
    rw [List.getElem?_set_self hk, hc, Option.bind_some, Option.bind_some, hcd]
  · rw [List.getElem?_set_ne hi]

theorem rounds_serve (x : Traffic L) (k token : Nat) (scope : Scope) (fetched : Fetched) :
    (x.serve k token scope fetched).rounds =
      x.rounds ++ [⟨k, scope, fetched, (x.watcher.conclude scope fetched).2⟩] := rfl

theorem returned_serve (hc : x.calls[k]? = some c) (token : Nat) (scope : Scope)
    (fetched : Fetched) (i : Nat) : (x.serve k token scope fetched).returned i =
      if k = i then some true else x.returned i := by
  have hk := (List.getElem?_eq_some_iff.1 hc).1
  rw [returned, serve, List.getElem?_set, if_pos hk, returned]
  split <;> rfl

/-- What has ended stays as it is. -/
theorem Step.kept (h : Step x y) (hc : x.calls[k]? = some c) (hend : c.underway = false) :
    y.calls[k]? = some c := by
  have happend (d : Call) : (x.calls ++ [d])[k]? = some c := by
    rw [List.getElem?_append_left (List.getElem?_eq_some_iff.1 hc).1, hc]
  have hset {j : Nat} {d : Call} (e : Call) (hd : x.calls[j]? = some d)
      (hway : d.underway = true) : (x.calls.set j e)[k]? = some c := by
    have hjk : j ≠ k := by
      rintro rfl
      rw [hc] at hd
      cases hd
      rw [hend] at hway
      cases hway
    rw [List.getElem?_set_ne hjk, hc]
  cases h with
  | aside => exact hc
  | turnsAway => exact happend _
  | begins => exact happend _
  | answers _ _ _ _ _ hcall => exact hset _ hcall rfl
  | breaksOff _ _ hcall hway => exact hset _ hcall hway
  | serves _ _ _ _ hcall => exact hset _ hcall rfl

/-! ## The cycle in flight -/

/-- The watcher is busy with the one call that is underway, and the calls that say so,
and no others, have served the listeners once. -/
structure Sound (x : Traffic L) : Prop where
  alone : x.calls.countP Call.underway = x.watcher.busy.toNat
  counted : ∀ k : Nat, x.rounds.countP (fun r => r.call == k) =
    if x.returned k = some true then 1 else 0
  ofCall : ∀ r ∈ x.rounds, ∃ c, x.calls[r.call]? = some c ∧
    c.standing = .served r.scope r.fetched
  began : ∀ c ∈ x.calls, ∀ scope since, c.standing = .fetching scope since → since ≤ x.now

theorem Sound.start (w : Watcher L) (h : w.busy = false) : (start w).Sound where
  alone := by rw [Traffic.start, h]; rfl
  counted k := rfl
  ofCall r hr := nomatch hr
  began c hc := nomatch hc

/-- A call that is underway is one of those that are. -/
theorem countP_set_call {calls : List Call} (hc : calls[k]? = some c)
    (hway : c.underway = true) (d : Call) :
    (calls.set k d).countP Call.underway + 1 =
      calls.countP Call.underway + d.underway.toNat := by
  obtain ⟨hk, rfl⟩ := List.getElem?_eq_some_iff.1 hc
  have hpos : 0 < calls.countP Call.underway :=
    List.countP_pos_iff.2 ⟨calls[k], List.getElem_mem hk, hway⟩
  rw [List.countP_set hk, if_pos hway]
  cases d.underway <;> simp <;> omega

namespace Sound

theorem busy_iff (h : x.Sound) :
    x.watcher.busy = true ↔ ∃ c ∈ x.calls, c.underway = true := by
  rw [← List.countP_pos_iff, h.alone]
  cases x.watcher.busy <;> simp

theorem busy (h : x.Sound) (hc : x.calls[k]? = some c) (hway : c.underway = true) :
    x.watcher.busy = true :=
  h.busy_iff.2 ⟨c, List.mem_of_getElem? hc, hway⟩

/-- With the call that is underway put aside there is no other. -/
theorem countP_set (h : x.Sound) (hc : x.calls[k]? = some c) (hway : c.underway = true)
    (d : Call) : (x.calls.set k d).countP Call.underway = d.underway.toNat := by
  have hset := countP_set_call hc hway d
  rw [h.alone, h.busy hc hway, Bool.toNat_true] at hset
  omega

theorem eq_of_underway (h : x.Sound) {i j : Nat} {d : Call} (hc : x.calls[i]? = some c)
    (hd : x.calls[j]? = some d) (hcway : c.underway = true) (hdway : d.underway = true) :
    i = j := by
  by_cases hij : i = j
  · exact hij
  · have hmem : d ∈ x.calls.set i ⟨c.token, .calledOff⟩ :=
      List.mem_of_getElem? (by rw [List.getElem?_set_ne hij, hd])
    exact absurd hdway (List.countP_eq_zero.1 (h.countP_set hc hcway _) d hmem)

theorem alone_step (h : x.Sound) (hstep : Step x y) :
    y.calls.countP Call.underway = y.watcher.busy.toNat := by
  cases hstep with
  | aside w now calledOff _ _ hbusy => rw [hbusy, h.alone]
  | turnsAway token hbusy =>
      rw [List.countP_append, h.alone]
      rfl
  | begins token hbusy =>
      rw [List.countP_append, h.alone, hbusy]
      rfl
  | answers k token scope since fetched hcall =>
      rw [h.countP_set hcall rfl, h.busy hcall rfl]
      rfl
  | breaksOff k c hcall hway hoff => exact h.countP_set hcall hway _
  | serves k token scope fetched hcall hon =>
      refine (h.countP_set hcall rfl _).trans ?_
      cases fetched <;> rfl

theorem counted_step (h : x.Sound) (hstep : Step x y) (i : Nat) :
    y.rounds.countP (fun r => r.call == i) = if y.returned i = some true then 1 else 0 := by
  have hsame (hrounds : y.rounds = x.rounds)
      (hret : y.returned i = some true ↔ x.returned i = some true) :
      y.rounds.countP (fun r => r.call == i) = if y.returned i = some true then 1 else 0 := by
    simp only [hrounds, h.counted, hret]
  cases hstep with
  | aside => exact h.counted i
  | turnsAway token => exact hsame rfl (bind_result_concat (c := ⟨token, .turnedAway⟩) nofun i)
  | begins token =>
      exact hsame rfl (bind_result_concat (c := ⟨token, .fetching _ _⟩) nofun i)
  | answers k token scope since fetched hcall =>
      exact hsame rfl (bind_result_set (d := ⟨token, .answered _ _⟩) hcall ⟨nofun, nofun⟩ i)
  | breaksOff k c hcall hway =>
      refine hsame rfl (bind_result_set (d := ⟨c.token, .calledOff⟩) hcall ⟨?_, nofun⟩ i)
      rw [Option.isNone_iff_eq_none.1 hway]
      nofun
  | serves k token scope fetched hcall =>
      rw [returned_serve hcall, rounds_serve, List.countP_append, h.counted]
      by_cases hi : k = i
      · subst hi
        rw [returned_of_getElem? hcall]
        simp [Call.result]
      · simp [hi]

theorem ofCall_step (h : x.Sound) (hstep : Step x y) : ∀ r ∈ y.rounds,
    ∃ c, y.calls[r.call]? = some c ∧ c.standing = .served r.scope r.fetched := by
  have hkept : ∀ r ∈ x.rounds, ∃ c, y.calls[r.call]? = some c ∧
      c.standing = .served r.scope r.fetched := by
    intro r hr
    obtain ⟨c, hc, hserved⟩ := h.ofCall r hr
    exact ⟨c, hstep.kept hc (by rw [Call.underway, Call.result, hserved]; rfl), hserved⟩
  cases hstep with
  | serves k token scope fetched hcall =>
      intro r hr
      rcases List.mem_append.1 hr with hr | hr
      · exact hkept r hr
      · obtain rfl := List.mem_singleton.1 hr
        exact ⟨_, List.getElem?_set_self (List.getElem?_eq_some_iff.1 hcall).1, rfl⟩
  | _ => exact hkept

theorem began_step (h : x.Sound) (hstep : Step x y) : ∀ c ∈ y.calls, ∀ scope since,
    c.standing = .fetching scope since → since ≤ y.now := by
  intro c hc scope since hfetching
  have hset {k : Nat} {d : Call} (hmem : c ∈ x.calls.set k d)
      (hd : ∀ scope since, d.standing ≠ .fetching scope since) : since ≤ x.now := by
    rcases List.mem_or_eq_of_mem_set hmem with hmem | rfl
    · exact h.began c hmem scope since hfetching
    · exact absurd hfetching (hd scope since)
  cases hstep with
  | aside w now calledOff _ _ _ _ hnow =>
      exact Nat.le_trans (h.began c hc scope since hfetching) hnow
  | turnsAway token =>
      rcases List.mem_append.1 hc with hc | hc
      · exact h.began c hc scope since hfetching
      · obtain rfl := List.mem_singleton.1 hc
        cases hfetching
  | begins token =>
      rcases List.mem_append.1 hc with hc | hc
      · exact h.began c hc scope since hfetching
      · obtain rfl := List.mem_singleton.1 hc
        cases hfetching
        exact Nat.le_refl _
  | answers => exact hset hc nofun
  | breaksOff => exact hset hc nofun
  | serves => exact hset hc nofun

theorem step (h : x.Sound) (hstep : Step x y) : y.Sound :=
  ⟨h.alone_step hstep, h.counted_step hstep, h.ofCall_step hstep, h.began_step hstep⟩

theorem after (h : x.Sound) (acts : List (Act L)) : (x.after acts).Sound := by
  induction acts generalizing x with
  | nil => exact h
  | cons a acts ih => exact ih (h.step (x.step_act a))

end Sound

end Traffic

end ClusterConsole.Watching
