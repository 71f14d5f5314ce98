import ClusterConsole.Proofs.Console.Attendance
import ClusterConsole.Proofs.Snapshot.Diff

/-!
# Letters of former views

Each view is opened under a generation of its own, and each watcher feeds one of them for
ever (`Feeds`). So of the letters that wait those of the present view's watcher name the
generation of the present view, and no others do (`Posted`): what was handed out to a
former view is dropped, however late it is heard.
-/

namespace ClusterConsole

open ClusterConsole.Resource ClusterConsole.Snapshot ClusterConsole.Status

/-! ## What a watcher hands out -/

namespace Watching.Traffic

variable {x y : Traffic Nat} {g : Nat}

/-- What a watcher was there for and what it has handed out. -/
def record (x : Traffic Nat) : Target × List Nat × List (Round Nat) :=
  (x.watcher.target, x.watcher.listeners, x.rounds)

theorem Step.prefix_rounds (h : Step x y) : x.rounds <+: y.rounds := by
  cases h with
  | serves => exact List.prefix_append _ _
  | _ => exact List.prefix_refl _

/-- All that was handed out went to the view of that generation. -/
structure Feeds (x : Traffic Nat) (g : Nat) : Prop where
  listeners : x.watcher.listeners = [g]
  handed : ∀ r ∈ x.rounds, ∀ p ∈ r.handed, p.1 = g ∧
    ∀ t, p.2 = .table t → t.kind = x.watcher.target.kind ∧ r.fetched.toBool = true

theorem Feeds.congr (h : x.Feeds g) (hrecord : y.record = x.record) : y.Feeds g := by
  simp only [record, Prod.mk.injEq] at hrecord
  obtain ⟨htarget, hlisteners, hrounds⟩ := hrecord
  refine ⟨hlisteners.trans h.listeners, ?_⟩
  rw [htarget, hrounds]
  exact h.handed

theorem Feeds.conclude (h : x.Feeds g) (scope : Scope) (fetched : Fetched) :
    ∀ p ∈ (x.watcher.conclude scope fetched).2, p.1 = g ∧
      ∀ t, p.2 = .table t → t.kind = x.watcher.target.kind ∧ fetched.toBool = true := by
  intro p hp
  cases fetched with
  | ok rows =>
      simp only [Watcher.conclude, Watcher.deliver, h.listeners, List.map_singleton,
        List.mem_singleton] at hp
      subst hp
      refine ⟨rfl, ?_⟩
      intro t ht
      injection ht with ht
      exact ⟨ht ▸ (Table.Sound.advance _ _ _ _).kind_eq, rfl⟩
  | error chain =>
      simp only [Watcher.conclude, Watcher.deliver, h.listeners, List.map_singleton,
        List.mem_singleton] at hp
      subst hp
      exact ⟨rfl, nofun⟩

theorem Feeds.step (h : x.Feeds g) (hstep : Step x y)
    (hlisteners : y.watcher.listeners = x.watcher.listeners) : y.Feeds g := by
  refine ⟨hlisteners.trans h.listeners, ?_⟩
  cases hstep with
  | aside w now calledOff htarget =>
      rw [htarget]
      exact h.handed
  | serves k token scope fetched =>
      have htarget : (x.serve k token scope fetched).watcher.target = x.watcher.target := by
        cases fetched <;> rfl
      intro r hr
      rw [htarget]
      rcases List.mem_append.1 hr with hr | hr
      · exact h.handed r hr
      · obtain rfl := List.mem_singleton.1 hr
        exact h.conclude scope fetched
  | _ => exact h.handed

end Watching.Traffic

namespace Console

open ClusterConsole.Background (Surroundings)
open ClusterConsole.Background.Stage (newsOf)
open ClusterConsole.Watching (Delivery Traffic)

namespace Desk

variable {d d' : Desk} {c c₀ : Console} {s : Surroundings} {x : Traffic Nat} {k : Nat}
  {label : Option Action} {l : Letter} {command : Command} {p : Console × Option Command}

/-! ## Commands that open no view -/

theorem map_record_modify {ws : List (Traffic Nat)} {f : Traffic Nat → Traffic Nat}
    (hf : ∀ x, (f x).record = x.record) (i : Nat) :
    (ws.modify i f).map Traffic.record = ws.map Traffic.record := by
  apply List.ext_getElem?
  intro j
  rw [List.getElem?_map, List.getElem?_map, List.getElem?_modify]
  split
  · cases ws[j]? with
    | none => rfl
    | some x => exact congrArg some (hf x)
  · rw [id_map']

theorem map_record_applyChange (ws : List (Traffic Nat)) (change : WatchChange)
    (hchange : ∀ order, change ≠ .started order) :
    (applyChange ws change).map Traffic.record = ws.map Traffic.record := by
  cases change with
  | stopped => rfl
  | started order => exact absurd rfl (hchange order)
  | rescoped scope | paced ms | nudged =>
      apply map_record_modify
      intro x
      rfl

/-- A command that opens no view changes neither what was handed out nor by whom the view
is served. -/
theorem carryOut_of_not_opens (d : Desk) (hcommand : command.opens = false) :
    (d.carryOut command).watchers.map Traffic.record = d.watchers.map Traffic.record ∧
      (d.carryOut command).live.order?.isSome = d.live.order?.isSome := by
  cases command with
  | watch target generation => cases hcommand
  | setScope scope =>
      refine ⟨?_, ?_⟩
      · simp only [carryOut, LiveView.apply]
        split
        · rfl
        · split
          · rfl
          · exact map_record_applyChange d.watchers (.rescoped _) (by simp)
      · exact (congrArg Option.isSome (LiveView.order?_setScope d.live d.console scope)).trans
          Option.isSome_map
  | setInterval ms =>
      refine ⟨?_, ?_⟩
      · simp only [carryOut, LiveView.apply]
        cases LiveView.order? { d.live with interval := ms } with
        | none => rfl
        | some o => exact map_record_applyChange d.watchers (.paced ms) (by simp)
      · exact (congrArg Option.isSome (LiveView.order?_setInterval d.live d.console ms)).trans
          Option.isSome_map
  | refresh =>
      refine ⟨?_, rfl⟩
      simp only [carryOut, LiveView.apply]
      cases d.live.order? with
      | none => rfl
      | some o => exact map_record_applyChange d.watchers .nudged (by simp)

/-! ## Letters of other views -/

theorem exists_of_map_record {ws ws' : List (Traffic Nat)} {x' : Traffic Nat}
    (h : ws'.map Traffic.record = ws.map Traffic.record) (hx : ws'[k]? = some x') :
    ∃ x, ws[k]? = some x ∧ x'.record = x.record := by
  have hk : (ws'.map Traffic.record)[k]? = (ws.map Traffic.record)[k]? := by rw [h]
  rw [List.getElem?_map, List.getElem?_map, hx, Option.map_some, eq_comm,
    Option.map_eq_some_iff] at hk
  obtain ⟨x, hx, hrecord⟩ := hk
  exact ⟨x, hx, hrecord.symm⟩

theorem eq_some_of_concat {ws : List (Traffic Nat)} {z : Traffic Nat}
    (h : (ws ++ [z])[k]? = some x) : ws[k]? = some x ∨ k = ws.length ∧ x = z := by
  rw [List.getElem?_append] at h
  split at h
  · exact .inl h
  · rw [List.getElem?_singleton] at h
    split at h
    · exact .inr ⟨by omega, (Option.some.inj h).symm⟩
    · cases h

theorem sender?_congr (hwatchers : d'.watchers.map Traffic.record = d.watchers.map Traffic.record)
    (hpresent : d'.live.order?.isSome = d.live.order?.isSome) : d'.sender? = d.sender? := by
  have hlength : d'.watchers.length = d.watchers.length := by
    rw [← List.length_map, hwatchers, List.length_map]
  simp only [sender?, hlength]
  cases ho' : d'.live.order? <;> cases ho : d.live.order? <;> simp [ho', ho] at hpresent ⊢

structure Posted (d : Desk) : Prop where
  /-- Each watcher serves a generation so far, and the present one just if it is the present
  view's. -/
  serves : ∀ k x, d.watchers[k]? = some x → ∃ g, x.Feeds g ∧ g ≤ d.console.generation ∧
    (g = d.console.generation ↔ d.sender? = some k)
  queue : ∀ l ∈ d.queue, ∃ x, d.watchers[l.sender]? = some x ∧
    ∃ r ∈ x.rounds, l.delivery ∈ r.handed

theorem Posted.keep (h : d.Posted)
    (hwatchers : d'.watchers.map Traffic.record = d.watchers.map Traffic.record)
    (hpresent : d'.live.order?.isSome = d.live.order?.isSome) (hqueue : d'.queue ⊆ d.queue)
    (hgeneration : d'.console.generation = d.console.generation) : d'.Posted := by
  refine ⟨?_, ?_⟩
  · intro k x' hx'
    obtain ⟨x, hx, hrecord⟩ := exists_of_map_record hwatchers hx'
    obtain ⟨g, hfeeds, hg⟩ := h.serves k x hx
    refine ⟨g, hfeeds.congr hrecord, ?_⟩
    rw [hgeneration, sender?_congr hwatchers hpresent]
    exact hg
  · intro l hl
    obtain ⟨x, hx, r, hr, hmem⟩ := h.queue l (hqueue hl)
    obtain ⟨x', hx', hrecord⟩ := exists_of_map_record hwatchers.symm hx
    refine ⟨x', hx', r, ?_, hmem⟩
    rw [show x'.rounds = x.rounds from congrArg (fun p => p.2.2) hrecord.symm]
    exact hr

/-- With the next view all watchers so far are left behind. -/
theorem Posted.watch (h : d.Posted) (c : Console)
    (hgeneration : c.generation = d.console.generation + 1) :
    (({ d with console := c } : Desk).carryOut (.watch c.view.target c.generation)).Posted := by
  -- the generation is new, so none of the watchers so far feeds it
  have hold (k : Nat) (x : Traffic Nat) (hx : d.watchers[k]? = some x) :
      ∃ g, x.Feeds g ∧ g < c.generation := by
    obtain ⟨g, hfeeds, hg, -⟩ := h.serves k x hx
    exact ⟨g, hfeeds, by omega⟩
  cases hpolled : c.view.target.kind.polled with
  | true =>
      obtain ⟨o, ho, horder, hwatchers⟩ := watch_of_polled { d with console := c } c.view.target
        c.generation hpolled
      have hsender : (({ d with console := c } : Desk).carryOut
          (.watch c.view.target c.generation)).sender? = some d.watchers.length := by
        simp [sender?, horder, hwatchers]
      refine ⟨?_, ?_⟩
      · intro k x hx
        rw [hsender]
        rw [hwatchers] at hx
        rcases eq_some_of_concat hx with hx | ⟨rfl, rfl⟩
        · obtain ⟨g, hfeeds, hg⟩ := hold k x hx
          refine ⟨g, hfeeds, Nat.le_of_lt hg, ?_⟩
          have hk : k < d.watchers.length := (List.getElem?_eq_some_iff.1 hx).1
          rw [Option.some.injEq]
          exact ⟨fun heq => absurd heq (Nat.ne_of_lt hg), fun heq => absurd heq (Nat.ne_of_gt hk)⟩
        · refine ⟨c.generation, ⟨?_, by simp [Traffic.start]⟩, Nat.le_refl _,
            iff_of_true rfl rfl⟩
          rw [ho]
          rfl
      · intro l hl
        obtain ⟨x, hx, hround⟩ := h.queue l hl
        refine ⟨x, ?_, hround⟩
        rw [hwatchers, List.getElem?_append_left (List.getElem?_eq_some_iff.1 hx).1, hx]
  | false =>
      obtain ⟨horder, hwatchers⟩ := watch_of_local { d with console := c } c.view.target
        c.generation hpolled
      refine ⟨?_, ?_⟩
      · intro k x hx
        rw [hwatchers] at hx
        obtain ⟨g, hfeeds, hg⟩ := hold k x hx
        refine ⟨g, hfeeds, Nat.le_of_lt hg, ?_⟩
        simp only [sender?, horder, Option.map_none, reduceCtorEq, iff_false]
        exact Nat.ne_of_lt hg
      · intro l hl
        rw [hwatchers]
        exact h.queue l hl

/-- What is followed up but opens no view. -/
theorem follow_of_not_opens (d : Desk) (c : Console) (command : Option Command)
    (hcommand : ∀ x, command = some x → x.opens = false) :
    (d.follow (c, command)).console = { c with errands := [] } ∧
      (d.follow (c, command)).queue = d.queue ∧
      (d.follow (c, command)).watchers.map Traffic.record = d.watchers.map Traffic.record ∧
      (d.follow (c, command)).live.order?.isSome = d.live.order?.isSome := by
  cases command with
  | none => exact ⟨rfl, rfl, rfl, rfl⟩
  | some x =>
      obtain ⟨hwatchers, hpresent⟩ := carryOut_of_not_opens
        { d with console := { c with errands := [] } } (hcommand x rfl)
      exact ⟨rfl, rfl, hwatchers, hpresent⟩

theorem Posted.follow (h : d.Posted) (hp : Redraw s d.console p) : (d.follow p).Posted := by
  cases hp with
  | kept hshown _ _ hcommand =>
      obtain ⟨hconsole, hqueue, hwatchers, hpresent⟩ := d.follow_of_not_opens _ _ hcommand
      apply h.keep hwatchers hpresent (hqueue ▸ List.Subset.refl _)
      rw [hconsole]
      exact congrArg (fun p => p.2.1) hshown
  | @drawn c₀ hshown =>
      have hsame := congrArg (fun p => p.2.2) (stance_hydrate c₀ s)
      exact h.keep rfl rfl (List.Subset.refl _)
        (hsame.trans (congrArg (fun p => p.2.1) hshown))
  | opened c₀ hgeneration =>
      obtain ⟨r, table, hbearing⟩ := bearing_watchCurrent c₀ s
      have hnext : (d.opened c₀ s).console.generation = c₀.generation + 1 :=
        congrArg Bearing.generation hbearing
      rw [follow_watchCurrent]
      exact h.watch _ (hgeneration ▸ hnext)

/-- What happens on a watcher is put behind what is waiting. -/
theorem Posted.watches (h : d.Posted) (hx : d.watchers[k]? = some x) {a : Traffic.Act Nat}
    (ha : a.own = true) : Posted { d with
      watchers := d.watchers.set k (x.act a)
      queue := d.queue ++ letters k x.rounds.length (x.act a) } := by
  have hk := (List.getElem?_eq_some_iff.1 hx).1
  have hstep := x.step_act a
  have hlisteners : (x.act a).watcher.listeners = x.watcher.listeners :=
    congrArg (fun p => p.2.2.2) (x.settings_act ha)
  refine ⟨?_, ?_⟩
  · intro j y hy
    simp only [sender?, List.length_set]
    rw [List.getElem?_set] at hy
    simp only [hk, if_true] at hy
    split at hy
    · rename_i hj
      subst hj
      obtain rfl := Option.some.inj hy
      obtain ⟨g, hfeeds, hg⟩ := h.serves k x hx
      exact ⟨g, hfeeds.step hstep hlisteners, hg⟩
    · exact h.serves j y hy
  · intro l hl
    rcases List.mem_append.1 hl with hl | hl
    · obtain ⟨y, hy, r, hr, hmem⟩ := h.queue l hl
      simp only [List.getElem?_set, hk, if_true]
      split
      · rename_i hj
        subst hj
        rw [hx] at hy
        obtain rfl := Option.some.inj hy
        exact ⟨_, rfl, r, hstep.prefix_rounds.subset hr, hmem⟩
      · exact ⟨y, hy, r, hr, hmem⟩
    · obtain ⟨r, hr, hmem⟩ := List.mem_flatMap.1 hl
      obtain ⟨δ, hδ, rfl⟩ := List.mem_map.1 hmem
      exact ⟨_, List.getElem?_set_self hk, r, List.mem_of_mem_drop hr, hδ⟩

theorem Posted.step (h : d.Posted) (hstep : Step d label d') : d'.Posted := by
  have hkept {c : Console} (hc : c.bearing.stance = d.console.bearing.stance) :
      Posted { d with console := c } :=
    h.keep rfl rfl (List.Subset.refl _) (congrArg (fun p => p.2.2) hc)
  cases hstep with
  | still => exact h
  | acts a => exact h.follow (act_redraw d.console d.surroundings a)
  | watches hx ha => exact h.watches hx ha
  | hears hqueue =>
      refine h.keep rfl rfl ?_ (congrArg (fun p => p.2.2) (stance_hear _ _ _))
      rw [hqueue]
      exact List.subset_cons_self _ _
  | learns hlearnt => exact hkept hlearnt.stance
  | draws => exact hkept (stance_hydrate _ _)
  | warns => exact hkept rfl
  | outside => exact h.keep rfl rfl (List.Subset.refl _) rfl

theorem Posted.run (h : d.Posted) (acts : List Act) : (d.run acts).Posted := by
  induction acts generalizing d with
  | nil => exact h
  | cons a acts ih => exact ih (h.step (d.step_act a))

theorem posted_opening (s : Surroundings) (home cluster context : String) (scope : Scope)
    (kind : Kind) (interval : Nat) :
    (opening s home cluster context scope kind interval).Posted := by
  have hempty (c : Console) : Posted ⟨s, c, LiveView.idle interval, [], [], []⟩ := by
    constructor
    · intro k x hx
      rw [List.getElem?_nil] at hx
      cases hx
    · intro l hl
      cases hl
  simp only [opening]
  generalize Console.start s home cluster context scope kind = c
  exact (hempty c).follow (.opened c rfl)

/-- A letter is the present view's just if it names its generation. -/
theorem Posted.generation_iff (h : d.Posted) (hl : l ∈ d.queue) :
    l.delivery.1 = d.console.generation ↔ d.sender? = some l.sender := by
  obtain ⟨x, hx, r, hr, hmem⟩ := h.queue l hl
  obtain ⟨g, hfeeds, -, hiff⟩ := h.serves l.sender x hx
  rw [(hfeeds.handed r hr _ hmem).1]
  exact hiff

/-- What another view's watcher has handed out changes nothing any more. -/
theorem Posted.hear_stale (h : d.Posted) (hl : l ∈ d.queue) (hstale : d.sender? ≠ some l.sender)
    (s : Surroundings) : d.console.hear s (newsOf l.delivery) = d.console := by
  have hne := mt (h.generation_iff hl).1 hstale
  obtain ⟨sender, generation, δ⟩ := l
  cases δ with
  | table t => exact if_neg hne
  | failure chain => exact if_pos hne

end Desk

end Console

end ClusterConsole
