import ClusterConsole.Proofs.Console.Letters
import Mathlib.Data.List.Induction

/-!
# Every view shows its own rows

A table that was fetched is one that the present view's watcher has handed out (`Own`);
the letters of all other watchers are dropped. The rows of the other views are drawn by
the console itself: `Redrawn` says how a step may change them, and `DrawnHere` at what
moment of the view they were drawn.
-/

namespace ClusterConsole

open ClusterConsole.Resource ClusterConsole.Snapshot ClusterConsole.Status

namespace Console

open ClusterConsole.Background (Surroundings)
open ClusterConsole.Background.Stage (newsOf)
open ClusterConsole.Watching (Delivery Traffic)

/-! ## The console's own rows -/

/-- The table shows the console's own rows, drawn over the table before. -/
def DrawnOver (c : Console) (s : Surroundings) (previous : Table) : Prop :=
  ∃ rows, c.localRows? s = some rows ∧
    c.table = Table.advance c.view.target.kind .all (some previous) rows

section OwnRows

variable {c : Console} {s : Surroundings}

theorem hydrate_of_polled (h : c.view.target.kind.polled = true) : c.hydrate s = c := by
  have hnone := localRows?_isSome c s
  rw [h, Bool.not_true, Option.isSome_eq_false_iff, Option.isNone_iff_eq_none] at hnone
  exact hydrate_of_none hnone

theorem drawnOver_hydrate (h : c.view.target.kind.polled = false) :
    (c.hydrate s).DrawnOver s c.table := by
  have hsome := localRows?_isSome c s
  rw [h, Bool.not_false, Option.isSome_iff_exists] at hsome
  obtain ⟨rows, hrows⟩ := hsome
  rw [hydrate_of_some hrows]
  exact ⟨rows, hrows, rfl⟩

theorem kind_hydrate (h : c.table.kind = c.view.target.kind) :
    (c.hydrate s).table.kind = c.view.target.kind := by
  cases hrows : c.localRows? s with
  | none => rw [hydrate_of_none hrows, h]
  | some rows =>
      rw [hydrate_of_some hrows]
      exact (Table.Sound.advance _ _ _ _).kind_eq

/-- A view is opened with no rows but the console's own. -/
theorem watchCurrent_own (c : Console) (s : Surroundings) :
    (c.watchCurrent s).1.view.target = c.view.target ∧
      (c.watchCurrent s).1.tableError = none ∧
      (c.watchCurrent s).1.table.kind = c.view.target.kind ∧
      (c.view.target.kind.polled = true → (c.watchCurrent s).1.table.entries = []) ∧
      (c.view.target.kind.polled = false → ∃ previous, previous.entries = [] ∧
        (c.watchCurrent s).1.DrawnOver s previous) := by
  obtain ⟨r, hbearing, -⟩ := bearing_unveil c s
  have htarget : (c.unveil s).view.target = c.view.target := congrArg Bearing.target hbearing
  have htable : (c.unveil s).table = Table.empty c.view.target.kind (c.scopeFor c.view.target) :=
    congrArg Bearing.table hbearing
  have hdrawn := bearing_hydrate (c.unveil s) s
  rw [hbearing] at hdrawn
  rw [watchCurrent_eq]
  refine ⟨congrArg Bearing.target hdrawn, congrArg Bearing.tableError hdrawn, ?_, ?_, ?_⟩
  · rw [← htarget]
    apply kind_hydrate
    rw [htable, htarget]
    rfl
  · intro hpolled
    rw [← htarget] at hpolled
    rw [hydrate_of_polled hpolled, htable]
    rfl
  · intro hlocal
    rw [← htarget] at hlocal
    exact ⟨(c.unveil s).table, by rw [htable]; rfl, drawnOver_hydrate hlocal⟩

end OwnRows

namespace Desk

variable {d d' : Desk} {c c₀ : Console} {s : Surroundings} {x : Traffic Nat} {k : Nat}
  {label : Option Action} {l : Letter} {p : Console × Option Command}

/-! ## What the present view has told -/

/-- The failure that the watcher at that place has told last, unless a table came after it
or a view was opened. -/
def recorded (k : Option Nat) : List Turn → Option String
  | .heard l :: log =>
      if k = some l.sender then
        match l.delivery.2 with
        | .table _ => none
        | .failure chain => some chain.oneLine
      else recorded k log
  | .asked command :: log => if command.opens then none else recorded k log
  | [] => none

structure Own (d : Desk) : Prop where
  kind : d.console.table.kind = d.console.view.target.kind
  rows : d.console.view.target.kind.polled = true → d.console.table.entries = [] ∨
    ∃ x, d.watcher? = some x ∧
      ∃ r ∈ x.rounds, (d.console.generation, .table d.console.table) ∈ r.handed
  error : d.console.tableError = recorded d.sender? d.log

theorem Own.keep (h : d.Own) (hshown : d'.console.bearing.shown = d.console.bearing.shown)
    (hsender : d'.sender? = d.sender?)
    (hwatcher : ∀ x, d.watcher? = some x → ∃ x', d'.watcher? = some x' ∧ x.rounds ⊆ x'.rounds)
    (hlog : recorded d.sender? d'.log = recorded d.sender? d.log) : d'.Own := by
  simp only [Bearing.shown, bearing, Prod.mk.injEq] at hshown
  obtain ⟨htarget, hgeneration, htable, herror⟩ := hshown
  refine ⟨?_, ?_, ?_⟩
  · rw [htable, htarget]
    exact h.kind
  · rw [htable, htarget, hgeneration]
    intro hpolled
    refine (h.rows hpolled).imp_right ?_
    rintro ⟨x, hx, r, hr, hmem⟩
    obtain ⟨x', hx', hrounds⟩ := hwatcher x hx
    exact ⟨x', hx', r, hrounds hr, hmem⟩
  · rw [herror, hsender, hlog]
    exact h.error

/-- What was not handed out by the present view's watcher is not shown. -/
theorem Own.with_console (h : d.Own) (hp : Redraw s d.console (c, none)) :
    Own { d with console := c } := by
  have hsame {c : Console} (hshown : c.bearing.shown = d.console.bearing.shown) :
      Own { d with console := c } :=
    h.keep hshown rfl (fun x hx => ⟨x, hx, List.Subset.refl _⟩) rfl
  cases hp with
  | kept hshown => exact hsame hshown
  | @drawn c₀ hshown =>
      cases hpolled : c₀.view.target.kind.polled with
      | true =>
          rw [hydrate_of_polled hpolled]
          exact hsame hshown
      | false =>
          have hdrawn := bearing_hydrate c₀ s
          have htarget : (c₀.hydrate s).view.target = c₀.view.target :=
            congrArg Bearing.target hdrawn
          have hbefore := hsame hshown
          refine ⟨?_, ?_, (congrArg Bearing.tableError hdrawn).trans hbefore.error⟩
          · exact (kind_hydrate hbefore.kind).trans (congrArg Watching.Target.kind htarget).symm
          · intro hview
            rw [show (c₀.hydrate s).view.target = c₀.view.target from htarget, hpolled] at hview
            cases hview

theorem watcher?_congr (hwatchers : d'.watchers.map Traffic.record = d.watchers.map Traffic.record)
    (hpresent : d'.live.order?.isSome = d.live.order?.isSome) (hx : d.watcher? = some x) :
    ∃ x', d'.watcher? = some x' ∧ x.rounds ⊆ x'.rounds := by
  obtain ⟨k, hk, hx⟩ := Option.bind_eq_some_iff.1 hx
  obtain ⟨x', hx', hrecord⟩ := exists_of_map_record hwatchers.symm hx
  have hrounds : x.rounds = x'.rounds := congrArg (fun p => p.2.2) hrecord
  refine ⟨x', ?_, hrounds ▸ List.Subset.refl _⟩
  rw [watcher?, sender?_congr hwatchers hpresent, hk, Option.bind_some, hx']

theorem Own.follow (h : d.Own) (hp : Redraw s d.console p) : (d.follow p).Own := by
  cases hp with
  | @kept c command hshown _ _ hcommand =>
      obtain ⟨hconsole, -, hwatchers, hpresent⟩ := d.follow_of_not_opens c command hcommand
      refine h.keep (hconsole ▸ hshown) (sender?_congr hwatchers hpresent)
        (fun x hx => watcher?_congr hwatchers hpresent hx) ?_
      cases command with
      | none => rfl
      | some x =>
          have hx := hcommand x rfl
          cases x with
          | watch target generation => cases hx
          | _ => rfl
  | drawn hshown =>
      have hdrawn := h.with_console (s := s) (.drawn hshown)
      exact ⟨hdrawn.kind, hdrawn.rows, hdrawn.error⟩
  | opened c₀ =>
      obtain ⟨htarget, herror, hkind, hpolled, -⟩ := watchCurrent_own c₀ s
      rw [follow_watchCurrent]
      refine ⟨hkind.trans (congrArg Watching.Target.kind htarget).symm, ?_, herror⟩
      intro hview
      exact .inl (hpolled ((congrArg (fun t => t.kind.polled) htarget).symm.trans hview))

theorem own_opening (s : Surroundings) (home cluster context : String) (scope : Scope)
    (kind : Kind) (interval : Nat) :
    (opening s home cluster context scope kind interval).Own := by
  obtain ⟨r, hstart, -⟩ := bearing_start s home cluster context scope kind
  simp only [opening]
  generalize Console.start s home cluster context scope kind = c at hstart
  have hempty : Own ⟨s, c, LiveView.idle interval, [], [], []⟩ := by
    simp only [bearing, Bearing.mk.injEq] at hstart
    obtain ⟨-, htarget, -, htable, herror, -⟩ := hstart
    refine ⟨?_, ?_, herror⟩
    · rw [htable, htarget]
      rfl
    · intro _
      rw [htable]
      exact .inl rfl
  exact hempty.follow (.opened c rfl)

/-- The present view's letter is from its watcher, and for it. -/
theorem exists_watcher (h : d.Posted) (hview : d.Attended) (hl : l ∈ d.queue)
    (hpresent : d.sender? = some l.sender) : l.delivery.1 = d.console.generation ∧
      ∃ x, d.watcher? = some x ∧ (∃ r ∈ x.rounds, l.delivery ∈ r.handed) ∧
      ∀ t, l.delivery.2 = .table t → t.kind = d.console.view.target.kind := by
  obtain ⟨x, hx, r, hr, hmem⟩ := h.queue l hl
  obtain ⟨g, hfeeds, -⟩ := h.serves l.sender x hx
  have hwatcher : d.watcher? = some x := by
    rw [watcher?, hpresent, Option.bind_some, hx]
  refine ⟨(h.generation_iff hl).2 hpresent, x, hwatcher, ⟨r, hr, hmem⟩, ?_⟩
  intro t ht
  obtain ⟨o, ho, -⟩ := Option.map_eq_some_iff.1 hpresent
  obtain ⟨z, hz, hsettings⟩ := hview.watcher o ho
  rw [watcher?_of_order ho, hz] at hwatcher
  obtain rfl := Option.some.inj hwatcher
  have htarget : z.watcher.target = o.target := congrArg Prod.fst hsettings
  rw [((hfeeds.handed r hr _ hmem).2 t ht).1, htarget, (hview.order o ho).1]

theorem hear_table (c : Console) (s : Surroundings) (t : Table) :
    c.hear s (newsOf (c.generation, .table t)) = { c with table := t, tableError := none } :=
  if_pos rfl

theorem hear_failure (c : Console) (s : Surroundings) (chain : Chain) :
    c.hear s (newsOf (c.generation, .failure chain)) =
      { c with
        tableError := some chain.oneLine
        status := if c.tableError = some chain.oneLine then c.status
          else Line.ofNotice ⟨.error, chain.oneLine⟩ } := by
  simp only [newsOf, Console.hear, tableFailed, ne_eq, not_true_eq_false, if_false]
  split <;> rfl

theorem Own.hears (h : d.Own) (hposted : d.Posted) (hview : d.Attended) {queue : List Letter}
    (hqueue : d.queue = l :: queue) : Own { d with
      console := d.console.hear d.surroundings (newsOf l.delivery)
      queue := queue
      log := .heard l :: d.log } := by
  have hl : l ∈ d.queue := hqueue ▸ List.mem_cons_self
  by_cases hpresent : d.sender? = some l.sender
  · obtain ⟨hgeneration, x, hx, ⟨r, hr, hmem⟩, hkind⟩ :=
      exists_watcher hposted hview hl hpresent
    have hlog : recorded d.sender? (.heard l :: d.log) =
        match l.delivery.2 with
        | .table _ => none
        | .failure chain => some chain.oneLine := if_pos hpresent
    obtain ⟨sender, generation, δ⟩ := l
    dsimp only at hgeneration hmem hkind hlog
    subst hgeneration
    cases δ with
    | table t =>
        rw [hear_table]
        exact ⟨hkind t rfl, fun _ => .inr ⟨x, hx, r, hr, hmem⟩, hlog.symm⟩
    | failure chain =>
        rw [hear_failure]
        exact ⟨h.kind, h.rows, hlog.symm⟩
  · rw [hposted.hear_stale hl hpresent]
    have hlog : recorded d.sender? (.heard l :: d.log) = recorded d.sender? d.log :=
      if_neg hpresent
    exact ⟨h.kind, h.rows, h.error.trans hlog.symm⟩

theorem Own.watches (h : d.Own) (hx : d.watchers[k]? = some x) {a : Traffic.Act Nat}
    (queue : List Letter) :
    Own { d with watchers := d.watchers.set k (x.act a), queue := queue } := by
  have hsender : sender? { d with watchers := d.watchers.set k (x.act a), queue := queue } =
      d.sender? := by
    simp only [sender?, List.length_set]
  refine h.keep rfl hsender ?_ rfl
  intro y hy
  obtain ⟨j, hj, hy⟩ := Option.bind_eq_some_iff.1 hy
  simp only [watcher?, hsender, hj, Option.bind_some, List.getElem?_set,
    (List.getElem?_eq_some_iff.1 hx).1, if_true]
  split
  · rename_i hkj
    subst hkj
    rw [hx] at hy
    obtain rfl := Option.some.inj hy
    exact ⟨_, rfl, (x.step_act a).prefix_rounds.subset⟩
  · exact ⟨y, hy, List.Subset.refl _⟩

theorem Own.step (h : d.Own) (hposted : d.Posted) (hview : d.Attended) (hstep : Step d label d') :
    d'.Own := by
  cases hstep with
  | still => exact h
  | acts a => exact h.follow (act_redraw d.console d.surroundings a)
  | watches hx ha => exact h.watches hx _
  | hears hqueue => exact h.hears hposted hview hqueue
  | learns hlearnt => exact h.with_console hlearnt.redraw
  | draws => exact h.with_console (.drawn rfl)
  | warns => exact h.with_console (s := d.surroundings) (.kept rfl rfl rfl nofun)
  | outside => exact ⟨h.kind, h.rows, h.error⟩

theorem Own.run (h : d.Own) (hposted : d.Posted) (hview : d.Attended) (acts : List Act) :
    (d.run acts).Own := by
  induction acts generalizing d with
  | nil => exact h
  | cons a acts ih =>
      have hstep := d.step_act a
      exact ih (h.step hposted hview hstep) (hposted.step hstep) (hview.step hstep)

end Desk

/-! ## The rows of the other views -/

/-- How a step may change a view of the console's own rows. -/
inductive Redrawn (s : Surroundings) (c c' : Console) : Prop where
  | kept (h : c'.bearing.shown = c.bearing.shown) (hregistry : c'.registry = c.registry)
      (hfile : c'.runner.file = c.runner.file)
  | drawn (hview : c'.bearing.stance.2 = c.bearing.stance.2) (h : c'.DrawnOver s c.table)
  | opened {previous : Table} (hempty : previous.entries = []) (h : c'.DrawnOver s previous)

theorem Redraw.redrawn {s : Surroundings} {c : Console} {p : Console × Option Command}
    (h : Redraw s c p) (hlocal : p.1.view.target.kind.polled = false) : Redrawn s c p.1 := by
  cases h with
  | kept h hregistry hfile => exact .kept h hregistry hfile
  | @drawn c₀ h =>
      have hstance := stance_hydrate c₀ s
      have htarget : (c₀.hydrate s).view.target = c₀.view.target :=
        congrArg (fun p => p.2.1) hstance
      have htable : c₀.table = c.table := congrArg (fun p => p.2.2.1) h
      rw [show (c₀.hydrate s, (none : Option Command)).1.view.target = c₀.view.target
        from htarget] at hlocal
      refine .drawn ((congrArg Prod.snd hstance).trans ?_) (htable ▸ drawnOver_hydrate hlocal)
      exact congrArg (fun p => (p.1, p.2.1)) h
  | opened c₀ h =>
      obtain ⟨htarget, -, -, -, hdrawn⟩ := watchCurrent_own c₀ s
      rw [htarget] at hlocal
      obtain ⟨previous, hempty, hdrawn⟩ := hdrawn hlocal
      exact .opened hempty hdrawn

theorem Redrawn.without_errands {s : Surroundings} {c c' : Console} (h : Redrawn s c c') :
    Redrawn s c { c' with errands := [] } := by
  cases h with
  | kept h hregistry hfile => exact .kept h hregistry hfile
  | drawn hview h => exact .drawn hview h
  | opened hempty h => exact .opened hempty h

namespace Desk

variable {d d₀ d' : Desk} {c : Console} {s : Surroundings} {acts acts₁ : List Act}
  {label : Option Action} {p : Console × Option Command}

theorem redrawn_step (hposted : d.Posted) (hview : d.Attended) (hstep : Step d label d')
    (hlocal : d'.console.view.target.kind.polled = false) :
    Redrawn d'.surroundings d.console d'.console := by
  cases hstep with
  | still | watches | warns | outside => exact .kept rfl rfl rfl
  | acts a =>
      obtain ⟨hconsole, hsurroundings⟩ :=
        d.console_follow (d.console.act d.surroundings a)
      rw [hconsole] at hlocal
      rw [hconsole, hsurroundings]
      exact ((act_redraw d.console d.surroundings a).redrawn hlocal).without_errands
  | @hears l queue hqueue =>
      have htarget : (d.console.hear d.surroundings (newsOf l.delivery)).view.target =
          d.console.view.target := congrArg (fun p => p.2.1) (stance_hear _ _ _)
      have hnone : d.sender? = none := by
        rw [sender?, hview.order?_eq_none (htarget ▸ hlocal), Option.map_none]
      have hl : l ∈ d.queue := hqueue ▸ List.mem_cons_self
      rw [hposted.hear_stale hl (by simp [hnone])]
      exact .kept rfl rfl rfl
  | learns hlearnt => exact hlearnt.redraw.redrawn hlocal
  | draws => exact Redraw.redrawn (.drawn rfl) hlocal

/-- What was so after the first of these acts was a moment of the view that is there after
them all. -/
structure Moment (d₀ : Desk) (acts acts₁ : List Act) : Prop where
  earlier : acts₁ <+: acts
  generation : (d₀.run acts₁).console.generation = (d₀.run acts).console.generation
  target : (d₀.run acts₁).console.view.target = (d₀.run acts).console.view.target

/-- The table shows rows that the console itself has drawn at a moment of this view, over no
rows or those of a moment before. -/
def DrawnHere (d₀ : Desk) (acts : List Act) : Prop :=
  ∃ acts₁, Moment d₀ acts acts₁ ∧
    (d₀.run acts₁).console.table = (d₀.run acts).console.table ∧
    ∃ previous, (d₀.run acts₁).console.DrawnOver (d₀.run acts₁).surroundings previous ∧
      (previous.entries = [] ∨
        ∃ acts₂, Moment d₀ acts₁ acts₂ ∧ previous = (d₀.run acts₂).console.table)

theorem Moment.refl (d₀ : Desk) (acts : List Act) : Moment d₀ acts acts :=
  ⟨List.prefix_refl _, rfl, rfl⟩

theorem Moment.concat (h : Moment d₀ acts acts₁) {a : Act}
    (hview : (d₀.run (acts ++ [a])).console.bearing.stance.2 =
      (d₀.run acts).console.bearing.stance.2) : Moment d₀ (acts ++ [a]) acts₁ :=
  ⟨h.earlier.trans (List.prefix_append _ _),
    h.generation.trans (congrArg Prod.snd hview).symm,
    h.target.trans (congrArg Prod.fst hview).symm⟩

theorem drawnHere_run (hposted : d₀.Posted) (hview : d₀.Attended)
    (hfirst : d₀.console.view.target.kind.polled = false →
      ∃ previous, previous.entries = [] ∧ d₀.console.DrawnOver d₀.surroundings previous)
    (acts : List Act) (hlocal : (d₀.run acts).console.view.target.kind.polled = false) :
    DrawnHere d₀ acts := by
  -- from the end, as the last act tells whether the rows were drawn anew
  induction acts using List.reverseRecOn with
  | nil =>
      obtain ⟨previous, hempty, hdrawn⟩ := hfirst hlocal
      exact ⟨[], .refl d₀ [], rfl, previous, hdrawn, .inl hempty⟩
  | append_singleton acts a ih =>
      have hstep := (d₀.run acts).step_act a
      rw [← run_concat] at hstep
      have hredrawn := redrawn_step (hposted.run acts) (hview.run acts) hstep hlocal
      cases hredrawn with
      | kept hshown =>
          have hsame : (d₀.run (acts ++ [a])).console.bearing.stance.2 =
              (d₀.run acts).console.bearing.stance.2 := congrArg (fun p => (p.1, p.2.1)) hshown
          have htarget : (d₀.run (acts ++ [a])).console.view.target =
              (d₀.run acts).console.view.target := congrArg Prod.fst hsame
          rw [htarget] at hlocal
          obtain ⟨acts₁, hmoment, htable, hdrawn⟩ := ih hlocal
          exact ⟨acts₁, hmoment.concat hsame,
            htable.trans (congrArg (fun p => p.2.2.1) hshown).symm, hdrawn⟩
      | drawn hsame hdrawn =>
          have hbefore : Moment d₀ (acts ++ [a]) acts := (Moment.refl d₀ acts).concat hsame
          exact ⟨_, .refl d₀ _, rfl, _, hdrawn, .inr ⟨acts, hbefore, rfl⟩⟩
      | opened hempty hdrawn => exact ⟨_, .refl d₀ _, rfl, _, hdrawn, .inl hempty⟩

theorem drawn_opening (s : Surroundings) (home cluster context : String) (scope : Scope)
    (kind : Kind) (interval : Nat)
    (hlocal : (opening s home cluster context scope kind
      interval).console.view.target.kind.polled = false) :
    ∃ previous, previous.entries = [] ∧
      (opening s home cluster context scope kind interval).console.DrawnOver
        (opening s home cluster context scope kind interval).surroundings previous := by
  simp only [opening] at hlocal ⊢
  generalize Console.start s home cluster context scope kind = c at hlocal ⊢
  obtain ⟨htarget, -, -, -, hdrawn⟩ := watchCurrent_own c s
  obtain ⟨hconsole, hsurroundings⟩ :=
    console_follow ⟨s, c, LiveView.idle interval, [], [], []⟩ (c.watchCurrent s)
  rw [hconsole] at hlocal
  rw [hconsole, hsurroundings]
  exact hdrawn ((congrArg (fun t => t.kind.polled) htarget).symm.trans hlocal)

/-! ## What is shown is the present view's -/

/-- What the console shows after these acts, and what it makes of the letters that wait. -/
structure OwnView (d₀ : Desk) (acts : List Act) : Prop where
  header : (d₀.run acts).console.table.header = (d₀.run acts).console.view.target.kind.header
  /-- The rows were handed out to this view by a watcher that was started for it. -/
  fetched : (d₀.run acts).console.view.target.kind.polled = true →
    ∀ e ∈ (d₀.run acts).console.table.entries, ∃ x, (d₀.run acts).watcher? = some x ∧
      x.watcher.target = (d₀.run acts).console.view.target ∧
      x.watcher.listeners = [(d₀.run acts).console.generation] ∧
      ∃ r ∈ x.rounds, r.fetched.toBool = true ∧
        ((d₀.run acts).console.generation, .table (d₀.run acts).console.table) ∈ r.handed
  drawn : (d₀.run acts).console.view.target.kind.polled = false → DrawnHere d₀ acts
  /-- What another view's watcher has handed out is dropped. -/
  stale : ∀ l ∈ (d₀.run acts).queue, (d₀.run acts).sender? ≠ some l.sender →
    ∀ s, (d₀.run acts).console.hear s (newsOf l.delivery) = (d₀.run acts).console
  /-- Of this view's failures in a row only the one that says something else is shown. -/
  heard : ∀ l ∈ (d₀.run acts).queue, (d₀.run acts).sender? = some l.sender →
    ∀ s, (d₀.run acts).console.hear s (newsOf l.delivery) =
      match l.delivery.2 with
      | .table t => { (d₀.run acts).console with table := t, tableError := none }
      | .failure chain =>
          { (d₀.run acts).console with
            tableError := some chain.oneLine
            status :=
              if recorded (d₀.run acts).sender? (d₀.run acts).log = some chain.oneLine
              then (d₀.run acts).console.status else Line.ofNotice ⟨.error, chain.oneLine⟩ }

theorem Own.fetched (h : d.Own) (hposted : d.Posted) (hview : d.Attended)
    (hpolled : d.console.view.target.kind.polled = true) :
    ∀ e ∈ d.console.table.entries, ∃ x, d.watcher? = some x ∧
      x.watcher.target = d.console.view.target ∧
      x.watcher.listeners = [d.console.generation] ∧
      ∃ r ∈ x.rounds, r.fetched.toBool = true ∧
        (d.console.generation, .table d.console.table) ∈ r.handed := by
  intro e he
  rcases h.rows hpolled with hempty | ⟨x, hx, r, hr, hmem⟩
  · rw [hempty] at he
    cases he
  · rw [← hview.polled] at hpolled
    obtain ⟨o, ho⟩ := Option.isSome_iff_exists.1 hpolled
    obtain ⟨z, hz, hsettings⟩ := hview.watcher o ho
    obtain rfl := Option.some.inj (hz.symm.trans ((watcher?_of_order ho).symm.trans hx))
    simp only [Watching.Watcher.settings, settingsOf, Prod.mk.injEq] at hsettings
    obtain ⟨htarget, -, -, hlisteners⟩ := hsettings
    obtain ⟨k, hk, hz⟩ := Option.bind_eq_some_iff.1 hx
    obtain ⟨g, hfeeds, -⟩ := hposted.serves k z hz
    exact ⟨z, hx, htarget.trans (hview.order o ho).1,
      hlisteners.trans (congrArg (fun g => [g]) (hview.order o ho).2.2), r, hr,
      ((hfeeds.handed r hr _ hmem).2 _ rfl).2, hmem⟩

theorem Own.heard (h : d.Own) (hposted : d.Posted) (hview : d.Attended) {l : Letter}
    (hl : l ∈ d.queue) (hpresent : d.sender? = some l.sender) (s : Surroundings) :
    d.console.hear s (newsOf l.delivery) =
      match l.delivery.2 with
      | .table t => { d.console with table := t, tableError := none }
      | .failure chain =>
          { d.console with
            tableError := some chain.oneLine
            status := if recorded d.sender? d.log = some chain.oneLine then d.console.status
              else Line.ofNotice ⟨.error, chain.oneLine⟩ } := by
  obtain ⟨hgeneration, -⟩ := exists_watcher hposted hview hl hpresent
  obtain ⟨sender, generation, δ⟩ := l
  dsimp only at hgeneration ⊢
  subst hgeneration
  cases δ with
  | table t => exact hear_table d.console s t
  | failure chain =>
      rw [← h.error]
      exact hear_failure d.console s chain

/-- Whatever the operator does, however long old watchers go on and however late their
letters are heard, each view shows rows of its own only. -/
theorem views_show_their_own_rows (s : Surroundings) (home cluster context : String)
    (scope : Scope) (kind : Kind) (interval : Nat) (acts : List Act) :
    OwnView (opening s home cluster context scope kind interval) acts := by
  have hattended := attended_opening s home cluster context scope kind interval
  have hposted := posted_opening s home cluster context scope kind interval
  have hown := own_opening s home cluster context scope kind interval
  have hdrawn := drawn_opening s home cluster context scope kind interval
  generalize opening s home cluster context scope kind interval = d₀ at *
  have hafter := hown.run hposted hattended acts
  constructor
  · exact congrArg Kind.header hafter.kind
  · exact hafter.fetched (hposted.run acts) (hattended.run acts)
  · exact drawnHere_run hposted hattended hdrawn acts
  · intro l hl hstale s
    exact (hposted.run acts).hear_stale hl hstale s
  · intro l hl hpresent s
    exact hafter.heard (hposted.run acts) (hattended.run acts) hl hpresent s

end Desk

end Console

end ClusterConsole
