import ClusterConsole.Cluster.Gateway
import ClusterConsole.Launch.Preferences
import ClusterConsole.Proofs.Console.ForwardsView
import ClusterConsole.Proofs.Console.Passage

/-!
# Navigation

At most one view waits below the present one, and it is of the kind whose rows lead to
the present view (`Stacked`). What waits is the view as it was left (`Left`), and going
back restores it, unless a question is open. So a view is never opened that the gateway
would give back unasked (`Cluster.Gateway.Accepts`).
-/

namespace ClusterConsole

open ClusterConsole.Resource ClusterConsole.Snapshot ClusterConsole.Status
open ClusterConsole.Watching (Target)

/-! ## What the gateway accepts -/

namespace Cluster.Gateway

variable {server : Server} {chain : Chain} {now : Int} {scope : Scope}

/-- The errors that tell of the target, and not of the cluster. -/
def refusals : List Chain :=
  ["container view needs an owning pod"] ::
    Kind.all.map fun kind => [kind.title ++ " are local state, not cluster resources"]

/-- Whatever the cluster answers, the target is not what is refused. -/
def Accepts (target : Target) : Prop :=
  ∀ server now scope, ∀ chain ∈ refusals, (fetchRows server now target scope).2 ≠ .error chain

theorem length_of_mem_refusals (h : chain ∈ refusals) : chain.length = 1 := by
  have hall : ∀ chain ∈ refusals, chain.length = 1 := by decide
  exact hall chain h

theorem eq_error_of_map {α β : Type} {f : α → β} {x : Except Chain α}
    (h : x.map f = .error chain) : x = .error chain := by
  cases x with
  | ok a => cases h
  | error e => exact congrArg Except.error (Except.error.inj h)

/-- A list request fails with what was asked for and with the cause. -/
theorem length_of_listRows {α : Type} {resource : String} {read? : Document → Option α}
    {row : α → Row} (h : (listRows server resource scope read? row).2 = .error chain) :
    chain.length = 2 := by
  have hlist : (list server resource scope read?).2 = .error chain := eq_error_of_map h
  simp only [list] at hlist
  split at hlist
  · exact Except.error.inj hlist ▸ rfl
  · dsimp only at hlist
    split at hlist
    · exact Except.error.inj hlist ▸ rfl
    · split at hlist
      · exact Except.error.inj hlist ▸ rfl
      · cases hlist

theorem length_of_containers {ns name : String} {withInit : Bool}
    (h : (containers server now ns name withInit).2 = .error chain) : chain.length = 2 := by
  have hpod : (pod server (ns ++ "/" ++ name) ns name).2 = .error chain := eq_error_of_map h
  simp only [pod] at hpod
  split at hpod
  · exact Except.error.inj hpod ▸ rfl
  · dsimp only at hpod
    split at hpod
    · exact Except.error.inj hpod ▸ rfl
    · split at hpod
      · exact Except.error.inj hpod ▸ rfl
      · cases hpod

/-- The gateway accepts what is fetched at all, and containers only of a pod. -/
theorem accepts_iff (target : Target) : Accepts target ↔
    target.kind.polled = true ∧ (target.kind = .containers → target.parent.isSome = true) := by
  obtain ⟨kind, parent⟩ := target
  constructor
  · intro h
    have hrefused (chain : Chain) (hmem : chain ∈ refusals) :=
      h ⟨fun _ => .error 0, fun _ => .error 0⟩ 0 .all chain hmem
    have hlocal (kind : Kind) := List.mem_map_of_mem (Kind.mem_all kind)
      (f := fun kind => [kind.title ++ " are local state, not cluster resources"])
    constructor
    · cases kind with
      | forwards => exact absurd rfl (hrefused _ (List.mem_cons_of_mem _ (hlocal .forwards)))
      | benchmarks => exact absurd rfl (hrefused _ (List.mem_cons_of_mem _ (hlocal .benchmarks)))
      | _ => rfl
    · rintro rfl
      cases parent with
      | none => exact absurd rfl (hrefused _ List.mem_cons_self)
      | some pod => rfl
  · rintro ⟨hpolled, hparent⟩ server now scope chain hmem hfetch
    have hone := length_of_mem_refusals hmem
    have htwo : chain.length = 2 := by
      cases kind with
      | containers =>
          obtain ⟨pod, rfl⟩ := Option.isSome_iff_exists.1 (hparent rfl)
          exact length_of_containers hfetch
      | forwards | benchmarks => cases hpolled
      | _ => exact length_of_listRows hfetch
    omega

end Cluster.Gateway

theorem Launch.Preferences.startView_ne_containers (p : Preferences) :
    p.startView ≠ .containers := by
  simp only [startView]
  split
  · nofun
  · nofun
  · rename_i kind hkind _
    exact hkind

namespace Console

open ClusterConsole.Background (Surroundings)
open ClusterConsole.Watching (Traffic)

/-! ## The views that can stand on each other -/

/-- A view and what waits below it. -/
inductive Stacked : View → List View → Prop where
  | bottom {v : View} (hparent : v.target.parent = none) (hkind : v.target.kind ≠ .containers) :
      Stacked v []
  | onTop {v lower : View} {key : String} (hparent : lower.target.parent = none)
      (hkey : Leads lower.target.kind key v.target) : Stacked v [lower]

section Stacked

variable {c : Console} {v v' : View} {history : List View} {key : String}
  {target : Target}

theorem Stacked.of_target (h : Stacked v history) (htarget : v'.target = v.target) :
    Stacked v' history := by
  cases h with
  | bottom hparent hkind => exact .bottom (htarget ▸ hparent) (htarget ▸ hkind)
  | onTop hparent hkey => exact .onTop hparent (htarget ▸ hkey)

/-- The rows of a view that stands on another one lead nowhere. -/
theorem Stacked.bottom_of_leads (h : Stacked v history)
    (hkey : Leads v.target.kind key target) : history = [] ∧ v.target.parent = none := by
  cases h with
  | bottom hparent => exact ⟨rfl, hparent⟩
  | onTop _ hbelow => exact absurd hkey hbelow.ends

theorem Stacked.turn (h : Stacked c.view c.history) (hturn : Turned c v history) :
    Stacked v history := by
  cases hturn with
  | switched hkind => exact .bottom rfl hkind
  | deeper _ hkey =>
      obtain ⟨hhistory, hparent⟩ := h.bottom_of_leads hkey
      rw [hhistory]
      exact .onTop hparent hkey
  | back hback =>
      rw [hback] at h
      cases h with
      | onTop hparent hkey =>
          refine .bottom hparent ?_
          intro hkind
          rw [hkind] at hkey
          cases hkey

theorem Stacked.accepts (h : Stacked v history) (hpolled : v.target.kind.polled = true) :
    Cluster.Gateway.Accepts v.target := by
  refine (Cluster.Gateway.accepts_iff _).2 ⟨hpolled, ?_⟩
  intro hcontainers
  cases h with
  | bottom _ hkind => exact absurd hcontainers hkind
  | onTop _ hkey =>
      rw [hkey.parent_eq]
      rfl

theorem Turned.sortsInside (h : Turned c v history)
    (hsorted : ∀ v ∈ c.view :: c.history, v.SortsInside) :
    ∀ v' ∈ v :: history, v'.SortsInside := by
  cases h with
  | switched =>
      intro v' hv'
      obtain rfl := List.mem_singleton.1 hv'
      exact sortsInside_opened _
  | deeper =>
      intro v' hv'
      rcases List.mem_cons.1 hv' with rfl | hv'
      · exact sortsInside_opened _
      · exact hsorted v' hv'
  | back hback =>
      intro v' hv'
      exact hsorted v' (List.mem_cons_of_mem _ (hback ▸ hv'))

end Stacked

namespace Desk

variable {d d₀ : Desk} {c : Console} {s : Surroundings} {acts before : List Act}
  {lower : View} {p : Console × Option Command}

/-! ## What every act keeps -/

structure Orderly (d : Desk) : Prop where
  stacked : Stacked d.console.view d.console.history
  sorted : ∀ v ∈ d.console.view :: d.console.history, v.SortsInside
  idle : d.console.errands = []
  asked : ∀ target generation, .asked (.watch target generation) ∈ d.log →
    target.kind.polled = true → Cluster.Gateway.Accepts target
  watched : ∀ x ∈ d.watchers, Cluster.Gateway.Accepts x.watcher.target

/-- Nothing but the console has changed, and it stands where it stood. -/
theorem Orderly.with_console (h : d.Orderly) (hc : c.standing = d.console.standing)
    (herrands : c.errands = d.console.errands) : Orderly { d with console := c } := by
  simp only [standing, Prod.mk.injEq] at hc
  obtain ⟨hview, hhistory, -⟩ := hc
  refine ⟨?_, ?_, herrands.trans h.idle, h.asked, h.watched⟩
  · rw [hview, hhistory]
    exact h.stacked
  · rw [hview, hhistory]
    exact h.sorted

theorem Orderly.hears (h : d.Orderly) {l : Letter} (queue : List Letter) :
    Orderly { d with queue := queue, log := .heard l :: d.log } := by
  refine ⟨h.stacked, h.sorted, h.idle, ?_, h.watched⟩
  intro target generation hmem
  rcases List.mem_cons.1 hmem with heq | hmem
  · cases heq
  · exact h.asked target generation hmem

theorem Orderly.watches (h : d.Orderly) {k : Nat} {x : Traffic Nat} {a : Traffic.Act Nat}
    (hx : d.watchers[k]? = some x) (ha : a.own = true) (queue : List Letter) :
    Orderly { d with watchers := d.watchers.set k (x.act a), queue := queue } := by
  refine ⟨h.stacked, h.sorted, h.idle, h.asked, ?_⟩
  intro y hy
  rcases List.mem_or_eq_of_mem_set hy with hy | rfl
  · exact h.watched y hy
  · rw [show (x.act a).watcher.target = x.watcher.target from
      congrArg Prod.fst (x.settings_act ha)]
    exact h.watched x (List.mem_of_getElem? hx)

theorem errands_hear (c : Console) (s : Surroundings) (news : Background.News) :
    (c.hear s news).errands = c.errands := by
  obtain ⟨table, error, registry, runner, h⟩ := bearing_hear c s news
  exact congrArg Bearing.errands h

theorem errands_hydrate (c : Console) (s : Surroundings) :
    (c.hydrate s).errands = c.errands :=
  congrArg Bearing.errands (bearing_hydrate c s)

/-- The watcher of a view that is opened is one that the gateway accepts. -/
theorem Orderly.watch (h : d.Orderly)
    (hnew : Stacked c.view c.history) (hsorted : ∀ v ∈ c.view :: c.history, v.SortsInside)
    (hidle : c.errands = []) :
    Orderly (({ d with console := c } : Desk).carryOut (.watch c.view.target c.generation)) := by
  refine ⟨hnew, hsorted, hidle, ?_, ?_⟩
  · intro target generation hmem hpolled
    rcases List.mem_cons.1 hmem with heq | hmem
    · cases heq
      exact hnew.accepts hpolled
    · exact h.asked target generation hmem hpolled
  · cases hpolled : c.view.target.kind.polled with
    | true =>
        obtain ⟨o, ho, -, hwatchers⟩ := watch_of_polled { d with console := c } c.view.target
          c.generation hpolled
        rw [hwatchers]
        intro x hx
        rcases List.mem_append.1 hx with hx | hx
        · exact h.watched x hx
        · obtain rfl := List.mem_singleton.1 hx
          rw [ho]
          exact hnew.accepts hpolled
    | false =>
        obtain ⟨-, hwatchers⟩ := watch_of_local { d with console := c } c.view.target
          c.generation hpolled
        rw [hwatchers]
        exact h.watched

/-- A command that opens no view leaves every watcher with its target. -/
theorem Orderly.attend (h : d.Orderly) {command : Option Command}
    (htarget : c.view.target = d.console.view.target) (hhistory : c.history = d.console.history)
    (hsort : c.view.SortsInside) (hcommand : ∀ x, command = some x → x.opens = false) :
    Orderly (d.follow (c, command)) := by
  obtain ⟨hconsole, -, hwatchers, -⟩ := d.follow_of_not_opens c command hcommand
  refine ⟨?_, ?_, ?_, ?_, ?_⟩
  · rw [hconsole]
    exact hhistory ▸ h.stacked.of_target htarget
  · rw [hconsole]
    intro v hv
    rcases List.mem_cons.1 hv with rfl | hv
    · exact hsort
    · exact h.sorted v (List.mem_cons_of_mem _ (hhistory ▸ hv))
  · rw [hconsole]
  · intro target generation hmem
    cases command with
    | none => exact h.asked target generation hmem
    | some x =>
        rcases List.mem_cons.1 hmem with heq | hmem
        · obtain rfl := Turn.asked.inj heq
          cases hcommand _ rfl
        · exact h.asked target generation hmem
  · intro x' hx'
    obtain ⟨k, hk⟩ := List.getElem?_of_mem hx'
    obtain ⟨x, hx, hrecord⟩ := exists_of_map_record hwatchers hk
    rw [show x'.watcher.target = x.watcher.target from congrArg Prod.fst hrecord]
    exact h.watched x (List.mem_of_getElem? hx)

theorem standing_follow (d : Desk) (c : Console) (s : Surroundings) :
    (d.follow (c.watchCurrent s)).console.standing = (c.view, c.history, c.generation + 1) := by
  rw [(console_follow _ _).1]
  exact standing_watchCurrent c s

theorem Orderly.follow (h : d.Orderly)
    (hkind : d.console.table.kind = d.console.view.target.kind) (hp : Passage s d.console p) :
    (d.follow p).Orderly := by
  cases hp with
  | stays htarget hhistory _ hsort hcommand =>
      exact h.attend htarget hhistory (hsort hkind (h.sorted _ List.mem_cons_self)) hcommand
  | @turned c₀ v history hturn hstanding =>
      have hopened := standing_watchCurrent c₀ s
      simp only [standing, Prod.mk.injEq] at hstanding hopened
      obtain ⟨rfl, rfl, -⟩ := hstanding
      obtain ⟨hview, hhistory, -⟩ := hopened
      rw [follow_watchCurrent]
      refine h.watch ?_ ?_ rfl
      · simp only [hview, hhistory]
        exact h.stacked.turn hturn
      · simp only [hview, hhistory]
        exact hturn.sortsInside h.sorted

theorem Orderly.act (h : d.Orderly)
    (hkind : d.console.table.kind = d.console.view.target.kind) (a : Act) :
    (d.act a).Orderly := by
  cases a with
  | act a => exact h.follow hkind (act_passage d.console d.surroundings a)
  | watcher k a =>
      simp only [Desk.act, Desk.watch]
      split
      · split
        · exact h.watches ‹_› ‹_› _
        · exact h
      · exact h
  | hear =>
      simp only [Desk.act, Desk.hear]
      split
      · exact (h.with_console (standing_hear _ _ _) (errands_hear _ _ _)).hears _
      · exact h
  | learn news =>
      simp only [Desk.act, Desk.learn]
      split
      · exact h
      · exact h.with_console (standing_hear _ _ _) (errands_hear _ _ _)
  | tick => exact h.with_console (standing_hydrate _ _) (errands_hydrate _ _)
  | warn text => exact h.with_console rfl rfl
  | outside s => exact ⟨h.stacked, h.sorted, h.idle, h.asked, h.watched⟩

theorem Orderly.run (h : d.Orderly) (hown : d.Own) (hposted : d.Posted) (hview : d.Attended)
    (acts : List Act) : (d.run acts).Orderly := by
  induction acts generalizing d with
  | nil => exact h
  | cons a acts ih =>
      have hstep := d.step_act a
      exact ih (h.act hown.kind a) (hown.step hposted hview hstep) (hposted.step hstep)
        (hview.step hstep)

theorem orderly_opening (s : Surroundings) (home cluster context : String) (scope : Scope)
    {kind : Kind} (hkind : kind ≠ .containers) (interval : Nat) :
    (opening s home cluster context scope kind interval).Orderly ∧
      (opening s home cluster context scope kind interval).console.history = [] := by
  obtain ⟨r, hstart, -⟩ := bearing_start s home cluster context scope kind
  have hstanding := congrArg Prod.fst (poise_start s home cluster context scope kind)
  simp only [opening]
  generalize Console.start s home cluster context scope kind = c at hstart hstanding
  simp only [poise, standing, Prod.mk.injEq] at hstanding
  obtain ⟨hview, hhistory, -⟩ := hstanding
  have hempty : Orderly ⟨s, c, LiveView.idle interval, [], [], []⟩ := by
    refine ⟨?_, ?_, (congrArg Bearing.errands hstart :), ?_, ?_⟩
    · rw [hview, hhistory]
      exact .bottom rfl hkind
    · rw [hview, hhistory]
      intro v hv
      obtain rfl := List.mem_singleton.1 hv
      exact sortsInside_opened _
    · intro target generation hmem
      cases hmem
    · intro x hx
      cases hx
  have hturn : Turned c c.view c.history := by
    rw [hview, hhistory]
    exact .switched hkind
  have hpassage : Passage s c (c.watchCurrent s) := .turned hturn rfl
  have htable : c.table.kind = c.view.target.kind := by
    rw [show c.table = Table.empty kind scope from congrArg Bearing.table hstart, hview]
    rfl
  refine ⟨hempty.follow htable hpassage, ?_⟩
  have hafter := standing_follow ⟨s, c, LiveView.idle interval, [], [], []⟩ c s
  simp only [standing, Prod.mk.injEq] at hafter
  exact hafter.2.1.trans hhistory

/-! ## The view below -/

/-- After the acts `before` the operator left the view below for the present one, which was
opened from the row that was selected there; no other view was opened since. -/
structure Left (d₀ : Desk) (acts before : List Act) (lower : View) : Prop where
  earlier : ∃ a since, acts = before ++ .act a :: since
  view : (d₀.run before).console.view = lower
  history : (d₀.run before).console.history = []
  row : ∃ row, (d₀.run before).console.selectedRow? = some row ∧
    Leads lower.target.kind row.fqn (d₀.run acts).console.view.target
  generation : (d₀.run before).console.generation + 1 = (d₀.run acts).console.generation

theorem Left.concat (h : Left d₀ acts before lower) (a : Act)
    (htarget : (d₀.run (acts ++ [a])).console.view.target = (d₀.run acts).console.view.target)
    (hgeneration : (d₀.run (acts ++ [a])).console.generation =
      (d₀.run acts).console.generation) : Left d₀ (acts ++ [a]) before lower := by
  obtain ⟨b, since, hacts⟩ := h.earlier
  refine ⟨⟨b, since ++ [a], ?_⟩, h.view, h.history, ?_, h.generation.trans hgeneration.symm⟩
  · rw [hacts, List.append_assoc]
    rfl
  · rw [htarget]
    exact h.row

/-- What is not the operator's does not move the view. -/
theorem standing_act {a : Act} (ha : a.action? = none) (d : Desk) :
    (d.act a).console.standing = d.console.standing := by
  cases a with
  | act a => cases ha
  | watcher k a =>
      simp only [act, watch]
      split
      · split <;> rfl
      · rfl
  | hear =>
      simp only [act, hear]
      split
      · exact standing_hear _ _ _
      · rfl
  | learn news =>
      simp only [act, learn]
      split
      · rfl
      · exact standing_hear _ _ _
  | tick => exact standing_hydrate _ _
  | warn | outside => rfl

/-- Every view that waits was left by an act of the operator. -/
def Remembered (d₀ : Desk) (acts : List Act) : Prop :=
  ∀ lower ∈ (d₀.run acts).console.history, ∃ before, Left d₀ acts before lower

theorem Remembered.stay (h : Remembered d₀ acts) (a : Act)
    (htarget : (d₀.run (acts ++ [a])).console.view.target = (d₀.run acts).console.view.target)
    (hhistory : (d₀.run (acts ++ [a])).console.history = (d₀.run acts).console.history)
    (hgeneration : (d₀.run (acts ++ [a])).console.generation =
      (d₀.run acts).console.generation) : Remembered d₀ (acts ++ [a]) := by
  intro lower hlower
  rw [hhistory] at hlower
  obtain ⟨before, hleft⟩ := h lower hlower
  exact ⟨before, hleft.concat a htarget hgeneration⟩

theorem Remembered.rest (h : Remembered d₀ acts) {a : Act} (ha : a.action? = none) :
    Remembered d₀ (acts ++ [a]) := by
  have hsame := standing_act ha (d₀.run acts)
  rw [← run_concat] at hsame
  simp only [standing, Prod.mk.injEq] at hsame
  obtain ⟨hview, hhistory, hgeneration⟩ := hsame
  exact h.stay a (congrArg View.target hview) hhistory hgeneration

/-- If a view waits after another one was opened, it is the one that was left just now. -/
theorem remembered_turn {a : Action} {v : View} {below : List View}
    (hstacked : Stacked (d₀.run acts).console.view (d₀.run acts).console.history)
    (hturn : Turned (d₀.run acts).console v below)
    (hafter : (d₀.run (acts ++ [.act a])).console.standing =
      (v, below, (d₀.run acts).console.generation + 1)) :
    Remembered d₀ (acts ++ [.act a]) := by
  simp only [standing, Prod.mk.injEq] at hafter
  obtain ⟨hview, hbelow, hgeneration⟩ := hafter
  intro lower hlower
  rw [hbelow] at hlower
  cases hturn with
  | switched => cases hlower
  | @deeper row target hrow hleads =>
      obtain ⟨hbottom, -⟩ := hstacked.bottom_of_leads hleads
      rw [hbottom, List.mem_singleton] at hlower
      subst hlower
      refine ⟨acts, ⟨a, [], rfl⟩, rfl, hbottom, ⟨row, hrow, ?_⟩, hgeneration.symm⟩
      rw [hview]
      exact hleads
  | back hback =>
      rw [hback] at hstacked
      cases hstacked with
      | onTop => cases hlower

theorem Remembered.follow (h : Remembered d₀ acts)
    (hstacked : Stacked (d₀.run acts).console.view (d₀.run acts).console.history) (a : Action) :
    Remembered d₀ (acts ++ [.act a]) := by
  have hpassage := act_passage (d₀.run acts).console (d₀.run acts).surroundings a
  have hrun : d₀.run (acts ++ [.act a]) = (d₀.run acts).follow
      ((d₀.run acts).console.act (d₀.run acts).surroundings a) := run_concat d₀ acts _
  generalize (d₀.run acts).console.act (d₀.run acts).surroundings a = p at hpassage hrun
  cases hpassage with
  | @stays c command htarget hhistory hgeneration =>
      have hconsole : (d₀.run (acts ++ [.act a])).console = { c with errands := [] } := by
        rw [hrun]
        exact (console_follow _ _).1
      apply h.stay
      · rw [hconsole]
        exact htarget
      · rw [hconsole]
        exact hhistory
      · rw [hconsole]
        exact hgeneration
  | @turned c₀ v below hturn hstanding =>
      have hafter := standing_follow (d₀.run acts) c₀ (d₀.run acts).surroundings
      simp only [standing, Prod.mk.injEq] at hstanding
      obtain ⟨rfl, rfl, hgeneration⟩ := hstanding
      rw [← hrun, hgeneration] at hafter
      exact remembered_turn hstacked hturn hafter

theorem remembered_run (hstacked : ∀ acts,
      Stacked (d₀.run acts).console.view (d₀.run acts).console.history)
    (hfirst : d₀.console.history = []) (acts : List Act) : Remembered d₀ acts := by
  -- from the end, as the last act tells whether another view was opened
  induction acts using List.reverseRecOn with
  | nil =>
      intro lower hlower
      rw [show (d₀.run []).console.history = [] from hfirst] at hlower
      cases hlower
  | append_singleton acts a ih =>
      cases a with
      | act a => exact ih.follow (hstacked acts) a
      | _ => exact ih.rest rfl

/-! ## Back -/

theorem back_restores (hmode : d.console.mode ≠ .confirm) {rest : List View}
    (hhistory : d.console.history = lower :: rest) :
    (d.act (.act .back)).console.standing = (lower, rest, d.console.generation + 1) := by
  have hback : d.console.act d.surroundings .back = d.console.goBack d.surroundings :=
    if_neg hmode
  rw [Desk.act, hback, goBack_of_cons hhistory, standing_follow]

theorem back_waits (hmode : d.console.mode = .confirm) (hidle : d.console.errands = []) :
    d.act (.act .back) = d := by
  have hsame : ({ d.console with errands := [] } : Console) = d.console := by rw [← hidle]
  rw [Desk.act, act_of_confirm hmode]
  simp only [Desk.follow, answer, hsame]
  rfl

/-! ## Navigation stays well formed -/

structure Navigable (d₀ : Desk) (acts : List Act) : Prop where
  stacked : Stacked (d₀.run acts).console.view (d₀.run acts).console.history
  left : Remembered d₀ acts
  /-- The view below comes back as it was left. -/
  restores : ∀ lower, (d₀.run acts).console.history = [lower] →
    (d₀.run acts).console.mode ≠ .confirm →
      (d₀.run (acts ++ [.act .back])).console.view = lower ∧
      (d₀.run (acts ++ [.act .back])).console.history = [] ∧
      (d₀.run acts).console.generation < (d₀.run (acts ++ [.act .back])).console.generation
  /-- While a question is open going back is not an answer to it. -/
  waits : (d₀.run acts).console.mode = .confirm → d₀.run (acts ++ [.act .back]) = d₀.run acts
  sorted : (d₀.run acts).console.view.sort.index <
    (d₀.run acts).console.view.target.kind.header.length
  /-- What is asked for is the console's own or what the gateway accepts. -/
  asked : ∀ target generation, .asked (.watch target generation) ∈ (d₀.run acts).log →
    target.kind.polled = false ∨ Cluster.Gateway.Accepts target
  watched : ∀ x ∈ (d₀.run acts).watchers, Cluster.Gateway.Accepts x.watcher.target

/-- Whatever the operator does and whatever is heard, going deeper can be undone, and no
view is opened that the gateway would give back unasked. -/
theorem navigation_is_well_formed (s : Surroundings) (home cluster context : String)
    (scope : Scope) (preferences : Launch.Preferences) (interval : Nat) (acts : List Act) :
    Navigable (opening s home cluster context scope preferences.startView interval) acts := by
  have hkind := preferences.startView_ne_containers
  generalize preferences.startView = kind at hkind
  have hattended := attended_opening s home cluster context scope kind interval
  have hposted := posted_opening s home cluster context scope kind interval
  have hown := own_opening s home cluster context scope kind interval
  obtain ⟨horderly, hfirst⟩ := orderly_opening s home cluster context scope hkind interval
  generalize opening s home cluster context scope kind interval = d₀ at *
  have hafter := horderly.run hown hposted hattended acts
  constructor
  · exact hafter.stacked
  · have hstacked (acts : List Act) := (horderly.run hown hposted hattended acts).stacked
    exact remembered_run hstacked hfirst acts
  · intro lower hhistory hmode
    have hback := back_restores hmode hhistory
    rw [← run_concat] at hback
    simp only [standing, Prod.mk.injEq] at hback
    obtain ⟨hview, hbelow, hgeneration⟩ := hback
    exact ⟨hview, hbelow, by omega⟩
  · intro hmode
    rw [run_concat]
    exact back_waits hmode hafter.idle
  · exact hafter.sorted _ List.mem_cons_self
  · intro target generation hmem
    cases hpolled : target.kind.polled with
    | false => exact .inl rfl
    | true => exact .inr (hafter.asked target generation hmem hpolled)
  · exact hafter.watched

/-- The operator has gone from the pods to the containers of one and is asked about a
forward. -/
def askedAboutForward : Desk :=
  (opening default "/home/me" "kind" "kind" (.named "default")
    Launch.Preferences.unset.startView 2000).run (forwardAndLook.take 10)

theorem back_waits_while_asked :
    askedAboutForward.console.history.map View.target = [.all .pods] ∧
      (askedAboutForward.act (.act .back)).console.view.target = .containersOf "default/web" ∧
      (askedAboutForward.act (.act .back)).console.generation =
        askedAboutForward.console.generation := by
  decide +kernel

end Desk

end Console

end ClusterConsole
