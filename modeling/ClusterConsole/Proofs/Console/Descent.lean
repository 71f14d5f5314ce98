import ClusterConsole.Proofs.Console.Consent
import ClusterConsole.Proofs.Console.Letters
import ClusterConsole.Proofs.Console.Passage
import ClusterConsole.Proofs.Resource.Label

/-!
# Opening a namespace

The name of a namespace that is opened from its row is read like a word that the operator
types, so `all`, which is a name as good as any, is taken for all namespaces. Every other
name is read as itself (`Scope.ofWord_of_isLabel`), and the watcher that is started for the
pods keeps to it: a watcher whose scope is not set anew hands out rows of that scope only
(`Traffic.Within`), and its scope is set anew by a command alone (`Desk.Keeps`).
-/

namespace ClusterConsole

open ClusterConsole.Resource ClusterConsole.Snapshot

/-! ## A watcher that keeps its scope -/

namespace Watching

/-- The scope in which the call fetches. -/
def Standing.scope? : Standing → Option Scope
  | .fetching scope _ | .answered scope _ | .served scope _ => some scope
  | .turnedAway | .calledOff => none

namespace Traffic

variable {L : Type} {x y : Traffic L} {kind : Kind} {scope : Scope}

/-- What was handed out is of that kind and in that scope, as far as it is there, and so
will be what is under way. -/
structure Within (kind : Kind) (scope : Scope) (x : Traffic L) : Prop where
  target : x.watcher.target.kind = kind
  setting : x.watcher.scope = scope
  calls : ∀ c ∈ x.calls, ∀ own, c.standing.scope? = some own → own = scope
  handed : ∀ r ∈ x.rounds, ∀ p ∈ r.handed, ∀ t, p.2 = .table t →
    ∀ e ∈ t.entries, e.present = true → Table.inScope kind scope e.fqn = true

theorem Within.start (w : Watcher L) : (start w).Within w.target.kind w.scope :=
  ⟨rfl, rfl, fun _ hc => (nomatch hc), fun _ hr => (nomatch hr)⟩

theorem Within.conclude (hkind : x.watcher.target.kind = kind) (fetched : Fetched) :
    ∀ p ∈ (x.watcher.conclude scope fetched).2, ∀ t, p.2 = .table t →
      ∀ e ∈ t.entries, e.present = true → Table.inScope kind scope e.fqn = true := by
  intro p hp t ht e he hpresent
  cases fetched with
  | ok rows =>
      obtain ⟨l, -, rfl⟩ := List.mem_map.1 hp
      injection ht with ht
      subst ht
      exact hkind ▸ Table.inScope_of_mem_advance he hpresent
  | error chain =>
      obtain ⟨l, -, rfl⟩ := List.mem_map.1 hp
      cases ht

/-- Unless the scope is set anew, nothing comes to be fetched or handed out in another. -/
theorem Within.step (h : x.Within kind scope) (hstep : Step x y)
    (hscope : y.watcher.scope = x.watcher.scope) : y.Within kind scope := by
  have hset {k : Nat} {c : Call} (hc : ∀ own, c.standing.scope? = some own → own = scope) :
      ∀ d ∈ x.calls.set k c, ∀ own, d.standing.scope? = some own → own = scope := by
    intro d hd
    rcases List.mem_or_eq_of_mem_set hd with hmem | rfl
    · exact h.calls d hmem
    · exact hc
  have hconcat {c : Call} (hc : ∀ own, c.standing.scope? = some own → own = scope) :
      ∀ d ∈ x.calls ++ [c], ∀ own, d.standing.scope? = some own → own = scope := by
    intro d hd
    rcases List.mem_append.1 hd with hmem | hlast
    · exact h.calls d hmem
    · exact List.mem_singleton.1 hlast ▸ hc
  cases hstep with
  | aside w now calledOff htarget =>
      exact ⟨htarget ▸ h.target, hscope.trans h.setting, h.calls, h.handed⟩
  | turnsAway => exact ⟨h.target, h.setting, hconcat nofun, h.handed⟩
  | begins =>
      refine ⟨h.target, h.setting, hconcat fun own hown => ?_, h.handed⟩
      exact Option.some.inj hown ▸ h.setting
  | answers k token own since fetched hcall =>
      have hown : own = scope := h.calls _ (List.mem_of_getElem? hcall) own rfl
      exact ⟨h.target, h.setting, hset fun _ hsome => Option.some.inj hsome ▸ hown, h.handed⟩
  | breaksOff => exact ⟨h.target, h.setting, hset nofun, h.handed⟩
  | serves k token own fetched hcall =>
      obtain rfl : own = scope := h.calls _ (List.mem_of_getElem? hcall) own rfl
      have htarget : (x.serve k token own fetched).watcher.target = x.watcher.target := by
        cases fetched <;> rfl
      refine ⟨htarget ▸ h.target, hscope.trans h.setting, hset fun _ hsome => ?_, ?_⟩
      · exact (Option.some.inj hsome).symm
      · intro r hr
        rcases List.mem_append.1 hr with hmem | hlast
        · exact h.handed r hmem
        · obtain rfl := List.mem_singleton.1 hlast
          exact Within.conclude h.target fetched

end Traffic

end Watching

namespace Console

open ClusterConsole.Background (Surroundings)
open ClusterConsole.Watching (Traffic)

/-! ## Views that put questions -/

variable {c c' : Console} {s : Surroundings} {p : Console × Option Command} {a : Action}

/-- A question is open only in the views that put questions. -/
def Fitting (c : Console) : Prop :=
  c.mode = .confirm → c.view.target.kind = .containers ∨ c.view.target.kind = .forwards

theorem fitting_of_idle (h : c.bearing.asking = false) : c.Fitting := by
  intro hc
  rw [← asking_eq_true_iff, h] at hc
  cases hc

theorem Fitting.congr (h : c.Fitting) (hmatter : c'.bearing.matter = c.bearing.matter)
    (htarget : c'.view.target = c.view.target) : c'.Fitting := by
  intro hc
  rw [← asking_eq_true_iff] at hc
  rw [htarget]
  exact h (asking_eq_true_iff.1 ((congrArg Prod.snd hmatter).symm.trans hc))

theorem Outcome.fitting (h : Outcome s c p) (hidle : c.bearing.asking = false) :
    p.1.Fitting := by
  cases h with
  | still h | refresh h | paced _ h | rescoped _ h | benchmark _ h | cancel h =>
      exact fitting_of_idle ((congrArg Bearing.asking h).trans hidle)
  | opened c₀ h =>
      have hsame : c₀.bearing.asking = c.bearing.asking := congrArg (fun p => p.2.2.1) h
      exact fitting_of_idle
        ((congrArg Prod.snd (matter_watchCurrent c₀ s)).trans (hsame.trans hidle))
  | @drawn c₀ h =>
      have hsame : c₀.bearing.asking = c.bearing.asking := congrArg Bearing.asking h
      exact fitting_of_idle ((congrArg Prod.snd (matter_hydrate c₀ s)).trans (hsame.trans hidle))
  | @asked c' i hi h =>
      have htarget : c'.view.target = c.view.target := congrArg Bearing.target h
      intro _
      rw [htarget]
      cases hi with
      | forward _ hkind => exact .inl hkind
      | delete hkind => exact .inr hkind

theorem Reply.fitting (h : Reply s c a c') (hc : c.Fitting) : c'.Fitting := by
  have hmatter := h.matter
  split at hmatter
  · exact fitting_of_idle (congrArg Prod.snd hmatter)
  · exact hc.congr hmatter (congrArg (fun p => p.2.1) h.stance)

theorem Fitting.act (h : c.Fitting) (s : Surroundings) (a : Action) : (c.act s a).1.Fitting := by
  by_cases hc : c.mode = .confirm
  · rw [act_of_confirm hc]
    exact (answer_reply c s a).fitting h
  · exact (act_outcome s a hc).fitting (decide_eq_false hc)

/-- Entering the row of a namespace sets the scope and opens the view of pods at once. -/
theorem act_enter_of_namespaces (s : Surroundings) (hc : c.mode ≠ .confirm)
    (hkind : c.view.target.kind = .namespaces) {row : Entry} (hrow : c.selectedRow? = some row) :
    c.act s .enter = { (c.setScope (row.field 0)).1 with
      history := [], view := View.opened (.all .pods) }.watchCurrent s := by
  rw [act, if_neg hc]
  simp only [drillDown, hrow, hkind]
  rfl

namespace Desk

variable {d d' : Desk} {label : Option Action}

theorem fitting_step (h : d.console.Fitting) (hstep : Step d label d') : d'.console.Fitting := by
  cases hstep with
  | still | watches | outside => exact h
  | acts a =>
      rw [(d.console_follow _).1]
      exact h.act d.surroundings a
  | hears =>
      exact h.congr (matter_hear _ _ _) (congrArg (fun p => p.2.1) (stance_hear _ _ _))
  | learns hlearnt => exact h.congr hlearnt.matter (congrArg (fun p => p.2.1) hlearnt.stance)
  | draws => exact h.congr (matter_hydrate _ _) (congrArg (fun p => p.2.1) (stance_hydrate _ _))
  | warns => exact h

theorem fitting_run (h : d.console.Fitting) (acts : List Act) :
    (d.run acts).console.Fitting := by
  induction acts generalizing d with
  | nil => exact h
  | cons a acts ih => exact ih (fitting_step h (d.step_act a))

theorem fitting_opening (s : Surroundings) (home cluster context : String) (scope : Scope)
    (kind : Kind) (interval : Nat) :
    (opening s home cluster context scope kind interval).console.Fitting := by
  obtain ⟨r, hstart, -⟩ := bearing_start s home cluster context scope kind
  simp only [opening]
  generalize Console.start s home cluster context scope kind = c at hstart
  have hidle : c.bearing.asking = false := congrArg Bearing.asking hstart
  rw [(console_follow _ _).1]
  exact fitting_of_idle ((congrArg Prod.snd (matter_watchCurrent c s)).trans hidle)

end Desk

/-! ## Commands that set the scope -/

/-- Whether the scope was set by a command. -/
def Turn.rescopes : Turn → Bool
  | .asked (.setScope _) => true
  | _ => false

namespace Desk

variable {d d' : Desk} {label : Option Action} {command : Command} {k : Nat} {kind : Kind}
  {scope : Scope} {n : String}

/-- How often the scope was set by a command. -/
def rescopings (d : Desk) : Nat := d.log.countP Turn.rescopes

theorem rescopings_carryOut (d : Desk) (command : Command) :
    (d.carryOut command).rescopings =
      d.rescopings + if Turn.rescopes (.asked command) then 1 else 0 :=
  List.countP_cons

theorem rescopings_step (hstep : Step d label d') : d.rescopings ≤ d'.rescopings := by
  cases hstep with
  | acts a =>
      generalize d.console.act d.surroundings a = p
      obtain ⟨c, command⟩ := p
      cases command with
      | none => exact Nat.le_refl _
      | some command =>
          change d.rescopings ≤
            (({ d with console := { c with errands := [] } } : Desk).carryOut command).rescopings
          rw [rescopings_carryOut]
          exact Nat.le_add_right _ _
  | hears => exact Nat.le_of_eq (List.countP_cons_of_neg Bool.false_ne_true).symm
  | _ => exact Nat.le_refl _

theorem rescopings_run (d : Desk) (acts : List Act) : d.rescopings ≤ (d.run acts).rescopings := by
  induction acts generalizing d with
  | nil => exact Nat.le_refl _
  | cons a acts ih => exact (rescopings_step (d.step_act a)).trans (ih (d.act a))

/-- The watcher at that place keeps to the scope. -/
def Keeps (d : Desk) (k : Nat) (kind : Kind) (scope : Scope) : Prop :=
  ∃ x, d.watchers[k]? = some x ∧ x.Within kind scope

theorem Keeps.modify (h : d.Keeps k kind scope) {live : LiveView} {log : List Turn} (i : Nat)
    (a : Traffic.Act Nat) (ha : ∀ x : Traffic Nat, (x.act a).watcher.scope = x.watcher.scope) :
    Keeps { d with
      live := live
      watchers := d.watchers.modify i fun x => x.after [a]
      log := log } k kind scope := by
  obtain ⟨x, hx, hwithin⟩ := h
  by_cases hi : i = k
  · exact ⟨x.act a, by simp [hi, hx], hwithin.step (x.step_act a) (ha x)⟩
  · exact ⟨x, by simp [hi, hx], hwithin⟩

theorem Keeps.carryOut (h : d.Keeps k kind scope)
    (hcommand : Turn.rescopes (.asked command) = false) :
    (d.carryOut command).Keeps k kind scope := by
  cases command with
  | watch target generation =>
      obtain ⟨x, hx, hwithin⟩ := h
      refine ⟨x, ?_, hwithin⟩
      cases hpolled : target.kind.polled with
      | true =>
          obtain ⟨o, -, -, hwatchers⟩ := d.watch_of_polled target generation hpolled
          rw [hwatchers, List.getElem?_append_left (List.getElem?_eq_some_iff.1 hx).1, hx]
      | false =>
          rw [(d.watch_of_local target generation hpolled).2, hx]
  | setScope scope => cases hcommand
  | setInterval ms =>
      simp only [Desk.carryOut, LiveView.apply]
      cases LiveView.order? { d.live with interval := ms } with
      | none => exact h
      | some o => exact h.modify _ (.setRate ms) fun _ => rfl
  | refresh =>
      simp only [Desk.carryOut, LiveView.apply]
      cases d.live.order? with
      | none => exact h
      | some o => exact h.modify _ .nudge fun _ => rfl

theorem Keeps.step (h : d.Keeps k kind scope) (hstep : Step d label d')
    (hsame : d'.rescopings = d.rescopings) : d'.Keeps k kind scope := by
  cases hstep with
  | acts a =>
      generalize d.console.act d.surroundings a = p at hsame
      obtain ⟨c, command⟩ := p
      cases command with
      | none => exact h
      | some command =>
          have hopened : Keeps { d with console := { c with errands := [] } } k kind scope := h
          apply hopened.carryOut
          have hcount := (rescopings_carryOut { d with console := { c with errands := [] } }
            command).symm.trans hsame
          cases hcommand : Turn.rescopes (.asked command) with
          | false => rfl
          | true => rw [hcommand] at hcount; exact absurd hcount (Nat.succ_ne_self _)
  | @watches j x a hx ha =>
      obtain ⟨y, hy, hwithin⟩ := h
      by_cases hj : j = k
      · subst hj
        obtain rfl := Option.some.inj (hx.symm.trans hy)
        have hscope := congrArg (fun p => p.2.1) (x.settings_act ha)
        exact ⟨x.act a, List.getElem?_set_self (List.getElem?_eq_some_iff.1 hx).1,
          hwithin.step (x.step_act a) hscope⟩
      · exact ⟨y, (List.getElem?_set_ne hj).trans hy, hwithin⟩
  | _ => exact h

/-- As long as no command sets the scope, the watcher keeps to it. -/
theorem Keeps.run (h : d.Keeps k kind scope) (acts : List Act)
    (hsame : (d.run acts).rescopings = d.rescopings) : (d.run acts).Keeps k kind scope := by
  induction acts generalizing d with
  | nil => exact h
  | cons a acts ih =>
      have hfirst := rescopings_step (d.step_act a)
      have hrest := rescopings_run (d.act a) acts
      have hlast : ((d.act a).run acts).rescopings = d.rescopings := hsame
      exact ih (h.step (d.step_act a) (by omega)) (by omega)

/-! ## The row of a namespace -/

/-- What has become of a desk when the namespace is opened at it. -/
structure Opens (n : String) (d d' : Desk) : Prop where
  scope : d'.console.scope = .named n
  view : d'.console.view = View.opened (.all .pods)
  asked : d'.log = .asked (.watch (.all .pods) d'.console.generation) :: d.log
  sender : d'.sender? = some d.watchers.length
  watcher : ∃ x, d'.watchers[d.watchers.length]? = some x ∧ x.watcher.target = .all .pods ∧
    x.watcher.scope = .named n ∧ x.watcher.listeners = [d'.console.generation]
  /-- Until the scope is set by another command, all pods that the new watcher hands out as
  being there are in the namespace. -/
  rows : ∀ more, (d'.run more).rescopings = d'.rescopings →
    ∃ x, (d'.run more).watchers[d.watchers.length]? = some x ∧
      ∀ r ∈ x.rounds, ∀ p ∈ r.handed, ∀ t, p.2 = .table t →
        ∀ e ∈ t.entries, e.present = true → namespaceOf e.fqn = n

/-- The watcher of the pods is started for the scope that the console has by then. -/
theorem opens_carryOut {d₁ : Desk} (hwatchers : d₁.watchers = d.watchers) (hlog : d₁.log = d.log)
    (hview : d₁.console.view = View.opened (.all .pods)) (hscope : d₁.console.scope = .named n) :
    Opens n d (d₁.carryOut (.watch (.all .pods) d₁.console.generation)) := by
  obtain ⟨o, ho, horder, hstarted⟩ := d₁.watch_of_polled (.all .pods) d₁.console.generation rfl
  have htarget : o.target = .all .pods := by rw [ho]
  have hown : o.scope = .named n := by rw [ho]; exact hscope
  have hgeneration : o.generation = d₁.console.generation := by rw [ho]
  rw [hwatchers] at hstarted
  have hplace : (d₁.carryOut
      (.watch (.all .pods) d₁.console.generation)).watchers[d.watchers.length]? =
        some (Traffic.start (Sitting.watcherOf o)) := by
    rw [hstarted]
    exact List.getElem?_concat_length
  have hasked : (d₁.carryOut (.watch (.all .pods) d₁.console.generation)).log =
      .asked (.watch (.all .pods) d₁.console.generation) :: d.log := by
    rw [← hlog]
    rfl
  refine ⟨hscope, hview, hasked, ?_, ?_, ?_⟩
  · simp [sender?, horder, hstarted]
  · exact ⟨_, hplace, htarget, hown, congrArg (fun g => [g]) hgeneration⟩
  · intro more hsame
    have hstart := Traffic.Within.start (Sitting.watcherOf o)
    rw [show (Sitting.watcherOf o).target = .all .pods from htarget,
      show (Sitting.watcherOf o).scope = .named n from hown] at hstart
    obtain ⟨x, hx, hwithin⟩ := Keeps.run ⟨_, hplace, hstart⟩ more hsame
    refine ⟨x, hx, ?_⟩
    intro r hr p hp t ht e he hpresent
    have hin := hwithin.handed r hr p hp t ht e he hpresent
    simp only [Table.inScope, Watching.Target.all, Kind.namespaced, Bool.not_true, Bool.false_or,
      Scope.contains, beq_iff_eq] at hin
    exact hin.symm

theorem opens_watchCurrent (d : Desk) (c : Console) (s : Surroundings)
    (hview : c.view = View.opened (.all .pods)) (hscope : c.scope = .named n) :
    Opens n d (d.follow (c.watchCurrent s)) := by
  obtain ⟨r, table, hbearing⟩ := bearing_watchCurrent c s
  have hnext : (d.opened c s).console.view = View.opened (.all .pods) :=
    (congrArg Prod.fst (standing_watchCurrent c s)).trans hview
  have hnamed : (d.opened c s).console.scope = .named n :=
    (congrArg Bearing.scope hbearing).trans hscope
  rw [follow_watchCurrent, hnext]
  exact opens_carryOut rfl rfl hnext hnamed

/-- A row that is the only one is selected. -/
theorem selectedRow?_of_singleton {c : Console} {e : Entry} (h : c.table.entries = [e])
    (hfilter : c.filter = "") : c.selectedRow? = some e := by
  have hsorted : c.table.sorted c.view.sort = [e] := by
    simp only [Table.sorted, h, List.mergeSort_singleton, ite_self]
  have hmeets : e.meets "" = true := by
    rw [Entry.meets, show Text.lower (Text.trim "") = "" by decide]
    rfl
  have hvisible : c.visible = [e] := by
    simp only [visible, hsorted, hfilter, List.filter_cons, hmeets, if_true, List.filter_nil]
  simp [selectedRow?, selectedIndex?, hvisible]

/-- The one namespace that there is was fetched. -/
def beforeNamespace (n : String) : Desk :=
  (opening default "/home/me" "kind" "kind" (.named "default") .namespaces 2000).run
    [.watcher 0 (.call 1), .watcher 0 (.answer 0 (.ok [⟨n, [n, "Active", "1d"]⟩])),
      .watcher 0 (.examine 0), .hear]

/-- Whatever the operator has done before, if the row of a namespace is selected whose name
is not the word for all of them, entering it opens the pods of that namespace. -/
theorem enter_opens_namespace (s : Surroundings) (home cluster context : String) (scope : Scope)
    (kind : Kind) (interval : Nat) (acts : List Act) (row : Entry) (n : String)
    (hkind : ((opening s home cluster context scope kind interval).run
      acts).console.view.target.kind = .namespaces)
    (hrow : ((opening s home cluster context scope kind interval).run
      acts).console.selectedRow? = some row)
    (hname : row.field Kind.namespaces.nameColumn = n) (hn : IsLabel n) (hall : n ≠ "all") :
    Opens n ((opening s home cluster context scope kind interval).run acts)
      (((opening s home cluster context scope kind interval).run acts).act (.act .enter)) := by
  have hfitting := fitting_run (fitting_opening s home cluster context scope kind interval) acts
  generalize (opening s home cluster context scope kind interval).run acts = d at *
  have hmode : d.console.mode ≠ .confirm := by
    intro hc
    have hviews := hfitting hc
    rw [hkind] at hviews
    rcases hviews with h | h <;> cases h
  have hword : Scope.ofWord n = .named n := (Scope.ofWord_of_isLabel hn).trans (if_neg hall)
  have hscoped := bearing_setScope d.console n
  have hact := act_enter_of_namespaces d.surroundings hmode hkind hrow
  rw [show row.field 0 = n from hname] at hact
  rw [hword] at hscoped
  rw [Desk.act, hact]
  generalize (d.console.setScope n).1 = c at hscoped
  have hscope : c.scope = .named n := congrArg Bearing.scope hscoped
  exact opens_watchCurrent d _ d.surroundings rfl hscope

theorem enter_opens_namespace_dev :
    Opens "dev" (beforeNamespace "dev") ((beforeNamespace "dev").act (.act .enter)) := by
  have hkind : (beforeNamespace "dev").console.view.target.kind = .namespaces := by
    decide +kernel
  have hrow : (beforeNamespace "dev").console.selectedRow? =
      some (Entry.ofNew ⟨"dev", ["dev", "Active", "1d"]⟩) :=
    selectedRow?_of_singleton (by decide +kernel) (by decide +kernel)
  have hname : IsLabel "dev" :=
    ⟨by simp [IsLabelChar], by decide, by decide, by decide, by decide⟩
  exact enter_opens_namespace default "/home/me" "kind" "kind" (.named "default") .namespaces 2000 _
    _ "dev" hkind hrow rfl hname (by decide)

/-- The namespace that is called `all` is taken for all of them, and a pod of another one is
shown. -/
theorem enter_on_all_opens_every_namespace :
    IsLabel "all" ∧
      (beforeNamespace "all").console.view.target.kind = .namespaces ∧
      (beforeNamespace "all").console.selectedRow? =
        some (Entry.ofNew ⟨"all", ["all", "Active", "1d"]⟩) ∧
      ((beforeNamespace "all").act (.act .enter)).console.scope = .all ∧
      (((beforeNamespace "all").act (.act .enter)).run
        [.watcher 1 (.call 1), .watcher 1 (.answer 0 (.ok [⟨"dev/api", List.replicate 8 ""⟩])),
          .watcher 1 (.examine 0), .hear]).console.table.presentRows.map Row.fqn = ["dev/api"] ∧
      ¬ Opens "all" (beforeNamespace "all") ((beforeNamespace "all").act (.act .enter)) := by
  have hname : IsLabel "all" :=
    ⟨by simp [IsLabelChar], by decide, by decide, by decide, by decide⟩
  have hkind : (beforeNamespace "all").console.view.target.kind = .namespaces := by
    decide +kernel
  have hrow : (beforeNamespace "all").console.selectedRow? =
      some (Entry.ofNew ⟨"all", ["all", "Active", "1d"]⟩) :=
    selectedRow?_of_singleton (by decide +kernel) (by decide +kernel)
  have hact := act_enter_of_namespaces (beforeNamespace "all").surroundings
    (by decide +kernel) hkind hrow
  have hscope : ((beforeNamespace "all").act (.act .enter)).console.scope = .all := by
    rw [Desk.act, hact]
    decide +kernel
  refine ⟨hname, hkind, hrow, hscope, ?_, ?_⟩
  · rw [Desk.act, hact]
    decide +kernel
  · intro h
    cases hscope.symm.trans h.scope

end Desk

end Console

end ClusterConsole
