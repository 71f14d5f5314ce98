import ClusterConsole.Console.Hearing
import ClusterConsole.Console.Step
import ClusterConsole.Proofs.Background.Backdrop
import ClusterConsole.Proofs.Benchmark.Slot
import ClusterConsole.Proofs.Forwarding.Lookup

/-!
# What an action comes to

The `Bearing` of a console is what later actions and news depend on, apart from how the
rows are sorted, filtered and selected. While no question is open an action does one of
the things that `Outcome` lists, with all that is known when it does them; while
one is open it answers it or does nothing (`act_of_confirm`). News has its own list,
`bearing_hear`.
-/

namespace ClusterConsole.Console

open ClusterConsole.Background (News Surroundings)
open ClusterConsole.Forwarding (Mapping Registry)
open ClusterConsole.Benchmark (Runner)
open ClusterConsole.Resource ClusterConsole.Snapshot ClusterConsole.Status

structure Bearing where
  scope : Scope
  target : Target
  generation : Nat
  table : Table
  tableError : Option String
  question : Option Question
  asking : Bool
  registry : Registry
  runner : Runner
  errands : List Errand

def bearing (c : Console) : Bearing where
  scope := c.scope
  target := c.view.target
  generation := c.generation
  table := c.table
  tableError := c.tableError
  question := c.question
  asking := decide (c.mode = .confirm)
  registry := c.registry
  runner := c.runner
  errands := c.errands

/-- What opening a view leaves alone. -/
def Bearing.kept (b : Bearing) : Nat × Option Question × Bool × Registry × Runner × List Errand :=
  (b.generation, b.question, b.asking, b.registry, b.runner, b.errands)

/-- What a watcher of the view has to go by. -/
def Bearing.stance (b : Bearing) : Scope × Target × Nat := (b.scope, b.target, b.generation)

/-- What the view is and what it shows. -/
def Bearing.shown (b : Bearing) : Target × Nat × Table × Option String :=
  (b.target, b.generation, b.table, b.tableError)

/-- What the operator is asked about an intent. -/
def Intent.prompt : Intent → String
  | .forward path container m =>
      "PortForward " ++ containerKey path container ++ " localhost:" ++ toString m.localPort ++
        " -> " ++ toString m.remotePort ++ "? [y/n]"
  | .deleteForward fqn => "Delete port-forward " ++ fqn ++ "? [y/n]"

variable {c c' c₀ : Console} {s : Surroundings}

/-- When the operator is asked about an intent. -/
inductive Occasion (c : Console) : Intent → Prop where
  | forward {path : String} {row : Entry} (m : Mapping)
      (hkind : c.view.target.kind = .containers) (hparent : c.view.target.parent = some path)
      (hrow : c.selectedRow? = some row)
      (hfree : c.registry.contains (containerKey path (row.field 0)) = false)
      (hrun : Registry.ensureRunnable c.table (containerKey path (row.field 0)) = .ok ()) :
      Occasion c (.forward path (row.field 0) m)
  | delete {row : Entry} (hkind : c.view.target.kind = .forwards)
      (hrow : c.selectedRow? = some row) : Occasion c (.deleteForward row.fqn)

/-- What an action does and asks of the watcher while no question is open. -/
inductive Outcome (s : Surroundings) (c : Console) : Console × Option Command → Prop where
  | still {c' : Console} (h : c'.bearing = c.bearing) : Outcome s c (c', none)
  | refresh {c' : Console} (h : c'.bearing = c.bearing) : Outcome s c (c', some .refresh)
  | paced {c' : Console} {ms : Nat} (hms : Launch.shortestInterval ≤ ms)
      (h : c'.bearing = c.bearing) : Outcome s c (c', some (.setInterval ms))
  | rescoped {c' : Console} (word : String)
      (h : c'.bearing = { c.bearing with scope := .ofWord word }) :
      Outcome s c (c', some (.setScope (.ofWord word)))
  | opened (c₀ : Console) (h : c₀.bearing.kept = c.bearing.kept)
      (hscope : c₀.scope = c.scope ∨ ∃ word, c₀.scope = .ofWord word) :
      Outcome s c (c₀.watchCurrent s)
  | drawn {c₀ : Console} (h : c₀.bearing = c.bearing) : Outcome s c (c₀.hydrate s, none)
  | asked {c' : Console} {i : Intent} (hi : Occasion c i)
      (h : c'.bearing = { c.bearing with question := some ⟨i.prompt, i⟩, asking := true }) :
      Outcome s c (c', none)
  | benchmark {c' : Console} {target : Benchmark.Target} {r : Runner} {id : Nat}
      (hrun : c.runner.run s.time target = .ok (r, id))
      (h : c'.bearing = { c.bearing with
        runner := r, errands := c.errands ++ [.benchmark id target] }) :
      Outcome s c (c', none)
  | cancel {c' : Console} (h : c'.bearing = { c.bearing with runner := c.runner.cancel.1 }) :
      Outcome s c (c', none)

/-! ## What has no bearing -/

@[simp]
theorem bearing_flash (c : Console) (level : Level) (text : String) :
    (c.flash level text).bearing = c.bearing := rfl

@[simp]
theorem bearing_inform (c : Console) (text : String) : (c.inform text).bearing = c.bearing := rfl

theorem bearing_setScope (c : Console) (word : String) :
    (c.setScope word).1.bearing = { c.bearing with scope := .ofWord word } := by
  simp only [setScope]
  generalize Scope.ofWord word = scope
  exact bearing_inform _ _

@[simp]
theorem bearing_flash? (c : Console) (notice : Option Notice) :
    (c.flash? notice).bearing = c.bearing := by
  cases notice <;> rfl

theorem bearing_moveSelection (c : Console) (delta : Int) :
    (c.moveSelection delta).bearing = c.bearing := by
  simp only [moveSelection, select]
  split <;> rfl

theorem bearing_sortBy (c : Console) (sort : SortColumn) :
    (c.sortBy sort).bearing = c.bearing := by
  simp only [sortBy, setSort]
  split <;> rfl

theorem bearing_sortByLetter (c : Console) (letter : Char) :
    (c.sortByLetter letter).bearing = c.bearing := by
  simp only [sortByLetter]
  split
  · apply bearing_sortBy
  · rfl

theorem bearing_sortByWords (c : Console) (words : List String) :
    (c.sortByWords words).bearing = c.bearing := by
  cases words with
  | nil => exact bearing_flash c _ _
  | cons column rest =>
      simp only [sortByWords]
      split
      · exact bearing_flash c _ _
      · split
        · rfl
        · rfl
        · apply bearing_sortBy

theorem bearing_syncFilter (c : Console) : c.syncFilter.bearing = c.bearing := by
  simp only [syncFilter, setFilter]
  split <;> rfl

/-! ## Drawing the console's own rows -/

theorem localRows?_isSome (c : Console) (s : Surroundings) :
    (c.localRows? s).isSome = !c.view.target.kind.polled := by
  simp only [localRows?]
  cases c.view.target.kind <;> rfl

theorem hydrate_of_some {rows : List Row} (h : c.localRows? s = some rows) :
    c.hydrate s =
      { c with table := Table.advance c.view.target.kind .all (some c.table) rows } := by
  simp only [hydrate, h]

theorem hydrate_of_none (h : c.localRows? s = none) : c.hydrate s = c := by
  simp only [hydrate, h]

/-- Only the table is drawn anew. -/
theorem bearing_hydrate (c : Console) (s : Surroundings) :
    (c.hydrate s).bearing = { c.bearing with table := (c.hydrate s).table } := by
  cases h : c.localRows? s with
  | none => rw [hydrate_of_none h]; rfl
  | some rows => rw [hydrate_of_some h]; rfl

/-! ## Opening a view -/

/-- The console with an empty table for its view, before its own rows are drawn. -/
def blank (c : Console) : Console :=
  { c with
    generation := c.generation + 1
    tableError := none
    table := Table.empty c.view.target.kind (c.scopeFor c.view.target) }

/-- The console as its view is opened, before its own rows are drawn. -/
def unveil (c : Console) (s : Surroundings) : Console :=
  if c.view.target.kind = .forwards then
    match c.blank.reloadSettings s c.settingsPath with
    | .ok c => c
    | .error e => c.blank.flash .error e.message
  else c.blank

theorem reloadSettings_eq_ok_iff {path : String} : c.reloadSettings s path = .ok c' ↔
    ∃ r, c.runner.reload s.files path = .ok r ∧ { c with runner := r } = c' := by
  simp only [reloadSettings]
  cases c.runner.reload s.files path with
  | error e => simp [Except.map]
  | ok r => simp [Except.map]

/-- A console starts with nothing under way; the settings file is read at once. -/
theorem bearing_start (s : Surroundings) (home cluster context : String) (scope : Scope)
    (kind : Kind) : ∃ r, (start s home cluster context scope kind).bearing =
      ⟨scope, Watching.Target.all kind, 0, Table.empty kind scope, none, none, false,
        Registry.empty, r, []⟩ ∧
      (r = Runner.empty (some (Benchmark.reportsDirectory home cluster)) ∨
        (Runner.empty (some (Benchmark.reportsDirectory home cluster))).reload s.files
          (Benchmark.settingsPath home cluster) = .ok r) := by
  unfold start
  dsimp only
  split
  · rename_i hreload
    obtain ⟨r, hr, rfl⟩ := reloadSettings_eq_ok_iff.1 hreload
    exact ⟨r, rfl, .inr hr⟩
  · exact ⟨_, rfl, .inl rfl⟩

theorem bearing_unveil (c : Console) (s : Surroundings) :
    ∃ r, (c.unveil s).bearing = { c.blank.bearing with runner := r } ∧
      (r = c.runner ∨ c.runner.reload s.files c.settingsPath = .ok r) := by
  simp only [unveil]
  split
  · split
    · rename_i c' hreload
      obtain ⟨r, hr, rfl⟩ := reloadSettings_eq_ok_iff.1 hreload
      exact ⟨r, rfl, .inr hr⟩
    · exact ⟨c.runner, rfl, .inl rfl⟩
  · exact ⟨c.runner, rfl, .inl rfl⟩

theorem watchCurrent_eq (c : Console) (s : Surroundings) : c.watchCurrent s =
    ((c.unveil s).hydrate s, some (.watch c.view.target (c.generation + 1))) := by
  have hgeneration : (c.unveil s).generation = c.generation + 1 := by
    obtain ⟨r, h, -⟩ := bearing_unveil c s
    exact congrArg Bearing.generation h
  rw [← hgeneration]
  rfl

/-- A view is opened under the next generation, and without the failure of the one before. -/
theorem bearing_watchCurrent (c : Console) (s : Surroundings) :
    ∃ r table, (c.watchCurrent s).1.bearing =
      { c.blank.bearing with runner := r, table := table } := by
  obtain ⟨r, h, -⟩ := bearing_unveil c s
  refine ⟨r, ((c.unveil s).hydrate s).table, ?_⟩
  rw [watchCurrent_eq, bearing_hydrate, h]

/-! ## What an action comes to -/

theorem Outcome.flashed (s : Surroundings) (c : Console) (level : Level) (text : String) :
    Outcome s c (c.flash level text, none) := .still (bearing_flash c level text)

theorem deepen_outcome (c : Console) (s : Surroundings) (target : Target) :
    Outcome s c (c.deepen s target) :=
  .opened { c with history := c.view :: c.history, view := View.opened target } rfl (.inl rfl)

theorem switchView_outcome (c : Console) (s : Surroundings) (kind : Kind) :
    Outcome s c (c.switchView s kind) :=
  .opened { c with history := [], view := View.opened (Watching.Target.all kind) } rfl (.inl rfl)

/-- The scope is set as the view is opened, and not by a command of its own. -/
theorem descend_outcome (c : Console) (s : Surroundings) (word : String) :
    Outcome s c ((c.setScope word).1.switchView s .pods) := by
  have hscoped := bearing_setScope c word
  generalize (c.setScope word).1 = c₀ at hscoped
  generalize hword : Scope.ofWord word = scope at hscoped
  have hkept : c₀.bearing.kept = c.bearing.kept := by rw [hscoped]; rfl
  have hscope : c₀.scope = scope := (congrArg Bearing.scope hscoped :)
  exact .opened { c₀ with history := [], view := View.opened (Watching.Target.all .pods) }
    hkept (.inr ⟨word, hscope.trans hword.symm⟩)

theorem drillDown_outcome (c : Console) (s : Surroundings) : Outcome s c (c.drillDown s) := by
  simp only [drillDown]
  split
  · exact .still rfl
  · rename_i row _
    split
    · exact deepen_outcome c s _
    · exact descend_outcome c s _
    · exact deepen_outcome c s _
    · split
      · exact .flashed s c _ _
      · exact .still rfl
    · exact .still rfl

theorem goBack_outcome (c : Console) (s : Surroundings) : Outcome s c (c.goBack s) := by
  simp only [goBack]
  split
  · rename_i view rest _
    exact .opened { c with history := rest, view := view } rfl (.inl rfl)
  · split <;> exact .still rfl

theorem refresh_outcome (c : Console) (s : Surroundings) : Outcome s c (c.refresh s) := by
  simp only [refresh]
  split
  · exact .refresh (bearing_inform c _)
  · exact .drawn rfl

theorem setInterval_outcome (c : Console) (s : Surroundings) (word : String) :
    Outcome s c (c.setInterval word) := by
  simp only [setInterval]
  split
  · exact .flashed s c _ _
  · exact .paced (Nat.le_max_right _ _) (bearing_inform c _)

theorem requestForward_outcome (c : Console) (s : Surroundings) (text : Option String) :
    Outcome s c (c.requestForward text, none) := by
  simp only [requestForward]
  split
  · exact .flashed s c _ _
  · rename_i hkind
    split
    · rename_i path row hparent hrow
      split
      · exact .flashed s c _ _
      · rename_i hfree
        split
        · exact .flashed s c _ _
        · rename_i hrun
          split
          · exact .flashed s c _ _
          · rename_i m _
            exact .asked (.forward m (Decidable.not_not.1 hkind) hparent hrow
              (eq_false_of_ne_true hfree) hrun) rfl
    · exact .still rfl

theorem requestDelete_outcome (c : Console) (s : Surroundings) :
    Outcome s c (c.requestDelete, none) := by
  simp only [requestDelete]
  split
  · exact .flashed s c _ _
  · rename_i hkind
    split
    · exact .still rfl
    · rename_i row hrow
      exact .asked (.delete (Decidable.not_not.1 hkind) hrow) rfl

theorem startBenchmark_outcome (c : Console) (s : Surroundings) :
    Outcome s c (c.startBenchmark s, none) := by
  simp only [startBenchmark]
  split
  · exact .flashed s c _ _
  · split
    · exact .still rfl
    · split
      · exact .flashed s c _ _
      · split
        · split
          · rename_i hrun
            exact .benchmark hrun (bearing_flash _ _ _)
          · exact .flashed s c _ _
        · exact .flashed s c _ _

theorem stopBenchmark_outcome (c : Console) (s : Surroundings) :
    Outcome s c (c.stopBenchmark, none) := by
  simp only [stopBenchmark]
  split
  · rename_i r hcancel
    apply Outcome.cancel
    rw [hcancel]
    exact bearing_flash _ _ _
  · exact .flashed s c _ _

theorem openByWord_outcome (c : Console) (s : Surroundings) (word line : String) :
    Outcome s c (c.openByWord s word line) := by
  simp only [openByWord]
  split
  · split
    · exact drillDown_outcome c s
    · exact .flashed s c _ _
  · exact switchView_outcome c s _
  · exact .flashed s c _ _

theorem run_outcome (c : Console) (s : Surroundings) (line : String) :
    Outcome s c (c.run s line) := by
  simp only [run]
  split
  · exact .still rfl
  · split
    · exact .still rfl
    · exact .still rfl
    · exact .still rfl
    · exact .rescoped _ (bearing_setScope c _)
    · exact .rescoped _ (bearing_setScope c _)
    · exact requestForward_outcome c s _
    · exact requestForward_outcome c s _
    · exact stopBenchmark_outcome c s
    · exact startBenchmark_outcome c s
    · exact .still (bearing_sortByWords c _)
    · exact .still rfl
    · exact setInterval_outcome c s _
    · exact setInterval_outcome c s _
    · exact refresh_outcome c s
    · exact refresh_outcome c s
    · exact openByWord_outcome c s _ line

/-- What is done to a console that differs in the input line only is done to the console. -/
theorem Outcome.of_bearing {p : Console × Option Command} (h : Outcome s c₀ p)
    (hb : c₀.bearing = c.bearing) (hrow : c₀.selectedRow? = c.selectedRow?) : Outcome s c p := by
  have htarget : c₀.view.target = c.view.target := congrArg Bearing.target hb
  have hregistry : c₀.registry = c.registry := congrArg Bearing.registry hb
  have hrunner : c₀.runner = c.runner := congrArg Bearing.runner hb
  have htable : c₀.table = c.table := congrArg Bearing.table hb
  have herrands : c₀.errands = c.errands := congrArg Bearing.errands hb
  cases h with
  | still h => exact .still (h.trans hb)
  | refresh h => exact .refresh (h.trans hb)
  | paced hms h => exact .paced hms (h.trans hb)
  | rescoped word h => exact .rescoped word (by rw [h, hb])
  | opened c₁ h hscope =>
      refine .opened c₁ (by rw [h, hb]) ?_
      rw [show c.scope = c₀.scope from (congrArg Bearing.scope hb).symm]
      exact hscope
  | drawn h => exact .drawn (h.trans hb)
  | asked hi h =>
      refine .asked ?_ (by rw [h, hb])
      cases hi with
      | forward m hkind hparent hrow' hfree hrun =>
          rw [htarget] at hkind hparent
          rw [hrow] at hrow'
          rw [hregistry] at hfree
          rw [htable] at hrun
          exact .forward m hkind hparent hrow' hfree hrun
      | delete hkind hrow' =>
          rw [htarget] at hkind
          rw [hrow] at hrow'
          exact .delete hkind hrow'
  | benchmark hrun h =>
      rw [hrunner] at hrun
      exact .benchmark hrun (by rw [h, hb, herrands])
  | cancel h => exact .cancel (by rw [h, hb, hrunner])

/-- A console without an open question, in whatever mode it waits for keys. -/
theorem bearing_withMode {mode : Mode} (input : String) (hc : c.mode ≠ .confirm)
    (hmode : mode ≠ .confirm) : { c with mode := mode, input := input }.bearing = c.bearing := by
  simp [bearing, hc, hmode]

theorem submit_outcome (s : Surroundings) (hc : c.mode ≠ .confirm) :
    Outcome s c (c.submit s) := by
  have hb : { c with input := "", mode := .normal }.bearing = c.bearing :=
    bearing_withMode "" hc nofun
  simp only [submit]
  split
  · exact .still hb
  · exact (run_outcome _ s _).of_bearing hb rfl

/-- What an action comes to while no question is open. -/
theorem act_outcome (s : Surroundings) (a : Action) (hc : c.mode ≠ .confirm) :
    Outcome s c (c.act s a) := by
  simp only [act, if_neg hc]
  cases a with
  | enter => exact drillDown_outcome c s
  | back => exact goBack_outcome c s
  | refresh => exact refresh_outcome c s
  | startCommand => exact .still (bearing_withMode "" hc nofun)
  | startFilter => exact .still (bearing_withMode c.filter hc nofun)
  | forward => exact requestForward_outcome c s none
  | startBenchmark => exact startBenchmark_outcome c s
  | stopBenchmark => exact stopBenchmark_outcome c s
  | deleteSelected => exact requestDelete_outcome c s
  | submitInput => exact submit_outcome s hc
  | cancelInput => exact .still (bearing_withMode "" hc nofun)
  | down => exact .still (bearing_moveSelection c 1)
  | up => exact .still (bearing_moveSelection c (-1))
  | pageDown => exact .still (bearing_moveSelection c pageStep)
  | pageUp => exact .still (bearing_moveSelection c (-pageStep))
  | sort letter => exact .still (bearing_sortByLetter c letter)
  | backspace => exact .still (bearing_syncFilter _)
  | inputChar ch => exact .still (bearing_syncFilter _)
  | _ => exact .still rfl

/-! ## While a question is open -/

/-- The actions that answer a question. -/
def Action.answers : Action → Bool
  | .confirmYes | .confirmNo | .cancelInput => true
  | _ => false

/-- The console without its question. -/
def answered (c : Console) : Console := { c with mode := .normal, question := none }

/-- What is done once the operator agrees. -/
inductive Done (s : Surroundings) (c : Console) : Intent → Console → Prop where
  /-- The forward is registered and launched, and its tunnel is an errand. -/
  | forwarded {c₀ : Console} {path container : String} {m : Mapping}
      {session : Forwarding.Session}
      (hfree : c.registry.get? (containerKey path container) = none)
      (hsession : session = { c.registry.fresh s.time (containerKey path container) path
        container m with phase := .activating })
      (h : c₀.bearing = { c.bearing with
        registry := c.registry.register session, errands := c.errands ++ [.tunnel session] }) :
      Done s c (.forward path container m) (c₀.hydrate s)
  /-- The key is taken. -/
  | refused {c' : Console} {path container : String} {m : Mapping}
      {session : Forwarding.Session}
      (htaken : c.registry.get? (containerKey path container) = some session)
      (h : c'.bearing = c.bearing) : Done s c (.forward path container m) c'
  | deleted {c₀ : Console} {fqn : String} {session : Forwarding.Session}
      (hget : c.registry.get? fqn = some session)
      (h : c₀.bearing = { c.bearing with registry := c.registry.drop session }) :
      Done s c (.deleteForward fqn) (c₀.hydrate s)
  | missed {c' : Console} {fqn : String} (hget : c.registry.get? fqn = none)
      (h : c'.bearing = c.bearing) : Done s c (.deleteForward fqn) c'

/-- What an action does while a question is open. -/
inductive Reply (s : Surroundings) (c : Console) : Action → Console → Prop where
  | agreed {c' : Console} {q : Question} (hq : c.question = some q)
      (h : Done s c.answered q.intent c') : Reply s c .confirmYes c'
  | dropped {c' : Console} {a : Action} (ha : a.answers = true)
      (h : c'.bearing = c.answered.bearing) : Reply s c a c'
  | waits {c' : Console} {a : Action} (ha : a.answers = false)
      (h : c'.bearing = c.bearing) : Reply s c a c'

theorem startForward_done (c : Console) (s : Surroundings) (path container : String)
    (m : Mapping) : Done s c (.forward path container m) (c.startForward s path container m) := by
  cases hget : c.registry.get? (containerKey path container) with
  | none =>
      obtain ⟨r, hstart, hlaunch⟩ := Registry.start_launch s.time path container m hget
      simp only [startForward, hstart, hlaunch]
      exact .forwarded hget rfl (bearing_inform _ _)
  | some session =>
      simp only [startForward, Registry.start_eq_error s.time path container m hget]
      exact .refused hget (bearing_flash c _ _)

theorem deleteForward_done (c : Console) (s : Surroundings) (fqn : String) :
    Done s c (.deleteForward fqn) (c.deleteForward s fqn) := by
  cases hget : c.registry.get? fqn with
  | none =>
      simp only [deleteForward, Registry.stop_of_none hget]
      exact .missed hget (bearing_flash c _ _)
  | some session =>
      simp only [deleteForward, Registry.stop_of_some hget]
      exact .deleted hget (bearing_inform _ _)

theorem carryOut_done (c : Console) (s : Surroundings) (i : Intent) :
    Done s c i (c.carryOut s i) := by
  cases i with
  | forward path container m => exact startForward_done c s path container m
  | deleteForward fqn => exact deleteForward_done c s fqn

theorem answer_reply (c : Console) (s : Surroundings) (a : Action) :
    Reply s c a (c.answer s a) := by
  cases a with
  | confirmYes =>
      cases hq : c.question with
      | none =>
          simp only [answer, hq]
          exact .dropped rfl rfl
      | some q =>
          simp only [answer, hq]
          exact .agreed hq (carryOut_done c.answered s q.intent)
  | confirmNo => exact .dropped rfl rfl
  | cancelInput => exact .dropped rfl rfl
  | _ => exact .waits rfl rfl

/-- While a question is open an action asks nothing of the watcher. -/
theorem act_of_confirm (hc : c.mode = .confirm) (s : Surroundings) (a : Action) :
    c.act s a = (c.answer s a, none) := by
  simp only [act, if_pos hc]

/-! ## What is heard of the view's watcher -/

theorem bearing_tableLoaded (c : Console) (generation : Nat) (table : Table) :
    (c.tableLoaded generation table).bearing = if generation = c.generation then
      { c.bearing with table := table, tableError := none } else c.bearing := by
  simp only [tableLoaded]
  split <;> rfl

theorem bearing_tableFailed (c : Console) (generation : Nat) (message : String) :
    (c.tableFailed generation message).bearing = if generation = c.generation then
      { c.bearing with tableError := some message } else c.bearing := by
  by_cases h : generation = c.generation
  · simp only [tableFailed, h, ne_eq, not_true_eq_false, if_false, if_true]
    split <;> rfl
  · simp only [tableFailed, h, ne_eq, not_false_eq_true, if_true, if_false]

/-! ## What is learnt from other than watchers -/

/-- What news does that no watcher has told. -/
inductive Learnt (s : Surroundings) (c : Console) : Console → Prop where
  | aside {c' : Console} {r : Runner} (hfile : r.file = c.runner.file)
      (h : c'.bearing = { c.bearing with runner := r }) : Learnt s c c'
  | reported {c₀ : Console} (report : Forwarding.Report)
      (h : c₀.bearing = { c.bearing with
        registry := (c.registry.applyReport report).registry }) : Learnt s c (c₀.hydrate s)
  | reloaded {c₀ : Console} {r : Runner} (h : c₀.bearing = { c.bearing with runner := r }) :
      Learnt s c (c₀.hydrate s)

theorem forwardReported_learnt (c : Console) (s : Surroundings) (report : Forwarding.Report) :
    Learnt s c (c.forwardReported s report) := by
  simp only [forwardReported]
  split
  · exact .reported report (bearing_flash? _ _)
  · rename_i hchanged
    have hsame := Registry.applyReport_of_unchanged (eq_false_of_ne_true hchanged)
    refine .aside (r := c.runner) rfl ?_
    rw [bearing_flash?, hsame]
    rfl

theorem settingsWritten_learnt (c : Console) (s : Surroundings) (path : String) :
    Learnt s c (c.settingsWritten s path) := by
  simp only [settingsWritten]
  split
  · rename_i hreload
    obtain ⟨r, -, rfl⟩ := reloadSettings_eq_ok_iff.1 hreload
    exact .reloaded rfl
  · exact .aside (r := c.runner) rfl rfl

theorem hear_learnt (c : Console) (s : Surroundings) {news : News}
    (hn : news.ofWatcher = false) : Learnt s c (c.hear s news) := by
  cases news with
  | table generation table => cases hn
  | tableFailure generation message => cases hn
  | forward report => exact forwardReported_learnt c s report
  | benchmark completion =>
      exact .aside (c.runner.file_applyCompletion completion) (bearing_flash? _ _)
  | holdOver message =>
      simp only [hear, holdOver]
      split <;> exact .aside (r := c.runner) rfl rfl
  | settingsWritten path => exact settingsWritten_learnt c s path

theorem stance_hydrate (c : Console) (s : Surroundings) :
    (c.hydrate s).bearing.stance = c.bearing.stance := by
  rw [bearing_hydrate]
  rfl

/-- News changes the table, the registry and the runner, and nothing else of account. -/
theorem Learnt.bearing_eq (h : Learnt s c c') : ∃ table registry runner, c'.bearing =
    { c.bearing with table := table, registry := registry, runner := runner } := by
  cases h with
  | aside _ h => exact ⟨c.table, c.registry, _, h⟩
  | @reported c₀ report h =>
      refine ⟨(c₀.hydrate s).table, (c.registry.applyReport report).registry, c.runner, ?_⟩
      rw [bearing_hydrate, h]
      rfl
  | @reloaded c₀ r h =>
      refine ⟨(c₀.hydrate s).table, c.registry, r, ?_⟩
      rw [bearing_hydrate, h]
      rfl

theorem bearing_hear (c : Console) (s : Surroundings) (news : News) :
    ∃ table error registry runner, (c.hear s news).bearing = { c.bearing with
      table := table, tableError := error, registry := registry, runner := runner } := by
  have hlearnt (hn : news.ofWatcher = false) : ∃ table error registry runner,
      (c.hear s news).bearing = { c.bearing with
        table := table, tableError := error, registry := registry, runner := runner } := by
    obtain ⟨table, registry, runner, h⟩ := (hear_learnt c s hn).bearing_eq
    exact ⟨table, c.tableError, registry, runner, h⟩
  cases news with
  | table generation table =>
      simp only [hear, bearing_tableLoaded]
      split
      · exact ⟨table, none, c.registry, c.runner, rfl⟩
      · exact ⟨c.table, c.tableError, c.registry, c.runner, rfl⟩
  | tableFailure generation message =>
      simp only [hear, bearing_tableFailed]
      split
      · exact ⟨c.table, some message, c.registry, c.runner, rfl⟩
      · exact ⟨c.table, c.tableError, c.registry, c.runner, rfl⟩
  | _ => exact hlearnt rfl

theorem Learnt.stance (h : Learnt s c c') : c'.bearing.stance = c.bearing.stance := by
  obtain ⟨table, registry, runner, h⟩ := h.bearing_eq
  rw [h]
  rfl

/-- What is heard does not move the view. -/
theorem stance_hear (c : Console) (s : Surroundings) (news : News) :
    (c.hear s news).bearing.stance = c.bearing.stance := by
  obtain ⟨table, error, registry, runner, h⟩ := bearing_hear c s news
  rw [h]
  rfl

/-! ## What becomes of the table -/

/-- Whether a command comes of the opening of a view. -/
def Command.opens : Command → Bool
  | .watch _ _ => true
  | _ => false

/-- What becomes of the table where no watcher has told anything. -/
inductive Redraw (s : Surroundings) (c : Console) : Console × Option Command → Prop where
  | kept {c' : Console} {command : Option Command} (h : c'.bearing.shown = c.bearing.shown)
      (hregistry : c'.registry = c.registry) (hfile : c'.runner.file = c.runner.file)
      (hcommand : ∀ x, command = some x → x.opens = false) : Redraw s c (c', command)
  | drawn {c₀ : Console} (h : c₀.bearing.shown = c.bearing.shown) :
      Redraw s c (c₀.hydrate s, none)
  | opened (c₀ : Console) (h : c₀.generation = c.generation) : Redraw s c (c₀.watchCurrent s)

theorem Redraw.of_bearing {b : Bearing} {command : Option Command} (h : c'.bearing = b)
    (hshown : b.shown = c.bearing.shown) (hregistry : b.registry = c.registry)
    (hfile : b.runner.file = c.runner.file)
    (hcommand : ∀ x, command = some x → x.opens = false) : Redraw s c (c', command) := by
  subst h
  exact .kept hshown hregistry hfile hcommand

theorem Outcome.redraw {p : Console × Option Command} (h : Outcome s c p) : Redraw s c p := by
  cases h with
  | still h => exact .of_bearing h rfl rfl rfl nofun
  | refresh h => exact .of_bearing h rfl rfl rfl fun _ hx => Option.some.inj hx ▸ rfl
  | paced _ h => exact .of_bearing h rfl rfl rfl fun _ hx => Option.some.inj hx ▸ rfl
  | rescoped _ h =>
      have hshown := congrArg Bearing.shown h
      simp only [Bearing.shown] at hshown
      exact .kept hshown (congrArg Bearing.registry h :) (congrArg (·.runner.file) h :)
        fun _ hx => Option.some.inj hx ▸ rfl
  | opened c₀ h => exact .opened c₀ (congrArg Prod.fst h)
  | drawn h => exact .drawn (by rw [h])
  | asked _ h => exact .of_bearing h rfl rfl rfl nofun
  | benchmark hrun h => exact .of_bearing h rfl rfl (Runner.file_of_run hrun) nofun
  | cancel h => exact .of_bearing h rfl rfl c.runner.file_cancel nofun

theorem Done.redraw {i : Intent} (h : Done s c.answered i c') : Redraw s c (c', none) := by
  cases h with
  | forwarded _ _ h => exact .drawn (by rw [h]; rfl)
  | refused _ h => exact .of_bearing h rfl rfl rfl nofun
  | deleted _ h => exact .drawn (by rw [h]; rfl)
  | missed _ h => exact .of_bearing h rfl rfl rfl nofun

theorem Reply.redraw {a : Action} (h : Reply s c a c') : Redraw s c (c', none) := by
  cases h with
  | agreed _ h => exact h.redraw
  | dropped _ h => exact .of_bearing h rfl rfl rfl nofun
  | waits _ h => exact .of_bearing h rfl rfl rfl nofun

theorem Learnt.redraw (h : Learnt s c c') : Redraw s c (c', none) := by
  cases h with
  | aside hfile h => exact .of_bearing h rfl rfl hfile nofun
  | reported _ h => exact .drawn (by rw [h]; rfl)
  | reloaded h => exact .drawn (by rw [h]; rfl)

theorem act_redraw (c : Console) (s : Surroundings) (a : Action) : Redraw s c (c.act s a) := by
  by_cases hc : c.mode = .confirm
  · rw [act_of_confirm hc]
    exact (answer_reply c s a).redraw
  · exact (act_outcome s a hc).redraw

end ClusterConsole.Console
