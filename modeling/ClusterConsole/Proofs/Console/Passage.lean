import ClusterConsole.Proofs.Console.Bearing

/-!
# From view to view

An action either stays with the view it finds, or it opens another one (`Passage`), and
then `Turned` says which one and what waits below it. The sort moves among the columns of
the view's kind, as long as the table is one of that kind.
-/

namespace ClusterConsole.Console

open ClusterConsole.Background (News Surroundings)
open ClusterConsole.Resource ClusterConsole.Snapshot ClusterConsole.Status

variable {c c' : Console} {s : Surroundings} {p : Console × Option Command}

/-- Which view there is, how it stands, what waits below it, and under which generation it
was opened. -/
def standing (c : Console) : View × List View × Nat := (c.view, c.history, c.generation)

/-- A view is sorted by a column of its kind. -/
def View.SortsInside (v : View) : Prop := v.sort.index < v.target.kind.width

theorem sortsInside_opened (target : Target) : (View.opened target).SortsInside := by
  have hname : target.kind.nameColumn < target.kind.width := by cases target.kind <;> decide
  exact hname

/-- The sort keys of a kind stand for columns of it. -/
theorem Hotkey.sort_index_lt {kind : Kind} {h : Hotkey} (hh : h ∈ ofKind kind) :
    (h.sort kind).index < kind.width := by
  have hall : ∀ h ∈ ofKind kind, kind.nameColumn + h.offset < kind.width := by
    cases kind <;> decide
  exact hall h hh

/-- What the row with that key opens into, in a view of that kind. -/
inductive Leads : Kind → String → Target → Prop where
  | containers (pod : String) : Leads .pods pod (.containersOf pod)
  | reports (forward : String) : Leads .forwards forward (.reportsOf forward)

theorem Leads.parent_eq {kind : Kind} {key : String} {target : Target}
    (h : Leads kind key target) : target.parent = some key := by
  cases h <;> rfl

/-- What is opened from a row has no rows that lead further. -/
theorem Leads.ends {kind : Kind} {key key' : String} {target target' : Target}
    (h : Leads kind key target) : ¬ Leads target.kind key' target' := by
  cases h with
  | containers => nofun
  | reports => nofun

/-- The views that can be opened from where the console stands, each with what waits below
it. -/
inductive Turned (c : Console) : View → List View → Prop where
  | switched {kind : Kind} (hkind : kind ≠ .containers) :
      Turned c (View.opened (.all kind)) []
  | deeper {row : Entry} {target : Target} (hrow : c.selectedRow? = some row)
      (htarget : Leads c.view.target.kind row.fqn target) :
      Turned c (View.opened target) (c.view :: c.history)
  | back {lower : View} {rest : List View} (h : c.history = lower :: rest) :
      Turned c lower rest

/-- What an action does to where the console stands. -/
inductive Passage (s : Surroundings) (c : Console) : Console × Option Command → Prop where
  | stays {c' : Console} {command : Option Command}
      (htarget : c'.view.target = c.view.target) (hhistory : c'.history = c.history)
      (hgeneration : c'.generation = c.generation)
      (hsort : c.table.kind = c.view.target.kind → c.view.SortsInside → c'.view.SortsInside)
      (hcommand : ∀ x, command = some x → x.opens = false) : Passage s c (c', command)
  | turned {c₀ : Console} {v : View} {history : List View} (h : Turned c v history)
      (hstanding : c₀.standing = (v, history, c.generation)) : Passage s c (c₀.watchCurrent s)

/-! ## What leaves the console where it stands -/

/-- What is typed and how it is read, and the filter that is in force. -/
def line (c : Console) : Mode × String × String := (c.mode, c.input, c.filter)

/-- Where the console stands and what is typed, which is the operator's affair alone: what is
heard, drawn or carried out leaves it as it is. -/
def poise (c : Console) : (View × List View × Nat) × Mode × String × String :=
  (c.standing, c.line)

theorem standing_of_poise (h : c'.poise = c.poise) : c'.standing = c.standing :=
  congrArg Prod.fst h

theorem line_of_poise (h : c'.poise = c.poise) : c'.line = c.line := congrArg Prod.snd h

theorem poise_flash (c : Console) (level : Level) (text : String) :
    (c.flash level text).poise = c.poise := rfl

theorem standing_flash (c : Console) (level : Level) (text : String) :
    (c.flash level text).standing = c.standing := rfl

theorem poise_inform (c : Console) (text : String) : (c.inform text).poise = c.poise := rfl

theorem standing_inform (c : Console) (text : String) : (c.inform text).standing = c.standing :=
  rfl

theorem standing_setScope (c : Console) (word : String) : (c.setScope word).1.standing =
    ({ c.view with selected := 0 }, c.history, c.generation) := by
  simp only [setScope]
  exact standing_inform _ _

theorem poise_flash? (c : Console) (notice : Option Notice) :
    (c.flash? notice).poise = c.poise := by
  cases notice <;> rfl

theorem poise_hydrate (c : Console) (s : Surroundings) : (c.hydrate s).poise = c.poise := by
  cases hrows : c.localRows? s with
  | none => rw [hydrate_of_none hrows]
  | some rows => rw [hydrate_of_some hrows]; rfl

theorem standing_hydrate (c : Console) (s : Surroundings) :
    (c.hydrate s).standing = c.standing := standing_of_poise (poise_hydrate c s)

theorem poise_reloadSettings {path : String} (h : c.reloadSettings s path = .ok c') :
    c'.poise = c.poise := by
  obtain ⟨r, -, rfl⟩ := reloadSettings_eq_ok_iff.1 h
  rfl

theorem poise_unveil (c : Console) (s : Surroundings) : (c.unveil s).poise = c.blank.poise := by
  simp only [unveil]
  split
  · split
    · exact poise_reloadSettings ‹_›
    · exact poise_flash _ _ _
  · rfl

theorem poise_watchCurrent (c : Console) (s : Surroundings) :
    (c.watchCurrent s).1.poise = c.blank.poise := by
  rw [watchCurrent_eq, poise_hydrate, poise_unveil]

/-- A view is opened as it was left, under the next generation. -/
theorem standing_watchCurrent (c : Console) (s : Surroundings) :
    (c.watchCurrent s).1.standing = (c.view, c.history, c.generation + 1) :=
  standing_of_poise (poise_watchCurrent c s)

/-- A console starts without a view below its own, and nothing is typed. -/
theorem poise_start (s : Surroundings) (home cluster context : String) (scope : Scope)
    (kind : Kind) : (Console.start s home cluster context scope kind).poise =
      ((View.opened (.all kind), [], 0), .normal, "", "") := by
  unfold Console.start
  dsimp only
  split
  · exact poise_reloadSettings ‹_›
  · rfl

theorem poise_hear (c : Console) (s : Surroundings) (news : News) :
    (c.hear s news).poise = c.poise := by
  cases news with
  | table generation table =>
      simp only [hear, tableLoaded]
      split <;> rfl
  | tableFailure generation message =>
      simp only [hear, tableFailed]
      split
      · rfl
      · split <;> rfl
  | forward report =>
      simp only [hear, forwardReported]
      split
      · rw [poise_hydrate, poise_flash?]
        rfl
      · rw [poise_flash?]
        rfl
  | benchmark completion =>
      simp only [hear, benchmarkEnded]
      rw [poise_flash?]
      rfl
  | holdOver message =>
      simp only [hear, holdOver]
      split <;> rfl
  | settingsWritten path =>
      simp only [hear, settingsWritten]
      split
      · rename_i hreload
        rw [poise_hydrate, poise_inform]
        exact poise_reloadSettings hreload
      · exact poise_flash _ _ _

theorem standing_hear (c : Console) (s : Surroundings) (news : News) :
    (c.hear s news).standing = c.standing := standing_of_poise (poise_hear c s news)

theorem standing_requestForward (c : Console) (text : Option String) :
    (c.requestForward text).standing = c.standing := by
  simp only [requestForward]
  split
  · exact standing_flash c _ _
  · split
    · split
      · exact standing_flash c _ _
      · split
        · exact standing_flash c _ _
        · split
          · exact standing_flash c _ _
          · rfl
    · rfl

theorem standing_requestDelete (c : Console) : c.requestDelete.standing = c.standing := by
  simp only [requestDelete]
  split
  · exact standing_flash c _ _
  · split <;> rfl

theorem poise_startBenchmark (c : Console) (s : Surroundings) :
    (c.startBenchmark s).poise = c.poise := by
  simp only [startBenchmark]
  split
  · exact poise_flash c _ _
  · split
    · rfl
    · split
      · exact poise_flash c _ _
      · split
        · split
          · exact poise_flash _ _ _
          · exact poise_flash c _ _
        · exact poise_flash c _ _

theorem standing_startBenchmark (c : Console) (s : Surroundings) :
    (c.startBenchmark s).standing = c.standing := standing_of_poise (poise_startBenchmark c s)

theorem poise_stopBenchmark (c : Console) : c.stopBenchmark.poise = c.poise := by
  simp only [stopBenchmark]
  split
  · exact poise_flash _ _ _
  · exact poise_inform c _

theorem standing_stopBenchmark (c : Console) : c.stopBenchmark.standing = c.standing :=
  standing_of_poise (poise_stopBenchmark c)

theorem poise_carryOut (c : Console) (s : Surroundings) (i : Intent) :
    (c.carryOut s i).poise = c.poise := by
  cases i with
  | forward path container m =>
      simp only [carryOut, startForward]
      split
      · exact poise_flash c _ _
      · split
        · rw [poise_hydrate]
          exact poise_inform _ _
        · exact poise_flash _ _ _
  | deleteForward fqn =>
      simp only [carryOut, deleteForward]
      split
      · rw [poise_hydrate]
        exact poise_inform _ _
      · exact poise_flash c _ _

/-- An answer does not move the view, whatever is answered. -/
theorem standing_answer (c : Console) (s : Surroundings) (a : Action) :
    (c.answer s a).standing = c.standing := by
  cases a with
  | confirmYes =>
      simp only [answer]
      split
      · exact (standing_of_poise (poise_carryOut _ s _) :)
      · rfl
  | _ => rfl

/-! ## Passages -/

/-- At most another row is selected. -/
theorem Passage.selecting {command : Option Command} (place : Nat)
    (h : c'.standing = ({ c.view with selected := place }, c.history, c.generation))
    (hcommand : ∀ x, command = some x → x.opens = false) : Passage s c (c', command) := by
  simp only [standing, Prod.mk.injEq] at h
  obtain ⟨hview, hhistory, hgeneration⟩ := h
  refine .stays (congrArg View.target hview :) hhistory hgeneration ?_ hcommand
  intro _ hsort
  rw [hview]
  exact hsort

theorem Passage.selects (place : Nat)
    (h : c'.standing = ({ c.view with selected := place }, c.history, c.generation)) :
    Passage s c (c', none) := .selecting place h nofun

theorem Passage.still (h : c'.standing = c.standing) : Passage s c (c', none) :=
  .selects c.view.selected h

theorem Passage.flashed (c : Console) (s : Surroundings) (level : Level) (text : String) :
    Passage s c (c.flash level text, none) := .still (standing_flash c level text)

theorem moveSelection_passage (c : Console) (s : Surroundings) (delta : Int) :
    Passage s c (c.moveSelection delta, none) := by
  simp only [moveSelection]
  split
  · exact .selects 0 rfl
  · exact .selects _ rfl

/-- The view is sorted by another column. -/
theorem setSort_passage (c : Console) (s : Surroundings) {sort : SortColumn}
    (hsort : c.table.kind = c.view.target.kind → c.view.SortsInside →
      sort.index < c.view.target.kind.width) : Passage s c (c.setSort sort, none) :=
  .stays rfl rfl rfl hsort nofun

theorem sortBy_passage (c : Console) (s : Surroundings) {sort : SortColumn}
    (hsort : c.table.kind = c.view.target.kind → sort.index < c.view.target.kind.width) :
    Passage s c (c.sortBy sort, none) := by
  simp only [sortBy]
  split
  · exact setSort_passage c s fun _ hinside => hinside
  · exact setSort_passage c s fun htable _ => hsort htable

theorem sortByLetter_passage (c : Console) (s : Surroundings) (letter : Char) :
    Passage s c (c.sortByLetter letter, none) := by
  simp only [sortByLetter]
  split
  · rename_i h hfind
    exact sortBy_passage c s fun _ => Hotkey.sort_index_lt (List.mem_of_find?_eq_some hfind)
  · exact .still rfl

theorem sortByWords_passage (c : Console) (s : Surroundings) (words : List String) :
    Passage s c (c.sortByWords words, none) := by
  cases words with
  | nil => exact .flashed c s _ _
  | cons column rest =>
      simp only [sortByWords]
      split
      · exact .flashed c s _ _
      · rename_i index hfind
        have hindex (htable : c.table.kind = c.view.target.kind) :
            index < c.view.target.kind.width := by
          rw [← htable]
          exact (List.findIdx?_eq_some_iff_getElem.1 hfind).1
        split
        · exact setSort_passage c s fun htable _ => hindex htable
        · exact setSort_passage c s fun htable _ => hindex htable
        · exact sortBy_passage c s hindex

theorem setScope_passage (c : Console) (s : Surroundings) (word : String) :
    Passage s c (c.setScope word) :=
  .selecting 0 (standing_setScope c word) fun _ hx => Option.some.inj hx ▸ rfl

theorem setInterval_passage (c : Console) (s : Surroundings) (word : String) :
    Passage s c (c.setInterval word) := by
  simp only [setInterval]
  split
  · exact .flashed c s _ _
  · exact .selecting _ (standing_inform c _) fun _ hx => Option.some.inj hx ▸ rfl

theorem refresh_passage (c : Console) (s : Surroundings) : Passage s c (c.refresh s) := by
  simp only [refresh]
  split
  · exact .selecting _ (standing_inform c _) fun _ hx => Option.some.inj hx ▸ rfl
  · exact .still (standing_hydrate c s)

theorem switchView_passage (c : Console) (s : Surroundings) {kind : Kind}
    (hkind : kind ≠ .containers) (hgeneration : c.generation = c'.generation) :
    Passage s c' (c.switchView s kind) :=
  .turned (.switched hkind) (by rw [← hgeneration]; rfl)

theorem deepen_passage (c : Console) (s : Surroundings) {row : Entry} {target : Target}
    (hrow : c.selectedRow? = some row) (htarget : Leads c.view.target.kind row.fqn target) :
    Passage s c (c.deepen s target) :=
  .turned (.deeper hrow htarget) rfl

theorem drillDown_passage (c : Console) (s : Surroundings) : Passage s c (c.drillDown s) := by
  simp only [drillDown]
  split
  · exact .still rfl
  · rename_i row hrow
    split
    · rename_i hkind
      exact deepen_passage c s hrow (hkind ▸ .containers row.fqn)
    · have hscoped := standing_setScope c (row.field 0)
      exact switchView_passage _ s (by simp) (congrArg (fun p => p.2.2) hscoped)
    · rename_i hkind
      exact deepen_passage c s hrow (hkind ▸ .reports row.fqn)
    · split
      · exact .still (standing_inform c _)
      · exact .still rfl
    · exact .still rfl

theorem goBack_of_cons {lower : View} {rest : List View} (h : c.history = lower :: rest) :
    c.goBack s = { c with history := rest, view := lower }.watchCurrent s := by
  simp only [goBack, h]

theorem goBack_passage (c : Console) (s : Surroundings) : Passage s c (c.goBack s) := by
  cases hhistory : c.history with
  | nil =>
      simp only [goBack, hhistory]
      split
      · exact .still rfl
      · exact .selects 0 (by rw [← hhistory]; rfl)
  | cons lower rest =>
      rw [goBack_of_cons hhistory]
      exact .turned (.back hhistory) rfl

theorem openByWord_passage (c : Console) (s : Surroundings) (word line : String) :
    Passage s c (c.openByWord s word line) := by
  simp only [openByWord]
  split
  · split
    · exact drillDown_passage c s
    · exact .flashed c s _ _
  · rename_i kind hkind _
    exact switchView_passage c s hkind rfl
  · exact .flashed c s _ _

theorem run_passage (c : Console) (s : Surroundings) (line : String) :
    Passage s c (c.run s line) := by
  simp only [run]
  split
  · exact .still rfl
  · split
    · exact .still rfl
    · exact .still rfl
    · exact .still rfl
    · exact setScope_passage c s _
    · exact setScope_passage c s _
    · exact .still (standing_requestForward c _)
    · exact .still (standing_requestForward c _)
    · exact .still (standing_stopBenchmark c)
    · exact .still (standing_startBenchmark c s)
    · exact sortByWords_passage c s _
    · exact .selects 0 rfl
    · exact setInterval_passage c s _
    · exact setInterval_passage c s _
    · exact refresh_passage c s
    · exact refresh_passage c s
    · exact openByWord_passage c s _ line

theorem syncFilter_passage (h : c'.standing = c.standing) :
    Passage s c (c'.syncFilter, none) := by
  simp only [standing, Prod.mk.injEq] at h
  obtain ⟨hview, hhistory, hgeneration⟩ := h
  simp only [syncFilter]
  split
  · apply Passage.selects 0
    rw [← hview, ← hhistory, ← hgeneration]
    rfl
  · apply Passage.still
    simp only [standing, hview, hhistory, hgeneration]

theorem Turned.of_input {input : String} {mode : Mode} {view : View} {history : List View}
    (h : Turned { c with input := input, mode := mode } view history) :
    Turned c view history := by
  cases h with
  | switched hkind => exact .switched hkind
  | deeper hrow htarget => exact .deeper hrow htarget
  | back h => exact .back h

/-- The input line has no part in where the console goes, but for what it says. -/
theorem Passage.of_input {input : String} {mode : Mode}
    (h : Passage s { c with input := input, mode := mode } p) : Passage s c p := by
  cases h with
  | stays htarget hhistory hgeneration hsort hcommand =>
      exact .stays htarget hhistory hgeneration hsort hcommand
  | turned h hstanding => exact .turned h.of_input hstanding

theorem submit_passage (c : Console) (s : Surroundings) : Passage s c (c.submit s) := by
  simp only [submit]
  split
  · exact .selects 0 rfl
  · exact .of_input (run_passage _ s _)

/-- Every action stays with the view or opens another, and while a question is open it
stays. -/
theorem act_passage (c : Console) (s : Surroundings) (a : Action) : Passage s c (c.act s a) := by
  by_cases hc : c.mode = .confirm
  · rw [act_of_confirm hc]
    exact .still (standing_answer c s a)
  simp only [act, if_neg hc]
  cases a with
  | quit => exact .still (standing_inform _ _)
  | enter => exact drillDown_passage c s
  | back => exact goBack_passage c s
  | refresh => exact refresh_passage c s
  | forward => exact .still (standing_requestForward c none)
  | startBenchmark => exact .still (standing_startBenchmark c s)
  | stopBenchmark => exact .still (standing_stopBenchmark c)
  | deleteSelected => exact .still (standing_requestDelete c)
  | submitInput => exact submit_passage c s
  | down => exact moveSelection_passage c s 1
  | up => exact moveSelection_passage c s (-1)
  | pageDown => exact moveSelection_passage c s pageStep
  | pageUp => exact moveSelection_passage c s (-pageStep)
  | top => exact .selects 0 rfl
  | bottom => exact .selects (c.visible.length - 1) rfl
  | sort letter => exact sortByLetter_passage c s letter
  | backspace => exact syncFilter_passage rfl
  | inputChar ch => exact syncFilter_passage rfl
  | _ => exact .still rfl

end ClusterConsole.Console
