import ClusterConsole.Proofs.Console.Consent
import ClusterConsole.Proofs.Console.Passage
import ClusterConsole.Proofs.Text.Casing
import ClusterConsole.Proofs.Text.Trimming
import Mathlib.Data.List.Sublists

/-!
# The keyboard

What a key asks for depends on the mode, and what it does may change the mode; what happens
beside the operator leaves the mode, the input line and the filter alone. So the three stand
in one of a few ways (`Tidy`), and while a filter is typed it is the line, trimmed. As a
character that is typed only ever makes the trimmed line longer, and one that is erased only
shorter, rows leave the view on the one and come back on the other.

The modes bear out this only for actions that their own keys ask for: an action from
elsewhere could ask a question while a line is being typed.
-/

namespace ClusterConsole

/-! ## Rows that mention a text -/

namespace Snapshot.Entry

variable {e : Entry} {part text : String}

/-- The key or a field contains the text, the case of ASCII letters aside. -/
def Mentions (e : Entry) (text : String) : Prop :=
  ∃ t ∈ e.fqn :: e.fields, (Text.lower text).toList <:+: (Text.lower t).toList

instance (e : Entry) (text : String) : Decidable (e.Mentions text) :=
  inferInstanceAs (Decidable (∃ t ∈ e.fqn :: e.fields, _))

theorem meets_iff (e : Entry) (query : String) :
    e.meets query = true ↔ e.Mentions (Text.trim query) := by
  simp only [meets, Bool.or_eq_true, beq_iff_eq, List.any_eq_true, Text.occurs_iff]
  refine ⟨fun h => h.elim (fun hblank => ⟨e.fqn, List.mem_cons_self, ?_⟩) id, .inr⟩
  rw [hblank]
  exact List.nil_infix

/-- Who mentions a text mentions all parts of it. -/
theorem Mentions.mono (hm : e.Mentions text) (h : part.toList <:+: text.toList) :
    e.Mentions part := by
  obtain ⟨t, ht, hin⟩ := hm
  refine ⟨t, ht, List.IsInfix.trans ?_ hin⟩
  rw [Text.toList_lower, Text.toList_lower]
  exact h.map _

end Snapshot.Entry

namespace Console

open ClusterConsole.Background (News Surroundings)
open ClusterConsole.Resource ClusterConsole.Snapshot ClusterConsole.Status

variable {c c' : Console} {s : Surroundings} {a : Action} {l : Mode × String × String}

theorem visible_eq (c : Console) : c.visible =
    (c.table.sorted c.view.sort).filter fun e => e.Mentions (Text.trim c.filter) := by
  refine List.filter_congr fun e _ => ?_
  rw [Bool.eq_iff_iff, Entry.meets_iff, decide_eq_true_iff]

/-- A longer filter takes rows away and leaves the others as they stand. -/
theorem visible_sublist (htable : c'.table = c.table) (hsort : c'.view.sort = c.view.sort)
    (h : (Text.trim c.filter).toList <:+: (Text.trim c'.filter).toList) :
    c'.visible.Sublist c.visible := by
  rw [visible_eq, visible_eq, htable, hsort]
  refine List.monotone_filter_right _ fun e he => ?_
  exact decide_eq_true ((of_decide_eq_true he).mono h)

/-- Without a filter all rows are shown. -/
theorem visible_of_no_filter (h : c.filter = "") : c.visible = c.table.sorted c.view.sort := by
  rw [visible_eq, List.filter_eq_self, h]
  intro e _
  refine decide_eq_true ⟨e.fqn, List.mem_cons_self, ?_⟩
  rw [Text.trim_empty, show Text.lower "" = "" by decide]
  exact List.nil_infix

/-! ## The input line -/

/-- Nothing is being typed. -/
def Resting (l : Mode × String × String) : Prop :=
  (l.1 = .normal ∨ l.1 = .confirm) ∧ l.2.1 = "" ∧ Text.trim l.2.2 = l.2.2

/-- Nothing is being typed, or a command, or a filter, which is in force as it stands. -/
inductive Tidy : Mode × String × String → Prop where
  | resting {l : Mode × String × String} (h : Resting l) : Tidy l
  | command (input : String) {filter : String} (h : Text.trim filter = filter) :
      Tidy (.command, input, filter)
  | filter {input filter : String} (h : filter = Text.trim input) : Tidy (.filter, input, filter)

theorem Tidy.trimmed (h : Tidy l) : Text.trim l.2.2 = l.2.2 := by
  cases h with
  | resting h => exact h.2.2
  | command _ h => exact h
  | filter h => rw [h, Text.trim_trim]

/-- Where no line is read, nothing is being typed. -/
theorem Tidy.rests (h : Tidy l) (hmode : l.1 = .normal ∨ l.1 = .confirm) : Resting l := by
  cases h with
  | resting h => exact h
  | command | filter => rcases hmode with hmode | hmode <;> cases hmode

/-- While a filter is typed it is in force. -/
theorem Tidy.filter_eq (h : Tidy l) (hmode : l.1 = .filter) : l.2.2 = Text.trim l.2.1 := by
  cases h with
  | resting h => rcases h.1 with hother | hother <;> cases hmode.symm.trans hother
  | command => cases hmode
  | filter h => exact h

/-! ## What leaves the line alone -/

theorem line_flash (c : Console) (level : Level) (text : String) :
    (c.flash level text).line = c.line := rfl

theorem line_inform (c : Console) (text : String) : (c.inform text).line = c.line := rfl

theorem line_watchCurrent (c : Console) (s : Surroundings) :
    (c.watchCurrent s).1.line = c.line := (line_of_poise (poise_watchCurrent c s) :)

theorem line_setScope (c : Console) (word : String) : (c.setScope word).1.line = c.line := by
  simp only [setScope]
  rw [line_inform]
  rfl

theorem line_moveSelection (c : Console) (delta : Int) : (c.moveSelection delta).line = c.line := by
  simp only [moveSelection]
  split <;> rfl

theorem line_sortBy (c : Console) (sort : SortColumn) : (c.sortBy sort).line = c.line := by
  simp only [sortBy]
  split <;> rfl

theorem line_sortByLetter (c : Console) (letter : Char) :
    (c.sortByLetter letter).line = c.line := by
  simp only [sortByLetter]
  split
  · exact line_sortBy c _
  · rfl

theorem line_sortByWords (c : Console) (words : List String) :
    (c.sortByWords words).line = c.line := by
  cases words with
  | nil => exact line_flash c _ _
  | cons column rest =>
      simp only [sortByWords]
      split
      · exact line_flash c _ _
      · split
        · rfl
        · rfl
        · exact line_sortBy c _

theorem line_setInterval (c : Console) (word : String) : (c.setInterval word).1.line = c.line := by
  simp only [setInterval]
  split
  · exact line_flash c _ _
  · exact line_inform c _

theorem line_refresh (c : Console) (s : Surroundings) : (c.refresh s).1.line = c.line := by
  simp only [refresh]
  split
  · exact line_inform c _
  · exact line_of_poise (poise_hydrate c s)

theorem line_switchView (c : Console) (s : Surroundings) (kind : Kind) :
    (c.switchView s kind).1.line = c.line := (line_watchCurrent _ s :)

theorem line_drillDown (c : Console) (s : Surroundings) : (c.drillDown s).1.line = c.line := by
  simp only [drillDown]
  split
  · rfl
  · rename_i row _
    split
    · exact (line_watchCurrent _ s :)
    · rw [line_switchView, line_setScope]
    · exact (line_watchCurrent _ s :)
    · split
      · exact line_inform c _
      · rfl
    · rfl

theorem line_openByWord (c : Console) (s : Surroundings) (word line : String) :
    (c.openByWord s word line).1.line = c.line := by
  simp only [openByWord]
  split
  · split
    · exact line_drillDown c s
    · exact line_flash c _ _
  · exact line_switchView c s _
  · exact line_flash c _ _

/-! ## What an action does to the line -/

theorem resting_goBack (h : Resting c.line) (s : Surroundings) :
    Resting (c.goBack s).1.line := by
  simp only [goBack]
  split
  · rw [line_watchCurrent]
    exact h
  · split
    · exact h
    · exact ⟨h.1, h.2.1, Text.trim_empty⟩

theorem resting_requestForward (h : Resting c.line) (text : Option String) :
    Resting (c.requestForward text).line := by
  simp only [requestForward]
  split
  · rw [line_flash]; exact h
  · split
    · split
      · rw [line_flash]; exact h
      · split
        · rw [line_flash]; exact h
        · split
          · rw [line_flash]; exact h
          · exact ⟨.inr rfl, h.2⟩
    · exact h

theorem resting_requestDelete (h : Resting c.line) : Resting c.requestDelete.line := by
  simp only [requestDelete]
  split
  · rw [line_flash]; exact h
  · split
    · exact h
    · exact ⟨.inr rfl, h.2⟩

/-- An answer is no line, and it ends where nothing is typed. -/
theorem resting_answer (h : Resting c.line) (s : Surroundings) (a : Action) :
    Resting (c.answer s a).line := by
  cases a with
  | confirmYes =>
      simp only [answer]
      split
      · rw [line_of_poise (poise_carryOut _ s _)]
        exact ⟨.inl rfl, h.2⟩
      · exact ⟨.inl rfl, h.2⟩
  | confirmNo | cancelInput => exact ⟨.inl rfl, h.2⟩
  | _ => exact h

/-- A command is carried out after the line was taken away. It may set the filter, by words
that are trimmed, and it may ask a question. -/
theorem resting_run (h : Resting c.line) (s : Surroundings) (line : String) :
    Resting (c.run s line).1.line := by
  simp only [run]
  split
  · exact h
  · rename_i head words hwords
    split
    · exact h
    · exact h
    · exact h
    · rw [line_setScope]; exact h
    · rw [line_setScope]; exact h
    · rename_i word rest _
      exact resting_requestForward h (some word)
    · rename_i word rest _
      exact resting_requestForward h (some word)
    · rw [line_of_poise (poise_stopBenchmark c)]; exact h
    · rw [line_of_poise (poise_startBenchmark c s)]; exact h
    · rw [line_sortByWords]; exact h
    · refine ⟨h.1, h.2.1, Text.trim_join (fun w hw => ?_) " "⟩
      have hmem : w ∈ Text.words line := by
        rw [hwords]
        exact List.mem_cons_of_mem head hw
      exact Text.isWord_of_mem_words hmem
    · rw [line_setInterval]; exact h
    · rw [line_setInterval]; exact h
    · rw [line_refresh]; exact h
    · rw [line_refresh]; exact h
    · rw [line_openByWord]; exact h

/-- The actions that only the modes with an input line have keys for. -/
def Action.edits : Action → Bool
  | .submitInput | .cancelInput | .backspace | .inputChar _ => true
  | _ => false

theorem tidy_act_of_normal (h : Resting c.line) (hmode : c.mode = .normal)
    (ha : a.edits = false) (s : Surroundings) : Tidy (c.act s a).1.line := by
  have hc : c.mode ≠ .confirm := by rw [hmode]; nofun
  simp only [act, if_neg hc]
  cases a with
  | quit => rw [line_inform]; exact .resting h
  | startCommand => exact .command "" h.2.2
  | startFilter => exact .filter h.2.2.symm
  | enter => rw [line_drillDown]; exact .resting h
  | back => exact .resting (resting_goBack h s)
  | refresh => rw [line_refresh]; exact .resting h
  | forward => exact .resting (resting_requestForward h none)
  | deleteSelected => exact .resting (resting_requestDelete h)
  | startBenchmark => rw [line_of_poise (poise_startBenchmark c s)]; exact .resting h
  | stopBenchmark => rw [line_of_poise (poise_stopBenchmark c)]; exact .resting h
  | sort letter => rw [line_sortByLetter]; exact .resting h
  | down | up | pageDown | pageUp => rw [line_moveSelection]; exact .resting h
  | submitInput | cancelInput | backspace | inputChar => cases ha
  | _ => exact .resting h

theorem tidy_act_of_command (hfilter : Text.trim c.filter = c.filter) (hmode : c.mode = .command)
    (ha : a.edits = true) (s : Surroundings) : Tidy (c.act s a).1.line := by
  have hc : c.mode ≠ .confirm := by rw [hmode]; nofun
  simp only [act, if_neg hc]
  cases a with
  | submitInput =>
      simp only [submit, hmode, reduceCtorEq, decide_false, Bool.false_eq_true, if_false]
      have hrest : Resting ({ c with input := "", mode := .normal } : Console).line :=
        ⟨.inl rfl, rfl, hfilter⟩
      exact .resting (resting_run hrest s (commandText c.input))
  | cancelInput =>
      simp only [cancelInput, hmode, reduceCtorEq, if_false]
      exact .resting ⟨.inl rfl, rfl, hfilter⟩
  | backspace | inputChar =>
      simp only [syncFilter, hmode, reduceCtorEq, if_false]
      exact .command _ hfilter
  | _ => cases ha

/-! ## Typing a filter -/

/-- The console with another line, read as a filter. -/
def withFilter (c : Console) (mode : Mode) (input filter : String) : Console :=
  { c with mode := mode, input := input }.setFilter filter

theorem act_inputChar_of_filter (hmode : c.mode = .filter) (s : Surroundings) (ch : Char) :
    (c.act s (.inputChar ch)).1 =
      c.withFilter .filter (c.input.push ch) (Text.trim (c.input.push ch)) := by
  simp [act, hmode, syncFilter, withFilter, setFilter]

theorem act_backspace_of_filter (hmode : c.mode = .filter) (s : Surroundings) :
    (c.act s .backspace).1 = c.withFilter .filter (String.ofList c.input.toList.dropLast)
      (Text.trim (String.ofList c.input.toList.dropLast)) := by
  simp [act, hmode, syncFilter, withFilter, setFilter]

theorem act_submitInput_of_filter (hmode : c.mode = .filter) (s : Surroundings) :
    (c.act s .submitInput).1 = c.withFilter .normal "" (Text.trim c.input) := by
  simp [act, hmode, submit, withFilter, setFilter]

theorem act_cancelInput_of_filter (hmode : c.mode = .filter) (s : Surroundings) :
    (c.act s .cancelInput).1 = { c with mode := .normal, input := "", filter := "" } := by
  simp [act, hmode, cancelInput]

theorem tidy_act_of_filter (hmode : c.mode = .filter) (ha : a.edits = true) (s : Surroundings) :
    Tidy (c.act s a).1.line := by
  cases a with
  | submitInput =>
      rw [act_submitInput_of_filter hmode]
      exact .resting ⟨.inl rfl, rfl, Text.trim_trim _⟩
  | cancelInput =>
      rw [act_cancelInput_of_filter hmode]
      exact .resting ⟨.inl rfl, rfl, Text.trim_empty⟩
  | backspace =>
      rw [act_backspace_of_filter hmode]
      exact .filter rfl
  | inputChar ch =>
      rw [act_inputChar_of_filter hmode]
      exact .filter rfl
  | _ => cases ha

/-! ## Keys -/

namespace Key

variable {k : Key}

theorem edits_of_chord? {code : KeyCode} {m : Modifiers} (h : chord? code m = some a) :
    a.edits = false := by
  unfold chord? at h
  split at h <;> (try split at h) <;> cases h <;> rfl

theorem edits_of_command? {code : KeyCode} (h : command? code = some a) : a.edits = false := by
  unfold command? at h
  split at h <;> (try split at h) <;> cases h <;> rfl

theorem edits_of_editing? (h : k.editing? = some a) : a.edits = true := by
  unfold editing? at h
  split at h <;> (try split at h) <;> cases h <;> rfl

theorem edits_eq_false_of_normal (h : k.action? .normal = some a) : a.edits = false := by
  simp only [action?] at h
  split at h
  · obtain rfl := Option.some.inj h
    rfl
  · split at h
    · exact edits_of_chord? h
    · exact edits_of_command? h

theorem edits_eq_true_of_editing {mode : Mode} (hmode : mode = .command ∨ mode = .filter)
    (h : k.action? mode = some a) : a.edits = true := by
  rcases hmode with rfl | rfl <;>
  · simp only [action?] at h
    split at h
    · obtain rfl := Option.some.inj h
      rfl
    · exact edits_of_editing? h

end Key

/-- Whatever key is pressed, the line is tidy after it as it was before. -/
theorem Tidy.act {k : Key} (h : Tidy c.line) (hkey : k.action? c.mode = some a)
    (s : Surroundings) : Tidy (c.act s a).1.line := by
  cases hmode : c.mode with
  | normal =>
      rw [hmode] at hkey
      exact tidy_act_of_normal (h.rests (.inl hmode)) hmode (Key.edits_eq_false_of_normal hkey) s
  | command =>
      rw [hmode] at hkey
      exact tidy_act_of_command h.trimmed hmode (Key.edits_eq_true_of_editing (.inl rfl) hkey) s
  | filter =>
      rw [hmode] at hkey
      exact tidy_act_of_filter hmode (Key.edits_eq_true_of_editing (.inr rfl) hkey) s
  | confirm =>
      rw [act_of_confirm hmode]
      exact .resting (resting_answer (h.rests (.inr hmode)) s a)

namespace Desk

variable {d : Desk}

/-! ## Strokes -/

/-- What is done when a key is pressed: what it asks for in the present mode, if it asks for
anything. -/
def press (d : Desk) (k : Key) : Desk :=
  match k.action? d.console.mode with
  | some a => d.act (.act a)
  | none => d

/-- A key is pressed, or something happens beside the operator. -/
inductive Stroke where
  | key (k : Key)
  | beside (m : { m : Act // m.action? = none })

def take (d : Desk) : Stroke → Desk
  | .key k => d.press k
  | .beside m => d.act m

def typed (d : Desk) (strokes : List Stroke) : Desk := strokes.foldl take d

theorem console_press {k : Key} {a : Action} (h : k.action? d.console.mode = some a) :
    (d.press k).console = { (d.console.act d.surroundings a).1 with errands := [] } := by
  simp only [press, h]
  exact (d.console_follow _).1

theorem line_act_of_beside (d : Desk) {m : Act} (h : m.action? = none) :
    (d.act m).console.line = d.console.line := by
  cases m with
  | act a => cases h
  | watcher k a =>
      simp only [act, watch]
      split
      · split <;> rfl
      · rfl
  | hear =>
      simp only [act, hear]
      split
      · exact line_of_poise (poise_hear _ _ _)
      · rfl
  | learn news =>
      simp only [act, learn]
      split
      · rfl
      · exact line_of_poise (poise_hear _ _ _)
  | tick => exact line_of_poise (poise_hydrate _ _)
  | warn | outside => rfl

theorem candid_take (h : d.console.Candid) (x : Stroke) : (d.take x).console.Candid := by
  cases x with
  | key k =>
      simp only [take, press]
      split
      · exact candid_step h (d.step_act _)
      · exact h
  | beside m => exact candid_step h (d.step_act m)

theorem tidy_take (h : Tidy d.console.line) (x : Stroke) : Tidy (d.take x).console.line := by
  cases x with
  | key k =>
      cases hkey : k.action? d.console.mode with
      | none =>
          simp only [take, press, hkey]
          exact h
      | some a =>
          rw [take, console_press hkey]
          exact h.act hkey d.surroundings
  | beside m =>
      rw [take, line_act_of_beside d m.2]
      exact h

theorem candid_typed (h : d.console.Candid) (strokes : List Stroke) :
    (d.typed strokes).console.Candid := by
  induction strokes generalizing d with
  | nil => exact h
  | cons x strokes ih => exact ih (candid_take h x)

theorem tidy_typed (h : Tidy d.console.line) (strokes : List Stroke) :
    Tidy (d.typed strokes).console.line := by
  induction strokes generalizing d with
  | nil => exact h
  | cons x strokes ih => exact ih (tidy_take h x)

theorem tidy_opening (s : Surroundings) (home cluster context : String) (scope : Scope)
    (kind : Kind) (interval : Nat) :
    Tidy (opening s home cluster context scope kind interval).console.line := by
  have hstart := congrArg Prod.snd (poise_start s home cluster context scope kind)
  simp only [opening]
  generalize Console.start s home cluster context scope kind = c at hstart
  rw [(console_follow _ _).1]
  have hline : (c.watchCurrent s).1.line = (.normal, "", "") :=
    (line_watchCurrent c s).trans hstart
  change Tidy (c.watchCurrent s).1.line
  rw [hline]
  exact .resting ⟨.inl rfl, rfl, Text.trim_empty⟩

/-! ## What the keys come to -/

/-- The modes and the input line, and what the keys of a filter do to the rows shown. -/
structure Typewise (d : Desk) : Prop where
  asking : d.console.mode = .confirm ↔ d.console.question.isSome = true
  idle : d.console.mode = .normal ∨ d.console.mode = .confirm → d.console.input = ""
  filtering : d.console.mode = .filter → d.console.filter = Text.trim d.console.input
  visible : d.console.visible = (d.console.table.sorted d.console.view.sort).filter
    fun e => e.Mentions (Text.trim d.console.filter)
  /-- A character that is typed takes rows away, -/
  typing : ∀ ch m, m.plain = true → d.console.mode = .filter →
    (d.press ⟨.char ch, m⟩).console.mode = .filter ∧
      (d.press ⟨.char ch, m⟩).console.input = d.console.input.push ch ∧
      (d.press ⟨.char ch, m⟩).console.visible.Sublist d.console.visible
  /-- one that is erased takes none away, -/
  erasing : ∀ m, d.console.mode = .filter →
    (d.press ⟨.backspace, m⟩).console.mode = .filter ∧
      (d.press ⟨.backspace, m⟩).console.input =
        String.ofList d.console.input.toList.dropLast ∧
      d.console.visible.Sublist (d.press ⟨.backspace, m⟩).console.visible
  /-- the filter stays if it is entered, -/
  entering : ∀ m, d.console.mode = .filter →
    (d.press ⟨.enter, m⟩).console.mode = .normal ∧
      (d.press ⟨.enter, m⟩).console.filter = d.console.filter ∧
      (d.press ⟨.enter, m⟩).console.visible = d.console.visible
  /-- and all rows are shown again if it is left. -/
  leaving : ∀ k : Key, k.code = .escape ∨ k.leaves = true → d.console.mode = .filter →
    (d.press k).console.mode = .normal ∧
      (d.press k).console.visible = d.console.table.sorted d.console.view.sort

theorem typewise_of_tidy (hcandid : d.console.Candid) (htidy : Tidy d.console.line) :
    d.Typewise := by
  have hfilter (hmode : d.console.mode = .filter) :
      Text.trim d.console.filter = Text.trim d.console.input := by
    have hforce : d.console.filter = Text.trim d.console.input := htidy.filter_eq hmode
    rw [hforce, Text.trim_trim]
  constructor
  case asking => exact hcandid.open_iff
  case idle => exact fun hmode => (htidy.rests hmode).2.1
  case filtering => exact htidy.filter_eq
  case visible => exact visible_eq d.console
  case typing =>
    intro ch m hplain hmode
    have hkey : Key.action? d.console.mode ⟨.char ch, m⟩ = some (.inputChar ch) := by
      have hctrl : m.ctrl = false := by
        simp only [Modifiers.plain, Bool.and_eq_true, Bool.not_eq_true'] at hplain
        exact hplain.1.1
      simp [Key.action?, Key.leaves, Key.editing?, hmode, hctrl, hplain]
    rw [console_press hkey, act_inputChar_of_filter hmode]
    refine ⟨rfl, rfl, visible_sublist rfl rfl ?_⟩
    change _ <:+: (Text.trim (Text.trim (d.console.input.push ch))).toList
    rw [hfilter hmode, Text.trim_trim, Text.toList_trim, Text.toList_trim, String.toList_push]
    exact Text.trimList_infix_concat _ ch
  case erasing =>
    intro m hmode
    have hkey : Key.action? d.console.mode ⟨.backspace, m⟩ = some .backspace := by
      simp [Key.action?, Key.leaves, Key.editing?, hmode]
    rw [console_press hkey, act_backspace_of_filter hmode]
    refine ⟨rfl, rfl, visible_sublist rfl rfl ?_⟩
    change (Text.trim (Text.trim (String.ofList d.console.input.toList.dropLast))).toList <:+: _
    rw [hfilter hmode, Text.trim_trim, Text.toList_trim, Text.toList_trim, String.toList_ofList]
    exact Text.trimList_dropLast_infix_self _
  case entering =>
    intro m hmode
    have hkey : Key.action? d.console.mode ⟨.enter, m⟩ = some .submitInput := by
      simp [Key.action?, Key.leaves, Key.editing?, hmode]
    have hfilter : Text.trim d.console.input = d.console.filter := (htidy.filter_eq hmode).symm
    rw [console_press hkey, act_submitInput_of_filter hmode, hfilter]
    exact ⟨rfl, rfl, rfl⟩
  case leaving =>
    intro k hk hmode
    have hkey : k.action? d.console.mode = some .cancelInput := by
      by_cases hleaves : k.leaves = true
      · simp [Key.action?, hleaves, hmode]
      · simp [Key.action?, hleaves, hmode, Key.editing?, hk.resolve_right hleaves]
    rw [console_press hkey, act_cancelInput_of_filter hmode]
    exact ⟨rfl, visible_of_no_filter rfl⟩

/-- Whatever keys are pressed and whatever happens meanwhile. -/
theorem keys_keep_modes (s : Surroundings) (home cluster context : String)
    (scope : Scope) (kind : Kind) (interval : Nat) (strokes : List Stroke) :
    ((opening s home cluster context scope kind interval).typed strokes).Typewise :=
  typewise_of_tidy
    (candid_typed (candid_opening s home cluster context scope kind interval) strokes)
    (tidy_typed (tidy_opening s home cluster context scope kind interval) strokes)

end Desk

end Console

end ClusterConsole
