import ClusterConsole.Proofs.Console.Sitting
import ClusterConsole.Proofs.Status.OneLine

/-!
# The status line of the console

Whatever a console meets, its line changes in two ways only: a notice is shown on it, or the end
of a hold clears it (`Line.Spoken`, `status_holdOver`). So it is one short line at all times,
however many messages went over it and whatever they looked like. And a message that nothing
was shown after is still there at the end of its hold, and cleared then, unless a benchmark
runs (`status_holdOver_of_quiet`): it is cut in the same way when it is shown and when it is
looked for.

`Happening` lists what a console can meet, at any time and in any order. What a sitting does
with its console is made of these, so the line is short at every moment of a sitting too
(`Sitting.Reached.short`).
-/

namespace ClusterConsole

namespace Status.Line

/-- What becomes of a line that is not cleared: it stays, or a notice is shown on it. -/
inductive Spoken (l : Line) : Line → Prop where
  | silent : Spoken l l
  | said (n : Notice) : Spoken l (ofNotice n)

theorem Spoken.short {k l : Line} (h : Spoken k l) (hk : k.Short) : l.Short := by
  cases h with
  | silent => exact hk
  | said n => exact short_ofNotice n

end Status.Line

namespace Console

open ClusterConsole.Background (News Surroundings)
open ClusterConsole.Resource ClusterConsole.Snapshot ClusterConsole.Status
open ClusterConsole.Status.Line (Spoken)

variable {c c' : Console} {s : Surroundings} {l : Line}

/-- What becomes of a line in a step that ends with a console and a command. -/
inductive Says (l : Line) : Console × Option Command → Prop where
  | of {c : Console} {command : Option Command} (h : Spoken l c.status) : Says l (c, command)

theorem Says.spoken {p : Console × Option Command} (h : Says l p) : Spoken l p.1.status := by
  cases h with
  | of h => exact h

/-! ## What is shown by whom -/

theorem spoken_flash (l : Line) (c : Console) (level : Level) (text : String) :
    Spoken l (c.flash level text).status := .said ⟨level, text⟩

theorem spoken_inform (l : Line) (c : Console) (text : String) :
    Spoken l (c.inform text).status := spoken_flash l c .info text

theorem spoken_flash? (h : Spoken l c.status) (notice : Option Notice) :
    Spoken l (c.flash? notice).status := by
  cases notice with
  | none => exact h
  | some n => exact .said n

theorem spoken_hydrate (h : Spoken l c.status) : Spoken l (c.hydrate s).status := by
  cases hrows : c.localRows? s with
  | none => rwa [hydrate_of_none hrows]
  | some rows => rwa [hydrate_of_some hrows]

theorem spoken_reloadSettings {path : String} (h : Spoken l c.status)
    (hreload : c.reloadSettings s path = .ok c') : Spoken l c'.status := by
  obtain ⟨r, -, rfl⟩ := reloadSettings_eq_ok_iff.1 hreload
  exact h

theorem spoken_unveil (h : Spoken l c.status) : Spoken l (c.unveil s).status := by
  simp only [unveil]
  split
  · split
    · rename_i c' hreload
      have hblank : Spoken l c.blank.status := h
      exact spoken_reloadSettings hblank hreload
    · exact spoken_flash l _ _ _
  · exact h

theorem says_watchCurrent (h : Spoken l c.status) : Says l (c.watchCurrent s) := by
  rw [watchCurrent_eq]
  exact .of (spoken_hydrate (spoken_unveil h))

theorem says_switchView {kind : Kind} (h : Spoken l c.status) :
    Says l (c.switchView s kind) := says_watchCurrent h

theorem says_deepen {target : Target} (h : Spoken l c.status) :
    Says l (c.deepen s target) := says_watchCurrent h

theorem says_setScope (l : Line) (c : Console) (word : String) :
    Says l (c.setScope word) := by
  simp only [setScope]
  exact .of (spoken_inform l _ _)

theorem says_setInterval (l : Line) (c : Console) (word : String) :
    Says l (c.setInterval word) := by
  simp only [setInterval]
  split
  · exact .of (spoken_flash l c _ _)
  · exact .of (spoken_inform l c _)

theorem says_refresh (h : Spoken l c.status) : Says l (c.refresh s) := by
  simp only [refresh]
  split
  · exact .of (spoken_inform l c _)
  · exact .of (spoken_hydrate h)

theorem says_drillDown (h : Spoken l c.status) : Says l (c.drillDown s) := by
  simp only [drillDown]
  split
  · exact .of h
  · split
    · exact says_deepen h
    · exact says_switchView (says_setScope l c _).spoken
    · exact says_deepen h
    · split
      · exact .of (spoken_inform l c _)
      · exact .of h
    · exact .of h

theorem says_goBack (h : Spoken l c.status) : Says l (c.goBack s) := by
  simp only [goBack]
  split
  · exact says_watchCurrent h
  · split <;> exact .of h

theorem spoken_moveSelection (h : Spoken l c.status) (delta : Int) :
    Spoken l (c.moveSelection delta).status := by
  simp only [moveSelection]
  split <;> exact h

theorem spoken_sortBy (h : Spoken l c.status) (sort : SortColumn) :
    Spoken l (c.sortBy sort).status := by
  simp only [sortBy]
  split <;> exact h

theorem spoken_sortByLetter (h : Spoken l c.status) (letter : Char) :
    Spoken l (c.sortByLetter letter).status := by
  simp only [sortByLetter]
  split
  · exact spoken_sortBy h _
  · exact h

theorem spoken_sortByWords (h : Spoken l c.status) (words : List String) :
    Spoken l (c.sortByWords words).status := by
  cases words with
  | nil => exact spoken_flash l c _ _
  | cons column rest =>
      simp only [sortByWords]
      split
      · exact spoken_flash l c _ _
      · split
        · exact h
        · exact h
        · exact spoken_sortBy h _

theorem spoken_syncFilter (h : Spoken l c.status) : Spoken l c.syncFilter.status := by
  simp only [syncFilter]
  split <;> exact h

theorem spoken_requestForward (h : Spoken l c.status) (text : Option String) :
    Spoken l (c.requestForward text).status := by
  simp only [requestForward]
  split
  · exact spoken_flash l c _ _
  · split
    · split
      · exact spoken_flash l c _ _
      · split
        · exact spoken_flash l c _ _
        · split
          · exact spoken_flash l c _ _
          · exact h
    · exact h

theorem spoken_requestDelete (h : Spoken l c.status) : Spoken l c.requestDelete.status := by
  simp only [requestDelete]
  split
  · exact spoken_flash l c _ _
  · split <;> exact h

theorem spoken_startBenchmark (h : Spoken l c.status) :
    Spoken l (c.startBenchmark s).status := by
  simp only [startBenchmark]
  split
  · exact spoken_flash l c _ _
  · split
    · exact h
    · split
      · exact spoken_flash l c _ _
      · split
        · split
          · exact spoken_flash l _ _ _
          · exact spoken_flash l c _ _
        · exact spoken_flash l c _ _

theorem spoken_stopBenchmark (l : Line) (c : Console) : Spoken l c.stopBenchmark.status := by
  simp only [stopBenchmark]
  split
  · exact spoken_flash l _ _ _
  · exact spoken_inform l c _

theorem spoken_carryOut (l : Line) (c : Console) (i : Intent) :
    Spoken l (c.carryOut s i).status := by
  cases i with
  | forward path container m =>
      simp only [carryOut, startForward]
      split
      · exact spoken_flash l c _ _
      · split
        · exact spoken_hydrate (spoken_inform l _ _)
        · exact spoken_flash l _ _ _
  | deleteForward fqn =>
      simp only [carryOut, deleteForward]
      split
      · exact spoken_hydrate (spoken_inform l _ _)
      · exact spoken_flash l c _ _

theorem spoken_answer (h : Spoken l c.status) (a : Action) : Spoken l (c.answer s a).status := by
  cases a with
  | confirmYes =>
      simp only [answer]
      split
      · exact spoken_carryOut l _ _
      · exact h
  | confirmNo => exact spoken_inform l _ _
  | cancelInput => exact spoken_inform l _ _
  | _ => exact h

theorem says_openByWord (h : Spoken l c.status) (word line : String) :
    Says l (c.openByWord s word line) := by
  simp only [openByWord]
  split
  · split
    · exact says_drillDown h
    · exact .of (spoken_flash l c _ _)
  · exact says_switchView h
  · exact .of (spoken_flash l c _ _)

theorem says_run (h : Spoken l c.status) (line : String) :
    Says l (c.run s line) := by
  simp only [run]
  split
  · exact .of h
  · split
    · exact .of h
    · exact .of h
    · exact .of h
    · exact says_setScope l c _
    · exact says_setScope l c _
    · exact .of (spoken_requestForward h _)
    · exact .of (spoken_requestForward h _)
    · exact .of (spoken_stopBenchmark l c)
    · exact .of (spoken_startBenchmark h)
    · exact .of (spoken_sortByWords h _)
    · exact .of h
    · exact says_setInterval l c _
    · exact says_setInterval l c _
    · exact says_refresh h
    · exact says_refresh h
    · exact says_openByWord h _ line

theorem says_submit (h : Spoken l c.status) : Says l (c.submit s) := by
  simp only [submit]
  split
  · exact .of h
  · refine says_run ?_ _
    exact h

/-- An action leaves the line as it is or shows a notice on it. -/
theorem says_act (h : Spoken l c.status) (a : Action) : Says l (c.act s a) := by
  by_cases hc : c.mode = .confirm
  · rw [act_of_confirm hc]
    exact .of (spoken_answer h a)
  simp only [act, if_neg hc]
  cases a with
  | quit => exact .of (spoken_inform l _ _)
  | down => exact .of (spoken_moveSelection h _)
  | up => exact .of (spoken_moveSelection h _)
  | pageDown => exact .of (spoken_moveSelection h _)
  | pageUp => exact .of (spoken_moveSelection h _)
  | enter => exact says_drillDown h
  | back => exact says_goBack h
  | refresh => exact says_refresh h
  | sort letter => exact .of (spoken_sortByLetter h letter)
  | forward => exact .of (spoken_requestForward h none)
  | startBenchmark => exact .of (spoken_startBenchmark h)
  | stopBenchmark => exact .of (spoken_stopBenchmark l c)
  | deleteSelected => exact .of (spoken_requestDelete h)
  | submitInput => exact says_submit h
  | backspace => exact .of (spoken_syncFilter h)
  | inputChar ch => exact .of (spoken_syncFilter h)
  | _ => exact .of h

/-! ## What is heard -/

/-- Whether news is the end of a hold. -/
def endsHold : News → Bool
  | .holdOver _ => true
  | _ => false

theorem spoken_hear {news : News} (h : Spoken l c.status) (hnews : endsHold news = false) :
    Spoken l (c.hear s news).status := by
  cases news with
  | table generation table =>
      simp only [hear, tableLoaded]
      split <;> exact h
  | tableFailure generation message =>
      simp only [hear, tableFailed]
      split
      · exact h
      · split
        · exact h
        · exact spoken_flash l c _ _
  | forward report =>
      simp only [hear, forwardReported]
      split
      · refine spoken_hydrate (spoken_flash? ?_ _)
        exact h
      · refine spoken_flash? ?_ _
        exact h
  | benchmark completion =>
      simp only [hear, benchmarkEnded]
      refine spoken_flash? ?_ _
      exact h
  | holdOver message => cases hnews
  | settingsWritten path =>
      simp only [hear, settingsWritten]
      split
      · exact spoken_hydrate (spoken_inform l _ _)
      · exact spoken_flash l c _ _

/-- The end of a hold clears the line that shows its message, unless a benchmark is running. -/
theorem status_holdOver (c : Console) (s : Surroundings) (message : String) :
    (c.hear s (.holdOver message)).status =
      if c.runner.isRunning then c.status else c.status.resetIfShowing message := by
  simp only [hear, holdOver]
  split <;> rfl

/-- A completion that counts shows its notice. -/
theorem status_benchmark {completion : Benchmark.Completion} {n : Notice}
    (h : (c.runner.applyCompletion completion).2 = some n) :
    (c.hear s (.benchmark completion)).status = Line.ofNotice n := by
  simp only [hear, benchmarkEnded, h]
  rfl

theorem spoken_start (s : Surroundings) (home cluster context : String) (scope : Scope)
    (kind : Kind) : Spoken Line.blank (Console.start s home cluster context scope kind).status := by
  unfold Console.start
  dsimp only
  split
  · exact spoken_reloadSettings .silent ‹_›
  · exact spoken_flash _ _ _ _

theorem short_start (s : Surroundings) (home cluster context : String) (scope : Scope)
    (kind : Kind) : (Console.start s home cluster context scope kind).status.Short :=
  (spoken_start s home cluster context scope kind).short Line.short_blank

/-! ## Runs -/

/-- Something that a console meets. -/
inductive Happening where
  /-- The present view is opened. -/
  | opens
  | acts (a : Action)
  | hears (news : News)
  /-- The console's own rows are drawn. -/
  | draws
  /-- Something else has to be shown. -/
  | shows (n : Notice)
  | closes

/-- Whether what happens is the end of a hold. -/
def Happening.endsHold : Happening → Bool
  | hears news => Console.endsHold news
  | _ => false

def meet (c : Console) (s : Surroundings) : Happening → Console
  | .opens => (c.watchCurrent s).1
  | .acts a => (c.act s a).1
  | .hears news => c.hear s news
  | .draws => c.hydrate s
  | .shows n => c.flash n.level n.text
  | .closes => c.shutdown

/-- The console after a run; what is around it may change at any time. -/
def meetAll (c : Console) (hs : List (Surroundings × Happening)) : Console :=
  hs.foldl (fun c p => c.meet p.1 p.2) c

theorem meet_hears (c : Console) (s : Surroundings) (news : News) :
    c.meet s (.hears news) = c.hear s news := rfl

theorem spoken_meet {happening : Happening} (h : Spoken l c.status)
    (hhold : happening.endsHold = false) : Spoken l (c.meet s happening).status := by
  cases happening with
  | opens => exact (says_watchCurrent h).spoken
  | acts a => exact (says_act h a).spoken
  | hears news => exact spoken_hear h hhold
  | draws => exact spoken_hydrate h
  | shows n => exact spoken_flash l c _ _
  | closes => exact h

theorem exists_holdOver {happening : Happening} (h : happening.endsHold = true) :
    ∃ message, happening = .hears (.holdOver message) := by
  cases happening with
  | hears news =>
      cases news with
      | holdOver message => exact ⟨message, rfl⟩
      | _ => cases h
  | _ => cases h

theorem short_meet (h : c.status.Short) (s : Surroundings) (happening : Happening) :
    (c.meet s happening).status.Short := by
  cases hhold : happening.endsHold with
  | false => exact (spoken_meet .silent hhold).short h
  | true =>
      obtain ⟨message, rfl⟩ := exists_holdOver hhold
      rw [meet_hears, status_holdOver]
      split
      · exact h
      · exact h.resetIfShowing message

theorem short_meetAll (h : c.status.Short) (hs : List (Surroundings × Happening)) :
    (c.meetAll hs).status.Short := by
  induction hs generalizing c with
  | nil => exact h
  | cons p hs ih => exact ih (short_meet h p.1 p.2)

/-! ## Sittings -/

namespace Sitting

variable {t t' : Sitting}

theorem status_startErrands (t : Sitting) : t.startErrands.console.status = t.console.status :=
  congrArg (fun front => front.1.status) t.front_startErrands

theorem spoken_carryOut (t : Sitting) (command : Command) :
    Spoken t.console.status (t.carryOut command).console.status := by
  have hset : ∀ (live : LiveView) (change : Option WatchChange),
      (console { t with live := live, stage := change.elim t.stage (applyChange t.stage) }).status =
        t.console.status := by
    intro live change
    cases change with
    | none => rfl
    | some change => exact congrArg (fun front => front.1.status) (front_applyChange t.stage change)
  have hhome : ∀ u : Sitting, Spoken u.console.status u.watchHome.console.status := by
    intro u
    unfold watchHome
    split
    · exact .silent
    · rw [console_change]
      exact spoken_flash _ _ _ _
  unfold carryOut
  split
  · exact .silent
  · rename_i live _
    have hsame := hset (live.apply t.console command).1 (live.apply t.console command).2
    dsimp only
    split
    · split
      · rw [← hsame]
        exact hhome _
      · rw [hsame]
        exact .silent
    · rw [hsame]
      exact .silent

theorem short_follow {f : Console → Console × Option Command} (h : (f t.console).1.status.Short) :
    (t.follow f).1.console.status.Short := by
  have hstarted : ((t.change fun _ => (f t.console).1).startErrands).console.status.Short := by
    rw [status_startErrands, console_change]
    exact h
  unfold follow
  dsimp only
  cases (f t.console).2 with
  | none => exact hstarted
  | some command => exact (spoken_carryOut _ command).short hstarted

/-- A console without errands whose line is short stays so, whatever is heard. -/
theorem keeps_short : owner.Keeps fun c => c.errands = [] ∧ c.status.Short :=
  fun s news _ h => ⟨keeps_errands s news _ h.1, short_meet h.2 s (.hears news)⟩

theorem Step.short {x : Forwarding.Exchange} {y : Benchmark.Series} (hstep : Step t t')
    (hreflects : t.Reflects x y) (h : t.console.status.Short) : t'.console.status.Short := by
  have hboth : t.stage.Mirrors owner (fun c => c.errands = [] ∧ c.status.Short) [] x y :=
    { hreflects with kept := ⟨hreflects.kept, h⟩ }
  cases hstep with
  | opening => exact short_follow (short_meet h t.stage.surroundings .opens)
  | act a => exact short_follow (short_meet h t.stage.surroundings (.acts a))
  | hear =>
      rw [Sitting.hear, console_change]
      exact short_meet h t.stage.surroundings (.hears _)
  | tick =>
      rw [console_change]
      exact short_meet h t.stage.surroundings .draws
  | settle =>
      obtain ⟨_, _, hafter⟩ :=
        Background.Stage.accounted_settle attentive keeps_short t.stage x y hboth
      exact hafter.kept.2
  | wait ms =>
      obtain ⟨_, _, hafter⟩ :=
        Background.Stage.accounted_wait attentive keeps_short t.stage ms x y hboth
      exact hafter.kept.2
  | shutdown =>
      rw [Sitting.shutdown, console_change]
      exact short_meet h t.stage.surroundings .closes
  | breakWaiting e =>
      obtain ⟨_, _, hafter⟩ := Background.Stage.accounted_breakWaiting owner t.stage e x y hboth
      exact hafter.kept.2
  | outside hfront =>
      have hconsole : t'.console = t.console := congrArg Prod.fst hfront
      rw [hconsole]
      exact h

theorem Reached.short (h : Reached t) : t.console.status.Short := by
  induction h with
  | start around home cluster context scope kind =>
      have h := short_start around home cluster context scope kind
      generalize Console.start around home cluster context scope kind = c at h ⊢
      exact h
  | step hbefore hstep ih =>
      obtain ⟨_, _, _, hreflects⟩ := hbefore.reflects
      exact hstep.short hreflects ih

end Sitting

/-! ## The end of a hold -/

/-- Nothing is shown in a run: what happens leaves the line as it is, apart from the ends of
holds, which may clear it. -/
def Quiet : Console → List (Surroundings × Happening) → Prop
  | _, [] => True
  | c, (s, happening) :: hs =>
      (happening.endsHold = false → (c.meet s happening).status = c.status) ∧
        Quiet (c.meet s happening) hs

/-- Where nothing is shown the line stays or is cleared. -/
theorem Quiet.status_meetAll {hs : List (Surroundings × Happening)} (hquiet : Quiet c hs)
    (h : c.status = l ∨ c.status = Line.blank) :
    (c.meetAll hs).status = l ∨ (c.meetAll hs).status = Line.blank := by
  induction hs generalizing c with
  | nil => exact h
  | cons p hs ih =>
      obtain ⟨s, happening⟩ := p
      obtain ⟨hstep, hquiet⟩ := hquiet
      refine ih hquiet ?_
      cases hhold : happening.endsHold with
      | false => rwa [hstep hhold]
      | true =>
          obtain ⟨message, rfl⟩ := exists_holdOver hhold
          change (c.hear s (.holdOver message)).status = l ∨
            (c.hear s (.holdOver message)).status = Line.blank
          rw [status_holdOver]
          split
          · exact h
          · unfold Line.resetIfShowing
            split
            · exact .inr rfl
            · exact h

/-- If nothing was shown after a message, the end of its hold leaves the line empty. -/
theorem status_holdOver_of_quiet {n : Notice} {hs : List (Surroundings × Happening)}
    (hc : c.status = Line.ofNotice n) (hquiet : Quiet c hs)
    (hrun : (c.meetAll hs).runner.isRunning = false) (s : Surroundings) :
    ((c.meetAll hs).hear s (.holdOver n.text)).status = Line.blank := by
  rw [status_holdOver, if_neg (by simp [hrun])]
  rcases hquiet.status_meetAll (.inl hc) with h | h
  · rw [h, Line.resetIfShowing_ofNotice]
  · rw [h, Line.resetIfShowing_blank]

/-! ## All that the line shows -/

structure OneShortLine : Prop where
  /-- At every moment of a sitting the line is one line of at most 180 characters, -/
  reached : ∀ t, Sitting.Reached t →
    '\n' ∉ t.console.status.text.toList ∧ t.console.status.text.toList.length ≤ 180
  /-- and so it is whatever a console has met. -/
  short : ∀ (s : Surroundings) (home cluster context : String) (scope : Scope) (kind : Kind)
    (hs : List (Surroundings × Happening)),
    '\n' ∉ ((start s home cluster context scope kind).meetAll hs).status.text.toList ∧
      ((start s home cluster context scope kind).meetAll hs).status.text.toList.length ≤ 180
  /-- Every text has a first line, and that is what is shown of it, up to the limit. -/
  firstLine : ∀ text : String, ∃ line, Text.FirstLine text.toList line ∧
    (line.length ≤ 180 → statusText text = String.ofList line) ∧
    (180 < line.length → statusText text = String.ofList (line.take 179 ++ ['…']))
  again : ∀ text, statusText (statusText text) = statusText text
  /-- Nothing but the end of a hold clears a line. -/
  spoken : ∀ (c : Console) (s : Surroundings) (happening : Happening),
    happening.endsHold = false → Spoken c.status (c.meet s happening).status
  /-- A completion that counts shows its notice, and the message that is held is that notice's
  text as it is, -/
  told : ∀ (c : Console) (s : Surroundings) (completion : Benchmark.Completion) (n : Notice),
    (c.runner.applyCompletion completion).2 = some n →
      (c.hear s (.benchmark completion)).status = Line.ofNotice n ∧
      ∀ trial : Benchmark.Trial, (trial.told completion true).release.2 = some n.text
  /-- and whatever message it is, the end of its hold leaves the line empty, if nothing was shown
  since then and no benchmark is running. -/
  cleared : ∀ (c : Console) (level : Level) (message : String)
    (hs : List (Surroundings × Happening)) (s : Surroundings),
    Quiet (c.flash level message) hs →
    ((c.flash level message).meetAll hs).runner.isRunning = false →
    (((c.flash level message).meetAll hs).hear s (.holdOver message)).status = Line.blank
  /-- A line that shows something else stays, text and level, and so does every line while a
  benchmark is running. -/
  left : ∀ (c : Console) (s : Surroundings) (message : String),
    c.status.text ≠ statusText message ∨ c.runner.isRunning = true →
      (c.hear s (.holdOver message)).status = c.status

theorem line_is_short_and_recognised : OneShortLine where
  reached _ h := ⟨h.short.feed_notMem, h.short.length_le⟩
  short s home cluster context scope kind hs := by
    have h := short_meetAll (short_start s home cluster context scope kind) hs
    exact ⟨h.feed_notMem, h.length_le⟩
  firstLine text := by
    obtain ⟨line, hline⟩ := Text.exists_firstLine text.toList
    have htext := toList_statusText hline
    refine ⟨line, hline, fun hshort => ?_, fun hlong => ?_⟩
    · rw [if_pos hshort] at htext
      rw [← htext, String.ofList_toList]
    · rw [if_neg (Nat.not_le.2 hlong)] at htext
      rw [← String.toList_inj, htext, String.toList_ofList]
  again := statusText_statusText
  spoken _ _ _ hhold := spoken_meet .silent hhold
  told c s completion n h := by
    refine ⟨status_benchmark h, fun trial => ?_⟩
    have hn : n = completion.notice := by
      unfold Benchmark.Runner.applyCompletion at h
      split at h
      · exact (Option.some.inj h).symm
      · cases h
    rw [hn]
    rfl
  cleared c level message _ s hquiet hrun :=
    status_holdOver_of_quiet (n := ⟨level, message⟩) rfl hquiet hrun s
  left c s message h := by
    rw [status_holdOver]
    split
    · rfl
    · rename_i hrun
      exact Line.resetIfShowing_of_ne (h.resolve_right hrun)

end Console

end ClusterConsole
