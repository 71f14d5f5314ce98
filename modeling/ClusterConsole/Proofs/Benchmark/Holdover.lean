import ClusterConsole.Proofs.Benchmark.Bookkeeping
import Mathlib.Data.List.Induction
import Mathlib.Data.List.InsertIdx

/-!
# The end of the hold

When the hold of a benchmark's message is over, the status line is cleared if no
benchmark is running and it reads like that message. `Signed` is a series together with
what it does not keep itself: which benchmark has queued what, and where the line comes
from. So it can be said whose message it was that was cleared.

It reads like the benchmark's own message, but it need not be that: two benchmarks that
were canceled leave the same words, and the benchmark that was replaced, whose completion
was never shown, takes away those of the one that replaced it.
-/

namespace ClusterConsole.Benchmark

open ClusterConsole.Status
open ClusterConsole.Storage (Files)

/-- Two words that are not the completion of one benchmark. -/
def Word.Apart (v w : Word) : Prop :=
  ∀ c d, v = .completion c → w = .completion d → c.id ≠ d.id

/-- Where the status line comes from. -/
inductive Source where
  /-- Nothing was shown yet, or it was cleared. -/
  | nobody
  | completion (c : Completion)
  | other (notice : Notice)

namespace Source

def notice? : Source → Option Notice
  | nobody => none
  | completion c => some c.notice
  | other notice => some notice

def line (source : Source) : Line := (source.notice?.map Line.ofNotice).getD Line.blank

end Source

structure Signed where
  series : Series
  /-- What waits in the queue, each with the benchmark that has queued it. -/
  letters : List (Option Nat × Word)
  source : Source

namespace Signed

def empty (directory : Option String) : Signed := ⟨Series.empty directory, [], .nobody⟩

/-- What the benchmark at a place has queued when the series has become `x`. -/
def sign (y : Signed) (k : Nat) (x : Series) : List (Option Nat × Word) :=
  (x.queue.drop y.series.queue.length).map fun word => (y.series.trials[k]?.map Trial.id, word)

def lettersAfter (y : Signed) : Act → List (Option Nat × Word)
  | .tell k files time => y.letters ++ y.sign k (y.series.tell k files time)
  | .release k => y.letters ++ y.sign k (y.series.release k)
  | .hear i => y.letters.eraseIdx i
  | _ => y.letters

/-- Whether the end of the hold of a message clears the line. -/
def Clears (x : Series) (message : String) : Prop :=
  x.runner.isRunning = false ∧ x.line.text = statusText message

instance (x : Series) (message : String) : Decidable (Clears x message) :=
  inferInstanceAs (Decidable (_ ∧ _))

def sourceAfter (y : Signed) : Act → Source
  | .flash notice => .other notice
  | .hear i =>
      match y.series.queue[i]? with
      | some (.completion c) =>
          if (y.series.runner.applyCompletion c).2.isSome then .completion c else y.source
      | some (.holdOver message) => if Clears y.series message then .nobody else y.source
      | none => y.source
  | _ => y.source

def act (y : Signed) (a : Act) : Signed := ⟨y.series.act a, y.lettersAfter a, y.sourceAfter a⟩

def after (y : Signed) (acts : List Act) : Signed := acts.foldl act y

variable {y : Signed} {x : Series} {c d : Completion} {i k : Nat} {directory : Option String}

theorem after_append (y : Signed) (acts acts' : List Act) :
    y.after (acts ++ acts') = (y.after acts).after acts' :=
  List.foldl_append

/-- What is noted down beside the series changes nothing about it. -/
theorem series_after (y : Signed) (acts : List Act) :
    (y.after acts).series = y.series.after acts := by
  induction acts generalizing y with
  | nil => rfl
  | cons a acts ih => exact ih (y.act a)

/-! ## What is heard -/

theorem hear_holdOver {message : String} (hi : x.queue[i]? = some (.holdOver message)) :
    x.hear i = { x with
      queue := x.queue.eraseIdx i
      line := if Clears x message then Line.blank else x.line } := by
  by_cases hrun : x.runner.isRunning = true
  · simp [Series.hear, hi, hrun, Clears]
  · by_cases htext : x.line.text = statusText message <;>
      simp [Series.hear, hi, hrun, htext, Clears, Line.resetIfShowing]

theorem hear_owner {s : Session} (hi : x.queue[i]? = some (.completion c))
    (hs : x.runner.slot = some s) (hid : s.id = c.id) :
    x.hear i = { x with
      queue := x.queue.eraseIdx i
      runner := { x.runner with slot := none, calledOff := s.id :: x.runner.calledOff }
      line := Line.ofNotice c.notice } := by
  simp [Series.hear, hi, Runner.applyCompletion_of_eq hs hid, Series.flash?]

theorem hear_stale (hi : x.queue[i]? = some (.completion c))
    (hne : ∀ s, x.runner.slot = some s → s.id ≠ c.id) :
    x.hear i = { x with queue := x.queue.eraseIdx i } := by
  simp [Series.hear, hi, Runner.applyCompletion_of_ne hne, Series.flash?]

/-! ## What every act keeps -/

/-- All letters are signed by who wrote them, of each benchmark there is at most one
completion on the way, and the line is that of its source. -/
structure Honest (y : Signed) : Prop where
  sound : y.series.Sound
  words : y.letters.map Prod.snd = y.series.queue
  line : y.series.line = y.source.line
  completion : ∀ s c, (s, .completion c) ∈ y.letters → s = some c.id ∧ c ∈ y.series.told
  holdOver : ∀ s message, (s, .holdOver message) ∈ y.letters →
    ∃ c ∈ y.series.told, s = some c.id ∧ message = c.notice.text
  apart : y.series.queue.Pairwise Word.Apart
  shown : ∀ c, y.source = .completion c → c ∈ y.series.told ∧ .completion c ∉ y.series.queue
  held : ∀ t ∈ y.series.trials, ∀ message, t.progress = .told message →
    ∃ c ∈ y.series.told, c.id = t.id ∧ message = c.notice.text

namespace Honest

theorem empty (directory : Option String) : (empty directory).Honest where
  sound := Series.Sound.empty directory
  words := rfl
  line := rfl
  completion := by simp [Signed.empty]
  holdOver := by simp [Signed.empty]
  apart := List.Pairwise.nil
  shown := by simp [Signed.empty]
  held := by simp [Signed.empty, Series.empty]

/-- What was told by a benchmark is its one completion. -/
theorem eq_of_id (h : y.Honest) (hc : c ∈ y.series.told) (hd : d ∈ y.series.told)
    (hid : c.id = d.id) : c = d :=
  List.inj_on_of_nodup_map h.sound.nodup hc hd hid

theorem mem_told (h : y.Honest) (hc : .completion c ∈ y.series.queue) : c ∈ y.series.told := by
  rw [← h.words] at hc
  obtain ⟨⟨s, word⟩, hmem, rfl⟩ := List.mem_map.1 hc
  exact (h.completion s c hmem).2

/-- A completion that is heard is not heard again. -/
theorem notMem_eraseIdx (h : y.Honest) (hi : y.series.queue[i]? = some (.completion c)) :
    .completion c ∉ y.series.queue.eraseIdx i := by
  intro hmem
  obtain ⟨j, hne, hj⟩ := List.mem_eraseIdx_iff_getElem?.1 hmem
  obtain ⟨hilt, hi⟩ := List.getElem?_eq_some_iff.1 hi
  obtain ⟨hjlt, hj⟩ := List.getElem?_eq_some_iff.1 hj
  have hapart := List.pairwise_iff_getElem.1 h.apart
  rcases Nat.lt_or_gt_of_ne hne with hlt | hlt
  · exact hapart j i hjlt hilt hlt c c hj hi rfl
  · exact hapart i j hilt hjlt hlt c c hi hj rfl

/-- Nothing was queued, told or shown, and no message is held that was not held before. -/
theorem quiet {x' : Series} (h : y.Honest) (hsound : x'.Sound)
    (hqueue : x'.queue = y.series.queue) (htold : x'.told = y.series.told)
    (hline : x'.line = y.series.line)
    (htrials : ∀ t ∈ x'.trials, ∀ message, t.progress = .told message →
      ∃ u ∈ y.series.trials, u.id = t.id ∧ u.progress = .told message) :
    Honest ⟨x', y.letters, y.source⟩ where
  sound := hsound
  words := h.words.trans hqueue.symm
  line := hline.trans h.line
  completion s c hc := htold ▸ h.completion s c hc
  holdOver s message hm := htold ▸ h.holdOver s message hm
  apart := hqueue ▸ h.apart
  shown c hc := by
    rw [htold, hqueue]
    exact h.shown c hc
  held t ht message hm := by
    obtain ⟨u, hu, hid, hprogress⟩ := htrials t ht message hm
    rw [htold, ← hid]
    exact h.held u hu message hprogress

/-- A step of one benchmark in which no message comes to be held. -/
theorem onTrial {f : Trial → Trial} (h : y.Honest) (k : Nat)
    (hsound : (y.series.onTrial k f).Sound) (hid : ∀ t, (f t).id = t.id)
    (hf : ∀ t message, (f t).progress = .told message → t.progress = .told message) :
    Honest ⟨y.series.onTrial k f, y.letters, y.source⟩ := by
  refine h.quiet hsound rfl rfl rfl fun u hu message hm => ?_
  obtain ⟨j, t, hj, rfl⟩ := Series.mem_onTrial.1 hu
  refine ⟨t, List.mem_of_getElem? hj, ?_⟩
  by_cases hk : k = j
  · rw [if_pos hk] at hm ⊢
    exact ⟨(hid t).symm, hf t message hm⟩
  · rw [if_neg hk] at hm ⊢
    exact ⟨rfl, hm⟩

/-- A completion is queued by the benchmark that it is of. -/
theorem completed {t : Trial} (h : y.Honest) (ht : y.series.trials[k]? = some t) (hto : ¬ t.Over)
    (hid : c.id = t.id)
    (hsound : Series.Sound { y.series.onTrial k (·.told c true) with
      queue := y.series.queue ++ [.completion c], told := y.series.told ++ [c] }) :
    Honest ⟨{ y.series.onTrial k (·.told c true) with
      queue := y.series.queue ++ [.completion c], told := y.series.told ++ [c] },
      y.letters ++ [(some t.id, .completion c)], y.source⟩ := by
  have hnew := h.sound.id_notMem_told (List.mem_of_getElem? ht) hto
  have fresh : ∀ d ∈ y.series.told, d.id ≠ c.id := fun d hd heq =>
    hnew (hid ▸ heq ▸ List.mem_map_of_mem hd)
  refine
    { sound := hsound
      words := by rw [List.map_append, h.words]; rfl
      line := h.line
      completion := fun s d hd => ?_
      holdOver := fun s message hm => ?_
      apart := ?_
      shown := fun d hd => ?_
      held := fun u hu message hm => ?_ }
  · rcases List.mem_append.1 hd with hd | hd
    · obtain ⟨hs, hmem⟩ := h.completion s d hd
      exact ⟨hs, List.mem_append_left _ hmem⟩
    · obtain ⟨rfl, hword⟩ := Prod.mk.inj (List.mem_singleton.1 hd)
      obtain rfl := Word.completion.inj hword
      exact ⟨congrArg some hid.symm, List.mem_append_right _ List.mem_cons_self⟩
  · rcases List.mem_append.1 hm with hm | hm
    · obtain ⟨d, hd, hrest⟩ := h.holdOver s message hm
      exact ⟨d, List.mem_append_left _ hd, hrest⟩
    · cases (Prod.mk.inj (List.mem_singleton.1 hm)).2
  · refine List.pairwise_append.2 ⟨h.apart, List.pairwise_singleton _ _, ?_⟩
    rintro v hv w hw d e rfl rfl
    obtain rfl := Word.completion.inj (List.mem_singleton.1 hw)
    exact fresh d (h.mem_told hv)
  · obtain ⟨hmem, hqueue⟩ := h.shown d hd
    refine ⟨List.mem_append_left _ hmem, fun hin => ?_⟩
    rcases List.mem_append.1 hin with hin | hin
    · exact hqueue hin
    · obtain rfl := Word.completion.inj (List.mem_singleton.1 hin)
      exact fresh d hmem rfl
  · obtain ⟨j, v, hj, rfl⟩ := Series.mem_onTrial.1 hu
    by_cases hk : k = j
    · subst hk
      rw [if_pos rfl] at hm ⊢
      rw [ht] at hj
      obtain rfl := Option.some.inj hj
      exact ⟨c, List.mem_append_right _ List.mem_cons_self, hid, (Progress.told.inj hm).symm⟩
    · rw [if_neg hk] at hm ⊢
      obtain ⟨d, hd, hrest⟩ := h.held v (List.mem_of_getElem? hj) message hm
      exact ⟨d, List.mem_append_left _ hd, hrest⟩

theorem tell (h : y.Honest) (k : Nat) (files : Files) (time : Time.Moment) :
    (y.act (.tell k files time)).Honest := by
  have hsound := h.sound.tell k files time
  cases hk : y.series.trials[k]?.bind fun t =>
      t.complete? files y.series.runner.directory time with
  | none =>
      have hsame : y.series.tell k files time = y.series := by simp [Series.tell, hk]
      have hact : y.act (.tell k files time) = y := by
        simp [act, Series.act, lettersAfter, sourceAfter, sign, hsame]
      rwa [hact]
  | some p =>
      obtain ⟨files', c⟩ := p
      obtain ⟨t, ht, hc⟩ := Option.bind_eq_some_iff.1 hk
      obtain ⟨hrank, hid⟩ := Trial.complete?_eq_some hc
      have hto : ¬ t.Over := by
        rw [Trial.Over, hrank]
        omega
      by_cases hl : y.series.listening = true
      · have htell : y.series.tell k files time = { y.series.onTrial k (·.told c true) with
            queue := y.series.queue ++ [.completion c], told := y.series.told ++ [c] } := by
          simp [Series.tell, Series.push, Series.onTrial, hk, hl]
        have hact : y.act (.tell k files time) = ⟨{ y.series.onTrial k (·.told c true) with
            queue := y.series.queue ++ [.completion c], told := y.series.told ++ [c] },
            y.letters ++ [(some t.id, .completion c)], y.source⟩ := by
          simp [act, Series.act, lettersAfter, sourceAfter, sign, htell, ht]
        rw [hact]
        exact h.completed ht hto hid (htell ▸ hsound)
      · have htell : y.series.tell k files time = y.series.onTrial k (·.told c false) := by
          simp [Series.tell, Series.push, Series.onTrial, hk, hl]
        have hact : y.act (.tell k files time) =
            ⟨y.series.onTrial k (·.told c false), y.letters, y.source⟩ := by
          simp [act, Series.act, lettersAfter, sourceAfter, sign, htell, Series.onTrial]
        rw [hact]
        exact h.onTrial k (htell ▸ hsound) (fun _ => rfl) (by rintro _ _ ⟨⟩)

/-- The end of a hold is queued by the benchmark whose message it is. -/
theorem pushHold {s : Option Nat} (h : y.Honest) (hc : c ∈ y.series.told) (hs : s = some c.id) :
    Honest ⟨{ y.series with queue := y.series.queue ++ [.holdOver c.notice.text] },
      y.letters ++ [(s, .holdOver c.notice.text)], y.source⟩ where
  sound := { h.sound with }
  words := by rw [List.map_append, h.words]; rfl
  line := h.line
  completion s' d hd := by
    rcases List.mem_append.1 hd with hd | hd
    · exact h.completion s' d hd
    · cases (Prod.mk.inj (List.mem_singleton.1 hd)).2
  holdOver s' message hm := by
    rcases List.mem_append.1 hm with hm | hm
    · exact h.holdOver s' message hm
    · obtain ⟨rfl, hword⟩ := Prod.mk.inj (List.mem_singleton.1 hm)
      exact ⟨c, hc, hs, Word.holdOver.inj hword⟩
  apart := by
    refine List.pairwise_append.2 ⟨h.apart, List.pairwise_singleton _ _, ?_⟩
    rintro v - w hw d e - rfl
    cases List.mem_singleton.1 hw
  shown d hd := by
    obtain ⟨hmem, hqueue⟩ := h.shown d hd
    refine ⟨hmem, fun hin => ?_⟩
    rcases List.mem_append.1 hin with hin | hin
    · exact hqueue hin
    · cases List.mem_singleton.1 hin
  held := h.held

theorem release (h : y.Honest) (k : Nat) : (y.act (.release k)).Honest := by
  have hstep : Honest ⟨y.series.onTrial k (·.release.1), y.letters, y.source⟩ := by
    have hsound : (y.series.onTrial k (·.release.1)).Sound := by
      refine h.sound.onTrial k Trial.id_release fun t => ?_
      rw [Trial.Over, Trial.Over, Trial.rank_release]
      split <;> omega
    refine h.onTrial k hsound Trial.id_release fun t message hm => ?_
    cases hp : t.progress with
    | told message' => simp [Trial.release, hp] at hm
    | _ => rwa [← hp, ← show t.release.1.progress = t.progress by simp [Trial.release, hp]]
  cases hk : y.series.trials[k]?.bind fun t => t.release.2 with
  | none =>
      have hsame : y.series.release k = y.series := by simp [Series.release, hk]
      have hact : y.act (.release k) = y := by
        simp [act, Series.act, lettersAfter, sourceAfter, sign, hsame]
      rwa [hact]
  | some message =>
      obtain ⟨t, ht, hm⟩ := Option.bind_eq_some_iff.1 hk
      have hprogress : t.progress = .told message := by
        cases hp : t.progress <;> simp [Trial.release, hp] at hm
        rw [hm]
      obtain ⟨c, hc, hid, rfl⟩ := h.held t (List.mem_of_getElem? ht) message hprogress
      by_cases hl : y.series.listening = true
      · have hrelease : y.series.release k = { y.series.onTrial k (·.release.1) with
            queue := y.series.queue ++ [.holdOver c.notice.text] } := by
          simp [Series.release, Series.push, Series.onTrial, hk, hl]
        have hact : y.act (.release k) = ⟨{ y.series.onTrial k (·.release.1) with
            queue := y.series.queue ++ [.holdOver c.notice.text] },
            y.letters ++ [(some t.id, .holdOver c.notice.text)], y.source⟩ := by
          simp [act, Series.act, lettersAfter, sourceAfter, sign, hrelease, ht]
        rw [hact]
        exact hstep.pushHold hc (congrArg some hid.symm)
      · have hrelease : y.series.release k = y.series.onTrial k (·.release.1) := by
          simp [Series.release, Series.push, Series.onTrial, hk, hl]
        have hact : y.act (.release k) =
            ⟨y.series.onTrial k (·.release.1), y.letters, y.source⟩ := by
          simp [act, Series.act, lettersAfter, sourceAfter, sign, hrelease, Series.onTrial]
        rwa [hact]

/-- A word is taken from the queue; the line is now that of another source. -/
theorem heard {r : Runner} {source : Source} (h : y.Honest) (i : Nat)
    (hsound : (y.series.hear i).Sound)
    (hhear : y.series.hear i = { y.series with
      queue := y.series.queue.eraseIdx i, runner := r, line := source.line })
    (hshown : ∀ c, source = .completion c →
      c ∈ y.series.told ∧ .completion c ∉ y.series.queue.eraseIdx i) :
    Honest ⟨y.series.hear i, y.letters.eraseIdx i, source⟩ := by
  rw [hhear] at hsound ⊢
  exact
    { sound := hsound
      words := by rw [← h.words, List.eraseIdx_map]
      line := rfl
      completion := fun s c hc => h.completion s c (List.mem_of_mem_eraseIdx hc)
      holdOver := fun s message hm => h.holdOver s message (List.mem_of_mem_eraseIdx hm)
      apart := h.apart.sublist (List.eraseIdx_sublist _ _)
      shown := hshown
      held := h.held }

theorem hear (h : y.Honest) (i : Nat) : (y.act (.hear i)).Honest := by
  have hsound := h.sound.hear i
  -- what was shown before is not in the queue, and so it is not there afterwards
  have hshown : ∀ c, y.source = .completion c →
      c ∈ y.series.told ∧ .completion c ∉ y.series.queue.eraseIdx i := fun c hc =>
    ⟨(h.shown c hc).1, fun hmem => (h.shown c hc).2 (List.mem_of_mem_eraseIdx hmem)⟩
  cases hi : y.series.queue[i]? with
  | none =>
      have hlength : y.series.queue.length ≤ i := List.getElem?_eq_none_iff.1 hi
      have hletters : y.letters.length ≤ i := by
        rw [← h.words, List.length_map] at hlength
        exact hlength
      have hact : y.act (.hear i) = y := by
        simp [act, Series.act, Series.hear, lettersAfter, sourceAfter, hi,
          List.eraseIdx_of_length_le hletters]
      rwa [hact]
  | some word =>
      cases word with
      | holdOver message =>
          have hhear := hear_holdOver hi
          have hsource : y.sourceAfter (.hear i) =
              if Clears y.series message then .nobody else y.source := by
            simp [sourceAfter, hi]
          simp only [act, Series.act, lettersAfter, hsource]
          by_cases hclear : Clears y.series message
          · rw [if_pos hclear] at hhear ⊢
            exact h.heard i hsound hhear (by simp)
          · rw [if_neg hclear] at hhear ⊢
            rw [h.line] at hhear
            exact h.heard i hsound hhear hshown
      | completion c =>
          by_cases howner : ∃ s, y.series.runner.slot = some s ∧ s.id = c.id
          · obtain ⟨s, hs, hid⟩ := howner
            have hsource : y.sourceAfter (.hear i) = .completion c := by
              simp [sourceAfter, hi, Runner.applyCompletion_of_eq hs hid]
            simp only [act, Series.act, lettersAfter, hsource]
            refine h.heard i hsound (hear_owner hi hs hid) fun d hd => ?_
            obtain rfl := Source.completion.inj hd
            exact ⟨h.mem_told (List.mem_of_getElem? hi), h.notMem_eraseIdx hi⟩
          · have hne : ∀ s, y.series.runner.slot = some s → s.id ≠ c.id :=
              fun s hs hid => howner ⟨s, hs, hid⟩
            have hsource : y.sourceAfter (.hear i) = y.source := by
              simp [sourceAfter, hi, Runner.applyCompletion_of_ne hne]
            have hhear := hear_stale hi hne
            simp only [act, Series.act, lettersAfter, hsource]
            rw [h.line] at hhear
            exact h.heard i hsound hhear hshown

theorem act (h : y.Honest) (a : Act) : (y.act a).Honest := by
  have hsound := h.sound.act a
  have hkeep : ∀ t ∈ y.series.trials, ∀ message, t.progress = .told message →
      ∃ u ∈ y.series.trials, u.id = t.id ∧ u.progress = .told message :=
    fun t ht message hm => ⟨t, ht, rfl, hm⟩
  cases a with
  | run now target =>
      refine h.quiet hsound ?_ ?_ ?_ fun t ht message hm => ?_
      · simp only [Series.act, Series.run]
        split <;> rfl
      · simp only [Series.act, Series.run]
        split <;> rfl
      · simp only [Series.act, Series.run]
        split <;> rfl
      · simp only [Series.act, Series.run] at ht
        split at ht
        · rcases List.mem_append.1 ht with ht | ht
          · exact hkeep t ht message hm
          · rw [List.mem_singleton.1 ht] at hm
            cases hm
        · exact hkeep t ht message hm
  | reload files path =>
      refine h.quiet hsound ?_ ?_ ?_ ?_
      all_goals
        simp only [Series.act, Series.reload]
        split
      all_goals first
        | rfl
        | exact hkeep
  | stir k p =>
      refine h.onTrial k hsound (fun t => t.id_stir p) fun t message hm => ?_
      unfold Trial.stir at hm
      split at hm
      · rename_i hp
        have hm : p = .told message := hm
        simp [Trial.underway, hm] at hp
      · exact hm
  | load k result =>
      refine h.onTrial k hsound (fun t => t.id_finish result) fun t message hm => ?_
      unfold Trial.finish at hm
      split at hm
      · cases hm
      · exact hm
  | read k =>
      refine h.onTrial k hsound (fun t => t.id_read _) fun t message hm => ?_
      unfold Trial.read at hm
      split at hm
      · cases hm
      · exact hm
  | tell k files time => exact h.tell k files time
  | release k => exact h.release k
  | hear i => exact h.hear i
  | flash notice => exact { h with sound := hsound, line := rfl, shown := by rintro _ ⟨⟩ }
  | _ => exact h.quiet hsound rfl rfl rfl hkeep

theorem after (h : y.Honest) (acts : List Act) : (y.after acts).Honest := by
  induction acts generalizing y with
  | nil => exact h
  | cons a acts ih => exact ih (h.act a)

end Honest

/-! ## What a line can come from -/

/-- The first line is not empty once two of its characters were read. -/
theorem head?_linesFrom_ne_nil (cs : List Char) (run : List Char) (hrun : 2 ≤ run.length) :
    ∃ line, (Text.linesFrom run cs).head? = some line ∧ line ≠ [] := by
  induction cs generalizing run with
  | nil =>
      have hne : run ≠ [] := List.ne_nil_of_length_pos (by omega)
      exact ⟨run.reverse, by simp [Text.linesFrom, hne], by simpa using hne⟩
  | cons ch cs ih =>
      by_cases hch : ch = '\n'
      · refine ⟨_, by rw [Text.linesFrom, if_pos hch, List.head?_cons], fun hnil => ?_⟩
        have hlength := congrArg List.length hnil
        simp only [List.length_reverse, List.length_nil] at hlength
        split at hlength
        · rw [List.length_tail] at hlength
          omega
        · omega
      · rw [Text.linesFrom, if_neg hch]
        exact ih (ch :: run) (by simp; omega)

/-- The message of a completion is never empty. -/
theorem statusText_notice_ne (c : Completion) : statusText c.notice.text ≠ "" := by
  obtain ⟨rest, hrest⟩ : ∃ rest, c.notice.text.toList = 'B' :: 'e' :: rest := by
    cases hresult : c.result with
    | error chain => exact ⟨_, by simp [Completion.notice, hresult]; rfl⟩
    | ok report =>
        cases hcanceled : c.canceled with
        | true => exact ⟨_, by simp [Completion.notice, hresult, hcanceled]; rfl⟩
        | false => exact ⟨_, by simp [Completion.notice, hresult, hcanceled]; rfl⟩
  obtain ⟨line, hline, hne⟩ := head?_linesFrom_ne_nil rest ['e', 'B'] (by decide)
  have hhead : (Text.linesFrom [] c.notice.text.toList).head? = some line := by
    rw [hrest, Text.linesFrom, if_neg (by decide), Text.linesFrom, if_neg (by decide), hline]
  intro hempty
  have hlist := congrArg String.toList hempty
  rw [statusText, hhead] at hlist
  split at hlist <;> simp [hne] at hlist

theorem mem_of_source_other {acts : List Act} {notice : Notice}
    (h : ((empty directory).after acts).source = .other notice) : .flash notice ∈ acts := by
  induction acts using List.reverseRecOn with
  | nil => cases h
  | append_singleton acts a ih =>
      rw [after_append] at h
      replace h : ((empty directory).after acts).sourceAfter a = .other notice := h
      unfold sourceAfter at h
      split at h
      · obtain rfl := Source.other.inj h
        exact List.mem_append_right _ List.mem_cons_self
      · split at h
        · split at h
          · cases h
          · exact List.mem_append_left _ (ih h)
        · split at h
          · cases h
          · exact List.mem_append_left _ (ih h)
        · exact List.mem_append_left _ (ih h)
      · exact List.mem_append_left _ (ih h)

theorem source_act {a : Act} (h : (y.act a).source = .completion c) :
    y.source = .completion c ∨ .completion c ∈ y.series.queue := by
  replace h : y.sourceAfter a = .completion c := h
  unfold sourceAfter at h
  split at h
  · cases h
  · split at h
    · rename_i hword
      split at h
      · obtain rfl := Source.completion.inj h
        exact .inr (List.mem_of_getElem? hword)
      · exact .inl h
    · split at h
      · cases h
      · exact .inl h
    · exact .inl h
  · exact .inl h

theorem mem_queue_push {word : Word} (h : .completion c ∈ (x.push word).queue) :
    .completion c ∈ x.queue ∨ x.listening = true ∧ word = .completion c := by
  rcases x.push_cases word with hpush | ⟨hl, hpush⟩
  · exact .inl (hpush ▸ h)
  · rw [hpush] at h
    rcases List.mem_append.1 h with h | h
    · exact .inl h
    · exact .inr ⟨hl, (List.mem_singleton.1 h).symm⟩

/-- A completion that comes into the queue has just been told. -/
theorem queue_act {a : Act} (h : .completion c ∈ (x.act a).queue) :
    .completion c ∈ x.queue ∨ (x.act a).told = x.told ++ [c] := by
  cases a with
  | run now target =>
      simp only [Series.act, Series.run] at h
      split at h <;> exact .inl h
  | reload files path =>
      simp only [Series.act, Series.reload] at h
      split at h <;> exact .inl h
  | tell k files time =>
      simp only [Series.act, Series.tell] at h ⊢
      split at h
      · exact .inl h
      · rename_i files' d hk
        rcases mem_queue_push h with h | ⟨hl, hword⟩
        · exact .inl h
        · obtain rfl := Word.completion.inj hword
          have hl : x.listening = true := hl
          exact .inr (by simp [Series.told_push, hl])
  | release k =>
      simp only [Series.act, Series.release] at h ⊢
      split at h
      · exact .inl h
      · rcases mem_queue_push h with h | ⟨-, hword⟩
        · exact .inl h
        · cases hword
  | hear i =>
      refine .inl ?_
      simp only [Series.act, Series.hear] at h
      split at h
      · exact h
      · split at h
        · exact List.mem_of_mem_eraseIdx h
        · split at h <;> exact List.mem_of_mem_eraseIdx h
  | _ => exact .inl h

/-- The completion was told, and is neither on the way nor shown. -/
structure Passed (y : Signed) (c : Completion) : Prop where
  told : c ∈ y.series.told
  queue : .completion c ∉ y.series.queue
  source : y.source ≠ .completion c

theorem Passed.act (hc : y.Passed c) (h : y.Honest) (a : Act) : (y.act a).Passed c where
  told := (y.series.told_act a).subset hc.told
  queue hmem := by
    rcases queue_act hmem with hmem | htold
    · exact hc.queue hmem
    · have hnodup := (h.sound.act a).nodup
      rw [htold, List.map_append] at hnodup
      exact (List.nodup_append.1 hnodup).2.2 _ (List.mem_map_of_mem hc.told) _
        List.mem_cons_self rfl
  source hsource := by
    rcases source_act hsource with hsource | hmem
    · exact hc.source hsource
    · exact hc.queue hmem

theorem Passed.after (hc : y.Passed c) (h : y.Honest) (acts : List Act) :
    (y.after acts).Passed c := by
  induction acts generalizing y with
  | nil => exact hc
  | cons a acts ih => exact ih (hc.act h a) (h.act a)

/-- A completion that does not own the slot when it is heard is never shown. -/
theorem Honest.passed (h : y.Honest) (hi : y.series.queue[i]? = some (.completion c))
    (hne : ∀ s, y.series.runner.slot = some s → s.id ≠ c.id) : (y.act (.hear i)).Passed c := by
  have hmem := List.mem_of_getElem? hi
  have hhear := hear_stale hi hne
  have hsource : y.sourceAfter (.hear i) = y.source := by
    simp [sourceAfter, hi, Runner.applyCompletion_of_ne hne]
  refine ⟨(y.series.told_act (.hear i)).subset (h.mem_told hmem), ?_, ?_⟩
  · rw [Signed.act, Series.act, hhear]
    exact h.notMem_eraseIdx hi
  · intro heq
    replace heq : y.sourceAfter (.hear i) = .completion c := heq
    exact (h.shown c (hsource.symm.trans heq)).2 hmem

/-! ## What the line is changed by -/

/-- What the line does not outlast. -/
inductive Disturbs (x : Series) : Act → Prop where
  | flash (notice : Notice) : Disturbs x (.flash notice)
  | completion {i : Nat} {c : Completion} {s : Session}
      (hi : x.queue[i]? = some (.completion c)) (hs : x.runner.slot = some s) (hid : s.id = c.id) :
      Disturbs x (.hear i)
  | holdOver {i : Nat} {message : String} (hi : x.queue[i]? = some (.holdOver message))
      (hclears : Clears x message) : Disturbs x (.hear i)

theorem line_act (x : Series) (a : Act) : (x.act a).line = x.line ∨ Disturbs x a := by
  cases a with
  | run now target =>
      refine .inl ?_
      simp only [Series.act, Series.run]
      split <;> rfl
  | reload files path =>
      refine .inl ?_
      simp only [Series.act, Series.reload]
      split <;> rfl
  | tell k files time =>
      refine .inl ?_
      simp only [Series.act, Series.tell]
      split
      · rfl
      · exact Series.line_push _ _
  | release k =>
      refine .inl ?_
      simp only [Series.act, Series.release]
      split
      · rfl
      · exact Series.line_push _ _
  | hear i =>
      cases hi : x.queue[i]? with
      | none => exact .inl (by simp [Series.act, Series.hear, hi])
      | some word =>
          cases word with
          | completion c =>
              by_cases howner : ∃ s, x.runner.slot = some s ∧ s.id = c.id
              · obtain ⟨s, hs, hid⟩ := howner
                exact .inr (.completion hi hs hid)
              · have hhear := hear_stale hi fun s hs hid => howner ⟨s, hs, hid⟩
                exact .inl (by rw [Series.act, hhear])
          | holdOver message =>
              by_cases hclears : Clears x message
              · exact .inr (.holdOver hi hclears)
              · exact .inl (by rw [Series.act, hear_holdOver hi, if_neg hclears])
  | flash notice => exact .inr (.flash notice)
  | _ => exact .inl rfl

/-- A line that has changed stood until something disturbed it. -/
theorem exists_disturbs {acts : List Act} (h : (x.after acts).line ≠ x.line) :
    ∃ acts₁ a acts₂, acts = acts₁ ++ a :: acts₂ ∧ (x.after acts₁).line = x.line ∧
      Disturbs (x.after acts₁) a := by
  induction acts generalizing x with
  | nil => exact absurd rfl h
  | cons a acts ih =>
      rcases line_act x a with hline | hdisturbs
      · obtain ⟨acts₁, b, acts₂, rfl, hsame, hdisturbs⟩ := ih (x := x.act a) (hline ▸ h)
        exact ⟨a :: acts₁, b, acts₂, rfl, hsame.trans hline, hdisturbs⟩
      · exact ⟨[], a, acts, rfl, rfl, hdisturbs⟩

/-! ## Whose message is cleared -/

/-- What the end of a hold does to a series that has come about by some acts. -/
structure Holdover (directory : Option String) (acts : List Act) (y : Signed) : Prop where
  series : y.series = (Series.empty directory).after acts
  /-- The line is that of its source. -/
  line : y.series.line = y.source.line
  /-- A benchmark queues the end of the hold of its own message and of no other. -/
  own : ∀ (i : Nat) s message, y.letters[i]? = some (s, .holdOver message) →
    y.series.queue[i]? = some (.holdOver message) ∧
      ∃ c ∈ y.series.told, s = some c.id ∧ message = c.notice.text
  /-- It changes nothing but the line, and that only if no benchmark is running and the
  line reads like the message. -/
  effect : ∀ (i : Nat) message, y.series.queue[i]? = some (.holdOver message) →
    y.series.hear i = { y.series with
      queue := y.series.queue.eraseIdx i
      line := if Clears y.series message then Line.blank else y.series.line }
  /-- What is cleared was put there by the benchmark's completion, or by a notice of
  someone else that reads like it. -/
  cleared : ∀ (i : Nat) c, y.letters[i]? = some (some c.id, .holdOver c.notice.text) →
    c ∈ y.series.told → Clears y.series c.notice.text →
      y.source = .completion c ∨ ∃ notice, statusText notice.text = statusText c.notice.text ∧
        (y.source = .other notice ∨
          ∃ d ∈ y.series.told, d.id ≠ c.id ∧ d.notice = notice ∧ y.source = .completion d)
  /-- If nothing else reads like its message, a benchmark clears only that. -/
  alone : ∀ (i : Nat) c, y.letters[i]? = some (some c.id, .holdOver c.notice.text) →
    c ∈ y.series.told → Clears y.series c.notice.text →
      (∀ d ∈ y.series.told, d.id ≠ c.id → statusText d.notice.text ≠ statusText c.notice.text) →
        (∀ notice, .flash notice ∈ acts →
          statusText notice.text ≠ statusText c.notice.text) → y.source = .completion c
  /-- The message of a benchmark whose completion was heard too late is never shown, so
  its hold clears no message of its own. -/
  ignored : ∀ acts₁ (j : Nat) acts₂ c, acts = acts₁ ++ .hear j :: acts₂ →
    ((Series.empty directory).after acts₁).queue[j]? = some (.completion c) →
      (∀ s, ((Series.empty directory).after acts₁).runner.slot = some s → s.id ≠ c.id) →
        y.source ≠ .completion c
  /-- A line stands until another notice is shown or the end of a hold clears it. -/
  stays : ∀ acts₁ acts₂, acts = acts₁ ++ acts₂ →
    y.series.line ≠ ((Series.empty directory).after acts₁).line →
      ∃ l a l', acts₂ = l ++ a :: l' ∧
        ((Series.empty directory).after (acts₁ ++ l)).line =
          ((Series.empty directory).after acts₁).line ∧
        Disturbs ((Series.empty directory).after (acts₁ ++ l)) a

theorem Honest.cleared (h : y.Honest) (hc : c ∈ y.series.told)
    (hclears : Clears y.series c.notice.text) :
    y.source = .completion c ∨ ∃ notice, statusText notice.text = statusText c.notice.text ∧
      (y.source = .other notice ∨
        ∃ d ∈ y.series.told, d.id ≠ c.id ∧ d.notice = notice ∧ y.source = .completion d) := by
  have htext := hclears.2
  rw [h.line] at htext
  cases hsource : y.source with
  | nobody =>
      rw [hsource] at htext
      exact absurd htext.symm (statusText_notice_ne c)
  | other notice =>
      rw [hsource] at htext
      exact .inr ⟨notice, htext, .inl rfl⟩
  | completion d =>
      have hd := (h.shown d hsource).1
      by_cases hid : d.id = c.id
      · exact .inl (congrArg Source.completion (h.eq_of_id hd hc hid))
      · rw [hsource] at htext
        exact .inr ⟨d.notice, htext, .inr ⟨d, hd, hid, rfl, rfl⟩⟩

/-- At every moment of every run: the end of a hold clears what reads like the message of
the benchmark whose hold it was. -/
theorem holdover_clears_what_reads_alike (directory : Option String) (acts : List Act) :
    ((empty directory).after acts).Holdover directory acts := by
  have hseries : ∀ acts, ((empty directory).after acts).series =
      (Series.empty directory).after acts := series_after (empty directory)
  have honest : ∀ acts, ((empty directory).after acts).Honest := (Honest.empty directory).after
  have h := honest acts
  constructor
  case series => exact hseries acts
  case line => exact h.line
  case own =>
    intro i s message hi
    refine ⟨?_, h.holdOver s message (List.mem_of_getElem? hi)⟩
    rw [← h.words, List.getElem?_map, hi, Option.map_some]
  case effect => exact fun i message hi => hear_holdOver hi
  case cleared => exact fun i c _ hc hclears => h.cleared hc hclears
  case alone =>
    intro i c _ hc hclears htold hflash
    rcases h.cleared hc hclears with hown | ⟨notice, htext, hother | ⟨d, hd, hid, rfl, -⟩⟩
    · exact hown
    · exact absurd htext (hflash notice (mem_of_source_other hother))
    · exact absurd htext (htold d hd hid)
  case ignored =>
    rintro acts₁ j acts₂ c rfl hj hne
    rw [← hseries] at hj hne
    have hpassed := (honest acts₁).passed hj hne
    have hrest := hpassed.after ((honest acts₁).act (.hear j)) acts₂
    rw [after_append]
    exact hrest.source
  case stays =>
    rintro acts₁ acts₂ rfl hline
    rw [hseries, Series.after_append] at hline
    obtain ⟨l, a, l', rfl, hsame, hdisturbs⟩ := exists_disturbs hline
    rw [← Series.after_append] at hsame hdisturbs
    exact ⟨l, a, l', rfl, hsame, hdisturbs⟩

/-- A benchmark is canceled and replaced, its completion is heard too late, and the
benchmark that has replaced it is canceled as well. -/
def canceledTwice : List Act :=
  let target : Target := ⟨"web", "http://web/", ⟨1, 3, "GET", "/", "", ""⟩⟩
  let load (k : Nat) : List Act := [.load k (.ok ⟨3, [(2, 3)], 0, 0⟩), .read k,
    .tell k Storage.Files.empty ⟨2024, 1, 1, 0, 0, 0⟩, .hear 0]
  [.run 0 target, .cancel, .run 0 target] ++ load 0 ++ [.cancel] ++ load 1 ++ [.release 0]

/-- The line shows the message of the second benchmark; the end of the hold of the first,
whose completion was never shown, clears it. -/
theorem stale_hold_clears_the_next_message :
    let y := (empty none).after canceledTwice
    let c : Completion := ⟨2, true, .ok ⟨3, [(2, 3)], 0, 0⟩, none⟩
    y.letters = [(some 1, .holdOver "Benchmark canceled")] ∧ y.source = .completion c ∧
      y.series.runner.isRunning = false ∧ y.series.line = Line.ofNotice c.notice ∧
      (y.series.hear 0).line = Line.blank := by
  refine ⟨rfl, rfl, rfl, rfl, ?_⟩
  decide +kernel

end Signed

end ClusterConsole.Benchmark
