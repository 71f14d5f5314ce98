import ClusterConsole.Proofs.Benchmark.Bookkeeping
import ClusterConsole.Proofs.Storage.Listing

/-!
# What is said of a benchmark that has ended

When a benchmark whose load gave a report comes to its end, three things are said of
it: what the runner records, what the status line announces, and what the saved report
says. The last two go by what its token said when the load had ended. The record also
counts a cancel that came between that moment and the hearing of the completion, so
the three agree unless the operator canceled as late as that, and then they do not.
-/

namespace ClusterConsole.Storage.Files

variable {f f' : Files} {ps : List String} {path text : String}

/-- The path leads to a file with that text. -/
def Holds (f : Files) (path text : String) : Prop :=
  ∃ ps, place? path = some ps ∧ f.at? ps = some (.file (some text))

theorem holds_of_write (h : f.write path text = some f') : f'.Holds path text := by
  unfold write at h
  split at h
  · cases h
  · obtain ⟨ps, hps, h⟩ := Option.bind_eq_some_iff.1 h
    have hne : ps ≠ [] := by
      rintro rfl
      simp [at?] at h
    split at h
    · cases h
    · obtain rfl := Option.some.inj h
      exact ⟨ps, hps, f.at?_put hne _⟩
    · cases h

end ClusterConsole.Storage.Files

namespace ClusterConsole.Benchmark

open ClusterConsole.Status
open ClusterConsole.Storage (Files)

/-! ## The report and the message -/

/-- The line of a report that says whether the benchmark was canceled. -/
def Report.verdictLine (r : Report) (target : Target) (canceled : Bool) : Option String :=
  (r.renderLines target canceled)[5]?

theorem Report.verdictLine_eq_iff (r : Report) (target : Target) (canceled : Bool) :
    r.verdictLine target canceled = some "Canceled:    true" ↔ canceled = true := by
  cases canceled
  · simp [verdictLine, renderLines]
  · simp [verdictLine, renderLines]

theorem Report.holds_of_save {r : Report} {files files' : Files} {directory path : String}
    {target : Target} {canceled : Bool} {time : Time.Moment}
    (h : r.save files directory target canceled time = (files', some path)) :
    files'.Holds path (r.render target canceled) := by
  unfold save at h
  split at h
  · simp at h
  · dsimp only at h
    split at h
    · simp at h
    · rename_i hwrite
      simp only [Prod.mk.injEq, Option.some.injEq] at h
      obtain ⟨rfl, rfl⟩ := h
      exact Storage.Files.holds_of_write hwrite

namespace Completion

variable {c : Completion} {directory : Option String} {report : Report} {path : String}

/-- The words that announce a benchmark as canceled. -/
def canceledText : String := "Benchmark canceled"

theorem notice_eq_canceledText_iff (hc : c.result = .ok report) :
    c.notice.text = canceledText ↔ c.canceled = true := by
  cases h : c.canceled with
  | true => simp [notice, hc, h, canceledText]
  | false =>
      simp only [notice, hc, h, canceledText, Bool.false_eq_true, if_false, iff_false]
      intro heq
      have hchars := congrArg (fun s => s.toList[11]?) heq
      simp [String.toList_append] at hchars

theorem fields_ofEnd (files : Files) (directory : Option String) (id : Nat) (target : Target)
    (canceled : Bool) (result : Except Chain Report) (time : Time.Moment) :
    (ofEnd files directory id target canceled result time).2.canceled = canceled ∧
      (ofEnd files directory id target canceled result time).2.result = result := by
  unfold ofEnd
  split <;> exact ⟨rfl, rfl⟩

/-- The completion was told at the end of a load; `files'` are the files after it. -/
def Issued (c : Completion) (directory : Option String) (target : Target) (files' : Files) :
    Prop :=
  ∃ files time, ofEnd files directory c.id target c.canceled c.result time = (files', c)

theorem Issued.holds {target : Target} {files' : Files} (h : c.Issued directory target files')
    (hc : c.result = .ok report) (hpath : c.savedAt = some path) :
    files'.Holds path (report.render target c.canceled) := by
  obtain ⟨files, time, h⟩ := h
  rw [hc] at h
  cases directory with
  | none =>
      simp only [ofEnd, Prod.mk.injEq] at h
      rw [← h.2] at hpath
      cases hpath
  | some directory =>
      simp only [ofEnd, Prod.mk.injEq] at h
      obtain ⟨hfiles, heq⟩ := h
      have hsaved : (report.save files directory target c.canceled time).2 = some path := by
        rw [← hpath, ← heq]
      exact Report.holds_of_save (Prod.ext hfiles hsaved)

end Completion

namespace Trial

variable {t : Trial} {files files' : Files} {directory : Option String} {time : Time.Moment}
  {c : Completion}

theorem issued_of_complete? (h : t.complete? files directory time = some (files', c)) :
    t.progress = .saving c.canceled c.result ∧ c.Issued directory t.target files' := by
  cases hp : t.progress with
  | saving canceled result =>
      have hid := (complete?_eq_some h).2
      simp only [complete?, hp, Option.some.injEq] at h
      obtain ⟨hcanceled, hresult⟩ :=
        Completion.fields_ofEnd files directory t.id t.target canceled result time
      rw [h] at hcanceled hresult
      obtain rfl : c.canceled = canceled := hcanceled
      obtain rfl : c.result = result := hresult
      rw [← hid] at h
      exact ⟨rfl, files, time, h⟩
  | _ => simp [complete?, hp] at h

end Trial

/-! ## What every act keeps -/

namespace Series

variable {x : Series} {directory : Option String} {id k : Nat} {c : Completion} {t : Trial}
  {f : Trial → Trial}

/-- The slot is canceled if the operator canceled what is in it, and whatever is queued
was told at the end of a load. -/
structure Attested (x : Series) (directory : Option String) : Prop where
  keeps : x.runner.directory = directory
  slot : ∀ s, x.runner.slot = some s → (s.phase = .canceled ↔ s.id ∈ x.canceled)
  queued : ∀ c, .completion c ∈ x.queue → c ∈ x.told
  issued : ∀ c ∈ x.told, ∃ target files, c.Issued directory target files

namespace Attested

theorem empty (directory : Option String) : (empty directory).Attested directory where
  keeps := rfl
  slot := by simp [Series.empty, Runner.empty]
  queued := by simp [Series.empty]
  issued := by simp [Series.empty]

theorem run (h : x.Attested directory) (hx : x.Sound) (now : Int) (target : Target) :
    (x.run now target).Attested directory := by
  unfold Series.run
  cases hrun : x.runner.run now target with
  | error e => exact h
  | ok p =>
      obtain ⟨r, id⟩ := p
      obtain ⟨-, rfl, rfl⟩ := Runner.run_eq_ok_iff.1 hrun
      refine { h with keeps := h.keeps, slot := fun s hs => ?_ }
      obtain rfl := Option.some.inj hs
      have hfresh : x.runner.nextId ∉ x.canceled := fun hmem =>
        Nat.lt_irrefl _ (hx.sole.calledOff_lt _ (hx.calledOff _ hmem))
      simp [Runner.fresh, hfresh]

theorem cancel (h : x.Attested directory) : x.cancel.Attested directory := by
  cases hrun : x.runner.running? with
  | none =>
      have hsame : x.cancel = x := by simp [Series.cancel, Runner.cancel_of_none hrun]
      rwa [hsame]
  | some s =>
      obtain ⟨hs, -⟩ := Runner.running?_eq_some_iff.1 hrun
      refine ⟨?_, fun s' hs' => ?_, h.queued, h.issued⟩
      · simp [Series.cancel, Runner.cancel_of_some hrun, h.keeps]
      · simp only [Series.cancel, Runner.cancel_of_some hrun, Option.some.injEq] at hs'
        subst hs'
        simp [Series.cancel, Runner.cancel_of_some hrun, hs]

theorem reload (h : x.Attested directory) (files : Files) (path : String) :
    (x.reload files path).Attested directory := by
  unfold Series.reload
  cases hr : x.runner.reload files path with
  | error e => exact h
  | ok r =>
      obtain ⟨file, -, rfl⟩ := Runner.reload_eq_ok_iff.1 hr
      exact { h with keeps := h.keeps, slot := h.slot }

theorem push (h : x.Attested directory) {word : Word}
    (hword : x.listening = true → ∀ c, word = .completion c → c ∈ x.told) :
    (x.push word).Attested directory := by
  unfold Series.push
  split
  · rename_i hl
    refine { h with queued := fun c hc => ?_ }
    rcases List.mem_append.1 hc with hc | hc
    · exact h.queued c hc
    · exact hword hl c (List.mem_singleton.1 hc).symm
  · exact h

theorem tell (h : x.Attested directory) (k : Nat) (files : Files) (time : Time.Moment) :
    (x.tell k files time).Attested directory := by
  unfold Series.tell
  cases hk : x.trials[k]?.bind fun t => t.complete? files x.runner.directory time with
  | none => exact h
  | some p =>
      obtain ⟨files', c⟩ := p
      obtain ⟨t, -, hc⟩ := Option.bind_eq_some_iff.1 hk
      have hissued := (Trial.issued_of_complete? hc).2
      rw [h.keeps] at hissued
      have htold : Attested { x.onTrial k (·.told c x.listening) with
          told := if x.listening then x.told ++ [c] else x.told } directory := by
        cases x.listening with
        | false => exact { h with }
        | true =>
            refine { h with queued := fun d hd => ?_, issued := fun d hd => ?_ }
            · exact List.mem_append_left _ (h.queued d hd)
            · rcases List.mem_append.1 hd with hd | hd
              · exact h.issued d hd
              · exact List.mem_singleton.1 hd ▸ ⟨t.target, files', hissued⟩
      refine htold.push fun hl d hd => ?_
      obtain rfl := Word.completion.inj hd
      have hl : x.listening = true := hl
      simp [hl]

theorem release (h : x.Attested directory) (k : Nat) : (x.release k).Attested directory := by
  unfold Series.release
  split
  · exact h
  · have hstep : (x.onTrial k (·.release.1)).Attested directory := { h with }
    exact hstep.push fun _ _ => nofun

theorem hear (h : x.Attested directory) (i : Nat) : (x.hear i).Attested directory := by
  unfold Series.hear
  split
  · exact h
  · rename_i word _
    have herase : Attested { x with queue := x.queue.eraseIdx i } directory :=
      { h with queued := fun c hc => h.queued c (List.mem_of_mem_eraseIdx hc) }
    cases word with
    | completion c =>
        by_cases howner : ∃ s, x.runner.slot = some s ∧ s.id = c.id
        · obtain ⟨s, hs, hid⟩ := howner
          dsimp only
          rw [Runner.applyCompletion_of_eq hs hid]
          exact { herase with keeps := h.keeps, slot := nofun }
        · dsimp only
          rw [Runner.applyCompletion_of_ne fun s hs hid => howner ⟨s, hs, hid⟩]
          exact { herase with }
    | holdOver message =>
        dsimp only
        split <;> exact { herase with }

theorem act (h : x.Attested directory) (hx : x.Sound) (a : Act) : (x.act a).Attested directory := by
  cases a with
  | run now target => exact h.run hx now target
  | cancel => exact h.cancel
  | reload files path => exact h.reload files path
  | tell k files time => exact h.tell k files time
  | release k => exact h.release k
  | hear i => exact h.hear i
  | _ => exact { h with keeps := h.keeps, slot := h.slot }

theorem after (h : x.Attested directory) (hx : x.Sound) (acts : List Act) :
    (x.after acts).Attested directory := by
  induction acts generalizing x with
  | nil => exact h
  | cons a acts ih => exact ih (h.act hx a) (hx.act a)

end Attested

/-! ## A cancel that comes in time -/

/-- The operator canceled the benchmark before its token was read. -/
structure Heeded (x : Series) (id : Nat) : Prop where
  canceled : id ∈ x.canceled
  read : ∀ t ∈ x.trials, t.id = id → ∀ b result, t.progress = .saving b result → b = true
  told : ∀ c ∈ x.told, c.id = id → c.canceled = true

namespace Heeded

/-- A step of one benchmark that reads nothing but a token that is called off. -/
theorem onTrial (h : x.Heeded id) (k : Nat) (hid : ∀ t, (f t).id = t.id)
    (hf : ∀ t, t.id = id → ∀ b result, (f t).progress = .saving b result →
      t.progress = .saving b result ∨ b = true) : (x.onTrial k f).Heeded id := by
  refine { h with read := fun u hu huid b result hb => ?_ }
  obtain ⟨i, t, hi, rfl⟩ := mem_onTrial.1 hu
  have ht := List.mem_of_getElem? hi
  by_cases hk : k = i
  · rw [if_pos hk] at huid hb
    rw [hid] at huid
    rcases hf t huid b result hb with hb | hb
    · exact h.read t ht huid b result hb
    · exact hb
  · rw [if_neg hk] at huid hb
    exact h.read t ht huid b result hb

theorem push (h : x.Heeded id) (word : Word) : (x.push word).Heeded id := by
  unfold Series.push
  split
  · exact { h with }
  · exact h

theorem cancel (h : x.Heeded id) : x.cancel.Heeded id :=
  { h with canceled := List.mem_append_left _ h.canceled }

theorem tell (h : x.Heeded id) (k : Nat) (files : Files) (time : Time.Moment) :
    (x.tell k files time).Heeded id := by
  unfold Series.tell
  cases hk : x.trials[k]?.bind fun t => t.complete? files x.runner.directory time with
  | none => exact h
  | some p =>
      obtain ⟨files', c⟩ := p
      obtain ⟨t, ht, hc⟩ := Option.bind_eq_some_iff.1 hk
      have hsaving := (Trial.issued_of_complete? hc).1
      have hcid := (Trial.complete?_eq_some hc).2
      have hstep : (x.onTrial k (·.told c x.listening)).Heeded id := by
        refine h.onTrial k (fun _ => rfl) fun u _ b result hb => ?_
        cases hl : x.listening <;> simp [Trial.told, hl] at hb
      have htold : Heeded { x.onTrial k (·.told c x.listening) with
          told := if x.listening then x.told ++ [c] else x.told } id := by
        refine { hstep with told := fun d hd hdid => ?_ }
        cases hl : x.listening with
        | false =>
            rw [hl] at hd
            exact h.told d hd hdid
        | true =>
            rw [hl, if_pos rfl] at hd
            rcases List.mem_append.1 hd with hd | hd
            · exact h.told d hd hdid
            · obtain rfl := List.mem_singleton.1 hd
              exact h.read t (List.mem_of_getElem? ht) (hcid.symm.trans hdid) _ _ hsaving
      exact htold.push _

theorem act (h : x.Heeded id) (hx : x.Sound) (a : Act) : (x.act a).Heeded id := by
  cases a with
  | run now target =>
      simp only [Series.act, Series.run]
      split
      · refine { h with read := fun t ht htid b result hb => ?_ }
        rcases List.mem_append.1 ht with ht | ht
        · exact h.read t ht htid b result hb
        · rw [List.mem_singleton.1 ht] at hb
          cases hb
      · exact h
  | cancel => exact h.cancel
  | reload files path =>
      simp only [Series.act, Series.reload]
      split
      · exact { h with }
      · exact h
  | stir k p =>
      refine h.onTrial k (fun t => t.id_stir p) fun t _ b result hb => ?_
      unfold Trial.stir at hb
      split at hb
      · rename_i hp
        have hb : p = .saving b result := hb
        simp [Trial.underway, hb] at hp
      · exact .inl hb
  | load k result =>
      refine h.onTrial k (fun t => t.id_finish result) fun t _ b result' hb => ?_
      unfold Trial.finish at hb
      split at hb
      · cases hb
      · exact .inl hb
  | read k =>
      -- the operator's cancel has called the token off
      have hoff : x.runner.isCalledOff id = true := by
        simp [Runner.isCalledOff, hx.calledOff id h.canceled]
      refine h.onTrial k (fun t => t.id_read _) fun t htid b result hb => ?_
      cases hp : t.progress with
      | loaded result' =>
          simp only [Trial.read, hp, htid, hoff, Progress.saving.injEq] at hb
          exact .inr hb.1.symm
      | _ =>
          simp only [Trial.read, hp] at hb
          exact .inl (hp ▸ hb)
  | tell k files time => exact h.tell k files time
  | release k =>
      simp only [Series.act, Series.release]
      split
      · exact h
      · refine (h.onTrial k Trial.id_release fun t _ b result hb => ?_).push _
        cases hp : t.progress with
        | told message => simp [Trial.release, hp] at hb
        | _ =>
            simp only [Trial.release, hp] at hb
            exact .inl (hp ▸ hb)
  | hear i =>
      simp only [Series.act, Series.hear]
      split
      · exact h
      · split
        · exact { h with }
        · split <;> exact { h with }
  | _ => exact { h with }

theorem after (h : x.Heeded id) (hx : x.Sound) (acts : List Act) : (x.after acts).Heeded id := by
  induction acts generalizing x with
  | nil => exact h
  | cons a acts ih => exact ih (h.act hx a) (hx.act a)

end Heeded

/-- A benchmark that is canceled before its token is read. -/
theorem Sound.heeded (hx : x.Sound) (ht : t ∈ x.trials) (hrank : t.rank ≤ 1)
    (hcanceled : t.id ∈ x.canceled) : x.Heeded t.id where
  canceled := hcanceled
  read u hu huid b result hb := by
    obtain rfl := hx.eq_of_id hu ht huid
    simp [Trial.rank, hb] at hrank
  told c hc hcid := by
    have hto : ¬ t.Over := by
      rw [Trial.Over]
      omega
    exact absurd (hcid ▸ List.mem_map_of_mem hc) (hx.id_notMem_told ht hto)

/-! ## The three verdicts -/

/-- What is said of the benchmark that owns the slot when its completion is heard, if its
load gave a report. -/
structure Verdicts (x : Series) (directory : Option String) (c : Completion) (report : Report) :
    Prop where
  /-- It is recorded as canceled if its token was called off when its load had ended, or
  the operator has canceled it since. -/
  recorded : ∃ session, (x.runner.complete c.id c.canceled).2 = some session ∧
    session.id = c.id ∧
      (session.phase = .canceled ↔ c.canceled = true ∨ c.id ∈ x.canceled)
  announced : (x.runner.applyCompletion c).2 = some c.notice ∧
    (c.notice.text = Completion.canceledText ↔ c.canceled = true)
  /-- The two agree unless the operator canceled after the token was read. -/
  agree : ∀ session, (x.runner.complete c.id c.canceled).2 = some session →
    ((session.phase = .canceled ↔ c.notice.text = Completion.canceledText) ↔
      ¬ (c.canceled = false ∧ c.id ∈ x.canceled))
  /-- A report that was saved says what is announced. -/
  saved : ∀ path, c.savedAt = some path → ∃ target files, c.Issued directory target files ∧
    files.Holds path (report.render target c.canceled) ∧
      (report.verdictLine target c.canceled = some "Canceled:    true" ↔
        c.notice.text = Completion.canceledText)

theorem Attested.recorded {s : Session} (h : x.Attested directory) (hs : x.runner.slot = some s)
    (hid : s.id = c.id) : ∃ session, (x.runner.complete c.id c.canceled).2 = some session ∧
      session.id = c.id ∧
        (session.phase = .canceled ↔ c.canceled = true ∨ c.id ∈ x.canceled) := by
  rw [Runner.complete_of_eq hs hid]
  refine ⟨_, rfl, hid, ?_⟩
  rw [← hid, ← h.slot s hs]
  dsimp only
  split
  · rename_i hp
    exact ⟨fun _ => hp, fun _ => rfl⟩
  · rename_i hp
    exact ⟨nofun, fun hn => absurd hn hp⟩

theorem Attested.verdicts {s : Session} {report : Report} {i : Nat} (h : x.Attested directory)
    (hc : x.queue[i]? = some (.completion c)) (hs : x.runner.slot = some s) (hid : s.id = c.id)
    (hreport : c.result = .ok report) : x.Verdicts directory c report where
  recorded := h.recorded hs hid
  agree session hsession := by
    obtain ⟨session', hsession', -, hphase⟩ := h.recorded hs hid
    obtain rfl := Option.some.inj (hsession'.symm.trans hsession)
    rw [hphase, Completion.notice_eq_canceledText_iff hreport]
    cases c.canceled <;> simp
  announced := ⟨by rw [Runner.applyCompletion_of_eq hs hid],
    Completion.notice_eq_canceledText_iff hreport⟩
  saved path hpath := by
    obtain ⟨target, files, hissued⟩ := h.issued c (h.queued c (List.mem_of_getElem? hc))
    refine ⟨target, files, hissued, hissued.holds hreport hpath, ?_⟩
    rw [Report.verdictLine_eq_iff, Completion.notice_eq_canceledText_iff hreport]

/-- At every moment of every run: what is said of a benchmark whose completion is heard
while it owns the slot, and a cancel that came before the token was read is heeded. -/
theorem verdicts_agree_unless_canceled_late (directory : Option String) (acts : List Act) :
    (∀ (i : Nat) c s report, ((empty directory).after acts).queue[i]? = some (.completion c) →
      ((empty directory).after acts).runner.slot = some s → s.id = c.id →
        c.result = .ok report → ((empty directory).after acts).Verdicts directory c report) ∧
    ∀ acts₁ acts₂, acts = acts₁ ++ acts₂ → ∀ t ∈ ((empty directory).after acts₁).trials,
      t.rank ≤ 1 → t.id ∈ ((empty directory).after acts₁).canceled →
        ∀ c, .completion c ∈ ((empty directory).after acts).queue → c.id = t.id →
          c.canceled = true := by
  have hsound := Sound.empty directory
  have hattested := (Attested.empty directory).after hsound acts
  refine ⟨fun i c s report hc hs hid hreport => hattested.verdicts hc hs hid hreport, ?_⟩
  rintro acts₁ acts₂ rfl t ht hrank hcanceled c hc hid
  have hheeded := ((hsound.after acts₁).heeded ht hrank hcanceled).after
    (hsound.after acts₁) acts₂
  rw [← after_append] at hheeded
  exact hheeded.told c (hattested.queued c hc) hid

/-- A benchmark whose load gives a report, and which is canceled when its token was read
and its completion is on the way. -/
def canceledLate : List Act :=
  [.run 0 ⟨"web", "http://web/", ⟨1, 3, "GET", "/", "", ""⟩⟩, .load 0 (.ok ⟨3, [(2, 3)], 0, 0⟩),
    .read 0, .tell 0 Storage.Files.empty ⟨2024, 1, 1, 0, 0, 0⟩, .cancel]

/-- The benchmark that was canceled late is recorded as canceled and announced as
completed. -/
theorem late_cancel_is_announced_as_completed :
    let x := (empty none).after canceledLate
    let c : Completion := ⟨1, false, .ok ⟨3, [(2, 3)], 0, 0⟩, none⟩
    x.canceled = [1] ∧ x.queue = [.completion c] ∧
      (x.runner.complete c.id c.canceled).2.map Session.phase = some .canceled ∧
      (x.hear 0).line = ⟨"Benchmark completed: 3 requests, 3 ok, 0 errors, 0.0 req/s", .info⟩ := by
  refine ⟨rfl, rfl, rfl, ?_⟩
  decide +kernel

end Series

end ClusterConsole.Benchmark
