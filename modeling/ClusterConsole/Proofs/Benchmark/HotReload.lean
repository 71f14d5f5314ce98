import ClusterConsole.Background.Ledger
import ClusterConsole.Console.Hearing
import ClusterConsole.Proofs.Benchmark.Bookkeeping
import Mathlib.Data.List.Induction

/-!
# Reading the settings again

The settings file can be read again at any time. `SettingsFile.Stored` says what a
file gives and `SettingsFile.Refused` why it gives nothing. A reading that is refused
leaves the series as it was and one that goes well changes the settings in force and
nothing else, so they are those of the last reading that went well (`inForce`).

A benchmark takes its settings along when it is started. `Series.orders` are the
benchmarks with what they were started with; no act changes an entry, and an entry is
added by an accepted start only (`orders_act`). What is in the slot is one of them
(`Ordered`), so no reading of the settings gets to a benchmark that was started before.
-/

namespace ClusterConsole.Benchmark

open ClusterConsole.Status
open ClusterConsole.Storage (Files)

/-! ## What a file gives -/

namespace SettingsFile

variable {files : Files} {path : String} {file : SettingsFile} {chain : Chain}

/-- What the settings file at a path gives. -/
inductive Stored (files : Files) (path : String) : SettingsFile → Prop where
  | missing (hread : files.read path = .error .missing) : Stored files path empty
  | blank {text : String} (hread : files.read path = .ok text)
      (hblank : Text.allBlank text = true) : Stored files path empty
  | valid {text : String} {file : SettingsFile} (hread : files.read path = .ok text)
      (hblank : Text.allBlank text = false) (hrecord : Yaml.recordOf? text ofNode? = some file) :
      Stored files path file

/-- Why the settings file at a path is refused. -/
inductive Refused (files : Files) (path : String) : Chain → Prop where
  | unreadable (hread : files.read path = .error .unreadable) :
      Refused files path ["failed to read " ++ path, unreadableText]
  | malformed {text : String} (hread : files.read path = .ok text)
      (hblank : Text.allBlank text = false) (hrecord : Yaml.recordOf? text ofNode? = none) :
      Refused files path ["failed to parse " ++ path, malformedText]

/-- A file gives something or is refused, and `load` tells which. -/
theorem load_cases (files : Files) (path : String) :
    (∃ file, load files path = .ok file ∧ Stored files path file) ∨
      ∃ chain, load files path = .error chain ∧ Refused files path chain := by
  cases hread : files.read path with
  | error fault =>
      cases fault with
      | missing => exact .inl ⟨empty, by simp [load, hread], .missing hread⟩
      | unreadable => exact .inr ⟨_, by simp [load, hread], .unreadable hread⟩
  | ok text =>
      cases hblank : Text.allBlank text with
      | true => exact .inl ⟨empty, by simp [load, hread, ofText?, hblank], .blank hread hblank⟩
      | false =>
          cases hrecord : Yaml.recordOf? text ofNode? with
          | some file =>
              exact .inl ⟨file, by simp [load, hread, ofText?, hblank, hrecord],
                .valid hread hblank hrecord⟩
          | none =>
              exact .inr ⟨_, by simp [load, hread, ofText?, hblank, hrecord],
                .malformed hread hblank hrecord⟩

theorem load_eq_ok_iff : load files path = .ok file ↔ Stored files path file := by
  constructor
  · intro h
    rcases load_cases files path with ⟨file', h', hstored⟩ | ⟨chain, h', -⟩
    · obtain rfl := Except.ok.inj (h.symm.trans h')
      exact hstored
    · cases h.symm.trans h'
  · rintro (hread | ⟨hread, hblank⟩ | ⟨hread, hblank, hrecord⟩)
    · simp [load, hread]
    · simp [load, hread, ofText?, hblank]
    · simp [load, hread, ofText?, hblank, hrecord]

theorem load_eq_error_iff : load files path = .error chain ↔ Refused files path chain := by
  constructor
  · intro h
    rcases load_cases files path with ⟨file, h', -⟩ | ⟨chain', h', hrefused⟩
    · cases h.symm.trans h'
    · obtain rfl := Except.error.inj (h.symm.trans h')
      exact hrefused
  · rintro (hread | ⟨hread, hblank, hrecord⟩)
    · simp [load, hread]
    · simp [load, hread, ofText?, hblank, hrecord]

end SettingsFile

/-- A reading that is refused says so and which file it was. -/
theorem Runner.reload_eq_error_iff {r : Runner} {files : Files} {path : String} {e : Failure} :
    r.reload files path = .error e ↔ ∃ chain, SettingsFile.load files path = .error chain ∧
      e = .settingsNotLoaded path chain.oneLine := by
  cases h : SettingsFile.load files path with
  | error chain => simp [reload, h, eq_comm]
  | ok file => simp [reload, h]

/-! ## The settings in force -/

/-- The settings that an act puts in force. -/
def Act.file? : Act → Option SettingsFile
  | .reload files path => (SettingsFile.load files path).toOption
  | _ => none

/-- The settings of the last reading that went well; none are set before that. -/
def inForce (acts : List Act) : SettingsFile :=
  ((acts.filterMap Act.file?).getLast?).getD SettingsFile.empty

namespace Series

variable {x : Series} {k : Nat} {f : Trial → Trial} {directory : Option String}

theorem runner_tell (x : Series) (k : Nat) (files : Files) (time : Time.Moment) :
    (x.tell k files time).runner = x.runner := by
  unfold tell
  split
  · rfl
  · exact runner_push _ _

theorem runner_release (x : Series) (k : Nat) : (x.release k).runner = x.runner := by
  unfold release
  split
  · rfl
  · exact runner_push _ _

theorem file_act (x : Series) (a : Act) : (x.act a).runner.file = a.file?.getD x.runner.file := by
  cases a with
  | run now target =>
      simp only [act, run]
      split
      · rename_i hrun
        exact Runner.file_of_run hrun
      · rfl
  | cancel => exact x.runner.file_cancel
  | reload files path =>
      cases hload : SettingsFile.load files path with
      | error chain => simp [act, reload, Runner.reload, Act.file?, hload, Except.toOption]
      | ok file => simp [act, reload, Runner.reload, Act.file?, hload, Except.toOption]
  | tell k files time => exact congrArg Runner.file (x.runner_tell k files time)
  | release k => exact congrArg Runner.file (x.runner_release k)
  | hear i =>
      simp only [act, hear]
      split
      · rfl
      · split
        · exact x.runner.file_applyCompletion _
        · split <;> rfl
  | _ => rfl

theorem file_after (directory : Option String) (acts : List Act) :
    ((empty directory).after acts).runner.file = inForce acts := by
  induction acts using List.reverseRecOn with
  | nil => rfl
  | append_singleton acts a ih =>
      rw [after_append, inForce, List.filterMap_append, List.getLast?_append]
      refine (file_act _ a).trans ?_
      rw [ih]
      cases h : a.file? <;> simp [inForce, h]

/-! ## What a benchmark was started with -/

/-- The benchmarks that were started and their targets, with the settings of each. -/
def orders (x : Series) : List (Nat × Target) := x.trials.map fun t => (t.id, t.target)

theorem orders_onTrial (x : Series) (k : Nat) (hid : ∀ t, (f t).id = t.id)
    (htarget : ∀ t, (f t).target = t.target) : (x.onTrial k f).orders = x.orders := by
  refine List.ext_getElem? fun i => ?_
  rw [orders, orders, List.getElem?_map, List.getElem?_map, getElem?_onTrial, Option.map_map]
  congr 1
  funext t
  by_cases hk : k = i <;> simp [hk, hid, htarget]

theorem orders_push (x : Series) (word : Word) : (x.push word).orders = x.orders := by
  rw [orders, trials_push, orders]

/-- An act adds the benchmark that it starts, and changes nothing about the others. -/
theorem orders_act (x : Series) (a : Act) : (x.act a).orders = x.orders ∨
    ∃ now target r id, a = .run now target ∧ x.runner.run now target = .ok (r, id) ∧
      (x.act a).orders = x.orders ++ [(id, target)] := by
  cases a with
  | run now target =>
      cases hrun : x.runner.run now target with
      | error e => exact .inl (by simp [act, run, hrun])
      | ok p =>
          refine .inr ⟨now, target, p.1, p.2, rfl, hrun, ?_⟩
          simp [act, run, hrun, orders]
  | reload files path =>
      refine .inl ?_
      simp only [act, reload]
      split <;> rfl
  | stir k p =>
      refine .inl (x.orders_onTrial k (fun t => t.id_stir p) fun t => ?_)
      unfold Trial.stir
      split <;> rfl
  | load k result =>
      refine .inl (x.orders_onTrial k (fun t => t.id_finish result) fun t => ?_)
      unfold Trial.finish
      split <;> rfl
  | read k =>
      refine .inl (x.orders_onTrial k (fun t => t.id_read _) fun t => ?_)
      unfold Trial.read
      split <;> rfl
  | tell k files time =>
      refine .inl ?_
      simp only [act, tell]
      split
      · rfl
      · rw [orders_push]
        exact x.orders_onTrial k (fun _ => rfl) fun _ => rfl
  | release k =>
      refine .inl ?_
      simp only [act, release]
      split
      · rfl
      · rw [orders_push]
        refine x.orders_onTrial k Trial.id_release fun t => ?_
        unfold Trial.release
        split <;> rfl
  | hear i =>
      refine .inl ?_
      simp only [act, hear]
      split
      · rfl
      · split
        · rfl
        · split <;> rfl
  | _ => exact .inl rfl

theorem orders_after (x : Series) (acts : List Act) : x.orders <+: (x.after acts).orders := by
  induction acts generalizing x with
  | nil => exact List.prefix_rfl
  | cons a acts ih =>
      refine List.IsPrefix.trans ?_ (ih (x.act a))
      rcases x.orders_act a with h | ⟨now, target, r, id, -, -, h⟩
      · exact h ▸ List.prefix_rfl
      · exact h ▸ List.prefix_append _ _

/-- An accepted start with its place among all acts. -/
def StartedBy (directory : Option String) (acts : List Act) (id : Nat) (target : Target) : Prop :=
  ∃ acts₁ now acts₂ r, acts = acts₁ ++ .run now target :: acts₂ ∧
    ((empty directory).after acts₁).runner.run now target = .ok (r, id)

/-- Every benchmark goes back to an accepted start. -/
theorem startedBy_of_mem {acts : List Act} {id : Nat} {target : Target}
    (h : (id, target) ∈ ((empty directory).after acts).orders) :
    StartedBy directory acts id target := by
  induction acts using List.reverseRecOn with
  | nil => simp [after, orders, empty] at h
  | append_singleton acts a ih =>
      have hold : (id, target) ∈ ((empty directory).after acts).orders →
          StartedBy directory (acts ++ [a]) id target := by
        intro hmem
        obtain ⟨acts₁, now, acts₂, r, rfl, hrun⟩ := ih hmem
        exact ⟨acts₁, now, acts₂ ++ [a], r, by simp, hrun⟩
      rw [after_append] at h
      rcases ((empty directory).after acts).orders_act a with heq | ⟨now, target', r, id', rfl,
        hrun, heq⟩
      · exact hold (heq ▸ h)
      · replace h : (id, target) ∈ _ ++ [(id', target')] := heq ▸ h
        rcases List.mem_append.1 h with h | h
        · exact hold h
        · obtain ⟨rfl, rfl⟩ := Prod.mk.inj (List.mem_singleton.1 h)
          exact ⟨acts, now, [], r, rfl, hrun⟩

/-- What is in the slot has the settings that it was started with. -/
def Ordered (x : Series) : Prop :=
  ∀ s, x.runner.slot = some s → ∃ target, (s.id, target) ∈ x.orders ∧
    s.settings = target.settings ∧ s.target = target.name

theorem Ordered.of_slot {y : Series} (h : x.Ordered)
    (hslot : ∀ s, y.runner.slot = some s → ∃ s', x.runner.slot = some s' ∧ s.id = s'.id ∧
      s.settings = s'.settings ∧ s.target = s'.target)
    (horders : x.orders <+: y.orders) : y.Ordered := by
  intro s hs
  obtain ⟨s', hs', hid, hsettings, hname⟩ := hslot s hs
  obtain ⟨target, hmem, htarget⟩ := h s' hs'
  exact ⟨target, horders.subset (hid ▸ hmem), hsettings.trans htarget.1, hname.trans htarget.2⟩

theorem Ordered.act (h : x.Ordered) (a : Act) : (x.act a).Ordered := by
  have horders := x.orders_after [a]
  have same : (x.act a).runner.slot = x.runner.slot → (x.act a).Ordered := fun heq =>
    h.of_slot (fun s hs => ⟨s, heq ▸ hs, rfl, rfl, rfl⟩) horders
  cases a with
  | run now target =>
      cases hrun : x.runner.run now target with
      | error e => exact same (by simp [Series.act, run, hrun])
      | ok p =>
          obtain ⟨r, id⟩ := p
          obtain ⟨-, rfl, rfl⟩ := Runner.run_eq_ok_iff.1 hrun
          intro s hs
          simp only [Series.act, run, hrun, Option.some.injEq] at hs
          subst hs
          exact ⟨target, by simp [Series.act, run, hrun, orders, Runner.fresh], rfl, rfl⟩
  | cancel =>
      cases hrun : x.runner.running? with
      | none => exact same (by simp [Series.act, cancel, Runner.cancel_of_none hrun])
      | some s =>
          refine h.of_slot (fun s' hs' => ?_) horders
          simp only [Series.act, cancel, Runner.cancel_of_some hrun, Option.some.injEq] at hs'
          subst hs'
          exact ⟨s, (Runner.running?_eq_some_iff.1 hrun).1, rfl, rfl, rfl⟩
  | reload files path =>
      refine same ?_
      simp only [Series.act, reload]
      split
      · rename_i hr
        obtain ⟨file, -, rfl⟩ := Runner.reload_eq_ok_iff.1 hr
        rfl
      · rfl
  | tell k files time => exact same (congrArg Runner.slot (x.runner_tell k files time))
  | release k => exact same (congrArg Runner.slot (x.runner_release k))
  | hear i =>
      cases hword : x.queue[i]? with
      | none => exact same (by simp [Series.act, hear, hword])
      | some word =>
          cases word with
          | holdOver message =>
              refine same ?_
              simp only [Series.act, hear, hword]
              split <;> rfl
          | completion c =>
              by_cases howner : ∃ s, x.runner.slot = some s ∧ s.id = c.id
              · obtain ⟨s, hs, hid⟩ := howner
                intro s' hs'
                simp [Series.act, hear, hword, Runner.applyCompletion_of_eq hs hid, flash?] at hs'
              · have hne := Runner.applyCompletion_of_ne fun s hs hid => howner ⟨s, hs, hid⟩
                exact same (by simp [Series.act, hear, hword, hne, flash?])
  | _ => exact same rfl

theorem Ordered.after (h : x.Ordered) (acts : List Act) : (x.after acts).Ordered := by
  induction acts generalizing x with
  | nil => exact h
  | cons a acts ih => exact ih (h.act a)

/-- The entry of a benchmark is its own. -/
theorem Sound.eq_of_mem_orders {id : Nat} {target target' : Target} (h : x.Sound)
    (hmem : (id, target) ∈ x.orders) (hmem' : (id, target') ∈ x.orders) : target = target' := by
  obtain ⟨t, ht, heq⟩ := List.mem_map.1 hmem
  obtain ⟨u, hu, heq'⟩ := List.mem_map.1 hmem'
  obtain ⟨rfl, rfl⟩ := Prod.mk.inj heq
  obtain ⟨hid, rfl⟩ := Prod.mk.inj heq'
  rw [h.eq_of_id hu ht hid]

/-- A benchmark that was accepted is among those that were started, at its place and with
its target, whatever has happened since. -/
theorem orders_after_run {acts₁ : List Act} {now : Int} {target : Target} {r : Runner} {id : Nat}
    (hrun : ((empty directory).after acts₁).runner.run now target = .ok (r, id))
    (acts₂ : List Act) :
    ((empty directory).after (acts₁ ++ .run now target :: acts₂)).orders[
      ((empty directory).after acts₁).trials.length]? = some (id, target) := by
  have hstep : (((empty directory).after acts₁).act (.run now target)).orders =
      ((empty directory).after acts₁).orders ++ [(id, target)] := by
    simp [act, run, hrun, orders]
  obtain ⟨rest, hrest⟩ := (((empty directory).after acts₁).act (.run now target)).orders_after acts₂
  rw [after_append]
  refine (congrArg (fun l : List (Nat × Target) => l[_]?) hrest).symm.trans ?_
  rw [hstep, List.append_assoc, List.getElem?_append_right (by simp [orders])]
  simp [orders]

/-- Who hears that the file was written reads it. -/
theorem runner_hear_settingsWritten {l : Background.Ledger} (hl : l.runner = x.runner)
    (around : Background.Surroundings) (path : String) :
    (l.hear around (.settingsWritten path)).runner = (x.reload around.files path).runner := by
  cases hr : x.runner.reload around.files path with
  | error e => simp [Background.Ledger.hear, Background.Ledger.note, reload, hl, hr]
  | ok r => simp [Background.Ledger.hear, reload, hl, hr]

/-! ## Every run -/

/-- How readings of the settings stand to a series that has come about by some acts, to
the one who hears that the file was written, and to the benchmarks that were started. -/
structure HotReload (directory : Option String) (acts : List Act) (x : Series) : Prop where
  /-- A reading that fails says why, and all is as it was. -/
  refused : ∀ files path e, x.runner.reload files path = .error e →
    x.reload files path = x ∧ ∃ chain, SettingsFile.Refused files path chain ∧
      e = .settingsNotLoaded path chain.oneLine
  /-- A reading that goes well puts the file in force and changes nothing else. -/
  replaced : ∀ files path r, x.runner.reload files path = .ok r →
    SettingsFile.Stored files path r.file ∧
      x.reload files path = { x with runner := { x.runner with file := r.file } }
  /-- What is refused fails, what gives something goes well. -/
  fails : ∀ files path, (∃ e, x.runner.reload files path = .error e) ↔
    ∃ chain, SettingsFile.Refused files path chain
  resolve : ∀ path container, x.runner.resolve path container =
    (inForce acts).resolve path container
  /-- What is in the slot was started, with the settings that it has. -/
  session : ∀ s, x.runner.slot = some s → ∃ target,
    StartedBy directory acts s.id target ∧ s.settings = target.settings ∧ s.target = target.name
  /-- A benchmark that was accepted keeps what it was started with, in the slot and on its
  course. -/
  isolated : ∀ acts₁ now target acts₂ r id, acts = acts₁ ++ .run now target :: acts₂ →
    ((empty directory).after acts₁).runner.run now target = .ok (r, id) →
      (∃ t, x.trials[((empty directory).after acts₁).trials.length]? = some t ∧
        t.id = id ∧ t.target = target) ∧
      ∀ s, x.runner.slot = some s → s.id = id →
        s.settings = target.settings ∧ s.target = target.name
  /-- Who keeps a ledger writes down one error if the file that was written is refused, and
  one reading if it is not. -/
  ledger : ∀ (around : Background.Surroundings) (path : String) (l : Background.Ledger),
    l.runner = x.runner →
      (l.hear around (.settingsWritten path)).runner = (x.reload around.files path).runner ∧
      (∀ e, x.runner.reload around.files path = .error e →
        l.hear around (.settingsWritten path) =
          { l with notices := l.notices ++ [⟨.error, e.message⟩], status := e.message }) ∧
      ∀ r, x.runner.reload around.files path = .ok r →
        l.hear around (.settingsWritten path) = { l with runner := r, reloads := l.reloads + 1 }
  /-- The console shows the error, or says that there are new settings and shows them. -/
  console : ∀ (around : Background.Surroundings) (path : String) (c : Console),
    c.runner = x.runner →
      (∀ e, x.runner.reload around.files path = .error e →
        c.hear around (.settingsWritten path) = c.flash .error e.message) ∧
      ∀ r, x.runner.reload around.files path = .ok r →
        c.hear around (.settingsWritten path) =
          (({ c with runner := r }.inform "Benchmark config reloaded").hydrate around)

/-- At every moment of every run: a reading of the settings is all or nothing, what is in
force is what was read last, and a benchmark that was started hears of none. -/
theorem hot_reload_is_atomic (directory : Option String) (acts : List Act) :
    ((empty directory).after acts).HotReload directory acts := by
  have hsound := (Sound.empty directory).after acts
  have hordered : ((empty directory).after acts).Ordered :=
    Ordered.after (by simp [Ordered, empty, Runner.empty]) acts
  have hfile := file_after directory acts
  constructor
  case refused =>
    intro files path e he
    obtain ⟨chain, hload, heq⟩ := Runner.reload_eq_error_iff.1 he
    exact ⟨by simp [reload, he], chain, SettingsFile.load_eq_error_iff.1 hload, heq⟩
  case replaced =>
    intro files path r hr
    obtain ⟨file, hload, rfl⟩ := Runner.reload_eq_ok_iff.1 hr
    exact ⟨SettingsFile.load_eq_ok_iff.1 hload, by simp [reload, hr]⟩
  case fails =>
    intro files path
    simp only [Runner.reload_eq_error_iff, SettingsFile.load_eq_error_iff]
    constructor
    · rintro ⟨_, chain, h, -⟩
      exact ⟨chain, h⟩
    · rintro ⟨chain, h⟩
      exact ⟨_, chain, h, rfl⟩
  case resolve =>
    intro path container
    rw [Runner.resolve, hfile]
  case session =>
    intro s hs
    obtain ⟨target, hmem, hsettings⟩ := hordered s hs
    exact ⟨target, startedBy_of_mem hmem, hsettings⟩
  case isolated =>
    rintro acts₁ now target acts₂ r id rfl hrun
    have hentry := orders_after_run hrun acts₂
    refine ⟨?_, ?_⟩
    · obtain ⟨t, ht, heq⟩ := Option.map_eq_some_iff.1 ((List.getElem?_map ..).symm.trans hentry)
      obtain ⟨hid, htarget⟩ := Prod.mk.inj heq
      exact ⟨t, ht, hid, htarget⟩
    · rintro s hs rfl
      obtain ⟨target', hmem, hsettings⟩ := hordered s hs
      obtain rfl := hsound.eq_of_mem_orders hmem (List.mem_of_getElem? hentry)
      exact hsettings
  case ledger =>
    rintro around path l hl
    refine ⟨runner_hear_settingsWritten hl around path, ?_, ?_⟩
    · intro e he
      simp [Background.Ledger.hear, hl, he, Background.Ledger.note]
    · intro r hr
      simp [Background.Ledger.hear, hl, hr]
  case console =>
    rintro around path c hc
    refine ⟨?_, ?_⟩
    · intro e he
      simp [Console.hear, Console.settingsWritten, Console.reloadSettings,
        hc, he, Except.map]
    · intro r hr
      simp [Console.hear, Console.settingsWritten, Console.reloadSettings,
        hc, hr, Except.map]

end Series

end ClusterConsole.Benchmark
