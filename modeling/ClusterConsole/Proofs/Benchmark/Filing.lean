import ClusterConsole.Proofs.Benchmark.Stock
import ClusterConsole.Proofs.Benchmark.Verdict
import Mathlib.Data.List.Dedup

/-!
# The filing of a series' reports

A `Filing` is a series together with the files that its benchmarks save their reports in. The
path of a report is made from the name of the target and from a stamp of the time, to the
second. Names that differ in separators only are made into one name, and a benchmark may end
in the second in which another of that name has ended. Then both reports go by one path, and
the later one is written over the earlier one (`second_report_is_written_over_the_first`).
That is all that can happen to a report (`Filing.Kept`): benchmarks that end in different
seconds, or whose targets are told apart by `safeName`, keep their reports.
-/

namespace ClusterConsole.Benchmark

open ClusterConsole.Snapshot ClusterConsole.Status ClusterConsole.Storage

/-- A report that was saved: where, and what it was written from. -/
structure Filed where
  path : String
  target : Target
  report : Report
  canceled : Bool
  time : Time.Moment

namespace Filed

def fileName (e : Filed) : String := Report.fileName e.target.name e.time

def text (e : Filed) : String := e.report.render e.target e.canceled

/-- The two go by one path. -/
def SameFile (e e' : Filed) : Prop :=
  safeName e.target.name = safeName e'.target.name ∧ e.time.stamp = e'.time.stamp

theorem fileName_eq_iff {e e' : Filed} : e.fileName = e'.fileName ↔ e.SameFile e' :=
  Report.fileName_eq_iff

/-- The row of a saved report, read back from a file of that age. -/
def rowAged (e : Filed) (age : Option Nat) : Row :=
  let r := Reading.ofText e.text
  ⟨Report.stem e.target.name e.time,
    [Report.stem e.target.name e.time, r.status, r.rate, toString r.errors, ageText age]⟩

/-- The row of a saved report, read back from its file. -/
def row (e : Filed) (files : Files) (directory : String) : Row :=
  e.rowAged (files.age? (Path.join directory e.fileName))

theorem reportRow?_fileName (e : Filed) (age : Option Nat) :
    reportRow? e.fileName (.file (some e.text)) age = some (e.rowAged age) := by
  have hcut : Path.cutExtension e.fileName = (Report.stem e.target.name e.time, some "txt") :=
    cutExtension_txt (Report.stem_ne_empty e.target.name e.time)
  simp only [reportRow?, hcut]
  rfl

end Filed

/-- The report of a completion, if it was saved. -/
def Completion.filed? (c : Completion) (target : Target) (time : Time.Moment) : Option Filed :=
  match c.result, c.savedAt with
  | .ok report, some path => some ⟨path, target, report, c.canceled, time⟩
  | _, _ => none

/-- The saving of a report: the files after it, and the report if it could be saved. -/
def Report.filing (r : Report) (files : Files) (directory : String) (target : Target)
    (canceled : Bool) (time : Time.Moment) : Files × Option Filed :=
  let (files, saved) := r.save files directory target canceled time
  (files, saved.map fun path => ⟨path, target, r, canceled, time⟩)

namespace Trial

/-- What a benchmark writes when it tells its completion. -/
def written (t : Trial) (files : Files) (directory : Option String) (time : Time.Moment) :
    Files × Option Filed :=
  match t.complete? files directory time with
  | none => (files, none)
  | some (files, c) => (files, c.filed? t.target time)

theorem written_cases (t : Trial) (files : Files) (directory : String) (time : Time.Moment) :
    t.written files (some directory) time = (files, none) ∨ ∃ r canceled,
      t.written files (some directory) time =
        Report.filing r files directory t.target canceled time := by
  cases hp : t.progress with
  | saving canceled result =>
      simp only [written, complete?, hp]
      cases result with
      | error chain => exact .inl rfl
      | ok r =>
          refine .inr ⟨r, canceled, ?_⟩
          simp only [Completion.ofEnd, Completion.filed?, Report.filing]
          cases (r.save files directory t.target canceled time).2 <;> rfl
  | _ => exact .inl (by simp only [written, complete?, hp])

end Trial

/-- The act, with those files for a benchmark that saves its report. -/
def Act.withFiles (files : Files) : Act → Act
  | .tell k _ time => .tell k files time
  | a => a

structure Filing where
  series : Series
  files : Files
  /-- All reports that were ever saved. -/
  filed : List Filed

namespace Filing

variable {x : Filing} {directory : String} {files : Files}

def start (directory : String) (files : Files) : Filing :=
  ⟨Series.empty (some directory), files, []⟩

/-- What an act writes: the files after it, and the report that it saves. -/
def written (x : Filing) : Act → Files × Option Filed
  | .tell k _ time =>
      (x.series.trials[k]?.map fun t => t.written x.files x.series.runner.directory time).getD
        (x.files, none)
  | _ => (x.files, none)

def act (x : Filing) (a : Act) : Filing where
  series := x.series.act (a.withFiles x.files)
  files := (x.written a).1
  filed := x.filed ++ (x.written a).2.toList

/-- The filing after some acts. -/
def after (x : Filing) (acts : List Act) : Filing := acts.foldl act x

/-- An act writes nothing, or it saves the report of one benchmark. -/
theorem written_cases (hdirectory : x.series.runner.directory = some directory) (a : Act) :
    x.written a = (x.files, none) ∨ ∃ r target canceled time,
      x.written a = Report.filing r x.files directory target canceled time := by
  cases a with
  | tell k _ time =>
      simp only [written, hdirectory]
      cases x.series.trials[k]? with
      | none => exact .inl rfl
      | some t =>
          rcases t.written_cases x.files directory time with h | ⟨r, canceled, h⟩
          · exact .inl h
          · exact .inr ⟨r, t.target, canceled, time, h⟩
  | _ => exact .inl rfl

/-! ## What every act keeps -/

structure Sound (x : Filing) (files : Files) (directory : String) : Prop where
  series : x.series.Sound
  attested : x.series.Attested (some directory)
  stocked : Stocked files directory Filed.fileName Filed.text x.filed x.files
  path : ∀ e ∈ x.filed, e.path = Report.path directory e.target.name e.time
  nameable : ∀ e ∈ x.filed, Files.nameable e.path = true

namespace Sound

theorem start (hkeyed : files.Keyed) (directory : String) :
    (start directory files).Sound files directory where
  series := .empty _
  attested := .empty _
  stocked := .nothing hkeyed directory _ _
  path := by simp [Filing.start]
  nameable := by simp [Filing.start]

theorem act (h : x.Sound files directory) (hnamed : directory ≠ "") (a : Act) :
    (x.act a).Sound files directory := by
  have hseries := h.series.act (a.withFiles x.files)
  have hattested := h.attested.act h.series (a.withFiles x.files)
  rcases written_cases h.attested.keeps a with hwritten | ⟨r, target, canceled, time, hwritten⟩
  · have hact : x.act a = { x with series := x.series.act (a.withFiles x.files) } := by
      simp [Filing.act, hwritten]
    rw [hact]
    exact { h with series := hseries, attested := hattested }
  · have hsaves := r.saves hnamed h.stocked.keyed target canceled time
    have hstocked := h.stocked.save hsaves (fun path => ⟨path, target, r, canceled, time⟩)
      (fun _ => rfl) fun _ => rfl
    have hfiled : (x.act a).filed = x.filed ++
        (Report.filing r x.files directory target canceled time).2.toList := by
      rw [Filing.act, hwritten]
    have hfiles : (x.act a).files = (Report.filing r x.files directory target canceled time).1 := by
      rw [Filing.act, hwritten]
    rw [Report.filing] at hfiled hfiles
    dsimp only at hfiled hfiles
    -- the report that was saved has the path that was made for it
    have hnew : ∀ e ∈ (x.act a).filed, e ∈ x.filed ∨
        e.path = Report.path directory e.target.name e.time ∧ Files.nameable e.path = true := by
      intro e he
      rw [hfiled] at he
      rcases List.mem_append.1 he with he | he
      · exact .inl he
      · obtain ⟨path, hpath, rfl⟩ := Option.map_eq_some_iff.1 (Option.mem_toList.1 he)
        rw [hpath] at hsaves
        exact .inr hsaves.path_eq
    rw [← hfiled, ← hfiles] at hstocked
    exact ⟨hseries, hattested, hstocked,
      fun e he => (hnew e he).elim (h.path e) And.left,
      fun e he => (hnew e he).elim (h.nameable e) And.right⟩

theorem after (h : x.Sound files directory) (hnamed : directory ≠ "") (acts : List Act) :
    (x.after acts).Sound files directory := by
  induction acts generalizing x with
  | nil => exact h
  | cons a acts ih => exact ih (h.act hnamed a)

theorem path_eq_iff (h : x.Sound files directory) {e e' : Filed} (he : e ∈ x.filed)
    (he' : e' ∈ x.filed) : e.path = e'.path ↔ e.SameFile e' := by
  rw [h.path e he, h.path e' he', Report.path_eq_iff, Filed.SameFile]

theorem read (h : x.Sound files directory) (hnamed : directory ≠ "") {e : Filed}
    (he : LastUnder Filed.fileName x.filed e) : x.files.read e.path = .ok e.text := by
  obtain ⟨ps, hentered⟩ := h.stocked.entered (List.ne_nil_of_mem he.mem)
  have hnameable := h.nameable e he.mem
  rw [h.path e he.mem, Report.path_eq_join] at hnameable ⊢
  exact hentered.read hnamed (Report.isName_fileName e.target.name e.time) hnameable
    ((h.stocked.filled ps hentered.place).latest e he)

end Sound

/-! ## What becomes of the reports -/

/-- The path of a row's file. -/
def rowPath (directory : String) (row : Row) : String :=
  Path.join directory (row.fqn ++ ".txt")

/-- No two reports go by one path. -/
def Apart (x : Filing) : Prop := x.filed.Pairwise fun e e' => ¬ e.SameFile e'

theorem Sound.perm_paths (h : x.Sound files directory) (hbare : Bare files directory) :
    ((reportRows x.files directory none).map (rowPath directory)).Perm
      (x.filed.map Filed.path).dedup := by
  have hmem (row : Row) : row ∈ reportRows x.files directory none ↔
      ∃ e, LastUnder Filed.fileName x.filed e ∧ e.row x.files directory = row := by
    rw [h.stocked.mem_reportRows_iff hbare Filed.reportRow?_fileName]
    simp [Filed.row]
  have hpath : ∀ e ∈ x.filed, rowPath directory (e.row x.files directory) = e.path := fun e he =>
    (h.path e he).symm
  have hnodup : ((reportRows x.files directory none).map (rowPath directory)).Nodup := by
    refine List.Nodup.map_on ?_ (nodup_reportRows h.stocked.keyed directory none).of_map
    intro row hrow row' hrow' heq
    obtain ⟨e, he, rfl⟩ := (hmem row).1 hrow
    obtain ⟨e', he', rfl⟩ := (hmem row').1 hrow'
    rw [hpath e he.mem, hpath e' he'.mem, h.path_eq_iff he.mem he'.mem] at heq
    refine List.inj_on_of_nodup_map (nodup_reportRows h.stocked.keyed directory none)
      hrow hrow' ?_
    exact Report.stem_eq_iff.2 heq
  refine (List.perm_ext_iff_of_nodup hnodup (List.nodup_dedup _)).2 fun path => ?_
  rw [List.mem_dedup, List.mem_map, List.mem_map]
  constructor
  · rintro ⟨row, hrow, rfl⟩
    obtain ⟨e, he, rfl⟩ := (hmem row).1 hrow
    exact ⟨e, he.mem, (hpath e he.mem).symm⟩
  · rintro ⟨e, he, rfl⟩
    obtain ⟨u, hu, hue⟩ := LastUnder.exists_of_mem Filed.fileName he
    refine ⟨u.row x.files directory, (hmem _).2 ⟨u, hu, rfl⟩, ?_⟩
    rw [hpath u hu.mem]
    exact (h.path_eq_iff hu.mem he).2 (Filed.fileName_eq_iff.1 hue)

theorem Sound.nodup_paths_iff (h : x.Sound files directory) :
    (x.filed.map Filed.path).Nodup ↔ x.Apart := by
  rw [List.Nodup, List.pairwise_map, Apart]
  exact List.Pairwise.iff_of_mem fun he he' => not_congr (h.path_eq_iff he he')

/-- What becomes of the reports that the benchmarks of a series have saved. -/
structure Kept (x : Filing) (directory : String) : Prop where
  path : ∀ e ∈ x.filed, e.path = Report.path directory e.target.name e.time
  path_eq_iff : ∀ e ∈ x.filed, ∀ e' ∈ x.filed, e.path = e'.path ↔ e.SameFile e'
  /-- The last of the reports that go by a path is there as it was written. -/
  last : ∀ before e later, x.filed = before ++ e :: later → (∀ u ∈ later, ¬ u.SameFile e) →
    x.files.read e.path = .ok e.text
  /-- The view of the directory has one row for each path. -/
  rows : ((reportRows x.files directory none).map (rowPath directory)).Perm
    (x.filed.map Filed.path).dedup
  distinct : (x.filed.map Filed.path).Nodup ↔ x.Apart
  /-- As many reports are there as were saved, unless two went by one path. -/
  count : (reportRows x.files directory none).length = x.filed.length ↔ x.Apart
  /-- If no two go by one path, all are there as they were written. -/
  all : x.Apart → ∀ e ∈ x.filed, x.files.read e.path = .ok e.text

theorem Sound.kept (h : x.Sound files directory) (hbare : Bare files directory) :
    x.Kept directory := by
  have hlast : ∀ before e later, x.filed = before ++ e :: later →
      (∀ u ∈ later, ¬ u.SameFile e) → x.files.read e.path = .ok e.text := by
    intro before e later hfiled hlater
    exact h.read hbare.named ⟨before, later, hfiled, fun u hu hname =>
      hlater u hu (Filed.fileName_eq_iff.1 hname)⟩
  refine
    { path := h.path
      path_eq_iff := fun e he e' he' => h.path_eq_iff he he'
      last := hlast
      rows := h.perm_paths hbare
      distinct := h.nodup_paths_iff
      count := ?_
      all := fun hapart e he => ?_ }
  · have hlength := (h.perm_paths hbare).length_eq
    have hsublist := List.dedup_sublist (x.filed.map Filed.path)
    rw [List.length_map] at hlength
    rw [← h.nodup_paths_iff, ← List.dedup_eq_self, hlength]
    constructor
    · intro heq
      exact hsublist.eq_of_length (by rw [heq, List.length_map])
    · intro heq
      rw [heq, List.length_map]
  · obtain ⟨before, later, hfiled⟩ := List.append_of_mem he
    refine hlast before e later hfiled fun u hu hsame => ?_
    rw [Apart, hfiled, List.pairwise_append, List.pairwise_cons] at hapart
    exact hapart.2.1.1 u hu ⟨hsame.1.symm, hsame.2.symm⟩

/-- Whatever benchmarks are run with a directory that has no report in it, of whatever targets
and at whatever times: two reports go by one path if their targets' names are made into one and
they were saved in one second, and every report stays that no later one shares its path with. -/
theorem reports_are_kept_apart_by_name_and_second (hbare : Bare files directory)
    (acts : List Act) : ((start directory files).after acts).Kept directory :=
  ((Sound.start hbare.keyed directory).after hbare.named acts).kept hbare

/-! ## Two benchmarks of one target -/

def webApp : Target := ⟨"ns/web|app", "http://localhost:8080/", Settings.builtin⟩

/-- A benchmark that answers that many requests with success, and whose report is saved at
that time; `k` is its place among those that were run. -/
def benchmark (k sent : Nat) (time : Time.Moment) : List Act :=
  [.run 0 webApp, .load k (.ok ⟨sent, [(2, sent)], 0, 500000000⟩), .read k,
    .tell k Files.empty time, .hear 0]

/-- Two benchmarks of one target, the second of which ends at that time. -/
def twice (time : Time.Moment) : Filing :=
  (start "reports" Files.empty).after
    (benchmark 0 3 ⟨2024, 1, 1, 0, 0, 0⟩ ++ benchmark 1 5 time)

theorem reports_are_kept_apart_by_name_and_second_twice :
    Bare Files.empty "reports" ∧
      (twice ⟨2024, 1, 1, 0, 0, 1⟩).Kept "reports" ∧
      (twice ⟨2024, 1, 1, 0, 0, 1⟩).filed.map Filed.path =
        ["reports/ns_web_app-20240101-000000.txt", "reports/ns_web_app-20240101-000001.txt"] := by
  have hbare : Bare Files.empty "reports" :=
    ⟨by decide, List.nodup_nil, fun ps _ name n hn => by simp [Files.at?, Files.empty] at hn⟩
  exact ⟨hbare, reports_are_kept_apart_by_name_and_second hbare _, by decide +kernel⟩

/-- Two benchmarks end in one second: both are announced with one path, which the second
report is read from, and the view has one row. -/
theorem second_report_is_written_over_the_first :
    let x := twice ⟨2024, 1, 1, 0, 0, 0⟩
    x.filed.map Filed.path =
        ["reports/ns_web_app-20240101-000000.txt", "reports/ns_web_app-20240101-000000.txt"] ∧
      ¬ (x.filed.map Filed.path).Nodup ∧
      (reportRows x.files "reports" none).length = 1 ∧
      x.filed.map (fun e => decide (x.files.read e.path = .ok e.text)) = [false, true] := by
  decide +kernel

end Filing

end ClusterConsole.Benchmark
