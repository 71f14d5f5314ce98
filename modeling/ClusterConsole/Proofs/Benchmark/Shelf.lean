import ClusterConsole.Proofs.Benchmark.Stock

/-!
# The reports of a forward

`Saved` gives the files after some reports were saved in one directory. A report stays
there until one of the same forward is saved in the same second (`Latest`), and a view of
the directory has one row for each report that stays. The view of a forward is meant to
have the rows of that forward's reports; it has those, and besides them the rows of other
containers of the pod whose reports are named alike (`ForwardName.Selects`).
-/

namespace ClusterConsole.Benchmark

open ClusterConsole.Snapshot ClusterConsole.Storage

/-- A benchmark's report as it is saved. -/
structure Saving where
  forward : ForwardName
  url : String
  settings : Settings
  report : Report
  canceled : Bool
  time : Time.Moment

namespace Saving

def target (s : Saving) : Target := ⟨s.forward.fqn, s.url, s.settings⟩

def stem (s : Saving) : String := Report.stem s.forward.fqn s.time

def fileName (s : Saving) : String := Report.fileName s.forward.fqn s.time

def text (s : Saving) : String := s.report.render s.target s.canceled

/-- The row of a saved report, read back from a file of that age. -/
def rowAged (s : Saving) (age : Option Nat) : Row :=
  let r := Reading.ofText s.text
  ⟨s.stem, [s.stem, r.status, r.rate, toString r.errors, ageText age]⟩

/-- The row of a saved report, read back from its file. -/
def row (s : Saving) (files : Files) (directory : String) : Row :=
  s.rowAged (files.age? (Path.join directory s.fileName))

/-- The two go by one name. -/
def SameFile (u s : Saving) : Prop := u.forward = s.forward ∧ u.time.stamp = s.time.stamp

variable {s u : Saving} {name : String} {n : Node} {row : Row}

theorem fileName_eq_iff : u.fileName = s.fileName ↔ u.SameFile s := by
  rw [fileName, fileName, Report.fileName_eq_iff, ← Report.stem_eq_iff]
  constructor
  · exact ForwardName.stem_inj
  · rintro ⟨hforward, hstamp⟩
    rw [Report.stem, Report.stem, hforward, hstamp]

theorem reportRow?_fileName (s : Saving) (age : Option Nat) :
    reportRow? s.fileName (.file (some s.text)) age = some (s.rowAged age) := by
  have hcut : Path.cutExtension s.fileName = (s.stem, some "txt") :=
    cutExtension_txt (Report.stem_ne_empty s.forward.fqn s.time)
  simp only [reportRow?, hcut]
  rfl

end Saving

/-- The files after some reports were saved, one after the other. -/
inductive Saved (directory : String) (files : Files) : List Saving → Files → Prop where
  | nothing : Saved directory files [] files
  | one {savings : List Saving} {files₁ files₂ : Files} {s : Saving} {path : String}
      (h : Saved directory files savings files₁)
      (hsave : s.report.save files₁ directory s.target s.canceled s.time = (files₂, some path)) :
      Saved directory files (savings ++ [s]) files₂

/-- The report that was saved last under its name. -/
def Latest (savings : List Saving) (s : Saving) : Prop :=
  ∃ before later, savings = before ++ s :: later ∧ ∀ u ∈ later, ¬ u.SameFile s

variable {directory path : String} {files files' : Files} {savings : List Saving} {s u : Saving}
  {g : ForwardName}

theorem latest_iff : Latest savings s ↔ LastUnder Saving.fileName savings s := by
  simp only [Latest, LastUnder, ne_eq, Saving.fileName_eq_iff]

theorem Saved.stocked (h : Saved directory files savings files') (hnamed : directory ≠ "")
    (hkeyed : files.Keyed) :
    Stocked files directory Saving.fileName Saving.text savings files' := by
  induction h with
  | nothing => exact .nothing hkeyed directory _ _
  | @one savings files₁ files₂ s path h hsave ih =>
      have hsaves := s.report.saves hnamed ih.keyed s.target s.canceled s.time
      rw [hsave] at hsaves
      exact ih.save hsaves (fun _ => s) (fun _ => rfl) fun _ => rfl

/-! ## The view of a forward -/

/-- What a forward's view of the files shows of the reports that were saved. -/
structure Shows (savings : List Saving) (g : ForwardName) (files : Files) (directory : String) :
    Prop where
  nodup : ((reportRows files directory (some g.fqn)).map Row.fqn).Nodup
  mem_iff : ∀ row, row ∈ reportRows files directory (some g.fqn) ↔
    ∃ s, Latest savings s ∧ g.Selects s.forward s.time ∧ s.row files directory = row

theorem ForwardName.selects_self (s : Saving) : s.forward.Selects s.forward s.time :=
  ⟨rfl, rfl, .inl rfl⟩

theorem Saved.shows (hbare : Bare files directory) (h : Saved directory files savings files')
    (g : ForwardName) : Shows savings g files' directory := by
  have hstocked := h.stocked hbare.named hbare.keyed
  refine ⟨nodup_reportRows hstocked.keyed directory _, fun row => ?_⟩
  rw [hstocked.mem_reportRows_iff hbare Saving.reportRow?_fileName]
  constructor
  · rintro ⟨⟨s, hs, rfl⟩, hhead⟩
    exact ⟨s, latest_iff.2 hs, ForwardName.head_prefix_stem_iff.1 (hhead g.fqn rfl), rfl⟩
  · rintro ⟨s, hs, hselects, rfl⟩
    refine ⟨⟨s, latest_iff.1 hs, rfl⟩, fun name hname => ?_⟩
    obtain rfl := Option.some.inj hname
    exact ForwardName.head_prefix_stem_iff.2 hselects

/-- The view of a forward has one row for each report that stays and that it selects. All
of the forward's own are among them, and if it selects none that was saved for another
there are no others. -/
theorem report_view_selects_by_name (hbare : Bare files directory)
    (h : Saved directory files savings files') (g : ForwardName) :
    Shows savings g files' directory ∧
      (∀ s, Latest savings s → s.forward = g →
        s.row files' directory ∈ reportRows files' directory (some g.fqn)) ∧
      ((∀ s ∈ savings, g.Selects s.forward s.time → s.forward = g) →
        ∀ row, row ∈ reportRows files' directory (some g.fqn) ↔
          ∃ s, Latest savings s ∧ s.forward = g ∧ s.row files' directory = row) := by
  have hshows := h.shows hbare g
  have hown : ∀ s, Latest savings s → s.forward = g →
      s.row files' directory ∈ reportRows files' directory (some g.fqn) := by
    rintro s hs rfl
    exact (hshows.mem_iff _).2 ⟨s, hs, ForwardName.selects_self s, rfl⟩
  refine ⟨hshows, hown, fun hapart row => ⟨fun hrow => ?_, ?_⟩⟩
  · obtain ⟨s, hs, hselects, rfl⟩ := (hshows.mem_iff row).1 hrow
    obtain ⟨before, later, rfl, -⟩ := id hs
    exact ⟨s, hs, hapart s (by simp) hselects, rfl⟩
  · rintro ⟨s, hs, hforward, rfl⟩
    exact hown s hs hforward

/-! ## Two containers whose names begin alike -/

def app : ForwardName := ⟨"ns", "web", "app", by decide, by decide, by decide⟩

def appV2 : ForwardName := ⟨"ns", "web", "app-v2", by decide, by decide, by decide⟩

/-- A benchmark of a forward that ended at the start of 2024. -/
def atNewYear (g : ForwardName) : Saving :=
  ⟨g, "http://localhost:8080/", Settings.builtin, ⟨3, [(2, 3)], 0, 0⟩, false,
    ⟨2024, 1, 1, 0, 0, 0⟩⟩

/-- What is there after the reports of some benchmarks were saved. -/
def shelf (savings : List Saving) : Files :=
  savings.foldl (fun files s =>
    (s.report.save files "reports" s.target s.canceled s.time).1) Files.empty

theorem Saved.shelf (h : Saved "reports" Files.empty savings (shelf savings))
    (hsave : (s.report.save (shelf savings) "reports" s.target s.canceled s.time).2 = some path) :
    Saved "reports" Files.empty (savings ++ [s]) (Benchmark.shelf (savings ++ [s])) := by
  refine .one h (Prod.ext ?_ hsave)
  rw [Benchmark.shelf, Benchmark.shelf, List.foldl_append]
  rfl

theorem report_view_selects_by_name_app :
    Bare Files.empty "reports" ∧
      Saved "reports" Files.empty [atNewYear app, atNewYear appV2]
        (shelf [atNewYear app, atNewYear appV2]) ∧
      Shows [atNewYear app, atNewYear appV2] app
        (shelf [atNewYear app, atNewYear appV2]) "reports" := by
  have hbare : Bare Files.empty "reports" :=
    ⟨by decide, List.nodup_nil, fun ps _ name n hn => by simp [Files.at?, Files.empty] at hn⟩
  have hfirst : ((atNewYear app).report.save (shelf []) "reports" (atNewYear app).target false
      (atNewYear app).time).2 = some "reports/ns_web_app-20240101-000000.txt" := by
    decide +kernel
  have hsecond : ((atNewYear appV2).report.save (shelf [atNewYear app]) "reports"
      (atNewYear appV2).target false (atNewYear appV2).time).2 =
        some "reports/ns_web_app-v2-20240101-000000.txt" := by
    decide +kernel
  have hnothing : Saved "reports" Files.empty [] (shelf []) := .nothing
  have hsaved : Saved "reports" Files.empty [atNewYear app, atNewYear appV2]
      (shelf [atNewYear app, atNewYear appV2]) := (hnothing.shelf hfirst).shelf hsecond
  exact ⟨hbare, hsaved, (report_view_selects_by_name hbare hsaved app).1⟩

/-- The only report was saved for `app-v2`, and the view of `app` lists it. -/
theorem view_of_app_lists_report_of_app_v2 :
    ((atNewYear appV2).report.save (shelf []) "reports" (atNewYear appV2).target false
        (atNewYear appV2).time).2 = some "reports/ns_web_app-v2-20240101-000000.txt" ∧
      (reportRows (shelf [atNewYear appV2]) "reports" (some app.fqn)).map Row.fqn =
        [(atNewYear appV2).stem] ∧
      app ≠ appV2 := by
  refine ⟨by decide +kernel, by decide +kernel, fun h => ?_⟩
  exact absurd (congrArg ForwardName.container h) (by decide)

end ClusterConsole.Benchmark
