import ClusterConsole.Proofs.Benchmark.ReportNames
import ClusterConsole.Proofs.Storage.Overwriting

/-!
# The directory of the reports

`Report.Saves` lists what the saving of a report can come to. `Stocked` says what is in the
directory after some reports were saved there, one after the other, and `Stocked.save` that
one more keeps it, whether it could be saved or not. The view of the directory has one row for
each report that was not written over (`Stocked.mem_reportRows_iff`).
-/

namespace ClusterConsole.Benchmark

open ClusterConsole.Snapshot ClusterConsole.Storage

variable {directory path name : String} {files files₁ files₂ : Files} {ps : List String}
  {n : Node} {row : Row}

/-- What the saving of a report can come to: the files after it and the path it gives. -/
inductive Report.Saves (r : Report) (files : Files) (directory : String) (target : Target)
    (canceled : Bool) (time : Time.Moment) : Files → Option String → Prop where
  /-- The directory cannot be made. -/
  | barred : Saves r files directory target canceled time files none
  /-- The directory is there, but no file can be written in it under that name. -/
  | unwritten {files' : Files} {ps : List String} (entered : files'.Entered directory ps)
      (keyed : files'.Keyed)
      (rest : ∀ part, files'.at? (ps ++ [part]) = files.at? (ps ++ [part])) :
      Saves r files directory target canceled time files' none
  /-- The report stands in the directory, and the rest as before. -/
  | written {files' : Files} {ps : List String} (entered : files'.Entered directory ps)
      (keyed : files'.Keyed)
      (nameable : Files.nameable (Report.path directory target.name time) = true)
      (self : files'.at? (ps ++ [Report.fileName target.name time]) =
        some (.file (some (r.render target canceled))))
      (rest : ∀ part, part ≠ Report.fileName target.name time →
        files'.at? (ps ++ [part]) = files.at? (ps ++ [part])) :
      Saves r files directory target canceled time files'
        (some (Report.path directory target.name time))

theorem Report.saves (r : Report) (hnamed : directory ≠ "") (hkeyed : files.Keyed)
    (target : Target) (canceled : Bool) (time : Time.Moment) :
    r.Saves files directory target canceled time
      (r.save files directory target canceled time).1
      (r.save files directory target canceled time).2 := by
  unfold save
  cases hmake : files.makeDirectory directory with
  | none => exact .barred
  | some files₁ =>
      obtain ⟨ps, hentered, hkeyed₁, hrest₁⟩ :=
        Files.entered_of_makeDirectory hmake hnamed hkeyed
      have hsame (part : String) : files₁.at? (ps ++ [part]) = files.at? (ps ++ [part]) :=
        hrest₁ _ fun i => Files.take_ne_append i ps part
      dsimp only
      cases hwrite : files₁.write (path directory target.name time) (r.render target canceled) with
      | none => exact .unwritten hentered hkeyed₁ hsame
      | some files₂ =>
          have hnameable : Files.nameable (path directory target.name time) = true := by
            by_contra hnot
            simp [Files.write, hnot] at hwrite
          obtain ⟨hentered₂, hkeyed₂, hself, hrest₂⟩ :=
            Files.entered_of_write hentered hnamed (isName_fileName target.name time) hkeyed₁ hwrite
          refine .written hentered₂ hkeyed₂ hnameable hself fun part hpart => ?_
          have hne : ps ++ [part] ≠ ps ++ [fileName target.name time] := by simpa using hpart
          rw [hrest₂ _ hne, hsame]

/-- The path that is given is the one made for the report, and no part of it is too long. -/
theorem Report.Saves.path_eq {r : Report} {target : Target} {canceled : Bool}
    {time : Time.Moment} (h : r.Saves files directory target canceled time files₁ (some path)) :
    path = Report.path directory target.name time ∧ Files.nameable path = true := by
  cases h with
  | written _ _ hnameable _ _ => exact ⟨rfl, hnameable⟩

/-! ## What stands in the directory -/

/-- No report stands in the directory, whatever else does. -/
structure Bare (files : Files) (directory : String) : Prop where
  named : directory ≠ ""
  keyed : files.Keyed
  empty : ∀ ps, Files.place? directory = some ps → ∀ name n,
    files.at? (ps ++ [name]) = some n → ∀ age, reportRow? name n age = none

/-- The directory after reports were saved in it; `entries` are those that could be saved. -/
structure Stocked {ι : Type} (files : Files) (directory : String) (name text : ι → String)
    (entries : List ι) (files' : Files) : Prop where
  keyed : files'.Keyed
  entered : entries ≠ [] → ∃ ps, files'.Entered directory ps
  filled : ∀ ps, Files.place? directory = some ps → files.Filled name text entries files' ps

namespace Stocked

variable {ι : Type} {name text : ι → String} {entries : List ι} {r : Report} {target : Target}
  {canceled : Bool} {time : Time.Moment} {saved : Option String}

theorem nothing (hkeyed : files.Keyed) (directory : String) (name text : ι → String) :
    Stocked files directory name text [] files where
  keyed := hkeyed
  entered h := absurd rfl h
  filled _ _ := .nothing files name text _

/-- A report that could not be saved leaves the directory as it is, and one that could is
one entry more. -/
theorem save (h : Stocked files directory name text entries files₁)
    (hsaves : r.Saves files₁ directory target canceled time files₂ saved) (entry : String → ι)
    (hname : ∀ path, name (entry path) = Report.fileName target.name time)
    (htext : ∀ path, text (entry path) = r.render target canceled) :
    Stocked files directory name text (entries ++ (saved.map entry).toList) files₂ := by
  cases hsaves with
  | barred => simpa using h
  | @unwritten _ ps hentered hkeyed hrest =>
      rw [Option.map_none, Option.toList_none, List.append_nil]
      refine ⟨hkeyed, fun _ => ⟨ps, hentered⟩, fun ps' hps' => ?_⟩
      obtain rfl := Option.some.inj (hentered.place.symm.trans hps')
      exact (h.filled ps hps').congr hrest
  | @written _ ps hentered hkeyed _ hself hrest =>
      refine ⟨hkeyed, fun _ => ⟨ps, hentered⟩, fun ps' hps' => ?_⟩
      obtain rfl := Option.some.inj (hentered.place.symm.trans hps')
      refine (h.filled ps hps').concat ?_ ?_
      · rw [hname, htext, hself]
      · rwa [hname]

end Stocked

/-! ## The rows of the directory -/

/-- The row of a report is named as its file, without the extension. -/
theorem fqn_of_reportRow? {age : Option Nat} (h : reportRow? name n age = some row) :
    row.fqn ++ ".txt" = name := by
  unfold reportRow? at h
  split at h
  · rename_i hcut
    obtain rfl := Option.some.inj h
    rw [eq_of_cutExtension hcut, String.append_assoc]
    rfl
  · cases h

theorem mem_reportRows_of_list {l : List (String × Node)} {target : Option String}
    (hlist : files.list directory = .ok l) : row ∈ reportRows files directory target ↔
      (∃ e ∈ l, reportRow? e.1 e.2 (files.age? (Path.join directory e.1)) = some row) ∧
        ∀ name, target = some name → (reportHead name).toList <+: row.fqn.toList := by
  cases target <;> simp [reportRows, hlist, List.mem_filter, List.mem_filterMap]

theorem nodup_reportRows (hkeyed : files.Keyed) (directory : String) (target : Option String) :
    ((reportRows files directory target).map Row.fqn).Nodup := by
  unfold reportRows
  cases hlist : files.list directory with
  | error e => exact List.nodup_nil
  | ok l =>
      obtain ⟨ps, -, rfl⟩ := Files.list_eq_ok hlist
      have hpairs : (files.entries ps).Pairwise fun e e' => e.1 ≠ e'.1 :=
        List.pairwise_map.1 (Files.nodup_entries hkeyed ps)
      have hrows : ((files.entries ps).filterMap fun e =>
          reportRow? e.1 e.2 (files.age? (Path.join directory e.1))).Pairwise
            fun row row' => row.fqn ≠ row'.fqn := by
        refine List.pairwise_filterMap.2 (hpairs.imp ?_)
        intro e e' hne row hrow row' hrow' hfqn
        exact hne (by rw [← fqn_of_reportRow? hrow, ← fqn_of_reportRow? hrow', hfqn])
      exact List.pairwise_map.2 (hrows.filter _)

/-- If none of the files is taken for a report, the rows are those of the reports that were
not written over, with the ages of their files. -/
theorem Stocked.mem_reportRows_iff {ι : Type} {name text : ι → String}
    {rowOf : ι → Option Nat → Row}
    {entries : List ι} {target : Option String}
    (h : Stocked files directory name text entries files₁) (hbare : Bare files directory)
    (hrow : ∀ e age, reportRow? (name e) (.file (some (text e))) age = some (rowOf e age)) :
    row ∈ reportRows files₁ directory target ↔
      (∃ e, LastUnder name entries e ∧
        rowOf e (files₁.age? (Path.join directory (name e))) = row) ∧
        ∀ name, target = some name → (reportHead name).toList <+: row.fqn.toList := by
  have hof : ∀ ps, Files.place? directory = some ps →
      ∀ part n, files₁.at? (ps ++ [part]) = some n →
        reportRow? part n (files₁.age? (Path.join directory part)) = some row →
          ∃ e, LastUnder name entries e ∧
            rowOf e (files₁.age? (Path.join directory (name e))) = row := by
    intro ps hps part n hn hr
    rcases (h.filled ps hps).rest part n hn with hold | ⟨e, he, rfl, rfl⟩
    · rw [hbare.empty ps hps part n hold] at hr
      cases hr
    · exact ⟨e, he, Option.some.inj ((hrow e _).symm.trans hr)⟩
  cases hlist : files₁.list directory with
  | error fault =>
      -- no report was saved, or the directory could be entered
      refine ⟨fun hmem => by simp [reportRows, hlist] at hmem, ?_⟩
      rintro ⟨⟨e, he, -⟩, -⟩
      obtain ⟨ps, hentered⟩ := h.entered (List.ne_nil_of_mem he.mem)
      rw [hentered.list] at hlist
      cases hlist
  | ok l =>
      obtain ⟨ps, hps, rfl⟩ := Files.list_eq_ok hlist
      rw [mem_reportRows_of_list hlist]
      refine and_congr_left fun _ => ⟨?_, ?_⟩
      · rintro ⟨⟨part, n⟩, hmem, hr⟩
        exact hof ps hps part n ((Files.mem_entries h.keyed).1 hmem) hr
      · rintro ⟨e, he, rfl⟩
        exact ⟨(name e, .file (some (text e))),
          (Files.mem_entries h.keyed).2 ((h.filled ps hps).latest e he), hrow e _⟩

end ClusterConsole.Benchmark
