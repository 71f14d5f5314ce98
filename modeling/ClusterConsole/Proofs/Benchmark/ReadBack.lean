import ClusterConsole.Benchmark.Archive
import ClusterConsole.Proofs.Number.Written
import ClusterConsole.Proofs.Text.Lines

/-!
# Reading a report back

A report is written as lines of `Key: value`, and three of them are read back. The target's
name, its locator and its method are written as they are, so their text may have line breaks
and read like other lines of a report. That does no harm: they stand in front of the three
lines, and of several lines of one key the last one counts. What is written behind them is
numbers and keys that are not read (`entry_of_field`).
-/

namespace ClusterConsole.Text

variable {blanks cs : List Char}

theorem trimList_append_of_blank (hblank : ∀ c ∈ blanks, isBlank c = true) (cs : List Char) :
    trimList (blanks ++ cs) = trimList cs := by
  rw [trimList, trimList, trimStartList, List.dropWhile_append_of_pos hblank, trimStartList]

/-- A word with blanks in front of it. -/
theorem IsWord.trimList_append {w : String} (hw : IsWord w) (blanks : List Char)
    (hblank : ∀ c ∈ blanks, isBlank c = true) : trimList (blanks ++ w.toList) = w.toList := by
  rw [trimList_append_of_blank hblank, (trimmed_of_forall hw.2).trimList_eq]

end ClusterConsole.Text

namespace ClusterConsole.Benchmark

open ClusterConsole.Number ClusterConsole.Storage ClusterConsole.Text

namespace Reading

variable {x : Reading} {key value : List Char} {w : String}

/-- The reading after one line of the writer, which may be several lines of text. -/
def entry (x : Reading) (written : String) : Reading :=
  (linesFrom [] (written.toList ++ ['\n'])).foldl line x

theorem ofText_render_eq_foldl (r : Report) (target : Target) (canceled : Bool) :
    ofText (r.render target canceled) = (r.renderLines target canceled).foldl entry start := by
  have htext : (r.render target canceled).toList =
      ended ((r.renderLines target canceled).map String.toList) := by
    simp [Report.render, ended, String.toList_join, List.flatMap_map, String.toList_append]
  rw [ofText, htext, linesFrom_ended, List.flatMap_map, List.foldl_flatMap]
  rfl

/-! ## One line -/

theorem entry_of_isLine {written : String} (h : IsLine written.toList) :
    x.entry written = x.line written.toList := by
  rw [entry, h.linesFrom, List.foldl_cons, List.foldl_nil]

/-- A key, a colon and blanks with a word behind them are one line. -/
theorem isLine_of_isWord (hw : IsWord w) {front : List Char} (hfront : '\n' ∉ front) :
    IsLine (front ++ w.toList) where
  feed hmem := by
    rcases List.mem_append.1 hmem with hmem | hmem
    · exact hfront hmem
    · exact absurd (hw.2 _ hmem) (by decide)
  cr hlast := by
    rw [List.getLast?_append_of_ne_nil _ hw.1] at hlast
    exact absurd (hw.2 _ (List.mem_of_getLast? hlast)) (by decide)

/-- The keys that are read. -/
def keys : List String := ["Canceled", "Errors", "Req/sec"]

theorem line_of_other (hcolon : ':' ∉ key) (hkey : String.ofList (trimList key) ∉ keys)
    (value : List Char) : x.line (key ++ ':' :: value) = x := by
  simp only [keys, List.mem_cons, List.not_mem_nil, or_false, not_or] at hkey
  rw [line, cutList_append hcolon]
  dsimp only
  split
  · exact absurd ‹_› hkey.1
  · exact absurd ‹_› hkey.2.1
  · exact absurd ‹_› hkey.2.2
  · rfl

/-- A line of a key that is not read, with blanks and a word behind it. -/
theorem entry_of_field (key blanks : List Char) (hcolon : ':' ∉ key) (hfeed : '\n' ∉ key)
    (hkey : String.ofList (trimList key) ∉ keys) (hblanks : '\n' ∉ blanks)
    (hw : IsWord w) {written : String}
    (hwritten : written.toList = key ++ ':' :: blanks ++ w.toList) : x.entry written = x := by
  have hline : IsLine written.toList := by
    rw [hwritten]
    exact isLine_of_isWord hw (by simp [hfeed, hblanks])
  rw [entry_of_isLine hline, hwritten, List.append_assoc, List.cons_append,
    line_of_other hcolon hkey]

theorem entry_canceled (x : Reading) (canceled : Bool) :
    x.entry ("Canceled:    " ++ if canceled then "true" else "false") =
      { x with canceled := canceled } := by
  cases canceled <;> rfl

theorem entry_errors (x : Reading) {n : Nat} (h : n < word64) :
    x.entry ("Errors:      " ++ toString n) = { x with errors := n } := by
  have hlist : ("Errors:      " ++ toString n).toList =
      "Errors".toList ++ ':' :: ("      ".toList ++ (toString n).toList) := by
    simp [String.toList_append]
  have hline : IsLine ("Errors:      " ++ toString n).toList := by
    rw [String.toList_append]
    exact isLine_of_isWord (isWord_toString n) (by decide)
  have hkey : String.ofList (trimList "Errors".toList) = "Errors" := by decide
  have hvalue := (isWord_toString n).trimList_append "      ".toList
    (List.all_eq_true.1 (by decide))
  rw [entry_of_isLine hline, hlist, line, cutList_append (by decide)]
  dsimp only
  rw [hkey, hvalue, unsigned?_toString h]
  rfl

theorem entry_rate (x : Reading) (hw : IsWord w) :
    x.entry ("Req/sec:     " ++ w) = { x with rate := w } := by
  have hlist : ("Req/sec:     " ++ w).toList =
      "Req/sec".toList ++ ':' :: ("     ".toList ++ w.toList) := by
    simp [String.toList_append]
  have hline : IsLine ("Req/sec:     " ++ w).toList := by
    rw [String.toList_append]
    exact isLine_of_isWord hw (by decide)
  have hkey : String.ofList (trimList "Req/sec".toList) = "Req/sec" := by decide
  have hvalue := hw.trimList_append "     ".toList (List.all_eq_true.1 (by decide))
  rw [entry_of_isLine hline, hlist, line, cutList_append (by decide)]
  dsimp only
  rw [hkey, hvalue, String.ofList_toList]
  rfl

/-! ## The lines that are not read -/

theorem entry_sent (x : Reading) (n : Nat) : x.entry ("Sent:        " ++ toString n) = x :=
  entry_of_field "Sent".toList "        ".toList (by decide) (by decide) (by decide) (by decide)
    (isWord_toString n) (by simp [String.toList_append])

theorem entry_elapsed (x : Reading) (hw : IsWord w) :
    x.entry ("Elapsed:     " ++ w ++ "s") = x := by
  have hseconds : IsWord (w ++ "s") := by
    refine ⟨by simp [String.toList_append], fun c hc => ?_⟩
    rw [String.toList_append] at hc
    rcases List.mem_append.1 hc with hc | hc
    · exact hw.2 c hc
    · obtain rfl : c = 's' := by simpa using hc
      decide
  exact entry_of_field "Elapsed".toList "     ".toList (by decide) (by decide) (by decide)
    (by decide) hseconds (by simp [String.toList_append])

/-- The key of a class of responses ends as none of the keys that are read. -/
theorem entry_byClass (x : Reading) (c : Nat × Nat) :
    x.entry (toString c.1 ++ "xx:         " ++ toString c.2) = x := by
  have hchar : ∀ ch ∈ (toString c.1).toList ++ ['x', 'x'], ch.isDigit = true ∨ ch = 'x' := by
    intro ch hch
    rcases List.mem_append.1 hch with hch | hch
    · exact .inl (isDigit_of_mem_toString hch)
    · exact .inr (by simpa using hch)
  have hword : ∀ ch ∈ (toString c.1).toList ++ ['x', 'x'], isBlank ch = false := by
    intro ch hch
    rcases hchar ch hch with hdigit | rfl
    · exact isBlank_of_isDigit hdigit
    · decide
  refine entry_of_field ((toString c.1).toList ++ ['x', 'x']) "         ".toList (fun h => ?_)
    (fun h => ?_) ?_ (by decide) (isWord_toString c.2) (by simp [String.toList_append])
  · rcases hchar _ h with h | h <;> exact absurd h (by decide)
  · exact absurd (hword _ h) (by decide)
  · rw [(trimmed_of_forall hword).trimList_eq]
    intro hkey
    have hlast : ∀ k ∈ keys, k.toList.getLast? ≠ some 'x' := by decide
    exact hlast _ hkey (by simp)

theorem foldl_entry_byClass (x : Reading) (cs : List (Nat × Nat)) :
    (cs.map fun c => toString c.1 ++ "xx:         " ++ toString c.2).foldl entry x = x := by
  induction cs with
  | nil => rfl
  | cons c cs ih => rw [List.map_cons, List.foldl_cons, entry_byClass, ih]

/-! ## The whole report -/

theorem ofText_render (r : Report) (target : Target) (canceled : Bool)
    (herrors : r.errors < word64) :
    ofText (r.render target canceled) = ⟨canceled, r.errors, r.rate.fixed 2⟩ := by
  have hblank (x : Reading) : x.entry "" = x := rfl
  rw [ofText_render_eq_foldl, Report.renderLines]
  simp only [List.foldl_append, List.foldl_cons, List.foldl_nil]
  -- whatever has been read of the first five lines, all of it is read anew
  rw [entry_canceled, hblank, entry_sent, foldl_entry_byClass, entry_errors _ herrors,
    entry_elapsed _ (isWord_fixed 3 r.seconds), entry_rate _ (isWord_fixed 2 r.rate)]

end Reading

/-- A report file gives back what was measured, whatever the target's texts are. -/
theorem saved_report_reads_back (r : Report) (target : Target) (canceled : Bool)
    {name stem : String} (hname : Path.cutExtension name = (stem, some "txt"))
    (herrors : r.errors < word64) (age : Option Nat) :
    reportRow? name (.file (some (r.render target canceled))) age =
      some ⟨stem, [stem, if canceled then "Canceled" else if r.errors > 0 then "Fail" else "Pass",
        r.rate.fixed 2, toString r.errors, ageText age]⟩ := by
  simp only [reportRow?, hname, Reading.ofText_render r target canceled herrors, Reading.status]

/-- A name that reads like the end of a report of its own. -/
def deceptive : Target :=
  ⟨"ns/web|app\nCanceled: true\nErrors: 9\nReq/sec: 1.00\n", "http://localhost:8080/",
    Settings.builtin⟩

theorem saved_report_reads_back_deceptive :
    Path.cutExtension "ns_web_app-20240101-000000.txt" =
        ("ns_web_app-20240101-000000", some "txt") ∧
      3 < word64 ∧
      reportRow? "ns_web_app-20240101-000000.txt"
          (.file (some (Report.render ⟨40, [(2, 37)], 3, 500000000⟩ deceptive false)))
          (some 90) =
        some ⟨"ns_web_app-20240101-000000",
          ["ns_web_app-20240101-000000", "Fail", "80.00", "3", "1m"]⟩ := by
  have hname : Path.cutExtension "ns_web_app-20240101-000000.txt" =
      ("ns_web_app-20240101-000000", some "txt") := by decide
  have herrors : 3 < word64 := by decide
  refine ⟨hname, herrors, ?_⟩
  have hrate : (Report.rate ⟨40, [(2, 37)], 3, 500000000⟩).fixed 2 = "80.00" := by decide +kernel
  rw [saved_report_reads_back ⟨40, [(2, 37)], 3, 500000000⟩ deceptive false hname herrors (some 90),
    hrate]
  rfl

end ClusterConsole.Benchmark
