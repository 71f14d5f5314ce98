import ClusterConsole.Benchmark.Archive
import ClusterConsole.Proofs.Number.Written
import ClusterConsole.Proofs.Storage.Listing

/-!
# The names of report files

The name of a report file is the name of its forward with `_` for the characters that
separate its parts, a hyphen, and the date and the time of the writing with a hyphen
between them. `stem_inj` says that the forward and the time can be read back from it.
What a forward's view selects by is only the start of the name, up to the hyphen, and a
container's name may hold hyphens and digits itself; `head_prefix_stem_iff` tells what
is selected.
-/

namespace ClusterConsole.Text

variable {sep : Char} {a a' b b' c d x y : List Char}

/-- What stands before the first separator of a list, and after it, are determined. -/
theorem append_sep_inj (ha : sep ∉ a) (ha' : sep ∉ a') (h : a ++ sep :: b = a' ++ sep :: b') :
    a = a' ∧ b = b' := by
  have hcut := cutList_append ha b
  rw [h, cutList_append ha' b'] at hcut
  obtain ⟨ha, hb⟩ := Prod.mk.inj (Option.some.inj hcut)
  exact ⟨ha.symm, hb.symm⟩

/-- So are what stands before the last separator and after it. -/
theorem append_sep_inj_last (hb : sep ∉ b) (hb' : sep ∉ b')
    (h : a ++ sep :: b = a' ++ sep :: b') : a = a' ∧ b = b' := by
  have hreverse := congrArg List.reverse h
  simp only [List.reverse_append, List.reverse_cons, List.append_assoc, List.singleton_append]
    at hreverse
  obtain ⟨hb, ha⟩ := append_sep_inj (by simpa using hb) (by simpa using hb') hreverse
  exact ⟨List.reverse_inj.1 ha, List.reverse_inj.1 hb⟩

theorem append_sep_prefix_iff (ha : sep ∉ a) (ha' : sep ∉ a') :
    a ++ sep :: b <+: a' ++ sep :: b' ↔ a = a' ∧ b <+: b' := by
  constructor
  · rintro ⟨r, hr⟩
    rw [List.append_assoc, List.cons_append] at hr
    obtain ⟨rfl, hb⟩ := append_sep_inj ha ha' hr
    exact ⟨rfl, r, hb⟩
  · rintro ⟨rfl, r, rfl⟩
    exact ⟨r, by simp⟩

/-- A list that is followed by a separator inside another, which ends in two parts without
separators: it ends before the first of them, before the second, or earlier. -/
theorem prefix_two_parts_iff (hx : sep ∉ x) (hy : sep ∉ y) :
    c ++ [sep] <+: d ++ sep :: (x ++ sep :: y) ↔
      c = d ∨ c ++ [sep] <+: d ∨ c = d ++ sep :: x := by
  constructor
  · rintro ⟨r, hr⟩
    rw [List.append_assoc, List.singleton_append] at hr
    rcases List.append_eq_append_iff.1 hr with ⟨e, rfl, he⟩ | ⟨e, rfl, he⟩
    · cases e with
      | nil => exact .inl (List.append_nil c).symm
      | cons ch e =>
          obtain ⟨rfl, -⟩ := List.cons.inj he
          exact .inr (.inl ⟨e, by simp⟩)
    · cases e with
      | nil => exact .inl (List.append_nil d)
      | cons ch e =>
          -- the separator stands in the two parts, so it is the one between them
          obtain ⟨rfl, hrest⟩ := List.cons.inj he
          rcases List.append_eq_append_iff.1 hrest with ⟨e', rfl, he'⟩ | ⟨e', rfl, he'⟩
          · cases e' with
            | nil => exact .inr (.inr (by simp))
            | cons ch e' =>
                obtain ⟨-, rfl⟩ := List.cons.inj he'
                exact absurd (by simp) hy
          · cases e' with
            | nil => exact .inr (.inr (by simp))
            | cons ch e' =>
                obtain ⟨rfl, -⟩ := List.cons.inj he'
                exact absurd (by simp) hx
  · rintro (rfl | ⟨r, rfl⟩ | rfl)
    · exact ⟨x ++ sep :: y, by simp⟩
    · exact ⟨r ++ sep :: (x ++ sep :: y), by simp⟩
    · exact ⟨y, by simp⟩

end ClusterConsole.Text

namespace ClusterConsole.Time.Moment

open ClusterConsole.Number

/-- The date as digits. -/
def date (m : Moment) : String := padded 4 m.year ++ padded 2 m.month ++ padded 2 m.day

/-- The time of day as digits. -/
def clock (m : Moment) : String := padded 2 m.hour ++ padded 2 m.minute ++ padded 2 m.second

theorem stamp_eq (m : Moment) : m.stamp = m.date ++ "-" ++ m.clock := by
  simp [stamp, date, clock, String.append_assoc]

theorem isDigit_of_mem_date {m : Moment} {ch : Char} (h : ch ∈ m.date.toList) :
    ch.isDigit = true := by
  simp only [date, String.toList_append, List.mem_append] at h
  rcases h with (h | h) | h <;> exact isDigit_of_mem_padded h

theorem isDigit_of_mem_clock {m : Moment} {ch : Char} (h : ch ∈ m.clock.toList) :
    ch.isDigit = true := by
  simp only [clock, String.toList_append, List.mem_append] at h
  rcases h with (h | h) | h <;> exact isDigit_of_mem_padded h

theorem hyphen_notMem_date (m : Moment) : '-' ∉ m.date.toList :=
  fun h => absurd (isDigit_of_mem_date h) (by decide)

theorem hyphen_notMem_clock (m : Moment) : '-' ∉ m.clock.toList :=
  fun h => absurd (isDigit_of_mem_clock h) (by decide)

end ClusterConsole.Time.Moment

namespace ClusterConsole.Benchmark

open ClusterConsole.Storage ClusterConsole.Resource

/-! ## Files -/

/-- The name of the file of a report, without its extension. -/
def Report.stem (target : String) (time : Time.Moment) : String :=
  safeName target ++ "-" ++ time.stamp

def Report.fileName (target : String) (time : Time.Moment) : String :=
  Report.stem target time ++ ".txt"

theorem slash_notMem_safeName (name : String) : '/' ∉ (safeName name).toList := by
  rw [safeName, String.toList_ofList]
  intro h
  obtain ⟨ch, -, hch⟩ := List.mem_map.1 h
  split at hch
  · exact absurd hch (by decide)
  · rename_i hnot
    exact hnot (.inl hch)

theorem toList_stem (target : String) (time : Time.Moment) :
    (Report.stem target time).toList = (safeName target).toList ++
      '-' :: (time.date.toList ++ '-' :: time.clock.toList) := by
  simp [Report.stem, Time.Moment.stamp_eq, String.toList_append]

theorem Report.isName_fileName (target : String) (time : Time.Moment) :
    Path.IsName (Report.fileName target time) := by
  have hlast : (Report.fileName target time).toList.getLast? = some 't' := by
    simp [Report.fileName, String.toList_append]
  refine ⟨?_, ?_, ?_⟩
  · rw [Report.fileName, String.toList_append, toList_stem]
    simp only [List.mem_append, List.mem_cons, not_or]
    refine ⟨⟨slash_notMem_safeName target, by decide, fun h => ?_, by decide, fun h => ?_⟩,
      by decide⟩
    · exact absurd (Time.Moment.isDigit_of_mem_date h) (by decide)
    · exact absurd (Time.Moment.isDigit_of_mem_clock h) (by decide)
  · rw [Path.idle, Bool.or_eq_false_iff, beq_eq_false_iff_ne, beq_eq_false_iff_ne]
    exact ⟨fun h => by simp [h] at hlast, fun h => by simp [h] at hlast⟩
  · exact fun h => by simp [h] at hlast

theorem cutExtension_txt {stem : String} (h : stem ≠ "") :
    Path.cutExtension (stem ++ ".txt") = (stem, some "txt") := by
  have hlist : (stem ++ ".txt").toList = stem.toList ++ ['.', 't', 'x', 't'] := by
    simp [String.toList_append]
  have hne : stem.toList ≠ [] := fun hnil => h (String.toList_eq_nil_iff.1 hnil)
  simp [Path.cutExtension, hlist, hne]

/-- A name with an extension is what stands before its last dot, the dot and what stands
after it. -/
theorem eq_of_cutExtension {name stem ext : String}
    (h : Path.cutExtension name = (stem, some ext)) : name = stem ++ "." ++ ext := by
  have hsplit := List.takeWhile_append_dropWhile (p := (· ≠ '.')) (l := name.toList.reverse)
  have hdot := List.head?_dropWhile_not (· ≠ '.') name.toList.reverse
  unfold Path.cutExtension at h
  dsimp only at h
  split at h
  · cases h
  · rename_i hparts
    obtain ⟨rfl, hext⟩ := Prod.mk.inj h
    obtain rfl := Option.some.inj hext
    generalize name.toList.reverse.takeWhile (· ≠ '.') = t at hsplit hparts
    generalize name.toList.reverse.dropWhile (· ≠ '.') = d at hdot hsplit
    have hname : name.toList = d.reverse ++ t.reverse := by
      rw [← List.reverse_append, hsplit, List.reverse_reverse]
    cases d with
    | nil => exact absurd (.inl (by rw [hname]; simp)) hparts
    | cons dot d =>
        obtain rfl : dot = '.' := by simpa using hdot
        have hlength : name.toList.length - t.reverse.length - 1 = d.reverse.length := by
          simp only [hname, List.length_append, List.length_reverse, List.length_cons]
          omega
        have hhead : name.toList.take (name.toList.length - t.reverse.length - 1) = d.reverse := by
          rw [hlength, hname, List.reverse_cons, List.append_assoc, List.take_left]
        rw [hhead, ← String.toList_inj, hname]
        simp

theorem Report.stem_ne_empty (target : String) (time : Time.Moment) :
    Report.stem target time ≠ "" := by
  intro h
  have hlist := congrArg String.toList h
  rw [toList_stem] at hlist
  simp at hlist

/-- The name of a report tells the name of its target, up to what is replaced in it, and the
time. -/
theorem Report.stem_eq_iff {target target' : String} {t u : Time.Moment} :
    Report.stem target t = Report.stem target' u ↔
      safeName target = safeName target' ∧ t.stamp = u.stamp := by
  constructor
  · intro h
    have hlist := congrArg String.toList h
    simp only [toList_stem, ← List.append_assoc, ← List.cons_append] at hlist
    obtain ⟨hlist, hclock⟩ := Text.append_sep_inj_last t.hyphen_notMem_clock
      u.hyphen_notMem_clock hlist
    obtain ⟨hname, hdate⟩ := Text.append_sep_inj_last t.hyphen_notMem_date
      u.hyphen_notMem_date hlist
    refine ⟨String.toList_inj.1 hname, ?_⟩
    rw [t.stamp_eq, u.stamp_eq, String.toList_inj.1 hdate, String.toList_inj.1 hclock]
  · rintro ⟨hname, hstamp⟩
    rw [Report.stem, Report.stem, hname, hstamp]

theorem Report.fileName_eq_iff {target target' : String} {t u : Time.Moment} :
    Report.fileName target t = Report.fileName target' u ↔
      safeName target = safeName target' ∧ t.stamp = u.stamp := by
  rw [← Report.stem_eq_iff]
  constructor
  · intro h
    have hlist := congrArg String.toList h
    simp only [fileName, String.toList_append, List.append_cancel_right_eq] at hlist
    exact String.toList_inj.1 hlist
  · exact congrArg (· ++ ".txt")

theorem Report.path_eq_join (directory target : String) (time : Time.Moment) :
    Report.path directory target time = Path.join directory (Report.fileName target time) := rfl

/-- Two reports are saved in one file if their targets' names are made into one and the stamp
is the same. -/
theorem Report.path_eq_iff {directory target target' : String} {t u : Time.Moment} :
    Report.path directory target t = Report.path directory target' u ↔
      safeName target = safeName target' ∧ t.stamp = u.stamp := by
  rw [path_eq_join, path_eq_join, ← Report.fileName_eq_iff]
  exact ⟨Path.join_right_inj (Report.isName_fileName target t) (Report.isName_fileName target' u),
    congrArg _⟩

/-! ## Forwards -/

/-- A name that an object, or a container, can have in a cluster. -/
structure LegalName (name : String) : Prop where
  nonempty : name ≠ ""
  chars : ∀ ch ∈ name.toList, ch.isLower ∨ ch.isDigit ∨ ch = '-' ∨ ch = '.'

instance (name : String) : Decidable (LegalName name) :=
  -- the characters of the name are asked one by one, and not all that there are
  decidable_of_iff (name ≠ "" ∧ name.toList.all fun ch =>
      ch.isLower || ch.isDigit || ch == '-' || ch == '.') <| by
    simp only [List.all_eq_true, Bool.or_eq_true, beq_iff_eq, or_assoc]
    exact ⟨fun h => ⟨h.1, h.2⟩, fun h => ⟨h.nonempty, h.chars⟩⟩

/-- A forward by the names of what it leads to. -/
@[ext]
structure ForwardName where
  ns : String
  pod : String
  container : String
  legal_ns : LegalName ns
  legal_pod : LegalName pod
  legal_container : LegalName container

/-- No character of a legal name is replaced. -/
theorem LegalName.map_safe {name : String} (h : LegalName name) :
    (name.toList.map fun c => if c = '/' ∨ c = '\\' ∨ c = '|' ∨ c = ':' ∨ c = ' ' then '_' else c) =
      name.toList := by
  refine (List.map_congr_left fun ch hch => ?_).trans (List.map_id _)
  refine if_neg ?_
  rintro (rfl | rfl | rfl | rfl | rfl) <;> exact absurd (h.chars _ hch) (by decide)

theorem LegalName.underscore_notMem {name : String} (h : LegalName name) : '_' ∉ name.toList :=
  fun hmem => absurd (h.chars _ hmem) (by decide)

namespace ForwardName

variable {f g : ForwardName} {t u : Time.Moment}

/-- The key of the forward, which its benchmarks are named by. -/
def fqn (g : ForwardName) : String := containerKey (qualified g.ns g.pod) g.container

theorem toList_safeName (g : ForwardName) : (safeName g.fqn).toList =
    g.ns.toList ++ '_' :: (g.pod.toList ++ '_' :: g.container.toList) := by
  have hfqn : g.fqn.toList = g.ns.toList ++ '/' :: (g.pod.toList ++ '|' :: g.container.toList) := by
    simp [fqn, containerKey, qualified, g.legal_ns.nonempty, String.toList_append]
  rw [safeName, String.toList_ofList, hfqn]
  simp only [List.map_append, List.map_cons, g.legal_ns.map_safe, g.legal_pod.map_safe,
    g.legal_container.map_safe]
  simp

theorem ext_toList (hns : f.ns.toList = g.ns.toList) (hpod : f.pod.toList = g.pod.toList)
    (hcontainer : f.container.toList = g.container.toList) : f = g :=
  ForwardName.ext (String.toList_inj.1 hns) (String.toList_inj.1 hpod)
    (String.toList_inj.1 hcontainer)

/-- The name of a report tells the forward and the time. -/
theorem stem_inj (h : Report.stem f.fqn t = Report.stem g.fqn u) :
    f = g ∧ t.stamp = u.stamp := by
  obtain ⟨hname, hstamp⟩ := Report.stem_eq_iff.1 h
  have hlist := congrArg String.toList hname
  rw [toList_safeName, toList_safeName] at hlist
  obtain ⟨hns, hrest⟩ := Text.append_sep_inj f.legal_ns.underscore_notMem
    g.legal_ns.underscore_notMem hlist
  obtain ⟨hpod, hcontainer⟩ := Text.append_sep_inj f.legal_pod.underscore_notMem
    g.legal_pod.underscore_notMem hrest
  exact ⟨ext_toList hns hpod hcontainer, hstamp⟩

/-- A report of `f` that was written at `t` has a name that the view of `g` selects. -/
def Selects (g f : ForwardName) (t : Time.Moment) : Prop :=
  g.ns = f.ns ∧ g.pod = f.pod ∧ (g.container = f.container ∨
    g.container.toList ++ ['-'] <+: f.container.toList ∨
    g.container = f.container ++ "-" ++ t.date)

theorem head_prefix_stem_iff : (reportHead g.fqn).toList <+: (Report.stem f.fqn t).toList ↔
    g.Selects f t := by
  have hhead : (reportHead g.fqn).toList = g.ns.toList ++ '_' :: (g.pod.toList ++
      '_' :: (g.container.toList ++ ['-'])) := by
    simp [reportHead, String.toList_append, toList_safeName]
  have hstem : (Report.stem f.fqn t).toList = f.ns.toList ++ '_' :: (f.pod.toList ++
      '_' :: (f.container.toList ++ '-' :: (t.date.toList ++ '-' :: t.clock.toList))) := by
    simp [toList_stem, toList_safeName]
  have hday : g.container.toList = f.container.toList ++ '-' :: t.date.toList ↔
      g.container = f.container ++ "-" ++ t.date := by
    rw [← String.toList_inj]
    simp [String.toList_append]
  rw [hhead, hstem, Text.append_sep_prefix_iff g.legal_ns.underscore_notMem
    f.legal_ns.underscore_notMem, Text.append_sep_prefix_iff g.legal_pod.underscore_notMem
    f.legal_pod.underscore_notMem, Text.prefix_two_parts_iff t.hyphen_notMem_date
    t.hyphen_notMem_clock, hday, String.toList_inj, String.toList_inj, String.toList_inj, Selects]

end ForwardName

end ClusterConsole.Benchmark
