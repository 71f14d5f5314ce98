import ClusterConsole.Storage.Files
import Mathlib.Data.List.Nodup

/-!
# What stands in a directory

Under `Keyed` at most one node stands at a place, and the names in a directory are
those of the nodes at its place with one part more (`mem_entries`). `Entered` says that
a path leads to a directory through directories; making it brings that about and leaves
all other places alone, and writing a file into it changes what stands at one name.
-/

namespace ClusterConsole.Text

theorem splitList_ne_nil (sep : Char) (cs : List Char) : splitList sep cs ≠ [] := by
  cases cs with
  | nil => exact List.cons_ne_nil _ _
  | cons c cs =>
      unfold splitList
      split
      · exact List.cons_ne_nil _ _
      · split <;> exact List.cons_ne_nil _ _

/-- A separator parts what is before it from what is after it. -/
theorem splitList_append (sep : Char) (a b : List Char) :
    splitList sep (a ++ sep :: b) = splitList sep a ++ splitList sep b := by
  induction a with
  | nil => simp [splitList]
  | cons c a ih =>
      rw [List.cons_append, splitList, ih, splitList]
      by_cases hc : c = sep
      · rw [if_pos hc, if_pos hc, List.cons_append]
      · rw [if_neg hc, if_neg hc]
        cases h : splitList sep a with
        | nil => exact absurd h (splitList_ne_nil sep a)
        | cons p ps => rfl

theorem splitList_of_notMem {sep : Char} {cs : List Char} (h : sep ∉ cs) :
    splitList sep cs = [cs] := by
  induction cs with
  | nil => rfl
  | cons c cs ih =>
      obtain ⟨hc, hcs⟩ := not_or.1 (mt List.mem_cons.2 h)
      rw [splitList, if_neg (Ne.symm hc), ih hcs]

theorem split_append_slash (p q : String) :
    split '/' (p ++ "/" ++ q) = split '/' p ++ split '/' q := by
  have hlist : (p ++ "/" ++ q).toList = p.toList ++ '/' :: q.toList := by simp
  rw [split, hlist, splitList_append, List.map_append]
  rfl

theorem split_of_notMem {s : String} (h : '/' ∉ s.toList) : split '/' s = [s] := by
  rw [split, splitList_of_notMem h, List.map_singleton, String.ofList_toList]

/-- A text of one part is that part. -/
theorem eq_of_split {s part : String} (h : split '/' s = [part]) : part = s := by
  by_cases hslash : '/' ∈ s.toList
  · obtain ⟨a, b, hab⟩ := List.append_of_mem hslash
    have hlength := congrArg List.length h
    have ha := List.length_pos_iff.2 (splitList_ne_nil '/' a)
    have hb := List.length_pos_iff.2 (splitList_ne_nil '/' b)
    simp only [split, hab, splitList_append, List.length_map, List.length_append,
      List.length_singleton] at hlength
    omega
  · rw [split_of_notMem hslash] at h
    exact (List.singleton_inj.1 h).symm

end ClusterConsole.Text

namespace ClusterConsole.Storage

namespace Path

variable {p q : String}

/-- A text that is one part of a path and names something in a directory. -/
structure IsName (q : String) : Prop where
  one : '/' ∉ q.toList
  idle : idle q = false
  up : q ≠ ".."

theorem parts_of_name (hq : IsName q) : parts q = [q] := by
  simp [parts, Text.split_of_notMem hq.one, hq.idle]

theorem parts_slash (p q : String) : parts (p ++ "/" ++ q) = parts p ++ parts q := by
  rw [parts, Text.split_append_slash, List.filter_append, parts, parts]

theorem not_absolute_of_name (hq : IsName q) : ¬ absolute q = true := fun habsolute =>
  hq.one (List.mem_of_mem_head? (by simpa [absolute] using habsolute))

theorem join_right_inj {q' : String} (hq : IsName q) (hq' : IsName q')
    (h : join p q = join p q') : q = q' := by
  have hlist := congrArg String.toList h
  simp only [join, not_absolute_of_name hq, not_absolute_of_name hq'] at hlist
  split at hlist
  · exact String.toList_inj.1 hlist
  · split at hlist
    · exact String.toList_inj.1 (by simpa [String.toList_append] using hlist)
    · exact String.toList_inj.1 (by simpa [String.toList_append] using hlist)

/-- A name is joined to a path by a slash, which the path may have at its end already. -/
theorem exists_join_eq (hp : p ≠ "") (hq : IsName q) :
    ∃ p', join p q = p' ++ "/" ++ q ∧ parts p' = parts p := by
  have habsolute : ¬ (absolute q = true ∨ p = "") := not_or.2 ⟨not_absolute_of_name hq, hp⟩
  rw [join, if_neg habsolute]
  split
  · rename_i hlast
    -- the slash is there already, and what is before it has the parts of the path
    obtain ⟨cs, hcs⟩ := List.getLast?_eq_some_iff.1 hlast
    obtain ⟨p', hp', rfl⟩ : ∃ p', p'.toList = cs ∧ p = p' ++ "/" :=
      ⟨String.ofList cs, String.toList_ofList, String.toList_inj.1 (by simp [hcs])⟩
    have hbare := parts_slash p' ""
    have hnone : parts "" = [] := by decide
    rw [String.append_empty, hnone, List.append_nil] at hbare
    exact ⟨p', rfl, hbare.symm⟩
  · exact ⟨p, rfl, rfl⟩

theorem parts_join (hp : p ≠ "") (hq : IsName q) : parts (join p q) = parts p ++ [q] := by
  obtain ⟨p', hjoin, hparts⟩ := exists_join_eq hp hq
  rw [hjoin, parts_slash, hparts, parts_of_name hq]

theorem not_namesDirectory_join (hp : p ≠ "") (hq : IsName q) :
    namesDirectory (join p q) = false := by
  obtain ⟨p', hjoin, -⟩ := exists_join_eq hp hq
  have hidle := hq.idle
  rw [idle, Bool.or_eq_false_iff] at hidle
  rw [namesDirectory, hjoin, Text.split_append_slash, Text.split_of_notMem hq.one]
  simp [hidle, hq.up]

end Path

namespace Files

variable {f f' : Files} {ps qs : List String} {n : Node} {path name text : String}

/-! ## One node at each place -/

theorem at?_put (f : Files) (hps : ps ≠ []) (n : Node) : (f.put ps n).at? ps = some n := by
  unfold put at?
  rw [if_neg hps]
  split
  · rename_i hany
    obtain ⟨m, hm, hmps⟩ := List.any_eq_true.1 hany
    have hkeys : ((fun n : List String × Node => n.1 == ps) ∘
        fun m => if m.1 == ps then (ps, n) else m) = fun m => m.1 == ps := by
      funext m
      by_cases h : m.1 = ps <;> simp [h]
    rw [List.find?_map, hkeys]
    cases hfind : f.nodes.find? fun m => m.1 == ps with
    | none => exact absurd hmps (by simpa using List.find?_eq_none.1 hfind m hm)
    | some m' =>
        have hm' : m'.1 = ps := by simpa using List.find?_some hfind
        simp [hm']
  · rename_i hany
    have hnone : (f.nodes.find? fun m => m.1 == ps) = none := by
      rw [List.find?_eq_none]
      intro m hm h
      exact hany (List.any_eq_true.2 ⟨m, hm, h⟩)
    simp [List.find?_append, hnone]

theorem at?_put_of_ne (f : Files) (hne : qs ≠ ps) (n : Node) :
    (f.put ps n).at? qs = f.at? qs := by
  unfold put at?
  split
  · rfl
  · split
    · have hkeys : ((fun m : List String × Node => m.1 == qs) ∘
          fun m => if m.1 == ps then (ps, n) else m) = fun m => m.1 == qs := by
        funext m
        by_cases h : m.1 = ps <;> simp [h]
      rw [List.find?_map, hkeys, Option.map_map]
      cases hfind : f.nodes.find? fun m => m.1 == qs with
      | none => rfl
      | some m =>
          have hm : m.1 = qs := by simpa using List.find?_some hfind
          have hmps : ¬ m.1 = ps := hm ▸ hne
          simp [hmps]
    · have hlast : ¬ ps = qs := Ne.symm hne
      simp [List.find?_append, hlast]

/-- At each place there is at most one node. -/
def Keyed (f : Files) : Prop := (f.nodes.map Prod.fst).Nodup

theorem Keyed.put (h : f.Keyed) (ps : List String) (n : Node) : (f.put ps n).Keyed := by
  unfold Files.put
  split
  · have hkeys : (f.nodes.map fun m => if m.1 == ps then (ps, n) else m).map Prod.fst =
        f.nodes.map Prod.fst := by
      rw [List.map_map]
      refine List.map_congr_left fun m _ => ?_
      by_cases hm : m.1 = ps <;> simp [hm]
    rw [Keyed, hkeys]
    exact h
  · rename_i hany
    have hnew : ps ∉ f.nodes.map Prod.fst := by
      intro hmem
      obtain ⟨m, hm, rfl⟩ := List.mem_map.1 hmem
      exact hany (List.any_eq_true.2 ⟨m, hm, beq_self_eq_true _⟩)
    rw [Keyed, List.map_append]
    refine List.nodup_append.2 ⟨h, List.pairwise_singleton _ _, fun a ha b hb heq => ?_⟩
    obtain rfl : b = ps := List.mem_singleton.1 hb
    exact hnew (heq ▸ ha)

theorem Keyed.at?_eq_some_iff (h : f.Keyed) (hps : ps ≠ []) :
    f.at? ps = some n ↔ (ps, n) ∈ f.nodes := by
  rw [at?, if_neg hps, Option.map_eq_some_iff]
  constructor
  · rintro ⟨m, hfind, rfl⟩
    have hm : m.1 = ps := by simpa using List.find?_some hfind
    exact hm ▸ List.mem_of_find?_eq_some hfind
  · intro hmem
    have hsome : (f.nodes.find? fun m => m.1 == ps).isSome = true :=
      List.find?_isSome.2 ⟨(ps, n), hmem, beq_self_eq_true ps⟩
    obtain ⟨m, hfind⟩ := Option.isSome_iff_exists.1 hsome
    have hm : m.1 = ps := by simpa using List.find?_some hfind
    have heq := List.inj_on_of_nodup_map h (List.mem_of_find?_eq_some hfind) hmem hm
    exact ⟨m, hfind, congrArg Prod.snd heq⟩

/-! ## Going into a directory -/

/-- The path leads to a directory at that place, through directories. -/
structure Entered (f : Files) (path : String) (ps : List String) : Prop where
  nameable : nameable path = true
  place : place? path = some ps
  open_ : ∀ i ≤ ps.length, f.at? (ps.take i) = some .directory

/-- What stands in the directory at a place. -/
def entries (f : Files) (ps : List String) : List (String × Node) :=
  f.nodes.filterMap fun n =>
    if n.1.dropLast == ps then n.1.getLast?.map fun name => (name, n.2) else none

theorem list_eq_ok {l : List (String × Node)} (h : f.list path = .ok l) :
    ∃ ps, place? path = some ps ∧ l = f.entries ps := by
  unfold list at h
  split at h
  · rename_i ps _ hps
    exact ⟨ps, hps, (Except.ok.inj h).symm⟩
  · cases h
  · cases h

theorem Entered.list (h : f.Entered path ps) : f.list path = .ok (f.entries ps) := by
  have hfree : f.blocked ps = false := by
    rw [blocked, List.any_eq_false]
    intro i hi
    rw [h.open_ i (Nat.le_of_lt (List.mem_range.1 hi))]
    decide
  have hself := h.open_ ps.length (Nat.le_refl _)
  rw [List.take_length] at hself
  have hfind : f.find path = .ok .directory := by
    simp [find, h.nameable, h.place, hfree, hself]
  simp [Files.list, hfind, h.place, entries]

theorem mem_entries (h : f.Keyed) :
    (name, n) ∈ f.entries ps ↔ f.at? (ps ++ [name]) = some n := by
  rw [h.at?_eq_some_iff (by simp), entries, List.mem_filterMap]
  constructor
  · rintro ⟨⟨qs, m⟩, hmem, heq⟩
    split at heq
    · rename_i hdrop
      obtain ⟨last, hlast, hpair⟩ := Option.map_eq_some_iff.1 heq
      obtain ⟨rfl, rfl⟩ := Prod.mk.inj hpair
      obtain ⟨init, rfl⟩ := List.getLast?_eq_some_iff.1 hlast
      have hdrop : init = ps := by simpa using hdrop
      exact hdrop ▸ hmem
    · cases heq
  · intro hmem
    exact ⟨(ps ++ [name], n), hmem, by simp⟩

theorem nodup_entries (h : f.Keyed) (ps : List String) :
    ((f.entries ps).map Prod.fst).Nodup := by
  have hpairs : f.nodes.Pairwise fun m m' => m.1 ≠ m'.1 := List.pairwise_map.1 h
  refine List.pairwise_map.2 (List.Pairwise.filterMap _ ?_ hpairs)
  intro m m' hne e he e' he'
  split at he
  · rename_i hdrop
    split at he'
    · rename_i hdrop'
      obtain ⟨last, hlast, rfl⟩ := Option.map_eq_some_iff.1 he
      obtain ⟨last', hlast', rfl⟩ := Option.map_eq_some_iff.1 he'
      obtain ⟨init, hinit⟩ := List.getLast?_eq_some_iff.1 hlast
      obtain ⟨init', hinit'⟩ := List.getLast?_eq_some_iff.1 hlast'
      rintro rfl
      rw [hinit] at hdrop
      rw [hinit'] at hdrop'
      have hsame : init = init' := by simp_all
      exact hne (by rw [hinit, hinit', hsame])
    · cases he'
  · cases he

/-! ## Making it and writing into it -/

variable {f₁ : Files} {i : Nat}

theorem take_ne_append (i : Nat) (ps : List String) (name : String) :
    ps.take i ≠ ps ++ [name] := by
  intro h
  have hlength := congrArg List.length h
  rw [List.length_take, List.length_append, List.length_singleton] at hlength
  omega

/-- The first `i + 1` names of a place made a directory, if no file is in the way. -/
def pave (f : Files) (ps : List String) (i : Nat) : Option Files :=
  match f.at? (ps.take (i + 1)) with
  | some .directory => some f
  | some (.file _) => none
  | none => some (f.put (ps.take (i + 1)) .directory)

theorem makeDirectory_eq_pave (f : Files) (hpath : path ≠ "") (hnameable : nameable path = true) :
    f.makeDirectory path = (place? path).bind fun ps =>
      (List.range ps.length).foldl (fun acc i => acc.bind (·.pave ps i)) (some f) := by
  rw [makeDirectory, if_neg hpath, hnameable, Bool.not_true, if_neg Bool.false_ne_true]
  rfl

/-- The way to a place is open so far, and what is not on it stands as in the files `f`. -/
structure PavedTo (f : Files) (ps : List String) (i : Nat) (f' : Files) : Prop where
  keyed : f'.Keyed
  open_ : ∀ j ≤ i, f'.at? (ps.take j) = some .directory
  rest : ∀ qs, (∀ j, ps.take j ≠ qs) → f'.at? qs = f.at? qs

theorem PavedTo.zero (hkeyed : f.Keyed) (ps : List String) : f.PavedTo ps 0 f where
  keyed := hkeyed
  open_ j hj := by
    rw [Nat.le_zero.1 hj, List.take_zero]
    rfl
  rest _ _ := rfl

theorem PavedTo.succ (h : f.PavedTo ps i f₁) (hpave : f₁.pave ps i = some f') :
    f.PavedTo ps (i + 1) f' := by
  unfold pave at hpave
  split at hpave
  · rename_i hhere
    obtain rfl := Option.some.inj hpave
    refine ⟨h.keyed, fun j hj => ?_, h.rest⟩
    rcases Nat.lt_or_eq_of_le hj with hj | rfl
    · exact h.open_ j (Nat.le_of_lt_succ hj)
    · exact hhere
  · cases hpave
  · rename_i hhere
    obtain rfl := Option.some.inj hpave
    have hne : ps.take (i + 1) ≠ [] := by
      intro hnil
      rw [hnil] at hhere
      cases hhere
    refine ⟨h.keyed.put _ _, fun j hj => ?_, fun qs hqs => ?_⟩
    · by_cases htake : ps.take j = ps.take (i + 1)
      · rw [htake, f₁.at?_put hne]
      · rw [f₁.at?_put_of_ne htake]
        rcases Nat.lt_or_eq_of_le hj with hj | rfl
        · exact h.open_ j (Nat.le_of_lt_succ hj)
        · exact absurd rfl htake
    · rw [f₁.at?_put_of_ne (Ne.symm (hqs (i + 1))), h.rest qs hqs]

theorem PavedTo.foldl (hkeyed : f.Keyed) (n : Nat) (h : (List.range n).foldl
    (fun acc i => acc.bind (·.pave ps i)) (some f) = some f') : f.PavedTo ps n f' := by
  induction n generalizing f' with
  | zero =>
      obtain rfl := Option.some.inj h
      exact .zero hkeyed ps
  | succ n ih =>
      rw [List.range_succ, List.foldl_append] at h
      obtain ⟨f₁, hf₁, hpave⟩ := Option.bind_eq_some_iff.1 h
      exact (ih hf₁).succ hpave

/-- A directory that was made can be entered, and what is not on the way to it stands as
before. -/
theorem entered_of_makeDirectory (h : f.makeDirectory path = some f') (hpath : path ≠ "")
    (hkeyed : f.Keyed) : ∃ ps, f'.Entered path ps ∧ f'.Keyed ∧
      ∀ qs, (∀ i, ps.take i ≠ qs) → f'.at? qs = f.at? qs := by
  have hnameable : nameable path = true := by
    by_contra hnot
    simp [makeDirectory, hpath, hnot] at h
  rw [f.makeDirectory_eq_pave hpath hnameable] at h
  obtain ⟨ps, hps, hfold⟩ := Option.bind_eq_some_iff.1 h
  have hpaved := PavedTo.foldl hkeyed ps.length hfold
  exact ⟨ps, ⟨hnameable, hps, hpaved.open_⟩, hpaved.keyed, hpaved.rest⟩

theorem place?_join (hpath : path ≠ "") (hname : Path.IsName name) :
    place? (Path.join path name) = (place? path).map (· ++ [name]) := by
  have habsolute : Path.absolute (Path.join path name) = Path.absolute path := by
    have hnot : ¬ (Path.absolute name = true ∨ path = "") :=
      not_or.2 ⟨Path.not_absolute_of_name hname, hpath⟩
    have hlist : path.toList ≠ [] := fun h => hpath (String.toList_eq_nil_iff.1 h)
    rw [Path.join, if_neg hnot]
    split <;> simp [Path.absolute, String.toList_append, List.head?_append_of_ne_nil _ hlist]
  have hnonempty : Path.join path name ≠ "" := by
    intro hempty
    have hparts := Path.parts_join hpath hname
    rw [hempty] at hparts
    have hnone : Path.parts "" = [] := by decide
    rw [hnone] at hparts
    simp at hparts
  unfold place?
  rw [habsolute, Path.parts_join hpath hname, List.foldl_append]
  by_cases hp : Path.absolute path = true
  · simp [hp]
  · rw [Option.map_eq_bind, Function.comp_def]
    simp [hp, hpath, hnonempty, hname.up]

/-- A file that was written stands under its name, and the rest as before. -/
theorem entered_of_write (h : f.Entered path ps) (hpath : path ≠ "") (hname : Path.IsName name)
    (hkeyed : f.Keyed) (hwrite : f.write (Path.join path name) text = some f') :
    f'.Entered path ps ∧ f'.Keyed ∧ f'.at? (ps ++ [name]) = some (.file (some text)) ∧
      ∀ qs, qs ≠ ps ++ [name] → f'.at? qs = f.at? qs := by
  have hplace : place? (Path.join path name) = some (ps ++ [name]) := by
    rw [place?_join hpath hname, h.place, Option.map_some]
  have hput : f' = f.put (ps ++ [name]) (.file (some text)) := by
    unfold write at hwrite
    split at hwrite
    · cases hwrite
    · rw [hplace, Option.bind_some] at hwrite
      split at hwrite
      · cases hwrite
      · exact (Option.some.inj hwrite).symm
      · cases hwrite
  have hrest : ∀ qs, qs ≠ ps ++ [name] → f'.at? qs = f.at? qs := fun qs hqs => by
    rw [hput, f.at?_put_of_ne hqs]
  refine ⟨⟨h.nameable, h.place, fun i hi => ?_⟩, hput ▸ hkeyed.put _ _, ?_, hrest⟩
  · rw [hrest _ (take_ne_append i ps name), h.open_ i hi]
  · rw [hput, f.at?_put (by simp)]

end Files

end ClusterConsole.Storage
