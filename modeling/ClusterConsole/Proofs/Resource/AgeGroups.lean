import ClusterConsole.Proofs.Number.Written
import ClusterConsole.Proofs.Text.Trimming
import ClusterConsole.Resource.Age
import Mathlib.Algebra.Order.Ring.Nat
import Mathlib.Order.Bounds.Basic

/-!
# Ages as they are written and read

An age is a row of groups, each a number and the unit that it counts. Groups that are read add
up to their seconds, clamped once at the end however often the reading clamps on its way
(`read?_of_spell`), and only groups are read (`read?_eq_some_iff`). They are the groups of the
cell: it is made of others in no way (`Compound.unique`).

What is written of a time is a single group. It keeps the whole units of the largest unit that
fits into the time (`UnitOf`, `WholeUnits`), and that is read again with nothing clamped
(`measured_write`). The larger one of two times keeps as much or more, also where its unit is
another one (`WholeUnits.mono`).
-/

namespace ClusterConsole.Resource.Age

open ClusterConsole.Number ClusterConsole.Text

variable {total n u v k l : Nat} {closed : Bool} {run ds cs : List Char} {cell : String}
  {s t : Int}

/-! ## Groups -/

/-- A number in digits and the unit behind it. -/
structure Group where
  run : List Char
  unit : Char

namespace Group

def text (g : Group) : List Char := g.run ++ [g.unit]

def number (g : Group) : Nat := Nat.ofDigitChars 10 g.run 0

/-- The seconds of the group, whatever their number. -/
def seconds (g : Group) : Nat := g.number * (unitSeconds? g.unit).getD 0

/-- There are digits and nothing else before a unit, and 64 bits hold their value. -/
structure Valid (g : Group) : Prop where
  ne_nil : g.run ≠ []
  digits : ∀ c ∈ g.run, c.isDigit = true
  fits : g.number < word64
  unit : (unitSeconds? g.unit).isSome = true

end Group

/-- The groups one behind the other. -/
def spell (gs : List Group) : List Char := gs.flatMap Group.text

/-- The seconds of the groups together. -/
def secondsOf (gs : List Group) : Nat := (gs.map Group.seconds).sum

/-- The letters of the units, each with its seconds. -/
def units : List (Char × Nat) :=
  [('s', 1), ('m', 60), ('h', 60 * 60), ('d', 24 * 60 * 60), ('y', 365 * 24 * 60 * 60)]

/-- A cell is made of groups, at least one, with nothing but blanks around them. -/
structure Compound (cell : String) (gs : List Group) : Prop where
  ne_nil : gs ≠ []
  valid : ∀ g ∈ gs, g.Valid
  text : trimList cell.toList = spell gs

theorem spell_cons (g : Group) (gs : List Group) : spell (g :: gs) = g.text ++ spell gs :=
  List.flatMap_cons

theorem secondsOf_cons (g : Group) (gs : List Group) :
    secondsOf (g :: gs) = g.seconds + secondsOf gs := List.sum_cons

/-! ## Reading groups -/

/-- The letter of a unit is neither a digit nor a blank. -/
theorem letter_of_unitSeconds? {c : Char} (h : (unitSeconds? c).isSome = true) :
    c.isDigit = false ∧ isBlank c = false := by
  unfold unitSeconds? at h
  split at h
  all_goals first
    | decide
    | cases h

theorem unitSeconds?_eq_some_iff {c : Char} : unitSeconds? c = some u ↔ (c, u) ∈ units := by
  unfold unitSeconds?
  split <;> simp_all [units, eq_comm]

/-- Digits are gathered before anything is made of them. -/
theorem readFrom_digits (hds : ∀ c ∈ ds, c.isDigit = true) :
    readFrom total run closed (ds ++ cs) = readFrom total (run ++ ds) closed cs := by
  induction ds generalizing run with
  | nil => rw [List.nil_append, List.append_nil]
  | cons d ds ih =>
      obtain ⟨hd, hds⟩ := List.forall_mem_cons.1 hds
      rw [List.cons_append, readFrom, if_pos hd, ih hds, List.append_assoc, List.singleton_append]

theorem readFrom_group {g : Group} (hg : g.Valid) :
    readFrom total [] closed (g.text ++ cs) =
      readFrom (min top (total + min top g.seconds)) [] true cs := by
  obtain ⟨unit, hunit⟩ := Option.isSome_iff_exists.1 hg.unit
  have hread : digitsBelow? word64 g.run = some g.number :=
    digitsBelow?_eq_some_iff.2 ⟨hg.ne_nil, hg.digits, rfl, hg.fits⟩
  have hseconds : g.seconds = g.number * unit := by rw [Group.seconds, hunit, Option.getD_some]
  rw [Group.text, List.append_assoc, readFrom_digits hg.digits, List.nil_append,
    List.singleton_append, readFrom, if_neg (by simp [(letter_of_unitSeconds? hg.unit).1]), hunit,
    Option.bind_some, hread, Option.bind_some, hseconds]

/-- Clamping after every group comes to clamping the sum. -/
theorem readFrom_spell {gs : List Group} (hgs : ∀ g ∈ gs, g.Valid) (htotal : total ≤ top) :
    readFrom total [] true (spell gs) = some (min top (total + secondsOf gs)) := by
  induction gs generalizing total with
  | nil =>
      have hsum : min top (total + secondsOf []) = total := min_eq_right htotal
      rw [hsum]
      rfl
  | cons g gs ih =>
      obtain ⟨hg, hgs⟩ := List.forall_mem_cons.1 hgs
      rw [spell_cons, readFrom_group hg, ih hgs (min_le_left _ _), secondsOf_cons]
      congr 1
      omega

/-- A cell of groups is read as their seconds, up to the top. -/
theorem read?_of_spell {cell : String} {gs : List Group} (hgs : ∀ g ∈ gs, g.Valid) (hne : gs ≠ [])
    (hcell : trimList cell.toList = spell gs) :
    read? cell = some (min top (secondsOf gs)) := by
  obtain ⟨g, gs, rfl⟩ := List.exists_cons_of_ne_nil hne
  obtain ⟨hg, hgs⟩ := List.forall_mem_cons.1 hgs
  rw [read?, hcell, spell_cons, readFrom_group hg, readFrom_spell hgs (min_le_left _ _),
    secondsOf_cons]
  congr 1
  omega

/-- Whatever is read was groups: the one that is open goes on, and others follow it. -/
theorem exists_spell_of_readFrom (hrun : ∀ c ∈ run, c.isDigit = true)
    (h : readFrom total run closed cs = some n) :
    ∃ gs : List Group, (∀ g ∈ gs, g.Valid) ∧ run ++ cs = spell gs ∧ (closed = true ∨ gs ≠ []) := by
  induction cs generalizing total run closed with
  | nil =>
      rw [readFrom, Option.ite_none_right_eq_some] at h
      obtain ⟨⟨hclosed, rfl⟩, -⟩ := h
      exact ⟨[], by simp, rfl, .inl hclosed⟩
  | cons c cs ih =>
      rw [readFrom] at h
      split at h
      · rename_i hc
        have hrun' : ∀ d ∈ run ++ [c], d.isDigit = true :=
          List.forall_mem_append.2 ⟨hrun, List.forall_mem_singleton.2 hc⟩
        obtain ⟨gs, hgs, hspell, hne⟩ := ih hrun' h
        exact ⟨gs, hgs, by rw [← hspell, List.append_assoc, List.singleton_append], hne⟩
      · -- a unit closes the open group, which has to have digits that 64 bits hold
        obtain ⟨unit, hunit, h⟩ := Option.bind_eq_some_iff.1 h
        obtain ⟨number, hnumber, h⟩ := Option.bind_eq_some_iff.1 h
        obtain ⟨hne, hdigits, rfl, hfits⟩ := digitsBelow?_eq_some_iff.1 hnumber
        have hg : Group.Valid ⟨run, c⟩ := ⟨hne, hdigits, hfits, by rw [hunit]; rfl⟩
        obtain ⟨gs, hgs, hspell, -⟩ := ih (List.forall_mem_nil _) h
        refine ⟨⟨run, c⟩ :: gs, List.forall_mem_cons.2 ⟨hg, hgs⟩, ?_, .inr (List.cons_ne_nil _ _)⟩
        rw [spell_cons, ← hspell, List.nil_append, Group.text, List.append_assoc,
          List.singleton_append]

/-- A cell is read just if it is made of groups, and as their seconds up to the top. -/
theorem read?_eq_some_iff :
    read? cell = some n ↔ ∃ gs, Compound cell gs ∧ min top (secondsOf gs) = n := by
  constructor
  · intro h
    obtain ⟨gs, hgs, hspell, hne⟩ := exists_spell_of_readFrom (List.forall_mem_nil _) h
    have hcell : Compound cell gs := ⟨hne.resolve_left Bool.false_ne_true, hgs, hspell⟩
    have hread := read?_of_spell hgs hcell.ne_nil hspell
    exact ⟨gs, hcell, Option.some.inj (hread.symm.trans h)⟩
  · rintro ⟨gs, hcell, rfl⟩
    exact read?_of_spell hcell.valid hcell.ne_nil hcell.text

theorem read?_eq_none_iff : read? cell = none ↔ ¬ ∃ gs, Compound cell gs := by
  rw [Option.eq_none_iff_forall_ne_some]
  constructor
  · rintro h ⟨gs, hcell⟩
    exact h _ (read?_eq_some_iff.2 ⟨gs, hcell, rfl⟩)
  · intro h n hread
    obtain ⟨gs, hcell, -⟩ := read?_eq_some_iff.1 hread
    exact h ⟨gs, hcell⟩

/-- The digits of a group end at its unit. -/
theorem Group.Valid.takeWhile_text {g : Group} (hg : g.Valid) (cs : List Char) :
    (g.text ++ cs).takeWhile Char.isDigit = g.run := by
  have hunit := (letter_of_unitSeconds? hg.unit).1
  rw [Group.text, List.append_assoc, List.takeWhile_append_of_pos hg.digits]
  simp [hunit]

/-- Groups are told apart in what is spelled. -/
theorem spell_inj {gs hs : List Group} (hgs : ∀ g ∈ gs, g.Valid) (hhs : ∀ g ∈ hs, g.Valid)
    (h : spell gs = spell hs) : gs = hs := by
  induction gs generalizing hs with
  | nil =>
      cases hs with
      | nil => rfl
      | cons g hs => simp [spell, Group.text] at h
  | cons g gs ih =>
      cases hs with
      | nil => simp [spell, Group.text] at h
      | cons g' hs =>
          obtain ⟨hg, hgs⟩ := List.forall_mem_cons.1 hgs
          obtain ⟨hg', hhs⟩ := List.forall_mem_cons.1 hhs
          rw [spell_cons, spell_cons] at h
          have hrun : g.run = g'.run := by
            rw [← hg.takeWhile_text, h, hg'.takeWhile_text]
          rw [Group.text, Group.text, hrun, List.append_assoc, List.append_assoc] at h
          obtain ⟨hunit, hrest⟩ := List.cons_eq_cons.1 (List.append_cancel_left h)
          have hgroup : g = g' := by
            cases g
            cases g'
            exact congrArg₂ Group.mk hrun hunit
          rw [hgroup, ih hgs hhs hrest]

theorem Compound.unique {gs hs : List Group} (hg : Compound cell gs) (hh : Compound cell hs) :
    gs = hs :=
  spell_inj hg.valid hh.valid (hg.text.symm.trans hh.text)

theorem Group.Valid.isBlank_of_mem {g : Group} (hg : g.Valid) {c : Char} (hc : c ∈ g.text) :
    isBlank c = false := by
  rcases List.mem_append.1 hc with hc | hc
  · exact isBlank_of_isDigit (hg.digits c hc)
  · rw [List.mem_singleton.1 hc]
    exact (letter_of_unitSeconds? hg.unit).2

/-- A cell of one group is read as its seconds, if they stay below the top. -/
theorem read?_of_group {cell : String} {g : Group} (hg : g.Valid) (hcell : cell.toList = g.text)
    (hle : g.seconds ≤ top) : read? cell = some g.seconds := by
  have htrim : trimList cell.toList = spell [g] := by
    rw [hcell, (trimmed_of_forall fun c hc => hg.isBlank_of_mem hc).trimList_eq]
    simp [spell]
  have hsum : secondsOf [g] = g.seconds := by simp [secondsOf]
  rw [read?_of_spell (by simpa using hg) (List.cons_ne_nil g []) htrim, hsum, min_eq_right hle]

/-- A number is written in front of a unit. -/
theorem Group.valid_toString {n : Nat} {c : Char} (hn : n < word64)
    (hc : unitSeconds? c = some u) : Group.Valid ⟨(toString n).toList, c⟩ ∧
      Group.seconds ⟨(toString n).toList, c⟩ = n * u := by
  have hnumber : Nat.ofDigitChars 10 (toString n).toList 0 = n := digitsValue_toString n
  refine ⟨⟨toList_toString_ne_nil n, fun d hd => isDigit_of_mem_toString hd, ?_, by rw [hc]; rfl⟩,
    ?_⟩
  · rw [Group.number, hnumber]
    exact hn
  · rw [Group.seconds, Group.number, hnumber, hc, Option.getD_some]

/-! ## Whole units -/

/-- The unit in which a time is written: the largest one that fits into it, and seconds for a
time of less than one. -/
def UnitOf (s : Int) (u : Nat) : Prop :=
  IsGreatest {v : Nat | v ∈ [86400, 3600, 60, 1] ∧ (v : Int) ≤ max s 1} u

/-- What the whole units of a time come to. -/
def WholeUnits (s : Int) (u total : Nat) : Prop :=
  IsGreatest {k : Nat | u ∣ k ∧ (k : Int) ≤ max s 0} total

theorem UnitOf.pos (h : UnitOf s u) : 0 < u := by
  have hmem := h.1.1
  simp only [List.mem_cons, List.not_mem_nil, or_false] at hmem
  omega

theorem wholeUnits_div_mul (hu : 0 < u) (s : Int) : WholeUnits s u (s.toNat / u * u) := by
  have hle : s.toNat / u * u ≤ s.toNat := Nat.div_mul_le_self _ _
  refine ⟨⟨dvd_mul_left _ _, by omega⟩, ?_⟩
  rintro k ⟨⟨j, rfl⟩, hk⟩
  have hj : j ≤ s.toNat / u := by
    rw [Nat.le_div_iff_mul_le hu, mul_comm]
    omega
  rw [mul_comm]
  exact Nat.mul_le_mul_right u hj

theorem WholeUnits.le (h : WholeUnits s u total) : (total : Int) ≤ max s 0 := h.1.2

/-- A longer time keeps as much as a shorter one, or more. -/
theorem WholeUnits.mono (hu : UnitOf s u) (hv : UnitOf t v) (hk : WholeUnits s u k)
    (hl : WholeUnits t v l) (h : s ≤ t) : k ≤ l := by
  have hle : u ≤ v := hv.2 ⟨hu.1.1, hu.1.2.trans (by omega)⟩
  rcases hle.lt_or_eq with hlt | rfl
  · -- the larger unit does not fit into the shorter time, but once into the longer one
    have hpos := hu.pos
    have hshort : ¬ (v : Int) ≤ max s 1 := fun hfits => absurd (hu.2 ⟨hv.1.1, hfits⟩) (by omega)
    have hlong : (v : Int) ≤ max t 1 := hv.1.2
    have hone : v ≤ l := hl.2 ⟨dvd_rfl, by omega⟩
    have hkle := hk.le
    omega
  · exact hl.2 ⟨hk.1.1, hk.le.trans (by omega)⟩

/-! ## Written ages -/

/-- A time is written as a group of the largest unit that fits into it. -/
theorem exists_group_write (s : Int) : ∃ c u, unitSeconds? c = some u ∧ UnitOf s u ∧
    (write s).toList = Group.text ⟨(toString (s.toNat / u)).toList, c⟩ := by
  have hunit (u : Nat) (hu : u ∈ [86400, 3600, 60, 1]) (hfits : (u : Int) ≤ max s 1)
      (hmax : ∀ v ∈ [86400, 3600, 60, 1], u < v → s.toNat < v) : UnitOf s u := by
    refine ⟨⟨hu, hfits⟩, fun v ⟨hv, hle⟩ => ?_⟩
    by_contra hlt
    have hbelow := hmax v hv (by omega)
    simp only [List.mem_cons, List.not_mem_nil, or_false] at hu
    omega
  by_cases hday : 86400 ≤ s.toNat
  · refine ⟨'d', 86400, rfl, hunit 86400 (by simp) (by omega) (by simp), ?_⟩
    simp [write, hday, Group.text]
  by_cases hhour : 3600 ≤ s.toNat
  · refine ⟨'h', 3600, rfl, hunit 3600 (by simp) (by omega) (by simp; omega), ?_⟩
    simp [write, hday, hhour, Group.text]
  by_cases hminute : 60 ≤ s.toNat
  · refine ⟨'m', 60, rfl, hunit 60 (by simp) (by omega) (by simp; omega), ?_⟩
    simp [write, hday, hhour, hminute, Group.text]
  · refine ⟨'s', 1, rfl, hunit 1 (by simp) (by omega) (by simp; omega), ?_⟩
    simp [write, hday, hhour, hminute, Group.text]

/-- What is kept of a time when it is written and read: the whole units of its unit. The cell is
one group, whose seconds stay below the top, so nothing is clamped. -/
structure Measured (s : Int) (total : Nat) : Prop where
  whole : ∃ u, UnitOf s u ∧ WholeUnits s u total
  group : ∃ g : Group, g.Valid ∧ (write s).toList = g.text ∧ g.seconds = total
  lt_top : total < top
  read : read? (write s) = some total

theorem Measured.mono (hk : Measured s k) (hl : Measured t l) (h : s ≤ t) : k ≤ l := by
  obtain ⟨u, hu, hwhole⟩ := hk.whole
  obtain ⟨v, hv, hwhole'⟩ := hl.whole
  exact WholeUnits.mono hu hv hwhole hwhole' h

/-- A time in 64 bits is read as the whole units that it keeps. -/
theorem measured_write (hs : s < 2 ^ 63) : ∃ total, Measured s total := by
  obtain ⟨c, u, hc, hu, hwrite⟩ := exists_group_write s
  have htop : s.toNat < top := by
    have hword : top = 2 ^ 64 - 1 := rfl
    omega
  have hdiv : s.toNat / u ≤ s.toNat := Nat.div_le_self _ _
  have hmul : s.toNat / u * u ≤ s.toNat := Nat.div_mul_le_self _ _
  have hfits : s.toNat / u < word64 := by
    have hword : word64 = top + 1 := rfl
    omega
  obtain ⟨hvalid, hseconds⟩ := Group.valid_toString hfits hc
  have hread := read?_of_group hvalid hwrite (by omega)
  rw [hseconds] at hread
  exact ⟨s.toNat / u * u,
    { whole := ⟨u, hu, wholeUnits_div_mul hu.pos s⟩
      group := ⟨_, hvalid, hwrite, hseconds⟩
      lt_top := hmul.trans_lt htop
      read := hread }⟩

end ClusterConsole.Resource.Age
