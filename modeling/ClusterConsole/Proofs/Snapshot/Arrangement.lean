import ClusterConsole.Proofs.Resource.AgeGroups
import ClusterConsole.Proofs.Snapshot.NumberReading
import Mathlib.Data.String.Basic

/-!
# The arrangement of a table

A sort arranges the rows of a table by their cells in one column, and rows whose cells are
equal stay as they stood in the table, whichever way the sort goes. Of a list with given
elements there is one such arrangement at most (`eq_of_stable`), since the order of cells is
a total preorder; so the rows of a table have exactly one, and it is the one that is shown
(`Table.arranged_iff`).

That rows stay as they stood is said by the ties of each row: the rows whose cells compare
equal with its cell are the same in the arrangement as in the table, in the same order and
each as often.
-/

namespace ClusterConsole.Snapshot

open ClusterConsole.Number ClusterConsole.Resource

/-! ## Stable sorts -/

section Stable

variable {α : Type*} {cmp : α → α → Ordering}

/-- The elements of a list that are level with one, in the order of the list. -/
def tied (cmp : α → α → Ordering) (a : α) (l : List α) : List α := l.filter fun b => cmp a b == .eq

variable [Std.TransCmp cmp]

theorem compare_self (a : α) : cmp a a = .eq := Std.ReflCmp.compare_self

variable (cmp) in
theorem compare_swap (a b : α) : cmp a b = (cmp b a).swap := Std.OrientedCmp.eq_swap

variable (cmp) in
theorem compare_trans {a b d : α} (hab : (cmp a b).isLE = true) (hbd : (cmp b d).isLE = true) :
    (cmp a d).isLE = true := Std.TransCmp.isLE_trans hab hbd

theorem tied_cons_self (a : α) (l : List α) : tied cmp a (a :: l) = a :: tied cmp a l := by
  rw [tied, List.filter_cons_of_pos]
  · rfl
  · simp [compare_self]

/-- Two lists of the same elements that ascend and have the same ties are the same. -/
theorem eq_of_stable {l l' : List α} (hperm : l.Perm l')
    (hl : l.Pairwise fun a b => cmp a b ≠ .gt) (hl' : l'.Pairwise fun a b => cmp a b ≠ .gt)
    (hties : ∀ a, tied cmp a l = tied cmp a l') : l = l' := by
  induction l generalizing l' with
  | nil => exact hperm.nil_eq
  | cons a l ih =>
      cases l' with
      | nil => exact absurd hperm.symm (List.not_perm_nil_cons _ _)
      | cons b l' =>
          -- neither head may follow the other, so they are level, and both head their ties
          have hab : cmp a b = .eq := by
            have ha : cmp a b ≠ .gt := by
              rcases List.mem_cons.1 (hperm.mem_iff.2 List.mem_cons_self) with rfl | hb
              · simp [compare_self]
              · exact List.rel_of_pairwise_cons hl hb
            have hb : cmp b a ≠ .gt := by
              rcases List.mem_cons.1 (hperm.mem_iff.1 List.mem_cons_self) with rfl | ha
              · simp [compare_self]
              · exact List.rel_of_pairwise_cons hl' ha
            rw [compare_swap cmp] at hb
            cases hc : cmp a b <;> simp_all
          have hhead := hties a
          rw [tied_cons_self, tied, tied, List.filter_cons_of_pos (by simp [hab])] at hhead
          obtain ⟨rfl, -⟩ := List.cons_eq_cons.1 hhead
          rw [ih hperm.cons_inv hl.tail hl'.tail fun d => ?_]
          have hd := hties d
          simp only [tied, List.filter_cons] at hd ⊢
          split at hd
          · exact List.tail_eq_of_cons_eq hd
          · exact hd

theorem isLE_or_isLE (a b : α) : ((cmp a b).isLE || (cmp b a).isLE) = true := by
  rw [compare_swap cmp b a]
  cases cmp a b <;> rfl

theorem pairwise_mergeSort_isLE (l : List α) :
    (l.mergeSort fun a b => (cmp a b).isLE).Pairwise fun a b => (cmp a b).isLE = true :=
  List.pairwise_mergeSort (fun _ _ _ => Std.TransCmp.isLE_trans) isLE_or_isLE l

/-- Sorting leaves ties as they are: they ascend as they stand, so they come out in one
piece. -/
theorem tied_mergeSort (a : α) (l : List α) :
    tied cmp a (l.mergeSort fun a b => (cmp a b).isLE) = tied cmp a l := by
  have hlevel : (tied cmp a l).Pairwise fun b d => (cmp b d).isLE = true := by
    refine List.pairwise_iff_forall_sublist.2 fun {b d} hsub => ?_
    have hmem : ∀ e ∈ [b, d], cmp a e = .eq := fun e he => by
      simpa [tied] using (List.mem_filter.1 (hsub.subset he)).2
    have hb : cmp b a = .eq := by
      rw [compare_swap cmp, hmem b (by simp)]
      rfl
    exact Std.TransCmp.isLE_trans (Ordering.isLE_of_eq_eq hb)
      (Ordering.isLE_of_eq_eq (hmem d (by simp)))
  have hsub : (tied cmp a l).Sublist (l.mergeSort fun a b => (cmp a b).isLE) :=
    List.sublist_mergeSort (fun _ _ _ => Std.TransCmp.isLE_trans) isLE_or_isLE hlevel
      List.filter_sublist
  have hfiltered := hsub.filter fun b => cmp a b == .eq
  rw [tied, List.filter_filter] at hfiltered
  simp only [Bool.and_self] at hfiltered
  have hlength := ((List.mergeSort_perm l fun a b => (cmp a b).isLE).filter
    fun b => cmp a b == .eq).length_eq
  exact (hfiltered.eq_of_length hlength.symm).symm

end Stable

/-! ## The order of cells -/

theorem isNumber_ageKey (cell : String) : (ageKey cell).IsNumber := by
  rw [ageKey]
  split
  · exact Binary64.isNumber_ofNat _
  · exact Binary64.isNumber_negInfinity

/-- The texts compare as lists of code points. -/
theorem compare_eq_lt_iff (a b : String) :
    compare a b = .lt ↔ a.toList.map Char.toNat < b.toList.map Char.toNat := by
  rw [Std.LawfulLTCmp.eq_lt_iff_lt, String.lt_iff]
  generalize a.toList = cs
  generalize b.toList = ds
  induction cs generalizing ds with
  | nil => cases ds <;> simp
  | cons c cs ih =>
      cases ds with
      | nil => simp
      | cons d ds => simp [List.cons_lt_cons_iff, ih, Char.toNat_inj, Char.lt_def,
          UInt32.lt_iff_toNat_lt]

/-- Whichever way the cells of a column compare, all texts are in order. -/
instance (order : CellOrder) : Std.TransCmp (compareCells order) where
  eq_swap {a b} := by
    cases order with
    | text => exact Std.OrientedOrd.eq_swap
    | number => exact compare_swap Binary64.compareTotal (numberKey a) (numberKey b)
    | age => exact compare_swap Binary64.compareTotal (ageKey a) (ageKey b)
  isLE_trans {a b c} hab hbc := by
    cases order with
    | text => exact Std.TransOrd.isLE_trans hab hbc
    | number => exact compare_trans Binary64.compareTotal hab hbc
    | age => exact compare_trans Binary64.compareTotal hab hbc

namespace CellOrder

theorem ofColumn_eq_age_iff (kind : Kind) (column : Nat) :
    ofColumn kind column = .age ↔ kind.header[column]? = some "AGE" := by
  rw [ofColumn, ageColumn]
  split
  · simp [*]
  · split <;> simp [*]

/-- No column of ages is one of numbers. -/
theorem ofColumn_eq_number_iff (kind : Kind) (column : Nat) :
    ofColumn kind column = .number ↔
      ∃ name ∈ kind.numericColumns, kind.header[column]? = some name := by
  have hage : "AGE" ∉ kind.numericColumns := by cases kind <;> decide
  rw [ofColumn, ageColumn, Kind.numericAt]
  cases h : kind.header[column]? with
  | none => simp
  | some name =>
      by_cases hname : name = "AGE"
      · simp [hname, hage]
      · by_cases hmem : name ∈ kind.numericColumns <;> simp [hname, hmem]

/-- What a cell counts as: what is read of it, or minus infinity if nothing can be read. -/
def orLeast (reading : Option Binary64) : Binary64 := reading.getD Binary64.negInfinity

/-- The age that a cell is read as, if it is one, in seconds. -/
def readAge? (cell : String) : Option Binary64 := (Age.read? cell).map Binary64.ofNat

theorem ageKey_eq_orLeast (cell : String) : ageKey cell = orLeast (readAge? cell) := by
  rw [ageKey, readAge?]
  cases Age.read? cell <;> rfl

/-- The cells of a column are in an order of all texts, in each of the three ways. -/
structure Lawful : Prop where
  total : ∀ order, Std.TransCmp (compareCells order)
  text : ∀ a b, compareCells .text a b = .lt ↔
    a.toList.map Char.toNat < b.toList.map Char.toNat
  /-- Numbers and ages compare by what is read of the cells. -/
  number : ∀ a b, compareCells .number a b = .lt ↔
    (orLeast (readNumber? a)).Below (orLeast (readNumber? b))
  age : ∀ a b, compareCells .age a b = .lt ↔ (orLeast (readAge? a)).Below (orLeast (readAge? b))
  /-- Only cells of the same text, the same number or the same age are level. -/
  level : ∀ a b, (compareCells .text a b = .eq ↔ a = b) ∧
    (compareCells .number a b = .eq ↔ orLeast (readNumber? a) = orLeast (readNumber? b)) ∧
    (compareCells .age a b = .eq ↔ orLeast (readAge? a) = orLeast (readAge? b))
  /-- A whole number is read as what it is, also before a percent sign or a slash, -/
  whole : ∀ n : Nat, readNumber? (toString n) = some (Binary64.ofNat n) ∧
    readNumber? (toString n ++ "%") = some (Binary64.ofNat n) ∧
    ∀ rest, readNumber? (toString n ++ "/" ++ rest) = some (Binary64.ofNat n)
  /-- so the cells of smaller numbers come first. -/
  ascending : ∀ m n : Nat, m < n → n < 2 ^ 52 →
    compareCells .number (toString m) (toString n) = .lt
  /-- An age is read as the sum of its groups, as far as 64 bits go. -/
  groups : ∀ cell x, readAge? cell = some x ↔
    ∃ gs, Age.Compound cell gs ∧ x = Binary64.ofNat (min Age.top (Age.secondsOf gs))
  /-- Nothing that is read of a cell is no number, -/
  isNumber : ∀ cell, (orLeast (readNumber? cell)).IsNumber ∧ (orLeast (readAge? cell)).IsNumber
  /-- and a cell of which nothing can be read comes before all others. -/
  leastNumber : ∀ cell, readNumber? cell = none → ∀ other, compareCells .number cell other ≠ .gt
  leastAge : ∀ cell, Age.read? cell = none → ∀ other, compareCells .age cell other ≠ .gt
  missing : ∀ (e : Entry) (column : Nat), e.fields.length ≤ column → e.field column = ""

theorem compareCells_number (a b : String) : compareCells .number a b =
    (orLeast (readNumber? a)).compareTotal (orLeast (readNumber? b)) := by
  rw [compareCells, numberKey_eq, numberKey_eq, orLeast, orLeast]

theorem compareCells_age (a b : String) : compareCells .age a b =
    (orLeast (readAge? a)).compareTotal (orLeast (readAge? b)) := by
  rw [compareCells, ageKey_eq_orLeast, ageKey_eq_orLeast]

theorem isNumber_orLeast (cell : String) :
    (orLeast (readNumber? cell)).IsNumber ∧ (orLeast (readAge? cell)).IsNumber := by
  rw [← ageKey_eq_orLeast, orLeast, ← numberKey_eq]
  exact ⟨isNumber_numberKey cell, isNumber_ageKey cell⟩

theorem lawful : Lawful where
  total order := inferInstance
  text := compare_eq_lt_iff
  number a b := by rw [compareCells_number, Binary64.compareTotal_eq_lt_iff]
  age a b := by rw [compareCells_age, Binary64.compareTotal_eq_lt_iff]
  level a b := by
    rw [compareCells_number, compareCells_age]
    exact ⟨Std.compare_eq_iff_eq, Binary64.compareTotal_eq_eq, Binary64.compareTotal_eq_eq⟩
  whole n := ⟨readNumber?_toString n, readNumber?_percent n, readNumber?_slash n⟩
  ascending m n hlt hn := by
    rw [compareCells_number, readNumber?_toString, readNumber?_toString]
    exact Binary64.compareTotal_ofNat_of_lt hlt hn
  groups cell x := by
    simp only [readAge?, Option.map_eq_some_iff, Age.read?_eq_some_iff]
    constructor
    · rintro ⟨n, ⟨gs, hcell, rfl⟩, rfl⟩
      exact ⟨gs, hcell, rfl⟩
    · rintro ⟨gs, hcell, rfl⟩
      exact ⟨_, ⟨gs, hcell, rfl⟩, rfl⟩
  isNumber := isNumber_orLeast
  leastNumber cell h other := by
    rw [compareCells_number, h]
    exact Binary64.negInfinity_compareTotal_ne_gt (isNumber_orLeast other).1
  leastAge cell h other := by
    have hnone : readAge? cell = none := by rw [readAge?, h]; rfl
    rw [compareCells_age, hnone]
    exact Binary64.negInfinity_compareTotal_ne_gt (isNumber_orLeast other).2
  missing e column h := by simp [Entry.field, h]

end CellOrder

/-! ## The order of rows -/

namespace SortColumn

variable (sort : SortColumn) (order : CellOrder)

/-- The order of two rows' cells. -/
def compareRows (a b : Entry) : Ordering :=
  compareCells order (a.field sort.index) (b.field sort.index)

/-- The order of two rows in the sort: that of their cells, turned round if it descends. -/
def directed (a b : Entry) : Ordering :=
  if sort.ascending then sort.compareRows order a b else (sort.compareRows order a b).swap

instance : Std.TransCmp (sort.compareRows order) where
  eq_swap := compare_swap (compareCells order) _ _
  isLE_trans := compare_trans (compareCells order)

theorem directed_eq (a b : Entry) : sort.directed order a b =
    if sort.ascending then sort.compareRows order a b else sort.compareRows order b a := by
  rw [directed, ← compare_swap (sort.compareRows order) b a]

instance : Std.TransCmp (sort.directed order) where
  eq_swap {a b} := by
    rw [directed_eq, directed_eq]
    split <;> exact Std.OrientedCmp.eq_swap
  isLE_trans {a b c} hab hbc := by
    rw [directed_eq] at hab hbc ⊢
    split at hab <;> rename_i hdirection
    · rw [if_pos hdirection] at hbc ⊢
      exact Std.TransCmp.isLE_trans hab hbc
    · rw [if_neg hdirection] at hbc ⊢
      exact Std.TransCmp.isLE_trans hbc hab

theorem before_eq : sort.before order = fun a b => (sort.directed order a b).isLE := by
  funext a b
  simp only [before, directed, compareRows]
  cases compareCells order (a.field sort.index) (b.field sort.index) <;>
    cases sort.ascending <;> rfl

/-- Rows are level in either direction if their cells are equal. -/
theorem tied_directed (e : Entry) (es : List Entry) :
    tied (sort.directed order) e es = tied (sort.compareRows order) e es := by
  refine List.filter_congr fun d _ => ?_
  rw [directed]
  cases sort.compareRows order e d <;> cases sort.ascending <;> rfl

end SortColumn

namespace Table

variable {t : Table} {sort : SortColumn} {es : List Entry}

/-- How the rows of the table compare in the sort's column. -/
def orderOf (t : Table) (sort : SortColumn) : CellOrder := CellOrder.ofColumn t.kind sort.index

/-- Rows that are arranged as the sort says. -/
structure Arranged (t : Table) (sort : SortColumn) (es : List Entry) : Prop where
  /-- They are the rows of the table, each as often as there. -/
  perm : es.Perm t.entries
  /-- No row is followed by one that it should come after. -/
  ordered : es.IsChain fun a b => sort.directed (t.orderOf sort) a b ≠ .gt
  /-- Rows whose cells are equal stand as they stood in the table. -/
  ties : ∀ e, tied (sort.compareRows (t.orderOf sort)) e es =
    tied (sort.compareRows (t.orderOf sort)) e t.entries

theorem Arranged.pairwise (h : t.Arranged sort es) :
    es.Pairwise fun a b => sort.directed (t.orderOf sort) a b ≠ .gt := by
  have htrans : Trans (fun a b : Entry => sort.directed (t.orderOf sort) a b ≠ .gt)
      (fun a b => sort.directed (t.orderOf sort) a b ≠ .gt)
      (fun a b => sort.directed (t.orderOf sort) a b ≠ .gt) :=
    ⟨fun {_ _ _} hab hbc => Ordering.isLE_iff_ne_gt.1 (Std.TransCmp.isLE_trans
      (Ordering.isLE_iff_ne_gt.2 hab) (Ordering.isLE_iff_ne_gt.2 hbc))⟩
  exact List.isChain_iff_pairwise.1 h.ordered

/-- Of two rows whose cells are equal the one that stands first in the table stands first. -/
theorem Arranged.keeps (h : t.Arranged sort es) {a b : Entry} (hab : [a, b].Sublist t.entries)
    (heq : sort.compareRows (t.orderOf sort) a b = .eq) : [a, b].Sublist es := by
  have hself : sort.compareRows (t.orderOf sort) a a = .eq :=
    compare_self a
  have hties := hab.filter fun d => sort.compareRows (t.orderOf sort) a d == .eq
  simp only [List.filter_cons, hself, heq, beq_self_eq_true, if_true, List.filter_nil] at hties
  refine hties.trans ?_
  change (tied _ a t.entries).Sublist es
  rw [← h.ties a]
  exact List.filter_sublist

theorem arranged_sorted (h : sort.index < sort.count) : t.Arranged sort (t.sorted sort) := by
  have hsorted : t.sorted sort =
      t.entries.mergeSort fun a b => (sort.directed (t.orderOf sort) a b).isLE := by
    rw [sorted, if_neg (Nat.not_le.2 h), ← SortColumn.before_eq]
    rfl
  rw [hsorted]
  refine ⟨List.mergeSort_perm _ _, ?_, fun e => ?_⟩
  · refine (List.Pairwise.isChain (pairwise_mergeSort_isLE _)).imp fun a b hab => ?_
    exact Ordering.isLE_iff_ne_gt.1 hab
  · rw [← SortColumn.tied_directed, ← SortColumn.tied_directed, tied_mergeSort]

/-- What is shown is the one arrangement that there is. -/
theorem arranged_iff (h : sort.index < sort.count) : t.Arranged sort es ↔ es = t.sorted sort := by
  refine ⟨fun hes => ?_, fun hes => hes ▸ arranged_sorted h⟩
  have hsorted : t.Arranged sort (t.sorted sort) := arranged_sorted h
  refine eq_of_stable (hes.perm.trans hsorted.perm.symm) hes.pairwise hsorted.pairwise fun e => ?_
  rw [SortColumn.tied_directed, SortColumn.tied_directed, hes.ties, hsorted.ties]

theorem sorted_of_outside (h : sort.count ≤ sort.index) : t.sorted sort = t.entries := by
  rw [sorted, if_pos h]

/-- The rows of a table are shown in the one order that the sort promises. -/
structure StablySorted (t : Table) (sort : SortColumn) : Prop where
  cells : CellOrder.Lawful
  /-- The name of the column says how its cells compare. -/
  ages : t.orderOf sort = .age ↔ t.header[sort.index]? = some "AGE"
  numbers : t.orderOf sort = .number ↔
    ∃ name ∈ t.kind.numericColumns, t.header[sort.index]? = some name
  arranged : sort.index < sort.count → ∀ es, t.Arranged sort es ↔ es = t.sorted sort
  keeps : sort.index < sort.count → ∀ a b, [a, b].Sublist t.entries →
    sort.compareRows (t.orderOf sort) a b = .eq → [a, b].Sublist (t.sorted sort)
  /-- A sort by no column leaves the table as it is. -/
  outside : sort.count ≤ sort.index → t.sorted sort = t.entries

theorem stably_sorted (t : Table) (sort : SortColumn) : t.StablySorted sort where
  cells := CellOrder.lawful
  ages := CellOrder.ofColumn_eq_age_iff t.kind sort.index
  numbers := CellOrder.ofColumn_eq_number_iff t.kind sort.index
  arranged h _ := arranged_iff h
  keeps h _ _ := (arranged_sorted h).keeps
  outside := sorted_of_outside

end Table

end ClusterConsole.Snapshot
