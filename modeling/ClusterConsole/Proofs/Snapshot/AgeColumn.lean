import ClusterConsole.Proofs.Number.Rounding
import ClusterConsole.Proofs.Resource.AgeGroups
import ClusterConsole.Proofs.Snapshot.Arrangement

/-!
# The column of ages

Ages are written by one rule and sorted by another, which reads them again. Both agree on what
is kept of a time (`Age.Measured`), and neither the change of unit nor the rounding of the
number that is compared turns two times round (`ages_sort_as_measured`): a cell of a longer
time comes after that of a shorter one, or is level with it.
-/

namespace ClusterConsole.Snapshot

open ClusterConsole.Number ClusterConsole.Resource

variable {s t : Int64} {k l : Nat}

/-- The cell of a time. -/
def ageCell (s : Int64) : String := Age.write s.toInt

theorem ageKey_ageCell (h : Age.Measured s.toInt k) : ageKey (ageCell s) = Binary64.ofNat k := by
  rw [ageKey, ageCell, h.read]

/-- The cell of the longer one of two times does not come first. -/
theorem compareCells_ageCell_ne_gt (h : s ≤ t) :
    compareCells .age (ageCell s) (ageCell t) ≠ .gt := by
  obtain ⟨k, hk⟩ := Age.measured_write s.toInt_lt
  obtain ⟨l, hl⟩ := Age.measured_write t.toInt_lt
  rw [compareCells, ageKey_ageCell hk, ageKey_ageCell hl]
  exact Binary64.compareTotal_ofNat_ne_gt (hk.mono hl (Int64.le_iff_toInt_le.1 h))

/-- Cells whose keys differ are not level. -/
theorem compareCells_age_eq_lt {a b : String} (hgt : compareCells .age a b ≠ .gt)
    (hne : ageKey a ≠ ageKey b) : compareCells .age a b = .lt := by
  cases hc : compareCells .age a b with
  | lt => rfl
  | eq => exact absurd (Binary64.compareTotal_eq_eq.1 hc) hne
  | gt => exact absurd hc hgt

/-- Two times whose keys differ are in the order of their cells. -/
theorem compareCells_ageCell_eq_lt_iff (hne : ageKey (ageCell s) ≠ ageKey (ageCell t)) :
    compareCells .age (ageCell s) (ageCell t) = .lt ↔ s < t := by
  constructor
  · intro hlt
    by_contra hle
    have hgt := compareCells_ageCell_ne_gt (Int64.not_lt.1 hle)
    rw [compare_swap (compareCells .age), hlt] at hgt
    exact hgt rfl
  · intro hlt
    exact compareCells_age_eq_lt (compareCells_ageCell_ne_gt (Int64.le_of_lt hlt)) hne

/-- In a column of ages the rows of two times whose keys differ stand as the times do. -/
theorem lt_of_sublist_sorted {table : Table} {sort : SortColumn} {e f : Entry}
    (hage : table.header[sort.index]? = some "AGE") (hindex : sort.index < sort.count)
    (hef : [e, f].Sublist (table.sorted sort)) (he : e.field sort.index = ageCell s)
    (hf : f.field sort.index = ageCell t) (hne : ageKey (ageCell s) ≠ ageKey (ageCell t)) :
    if sort.ascending then s < t else t < s := by
  have horder : table.orderOf sort = .age :=
    (CellOrder.ofColumn_eq_age_iff table.kind sort.index).2 hage
  have hpair := List.pairwise_iff_forall_sublist.1 (Table.arranged_sorted hindex).pairwise hef
  rw [horder, SortColumn.directed_eq] at hpair
  simp only [SortColumn.compareRows, he, hf] at hpair
  split at hpair <;> rename_i hdirection
  · rw [if_pos hdirection]
    exact (compareCells_ageCell_eq_lt_iff hne).1 (compareCells_age_eq_lt hpair hne)
  · rw [if_neg hdirection]
    exact (compareCells_ageCell_eq_lt_iff hne.symm).1 (compareCells_age_eq_lt hpair hne.symm)

/-- What the cell of a time is read as, and how it stands to the cells of other times. -/
structure SortsAsMeasured (s : Int64) : Prop where
  /-- The cell is read as the whole units that it keeps of the time, with nothing clamped, and
  that number is rounded. -/
  measured : ∃ total, Age.Measured s.toInt total ∧ ageKey (ageCell s) = Binary64.ofNat total
  /-- It is not taken for a cell that cannot be read. -/
  readable : ageKey (ageCell s) ≠ Binary64.negInfinity
  ascends : ∀ t, s ≤ t → compareCells .age (ageCell s) (ageCell t) ≠ .gt
  agrees : ∀ t, ageKey (ageCell s) ≠ ageKey (ageCell t) →
    (compareCells .age (ageCell s) (ageCell t) = .lt ↔ s < t)
  /-- Of two rows in a sorted table the first one has the shorter time, or the longer one if the
  sort descends. -/
  column : ∀ (t : Int64) (table : Table) (sort : SortColumn) (e f : Entry),
    table.header[sort.index]? = some "AGE" → sort.index < sort.count →
    [e, f].Sublist (table.sorted sort) → e.field sort.index = ageCell s →
    f.field sort.index = ageCell t → ageKey (ageCell s) ≠ ageKey (ageCell t) →
    if sort.ascending then s < t else t < s

/-- Ages sort as they were measured. -/
theorem ages_sort_as_measured (s : Int64) : SortsAsMeasured s where
  measured := by
    obtain ⟨total, h⟩ := Age.measured_write s.toInt_lt
    exact ⟨total, h, ageKey_ageCell h⟩
  readable := by
    obtain ⟨total, h⟩ := Age.measured_write s.toInt_lt
    rw [ageKey_ageCell h]
    exact Binary64.ofNat_ne_negInfinity total
  ascends _ := compareCells_ageCell_ne_gt
  agrees _ := compareCells_ageCell_eq_lt_iff
  column _ _ _ _ _ := lt_of_sublist_sorted

end ClusterConsole.Snapshot
