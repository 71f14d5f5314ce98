import ClusterConsole.Proofs.Number.Nearest
import ClusterConsole.Proofs.Resource.AgeGroups
import ClusterConsole.Snapshot.Sorting

/-!
# Cells that are ages

What a cell of a column of ages is sorted by. A cell that is made of groups (`Age.Compound`)
gives the number nearest to its seconds, and any other cell gives minus infinity
(`compound_ages_are_read`). The seconds are the exact sum, however many groups there are and
however large, clamped once to what 64 bits hold.
-/

namespace ClusterConsole.Snapshot

open ClusterConsole.Number ClusterConsole.Resource

variable {cell : String} {gs : List Age.Group}

/-- Seconds in 64 bits are below the largest binade. -/
theorem log2_min_top_le (n : Nat) : (min (2 ^ 64 - 1) n).log2 ≤ 1022 := by
  rcases Nat.eq_zero_or_pos (min (2 ^ 64 - 1) n) with hzero | hpos
  · rw [hzero]
    decide
  · have hlog : (min (2 ^ 64 - 1) n).log2 < 64 := (Nat.log2_lt hpos.ne').2 (by omega)
    omega

theorem ageKey_of_compound (h : Age.Compound cell gs) :
    ageKey cell = Binary64.ofNat (min (2 ^ 64 - 1) (Age.secondsOf gs)) := by
  have hread : Age.read? cell = some (min (2 ^ 64 - 1) (Age.secondsOf gs)) :=
    Age.read?_eq_some_iff.2 ⟨gs, h, rfl⟩
  rw [ageKey, hread]

theorem isNearest_ageKey (h : Age.Compound cell gs) :
    (ageKey cell).IsNearest (min (2 ^ 64 - 1) (Age.secondsOf gs)) := by
  rw [ageKey_of_compound h]
  exact Binary64.isNearest_ofNat (log2_min_top_le _)

theorem ageKey_of_not_compound (h : ¬ ∃ gs, Age.Compound cell gs) :
    ageKey cell = Binary64.negInfinity := by
  rw [ageKey, Age.read?_eq_none_iff.2 h]

/-- How the cells of a column of ages are read. -/
structure ReadsCompoundAges : Prop where
  /-- Just the cells that are made of groups are read as a finite number. -/
  finite_iff : ∀ cell, (ageKey cell).IsFinite ↔ ∃ gs, Age.Compound cell gs
  /-- It is the sum of the groups, clamped once, -/
  sum : ∀ cell gs, Age.Compound cell gs →
    ageKey cell = Binary64.ofNat (min (2 ^ 64 - 1) (Age.secondsOf gs))
  /-- and rounded to nearest. -/
  nearest : ∀ cell gs, Age.Compound cell gs →
    (ageKey cell).IsNearest (min (2 ^ 64 - 1) (Age.secondsOf gs))
  refused : ∀ cell, (¬ ∃ gs, Age.Compound cell gs) → ageKey cell = Binary64.negInfinity
  /-- The groups are those of the cell, which is made of no others, -/
  unique : ∀ cell gs gs', Age.Compound cell gs → Age.Compound cell gs' → gs = gs'
  /-- and their units are these. -/
  units : ∀ c u, Age.unitSeconds? c = some u ↔ (c, u) ∈ Age.units

/-- Cells are read as the ages that they are made of. -/
theorem compound_ages_are_read : ReadsCompoundAges where
  finite_iff cell := by
    constructor
    · intro hfinite
      by_contra hnot
      rw [ageKey_of_not_compound hnot] at hfinite
      exact Nat.lt_irrefl _ hfinite
    · rintro ⟨gs, h⟩
      exact (isNearest_ageKey h).finite
  sum _ _ := ageKey_of_compound
  nearest _ _ := isNearest_ageKey
  refused _ := ageKey_of_not_compound
  unique _ _ _ := Age.Compound.unique
  units _ _ := Age.unitSeconds?_eq_some_iff

/-- A unit may come again, and neither zeros in front nor blanks around a cell count; digits
without a unit, a unit without digits and a number beyond 64 bits make no age. -/
example : Age.read? " 1d007s1d " = some 172807 ∧
    Age.read? "18446744073709551615y1s" = some (2 ^ 64 - 1) ∧ Age.read? "1d2" = none ∧
    Age.read? "h" = none ∧ Age.read? "18446744073709551616s" = none := by decide

end ClusterConsole.Snapshot
