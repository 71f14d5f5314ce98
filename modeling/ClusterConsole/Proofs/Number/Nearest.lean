import ClusterConsole.Proofs.Number.Rounding
import Mathlib.Tactic.Ring

/-!
# The number nearest to a natural number

Every finite number is a multiple of the least positive one, `2 ^ -1074`, and `units` counts it
in these. `IsNearest x n` says by that count what it is to round to nearest: no finite number is
nearer to `n` than `x`, and of two that are as near the one with the last bit clear is taken.

Natural numbers are rounded so (`isNearest_ofNat`). From the binade of `n` on the finite numbers
are multiples of that binade's spacing (`unitsBelow_lt_or_dvd`), of which the rounded quotient is
a nearest one (`roundQuotient_nearest`), and all the others lie below the binade.
-/

namespace ClusterConsole.Number.Binary64

variable {n den k m : Nat} {x y : Binary64}

/-- Neither infinite nor a NaN. -/
def IsFinite (x : Binary64) : Prop := x.magnitude < infinityBits

/-- What the 63 bits below the sign count to. -/
def unitsBelow (magnitude : Nat) : Nat := (parts magnitude).1 * 2 ^ (parts magnitude).2

/-- A finite number, counted in the least positive one. -/
def units (x : Binary64) : Int :=
  if x.negative then -(unitsBelow x.magnitude : Int) else unitsBelow x.magnitude

/-- One, counted in the least positive number. -/
def oneUnits : Nat := 2 ^ 1074

theorem oneUnits_pos : 0 < oneUnits := by
  rw [oneUnits]
  exact pow_pos Nat.two_pos 1074

/-- How far a finite number is from a natural number, counted in the same way. -/
def distance (x : Binary64) (n : Nat) : Nat := (x.units - n * oneUnits).natAbs

/-- The natural number is rounded to nearest, a tie to the even neighbour. -/
structure IsNearest (x : Binary64) (n : Nat) : Prop where
  finite : x.IsFinite
  nearest : ∀ y : Binary64, y.IsFinite → x.distance n ≤ y.distance n
  even : ∀ y : Binary64, y.IsFinite → x.distance n = y.distance n → y.units ≠ x.units →
    x.magnitude % 2 = 0

/-! ## Multiples -/

/-- The rounded quotient gives the nearest multiple of the divisor, and of two that are as near
the even one. -/
theorem roundQuotient_nearest (hden : 0 < den) (num : Nat) (j : Int) :
    (roundQuotient num den * den - num : Int).natAbs ≤ (j * den - num).natAbs ∧
      ((roundQuotient num den * den - num : Int).natAbs = (j * den - num).natAbs →
        j ≠ roundQuotient num den → roundQuotient num den % 2 = 0) := by
  have hsplit := Nat.div_add_mod num den
  have hrest := Nat.mod_lt num hden
  simp only [roundQuotient]
  generalize num / den = q at *
  generalize num % den = r at *
  have hnum : (num : Int) = q * den + r := by
    rw [← hsplit, Nat.cast_add, Nat.cast_mul, mul_comm (den : Int)]
  have hnext : ((q + 1 : Nat) : Int) * den = q * den + den := by
    rw [Nat.cast_add, Nat.cast_one, add_one_mul]
  have hden' : (0 : Int) ≤ den := Int.natCast_nonneg den
  -- beyond the two multiples next to the number each is a divisor further away
  obtain hj | rfl | rfl | hj : j ≤ q - 1 ∨ j = q ∨ j = ((q + 1 : Nat) : Int) ∨ q + 2 ≤ j := by
    omega
  · have hle : j * den ≤ q * den - den := by
      rw [← sub_one_mul]
      exact Int.mul_le_mul_of_nonneg_right hj hden'
    split <;> omega
  · split <;> omega
  · split <;> omega
  · have hle : q * den + 2 * den ≤ j * den := by
      rw [← add_mul]
      exact Int.mul_le_mul_of_nonneg_right hj hden'
    split <;> omega

/-- A finite number lies below a binade, or it is a multiple of the binade's spacing. -/
theorem unitsBelow_lt_or_dvd (m k : Nat) :
    unitsBelow m < 2 ^ (52 + k) ∨ 2 ^ k ∣ unitsBelow m := by
  have hlow : m % 2 ^ 52 < 2 ^ 52 := Nat.mod_lt _ (Nat.two_pow_pos 52)
  simp only [unitsBelow, parts, Nat.pow_eq]
  split
  · left
    calc m % 2 ^ 52 * 2 ^ 0 < 2 ^ 52 := by omega
      _ ≤ 2 ^ (52 + k) := Nat.pow_le_pow_right (by decide) (Nat.le_add_right _ _)
  · rename_i hexp
    rcases Nat.lt_or_ge (m / 2 ^ 52 - 1) k with hk | hk
    · left
      calc (2 ^ 52 + m % 2 ^ 52) * 2 ^ (m / 2 ^ 52 - 1)
          < 2 ^ 53 * 2 ^ (m / 2 ^ 52 - 1) :=
            Nat.mul_lt_mul_of_pos_right (by omega) (Nat.two_pow_pos _)
        _ = 2 ^ (53 + (m / 2 ^ 52 - 1)) := (Nat.pow_add _ _ _).symm
        _ ≤ 2 ^ (52 + k) := Nat.pow_le_pow_right (by decide) (by omega)
    · exact .inr ((Nat.pow_dvd_pow 2 hk).mul_left _)

theorem units_lt_or_eq_mul (y : Binary64) (k : Nat) :
    y.units < (2 ^ (52 + k) : Nat) ∨ ∃ j : Int, y.units = j * (2 ^ k : Nat) := by
  rw [units]
  rcases unitsBelow_lt_or_dvd y.magnitude k with hlt | ⟨c, hc⟩
  · left
    split <;> omega
  · right
    rw [hc, mul_comm]
    split
    · exact ⟨-c, by rw [Nat.cast_mul, neg_mul]⟩
    · exact ⟨c, Nat.cast_mul _ _⟩

/-! ## Natural numbers -/

/-- A significand that is carried up to the next binade counts there as much. -/
theorem unitsBelow_binade {q : Nat} (hlow : 2 ^ 52 ≤ q) (hhigh : q ≤ 2 ^ 53) (k : Nat) :
    unitsBelow (k * 2 ^ 52 + q) = q * 2 ^ k := by
  rcases hhigh.lt_or_eq with hlt | rfl
  · have hexp : (k * 2 ^ 52 + q) / 2 ^ 52 = k + 1 := by omega
    have hrest : (k * 2 ^ 52 + q) % 2 ^ 52 = q - 2 ^ 52 := by omega
    have hq : 2 ^ 52 + (q - 2 ^ 52) = q := by omega
    simp only [unitsBelow, parts, Nat.pow_eq, hexp, hrest, hq, if_neg k.succ_ne_zero,
      Nat.add_sub_cancel]
  · have hexp : (k * 2 ^ 52 + 2 ^ 53) / 2 ^ 52 = k + 2 := by omega
    have hrest : (k * 2 ^ 52 + 2 ^ 53) % 2 ^ 52 = 0 := by omega
    simp only [unitsBelow, parts, Nat.pow_eq, hexp, hrest]
    rw [if_neg (by omega), Nat.add_zero, show k + 2 - 1 = k + 1 by omega, pow_succ]
    ring

/-- A number below the largest binade has its rounded significand in its own binade or at the
first place of the next one. -/
theorem magnitude_ofNat (hn : n ≠ 0) (hlog : n.log2 ≤ 1022) :
    (ofNat n).magnitude = (n.log2 + 1022) * 2 ^ 52 + significand n := by
  have hhigh := (significand_mem hn).2
  have hinf : infinityBits = 2047 * 2 ^ 52 := rfl
  exact (ratioBits_one hn).trans (min_eq_right (by omega))

theorem isFinite_ofNat (hlog : n.log2 ≤ 1022) : (ofNat n).IsFinite := by
  have hinf : infinityBits = 2047 * 2 ^ 52 := rfl
  rcases Nat.eq_zero_or_pos n with rfl | hn
  · exact Nat.mul_pos (by decide) (Nat.two_pow_pos 52)
  · have hhigh := (significand_mem hn.ne').2
    rw [IsFinite, magnitude_ofNat hn.ne' hlog]
    omega

theorem units_ofNat (hn : n ≠ 0) (hlog : n.log2 ≤ 1022) :
    (ofNat n).units = significand n * (2 ^ (n.log2 + 1022) : Nat) := by
  obtain ⟨hlow, hhigh⟩ := significand_mem hn
  have hunits : (ofNat n).units = unitsBelow (ofNat n).magnitude := rfl
  rw [hunits, magnitude_ofNat hn hlog, unitsBelow_binade hlow hhigh, Nat.cast_mul]

/-- A natural number that fits into a significand is not rounded. -/
theorem units_ofNat_of_lt (hlog : n.log2 < 52) : (ofNat n).units = n * oneUnits := by
  rcases Nat.eq_zero_or_pos n with rfl | hn
  · rw [Nat.cast_zero, zero_mul]
    rfl
  have hexp : 52 - n.log2 + (n.log2 + 1022) = 1074 := by omega
  rw [units_ofNat hn.ne' (by omega), significand, if_neg (by omega), ← Nat.cast_mul, mul_assoc,
    ← pow_add, hexp, Nat.cast_mul, oneUnits]

theorem isNearest_of_exact (hfinite : x.IsFinite) (h : x.units = n * oneUnits) :
    x.IsNearest n where
  finite := hfinite
  nearest y _ := by
    rw [distance, h, sub_self]
    exact Nat.zero_le _
  even y _ hdistance hne := by
    rw [distance, distance, h, sub_self] at hdistance
    exact absurd (by omega) hne

/-- What is below a smaller natural number is further away than that one. -/
theorem lt_distance_of_units_lt (hm : m ≤ n) (hy : y.units < (m * oneUnits : Nat)) :
    (n - m) * oneUnits < y.distance n := by
  have hle : m * oneUnits ≤ n * oneUnits := Nat.mul_le_mul_right _ hm
  rw [distance, Nat.sub_mul, ← Nat.cast_mul]
  omega

/-- A number that is a multiple of a whole one is as far away as in whole numbers. -/
theorem distance_of_units_eq {d : Nat} {j : Int} (hy : y.units = j * (d * oneUnits : Nat)) :
    y.distance n = (j * d - n).natAbs * oneUnits := by
  rw [distance, hy, Nat.cast_mul, ← mul_assoc, ← sub_mul, Int.natAbs_mul, Int.natAbs_natCast]

/-- Where natural numbers are rounded, no number is nearer than the rounded one. -/
theorem distance_ofNat_le (hlow : 52 ≤ n.log2) (hlog : n.log2 ≤ 1022) (y : Binary64) :
    (ofNat n).distance n ≤ y.distance n ∧
      ((ofNat n).distance n = y.distance n → y.units ≠ (ofNat n).units →
        significand n % 2 = 0) := by
  have hn : n ≠ 0 := by
    rintro rfl
    exact absurd hlow (by decide)
  -- the spacing of the binade is a whole number
  have hspacing : 2 ^ (n.log2 + 1022) = 2 ^ (n.log2 - 52) * oneUnits := by
    have hexp : n.log2 + 1022 = n.log2 - 52 + 1074 := by omega
    rw [hexp, pow_add, oneUnits]
  have hunits := units_ofNat hn hlog
  have hx := distance_of_units_eq (n := n) (hspacing ▸ hunits)
  have hquotient : significand n = roundQuotient n (2 ^ (n.log2 - 52)) := if_pos hlow
  have hnearest := roundQuotient_nearest (Nat.two_pow_pos (n.log2 - 52)) n
  rw [← hquotient] at hnearest
  rcases units_lt_or_eq_mul y (n.log2 + 1022) with hlt | ⟨j, hj⟩
  · -- the first number of the binade is nearer than any below it
    have hself : 2 ^ n.log2 ≤ n := Nat.log2_self_le hn
    have hbinade : 2 ^ (52 + (n.log2 + 1022)) = 2 ^ n.log2 * oneUnits := by
      have hexp : 52 + (n.log2 + 1022) = n.log2 + 1074 := by omega
      rw [hexp, pow_add, oneUnits]
    have hfirst : (((2 ^ 52 : Nat) : Int) * (2 ^ (n.log2 - 52) : Nat) - n).natAbs =
        n - 2 ^ n.log2 := by
      have hpow : 2 ^ 52 * 2 ^ (n.log2 - 52) = 2 ^ n.log2 := by
        rw [← pow_add, Nat.add_sub_cancel' hlow]
      rw [← Nat.cast_mul, hpow]
      omega
    have hle : (ofNat n).distance n ≤ (n - 2 ^ n.log2) * oneUnits := by
      rw [hx, ← hfirst]
      exact Nat.mul_le_mul_right _ (hnearest _).1
    have hfar : (n - 2 ^ n.log2) * oneUnits < y.distance n :=
      lt_distance_of_units_lt hself (hbinade ▸ hlt)
    exact ⟨by omega, fun hdistance => absurd hdistance (by omega)⟩
  · obtain ⟨hle, heven⟩ := hnearest j
    rw [hx, distance_of_units_eq (hspacing ▸ hj)]
    refine ⟨Nat.mul_le_mul_right _ hle, fun hdistance hne => ?_⟩
    refine heven (Nat.eq_of_mul_eq_mul_right oneUnits_pos hdistance) ?_
    rintro rfl
    exact hne (hj.trans hunits.symm)

/-- Natural numbers are rounded to nearest. -/
theorem isNearest_ofNat (hlog : n.log2 ≤ 1022) : (ofNat n).IsNearest n := by
  rcases Nat.lt_or_ge n.log2 52 with hsmall | hlarge
  · exact isNearest_of_exact (isFinite_ofNat hlog) (units_ofNat_of_lt hsmall)
  have hn : n ≠ 0 := by
    rintro rfl
    exact absurd hlarge (by decide)
  exact {
    finite := isFinite_ofNat hlog
    nearest := fun y _ => (distance_ofNat_le hlarge hlog y).1
    even := fun y _ hdistance hne => by
      have heven := (distance_ofNat_le hlarge hlog y).2 hdistance hne
      rw [magnitude_ofNat hn hlog]
      omega }

end ClusterConsole.Number.Binary64
