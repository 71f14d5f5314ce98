import ClusterConsole.Number.Binary64

/-!
# The order of bit patterns

`compareTotal` puts any two numbers in order by their bits: those with the sign bit come
first, from the largest pattern down, and the others follow, from the smallest pattern up
(`compareTotal_eq_lt_iff`). So minus zero stands before zero, and patterns that differ are
never in the same place.

What is read from a text is a number always, an infinite one at most
(`isNumber_of_read?`), and of these minus infinity is the least.
-/

namespace ClusterConsole.Number.Binary64

variable {x y : Binary64}

/-- The bits are those of a number: if all bits of the exponent are set, no bit of the
significand is. -/
def IsNumber (x : Binary64) : Prop := x.magnitude ≤ infinityBits

/-! ## The order -/

instance : Std.OrientedCmp compareTotal where
  eq_swap := Std.OrientedOrd.eq_swap

instance : Std.TransCmp compareTotal where
  isLE_trans := Std.TransOrd.isLE_trans

/-- Only equal patterns are in the same place. -/
theorem compareTotal_eq_eq : x.compareTotal y = .eq ↔ x = y := by
  rw [compareTotal, Int.compare_eq_eq]
  obtain ⟨s, m⟩ := x
  obtain ⟨t, n⟩ := y
  cases s <;> cases t <;> simp [rank] <;> omega

/-- Of two patterns with the sign bit the larger one comes first, of two without it the
smaller one, and a pattern with the sign bit comes before one without it. -/
def Below (x y : Binary64) : Prop :=
  if x.negative = y.negative then if x.negative then y.bits < x.bits else x.bits < y.bits
  else x.negative = true

theorem compareTotal_eq_lt_iff (x y : Binary64) : x.compareTotal y = .lt ↔ x.Below y := by
  rw [compareTotal, Int.compare_eq_lt, Below]
  obtain ⟨s, m⟩ := x
  obtain ⟨t, n⟩ := y
  cases s with
  | false =>
      cases t with
      | false => simp [rank, bits]
      | true =>
          simp only [rank, reduceIte, Bool.false_eq_true, iff_false, Int.not_lt]
          omega
  | true =>
      cases t with
      | false =>
          simp only [rank, reduceIte, Bool.true_eq_false, Bool.false_eq_true, iff_true]
          omega
      | true =>
          simp only [rank, bits, reduceIte, Nat.add_lt_add_iff_left]
          omega

/-- No number comes before minus infinity. -/
theorem negInfinity_compareTotal_ne_gt (hx : x.IsNumber) : negInfinity.compareTotal x ≠ .gt := by
  rw [compareTotal, Ne, Int.compare_eq_gt]
  simp only [IsNumber] at hx
  simp only [rank, negInfinity, if_true]
  split <;> omega

/-! ## What is read is a number -/

theorem isNumber_negInfinity : negInfinity.IsNumber := Nat.le_refl infinityBits

theorem ratioBits_le (num den : Nat) : ratioBits num den ≤ infinityBits := by
  rw [ratioBits]
  split
  · exact Nat.zero_le _
  · exact Nat.min_le_left _ _

theorem isNumber_ofNat (n : Nat) : (ofNat n).IsNumber := ratioBits_le n 1

theorem isNumber_ofDecimal (negative : Bool) (m : Nat) (e : Int) :
    (ofDecimal negative m e).IsNumber := by
  simp only [ofDecimal]
  split
  · exact Nat.zero_le _
  · split
    · exact Nat.le_refl infinityBits
    · split
      · exact Nat.zero_le _
      · split <;> exact ratioBits_le _ _

theorem isNumber_of_unsignedDecimal? {negative : Bool} {cs : List Char}
    (h : unsignedDecimal? negative cs = some x) : x.IsNumber := by
  rw [unsignedDecimal?] at h
  obtain ⟨-, h⟩ := Option.ite_none_left_eq_some.1 h
  obtain ⟨e, -, rfl⟩ := Option.map_eq_some_iff.1 h
  exact isNumber_ofDecimal _ _ _

theorem isNumber_of_read? {cs : List Char} (h : read? cs = some x) : x.IsNumber := by
  simp only [read?] at h
  split at h
  · obtain rfl := Option.some.inj h
    exact Nat.le_refl infinityBits
  · exact isNumber_of_unsignedDecimal? h

end ClusterConsole.Number.Binary64
