import ClusterConsole.Proofs.Number.BitOrder
import Mathlib.Algebra.Order.Ring.Nat

/-!
# Rounding keeps the order

A larger natural number is never rounded to a smaller one (`magnitude_ofNat_mono`). Within a
binade that is the order of the rounded quotients, and from one binade to a later one it is
carried by the exponent: the significand of a number fills its binade at most up to the first
number of the next one (`significand_mem`).
-/

namespace ClusterConsole.Number.Binary64

variable {a b den n : Nat}

/-! ## Quotients -/

theorem roundQuotient_mem (num den : Nat) :
    num / den ≤ roundQuotient num den ∧ roundQuotient num den ≤ num / den + 1 := by
  simp only [roundQuotient]
  split <;> omega

theorem roundQuotient_mono (den : Nat) (h : a ≤ b) :
    roundQuotient a den ≤ roundQuotient b den := by
  have hle : a / den ≤ b / den := Nat.div_le_div_right h
  rcases hle.lt_or_eq with hlt | heq
  · calc roundQuotient a den ≤ a / den + 1 := (roundQuotient_mem a den).2
      _ ≤ b / den := hlt
      _ ≤ roundQuotient b den := (roundQuotient_mem b den).1
  · -- of one quotient the larger number has the larger rest
    have hrest : a % den ≤ b % den := by
      have ha := Nat.div_add_mod a den
      have hb := Nat.div_add_mod b den
      rw [heq] at ha
      omega
    simp only [roundQuotient, heq]
    split <;> split <;> omega

theorem roundQuotient_one (n : Nat) : roundQuotient n 1 = n := by
  simp [roundQuotient, Nat.mod_one]

/-! ## Binades of natural numbers -/

theorem log2_le_log2 (ha : a ≠ 0) (h : a ≤ b) : a.log2 ≤ b.log2 :=
  (Nat.le_log2 (by omega)).2 ((Nat.log2_self_le ha).trans h)

/-- A natural number lies in the binade of its logarithm. -/
theorem shiftedExponent_one (hn : n ≠ 0) : shiftedExponent n 1 = n.log2 + 1022 := by
  have hself : 2 ^ n.log2 ≤ n := Nat.log2_self_le hn
  have hone : Nat.log2 1 = 0 := by decide
  have hfits : (if (n.log2 : Int) - 52 ≥ 0
      then decide (2 ^ 52 * 2 ^ ((n.log2 : Int) - 52).toNat ≤ n)
      else decide (2 ^ 52 ≤ n * 2 ^ (-((n.log2 : Int) - 52)).toNat)) = true := by
    split <;> rename_i hsign <;> refine decide_eq_true ?_
    · calc 2 ^ 52 * 2 ^ ((n.log2 : Int) - 52).toNat
          = 2 ^ n.log2 := by rw [← pow_add]; congr 1; omega
        _ ≤ n := hself
    · calc 2 ^ 52
          ≤ 2 ^ n.log2 * 2 ^ (-((n.log2 : Int) - 52)).toNat := by
            rw [← pow_add]; exact Nat.pow_le_pow_right (by decide) (by omega)
        _ ≤ n * 2 ^ (-((n.log2 : Int) - 52)).toNat := Nat.mul_le_mul_right _ hself
  simp only [shiftedExponent, hone, Int.ofNat_zero, Int.sub_zero, Nat.pow_eq, one_mul, mul_one,
    hfits, if_true]
  omega

/-- The rounded significand of a natural number. -/
def significand (n : Nat) : Nat :=
  if 52 ≤ n.log2 then roundQuotient n (2 ^ (n.log2 - 52)) else n * 2 ^ (52 - n.log2)

theorem ratioBits_one (hn : n ≠ 0) :
    ratioBits n 1 = min infinityBits ((n.log2 + 1022) * 2 ^ 52 + significand n) := by
  have hshift (l : Nat) : 1074 ≤ l + 1022 ↔ 52 ≤ l := by omega
  have hdown (l : Nat) : l + 1022 - 1074 = l - 52 := by omega
  have hup (l : Nat) : 1074 - (l + 1022) = 52 - l := by omega
  simp only [ratioBits, if_neg hn, shiftedExponent_one hn, ge_iff_le, hshift, hdown, hup,
    Nat.pow_eq, one_mul, roundQuotient_one, significand]

theorem significand_mem (hn : n ≠ 0) : 2 ^ 52 ≤ significand n ∧ significand n ≤ 2 ^ 53 := by
  have hself : 2 ^ n.log2 ≤ n := Nat.log2_self_le hn
  have hlt : n < 2 ^ (n.log2 + 1) := Nat.lt_log2_self
  rw [significand]
  split <;> rename_i hlog
  · have hpos : 0 < 2 ^ (n.log2 - 52) := Nat.two_pow_pos _
    have hlow : 2 ^ 52 ≤ n / 2 ^ (n.log2 - 52) := by
      rw [Nat.le_div_iff_mul_le hpos, ← pow_add]
      exact (congrArg (2 ^ ·) (by omega : 52 + (n.log2 - 52) = n.log2)).trans_le hself
    have hhigh : n / 2 ^ (n.log2 - 52) < 2 ^ 53 := by
      rw [Nat.div_lt_iff_lt_mul hpos, ← pow_add]
      exact hlt.trans_eq (congrArg (2 ^ ·) (by omega))
    have hround := roundQuotient_mem n (2 ^ (n.log2 - 52))
    omega
  · constructor
    · calc 2 ^ 52 = 2 ^ n.log2 * 2 ^ (52 - n.log2) := by rw [← pow_add]; congr 1; omega
        _ ≤ n * 2 ^ (52 - n.log2) := Nat.mul_le_mul_right _ hself
    · calc n * 2 ^ (52 - n.log2) ≤ 2 ^ (n.log2 + 1) * 2 ^ (52 - n.log2) :=
            Nat.mul_le_mul_right _ hlt.le
        _ = 2 ^ 53 := by rw [← pow_add]; congr 1; omega

/-- In one binade the significands are in the order of the numbers. -/
theorem significand_mono (hlog : a.log2 = b.log2) (h : a ≤ b) :
    significand a ≤ significand b := by
  rw [significand, significand, hlog]
  split
  · exact roundQuotient_mono _ h
  · exact Nat.mul_le_mul_right _ h

/-! ## The order of what is rounded -/

theorem magnitude_ofNat_mono (h : a ≤ b) : (ofNat a).magnitude ≤ (ofNat b).magnitude := by
  change ratioBits a 1 ≤ ratioBits b 1
  rcases Nat.eq_zero_or_pos a with rfl | ha
  · simp [ratioBits]
  have ha : a ≠ 0 := ha.ne'
  have hb : b ≠ 0 := by omega
  rw [ratioBits_one ha, ratioBits_one hb]
  refine min_le_min_left _ ?_
  rcases (log2_le_log2 ha h).lt_or_eq with hlog | hlog
  · -- the significand reaches no further than the first number of the next binade
    have hsa := (significand_mem ha).2
    have hsb := (significand_mem hb).1
    omega
  · rw [hlog]
    exact Nat.add_le_add_left (significand_mono hlog h) _

/-- The larger one of two natural numbers does not come first. -/
theorem compareTotal_ofNat_ne_gt (h : a ≤ b) : (ofNat a).compareTotal (ofNat b) ≠ .gt := by
  rw [compareTotal, Ne, Int.compare_eq_gt]
  have hmono := magnitude_ofNat_mono h
  have hrank (n : Nat) : (ofNat n).rank = ((ofNat n).magnitude : Int) := rfl
  rw [hrank, hrank]
  omega

theorem ofNat_ne_negInfinity (n : Nat) : ofNat n ≠ negInfinity := fun h =>
  Bool.false_ne_true (congrArg Binary64.negative h)

end ClusterConsole.Number.Binary64
