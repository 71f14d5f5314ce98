import ClusterConsole.Proofs.Number.Nearest
import ClusterConsole.Proofs.Number.Written
import ClusterConsole.Proofs.Text.Casing
import Mathlib.Data.Nat.Digits.Defs

/-!
# Whole numbers that are read

A whole number that is written in decimal digits is read as the number nearest to it
(`read?_toString`). The shortcut that reading takes for a text of very many digits gives the
same: such a number is past the largest finite one. Of whole numbers that fit into a
significand the smaller one comes first (`compareTotal_ofNat_of_lt`).
-/

namespace ClusterConsole.Number.Binary64

variable {m n : Nat}

theorem ratioBits_of_large (h : 1024 ≤ n.log2) : ratioBits n 1 = infinityBits := by
  have hn : n ≠ 0 := by
    rintro rfl
    simp at h
  have hinf : infinityBits = 2047 * 2 ^ 52 := rfl
  have hlow := (significand_mem hn).1
  rw [ratioBits_one hn]
  exact min_eq_left (by omega)

theorem three_mul_le_log2 {k : Nat} (h : 10 ^ k ≤ n) : 3 * k ≤ n.log2 := by
  have hpow : 2 ^ (3 * k) ≤ n := by
    rw [pow_mul]
    exact (Nat.pow_le_pow_left (by decide) k).trans h
  have hn : n ≠ 0 := (lt_of_lt_of_le (Nat.two_pow_pos (3 * k)) hpow).ne'
  exact (Nat.le_log2 hn).2 hpow

/-- A number of more than 400 digits is that large. -/
theorem le_log2_of_length (h : 400 < (toString n).length) : 1024 ≤ n.log2 := by
  have hpow : 10 ^ 400 ≤ n := by
    by_contra hlt
    have hshort := Nat.repr_length n 400 (by decide) (not_le.1 hlt)
    exact absurd hshort (not_le.2 h)
  have hlog := three_mul_le_log2 hpow
  omega

theorem ofDecimal_zero (n : Nat) : ofDecimal false n 0 = ofNat n := by
  simp only [ofDecimal, add_zero]
  split
  · rename_i hn
    subst hn
    rfl
  · split
    · rename_i hlong
      rw [ofNat, ofRatio, ratioBits_of_large (le_log2_of_length (by exact_mod_cast hlong))]
    · rw [if_neg (by omega), if_pos le_rfl]
      simp [ofNat, ofRatio]

theorem sign_of_isDigit {cs : List Char} (h : ∀ c ∈ cs, c.isDigit = true) :
    sign cs = (false, cs) := by
  unfold sign
  split
  · exact absurd (h _ List.mem_cons_self) (by decide)
  · exact absurd (h _ List.mem_cons_self) (by decide)
  · rfl

/-- Digits are no word for infinity. -/
theorem lower_digits_ne {cs : List Char} (h : ∀ c ∈ cs, c.isDigit = true) {word : String}
    (hword : 'i' ∈ word.toList) : String.ofList (cs.map Char.toLower) ≠ word := by
  rintro rfl
  rw [String.toList_ofList] at hword
  obtain ⟨c, hc, hi⟩ := List.mem_map.1 hword
  have hdigit := h c hc
  have hrange := Text.toNat_of_isDigit hdigit
  rw [Text.toLower_eq_self (by omega)] at hi
  rw [hi] at hdigit
  exact absurd hdigit (by decide)

theorem read?_digits {cs : List Char} (hne : cs ≠ []) (h : ∀ c ∈ cs, c.isDigit = true) :
    read? cs = some (ofNat (digitsValue cs)) := by
  have hspan : spanDigits cs = (cs, []) := by
    rw [spanDigits, List.takeWhile_eq_self_iff.2 h, List.dropWhile_eq_nil_iff.2 h]
  have hinf : ¬ (String.ofList (cs.map Char.toLower) = "inf" ∨
      String.ofList (cs.map Char.toLower) = "infinity") := by
    rintro (hword | hword)
    · exact lower_digits_ne h (by decide) hword
    · exact lower_digits_ne h (by decide) hword
  simp only [read?, sign_of_isDigit h, if_neg hinf, unsignedDecimal?, hspan, hne, false_and,
    if_false, exponent?, Option.map_some, List.append_nil, List.length_nil, Nat.cast_zero,
    sub_zero, ofDecimal_zero]

theorem read?_toString (n : Nat) : read? (toString n).toList = some (ofNat n) := by
  rw [read?_digits (toList_toString_ne_nil n) fun _ => isDigit_of_mem_toString,
    digitsValue_toString]

/-- Whole numbers that fit into a significand are apart, and the smaller one comes first. -/
theorem compareTotal_ofNat_of_lt (h : m < n) (hn : n < 2 ^ 52) :
    (ofNat m).compareTotal (ofNat n) = .lt := by
  have hunits (k : Nat) (hk : k < 2 ^ 52) : (ofNat k).units = k * oneUnits := by
    refine units_ofNat_of_lt ?_
    rcases Nat.eq_zero_or_pos k with rfl | hpos
    · simp
    · exact (Nat.log2_lt hpos.ne').2 hk
  have hne : ofNat m ≠ ofNat n := fun heq => by
    have hsame := hunits m (h.trans hn)
    rw [heq, hunits n hn] at hsame
    have hone := oneUnits_pos
    have := mul_right_cancel₀ (by exact_mod_cast hone.ne') hsame
    omega
  cases hc : (ofNat m).compareTotal (ofNat n) with
  | lt => rfl
  | eq => exact absurd (compareTotal_eq_eq.1 hc) hne
  | gt => exact absurd hc (compareTotal_ofNat_ne_gt h.le)

end ClusterConsole.Number.Binary64
