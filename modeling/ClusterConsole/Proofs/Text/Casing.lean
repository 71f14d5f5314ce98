import ClusterConsole.Text.Cut

/-!
# Upper and lower case

Texts are compared up to the case of the letters from A to Z. It makes no difference whether
they are compared in small letters or in capitals (`sameFolded_iff`).
-/

namespace ClusterConsole.Text

theorem toNat_toLower (c : Char) :
    c.toLower.toNat = if 65 ≤ c.toNat ∧ c.toNat ≤ 90 then c.toNat + 32 else c.toNat := by
  have hrange : c.val ≥ 'A'.val ∧ c.val ≤ 'Z'.val ↔ 65 ≤ c.toNat ∧ c.toNat ≤ 90 := by
    simp only [ge_iff_le, UInt32.le_iff_toNat_le, Char.toNat_val]
    rfl
  delta Char.toLower
  by_cases h : 65 ≤ c.toNat ∧ c.toNat ≤ 90
  · rw [dif_pos (hrange.2 h), if_pos h]
    have hsum : (c.val + ('a'.val - 'A'.val)).toNat = (c.toNat + 32) % 2 ^ 32 := by
      rw [UInt32.toNat_add]
      rfl
    change (c.val + ('a'.val - 'A'.val)).toNat = _
    omega
  · rw [dif_neg (mt hrange.1 h), if_neg h]

theorem toNat_toUpper (c : Char) :
    c.toUpper.toNat = if 97 ≤ c.toNat ∧ c.toNat ≤ 122 then c.toNat - 32 else c.toNat := by
  have hrange : 'a'.val ≤ c.val ∧ c.val ≤ 'z'.val ↔ 97 ≤ c.toNat ∧ c.toNat ≤ 122 := by
    simp only [UInt32.le_iff_toNat_le, Char.toNat_val]
    rfl
  delta Char.toUpper
  by_cases h : 97 ≤ c.toNat ∧ c.toNat ≤ 122
  · rw [dif_pos (hrange.2 h), if_pos h]
    -- the difference of the letters is negative, so the sum goes round
    have hsum : (c.val + ('A'.val - 'a'.val)).toNat = (c.toNat + (2 ^ 32 - 32)) % 2 ^ 32 := by
      rw [UInt32.toNat_add]
      rfl
    change (c.val + ('A'.val - 'a'.val)).toNat = _
    omega
  · rw [dif_neg (mt hrange.1 h), if_neg h]

/-- Only the capitals from A to Z have another letter for lower case. -/
theorem toLower_eq_self {c : Char} (h : ¬ (65 ≤ c.toNat ∧ c.toNat ≤ 90)) : c.toLower = c := by
  rw [← Char.toNat_inj, toNat_toLower, if_neg h]

/-- Characters that are the same as small letters are the same as capitals. -/
theorem toLower_eq_iff {c d : Char} : c.toLower = d.toLower ↔ c.toUpper = d.toUpper := by
  rw [← Char.toNat_inj, ← Char.toNat_inj, toNat_toLower, toNat_toLower, toNat_toUpper,
    toNat_toUpper]
  grind

theorem map_toLower_eq_iff {cs ds : List Char} :
    cs.map Char.toLower = ds.map Char.toLower ↔ cs.map Char.toUpper = ds.map Char.toUpper := by
  induction cs generalizing ds with
  | nil => cases ds <;> simp
  | cons c cs ih =>
      cases ds with
      | nil => simp
      | cons d ds => simp only [List.map_cons, List.cons.injEq, toLower_eq_iff, ih]

theorem toList_lower (s : String) : (lower s).toList = s.toList.map Char.toLower := by
  rw [lower, String.toList_ofList]

/-- Texts are the same up to case in capitals as they are in small letters. -/
theorem sameFolded_iff {s t : String} :
    sameFolded s t = true ↔ s.toList.map Char.toUpper = t.toList.map Char.toUpper := by
  rw [sameFolded, beq_iff_eq, ← String.toList_inj, toList_lower, toList_lower,
    map_toLower_eq_iff]

end ClusterConsole.Text
