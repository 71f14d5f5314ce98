import ClusterConsole.Number.Binary64
import ClusterConsole.Proofs.Text.Trimming

/-!
# Written numbers

Digits are read as their value if a bound allows it (`digitsBelow?_eq_some_iff`). A number that is
written in decimal digits reads back as itself (`unsigned?_toString`), and what is written of a
number, with places after the point or without, is a word: it is not empty and there is no blank
in it.
-/

namespace ClusterConsole.Text

theorem toNat_of_isDigit {c : Char} (h : c.isDigit = true) : 48 ≤ c.toNat ∧ c.toNat ≤ 57 := by
  simpa [Char.isDigit, UInt32.le_iff_toNat_le] using h

theorem isBlank_of_isDigit {c : Char} (h : c.isDigit = true) : isBlank c = false := by
  have hrange := toNat_of_isDigit h
  simp [isBlank]
  omega

end ClusterConsole.Text

namespace ClusterConsole.Number

variable {n bound width : Nat} {c : Char} {cs : List Char}

/-- Digits are read as their value, if it is below the bound. -/
theorem digitsBelow?_eq_some_iff : digitsBelow? bound cs = some n ↔
    cs ≠ [] ∧ (∀ c ∈ cs, c.isDigit = true) ∧ Nat.ofDigitChars 10 cs 0 = n ∧ n < bound := by
  have hdigits : digits? cs = some n ↔
      (cs ≠ [] ∧ cs.all Char.isDigit = true) ∧ Nat.ofDigitChars 10 cs 0 = n := by
    rw [digits?, Option.ite_none_right_eq_some, Option.some_inj]
    rfl
  rw [digitsBelow?, Option.filter_eq_some_iff, hdigits, List.all_eq_true, decide_eq_true_iff]
  tauto

theorem toList_toString (n : Nat) : (toString n).toList = Nat.toDigits 10 n :=
  String.toList_ofList

theorem isDigit_of_mem_toString (h : c ∈ (toString n).toList) : c.isDigit = true := by
  rw [toList_toString] at h
  exact Nat.isDigit_of_mem_toDigits (by decide) (by decide) h

theorem toList_toString_ne_nil (n : Nat) : (toString n).toList ≠ [] := by
  rw [toList_toString]
  exact Nat.toDigits_ne_nil

theorem digitsValue_toString (n : Nat) : digitsValue (toString n).toList = n := by
  rw [toList_toString]
  exact Nat.ofDigitChars_toDigits (by decide) (by decide)

theorem digits?_toString (n : Nat) : digits? (toString n).toList = some n := by
  have hall : (toString n).toList.all Char.isDigit = true :=
    List.all_eq_true.2 fun _ hc => isDigit_of_mem_toString hc
  rw [digits?, if_pos ⟨toList_toString_ne_nil n, hall⟩, digitsValue_toString]

/-- A number is read back if it is below the bound. -/
theorem unsigned?_toString_eq (bound n : Nat) :
    unsigned? bound (toString n).toList = if n < bound then some n else none := by
  have hbelow : digitsBelow? bound (toString n).toList = if n < bound then some n else none := by
    rw [digitsBelow?, digits?_toString]
    simp [Option.filter]
  unfold unsigned?
  split
  · rename_i cs hcs
    -- a plus sign is no digit
    have hplus : '+' ∈ (toString n).toList := hcs ▸ List.mem_cons_self
    exact absurd (isDigit_of_mem_toString hplus) (by decide)
  · exact hbelow

/-- A number below the bound reads back as itself. -/
theorem unsigned?_toString (h : n < bound) : unsigned? bound (toString n).toList = some n := by
  rw [unsigned?_toString_eq, if_pos h]

theorem isWord_toString (n : Nat) : Text.IsWord (toString n) :=
  ⟨toList_toString_ne_nil n, fun _ hc => Text.isBlank_of_isDigit (isDigit_of_mem_toString hc)⟩

theorem isDigit_of_mem_padded (h : c ∈ (padded width n).toList) : c.isDigit = true := by
  rw [padded, String.toList_append, String.toList_ofList] at h
  rcases List.mem_append.1 h with h | h
  · rw [List.eq_of_mem_replicate h]
    rfl
  · exact isDigit_of_mem_toString h

/-- A number with places is written in digits and a point, unless it is infinite. -/
theorem isWord_fixed (places : Nat) (x : Binary64) : Text.IsWord (x.fixed places) := by
  unfold Binary64.fixed
  split
  · refine ⟨by decide, fun c hc => ?_⟩
    have hinf : ("inf".toList.all fun c => !Text.isBlank c) = true := by decide
    simpa using List.all_eq_true.1 hinf c hc
  · dsimp only
    split
    · exact isWord_toString _
    · refine ⟨by simp [String.toList_append], fun c hc => ?_⟩
      simp only [String.toList_append, List.mem_append] at hc
      rcases hc with (hc | hc) | hc
      · exact (isWord_toString _).2 c hc
      · obtain rfl : c = '.' := by simpa using hc
        decide
      · exact Text.isBlank_of_isDigit (isDigit_of_mem_padded hc)

end ClusterConsole.Number
