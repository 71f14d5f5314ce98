import ClusterConsole.Proofs.Text.Casing
import ClusterConsole.Proofs.Text.Trimming
import ClusterConsole.Resource.Scope

/-!
# Names of namespaces

The names that a namespace may have (`IsLabel`). Their characters are small letters, digits
and hyphens (`IsLabelChar.toNat_mem`), so nothing in them is trimmed away or folded, and a name
is read as itself where a word for a scope is read (`Scope.ofWord_of_isLabel`).
-/

namespace ClusterConsole

namespace Text

theorem lower_eq_self {s : String} (h : ∀ c ∈ s.toList, c.toLower = c) : lower s = s := by
  rw [lower, List.map_congr_left h, List.map_id', String.ofList_toList]

end Text

namespace Resource

variable {n : String} {c : Char}

/-- The characters of a name. -/
def IsLabelChar (c : Char) : Prop := c.isLower = true ∨ c.isDigit = true ∨ c = '-'

/-- A name that a namespace may have: lower-case letters, digits and hyphens, at most 63 of
them, and no hyphen at either end. -/
structure IsLabel (n : String) : Prop where
  chars : ∀ c ∈ n.toList, IsLabelChar c
  nonempty : n ≠ ""
  short : n.length ≤ 63
  head : n.toList.head? ≠ some '-'
  last : n.toList.getLast? ≠ some '-'

theorem IsLabelChar.toNat_mem (h : IsLabelChar c) :
    97 ≤ c.toNat ∧ c.toNat ≤ 122 ∨ 48 ≤ c.toNat ∧ c.toNat ≤ 57 ∨ c.toNat = 45 := by
  delta IsLabelChar Char.isLower Char.isDigit at h
  simp only [Bool.and_eq_true, decide_eq_true_eq, ge_iff_le, UInt32.le_iff_toNat_le] at h
  rcases h with h | h | rfl
  · exact .inl h
  · exact .inr (.inl h)
  · exact .inr (.inr rfl)

theorem IsLabelChar.isBlank_eq_false (h : IsLabelChar c) : Text.isBlank c = false := by
  have hc := h.toNat_mem
  simp only [Text.isBlank, Bool.or_eq_false_iff, Bool.and_eq_false_iff, decide_eq_false_iff_not,
    beq_eq_false_iff_ne]
  omega

theorem IsLabelChar.toLower_eq_self (h : IsLabelChar c) : c.toLower = c := by
  have hc := h.toNat_mem
  exact Text.toLower_eq_self (by omega)

/-- A name is read as a word: as itself, unless it is the word for all namespaces. -/
theorem Scope.ofWord_of_isLabel (h : IsLabel n) :
    ofWord n = if n = "all" then .all else .named n := by
  have htrim : Text.trim n = n :=
    Text.trim_eq_self_iff.2 (Text.trimmed_of_forall fun c hc => (h.chars c hc).isBlank_eq_false)
  have hlower : Text.lower n = n :=
    Text.lower_eq_self fun c hc => (h.chars c hc).toLower_eq_self
  have hsign : n ≠ allSign := by
    rintro rfl
    have hstar : ¬ IsLabelChar '*' := by unfold IsLabelChar; decide
    exact hstar (h.chars '*' (by decide))
  have hfolded : Text.sameFolded n "all" = true ↔ n = "all" := by
    rw [Text.sameFolded, hlower, show Text.lower "all" = "all" by decide, beq_iff_eq]
  simp only [ofWord, htrim, h.nonempty, hsign, hfolded, false_or]

end Resource

end ClusterConsole
