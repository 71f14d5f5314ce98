import ClusterConsole.Proofs.Number.BitOrder
import ClusterConsole.Proofs.Number.Reading
import ClusterConsole.Snapshot.Sorting

/-!
# Cells that are numbers

A cell is read up to a slash, without the percent sign that it may end in (`readNumber?`).
One that begins with a whole number, and goes on in one of these two ways or not at all,
is read as the number nearest to it.
-/

namespace ClusterConsole.Snapshot

open ClusterConsole.Number ClusterConsole.Text

variable {cell : String} {n : Nat}

/-- The number that a cell is read as, if it is one. -/
def readNumber? (cell : String) : Option Binary64 :=
  let cs := beforeList '/' (trimList cell.toList)
  let cs := if cs.getLast? = some '%' then cs.dropLast else cs
  Binary64.read? (trimList cs)

theorem numberKey_eq (cell : String) :
    numberKey cell = (readNumber? cell).getD Binary64.negInfinity := by
  simp only [numberKey, readNumber?]

theorem isNumber_numberKey (cell : String) : (numberKey cell).IsNumber := by
  rw [numberKey_eq]
  cases h : readNumber? cell with
  | none => exact Binary64.isNumber_negInfinity
  | some x =>
      rw [readNumber?] at h
      exact Binary64.isNumber_of_read? h

/-- What has neither a blank nor a slash in it is read as a whole. -/
theorem beforeList_trimList {cs : List Char} (h : ∀ c ∈ cs, isBlank c = false ∧ c ≠ '/') :
    beforeList '/' (trimList cs) = cs := by
  rw [(trimmed_of_forall fun c hc => (h c hc).1).trimList_eq]
  exact List.takeWhile_eq_self_iff.2 fun c hc => decide_eq_true (h c hc).2

theorem plain_of_mem_toString {c : Char} (h : c ∈ (toString n).toList) :
    isBlank c = false ∧ c ≠ '/' := by
  refine ⟨(isWord_toString n).2 c h, ?_⟩
  rintro rfl
  exact absurd (isDigit_of_mem_toString h) (by decide)

theorem getLast?_toString_ne (n : Nat) : (toString n).toList.getLast? ≠ some '%' := fun h =>
  absurd (isDigit_of_mem_toString (List.mem_of_getLast? h)) (by decide)

/-- What stands before the slash decides. -/
theorem readNumber?_of_before (h : beforeList '/' (trimList cell.toList) = (toString n).toList ∨
    beforeList '/' (trimList cell.toList) = (toString n).toList ++ ['%']) :
    readNumber? cell = some (Binary64.ofNat n) := by
  have htrim : trimList (toString n).toList = (toString n).toList :=
    (trimmed_of_forall (isWord_toString n).2).trimList_eq
  rw [readNumber?]
  rcases h with h | h
  · simp only [h, if_neg (getLast?_toString_ne n), htrim, Binary64.read?_toString]
  · simp only [h, List.getLast?_concat, if_true, List.dropLast_concat, htrim,
      Binary64.read?_toString]

theorem readNumber?_toString (n : Nat) : readNumber? (toString n) = some (Binary64.ofNat n) :=
  readNumber?_of_before (.inl (beforeList_trimList fun _ => plain_of_mem_toString))

theorem readNumber?_percent (n : Nat) :
    readNumber? (toString n ++ "%") = some (Binary64.ofNat n) := by
  refine readNumber?_of_before (.inr ?_)
  rw [String.toList_append]
  refine beforeList_trimList fun c hc => ?_
  rcases List.mem_append.1 hc with hc | hc
  · exact plain_of_mem_toString hc
  · rw [List.mem_singleton.1 hc]
    decide

theorem readNumber?_slash (n : Nat) (rest : String) :
    readNumber? (toString n ++ "/" ++ rest) = some (Binary64.ofNat n) := by
  have hcell : (toString n ++ "/" ++ rest).toList = (toString n).toList ++ '/' :: rest.toList := by
    simp [String.toList_append]
  have hstart : trimStartList (toString n).toList = (toString n).toList :=
    (trimmed_of_forall (isWord_toString n).2).dropWhile_eq
  have hslash : '/' ∉ (toString n).toList := fun h => (plain_of_mem_toString h).2 rfl
  refine readNumber?_of_before (.inl ?_)
  rw [hcell, trimList_append_cons (by decide), hstart, beforeList_append hslash]
  exact List.append_nil _

end ClusterConsole.Snapshot
