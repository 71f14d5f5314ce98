import ClusterConsole.Text.Cut

/-!
# The lines of a text

A line feed parts the lines before it from those after it, so a text whose parts all end in
one has the lines of its parts, one part after the other (`linesFrom_ended`). A part may have
line feeds itself; if it has none it is one line (`IsLine.linesFrom`).
-/

namespace ClusterConsole.Text

variable {run a b : List Char} {parts : List (List Char)}

theorem linesFrom_append_feed (run a b : List Char) :
    linesFrom run (a ++ '\n' :: b) = linesFrom run (a ++ ['\n']) ++ linesFrom [] b := by
  induction a generalizing run with
  | nil => simp [linesFrom]
  | cons c a ih =>
      by_cases hc : c = '\n'
      · simp [linesFrom, hc, ih]
      · simp [linesFrom, hc, ih]

/-- The parts, each with a line feed after it. -/
def ended (parts : List (List Char)) : List Char := parts.flatMap (· ++ ['\n'])

theorem linesFrom_ended (parts : List (List Char)) :
    linesFrom [] (ended parts) = parts.flatMap fun a => linesFrom [] (a ++ ['\n']) := by
  induction parts with
  | nil => rfl
  | cons a parts ih =>
      have hcons : ended (a :: parts) = a ++ '\n' :: ended parts := by simp [ended]
      rw [hcons, linesFrom_append_feed, ih, List.flatMap_cons]

/-- No line feed stands in the list, and no carriage return at its end. -/
structure IsLine (a : List Char) : Prop where
  feed : '\n' ∉ a
  cr : a.getLast? ≠ some '\r'

theorem linesFrom_concat_feed (ha : '\n' ∉ a) (hcr : (run.reverse ++ a).getLast? ≠ some '\r') :
    linesFrom run (a ++ ['\n']) = [run.reverse ++ a] := by
  induction a generalizing run with
  | nil =>
      have hhead : run.head? ≠ some '\r' := by simpa [List.getLast?_reverse] using hcr
      simp [linesFrom, hhead]
  | cons c a ih =>
      obtain ⟨hc, ha⟩ := not_or.1 (mt List.mem_cons.2 ha)
      rw [List.cons_append, linesFrom, if_neg (Ne.symm hc), ih ha (by simpa using hcr)]
      simp

theorem IsLine.linesFrom (h : IsLine a) : linesFrom [] (a ++ ['\n']) = [a] :=
  linesFrom_concat_feed h.feed h.cr

end ClusterConsole.Text
