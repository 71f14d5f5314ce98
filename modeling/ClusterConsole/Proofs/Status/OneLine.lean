import ClusterConsole.Proofs.Text.Lines
import ClusterConsole.Status.Notice
import Mathlib.Data.List.Basic

/-!
# One short line

Of a message the status line shows the first line (`Text.FirstLine`), and a long one only up to
the limit, with an ellipsis at its end (`toList_statusText`). What is shown is a short line
itself (`Line.Short`), so it would be shown as it is (`statusText_statusText`). A line can
therefore be recognised by its message, however long that is and whatever its line ends look
like (`Line.resetIfShowing_ofNotice`).
-/

namespace ClusterConsole.Text

variable {run cs a line : List Char}

/-- The first line of a text, without what ends it: a line feed, or a carriage return and a line
feed. -/
inductive FirstLine : List Char → List Char → Prop where
  | only {cs : List Char} (h : '\n' ∉ cs) : FirstLine cs cs
  | feed {line : List Char} (rest : List Char) (h : '\n' ∉ line)
      (hcr : line.getLast? ≠ some '\r') : FirstLine (line ++ '\n' :: rest) line
  | crlf {line : List Char} (rest : List Char) (h : '\n' ∉ line) :
      FirstLine (line ++ '\r' :: '\n' :: rest) line

theorem FirstLine.feed_notMem (h : FirstLine cs line) : '\n' ∉ line := by
  cases h <;> assumption

theorem exists_firstLine (cs : List Char) : ∃ line, FirstLine cs line := by
  cases hcut : cutList '\n' cs with
  | none => exact ⟨cs, .only (cutList_eq_none_iff.1 hcut)⟩
  | some parts =>
      obtain ⟨a, b⟩ := parts
      obtain ⟨rfl, hfeed⟩ := cutList_eq_some hcut
      by_cases hcr : a.getLast? = some '\r'
      · obtain ⟨line, rfl⟩ := List.getLast?_eq_some_iff.1 hcr
        rw [List.append_assoc]
        exact ⟨line, .crlf b fun hmem => hfeed (List.mem_append_left _ hmem)⟩
      · exact ⟨a, .feed b hfeed hcr⟩

theorem head?_linesFrom_of_notMem (h : '\n' ∉ cs) :
    ((linesFrom run cs).head?).getD [] = run.reverse ++ cs := by
  induction cs generalizing run with
  | nil => cases run <;> simp [linesFrom]
  | cons c cs ih =>
      obtain ⟨hc, hcs⟩ := not_or.1 (mt List.mem_cons.2 h)
      rw [linesFrom, if_neg (Ne.symm hc), ih hcs, List.reverse_cons, List.append_assoc,
        List.singleton_append]

theorem head?_linesFrom_feed (h : '\n' ∉ a) (rest : List Char) :
    (linesFrom run (a ++ '\n' :: rest)).head? =
      some (if (run.reverse ++ a).getLast? = some '\r' then (run.reverse ++ a).dropLast
        else run.reverse ++ a) := by
  induction a generalizing run with
  | nil =>
      rw [List.nil_append, linesFrom, if_pos rfl, List.head?_cons, List.append_nil,
        List.getLast?_reverse, List.dropLast_reverse]
      split <;> rfl
  | cons c a ih =>
      obtain ⟨hc, ha⟩ := not_or.1 (mt List.mem_cons.2 h)
      rw [List.cons_append, linesFrom, if_neg (Ne.symm hc), ih ha]
      simp

/-- The first of the lines of a text is its first line; a text without lines is empty. -/
theorem FirstLine.head?_linesFrom (h : FirstLine cs line) :
    ((linesFrom [] cs).head?).getD [] = line := by
  cases h with
  | only h => exact head?_linesFrom_of_notMem h
  | feed rest h hcr => simp [head?_linesFrom_feed h, hcr]
  | crlf rest h =>
      have hfeed : '\n' ∉ line ++ ['\r'] := by simp [h]
      have happend : line ++ '\r' :: '\n' :: rest = (line ++ ['\r']) ++ '\n' :: rest := by simp
      rw [happend, head?_linesFrom_feed hfeed]
      simp

end ClusterConsole.Text

namespace ClusterConsole.Status

open ClusterConsole.Text

variable {text shown : String} {line : List Char} {l : Line}

theorem lineLimit_eq : lineLimit = 180 := rfl

theorem toList_statusText (h : FirstLine text.toList line) : (statusText text).toList =
    if line.length ≤ 180 then line else line.take 179 ++ ['…'] := by
  simp only [statusText, h.head?_linesFrom, lineLimit_eq]
  split <;> exact String.toList_ofList

/-- A text without line feeds and within the limit is shown as it is. -/
theorem statusText_of_short (hfeed : '\n' ∉ text.toList)
    (hlength : text.toList.length ≤ 180) : statusText text = text := by
  rw [← String.toList_inj, toList_statusText (.only hfeed), if_pos hlength]

namespace Line

/-- A line without line feeds and of 180 characters at most. -/
structure Short (l : Line) : Prop where
  feed_notMem : '\n' ∉ l.text.toList
  length_le : l.text.toList.length ≤ 180

theorem short_ofNotice (n : Notice) : (ofNotice n).Short := by
  obtain ⟨line, hline⟩ := exists_firstLine n.text.toList
  have htext : (ofNotice n).text.toList = _ := toList_statusText hline
  constructor
  · rw [htext]
    split
    · exact hline.feed_notMem
    · intro hmem
      rcases List.mem_append.1 hmem with hmem | hmem
      · exact hline.feed_notMem (List.mem_of_mem_take hmem)
      · exact absurd hmem (by decide)
  · rw [htext]
    split
    · assumption
    · simp only [List.length_append, List.length_take, List.length_singleton]
      omega

theorem short_blank : blank.Short := ⟨by decide, by decide⟩

theorem Short.resetIfShowing (h : l.Short) (shown : String) : (l.resetIfShowing shown).Short := by
  unfold Line.resetIfShowing
  split
  · exact short_blank
  · exact h

/-- The line that shows a message is recognised by it. -/
theorem resetIfShowing_ofNotice (n : Notice) : (ofNotice n).resetIfShowing n.text = blank :=
  if_pos rfl

theorem resetIfShowing_of_ne (h : l.text ≠ statusText shown) : l.resetIfShowing shown = l :=
  if_neg h

/-- An empty line stays empty. -/
theorem resetIfShowing_blank (shown : String) : blank.resetIfShowing shown = blank := by
  unfold Line.resetIfShowing
  split <;> rfl

end Line

theorem statusText_statusText (text : String) : statusText (statusText text) = statusText text := by
  have hshort : (Line.ofNotice ⟨.info, text⟩).Short := Line.short_ofNotice _
  exact statusText_of_short hshort.feed_notMem hshort.length_le

end ClusterConsole.Status
