import ClusterConsole.Text.Blank

/-!
# Cutting texts and ASCII case

A text is cut at the first occurrence of a separator; a search for a part of a
text and the folding of case treat ASCII letters only.
-/

namespace ClusterConsole.Text

/-- What stands before and after the first `sep`, if there is one. -/
def cutList (sep : Char) : List Char → Option (List Char × List Char)
  | [] => none
  | c :: cs =>
      if c = sep then some ([], cs)
      else (cutList sep cs).map fun p => (c :: p.1, p.2)

theorem cutList_eq_some {sep : Char} {cs a b : List Char} (h : cutList sep cs = some (a, b)) :
    cs = a ++ sep :: b ∧ sep ∉ a := by
  induction cs generalizing a b with
  | nil => simp [cutList] at h
  | cons c cs ih =>
    by_cases hc : c = sep
    · simp [cutList, hc] at h
      obtain ⟨rfl, rfl⟩ := h
      simp [hc]
    · simp only [cutList, hc, if_false, Option.map_eq_some_iff] at h
      obtain ⟨⟨a', b'⟩, h', hp⟩ := h
      simp only [Prod.mk.injEq] at hp
      obtain ⟨rfl, rfl⟩ := hp
      obtain ⟨rfl, hn⟩ := ih h'
      exact ⟨rfl, by simp [hn, Ne.symm hc]⟩

theorem cutList_eq_none_iff {sep : Char} {cs : List Char} :
    cutList sep cs = none ↔ sep ∉ cs := by
  induction cs with
  | nil => simp [cutList]
  | cons c cs ih =>
    by_cases hc : c = sep
    · simp [cutList, hc]
    · simp [cutList, hc, ih, Ne.symm hc]

theorem cutList_append {sep : Char} {a : List Char} (h : sep ∉ a) (b : List Char) :
    cutList sep (a ++ sep :: b) = some (a, b) := by
  induction a with
  | nil => simp [cutList]
  | cons c a ih =>
    simp only [List.mem_cons, not_or] at h
    simp [cutList, Ne.symm h.1, ih h.2]

/-- What stands before and after the first `sep` of the text, if there is one. -/
def cut (sep : Char) (s : String) : Option (String × String) :=
  (cutList sep s.toList).map fun p => (String.ofList p.1, String.ofList p.2)

/-- The parts between the separators; a list without a separator is one part. -/
def splitList (sep : Char) : List Char → List (List Char)
  | [] => [[]]
  | c :: cs =>
      if c = sep then [] :: splitList sep cs
      else
        match splitList sep cs with
        | [] => [[c]]
        | p :: ps => (c :: p) :: ps

/-- The parts of the text between the separators. -/
def split (sep : Char) (s : String) : List String :=
  (splitList sep s.toList).map String.ofList

/-- The part that stands before the first `sep`, or all of the list. -/
def beforeList (sep : Char) (cs : List Char) : List Char :=
  cs.takeWhile (· ≠ sep)

/-- The lines of a list of characters; `run` holds the open line, last
character first. A line ends at a line feed, the carriage return before it taken
away; an empty rest is no line. -/
def linesFrom (run : List Char) : List Char → List (List Char)
  | [] => if run.isEmpty then [] else [run.reverse]
  | c :: cs =>
      if c = '\n' then
        (if run.head? = some '\r' then run.tail else run).reverse :: linesFrom [] cs
      else linesFrom (c :: run) cs

/-- The lines of the text. -/
def lines (s : String) : List String :=
  (linesFrom [] s.toList).map String.ofList

/-- The text with its ASCII letters in lower case. -/
def lower (s : String) : String :=
  String.ofList (s.toList.map Char.toLower)

/-- The text with its ASCII letters in upper case. -/
def upper (s : String) : String :=
  String.ofList (s.toList.map Char.toUpper)

/-- Whether two texts are equal up to the case of ASCII letters. -/
def sameFolded (s t : String) : Bool :=
  lower s == lower t

/-- Whether `part` occurs in the list without a gap. -/
def occursList (part : List Char) : List Char → Bool
  | [] => part.isEmpty
  | c :: cs => part.isPrefixOf (c :: cs) || occursList part cs

/-- Whether `part` occurs in the text. -/
def occurs (part s : String) : Bool :=
  occursList part.toList s.toList

/-- The text without `head` at its start, if it starts so. -/
def dropHead? (head : String) (s : String) : Option String :=
  if head.toList.isPrefixOf s.toList then some (String.ofList (s.toList.drop head.length)) else none

/-- The texts joined, `sep` between neighbours. -/
def join (sep : String) (parts : List String) : String :=
  String.intercalate sep parts

end ClusterConsole.Text
